import ObjectRuntime.Json.Shape
import ObjectRuntime.Proofs.Documents

/-! Reading what a node spells. A reader reads a value if it takes every node that spells it for the same
thing; a record is read from an object with a member for each of its fields, in whatever order they
stand. -/

namespace ObjectRuntime

/-! ### Maps -/

namespace NameMap

variable {α β : Type}

theorem insertEntry_of_lt {name : String} (value : α) {es : List (String × α)}
    (h : ∀ e ∈ es, e.1 < name) : insertEntry name value es = es ++ [(name, value)] := by
  induction es with
  | nil => rfl
  | cons e es ih =>
    have he := h e List.mem_cons_self
    have hle : ¬ name < e.1 := fun hlt => String.lt_irrefl _ (String.lt_trans hlt he)
    have hne : name ≠ e.1 := by
      rintro rfl
      exact String.lt_irrefl _ he
    rw [insertEntry, if_neg hle, if_neg hne, ih fun e' he' => h e' (List.mem_cons_of_mem e he'),
      List.cons_append]

theorem entries_foldl_insert {es : List (String × α)} {m : NameMap α}
    (h : (m.entries ++ es).Pairwise (fun a b => a.1 < b.1)) :
    (es.foldl (fun m e => m.insert e.1 e.2) m).entries = m.entries ++ es := by
  induction es generalizing m with
  | nil => rw [List.append_nil]; rfl
  | cons e es ih =>
    have hlast : (m.insert e.1 e.2).entries = m.entries ++ [e] :=
      insertEntry_of_lt e.2 fun e' he' => (List.pairwise_append.1 h).2.2 e' he' e List.mem_cons_self
    rw [List.append_cons, ← hlast] at h
    rw [List.foldl_cons, ih h, hlast, List.append_assoc, List.singleton_append]

/-- Sorted entries make the map that they are the entries of. -/
theorem ofList_entries (m : NameMap α) : ofList m.entries = m :=
  ext (entries_foldl_insert (m := empty) m.sorted)

end NameMap

namespace Json

variable {α : Type}

/-- Every node that spells the value is read as `a`. -/
def Reads (read : Reader α) (j : Json) (a : α) : Prop := ∀ n : Node, n.Spells j → read n = .ok a

/-! ### Scalars, lists and maps -/

theorem reads_text (s : String) : Reads readText (.str s) s := by
  intro n hn
  cases hn
  rfl

theorem reads_below {bound k : Nat} (expected : String) (h : k < bound) :
    Reads (readBelow bound expected) (.ofNat k) k := by
  intro n hn
  cases hn with
  | natural hvalue hk =>
    obtain rfl := Int.ofNat_inj.1 hk
    simp only [readBelow, wordOf, hvalue, orMalformed]
    exact if_pos h
  | negative hvalue hk hneg => omega

theorem Reads.map {β : Type} {read : Reader α} {j : Json} {a : α} (h : Reads read j a) (f : α → β) :
    Reads (fun n => (read n).map f) j (f a) := by
  intro n hn
  exact congrArg (Except.map f) (h n hn)

theorem reads_word16 (w : UInt16) : Reads readWord16 (.ofNat w.toNat) w := by
  have h := (reads_below "u16" w.toNat_lt).map Nat.toUInt16
  rwa [show w.toNat.toUInt16 = w from UInt16.ofNat_toNat] at h

theorem reads_word32 (w : UInt32) : Reads readWord32 (.ofNat w.toNat) w := by
  have h := (reads_below "u32" w.toNat_lt).map Nat.toUInt32
  rwa [show w.toNat.toUInt32 = w from UInt32.ofNat_toNat] at h

theorem reads_word64 (w : UInt64) : Reads readWord64 (.ofNat w.toNat) w := by
  have h := (reads_below "usize" w.toNat_lt).map Nat.toUInt64
  rwa [show w.toNat.toUInt64 = w from UInt64.ofNat_toNat] at h

theorem readEach_items {read : Reader α} {toJson : α → Json} {as : List α}
    (h : ∀ a ∈ as, Reads read (toJson a) a) {items : Items} (hitems : items.Spells (as.map toJson)) :
    items.readEach read = .ok as := by
  induction as generalizing items with
  | nil => cases hitems; rfl
  | cons a as ih =>
    cases hitems with
    | cons hhead htail =>
      rw [Items.readEach, h a List.mem_cons_self _ hhead,
        ih (fun b hb => h b (List.mem_cons_of_mem a hb)) htail]
      rfl

theorem reads_list {read : Reader α} {toJson : α → Json} {as : List α}
    (h : ∀ a ∈ as, Reads read (toJson a) a) : Reads (readList read) (.arr (as.map toJson)) as := by
  intro n hn
  cases hn with
  | array hitems => exact readEach_items h hitems

theorem readEach_members {read : Reader α} {toJson : α → Json} {es : List (String × α)}
    (h : ∀ e ∈ es, Reads read (toJson e.2) e.2) {members : Members}
    (hmembers : members.Spells (es.map fun e => (e.1, toJson e.2))) :
    members.readEach read = .ok es := by
  induction es generalizing members with
  | nil => cases hmembers; rfl
  | cons e es ih =>
    cases hmembers with
    | cons hvalue htail =>
      rw [Members.readEach, h e List.mem_cons_self _ hvalue,
        ih (fun e' he' => h e' (List.mem_cons_of_mem e he')) htail]
      rfl

theorem reads_map {read : Reader α} {toJson : α → Json} {m : NameMap α}
    (h : ∀ e ∈ m.entries, Reads read (toJson e.2) e.2) :
    Reads (readMap read) (.ofMap (m.map toJson)) m := by
  intro n hn
  cases hn with
  | object hmembers =>
    rw [readMap, readEach_members h hmembers]
    exact congrArg Except.ok m.ofList_entries

/-! ### Records -/

namespace Shape

variable {ι : Type} [DecidableEq ι] {s : Shape ι}

/-- Every field stands in the declaration, and no two have one name. -/
structure Declared (s : Shape ι) : Prop where
  mem_fields (i : ι) : i ∈ s.fields
  nodup : (s.fields.map s.name).Nodup

omit [DecidableEq ι] in
theorem Declared.find?_name (hs : s.Declared) (i : ι) :
    s.fields.find? (s.name · == s.name i) = some i := by
  obtain ⟨j, hj⟩ : ∃ j, s.fields.find? (s.name · == s.name i) = some j :=
    Option.isSome_iff_exists.1 (List.find?_isSome.2 ⟨i, hs.mem_fields i, beq_self_eq_true _⟩)
  have hname : s.name j = s.name i := by simpa using List.find?_some hj
  rw [hj, List.inj_on_of_nodup_map hs.nodup (List.mem_of_find?_eq_some hj) (hs.mem_fields i) hname]

theorem Draft.set_self (d : Draft s) (i : ι) (v : s.Value i) : d.set i v i = some v := dif_pos rfl

theorem Draft.set_of_ne {i j : ι} (h : i ≠ j) (d : Draft s) (v : s.Value i) : d.set i v j = d j := dif_neg h

/-- The member of a field that has not been read before fills it. -/
theorem readMembers_field (hs : s.Declared) {d : Draft s} {i : ι} {stop : Nat} {value : Node}
    {tail : Members} {v : s.Value i} (hd : d i = none) (hv : s.read i value = .ok v) :
    s.readMembers d (.cons (.ok (s.name i)) stop value tail) = s.readMembers (d.set i v) tail := by
  have hfresh : (d i).isSome = false := by rw [hd]; rfl
  simp only [readMembers, orMalformed, Except.mapError, bind, Except.bind, hs.find?_name i, hfresh, hv]
  rfl

variable (values : (i : ι) → s.Value i) (toJson : ι → Json)

/-- The members of fields that have not been read before fill these fields of the draft. -/
theorem readMembers_fields (hs : s.Declared) (hread : ∀ i, Reads (s.read i) (toJson i) (values i))
    {is : List ι} (his : is.Nodup) {d : Draft s} (hd : ∀ i ∈ is, d i = none) {members : Members}
    (hmembers : members.Spells (is.map fun i => (s.name i, toJson i))) :
    ∃ stop, s.readMembers d members = .ok (fun i => if i ∈ is then some (values i) else d i, stop) := by
  induction is generalizing d members with
  | nil =>
    cases hmembers with
    | close => exact ⟨_, rfl⟩
  | cons i is ih =>
    obtain ⟨hi, his⟩ := List.nodup_cons.1 his
    cases hmembers with
    | cons hvalue htail =>
      have hapart : ∀ j ∈ is, i ≠ j := fun j hj heq => hi (heq ▸ hj)
      obtain ⟨stop, hrest⟩ := ih his (d := d.set i (values i)) (fun j hj => by
        rw [Draft.set_of_ne (hapart j hj), hd j (List.mem_cons_of_mem i hj)]) htail
      refine ⟨stop, ?_⟩
      rw [readMembers_field hs (hd i List.mem_cons_self) (hread i _ hvalue), hrest]
      congr 2
      funext j
      by_cases hj : j ∈ is
      · rw [if_pos hj, if_pos (List.mem_cons_of_mem i hj)]
      · rw [if_neg hj]
        by_cases heq : i = j
        · subst heq
          rw [if_pos List.mem_cons_self, Draft.set_self]
        · rw [if_neg (by simp [hj, Ne.symm heq]), Draft.set_of_ne heq]

theorem reads_reader (hs : s.Declared) (hread : ∀ i, Reads (s.read i) (toJson i) (values i))
    {finish : Draft s → Except ι α} {a : α} (hfinish : finish (fun i => some (values i)) = .ok a) :
    Reads (s.reader finish) (.obj (s.fields.map fun i => (s.name i, toJson i))) a := by
  intro n hn
  cases hn with
  | @object start members _ hmembers =>
    obtain ⟨stop, hall⟩ :=
      readMembers_fields values toJson hs hread (List.Nodup.of_map _ hs.nodup) (d := fun _ => none)
        (fun _ _ => rfl) hmembers
    simp only [hs.mem_fields, if_true] at hall
    have hdraft : s.reader finish (.object start members) =
        (finish fun i => some (values i)).mapError fun i => .mismatch (.missingField (s.name i)) stop := by
      simp only [reader, hall]
      rfl
    rw [hdraft, hfinish]
    rfl

end Shape

end Json

end ObjectRuntime
