import ObjectRuntime.Proofs.Contents

/-! Reading records, whatever the order. A record is taken from an object if each field is written for at most
once and is taken for what it is, and if what is left over may be read over; where the members stand makes no
difference. From a list it is taken field by field. -/

namespace ObjectRuntime.Json.Shape

variable {ι α : Type} {s : Shape ι}

/-- What is written for a field. -/
def written (s : Shape ι) (i : ι) (ms : List Member) : List Content :=
  (ms.filter (·.1 = some (s.name i))).map Prod.snd

/-- Every member has a name, and in a closed record it is that of a field. -/
def Admits (s : Shape ι) (ms : List Member) : Prop :=
  ∀ m ∈ ms, ∃ name, m.1 = some name ∧ (s.closed → ∃ i, s.name i = name)

/-- From the draft `start` on, the members fill in the fields that they are for, each once, and no others. -/
structure Fills (s : Shape ι) (start : Draft s) (ms : List Member) (d : Draft s) : Prop where
  admits : s.Admits ms
  field (i : ι) : (s.written i ms = [] ∧ d i = start i) ∨
    (start i = none ∧ ∃ c v, s.written i ms = [c] ∧ Takes (s.read i) c v ∧ d i = some v)

/-- What is written for the fields from `start` on, one after the other. Only optional fields may be left out at
the end. -/
def Lists [DecidableEq ι] (s : Shape ι) (start : Draft s) : List ι → List Content → Draft s → Prop
  | [], [], d => start = d
  | [], _ :: _, _ => False
  | i :: rest, [], d => s.optional i ∧ s.Lists start rest [] d
  | i :: rest, c :: cs, d => ∃ v, Takes (s.read i) c v ∧ s.Lists (start.set i v) rest cs d

/-! ### Members -/

section Members

variable {start d : Draft s} {ms ms' : List Member} {m : Member} {c : Content} {i j : ι} {name : String}

theorem written_cons : s.written i (m :: ms) =
    if m.1 = some (s.name i) then m.2 :: s.written i ms else s.written i ms := by
  unfold written
  by_cases h : m.1 = some (s.name i) <;> simp [h]

theorem Declared.name_injective (hs : s.Declared) : Function.Injective s.name := fun i j heq =>
  List.inj_on_of_nodup_map hs.nodup (hs.mem_fields i) (hs.mem_fields j) heq

theorem written_cons_self : s.written i ((some (s.name i), c) :: ms) = c :: s.written i ms := by
  rw [written_cons, if_pos rfl]

theorem Declared.written_cons_of_ne (hs : s.Declared) (h : i ≠ j) :
    s.written j ((some (s.name i), c) :: ms) = s.written j ms := by
  rw [written_cons, if_neg]
  intro heq
  exact h (hs.name_injective (Option.some.inj heq))

theorem written_cons_of_unknown (h : ∀ i, s.name i ≠ name) :
    s.written j ((some name, c) :: ms) = s.written j ms := by
  rw [written_cons, if_neg]
  intro heq
  exact h j (Option.some.inj heq).symm

theorem fills_nil : s.Fills start [] d ↔ d = start := by
  refine ⟨fun h => funext fun i => ?_, ?_⟩
  · rcases h.field i with ⟨-, heq⟩ | ⟨-, c, v, hc, -⟩
    · exact heq
    · cases hc
  · rintro rfl
    exact ⟨nofun, fun i => .inl ⟨rfl, rfl⟩⟩

theorem not_fills_nameless : ¬ s.Fills start ((none, c) :: ms) d := by
  intro h
  obtain ⟨name, heq, -⟩ := h.admits _ List.mem_cons_self
  cases heq

theorem fills_cons_unknown (hname : ∀ i, s.name i ≠ name) :
    s.Fills start ((some name, c) :: ms) d ↔ s.closed = false ∧ s.Fills start ms d := by
  have hfields (i : ι) : s.written i ((some name, c) :: ms) = s.written i ms := written_cons_of_unknown hname
  refine ⟨fun h => ⟨?_, fun m hm => h.admits m (List.mem_cons_of_mem _ hm), fun i => ?_⟩, fun ⟨hopen, h⟩ =>
    ⟨fun m hm => ?_, fun i => ?_⟩⟩
  · obtain ⟨_, ⟨⟩, hknown⟩ := h.admits _ List.mem_cons_self
    by_contra hclosed
    obtain ⟨i, hi⟩ := hknown (by simpa using hclosed)
    exact hname i hi
  · rw [← hfields i]
    exact h.field i
  · rcases List.mem_cons.1 hm with rfl | hm
    · exact ⟨name, rfl, fun hclosed => by simp [hopen] at hclosed⟩
    · exact h.admits m hm
  · rw [hfields i]
    exact h.field i

/-- The first member of a field is the only one. -/
theorem Declared.fills_cons [DecidableEq ι] (hs : s.Declared) :
    s.Fills start ((some (s.name i), c) :: ms) d ↔
      start i = none ∧ ∃ v, Takes (s.read i) c v ∧ s.Fills (start.set i v) ms d := by
  refine ⟨fun h => ?_, ?_⟩
  · have hadmits : s.Admits ms := fun m hm => h.admits m (List.mem_cons_of_mem _ hm)
    have hi := h.field i
    rw [written_cons_self] at hi
    rcases hi with ⟨hnil, -⟩ | ⟨hstart, c', v, hc, htakes, hd⟩
    · cases hnil
    obtain ⟨rfl, hrest⟩ := List.cons_eq_cons.1 hc
    refine ⟨hstart, v, htakes, hadmits, fun j => ?_⟩
    by_cases hij : i = j
    · subst hij
      exact .inl ⟨hrest, by rw [hd, Draft.set_self]⟩
    · rw [Draft.set_of_ne hij, ← hs.written_cons_of_ne hij]
      exact h.field j
  · rintro ⟨hstart, v, htakes, h⟩
    refine ⟨fun m hm => ?_, fun j => ?_⟩
    · rcases List.mem_cons.1 hm with rfl | hm
      · exact ⟨_, rfl, fun _ => ⟨i, rfl⟩⟩
      · exact h.admits m hm
    · by_cases hij : i = j
      · subst hij
        rcases h.field i with ⟨hnil, hd⟩ | ⟨hset, -⟩
        · rw [Draft.set_self] at hd
          exact .inr ⟨hstart, c, v, by rw [written_cons_self, hnil], htakes, hd⟩
        · rw [Draft.set_self] at hset
          cases hset
      · rw [hs.written_cons_of_ne hij, ← Draft.set_of_ne hij start v]
        exact h.field j

end Members

/-! ### Readers -/

section Readers

variable [DecidableEq ι] {start d : Draft s} {members : Members} {items : Items} {ms : List Member}
  {cs : List Content} {finish : Draft s → Except ι α} {a : α}

theorem readMembers_unknown {name : String} {stop : Nat} {value : Node} {r : Draft s × Nat}
    (hname : ∀ i, s.name i ≠ name) : s.readMembers start (.cons (.ok name) stop value members) = .ok r ↔
      s.closed = false ∧ value.fault? = none ∧ s.readMembers start members = .ok r := by
  have hnone : s.fields.find? (s.name · == name) = none := by simp [hname]
  simp only [readMembers, orMalformed, Except.mapError, bind, Except.bind, hnone]
  cases s.closed <;> cases value.fault? <;> simp

/-- The member of a field is read if none has been read for the field before. -/
theorem readMembers_cons_iff (hs : s.Declared) {i : ι} {stop : Nat} {value : Node} {r : Draft s × Nat} :
    s.readMembers start (.cons (.ok (s.name i)) stop value members) = .ok r ↔
      start i = none ∧ ∃ v, s.read i value = .ok v ∧ s.readMembers (start.set i v) members = .ok r := by
  simp only [readMembers, orMalformed, Except.mapError, bind, Except.bind, hs.find?_name i]
  cases hstart : start i with
  | some v => simp
  | none => cases s.read i value <;> simp

theorem readMembers_iff (hs : s.Declared) (hread : ∀ i, ByContent (s.read i)) :
    (members : Members) → (start : Draft s) → ((∃ stop, s.readMembers start members = .ok (d, stop)) ↔
      ∃ ms, members.contents? = some ms ∧ s.Fills start ms d)
  | .close stop, start => by simp [readMembers, Members.contents?, fills_nil, eq_comm]
  | .broken b, start => by simp [readMembers, Members.contents?]
  | .cons (.error f) stop value tail, start => by
    refine iff_of_false ?_ ?_
    · rintro ⟨stop', hrun⟩
      cases hrun
    · rintro ⟨ms, hms, hfills⟩
      obtain ⟨c, ms, -, -, rfl⟩ := contents?_cons_members.1 hms
      exact not_fills_nameless hfills
  | .cons (.ok name) stop value tail, start => by
    have hcontents (ms : List Member) : (Members.cons (.ok name) stop value tail).contents? = some ms ↔
        ∃ c ms', value.content? = some c ∧ tail.contents? = some ms' ∧ (some name, c) :: ms' = ms :=
      contents?_cons_members
    have ih := readMembers_iff hs hread tail
    by_cases hname : ∃ i, s.name i = name
    · obtain ⟨i, rfl⟩ := hname
      simp only [readMembers_cons_iff hs, hread i value, hcontents]
      constructor
      · rintro ⟨stop', hstart, v, ⟨c, hc, htakes⟩, hrun⟩
        obtain ⟨ms, hms, hfills⟩ := (ih _).1 ⟨stop', hrun⟩
        exact ⟨_, ⟨c, ms, hc, hms, rfl⟩, hs.fills_cons.2 ⟨hstart, v, htakes, hfills⟩⟩
      · rintro ⟨_, ⟨c, ms, hc, hms, rfl⟩, hfills⟩
        obtain ⟨hstart, v, htakes, hfills⟩ := hs.fills_cons.1 hfills
        obtain ⟨stop', hrun⟩ := (ih _).2 ⟨ms, hms, hfills⟩
        exact ⟨stop', hstart, v, ⟨c, hc, htakes⟩, hrun⟩
    · have hunknown : ∀ i, s.name i ≠ name := fun i hi => hname ⟨i, hi⟩
      simp only [readMembers_unknown hunknown, Node.fault?_eq_none_iff, hcontents]
      constructor
      · rintro ⟨stop', hopen, ⟨c, hc⟩, hrun⟩
        obtain ⟨ms, hms, hfills⟩ := (ih start).1 ⟨stop', hrun⟩
        exact ⟨_, ⟨c, ms, hc, hms, rfl⟩, (fills_cons_unknown hunknown).2 ⟨hopen, hfills⟩⟩
      · rintro ⟨_, ⟨c, ms, hc, hms, rfl⟩, hfills⟩
        obtain ⟨hopen, hfills⟩ := (fills_cons_unknown hunknown).1 hfills
        obtain ⟨stop', hrun⟩ := (ih start).2 ⟨ms, hms, hfills⟩
        exact ⟨stop', hopen, ⟨c, hc⟩, hrun⟩

theorem readItems_iff (hread : ∀ i, ByContent (s.read i)) {fields : List ι} {index : Nat} :
    (∃ stop, s.readItems start index fields items = .ok (d, stop)) ↔
      ∃ cs, items.contents? = some cs ∧ s.Lists start fields cs d := by
  induction fields generalizing items start index with
  | nil =>
    cases items with
    | cons start head tail =>
      simp only [readItems, contents?_cons_items]
      grind [Lists]
    | _ => simp [readItems, Items.contents?, Lists]
  | cons i fields ih =>
    cases items with
    | close stop =>
      have hrest : (∃ stop', s.readItems start (index + 1) fields (.close stop) = .ok (d, stop')) ↔
          ∃ cs, (Items.close stop).contents? = some cs ∧ s.Lists start fields cs d := ih
      cases hoptional : s.optional i <;> simp [readItems, Items.contents?, Lists, hoptional, hrest]
    | broken b => simp [readItems, Items.contents?]
    | cons start' head tail =>
      simp only [readItems, bind_eq_ok_iff, hread i head, contents?_cons_items]
      constructor
      · rintro ⟨stop, v, ⟨c, hc, htakes⟩, hrun⟩
        obtain ⟨cs, hcs, hlists⟩ := ih.1 ⟨stop, hrun⟩
        exact ⟨_, ⟨c, cs, hc, hcs, rfl⟩, v, htakes, hlists⟩
      · rintro ⟨_, ⟨c, cs, hc, hcs, rfl⟩, v, htakes, hlists⟩
        obtain ⟨stop, hrun⟩ := ih.2 ⟨cs, hcs, hlists⟩
        exact ⟨stop, v, ⟨c, hc, htakes⟩, hrun⟩

omit [DecidableEq ι] in
/-- The record is that of the draft which has been read. -/
theorem finish_iff {x : Except ReadError (Draft s × Nat)} {P : Draft s → Prop}
    (hx : ∀ d, (∃ stop, x = .ok (d, stop)) ↔ P d) :
    (do
      let (d, stop) ← x
      (finish d).mapError fun i => ReadError.mismatch (.missingField (s.name i)) stop) = .ok a ↔
      ∃ d, P d ∧ finish d = .ok a := by
  simp only [bind_eq_ok_iff, Prod.exists, mapError_eq_ok_iff, ← hx]
  grind

theorem reader_object_iff (hs : s.Declared) (hread : ∀ i, ByContent (s.read i)) {start : Nat} :
    s.reader finish (.object start members) = .ok a ↔
      ∃ d, (∃ ms, members.contents? = some ms ∧ s.Fills (fun _ => none) ms d) ∧ finish d = .ok a :=
  finish_iff fun _ => readMembers_iff hs hread members _

theorem reader_array_iff (hread : ∀ i, ByContent (s.read i)) {start : Nat} :
    s.reader finish (.array start items) = .ok a ↔
      ∃ d, (∃ cs, items.contents? = some cs ∧ s.Lists (fun _ => none) s.fields cs d) ∧ finish d = .ok a :=
  finish_iff fun _ => readItems_iff hread

omit [DecidableEq ι] in
theorem reader_reject_ne_ok {n : Node} :
    (do
      let (d, stop) ← (n.reject s!"struct {s.title}" : Except ReadError (Draft s × Nat))
      (finish d).mapError fun i => ReadError.mismatch (.missingField (s.name i)) stop) ≠ .ok a := by
  intro h
  obtain ⟨r, hreject, -⟩ := bind_eq_ok_iff.1 h
  exact reject_ne_ok _ _ hreject

/-- A record in an object is taken if its members fill a draft that makes up the record. -/
theorem takes_object_iff (hs : s.Declared) (hread : ∀ i, ByContent (s.read i)) :
    Takes (s.reader finish) (.object ms) a ↔ ∃ d, s.Fills (fun _ => none) ms d ∧ finish d = .ok a := by
  simp [Takes, Content.node, reader_object_iff hs hread]

theorem takes_array_iff (hread : ∀ i, ByContent (s.read i)) : Takes (s.reader finish) (.array cs) a ↔
    ∃ d, s.Lists (fun _ => none) s.fields cs d ∧ finish d = .ok a := by
  simp [Takes, Content.node, reader_array_iff hread]

theorem byContent_reader (hs : s.Declared) (hread : ∀ i, ByContent (s.read i)) : ByContent (s.reader finish) := by
  intro n a
  cases n with
  | object start members =>
    simp only [reader_object_iff hs hread, content?_object]
    grind [takes_object_iff]
  | array start items =>
    simp only [reader_array_iff hread, content?_array]
    grind [takes_array_iff]
  | broken b => exact iff_of_false reader_reject_ne_ok (by simp [Node.content?])
  | _ =>
    refine iff_of_false reader_reject_ne_ok ?_
    rintro ⟨c, hc, htakes⟩
    cases hc
    exact reader_reject_ne_ok htakes

end Readers

end ObjectRuntime.Json.Shape
