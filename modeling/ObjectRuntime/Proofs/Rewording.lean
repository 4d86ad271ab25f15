import ObjectRuntime.Proofs.Drafts

/-! Rewording and spoiling. A value can be written in many ways: the members of an object may stand in any order,
what is equal to its default may be left out, and remarks may stand where a record is open. None of that matters to
a reader. A member too many, one that is repeated or not there, or nothing where a value must be, always does. -/

namespace ObjectRuntime

/-! ### Entries in any order -/

theorem perm_insertEntry {α : Type} {name : String} {value : α} {es : List (String × α)}
    (h : name ∉ es.map Prod.fst) : (insertEntry name value es).Perm ((name, value) :: es) := by
  induction es with
  | nil => exact List.Perm.refl _
  | cons e es ih =>
    rw [List.map_cons, List.mem_cons, not_or] at h
    unfold insertEntry
    split
    · exact List.Perm.refl _
    · rw [if_neg h.1]
      exact ((ih h.2).cons e).trans (List.Perm.swap _ _ _)

namespace NameMap

variable {α : Type} {es es' : List (String × α)}

/-- Where no name stands twice, the entries of the map are those of the list. -/
theorem perm_entries_foldl {m : NameMap α} (h : ((m.entries ++ es).map Prod.fst).Nodup) :
    (es.foldl (fun m e => m.insert e.1 e.2) m).entries.Perm (m.entries ++ es) := by
  induction es generalizing m with
  | nil => simp
  | cons e es ih =>
    have hmoved : ((m.entries ++ e :: es).map Prod.fst).Perm ((e :: (m.entries ++ es)).map Prod.fst) :=
      List.perm_middle.map Prod.fst
    have hnodup := hmoved.nodup_iff.1 h
    obtain ⟨hfresh, -⟩ := List.nodup_cons.1 hnodup
    have hinsert : (m.insert e.1 e.2).entries.Perm (e :: m.entries) := by
      refine perm_insertEntry fun hmem => hfresh ?_
      rw [List.map_append]
      exact List.mem_append_left _ hmem
    have happended : ((m.insert e.1 e.2).entries ++ es).Perm (e :: (m.entries ++ es)) := hinsert.append_right es
    refine (ih ?_).trans (happended.trans List.perm_middle.symm)
    exact (happended.map Prod.fst).nodup_iff.2 hnodup

theorem ofList_perm (h : es.Perm es') (hnames : (es.map Prod.fst).Nodup) : ofList es = ofList es' := by
  have hentries {l : List (String × α)} (hl : (l.map Prod.fst).Nodup) : (ofList l).entries.Perm l :=
    perm_entries_foldl (m := empty) hl
  have hnames' : (es'.map Prod.fst).Nodup := (h.map Prod.fst).nodup_iff.1 hnames
  -- both are in the order of their names, so there is only one way for them to stand
  refine ext (List.Perm.eq_of_pairwise (fun a b _ _ hab hba => ?_) (ofList es).sorted (ofList es').sorted
    ((hentries hnames).trans (h.trans (hentries hnames').symm)))
  exact absurd hba (String.lt_asymm hab)

end NameMap

namespace Json

/-! ### Edits -/

/-- One item of a list is edited. -/
inductive Content.InItem (R : Content → Content → Prop) : Content → Content → Prop where
  | item (before after : List Content) {c c' : Content} (h : R c c') :
    InItem R (.array (before ++ c :: after)) (.array (before ++ c' :: after))

/-- The value of one member is edited. -/
inductive Content.InEntry (R : Content → Content → Prop) : Content → Content → Prop where
  | entry (before after : List Member) (key : Option String) {c c' : Content} (h : R c c') :
    InEntry R (.object (before ++ (key, c) :: after)) (.object (before ++ (key, c') :: after))

/-- The members of an object are put in another order. -/
inductive Content.Permuted : Content → Content → Prop where
  | intro {ms ms' : List Member} (h : ms.Perm ms') : Permuted (.object ms) (.object ms')

/-- No name stands twice in an object. -/
def Content.Unrepeated : Content → Prop
  | .object ms => (ms.map Prod.fst).Nodup
  | _ => True

/-- A map says the same in another order, or where what is written for one of its names does. -/
inductive MapRewords (R : Content → Content → Prop) (c c' : Content) : Prop where
  | permuted (h : Content.Permuted c c') (hnames : c.Unrepeated) : MapRewords R c c'
  | entry (h : Content.InEntry R c c') : MapRewords R c c'

namespace Shape

variable {ι : Type}

/-- A record says the same where its members are put in another order, a field with its default is left out, a
remark is added to an open record or changed, or what is written for one of its fields says the same. -/
inductive Rewords (s : Shape ι) (default : (i : ι) → Option (s.Value i)) (R : ι → Content → Content → Prop) :
    Content → Content → Prop where
  | permuted {c c' : Content} (h : Content.Permuted c c') : Rewords s default R c c'
  | defaulted (before after : List Member) {i : ι} {c : Content} {v : s.Value i} (hv : default i = some v)
    (hc : Takes (s.read i) c v) :
    Rewords s default R (.object (before ++ (some (s.name i), c) :: after)) (.object (before ++ after))
  | remarked (before after : List Member) {name : String} (c : Content) (hopen : s.closed = false)
    (hname : ∀ i, s.name i ≠ name) :
    Rewords s default R (.object (before ++ after)) (.object (before ++ (some name, c) :: after))
  | remark (before after : List Member) {name : String} (c c' : Content) (hname : ∀ i, s.name i ≠ name) :
    Rewords s default R (.object (before ++ (some name, c) :: after))
      (.object (before ++ (some name, c') :: after))
  | field (before after : List Member) {i : ι} {c c' : Content} (h : R i c c') :
    Rewords s default R (.object (before ++ (some (s.name i), c) :: after))
      (.object (before ++ (some (s.name i), c') :: after))

/-- A record is spoilt where a closed one gets an unknown member, a field stands once more, nothing is written for
an optional field, a field that is not optional is left out, or what is written for one of the fields is spoilt. -/
inductive Spoils (s : Shape ι) (R : ι → Content → Content → Prop) : Content → Content → Prop where
  | unknown (before after : List Member) {name : String} (c : Content) (hclosed : s.closed)
    (hname : ∀ i, s.name i ≠ name) :
    Spoils s R (.object (before ++ after)) (.object (before ++ (some name, c) :: after))
  | repeated (before after : List Member) {i : ι} {c : Content} (c' : Content)
    (h : (some (s.name i), c) ∈ before ++ after) :
    Spoils s R (.object (before ++ after)) (.object (before ++ (some (s.name i), c') :: after))
  | nulled (before after : List Member) {i : ι} (c : Content) (h : s.optional i) :
    Spoils s R (.object (before ++ (some (s.name i), c) :: after))
      (.object (before ++ (some (s.name i), .null) :: after))
  | missing (before after : List Member) {i : ι} (c : Content) (h : s.optional i = false) :
    Spoils s R (.object (before ++ (some (s.name i), c) :: after)) (.object (before ++ after))
  | field (before after : List Member) {i : ι} {c c' : Content} (h : R i c c') :
    Spoils s R (.object (before ++ (some (s.name i), c) :: after))
      (.object (before ++ (some (s.name i), c') :: after))

/-- Fields are read for what is written, a missing field has its default if it is optional, and one that is not
has to be there. -/
structure Regular [DecidableEq ι] {α : Type} (s : Shape ι) (default : (i : ι) → Option (s.Value i))
    (finish : Draft s → Except ι α) : Prop where
  declared : s.Declared
  byContent (i : ι) : ByContent (s.read i)
  finish_default (d : Draft s) : finish (fun i => (d i).or (default i)) = finish d
  need {d : Draft s} {a : α} {i : ι} (h : finish d = .ok a) (hi : s.optional i = false) : d i ≠ none
  null {i : ι} {v : s.Value i} (hi : s.optional i) : ¬ Takes (s.read i) .null v

end Shape

section Edits

variable {α : Type}

/-- What has been edited is taken for the same thing. -/
def Preserves (read : Reader α) (R : Content → Content → Prop) : Prop :=
  ∀ c c' a, R c c' → Takes read c a → Takes read c' a

/-- What has been edited is not taken any more. -/
def Breaks (read : Reader α) (R : Content → Content → Prop) : Prop :=
  ∀ c c' a b, R c c' → Takes read c a → ¬ Takes read c' b

variable {read : Reader α} {R : Content → Content → Prop}

theorem Takes.unique {c : Content} {a b : α} (h : Takes read c a) (h' : Takes read c b) : a = b :=
  Except.ok.inj (h.symm.trans h')

/-! ### Lists and maps -/

theorem forall₂_middle {β γ : Type} {R : β → γ → Prop} {l l' : List β} {b : β} {cs : List γ} :
    List.Forall₂ R (l ++ b :: l') cs ↔
      ∃ k c k', cs = k ++ c :: k' ∧ List.Forall₂ R l k ∧ R b c ∧ List.Forall₂ R l' k' := by
  induction l generalizing cs with
  | nil => simp [List.forall₂_cons_left_iff]; grind
  | cons x l ih => simp [List.forall₂_cons_left_iff, ih]; grind

theorem preserves_list (hread : ByContent read) (h : Preserves read R) :
    Preserves (readList read) (Content.InItem R) := by
  rintro _ _ as ⟨before, after, hR⟩ hc
  obtain ⟨cs, heq, hcs⟩ := (takes_list hread).1 hc
  cases heq
  obtain ⟨k, a, k', rfl, hk, ha, hk'⟩ := forall₂_middle.1 hcs
  exact (takes_list hread).2 ⟨_, rfl, forall₂_middle.2 ⟨k, a, k', rfl, hk, h _ _ a hR ha, hk'⟩⟩

theorem breaks_list (hread : ByContent read) (h : Breaks read R) :
    Breaks (readList read) (Content.InItem R) := by
  rintro _ _ as bs ⟨before, after, hR⟩ hc hc'
  obtain ⟨cs, heq, hcs⟩ := (takes_list hread).1 hc
  cases heq
  obtain ⟨cs, heq, hcs'⟩ := (takes_list hread).1 hc'
  cases heq
  obtain ⟨-, a, -, -, -, ha, -⟩ := forall₂_middle.1 hcs
  obtain ⟨-, b, -, -, -, hb, -⟩ := forall₂_middle.1 hcs'
  exact h _ _ a b hR ha hb

theorem map_fst_of_takesMember {ms : List Member} {es : List (String × α)}
    (h : List.Forall₂ (TakesMember read) ms es) : ms.map Prod.fst = (es.map Prod.fst).map some := by
  induction h with
  | nil => rfl
  | cons hm _ ih => rw [List.map_cons, List.map_cons, List.map_cons, hm.1, ih]

/-- Entries may stand in any order, as each name has one value only. -/
theorem preserves_permuted (hread : ByContent read) :
    Preserves (readMap read) fun c c' => Content.Permuted c c' ∧ c.Unrepeated := by
  rintro _ _ m ⟨⟨hms⟩, hnames⟩ hc
  obtain ⟨ms, es, heq, hes, rfl⟩ := (takes_entries hread).1 hc
  cases heq
  obtain ⟨es', hes', hperm⟩ := List.perm_comp_forall₂ hms.symm hes
  have hnodup : (es.map Prod.fst).Nodup := by
    rw [Content.Unrepeated, map_fst_of_takesMember hes] at hnames
    exact List.Nodup.of_map _ hnames
  exact (takes_entries hread).2 ⟨_, es', rfl, hes', NameMap.ofList_perm hperm.symm hnodup⟩

theorem preserves_entry (hread : ByContent read) (h : Preserves read R) :
    Preserves (readMap read) (Content.InEntry R) := by
  rintro _ _ m ⟨before, after, key, hR⟩ hc
  rename_i c c'
  obtain ⟨ms, es, heq, hes, rfl⟩ := (takes_entries hread).1 hc
  cases heq
  obtain ⟨k, e, k', rfl, hk, ⟨hname, he⟩, hk'⟩ := forall₂_middle.1 hes
  have hedited : TakesMember read (key, c') e := ⟨hname, h c c' e.2 hR he⟩
  exact (takes_entries hread).2 ⟨_, _, rfl, forall₂_middle.2 ⟨k, e, k', rfl, hk, hedited, hk'⟩, rfl⟩

theorem preserves_map (hread : ByContent read) (h : Preserves read R) :
    Preserves (readMap read) (MapRewords R) := by
  intro c c' m hR hc
  cases hR with
  | permuted hR hnames => exact preserves_permuted hread c c' m ⟨hR, hnames⟩ hc
  | entry hR => exact preserves_entry hread h c c' m hR hc

theorem breaks_entry (hread : ByContent read) (h : Breaks read R) :
    Breaks (readMap read) (Content.InEntry R) := by
  rintro _ _ m m' ⟨before, after, key, hR⟩ hc hc'
  obtain ⟨ms, es, heq, hes, -⟩ := (takes_entries hread).1 hc
  cases heq
  obtain ⟨ms, es', heq, hes', -⟩ := (takes_entries hread).1 hc'
  cases heq
  obtain ⟨-, e, -, -, -, he, -⟩ := forall₂_middle.1 hes
  obtain ⟨-, e', -, -, -, he', -⟩ := forall₂_middle.1 hes'
  exact h _ _ _ _ hR he.2 he'.2

end Edits

/-! ### Records -/

namespace Shape

section Fills

variable {ι : Type} {s : Shape ι} {start d : Draft s} {ms ms' before after : List Member} {m : Member}
  {i : ι} {c c' : Content} {v : s.Value i}

theorem Fills.perm (h : s.Fills start ms d) (hms : ms.Perm ms') : s.Fills start ms' d := by
  refine ⟨fun m hm => h.admits m (hms.mem_iff.2 hm), fun i => ?_⟩
  have hwritten : (s.written i ms).Perm (s.written i ms') := (hms.filter _).map Prod.snd
  rcases h.field i with ⟨hnil, hd⟩ | ⟨hstart, c, v, hc, hv⟩
  · rw [hnil] at hwritten
    exact .inl ⟨hwritten.nil_eq.symm, hd⟩
  · rw [hc] at hwritten
    exact .inr ⟨hstart, c, v, (List.singleton_perm.1 hwritten).symm, hv⟩

/-- Where a member stands makes no difference, so it may be taken for the first one. -/
theorem fills_middle : s.Fills start (before ++ m :: after) d ↔ s.Fills start (m :: (before ++ after)) d :=
  ⟨fun h => h.perm List.perm_middle, fun h => h.perm List.perm_middle.symm⟩

/-- What stands for a field that has been read already is nowhere in the rest. -/
theorem Fills.written_eq_nil (h : s.Fills start ms d) (hi : start i ≠ none) : s.written i ms = [] := by
  rcases h.field i with ⟨hnil, -⟩ | ⟨hnone, -⟩
  · exact hnil
  · exact absurd hnone hi

theorem written_ne_nil (h : (some (s.name i), c) ∈ ms) : s.written i ms ≠ [] := by
  have hmem : c ∈ s.written i ms := List.mem_map.2 ⟨_, List.mem_filter.2 ⟨h, by simp⟩, rfl⟩
  exact List.ne_nil_of_mem hmem

variable [DecidableEq ι]

theorem set_ne_none : start.set i v i ≠ none := by
  rw [Draft.set_self]
  nofun

/-- The draft without what has been read for a field. -/
def Draft.unset (d : Draft s) (i : ι) : Draft s := fun j => if j = i then none else d j

theorem Fills.unset (h : s.Fills (start.set i v) ms d) (hi : start i = none) :
    s.Fills start ms (d.unset i) := by
  refine ⟨h.admits, fun j => ?_⟩
  by_cases hj : j = i
  · subst hj
    exact .inl ⟨h.written_eq_nil set_ne_none, by rw [Draft.unset, if_pos rfl, hi]⟩
  · rw [Draft.unset, if_neg hj, ← Draft.set_of_ne (Ne.symm hj) start v]
    exact h.field j

theorem Fills.eq_of_set (h : s.Fills (start.set i v) ms d) : d i = some v := by
  rcases h.field i with ⟨-, hd⟩ | ⟨hset, -⟩
  · rw [hd, Draft.set_self]
  · exact absurd hset set_ne_none

end Fills

section Records

variable {ι α : Type} [DecidableEq ι] {s : Shape ι} {default : (i : ι) → Option (s.Value i)}
  {finish : Draft s → Except ι α} {R : ι → Content → Content → Prop} {ms before after : List Member}
  {i : ι} {c : Content} {a : α}

namespace Regular

theorem takes_iff (hs : s.Regular default finish) : Takes (s.reader finish) (.object ms) a ↔
    ∃ d, s.Fills (fun _ => none) ms d ∧ finish d = .ok a := takes_object_iff hs.declared hs.byContent

/-- A field is read for what is written for it, and then the rest is read. -/
theorem takes_field_iff (hs : s.Regular default finish) :
    Takes (s.reader finish) (.object (before ++ (some (s.name i), c) :: after)) a ↔
      ∃ v, Takes (s.read i) c v ∧ ∃ d : Draft s, s.Fills (Draft.set (fun _ => none) i v) (before ++ after) d ∧
        finish d = .ok a := by
  simp only [hs.takes_iff, fills_middle, hs.declared.fills_cons]
  grind

theorem takes_unknown_iff (hs : s.Regular default finish) {name : String} (hname : ∀ i, s.name i ≠ name) :
    Takes (s.reader finish) (.object (before ++ (some name, c) :: after)) a ↔
      s.closed = false ∧ Takes (s.reader finish) (.object (before ++ after)) a := by
  simp only [hs.takes_iff, fills_middle, fills_cons_unknown hname]
  grind

/-- What is left out is read as the default. -/
theorem takes_of_default (hs : s.Regular default finish) {v : s.Value i} (hv : default i = some v)
    (hc : Takes (s.read i) c v)
    (h : Takes (s.reader finish) (.object (before ++ (some (s.name i), c) :: after)) a) :
    Takes (s.reader finish) (.object (before ++ after)) a := by
  obtain ⟨w, hw, d, hfills, hfinish⟩ := hs.takes_field_iff.1 h
  obtain rfl := hc.unique hw
  refine hs.takes_iff.2 ⟨d.unset i, hfills.unset rfl, ?_⟩
  rw [← hfinish, ← hs.finish_default, ← hs.finish_default d]
  congr 1
  funext j
  by_cases hj : j = i
  · subst hj
    rw [Draft.unset, if_pos rfl, hfills.eq_of_set, hv]
    rfl
  · rw [Draft.unset, if_neg hj]

theorem preserves (hs : s.Regular default finish) (hfields : ∀ i, Preserves (s.read i) (R i)) :
    Preserves (s.reader finish) (s.Rewords default R) := by
  intro c c' a hR hc
  cases hR with
  | permuted hR =>
    obtain ⟨hms⟩ := hR
    obtain ⟨d, hfills, hfinish⟩ := hs.takes_iff.1 hc
    exact hs.takes_iff.2 ⟨d, hfills.perm hms, hfinish⟩
  | defaulted before after hv hdefault => exact hs.takes_of_default hv hdefault hc
  | remarked before after c hopen hname => exact (hs.takes_unknown_iff hname).2 ⟨hopen, hc⟩
  | remark before after c c' hname =>
    exact (hs.takes_unknown_iff hname).2 ((hs.takes_unknown_iff hname).1 hc)
  | field before after hR =>
    obtain ⟨v, hv, hrest⟩ := hs.takes_field_iff.1 hc
    exact hs.takes_field_iff.2 ⟨v, hfields _ _ _ v hR hv, hrest⟩

theorem breaks (hs : s.Regular default finish) (hfields : ∀ i, Breaks (s.read i) (R i)) :
    Breaks (s.reader finish) (s.Spoils R) := by
  intro c c' a b hR hc hc'
  cases hR with
  | unknown before after c hclosed hname =>
    obtain ⟨hopen, -⟩ := (hs.takes_unknown_iff hname).1 hc'
    rw [hopen] at hclosed
    cases hclosed
  | repeated before after c' hmem =>
    obtain ⟨v, -, d, hfills, -⟩ := hs.takes_field_iff.1 hc'
    exact written_ne_nil hmem (hfills.written_eq_nil set_ne_none)
  | nulled before after c hoptional =>
    obtain ⟨v, hv, -⟩ := hs.takes_field_iff.1 hc'
    exact hs.null hoptional hv
  | missing before after c hneeded =>
    obtain ⟨v, -, d, hfills, -⟩ := hs.takes_field_iff.1 hc
    obtain ⟨d', hfills', hfinish⟩ := hs.takes_iff.1 hc'
    rcases hfills'.field _ with ⟨-, hnone⟩ | ⟨-, _, _, hwritten, -⟩
    · exact hs.need hfinish hneeded hnone
    · rw [hfills.written_eq_nil set_ne_none] at hwritten
      cases hwritten
  | field before after hR =>
    obtain ⟨v, hv, -⟩ := hs.takes_field_iff.1 hc
    obtain ⟨w, hw, -⟩ := hs.takes_field_iff.1 hc'
    exact hfields _ _ _ v w hR hv hw

end Regular

end Records

end Shape

end Json

end ObjectRuntime
