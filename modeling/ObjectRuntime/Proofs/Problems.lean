import Mathlib.Tactic
import ObjectRuntime.Manifest.Problem

/-! What checking a manifest finds. The three loops of the check go through a list and compare every item
with those before it; they are instances of one such loop. The problems of each part are then said in
terms of positions in its lists, with no mention of the order in which the check collects what it has
seen. -/

namespace ObjectRuntime

section Visit

variable {α β : Type}

/-- Goes through a list and looks at each item together with those before it, the latest one first, and
its position. -/
def visit (look : List α → Nat → α → List β) (seen : List α) (pos : Nat) : List α → List β
  | [] => []
  | x :: xs => look seen pos x ++ visit look (x :: seen) (pos + 1) xs

variable {look : List α → Nat → α → List β} {seen xs : List α} {pos : Nat}

theorem mem_visit_iff {b : β} : b ∈ visit look seen pos xs ↔
    ∃ i x, xs[i]? = some x ∧ b ∈ look ((xs.take i).reverse ++ seen) (pos + i) x := by
  induction xs generalizing seen pos with
  | nil => simp [visit]
  | cons x xs ih =>
    rw [visit, List.mem_append, ih]
    refine ⟨?_, ?_⟩
    · rintro (h | ⟨i, y, hy, h⟩)
      · exact ⟨0, x, rfl, h⟩
      · refine ⟨i + 1, y, hy, ?_⟩
        rwa [List.take_succ_cons, List.reverse_cons, List.append_assoc, List.singleton_append,
          Nat.add_comm i, ← Nat.add_assoc]
    · intro h
      obtain ⟨i, y, hy, h⟩ := h
      cases i with
      | zero =>
        obtain rfl : x = y := Option.some.inj hy
        exact Or.inl h
      | succ i =>
        rw [List.take_succ_cons, List.reverse_cons, List.append_assoc, List.singleton_append,
          Nat.add_comm i, ← Nat.add_assoc] at h
        exact Or.inr ⟨i, y, hy, h⟩

/-- What is found at one item, and what is found at different items, is pairwise related. -/
theorem pairwise_visit {R : β → β → Prop} (hone : ∀ seen pos x, (look seen pos x).Pairwise R)
    (htwo : ∀ i j x y, i < j → xs[i]? = some x → xs[j]? = some y →
      ∀ seen seen', ∀ b ∈ look seen (pos + i) x, ∀ c ∈ look seen' (pos + j) y, R b c) :
    (visit look seen pos xs).Pairwise R := by
  induction xs generalizing seen pos with
  | nil => exact List.Pairwise.nil
  | cons x xs ih =>
    rw [visit, List.pairwise_append]
    refine ⟨hone seen pos x, ih fun i j y z hij hy hz => ?_, fun b hb c hc => ?_⟩
    · have h := htwo (i + 1) (j + 1) y z (Nat.succ_lt_succ hij) hy hz
      rwa [Nat.add_comm i, Nat.add_comm j, ← Nat.add_assoc, ← Nat.add_assoc] at h
    · obtain ⟨j, y, hy, hc⟩ := mem_visit_iff.1 hc
      rw [Nat.add_assoc, Nat.add_comm 1] at hc
      exact htwo 0 (j + 1) x y (Nat.succ_pos j) rfl hy _ _ b hb c hc

end Visit

theorem mem_take_iff_getElem? {α : Type} {xs : List α} {n : Nat} {x : α} :
    x ∈ xs.take n ↔ ∃ j < n, xs[j]? = some x := by
  simp only [List.mem_iff_getElem?, List.getElem?_take]
  refine ⟨?_, ?_⟩
  · intro h
    obtain ⟨j, h⟩ := h
    split at h
    · rename_i hj
      exact ⟨j, hj, h⟩
    · cases h
  · intro h
    obtain ⟨j, hj, h⟩ := h
    exact ⟨j, by rwa [if_pos hj]⟩

/-! ### Special attributes -/

namespace SpecialAttr

/-- The special attributes before this one. -/
def earlier (a : SpecialAttr) : List SpecialAttr := all.takeWhile (· ≠ a)

theorem mem_all (a : SpecialAttr) : a ∈ all := by
  cases a <;> decide

theorem nodup_all : all.Nodup := by
  decide

theorem take_all {i : Nat} {a : SpecialAttr} (h : all[i]? = some a) : all.take i = a.earlier := by
  have hi : i < 6 := (List.getElem?_eq_some_iff.1 h).1
  interval_cases i <;> cases h <;> rfl

end SpecialAttr

/-- The last special attribute before this one that has its code. -/
def Layout.owner (l : Layout) (a : SpecialAttr) : Option SpecialAttr :=
  a.earlier.reverse.find? fun b => (l.slot b).code = (l.slot a).code

theorem lastOwner_map (l : Layout) (code : UInt32) (as : List SpecialAttr) :
    lastOwner code (as.map fun a => (a, l.slot a)) =
      as.reverse.find? fun b => (l.slot b).code = code := by
  rw [lastOwner, ← List.map_reverse, List.find?_map, Option.map_map]
  exact Option.map_id'

/-- What is found at one special attribute, given those before it. -/
def codeProblem (seen : List (SpecialAttr × AttrSlot)) (x : SpecialAttr × AttrSlot) : List Problem :=
  if x.2.code = gapCode then [.gapCode x.1]
  else match lastOwner x.2.code seen with
    | some other => [.sharedCode x.1 other x.2.code]
    | none => []

theorem codeProblems_eq_visit (seen xs : List (SpecialAttr × AttrSlot)) (pos : Nat) :
    codeProblems seen.reverse xs = visit (fun seen _ x => codeProblem seen.reverse x) seen pos xs := by
  induction xs generalizing seen pos with
  | nil => rfl
  | cons x xs ih =>
    rw [codeProblems, visit, ← ih (x :: seen) (pos + 1), List.reverse_cons]
    rfl

theorem mem_codeProblem_iff {seen : List (SpecialAttr × AttrSlot)} {x : SpecialAttr × AttrSlot}
    {p : Problem} : p ∈ codeProblem seen x ↔ (x.2.code = gapCode ∧ p = .gapCode x.1) ∨
      (x.2.code ≠ gapCode ∧ ∃ b, lastOwner x.2.code seen = some b ∧ p = .sharedCode x.1 b x.2.code) := by
  unfold codeProblem
  split
  · rename_i hgap
    simp [hgap]
  · rename_i hgap
    cases hlast : lastOwner x.2.code seen <;> simp [hgap]

theorem mem_codeProblems_iff {l : Layout} {p : Problem} :
    p ∈ codeProblems [] (SpecialAttr.all.map fun a => (a, l.slot a)) ↔
      ∃ a, ((l.slot a).code = gapCode ∧ p = .gapCode a) ∨
        ((l.slot a).code ≠ gapCode ∧ ∃ b, l.owner a = some b ∧ p = .sharedCode a b (l.slot a).code) := by
  rw [show ([] : List (SpecialAttr × AttrSlot)) = [].reverse from rfl, codeProblems_eq_visit _ _ 0,
    mem_visit_iff]
  have hat {i : Nat} {a : SpecialAttr} (h : SpecialAttr.all[i]? = some a) :
      p ∈ codeProblem (((SpecialAttr.all.map fun a => (a, l.slot a)).take i).reverse ++ []).reverse
        (a, l.slot a) ↔ ((l.slot a).code = gapCode ∧ p = .gapCode a) ∨
        ((l.slot a).code ≠ gapCode ∧
          ∃ b, l.owner a = some b ∧ p = .sharedCode a b (l.slot a).code) := by
    rw [List.append_nil, List.reverse_reverse, ← List.map_take, SpecialAttr.take_all h,
      mem_codeProblem_iff, lastOwner_map, Layout.owner]
  refine ⟨?_, ?_⟩
  · intro h
    obtain ⟨i, x, hx, hp⟩ := h
    rw [List.getElem?_map, Option.map_eq_some_iff] at hx
    obtain ⟨a, ha, rfl⟩ := hx
    exact ⟨a, (hat ha).1 hp⟩
  · intro h
    obtain ⟨a, hp⟩ := h
    obtain ⟨i, ha⟩ := List.mem_iff_getElem?.1 a.mem_all
    exact ⟨i, (a, l.slot a), by rw [List.getElem?_map, ha]; rfl, (hat ha).2 hp⟩

/-! ### Tables -/

theorem repeatedAttributes_eq_visit (table : String) (seen : List UInt32) (pos : Nat)
    (codes : List UInt32) :
    repeatedAttributes table seen pos codes = visit (fun seen pos code =>
      if code ≠ gapCode ∧ code ∈ seen then [.repeatedAttribute table pos code] else []) seen pos codes := by
  induction codes generalizing seen pos with
  | nil => rfl
  | cons code codes ih => rw [repeatedAttributes, visit, ih]

/-- The code at a position is no gap and occurs earlier in the table. -/
def Table.Repeats (t : Table) (pos : Nat) (code : UInt32) : Prop :=
  t.codes[pos]? = some code ∧ code ≠ gapCode ∧ ∃ j < pos, t.codes[j]? = some code

theorem Table.mem_problems_iff {name : String} {t : Table} {p : Problem} :
    p ∈ t.problems name ↔ ∃ pos code, t.Repeats pos code ∧ p = .repeatedAttribute name pos code := by
  rw [problems, repeatedAttributes_eq_visit, mem_visit_iff]
  simp only [List.append_nil, List.mem_reverse, Nat.zero_add, List.mem_ite_nil_right,
    List.mem_singleton, mem_take_iff_getElem?, Array.getElem?_toList, Table.Repeats]
  refine ⟨?_, ?_⟩
  · intro h
    obtain ⟨pos, code, hcode, ⟨hne, hearlier⟩, rfl⟩ := h
    exact ⟨pos, code, ⟨hcode, hne, hearlier⟩, rfl⟩
  · intro h
    obtain ⟨pos, code, ⟨hcode, hne, hearlier⟩, rfl⟩ := h
    exact ⟨pos, code, hcode, ⟨hne, hearlier⟩, rfl⟩

/-! ### Parameter tables -/

/-- Gaps are passed over and not remembered. -/
theorem paramProblems_eq_visit (table : String) (max : UInt32) (seen : List Param) (slot : Nat)
    (ps : List Param) :
    paramProblems table max (seen.filter fun p => !p.isGap) slot ps = visit (fun seen slot p =>
      if p.isGap then [] else p.problems table max (seen.filter fun p => !p.isGap) slot)
      seen slot ps := by
  induction ps generalizing seen slot with
  | nil => rfl
  | cons p ps ih =>
    rw [paramProblems, visit, ← ih]
    by_cases hgap : p.isGap <;> simp [hgap]

/-- A parameter that is no gap. -/
def ParamTable.Declares (t : ParamTable) (slot : Nat) (p : Param) : Prop :=
  t.params[slot]? = some p ∧ ¬ p.isGap

/-- What can be wrong with one parameter of a table. -/
inductive ParamTable.Misplaces (t : ParamTable) (name : String) (slot : Nat) (q : Param) : Problem → Prop where
  | atMax (h : t.max.toNat ≤ q.pos.toNat) : Misplaces t name slot q (.positionAtMax name slot q.pos t.max)
  | context (h : q.pos = 0) : Misplaces t name slot q (.contextPosition name slot)
  | code {j : Nat} {q' : Param} (hj : j < slot) (h : t.Declares j q') (heq : q'.code = q.code) :
    Misplaces t name slot q (.repeatedParam name slot q.code)
  | position {j : Nat} {q' : Param} (hj : j < slot) (h : t.Declares j q') (heq : q'.pos = q.pos) :
    Misplaces t name slot q (.sharedPosition name slot q.pos)

theorem ParamTable.mem_earlier_iff {t : ParamTable} {slot : Nat} {q : Param} :
    q ∈ (t.params.toList.take slot).reverse.filter (fun p => !p.isGap) ↔ ∃ j < slot, t.Declares j q := by
  rw [List.mem_filter, List.mem_reverse, mem_take_iff_getElem?, Bool.not_eq_true']
  simp only [Array.getElem?_toList, Declares, Bool.not_eq_true]
  refine ⟨?_, ?_⟩
  · intro h
    obtain ⟨⟨j, hj, h⟩, hgap⟩ := h
    exact ⟨j, hj, h, hgap⟩
  · intro h
    obtain ⟨j, hj, h, hgap⟩ := h
    exact ⟨⟨j, hj, h⟩, hgap⟩

theorem ParamTable.mem_paramProblems_iff {t : ParamTable} {name : String} {slot : Nat} {q : Param}
    {p : Problem} : p ∈ q.problems name t.max
      ((t.params.toList.take slot).reverse.filter fun p => !p.isGap) slot ↔
      t.Misplaces name slot q p := by
  simp only [Param.problems, List.mem_append, List.mem_ite_nil_right, List.mem_singleton, List.mem_map,
    mem_earlier_iff]
  refine ⟨?_, ?_⟩
  · rintro (((⟨h, rfl⟩ | ⟨h, rfl⟩) | ⟨⟨q', ⟨j, hj, h⟩, heq⟩, rfl⟩) | ⟨⟨q', ⟨j, hj, h⟩, heq⟩, rfl⟩)
    · exact .atMax h
    · exact .context h
    · exact .code hj h heq
    · exact .position hj h heq
  · rintro (h | h | ⟨hj, h, heq⟩ | ⟨hj, h, heq⟩)
    · exact Or.inl (Or.inl (Or.inl ⟨h, rfl⟩))
    · exact Or.inl (Or.inl (Or.inr ⟨h, rfl⟩))
    · exact Or.inl (Or.inr ⟨⟨_, ⟨_, hj, h⟩, heq⟩, rfl⟩)
    · exact Or.inr ⟨⟨_, ⟨_, hj, h⟩, heq⟩, rfl⟩

theorem ParamTable.mem_problems_iff {name : String} {t : ParamTable} {p : Problem} :
    p ∈ t.problems name ↔ (t.max < t.min ∧ p = .boundsReversed name t.min t.max) ∨
      ∃ slot q, t.Declares slot q ∧ t.Misplaces name slot q p := by
  rw [problems, List.mem_append, List.mem_ite_nil_right, List.mem_singleton,
    show ([] : List Param) = [].filter fun p => !p.isGap from rfl, paramProblems_eq_visit, mem_visit_iff]
  refine or_congr Iff.rfl (exists_congr fun slot => exists_congr fun q => ?_)
  rw [List.append_nil, Nat.zero_add, Array.getElem?_toList, Declares]
  by_cases hgap : q.isGap
  · simp [hgap]
  · rw [if_neg hgap, mem_paramProblems_iff]
    simp [hgap]

/-! ### The manifest -/

theorem Layout.mem_problems_iff {l : Layout} {p : Problem} : p ∈ l.problems ↔
    (∃ a, (l.slot a).code = gapCode ∧ p = .gapCode a) ∨
    (∃ a b, (l.slot a).code ≠ gapCode ∧ l.owner a = some b ∧ p = .sharedCode a b (l.slot a).code) ∨
    ∃ a, (a = .args ∨ a = .fn) ∧ l.functionSize ≤ (l.slot a).pos ∧
      p = .outsideFunction a (l.slot a).pos l.functionSize := by
  rw [problems, List.mem_append, mem_codeProblems_iff, exists_or, or_assoc]
  refine or_congr Iff.rfl (or_congr (exists_congr fun a => ?_) ?_)
  · rw [exists_and_left]
  · simp only [List.mem_flatMap, List.mem_cons, List.not_mem_nil, or_false, List.mem_ite_nil_right]

namespace NameMap

variable {α : Type} {m : NameMap α}

theorem get?_eq_some_iff {name : String} {x : α} : m.get? name = some x ↔ (name, x) ∈ m.entries := by
  rw [get?, List.lookup_eq_some_iff]
  refine ⟨?_, ?_⟩
  · intro h
    obtain ⟨before, after, hentries, -⟩ := h
    rw [hentries]
    exact List.mem_append_right _ List.mem_cons_self
  · intro hmem
    obtain ⟨before, after, hentries⟩ := List.append_of_mem hmem
    refine ⟨before, after, hentries, fun e he => ?_⟩
    have hsorted := m.sorted
    rw [hentries, List.pairwise_append] at hsorted
    have hlt : e.1 < name := hsorted.2.2 e he (name, x) List.mem_cons_self
    rw [bne_iff_ne]
    rintro rfl
    exact String.lt_irrefl _ hlt

theorem mem_flatMap_iff {β : Type} {f : String × α → List β} {b : β} :
    b ∈ m.entries.flatMap f ↔ ∃ name x, m.get? name = some x ∧ b ∈ f (name, x) := by
  simp only [List.mem_flatMap, Prod.exists, get?_eq_some_iff]

end NameMap

theorem Manifest.mem_problems_iff {m : Manifest} {p : Problem} : p ∈ m.problems ↔
    (m.schemaVersion ≠ supportedVersion ∧ p = .version m.schemaVersion) ∨
    (∃ e, CapabilitySet.parse m.caps = .error e ∧ p = .capabilities e) ∨
    p ∈ m.layout.problems ∨
    (∃ name t, m.tables.get? name = some t ∧ p ∈ t.problems name) ∨
    ∃ name t, m.paramTables.get? name = some t ∧ p ∈ t.problems name := by
  cases hparse : CapabilitySet.parse m.caps with
  | ok s =>
    simp only [problems, hparse, List.mem_append, List.mem_ite_nil_left, List.mem_singleton,
      List.not_mem_nil, NameMap.mem_flatMap_iff, or_assoc, or_false, false_or, reduceCtorEq, false_and,
      exists_false, ne_eq]
  | error e =>
    simp only [problems, hparse, List.mem_append, List.mem_ite_nil_left, List.mem_singleton,
      NameMap.mem_flatMap_iff, or_assoc, Except.error.injEq, exists_eq_left', ne_eq]

end ObjectRuntime
