import ObjectRuntime.Call
import ObjectRuntime.Proofs.Results

/-! Binding, loop by loop. The buffer of a call starts with the positional arguments and is empty after
them. A keyword takes an empty position, and a default is given to what is still empty in the end, so
each loop is described by what it asks of the buffer and by what it leaves at each position. -/

namespace ObjectRuntime

/-! ### Keywords -/

namespace ParamTable

variable {t : ParamTable} {given : Nat} {bound bound' : Array Attr} {k : Keyword}
  {ks : List Keyword} {e : Halt}

/-- The argument position that a keyword asks for. -/
def position? (t : ParamTable) (k : Keyword) : Option Nat := t.resolve k.hint.toNat k.code

theorem bindKeyword_eq_ok_iff :
    t.bindKeyword given bound k = .ok bound' ↔
      ∃ p, t.position? k = some p ∧ given ≤ p ∧ bound[p]? = some .null ∧
        bound' = bound.setIfInBounds p k.value := by
  unfold bindKeyword position?
  cases t.resolve k.hint.toNat k.code with
  | none => simp
  | some p =>
    by_cases hp : given ≤ p
    · rcases hb : bound[p]? with _ | a
      · simp [hp, hb]
      · cases a <;> simp [hp, hb, eq_comm]
    · simp [hp]

theorem bindKeyword_error (h : t.bindKeyword given bound k = .error e) :
    e = .type .unexpectedKeyword ∨ e = .type .parameterOccupied := by
  unfold bindKeyword at h
  split at h
  · split at h
    · split at h
      · cases h
      · exact Or.inr (Except.error.inj h).symm
    · exact Or.inl (Except.error.inj h).symm
  · exact Or.inl (Except.error.inj h).symm

theorem foldlM_bindKeyword_error (h : ks.foldlM (t.bindKeyword given) bound = .error e) :
    e = .type .unexpectedKeyword ∨ e = .type .parameterOccupied := by
  induction ks generalizing bound with
  | nil => cases h
  | cons k ks ih =>
    rw [List.foldlM_cons, bind_eq_error_iff] at h
    rcases h with h | ⟨b, -, h⟩
    · exact bindKeyword_error h
    · exact ih h

/-- Every keyword asks for an empty position after the positional arguments, and no two for one. -/
structure Fits (t : ParamTable) (given : Nat) (bound : Array Attr) (ks : List Keyword) : Prop where
  empty : ∀ k ∈ ks, ∃ p, t.position? k = some p ∧ given ≤ p ∧ bound[p]? = some .null
  distinct : (ks.map t.position?).Nodup

/-- A bound position is no longer empty, so the keywords after `k` fit iff they fit before and ask for
other positions. -/
theorem fits_cons_iff (hk : k.value ≠ .null) :
    t.Fits given bound (k :: ks) ↔
      ∃ p, t.position? k = some p ∧ given ≤ p ∧ bound[p]? = some .null ∧
        t.Fits given (bound.setIfInBounds p k.value) ks := by
  refine ⟨?_, ?_⟩
  · intro h
    obtain ⟨hempty, hdistinct⟩ := h
    obtain ⟨p, hp, hgiven, hnull⟩ := hempty k List.mem_cons_self
    rw [List.map_cons, List.nodup_cons] at hdistinct
    refine ⟨p, hp, hgiven, hnull, fun k' hk' => ?_, hdistinct.2⟩
    obtain ⟨q, hq, hgiven', hnull'⟩ := hempty k' (List.mem_cons_of_mem _ hk')
    have hne : p ≠ q := by
      rintro rfl
      exact hdistinct.1 (List.mem_map.2 ⟨k', hk', hq.trans hp.symm⟩)
    exact ⟨q, hq, hgiven', by rw [Array.getElem?_setIfInBounds_ne hne]; exact hnull'⟩
  · intro h
    obtain ⟨p, hp, hgiven, hnull, hempty, hdistinct⟩ := h
    have hsize : p < bound.size := (Array.getElem?_eq_some_iff.1 hnull).1
    -- a later keyword finds its position empty, and `p` is not
    have hother : ∀ k' ∈ ks, ∃ q, t.position? k' = some q ∧ given ≤ q ∧ p ≠ q ∧
        bound[q]? = some .null := by
      intro k' hk'
      obtain ⟨q, hq, hgiven', hnull'⟩ := hempty k' hk'
      have hne : p ≠ q := by
        rintro rfl
        rw [Array.getElem?_setIfInBounds_self_of_lt hsize] at hnull'
        exact hk (Option.some.inj hnull')
      exact ⟨q, hq, hgiven', hne, by rwa [Array.getElem?_setIfInBounds_ne hne] at hnull'⟩
    refine ⟨?_, ?_⟩
    · intro k' hk'
      rcases List.mem_cons.1 hk' with rfl | hk'
      · exact ⟨p, hp, hgiven, hnull⟩
      · obtain ⟨q, hq, hgiven', -, hnull'⟩ := hother k' hk'
        exact ⟨q, hq, hgiven', hnull'⟩
    · rw [List.map_cons, List.nodup_cons]
      refine ⟨fun hmem => ?_, hdistinct⟩
      obtain ⟨k', hk', heq⟩ := List.mem_map.1 hmem
      obtain ⟨q, hq, -, hne, -⟩ := hother k' hk'
      exact hne (Option.some.inj (hp.symm.trans (heq.symm.trans hq)))

theorem exists_foldlM_bindKeyword_iff (hks : ∀ k ∈ ks, k.value ≠ .null) :
    (∃ bound', ks.foldlM (t.bindKeyword given) bound = .ok bound') ↔ t.Fits given bound ks := by
  induction ks generalizing bound with
  | nil => exact ⟨fun _ => ⟨nofun, List.nodup_nil⟩, fun _ => ⟨bound, rfl⟩⟩
  | cons k ks ih =>
    have ih' := fun b => @ih b fun k' hk' => hks k' (List.mem_cons_of_mem _ hk')
    simp only [fits_cons_iff (hks k List.mem_cons_self), ← ih', List.foldlM_cons, bind_eq_ok_iff,
      bindKeyword_eq_ok_iff]
    refine ⟨?_, ?_⟩
    · intro h
      obtain ⟨b', b, ⟨p, hp, hgiven, hnull, rfl⟩, hrest⟩ := h
      exact ⟨p, hp, hgiven, hnull, b', hrest⟩
    · intro h
      obtain ⟨p, hp, hgiven, hnull, b', hrest⟩ := h
      exact ⟨b', _, ⟨p, hp, hgiven, hnull, rfl⟩, hrest⟩

theorem foldlM_bindKeyword_of_not_mem (h : ks.foldlM (t.bindKeyword given) bound = .ok bound')
    {p : Nat} (hp : ∀ k ∈ ks, t.position? k ≠ some p) : bound'[p]? = bound[p]? := by
  induction ks generalizing bound with
  | nil => cases h; rfl
  | cons k ks ih =>
    rw [List.foldlM_cons, bind_eq_ok_iff] at h
    obtain ⟨b, hk, hrest⟩ := h
    obtain ⟨q, hq, -, -, rfl⟩ := bindKeyword_eq_ok_iff.1 hk
    have hne : q ≠ p := fun heq => hp k List.mem_cons_self (heq ▸ hq)
    rw [ih hrest fun k' hk' => hp k' (List.mem_cons_of_mem _ hk'),
      Array.getElem?_setIfInBounds_ne hne]

/-- A keyword that shares its position with no other one keeps its value there. -/
theorem foldlM_bindKeyword_of_mem (h : ks.foldlM (t.bindKeyword given) bound = .ok bound')
    (hdistinct : (ks.map t.position?).Nodup) {p : Nat} (hk : k ∈ ks) (hp : t.position? k = some p) :
    bound'[p]? = some k.value := by
  induction ks generalizing bound with
  | nil => cases hk
  | cons k' ks ih =>
    rw [List.foldlM_cons, bind_eq_ok_iff] at h
    obtain ⟨b, hk', hrest⟩ := h
    rw [List.map_cons, List.nodup_cons] at hdistinct
    rcases List.mem_cons.1 hk with rfl | hk
    · obtain ⟨q, hq, -, hnull, rfl⟩ := bindKeyword_eq_ok_iff.1 hk'
      obtain rfl : p = q := Option.some.inj (hp.symm.trans hq)
      have hother : ∀ k' ∈ ks, t.position? k' ≠ some p := fun k' hmem heq =>
        hdistinct.1 (List.mem_map.2 ⟨k', hmem, heq.trans hp.symm⟩)
      rw [foldlM_bindKeyword_of_not_mem hrest hother,
        Array.getElem?_setIfInBounds_self_of_lt (Array.getElem?_eq_some_iff.1 hnull).1]
    · exact ih hrest hdistinct.2 hk

theorem foldlM_bindKeyword_size (h : ks.foldlM (t.bindKeyword given) bound = .ok bound') :
    bound'.size = bound.size := by
  induction ks generalizing bound with
  | nil => cases h; rfl
  | cons k ks ih =>
    rw [List.foldlM_cons, bind_eq_ok_iff] at h
    obtain ⟨b, hk, hrest⟩ := h
    obtain ⟨q, -, -, -, rfl⟩ := bindKeyword_eq_ok_iff.1 hk
    rw [ih hrest, Array.size_setIfInBounds]

end ParamTable

/-! ### Defaults -/

namespace Layout

variable {l : Layout} {target : Object} {min p : Nat} {ps : List Nat} {bound bound' : Array Attr}
  {a : Attr} {e : Halt}

theorem defaultPos?_of_lt {i : Nat} (h : l.functionSize.toNat + i < 2 ^ 64) :
    l.defaultPos? i = some (l.functionSize.toNat + i) := if_pos h

theorem defaultPos?_of_le {i : Nat} (h : 2 ^ 64 ≤ l.functionSize.toNat + i) :
    l.defaultPos? i = none := if_neg (Nat.not_lt.2 h)

theorem defaultFor_eq_ok_iff :
    l.defaultFor target min p = .ok a ↔
      min ≤ p ∧ l.functionSize.toNat + (p - min) < 2 ^ 64 ∧ a ≠ .null ∧
        target.slots[l.functionSize.toNat + (p - min)]? = some a := by
  unfold defaultFor
  by_cases hp : p < min
  · simp [hp]
  rcases Nat.lt_or_ge (l.functionSize.toNat + (p - min)) (2 ^ 64) with hsum | hsum
  · simp only [if_neg hp, defaultPos?_of_lt hsum, Nat.not_lt.1 hp, hsum, true_and]
    cases target.slots[l.functionSize.toNat + (p - min)]? with
    | none => simp
    | some b =>
      by_cases hb : b = .null
      · subst hb
        simp [Attr.isNull, eq_comm]
      · simp only [Attr.isNull, beq_eq_false_iff_ne.2 hb, Bool.false_eq_true, if_false,
          Except.ok.injEq, Option.some.injEq]
        exact ⟨fun h => ⟨h ▸ hb, h⟩, And.right⟩
  · simp only [if_neg hp, defaultPos?_of_le hsum]
    exact ⟨nofun, fun h => absurd h.2.1 (Nat.not_lt.2 hsum)⟩

theorem defaultFor_error (h : l.defaultFor target min p = .error e) :
    e = .type .argumentMissing ∨ e = .type .defaultMissing ∨
      (e = .fault ∧ min ≤ p ∧ 2 ^ 64 ≤ l.functionSize.toNat + (p - min)) := by
  unfold defaultFor at h
  by_cases hp : p < min
  · rw [if_pos hp] at h
    exact Or.inl (Except.error.inj h).symm
  rw [if_neg hp] at h
  rcases Nat.lt_or_ge (l.functionSize.toNat + (p - min)) (2 ^ 64) with hsum | hsum
  · simp only [defaultPos?_of_lt hsum] at h
    refine Or.inr (Or.inl ?_)
    split at h
    · split at h
      · exact (Except.error.inj h).symm
      · cases h
    · exact (Except.error.inj h).symm
  · simp only [defaultPos?_of_le hsum] at h
    exact Or.inr (Or.inr ⟨(Except.error.inj h).symm, Nat.not_lt.1 hp, hsum⟩)

/-- A default past the last position is the only one that faults. -/
theorem defaultFor_eq_fault_iff :
    l.defaultFor target min p = .error .fault ↔ 2 ^ 64 ≤ l.functionSize.toNat + (p - min) := by
  refine ⟨fun h => ?_, fun hover => ?_⟩
  · rcases defaultFor_error h with h | h | ⟨-, -, hover⟩
    · cases h
    · cases h
    · exact hover
  · -- a position before `min` would lie at the size of a function, which is a word
    have hsize : l.functionSize.toNat < 2 ^ 64 := l.functionSize.toNat_lt
    have hp : ¬ p < min := by omega
    simp only [defaultFor, if_neg hp, defaultPos?_of_le hover]

theorem fillDefault_eq_ok_iff :
    l.fillDefault target min bound p = .ok bound' ↔
      (bound[p]? ≠ some .null ∧ bound' = bound) ∨
      (bound[p]? = some .null ∧ ∃ a, l.defaultFor target min p = .ok a ∧
        bound' = bound.setIfInBounds p a) := by
  unfold fillDefault
  split
  · rename_i hnull
    simp only [map_eq_ok_iff, hnull, ne_eq, not_true_eq_false, false_and, true_and, false_or]
  · rename_i hfull
    have hfull : bound[p]? ≠ some .null := hfull
    simp [hfull, eq_comm]

/-- Giving one position its default leaves no position newly empty. -/
theorem fillDefault_empty_iff (h : l.fillDefault target min bound p = .ok bound') {q : Nat} :
    bound'[q]? = some .null ↔ bound[q]? = some .null ∧ q ≠ p := by
  rcases fillDefault_eq_ok_iff.1 h with ⟨hfull, rfl⟩ | ⟨hnull, a, ha, rfl⟩
  · exact ⟨fun hq => ⟨hq, fun heq => hfull (heq ▸ hq)⟩, And.left⟩
  · by_cases heq : p = q
    · subst heq
      rw [Array.getElem?_setIfInBounds_self_of_lt (Array.getElem?_eq_some_iff.1 hnull).1]
      simp [(defaultFor_eq_ok_iff.1 ha).2.2.1]
    · rw [Array.getElem?_setIfInBounds_ne heq]
      exact ⟨fun hq => ⟨hq, Ne.symm heq⟩, And.left⟩

theorem exists_foldlM_fillDefault_iff :
    (∃ bound', ps.foldlM (l.fillDefault target min) bound = .ok bound') ↔
      ∀ p ∈ ps, bound[p]? = some .null → ∃ a, l.defaultFor target min p = .ok a := by
  induction ps generalizing bound with
  | nil => exact ⟨fun _ => nofun, fun _ => ⟨bound, rfl⟩⟩
  | cons p ps ih =>
    simp only [List.foldlM_cons, bind_eq_ok_iff]
    refine ⟨?_, ?_⟩
    · intro h q hq hnull
      obtain ⟨b', b, hp, hrest⟩ := h
      by_cases heq : q = p
      · subst heq
        rcases fillDefault_eq_ok_iff.1 hp with ⟨hfull, -⟩ | ⟨-, a, ha, -⟩
        · exact absurd hnull hfull
        · exact ⟨a, ha⟩
      · exact ih.1 ⟨b', hrest⟩ q ((List.mem_cons.1 hq).resolve_left heq)
          ((fillDefault_empty_iff hp).2 ⟨hnull, heq⟩)
    · intro h
      obtain ⟨b, hb⟩ : ∃ b, l.fillDefault target min bound p = .ok b := by
        by_cases hnull : bound[p]? = some .null
        · obtain ⟨a, ha⟩ := h p List.mem_cons_self hnull
          exact ⟨_, fillDefault_eq_ok_iff.2 (Or.inr ⟨hnull, a, ha, rfl⟩)⟩
        · exact ⟨_, fillDefault_eq_ok_iff.2 (Or.inl ⟨hnull, rfl⟩)⟩
      obtain ⟨b', hb'⟩ := ih.2 fun q hq hnull =>
        h q (List.mem_cons_of_mem _ hq) ((fillDefault_empty_iff hb).1 hnull).1
      exact ⟨b', b, hb, hb'⟩

theorem foldlM_fillDefault_of_full (h : ps.foldlM (l.fillDefault target min) bound = .ok bound')
    (hp : p ∈ ps → bound[p]? ≠ some .null) : bound'[p]? = bound[p]? := by
  induction ps generalizing bound with
  | nil => cases h; rfl
  | cons q ps ih =>
    rw [List.foldlM_cons, bind_eq_ok_iff] at h
    obtain ⟨b, hq, hrest⟩ := h
    rw [ih hrest fun hmem hnull => hp (List.mem_cons_of_mem _ hmem) ((fillDefault_empty_iff hq).1 hnull).1]
    rcases fillDefault_eq_ok_iff.1 hq with ⟨-, rfl⟩ | ⟨hnull, a, -, rfl⟩
    · rfl
    · refine Array.getElem?_setIfInBounds_ne ?_
      rintro rfl
      exact hp List.mem_cons_self hnull

theorem foldlM_fillDefault_of_empty (h : ps.foldlM (l.fillDefault target min) bound = .ok bound')
    (hmem : p ∈ ps) (hnull : bound[p]? = some .null) :
    ∃ a, l.defaultFor target min p = .ok a ∧ bound'[p]? = some a := by
  induction ps generalizing bound with
  | nil => cases hmem
  | cons q ps ih =>
    rw [List.foldlM_cons, bind_eq_ok_iff] at h
    obtain ⟨b, hq, hrest⟩ := h
    by_cases heq : p = q
    · subst heq
      rcases fillDefault_eq_ok_iff.1 hq with ⟨hfull, -⟩ | ⟨-, a, ha, rfl⟩
      · exact absurd hnull hfull
      · have hset : (bound.setIfInBounds p a)[p]? = some a :=
          Array.getElem?_setIfInBounds_self_of_lt (Array.getElem?_eq_some_iff.1 hnull).1
        refine ⟨a, ha, ?_⟩
        rw [foldlM_fillDefault_of_full hrest fun _ => ?_, hset]
        rw [hset]
        exact fun hsome => (defaultFor_eq_ok_iff.1 ha).2.2.1 (Option.some.inj hsome)
    · exact ih hrest ((List.mem_cons.1 hmem).resolve_left heq)
        ((fillDefault_empty_iff hq).2 ⟨hnull, heq⟩)

theorem foldlM_fillDefault_size (h : ps.foldlM (l.fillDefault target min) bound = .ok bound') :
    bound'.size = bound.size := by
  induction ps generalizing bound with
  | nil => cases h; rfl
  | cons p ps ih =>
    rw [List.foldlM_cons, bind_eq_ok_iff] at h
    obtain ⟨b, hp, hrest⟩ := h
    rw [ih hrest]
    rcases fillDefault_eq_ok_iff.1 hp with ⟨-, rfl⟩ | ⟨-, a, -, rfl⟩
    · rfl
    · exact Array.size_setIfInBounds

/-- A run of defaults stops at the first position for which there is none. -/
theorem foldlM_fillDefault_error_first (hsorted : ps.Pairwise (· < ·))
    (h : ps.foldlM (l.fillDefault target min) bound = .error e) :
    ∃ p ∈ ps, bound[p]? = some .null ∧ l.defaultFor target min p = .error e ∧
      ∀ q ∈ ps, q < p → bound[q]? = some .null → ∃ a, l.defaultFor target min q = .ok a := by
  induction ps generalizing bound with
  | nil => cases h
  | cons p ps ih =>
    obtain ⟨hlater, hsorted⟩ := List.pairwise_cons.1 hsorted
    rw [List.foldlM_cons, bind_eq_error_iff] at h
    rcases h with h | ⟨b, hfill, h⟩
    · unfold fillDefault at h
      split at h
      · refine ⟨p, List.mem_cons_self, ‹_›, map_eq_error_iff.1 h, fun q hq hlt => ?_⟩
        rcases List.mem_cons.1 hq with rfl | hq
        · exact absurd hlt (Nat.lt_irrefl q)
        · exact absurd hlt (Nat.lt_asymm (hlater q hq))
      · cases h
    · obtain ⟨r, hr, hnull, he, hearlier⟩ := ih hsorted h
      refine ⟨r, List.mem_cons_of_mem _ hr, ((fillDefault_empty_iff hfill).1 hnull).1, he,
        fun q hq hlt hnull => ?_⟩
      rcases List.mem_cons.1 hq with rfl | hq
      · rcases fillDefault_eq_ok_iff.1 hfill with ⟨hfull, -⟩ | ⟨-, a, ha, -⟩
        · exact absurd hnull hfull
        · exact ⟨a, ha⟩
      · exact hearlier q hq hlt ((fillDefault_empty_iff hfill).2 ⟨hnull, (hlater q hq).ne'⟩)

theorem foldlM_fillDefault_eq_error_iff (hsorted : ps.Pairwise (· < ·)) :
    ps.foldlM (l.fillDefault target min) bound = .error e ↔
      ∃ p ∈ ps, bound[p]? = some .null ∧ l.defaultFor target min p = .error e ∧
        ∀ q ∈ ps, q < p → bound[q]? = some .null → ∃ a, l.defaultFor target min q = .ok a := by
  refine ⟨foldlM_fillDefault_error_first hsorted, ?_⟩
  rintro ⟨p, hp, hnull, he, hearlier⟩
  have hnone : ∀ a, l.defaultFor target min p ≠ .ok a := fun a ha => by
    rw [he] at ha
    cases ha
  cases hrun : ps.foldlM (l.fillDefault target min) bound with
  | ok bound' =>
    obtain ⟨a, ha, -⟩ := foldlM_fillDefault_of_empty hrun hp hnull
    exact absurd ha (hnone a)
  | error e' =>
    obtain ⟨p', hp', hnull', he', hearlier'⟩ := foldlM_fillDefault_error_first hsorted hrun
    rcases Nat.lt_trichotomy p p' with hlt | rfl | hlt
    · obtain ⟨a, ha⟩ := hearlier' p hp hlt hnull
      exact absurd ha (hnone a)
    · rw [Except.error.inj (he'.symm.trans he)]
    · obtain ⟨a, ha⟩ := hearlier p' hp' hlt hnull'
      cases he'.symm.trans ha

end Layout

end ObjectRuntime
