import Mathlib.Data.Set.Card
import Mathlib.Tactic
import ObjectRuntime.Raise
import ObjectRuntime.Text.Slice

/-! Checked words as exact integers, and the number of indices of a slice. Every checked operation is
described by the integer that its result stands for, so the count can be compared with the indices
`start + k * step` themselves, however far these lie outside the words. The main statement says that the
count is their number, and that the arithmetic behind it leaves the words for one pair of span and step
only. -/

namespace ObjectRuntime

namespace Checked

variable {a b c : Int64} {x : Int}

theorem ofInt?_eq_some_iff : ofInt? x = some c ↔ c.toInt = x := by
  unfold ofInt?
  refine ⟨?_, ?_⟩
  · intro h
    split at h
    · rename_i hx
      rw [← Option.some.inj h, Int64.toInt_ofInt_of_le hx.1 (Int.lt_add_one_of_le hx.2)]
    · cases h
  · rintro rfl
    rw [if_pos ⟨c.le_toInt, c.toInt_le⟩, Int64.ofInt_toInt]

/-- The integers that a word stands for. -/
def IsWord (x : Int) : Prop := -2 ^ 63 ≤ x ∧ x < 2 ^ 63

instance (x : Int) : Decidable (IsWord x) := inferInstanceAs (Decidable (_ ∧ _))

theorem exists_ofInt?_iff : (∃ c, ofInt? x = some c) ↔ -2 ^ 63 ≤ x ∧ x < 2 ^ 63 := by
  refine ⟨?_, ?_⟩
  · intro h
    obtain ⟨c, h⟩ := h
    rw [← ofInt?_eq_some_iff.1 h]
    exact ⟨c.le_toInt, c.toInt_lt⟩
  · intro h
    obtain ⟨hle, hlt⟩ := h
    exact ⟨Int64.ofInt x, ofInt?_eq_some_iff.2 (Int64.toInt_ofInt_of_le hle hlt)⟩

theorem ofInt?_eq_none_iff : ofInt? x = none ↔ ¬ (-2 ^ 63 ≤ x ∧ x < 2 ^ 63) := by
  rw [← exists_ofInt?_iff, Option.eq_none_iff_forall_ne_some, not_exists]

theorem add?_eq_some_iff : add? a b = some c ↔ c.toInt = a.toInt + b.toInt := ofInt?_eq_some_iff

theorem sub?_eq_some_iff : sub? a b = some c ↔ c.toInt = a.toInt - b.toInt := ofInt?_eq_some_iff

theorem div?_eq_some_iff (hb : b ≠ 0) : div? a b = some c ↔ c.toInt = a.toInt.tdiv b.toInt := by
  rw [div?, if_neg hb, ofInt?_eq_some_iff]

theorem toInt_ne_zero (h : a ≠ 0) : a.toInt ≠ 0 := fun heq => h (Int64.toInt_inj.1 heq)

theorem toInt_sign (a : Int64) : (sign a).toInt = a.toInt.sign := by
  unfold sign
  split
  · rename_i h
    have h : a.toInt < 0 := Int64.lt_iff_toInt_lt.1 h
    rw [Int.sign_eq_neg_one_of_neg h]
    rfl
  · rename_i h
    have h : ¬ a.toInt < 0 := fun hlt => h (Int64.lt_iff_toInt_lt.2 hlt)
    split
    · rename_i hzero
      rw [hzero]
      rfl
    · rename_i hzero
      have hne := toInt_ne_zero hzero
      rw [Int.sign_eq_one_of_pos (by omega)]
      rfl

end Checked

namespace Text

/-- Index `i` comes strictly before `stop` in the direction of `step`. -/
def Precedes (step i stop : Int) : Prop := if 0 < step then i < stop else stop < i

section Quotient

variable {span step : Int}

/-- Two nonzero integers of one sign, by their sizes. -/
theorem exists_sizes (hspan : span ≠ 0) (h : span.sign = step.sign) :
    ∃ s t : Nat, 0 < s ∧ 0 < t ∧ ((span = s ∧ step = t) ∨ (span = -s ∧ step = -t)) := by
  rcases Int.lt_trichotomy step 0 with hneg | rfl | hpos
  · have hspan := Int.sign_eq_neg_one_iff_neg.1 (h.trans (Int.sign_eq_neg_one_of_neg hneg))
    exact ⟨span.natAbs, step.natAbs, by omega, by omega, Or.inr ⟨by omega, by omega⟩⟩
  · exact absurd (Int.sign_eq_zero_iff_zero.1 h) hspan
  · have hspan := Int.sign_eq_one_iff_pos.1 (h.trans (Int.sign_eq_one_of_pos hpos))
    exact ⟨span.natAbs, step.natAbs, by omega, by omega, Or.inl ⟨by omega, by omega⟩⟩

/-- The quotient that is rounded up, in terms of the sizes of span and step. -/
theorem tdiv_sub_sign (hspan : span ≠ 0) (h : span.sign = step.sign) :
    (span - step.sign).tdiv step = ((span.natAbs - 1) / step.natAbs : Nat) := by
  obtain ⟨s, t, hs, ht, ⟨rfl, rfl⟩ | ⟨rfl, rfl⟩⟩ := exists_sizes hspan h
  · rw [Int.sign_natCast_of_ne_zero ht.ne', Int.natAbs_natCast, Int.natAbs_natCast, Int.ofNat_tdiv,
      Nat.cast_sub hs]
    rfl
  · rw [Int.sign_neg, Int.sign_natCast_of_ne_zero ht.ne', Int.natAbs_neg, Int.natAbs_neg,
      Int.natAbs_natCast, Int.natAbs_natCast, show -(s : Int) - -1 = -((s - 1 : Nat) : Int) by omega,
      Int.neg_tdiv_neg, Int.ofNat_tdiv]

theorem lt_quotient_iff (hspan : span ≠ 0) (h : span.sign = step.sign) (k : Nat) :
    k < (span.natAbs - 1) / step.natAbs + 1 ↔ Precedes step (k * step) span := by
  obtain ⟨s, t, hs, ht, hcases⟩ := exists_sizes hspan h
  have hsize : k < (s - 1) / t + 1 ↔ (k * t : Int) < s := by
    rw [Nat.lt_succ_iff, Nat.le_div_iff_mul_le ht]
    norm_cast
    omega
  unfold Precedes
  rcases hcases with ⟨rfl, rfl⟩ | ⟨rfl, rfl⟩
  · rw [if_pos (by omega), Int.natAbs_natCast, Int.natAbs_natCast, hsize]
  · rw [if_neg (by omega), Int.natAbs_neg, Int.natAbs_neg, Int.natAbs_natCast, Int.natAbs_natCast,
      hsize, mul_neg, neg_lt_neg_iff]

/-- No index precedes the stop where span and step differ in sign. -/
theorem not_precedes_of_sign_ne (hstep : step ≠ 0) (h : span = 0 ∨ span.sign ≠ step.sign) (k : Nat) :
    ¬ Precedes step (k * step) span := by
  unfold Precedes
  rcases Int.lt_or_gt_of_ne hstep with hneg | hpos
  · have hspan : 0 ≤ span := by
      rcases h with h | h
      · omega
      · by_contra hlt
        exact h (by rw [Int.sign_eq_neg_one_of_neg hneg, Int.sign_eq_neg_one_of_neg (by omega)])
    rw [if_neg (by omega)]
    nlinarith [Int.natCast_nonneg k]
  · have hspan : span ≤ 0 := by
      rcases h with h | h
      · omega
      · by_contra hlt
        exact h (by rw [Int.sign_eq_one_of_pos hpos, Int.sign_eq_one_of_pos (by omega)])
    rw [if_pos hpos]
    nlinarith [Int.natCast_nonneg k]

end Quotient

/-- A slice with a step whose span is a word, other than the smallest word counted down in steps of one:
then the number of its indices is a word, too. -/
structure Sliceable (start stop step : Int64) : Prop where
  step_ne_zero : step ≠ 0
  le_span : -2 ^ 63 ≤ stop.toInt - start.toInt
  span_lt : stop.toInt - start.toInt < 2 ^ 63
  counted : ¬ (stop.toInt - start.toInt = -2 ^ 63 ∧ step = -1)

variable {start stop step : Int64}

/-- The rounded quotient is a word: a span as large as the smallest word has a step of size two at
least. -/
theorem quotient_lt {span step : Int64} (h : span.toInt.sign = step.toInt.sign)
    (hexcluded : ¬ (span.toInt = -2 ^ 63 ∧ step = -1)) :
    (span.toInt.natAbs - 1) / step.toInt.natAbs + 1 < 2 ^ 63 := by
  have hle := span.le_toInt
  have hlt := span.toInt_lt
  rcases Nat.lt_or_ge span.toInt.natAbs (2 ^ 63) with hsmall | hlarge
  · have hquotient : (span.toInt.natAbs - 1) / step.toInt.natAbs ≤ span.toInt.natAbs - 1 :=
      Nat.div_le_self _ _
    omega
  · have hsmallest : span.toInt = -2 ^ 63 := by omega
    have hneg := Int.sign_eq_neg_one_iff_neg.1 (h.symm.trans (by rw [hsmallest]; rfl))
    have hne : step.toInt ≠ -1 := fun heq => hexcluded ⟨hsmallest, Int64.toInt_inj.1 heq⟩
    have hquotient : (span.toInt.natAbs - 1) / step.toInt.natAbs ≤ (span.toInt.natAbs - 1) / 2 :=
      Nat.div_le_div_left (by omega) (by omega)
    omega

/-- The span moved one step of its sign toward zero is a word. -/
theorem exists_sub_sign {span step : Int64} (hspan : span.toInt ≠ 0)
    (h : span.toInt.sign = step.toInt.sign) :
    ∃ short, Checked.sub? span (Checked.sign step) = some short ∧
      short.toInt = span.toInt - step.toInt.sign := by
  have hle := span.le_toInt
  have hlt := span.toInt_lt
  obtain ⟨short, hshort⟩ : ∃ short, Checked.sub? span (Checked.sign step) = some short := by
    refine Checked.exists_ofInt?_iff.2 ?_
    rw [Checked.toInt_sign, ← h]
    rcases Int.lt_or_gt_of_ne hspan with hneg | hpos
    · rw [Int.sign_eq_neg_one_of_neg hneg]
      omega
    · rw [Int.sign_eq_one_of_pos hpos]
      omega
  have hvalue := Checked.sub?_eq_some_iff.1 hshort
  rw [Checked.toInt_sign] at hvalue
  exact ⟨short, hshort, hvalue⟩

/-- All intermediate values are words, unless the smallest word is counted down in steps of one. -/
theorem exists_indexCount {span step : Int64} (hspan : span.toInt ≠ 0)
    (h : span.toInt.sign = step.toInt.sign) (hexcluded : ¬ (span.toInt = -2 ^ 63 ∧ step = -1)) :
    ∃ n, indexCount span step = some n ∧
      n.toInt = ((span.toInt.natAbs - 1) / step.toInt.natAbs + 1 : Nat) := by
  have hstep : step ≠ 0 := by
    rintro rfl
    exact hspan (Int.sign_eq_zero_iff_zero.1 h)
  have hquotient := tdiv_sub_sign hspan h
  have hlt := quotient_lt h hexcluded
  generalize (span.toInt.natAbs - 1) / step.toInt.natAbs = q at hquotient hlt
  obtain ⟨short, hshort, hvalue⟩ := exists_sub_sign hspan h
  obtain ⟨full, hfull⟩ : ∃ full, Checked.div? short step = some full := by
    rw [Checked.div?, if_neg hstep, hvalue, hquotient]
    exact Checked.exists_ofInt?_iff.2 (by omega)
  have hfull' := (Checked.div?_eq_some_iff hstep).1 hfull
  rw [hvalue, hquotient] at hfull'
  obtain ⟨n, hn⟩ : ∃ n, Checked.add? full 1 = some n := by
    rw [Checked.add?, hfull']
    refine Checked.exists_ofInt?_iff.2 ?_
    change -2 ^ 63 ≤ (q : Int) + 1 ∧ (q : Int) + 1 < 2 ^ 63
    omega
  refine ⟨n, by simp only [indexCount, hshort, hfull, hn, bind, Option.bind], ?_⟩
  rw [Checked.add?_eq_some_iff.1 hn, hfull']
  rfl

theorem sliceCount_zero_step : sliceCount start stop 0 = .error .zeroStep := if_pos rfl

theorem sliceCount_spanOverflow (hstep : step ≠ 0)
    (hspan : ¬ (-2 ^ 63 ≤ stop.toInt - start.toInt ∧ stop.toInt - start.toInt < 2 ^ 63)) :
    sliceCount start stop step = .error .spanOverflow := by
  have hsub : Checked.sub? stop start = none := Checked.ofInt?_eq_none_iff.2 hspan
  simp only [sliceCount, if_neg hstep, hsub]

/-- The count is the number of indices, in exact integers, before the stop. -/
theorem exists_sliceCount (h : Sliceable start stop step) :
    ∃ n, sliceCount start stop step = .ok n ∧
      ∀ k : Nat, k < n ↔ Precedes step.toInt (start.toInt + k * step.toInt) stop.toInt := by
  have hstep := h.step_ne_zero
  obtain ⟨span, hsub⟩ := Checked.exists_ofInt?_iff.2 ⟨h.le_span, h.span_lt⟩
  have hsub : Checked.sub? stop start = some span := hsub
  have hvalue := Checked.sub?_eq_some_iff.1 hsub
  have hshift (k : Nat) : Precedes step.toInt (start.toInt + k * step.toInt) stop.toInt ↔
      Precedes step.toInt (k * step.toInt) span.toInt := by
    unfold Precedes
    rw [hvalue]
    split <;> omega
  simp only [sliceCount, if_neg hstep, hsub, hshift]
  by_cases hempty : span = 0 ∨ Checked.sign span ≠ Checked.sign step
  · rw [if_pos hempty]
    refine ⟨0, rfl, fun k => ⟨fun h => absurd h (Nat.not_lt_zero k), fun h => ?_⟩⟩
    refine absurd h (not_precedes_of_sign_ne (Checked.toInt_ne_zero hstep) ?_ k)
    refine hempty.imp (fun h => by rw [h]; rfl) fun hne heq => hne ?_
    rw [← Checked.toInt_sign, ← Checked.toInt_sign] at heq
    exact Int64.toInt_inj.1 heq
  · rw [not_or, not_not] at hempty
    have hsign : span.toInt.sign = step.toInt.sign := by
      rw [← Checked.toInt_sign, ← Checked.toInt_sign, hempty.2]
    have hne := Checked.toInt_ne_zero hempty.1
    obtain ⟨n, hn, hcount⟩ := exists_indexCount hne hsign (hvalue ▸ h.counted)
    rw [if_neg (by rw [not_or, not_not]; exact hempty), hn]
    refine ⟨n.toInt.toNat, rfl, fun k => ?_⟩
    rw [hcount, Int.toNat_natCast]
    exact lt_quotient_iff hne hsign k

/-! ### Intermediate values -/

/-- The integers that a count goes through, one operation after the other: the span and, where it has the sign
of the step, the span less one of that sign, the quotient and the count itself. -/
def stages (span step : Int) : List Int :=
  if span = 0 ∨ span.sign ≠ step.sign then [span]
  else
    let short := span - step.sign
    [span, short, short.tdiv step, short.tdiv step + 1]

theorem exists_indexCount_iff {span step : Int64} (hstep : step ≠ 0) :
    (∃ n, indexCount span step = some n) ↔
      Checked.IsWord (span.toInt - step.toInt.sign) ∧
      Checked.IsWord ((span.toInt - step.toInt.sign).tdiv step.toInt) ∧
      Checked.IsWord ((span.toInt - step.toInt.sign).tdiv step.toInt + 1) := by
  simp only [indexCount, Option.bind_eq_bind, Option.bind_eq_some_iff]
  refine ⟨?_, ?_⟩
  · rintro ⟨n, short, hshort, full, hfull, hn⟩
    rw [Checked.sub?_eq_some_iff, Checked.toInt_sign] at hshort
    rw [Checked.div?_eq_some_iff hstep, hshort] at hfull
    rw [Checked.add?_eq_some_iff, hfull] at hn
    exact ⟨hshort ▸ ⟨short.le_toInt, short.toInt_lt⟩, hfull ▸ ⟨full.le_toInt, full.toInt_lt⟩,
      hn ▸ ⟨n.le_toInt, n.toInt_lt⟩⟩
  · rintro ⟨hshort, hfull, hn⟩
    obtain ⟨short, hshort⟩ := Checked.exists_ofInt?_iff.2 hshort
    obtain ⟨full, hfull⟩ := Checked.exists_ofInt?_iff.2 hfull
    obtain ⟨n, hn⟩ := Checked.exists_ofInt?_iff.2 hn
    rw [Checked.ofInt?_eq_some_iff] at hshort hfull hn
    refine ⟨n, short, ?_, full, ?_, ?_⟩
    · rw [Checked.sub?_eq_some_iff, hshort, Checked.toInt_sign]
    · rw [Checked.div?_eq_some_iff hstep, hfull, hshort]
    · rw [Checked.add?_eq_some_iff, hn, hfull]
      rfl

/-- There is a count just if everything on the way to it is a word. -/
theorem exists_sliceCount_iff (hstep : step ≠ 0) :
    (∃ n, sliceCount start stop step = .ok n) ↔
      ∀ x ∈ stages (stop.toInt - start.toInt) step.toInt, Checked.IsWord x := by
  cases hsub : Checked.sub? stop start with
  | none =>
    have hspan : ¬ Checked.IsWord (stop.toInt - start.toInt) := Checked.ofInt?_eq_none_iff.1 hsub
    simp only [sliceCount, if_neg hstep, hsub, reduceCtorEq, exists_false, false_iff]
    intro hwords
    refine hspan (hwords _ ?_)
    unfold stages
    split <;> exact List.mem_cons_self
  | some span =>
    have hvalue := Checked.sub?_eq_some_iff.1 hsub
    have hspan : Checked.IsWord span.toInt := ⟨span.le_toInt, span.toInt_lt⟩
    have hempty : span = 0 ∨ Checked.sign span ≠ Checked.sign step ↔
        span.toInt = 0 ∨ span.toInt.sign ≠ step.toInt.sign := by
      rw [← Checked.toInt_sign, ← Checked.toInt_sign, ne_eq, ne_eq, Int64.toInt_inj]
      exact or_congr_left Int64.toInt_inj.symm
    simp only [sliceCount, if_neg hstep, hsub, stages, ← hvalue, hempty]
    split
    · simpa using hspan
    · apply Iff.trans (b := ∃ n, indexCount span step = some n)
      · cases indexCount span step <;> simp
      · rw [exists_indexCount_iff hstep]
        simp [hspan]

/-- Where the span is a word, something on the way to the count is none just if the smallest word is counted
down in steps of one. -/
theorem exists_stage_iff (hstep : step ≠ 0) (hspan : Checked.IsWord (stop.toInt - start.toInt)) :
    (∃ x ∈ stages (stop.toInt - start.toInt) step.toInt, ¬ Checked.IsWord x) ↔
      stop.toInt - start.toInt = -2 ^ 63 ∧ step = -1 := by
  refine ⟨fun hstage => ?_, ?_⟩
  · by_contra hcounted
    obtain ⟨n, hn, -⟩ := exists_sliceCount ⟨hstep, hspan.1, hspan.2, hcounted⟩
    obtain ⟨x, hx, hword⟩ := hstage
    exact hword ((exists_sliceCount_iff hstep).1 ⟨n, hn⟩ x hx)
  · rintro ⟨hsmallest, rfl⟩
    rw [hsmallest]
    decide

/-- The count is the number of the indices before the stop, for every start, stop and step for which it goes
through words only; and these are all but one pair, provided that the step is not zero and the span a word. -/
theorem sliceCount_exact (start stop step : Int64) :
    (Sliceable start stop step →
      (∀ x ∈ stages (stop.toInt - start.toInt) step.toInt, Checked.IsWord x) ∧
      ∃ n : Nat, sliceCount start stop step = .ok n ∧
        {k : Nat | Precedes step.toInt (start.toInt + k * step.toInt) stop.toInt}.encard = n ∧
        ∀ k : Nat, k < n ↔ Precedes step.toInt (start.toInt + k * step.toInt) stop.toInt) ∧
    (step ≠ 0 →
      ((∃ n, sliceCount start stop step = .ok n) ↔
        ∀ x ∈ stages (stop.toInt - start.toInt) step.toInt, Checked.IsWord x) ∧
      (Checked.IsWord (stop.toInt - start.toInt) →
        ((∃ x ∈ stages (stop.toInt - start.toInt) step.toInt, ¬ Checked.IsWord x) ↔
          stop.toInt - start.toInt = -2 ^ 63 ∧ step = -1)) ∧
      (¬ Checked.IsWord (stop.toInt - start.toInt) →
        (sliceCount start stop step).mapError SliceError.halt = .error (.raised .overflow))) ∧
    (step = 0 → (sliceCount start stop step).mapError SliceError.halt = .error (.raised .zeroDivision)) := by
  refine ⟨fun h => ?_, fun hstep => ⟨exists_sliceCount_iff hstep, exists_stage_iff hstep, fun hspan => ?_⟩, ?_⟩
  · obtain ⟨n, hn, hcount⟩ := exists_sliceCount h
    refine ⟨(exists_sliceCount_iff h.step_ne_zero).1 ⟨n, hn⟩, n, hn, ?_, hcount⟩
    have hset : {k : Nat | Precedes step.toInt (start.toInt + k * step.toInt) stop.toInt} = Finset.range n := by
      ext k
      rw [Set.mem_ofPred_eq, ← hcount, Finset.mem_coe, Finset.mem_range]
    rw [hset, Set.encard_coe_eq_coe_finsetCard, Finset.card_range]
  · rw [sliceCount_spanOverflow hstep hspan]
    rfl
  · rintro rfl
    rw [sliceCount_zero_step]
    rfl

/-- The smallest word as a span: it can be counted down in steps of two, and not in steps of one. -/
theorem sliceCount_exact_smallest :
    (Sliceable Int64.maxValue (-1) (-2) ∧ sliceCount Int64.maxValue (-1) (-2) = .ok (2 ^ 62) ∧
      ∀ k : Nat, k < 2 ^ 62 ↔ Precedes (-2) (Int64.maxValue.toInt + k * (-2)) (-1)) ∧
    (Checked.IsWord ((-1 : Int64).toInt - Int64.maxValue.toInt) ∧
      ∃ x ∈ stages ((-1 : Int64).toInt - Int64.maxValue.toInt) (-1), ¬ Checked.IsWord x) ∧
    (¬ Checked.IsWord (Int64.maxValue.toInt - (-1 : Int64).toInt) ∧
      (sliceCount (-1) Int64.maxValue 3).mapError SliceError.halt = .error (.raised .overflow)) ∧
    (sliceCount (-1) Int64.maxValue 0).mapError SliceError.halt = .error (.raised .zeroDivision) := by
  have hsliceable : Sliceable Int64.maxValue (-1) (-2) := ⟨by decide, by decide, by decide, by decide⟩
  have hcounted : sliceCount Int64.maxValue (-1) (-2) = .ok (2 ^ 62) := by decide
  obtain ⟨-, n, hn, -, hprecedes⟩ := (sliceCount_exact Int64.maxValue (-1) (-2)).1 hsliceable
  obtain rfl : n = 2 ^ 62 := Except.ok.inj (hn.symm.trans hcounted)
  have hword : Checked.IsWord ((-1 : Int64).toInt - Int64.maxValue.toInt) := by decide
  have hwide : ¬ Checked.IsWord (Int64.maxValue.toInt - (-1 : Int64).toInt) := by decide
  refine ⟨⟨hsliceable, hcounted, hprecedes⟩, ⟨hword, ?_⟩, ⟨hwide, ?_⟩,
    (sliceCount_exact (-1) Int64.maxValue 0).2.2 rfl⟩
  · exact (((sliceCount_exact Int64.maxValue (-1) (-1)).2.1 (by decide)).2.1 hword).2 ⟨by decide, rfl⟩
  · exact ((sliceCount_exact (-1) Int64.maxValue 3).2.1 (by decide)).2.2 hwide

end Text

end ObjectRuntime
