import ObjectRuntime.Proofs.Runs
import ObjectRuntime.Proofs.SliceCount
import ObjectRuntime.Raise

/-! Slices as lists. The runs that a slice selects are those at `start`, `start + step`, ... in exact
integers, up to the first index that is not before the stop or not in the text. The main statement says
that a slice of any bytes whatever is the concatenation of these runs. -/

namespace ObjectRuntime.Text

/-- An index in a text of `count` code points that comes before the stop. -/
def Within (count : Nat) (step stop i : Int) : Prop := 0 ≤ i ∧ i < count ∧ Precedes step i stop

/-- The first `m` indices from `start` on are within, and the next one is not. -/
def Takes (count : Nat) (start stop step : Int) (m : Nat) : Prop :=
  (∀ k < m, Within count step stop (start + (k : Nat) * step)) ∧
    ¬ Within count step stop (start + (m : Nat) * step)

/-- The items at the first `m` indices. -/
def pick {α : Type} (xs : List α) (start step : Int) (m : Nat) : List α :=
  (List.range m).filterMap fun k => xs[(start + (k : Nat) * step).toNat]?

section Indices

variable {count m : Nat} {start stop step : Int}

theorem takes_zero (h : ¬ Within count step stop start) : Takes count start stop step 0 :=
  ⟨nofun, by simpa using h⟩

theorem shift_index (start step : Int) (k : Nat) :
    start + ((k + 1 : Nat) : Int) * step = start + step + k * step := by
  push_cast
  ring

theorem Takes.succ (hstart : Within count step stop start)
    (h : Takes count (start + step) stop step m) : Takes count start stop step (m + 1) := by
  refine ⟨fun k hk => ?_, by rw [shift_index]; exact h.2⟩
  cases k with
  | zero => simpa using hstart
  | succ k =>
    rw [shift_index]
    exact h.1 k (Nat.lt_of_succ_lt_succ hk)

/-- A selection is determined by its start, stop and step. -/
theorem Takes.unique {m' : Nat} (h : Takes count start stop step m)
    (h' : Takes count start stop step m') : m = m' := by
  rcases Nat.lt_trichotomy m m' with hlt | heq | hlt
  · exact absurd (h'.1 m hlt) h.2
  · exact heq
  · exact absurd (h.1 m' hlt) h'.2

theorem pick_succ {α : Type} {xs : List α} {x : α} (h : xs[start.toNat]? = some x) :
    pick xs start step (m + 1) = x :: pick xs (start + step) step m := by
  simp only [pick, List.range_succ_eq_map, List.filterMap_cons, Nat.cast_zero, zero_mul, add_zero, h,
    List.filterMap_map, Function.comp_def, Nat.succ_eq_add_one, shift_index]

theorem pick_map {α β : Type} (f : α → β) (xs : List α) :
    pick (xs.map f) start step m = (pick xs start step m).map f := by
  simp only [pick, List.getElem?_map, List.map_filterMap]

/-- Counting up by ones picks a prefix. -/
theorem pick_zero_one {α : Type} (xs : List α) (m : Nat) : pick xs 0 1 m = xs.take m := by
  induction m with
  | zero => rfl
  | succ m ih =>
    rw [List.take_add_one, ← ih]
    cases h : xs[m]? <;> simp [pick, List.range_succ, h]

end Indices

variable {bs : Bytes} {start stop step : Int64}

theorem inText_iff {count : Nat} {i : Int64} : inText count i ↔ 0 ≤ i.toInt ∧ i.toInt < count := by
  simp only [inText, Bool.and_eq_true, decide_eq_true_eq]

theorem nextIndex_eq_some_iff {count : Nat} {i j : Int64} :
    nextIndex count step i = some j ↔
      j.toInt = i.toInt + step.toInt ∧ 0 ≤ j.toInt ∧ j.toInt < count := by
  rw [nextIndex, Option.filter_eq_some_iff, Checked.add?_eq_some_iff, inText_iff]

/-- Where there is no next index, none is within: one that is no word lies beyond the stop or before the
text. -/
theorem not_within_of_nextIndex_eq_none {count : Nat} {i : Int64}
    (h : nextIndex count step i = none) :
    ¬ Within count step.toInt stop.toInt (i.toInt + step.toInt) := by
  intro hwithin
  obtain ⟨hle, hlt, hprecedes⟩ := hwithin
  have hword : i.toInt + step.toInt < 2 ^ 63 := by
    unfold Precedes at hprecedes
    have := stop.toInt_lt
    have := i.toInt_lt
    split at hprecedes <;> omega
  obtain ⟨j, hj⟩ := Checked.exists_ofInt?_iff.2 ⟨by omega, hword⟩
  have hvalue := Checked.ofInt?_eq_some_iff.1 hj
  rw [nextIndex_eq_some_iff.2 ⟨hvalue, hvalue ▸ hle, hvalue ▸ hlt⟩] at h
  cases h

theorem length_le_runs (bs : Bytes) : length bs ≤ (runs bs.toList).length := by
  rw [length_runs, length, ← Array.countP_toList]
  exact Nat.le_add_right _ _

theorem lt_iff_precedes_next {left : Nat} {i : Int}
    (hleft : ∀ k : Nat, k < left + 1 ↔ Precedes step.toInt (i + k * step.toInt) stop.toInt) (k : Nat) :
    k < left ↔ Precedes step.toInt (i + step.toInt + k * step.toInt) stop.toInt := by
  rw [← shift_index, ← hleft (k + 1), Nat.succ_lt_succ_iff]

/-- These cursors stand at runs of the text, and their runs are those that the slice takes. -/
def Selects (start stop step : Int) (cs : List (Cursor bs)) : Prop :=
  ∃ m, Takes (length bs) start stop step m ∧
    cs.map (·.run.toList) = pick (runs bs.toList) start step m ∧
    ∀ c ∈ cs, ∃ k < (runs bs.toList).length, c.At k

section Selects

variable {i stop step : Int} {c : Cursor bs} {cs : List (Cursor bs)}

theorem selects_nil (h : ¬ Within (length bs) step stop i) : Selects i stop step ([] : List (Cursor bs)) :=
  ⟨0, takes_zero h, rfl, nofun⟩

theorem Within.toNat_lt_runs (h : Within (length bs) step stop i) :
    i.toNat < (runs bs.toList).length := by
  have hlength := length_le_runs bs
  have hnonneg := h.1
  have hlt := h.2.1
  omega

theorem Selects.cons (hc : c.At i.toNat) (hi : Within (length bs) step stop i)
    (h : Selects (i + step) stop step cs) : Selects i stop step (c :: cs) := by
  obtain ⟨m, htakes, hpick, hmem⟩ := h
  have hindex := hi.toNat_lt_runs
  have hget : (runs bs.toList)[i.toNat]? = some c.run.toList := by
    rw [List.getElem?_eq_getElem hindex, hc.toList_run hindex]
  refine ⟨m + 1, htakes.succ hi, ?_, List.forall_mem_cons.2 ⟨⟨_, hindex, hc⟩, hmem⟩⟩
  rw [List.map_cons, hpick, pick_succ hget]

end Selects

/-- A walk from a cursor at an index that is within selects the runs that the slice takes from there,
provided that the walk may last as long as the indices precede the stop. -/
theorem selects_walk {left : Nat} {i : Int64} {c : Cursor bs} (hc : c.At i.toInt.toNat)
    (hi : Within (length bs) step.toInt stop.toInt i.toInt)
    (hleft : ∀ k : Nat, k < left ↔ Precedes step.toInt (i.toInt + k * step.toInt) stop.toInt) :
    Selects i.toInt stop.toInt step.toInt (walk (length bs) step left i c) := by
  induction left generalizing i c with
  | zero => exact absurd ((hleft 0).2 (by simpa using hi.2.2)) (Nat.lt_irrefl 0)
  | succ left ih =>
    have hrest := lt_iff_precedes_next hleft
    rw [walk]
    apply Selects.cons hc hi
    cases hnext : nextIndex (length bs) step i with
    | none => exact selects_nil (not_within_of_nextIndex_eq_none hnext)
    | some j =>
      obtain ⟨hj, hle, hlt⟩ := nextIndex_eq_some_iff.1 hnext
      rw [← hj] at hrest ⊢
      by_cases hprecedes : Precedes step.toInt j.toInt stop.toInt
      · have hwithin : Within (length bs) step.toInt stop.toInt j.toInt := ⟨hle, hlt, hprecedes⟩
        have hmove : (j.toInt.toNat : Int) = i.toInt.toNat + step.toInt := by
          have hnonneg := hi.1
          omega
        exact ih (hc.move hi.toNat_lt_runs hwithin.toNat_lt_runs hmove) hwithin hrest
      · -- the number of steps left has come to zero with the stop
        obtain rfl : left = 0 := by
          by_contra hne
          exact hprecedes (by simpa using (hrest 0).1 (Nat.pos_of_ne_zero hne))
        exact selects_nil fun h => hprecedes h.2.2

/-! ### The two passes -/

theorem toList_gather (cs : List (Cursor bs)) :
    (gather cs).toList = (cs.map (·.run.toList)).flatten := by
  have hfold (out : Bytes) (cs : List (Cursor bs)) :
      (cs.foldl (fun out c => out ++ c.run) out).toList =
        out.toList ++ (cs.map (·.run.toList)).flatten := by
    induction cs generalizing out with
    | nil => simp
    | cons c cs ih => simp [ih]
  exact hfold #[] cs

theorem Cursor.size_run (c : Cursor bs) : c.run.size = c.width := by
  rw [Cursor.run, Array.size_extract, Nat.min_eq_left c.next.le_size, Cursor.width]

/-- The first pass adds up what the second one copies. -/
theorem totalWidth_eq_size_gather (cs : List (Cursor bs)) : totalWidth cs = (gather cs).size := by
  have hfold (total : Nat) (cs : List (Cursor bs)) :
      cs.foldl (fun total c => total + c.width) total =
        total + (cs.map (·.run.toList)).flatten.length := by
    induction cs generalizing total with
    | nil => simp
    | cons c cs ih => simp [ih, Cursor.size_run, Nat.add_assoc]
  rw [← Array.length_toList, toList_gather, totalWidth, hfold, Nat.zero_add]

theorem exists_selection (bs : Bytes) (h : Sliceable start stop step) :
    ∃ cs, selection bs start stop step = .ok cs ∧ Selects start.toInt stop.toInt step.toInt cs := by
  obtain ⟨n, hn, hcount⟩ := exists_sliceCount h
  have hstop : 0 < n ↔ Precedes step.toInt start.toInt stop.toInt := by
    simpa using hcount 0
  simp only [selection, hn, bind, Except.bind, pure, Except.pure]
  refine ⟨_, rfl, ?_⟩
  by_cases hstart : Within (length bs) step.toInt stop.toInt start.toInt
  · have hfirst : ((Cursor.first bs).advance start.toInt.natAbs).At start.toInt.toNat := by
      have hindex : start.toInt.natAbs = start.toInt.toNat := by
        have hnonneg := hstart.1
        omega
      have hadvance := Cursor.at_first.advance ((Nat.zero_add _).trans_le hstart.toNat_lt_runs.le)
      rw [hindex]
      rwa [Nat.zero_add] at hadvance
    have hin : inText (length bs) start := inText_iff.2 ⟨hstart.1, hstart.2.1⟩
    rw [if_neg (by simp [hin, (hstop.2 hstart.2.2).ne'])]
    exact selects_walk hfirst hstart hcount
  · rw [if_pos]
    · exact selects_nil hstart
    · by_contra hcontra
      simp only [not_or, Bool.not_eq_true', Bool.not_eq_false] at hcontra
      obtain ⟨hle, hlt⟩ := inText_iff.1 hcontra.2
      exact hstart ⟨hle, hlt, hstop.1 (Nat.pos_of_ne_zero hcontra.1)⟩

theorem exists_substring (bs : Bytes) (h : Sliceable start stop step) :
    ∃ m, Takes (length bs) start.toInt stop.toInt step.toInt m ∧
      substring bs start stop step =
        .ok (pick (runs bs.toList) start.toInt step.toInt m).flatten.toArray := by
  obtain ⟨cs, hselection, m, htakes, hpick, -⟩ := exists_selection bs h
  refine ⟨m, htakes, ?_⟩
  rw [substring, hselection, Except.map, ← hpick, ← toList_gather, Array.toArray_toList]

theorem takes_all (count : Nat) : Takes count 0 count 1 count := by
  refine ⟨?_, ?_⟩
  · intro k hk
    have hprecedes : Precedes 1 k count := by
      rw [Precedes, if_pos Int.one_pos]
      exact Int.ofNat_lt.2 hk
    rw [mul_one, zero_add]
    exact ⟨Int.natCast_nonneg k, Int.ofNat_lt.2 hk, hprecedes⟩
  · rw [mul_one, zero_add]
    exact fun h => absurd h.2.1 (Int.lt_irrefl _)

/-- The slice of all code points leaves out the last run where the first has no code point of its own. -/
theorem substring_whole_eq_self_iff {n : Int64} (hn : n.toInt = length bs) :
    substring bs 0 n 1 = .ok bs ↔ StartsCodePoint bs.toList := by
  have hzero : (0 : Int64).toInt = 0 := rfl
  have hone : (1 : Int64).toInt = 1 := rfl
  have hsliceable : Sliceable 0 n 1 :=
    ⟨by decide, by rw [hn, hzero]; omega, by have := n.toInt_lt; rw [hzero]; omega,
      fun h => absurd h.2 (by decide)⟩
  obtain ⟨m, htakes, hsubstring⟩ := exists_substring bs hsliceable
  rw [hzero, hone, hn] at htakes
  rw [hzero, hone] at hsubstring
  obtain rfl := htakes.unique (takes_all _)
  have hruns := length_runs bs.toList
  rw [Array.countP_toList, ← length] at hruns
  rw [hsubstring, pick_zero_one, Except.ok.injEq]
  refine ⟨?_, ?_⟩
  · intro heq
    by_contra hstarts
    rw [if_neg hstarts] at hruns
    have hindex : length bs < (runs bs.toList).length := by omega
    have hlt := runStart_lt_succ hindex
    rw [← hruns, runStart_length, runStart, ← List.size_toArray, heq] at hlt
    exact Nat.lt_irrefl _ hlt
  · intro hstarts
    rw [if_pos hstarts, Nat.add_zero] at hruns
    rw [← hruns, List.take_length, flatten_runs, Array.toArray_toList]

theorem Cursor.At.within {c : Cursor bs} {k : Nat} (h : c.At k) (hk : k < (runs bs.toList).length) :
    c.offset < c.next.offset ∧ c.next.offset ≤ bs.size := by
  have hnext : c.next.offset = runStart bs (k + 1) := h.next hk
  have hoffset : c.offset = runStart bs k := h
  exact ⟨by rw [hnext, hoffset]; exact runStart_lt_succ hk, c.next.le_size⟩

theorem startsCodePoint_toList_iff :
    StartsCodePoint bs.toList ↔ bs = #[] ∨ ∃ b, bs[0]? = some b ∧ isBoundary b := by
  rw [← Array.getElem?_toList, ← Array.toList_eq_nil_iff]
  cases bs.toList with
  | nil => simp [StartsCodePoint]
  | cons b rest => simp [StartsCodePoint]

/-- A slice of any bytes whatever consists of the runs at the indices it takes, whether these are
well-formed text or not, and both passes agree on how long that is. The whole text is a slice of itself
unless it begins inside a code point. Otherwise the step is zero or the span is no word. -/
theorem substring_eq_pick (bs : Bytes) :
    (∀ start stop step : Int64, Sliceable start stop step →
      ∃ m cs, Takes (length bs) start.toInt stop.toInt step.toInt m ∧
        selection bs start stop step = .ok cs ∧
        (∀ c ∈ cs, c.offset < c.next.offset ∧ c.next.offset ≤ bs.size) ∧
        substring bs start stop step =
          .ok (pick (runs bs.toList) start.toInt step.toInt m).flatten.toArray ∧
        totalWidth cs = (pick (runs bs.toList) start.toInt step.toInt m).flatten.length) ∧
    (∀ n : Int64, n.toInt = length bs →
      (substring bs 0 n 1 = .ok bs ↔ bs = #[] ∨ ∃ b, bs[0]? = some b ∧ isBoundary b)) ∧
    (∀ start stop : Int64,
      (substring bs start stop 0).mapError SliceError.halt = .error (.raised .zeroDivision)) ∧
    ∀ start stop step : Int64, step ≠ 0 →
      ¬ (-2 ^ 63 ≤ stop.toInt - start.toInt ∧ stop.toInt - start.toInt < 2 ^ 63) →
      (substring bs start stop step).mapError SliceError.halt = .error (.raised .overflow) := by
  refine ⟨fun start stop step h => ?_, fun n hn => ?_, fun start stop => ?_,
    fun start stop step hstep hspan => ?_⟩
  · obtain ⟨cs, hselection, m, htakes, hpick, hmem⟩ := exists_selection bs h
    have hout := toList_gather cs
    rw [hpick] at hout
    refine ⟨m, cs, htakes, hselection, fun c hc => ?_, ?_, ?_⟩
    · obtain ⟨k, hk, hat⟩ := hmem c hc
      exact hat.within hk
    · rw [substring, hselection, Except.map, ← hout, Array.toArray_toList]
    · rw [totalWidth_eq_size_gather, ← hout, Array.length_toList]
  · rw [substring_whole_eq_self_iff hn, startsCodePoint_toList_iff]
  · rw [substring, selection, sliceCount_zero_step]
    rfl
  · rw [substring, selection, sliceCount_spanOverflow hstep hspan]
    rfl

/-- Malformed text that begins inside a code point: it has four runs and three code points. -/
theorem substring_malformed :
    let bs : Bytes := #[0x80, 0x61, 0xC3, 0xA9, 0x62]
    (Sliceable 2 (-1) (-2) ∧ ∃ m cs, Takes 3 2 (-1) (-2) m ∧ selection bs 2 (-1) (-2) = .ok cs ∧
      (∀ c ∈ cs, c.offset < c.next.offset ∧ c.next.offset ≤ 5) ∧
      substring bs 2 (-1) (-2) = .ok (pick (runs bs.toList) 2 (-2) m).flatten.toArray ∧
      totalWidth cs = (pick (runs bs.toList) 2 (-2) m).flatten.length) ∧
    ((3 : Int64).toInt = length bs ∧ substring bs 0 3 1 ≠ .ok bs) ∧
    (substring bs 4 0 0).mapError SliceError.halt = .error (.raised .zeroDivision) ∧
    (¬ (-2 ^ 63 ≤ Int64.maxValue.toInt - (-1 : Int64).toInt ∧
        Int64.maxValue.toInt - (-1 : Int64).toInt < 2 ^ 63) ∧
      (substring bs (-1) Int64.maxValue 1).mapError SliceError.halt = .error (.raised .overflow)) := by
  obtain ⟨hslice, hwhole, hzero, hoverflow⟩ := substring_eq_pick #[0x80, 0x61, 0xC3, 0xA9, 0x62]
  have hsliceable : Sliceable 2 (-1) (-2) := ⟨by decide, by decide, by decide, by decide⟩
  refine ⟨⟨hsliceable, hslice 2 (-1) (-2) hsliceable⟩, ⟨by decide, ?_⟩, hzero 4 0, by decide,
    hoverflow (-1) Int64.maxValue 1 (by decide) (by decide)⟩
  rw [ne_eq, hwhole 3 (by decide)]
  decide

end ObjectRuntime.Text
