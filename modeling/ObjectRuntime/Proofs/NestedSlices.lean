import ObjectRuntime.Proofs.Slice

/-! Slices of slices. A slice of text that begins with a code point is cut into just the runs that were
selected, so an index into the slice is an index into the text, and slicing again is slicing once with
composed indices. Counting down the whole text and then the result gives the text back. -/

namespace ObjectRuntime.Text

/-! ### Items at indices -/

section Pick

variable {α : Type} {xs : List α} {start step : Int} {m : Nat}

theorem mem_of_mem_pick {x : α} (h : x ∈ pick xs start step m) : x ∈ xs := by
  obtain ⟨k, -, hk⟩ := List.mem_filterMap.1 h
  exact List.mem_of_getElem? hk

theorem pick_add_one : pick xs start step (m + 1) =
    pick xs start step m ++ xs[(start + (m : Nat) * step).toNat]?.toList := by
  simp only [pick, List.range_succ, List.filterMap_append, List.filterMap_cons, List.filterMap_nil]
  cases xs[(start + (m : Nat) * step).toNat]? <;> rfl

variable (hindices : ∀ k < m, (start + (k : Nat) * step).toNat < xs.length)

include hindices

theorem length_pick : (pick xs start step m).length = m := by
  induction m with
  | zero => rfl
  | succ m ih =>
    rw [pick_add_one, List.length_append, ih fun k hk => hindices k (Nat.lt_succ_of_lt hk),
      List.getElem?_eq_getElem (hindices m (Nat.lt_succ_self m))]
    rfl

theorem getElem?_pick {k : Nat} (hk : k < m) :
    (pick xs start step m)[k]? = xs[(start + (k : Nat) * step).toNat]? := by
  induction m with
  | zero => exact absurd hk (Nat.not_lt_zero k)
  | succ m ih =>
    have hindices' : ∀ k < m, (start + (k : Nat) * step).toNat < xs.length :=
      fun k hk => hindices k (Nat.lt_succ_of_lt hk)
    have hlength := length_pick hindices'
    rw [pick_add_one]
    rcases Nat.eq_or_lt_of_le (Nat.lt_succ_iff.1 hk) with rfl | hk
    · rw [List.getElem?_append_right hlength.le, hlength, Nat.sub_self,
        List.getElem?_eq_getElem (hindices k (Nat.lt_succ_self k))]
      rfl
    · rw [List.getElem?_append_left (hlength.symm ▸ hk), ih hindices' hk]

/-- Picking among picked items is picking with composed indices, as long as these stay among them. -/
theorem pick_pick {c q : Int} {l : Nat} (hinner : ∀ k < l, 0 ≤ c + (k : Nat) * q ∧ c + (k : Nat) * q < m) :
    pick (pick xs start step m) c q l = pick xs (start + c * step) (step * q) l := by
  refine List.filterMap_congr fun k hk => ?_
  obtain ⟨hle, hlt⟩ := hinner k (List.mem_range.1 hk)
  obtain ⟨j, hj⟩ := Int.eq_ofNat_of_zero_le hle
  have hindex : start + (j : Nat) * step = start + c * step + (k : Nat) * (step * q) := by
    rw [← hj]
    ring
  rw [hj, Int.toNat_natCast, getElem?_pick hindices (by omega), hindex]

end Pick

/-! ### Composed indices -/

section Indices

variable {count m : Nat} {start stop step c d q : Int}

/-- Stretching indices by a step keeps their order in the direction of the stretched step. -/
theorem precedes_mul (hstep : step ≠ 0) (hq : q ≠ 0) (i : Int) :
    Precedes (step * q) (start + i * step) (start + d * step) ↔ Precedes q i d := by
  unfold Precedes
  rcases Int.lt_or_gt_of_ne hstep with hneg | hpos
  · rcases Int.lt_or_gt_of_ne hq with hq | hq
    · rw [if_pos (Int.mul_pos_of_neg_of_neg hneg hq), if_neg hq.not_gt, Int.add_lt_add_iff_left,
        Int.mul_lt_mul_right_of_neg hneg]
    · rw [if_neg (Int.mul_neg_of_neg_of_pos hneg hq).not_gt, if_pos hq, Int.add_lt_add_iff_left,
        Int.mul_lt_mul_right_of_neg hneg]
  · rcases Int.lt_or_gt_of_ne hq with hq | hq
    · rw [if_neg (Int.mul_neg_of_pos_of_neg hpos hq).not_gt, if_neg hq.not_gt, Int.add_lt_add_iff_left,
        Int.mul_lt_mul_right hpos]
    · rw [if_pos (Int.mul_pos hpos hq), if_pos hq, Int.add_lt_add_iff_left, Int.mul_lt_mul_right hpos]

/-- An index that is counted from one of `m` items towards a stop at most one off them is one of the items
until it reaches the stop. -/
theorem within_of_precedes (hc : 0 ≤ c ∧ c < m) (hd : -1 ≤ d ∧ d ≤ m) (k : Nat)
    (h : Precedes q (c + (k : Nat) * q) d) : Within m q d (c + (k : Nat) * q) := by
  have hk := Int.natCast_nonneg k
  refine ⟨?_, ?_, h⟩ <;> unfold Precedes at h <;> split at h <;> nlinarith

theorem Takes.compose (hstep : step ≠ 0) (hq : q ≠ 0) (hc : 0 ≤ c ∧ c < m) (hd : -1 ≤ d ∧ d ≤ m) {l : Nat}
    (houter : Takes count start stop step m) (hinner : Takes m c d q l) :
    Takes count (start + c * step) (start + d * step) (step * q) l := by
  have hshift (k : Nat) : start + c * step + (k : Nat) * (step * q) = start + (c + (k : Nat) * q) * step := by
    ring
  refine ⟨fun k hk => ?_, fun hwithin => hinner.2 ?_⟩
  · obtain ⟨hle, hlt, hprecedes⟩ := hinner.1 k hk
    obtain ⟨j, hj⟩ := Int.eq_ofNat_of_zero_le hle
    obtain ⟨hle', hlt', -⟩ := houter.1 j (by omega)
    rw [hshift]
    exact ⟨by rwa [hj], by rwa [hj], (precedes_mul hstep hq _).2 hprecedes⟩
  · rw [hshift] at hwithin
    exact within_of_precedes hc hd l ((precedes_mul hstep hq _).1 hwithin.2.2)

end Indices

/-! ### Runs of a slice -/

theorem startsCodePoint_of_mem_runs {l r : List UInt8} (hl : StartsCodePoint l) (h : r ∈ runs l) :
    StartsCodePoint r := by
  have hflat := flatten_runs l
  cases hruns : runs l with
  | nil =>
    rw [hruns] at h
    cases h
  | cons first rest =>
    rw [hruns] at h hflat
    rcases List.mem_cons.1 h with rfl | h
    · exact StartsCodePoint.of_head (hflat.symm ▸ hl)
    · exact startsCodePoint_of_mem_tail (by rwa [hruns])

theorem startsCodePoint_flatten {rs : List (List UInt8)} (hruns : ∀ r ∈ rs, IsRun r)
    (hstarts : ∀ r ∈ rs, StartsCodePoint r) : StartsCodePoint rs.flatten := by
  cases rs with
  | nil => exact nofun
  | cons r rs =>
    obtain ⟨b, cont, rfl, -⟩ := hruns r List.mem_cons_self
    exact hstarts (b :: cont) List.mem_cons_self

theorem length_runs_eq_length {bs : Bytes} (h : StartsCodePoint bs.toList) :
    (runs bs.toList).length = length bs := by
  rw [length_runs, if_pos h, Nat.add_zero, length, ← Array.countP_toList]

variable {bs out : Bytes} {start stop step : Int64}

theorem sliceable_of_substring (h : substring bs start stop step = .ok out) : Sliceable start stop step := by
  obtain ⟨n, hn⟩ : ∃ n, sliceCount start stop step = .ok n := by
    cases hcount : sliceCount start stop step with
    | ok n => exact ⟨n, rfl⟩
    | error e =>
      rw [substring, selection, hcount] at h
      cases h
  have hstep : step ≠ 0 := by
    rintro rfl
    rw [sliceCount_zero_step] at hn
    cases hn
  have hspan : Checked.IsWord (stop.toInt - start.toInt) := by
    by_contra hspan
    rw [sliceCount_spanOverflow hstep hspan] at hn
    cases hn
  refine ⟨hstep, hspan.1, hspan.2, fun hexcluded => ?_⟩
  obtain ⟨x, hx, hword⟩ := (exists_stage_iff hstep hspan).2 hexcluded
  exact hword ((exists_sliceCount_iff hstep).1 ⟨n, hn⟩ x hx)

/-- The indices that a slice takes are those of runs. -/
theorem Takes.lt_runs {start stop step : Int} {m k : Nat} (h : Takes (length bs) start stop step m)
    (hk : k < m) : (start + (k : Nat) * step).toNat < (runs bs.toList).length :=
  (h.1 k hk).toNat_lt_runs

/-- A slice has one code point for each index that it takes, and its runs are those of the text. -/
theorem runs_substring (hstarts : StartsCodePoint bs.toList) (h : Sliceable start stop step) :
    ∃ m out, Takes (length bs) start.toInt stop.toInt step.toInt m ∧
      substring bs start stop step = .ok out ∧ length out = m ∧
      runs out.toList = pick (runs bs.toList) start.toInt step.toInt m := by
  obtain ⟨m, htakes, hsubstring⟩ := exists_substring bs h
  have hruns : ∀ r ∈ pick (runs bs.toList) start.toInt step.toInt m, IsRun r :=
    fun r hr => isRun_of_mem_runs (mem_of_mem_pick hr)
  have hheads : ∀ r ∈ pick (runs bs.toList) start.toInt step.toInt m, StartsCodePoint r :=
    fun r hr => startsCodePoint_of_mem_runs hstarts (mem_of_mem_pick hr)
  have hcut := runs_flatten hruns fun r hr => hheads r (List.mem_of_mem_tail hr)
  refine ⟨m, _, htakes, hsubstring, ?_, hcut⟩
  rw [← length_runs_eq_length (startsCodePoint_flatten hruns hheads), hcut,
    length_pick fun k hk => htakes.lt_runs hk]

/-- Start `c`, stop `d` and step `q` of a slice of `m` code points that begins at `a` in a text and goes on in
steps of `p`; `stop` and `step` are what these come to in the text. -/
structure InnerSlice (m : Nat) (a p c d q stop step : Int64) : Prop where
  start_nonneg : 0 ≤ c.toInt
  start_lt : c.toInt < m
  le_stop : -1 ≤ d.toInt
  stop_le : d.toInt ≤ m
  step_ne_zero : q ≠ 0
  stop_eq : stop.toInt = a.toInt + d.toInt * p.toInt
  step_eq : step.toInt = p.toInt * q.toInt
  span : Checked.IsWord ((d.toInt - c.toInt) * p.toInt)
  counted_inner : ¬ (d.toInt - c.toInt = -2 ^ 63 ∧ q = -1)
  counted : ¬ ((d.toInt - c.toInt) * p.toInt = -2 ^ 63 ∧ step = -1)

namespace InnerSlice

variable {m : Nat} {a p c d q stop step : Int64} (h : InnerSlice m a p c d q stop step)

include h

theorem sliceable : Sliceable c d q := by
  have hc := h.start_nonneg
  have hd := h.le_stop
  have hc' := c.toInt_lt
  have hd' := d.toInt_lt
  exact ⟨h.step_ne_zero, by omega, by omega, h.counted_inner⟩

theorem sliceable_outer (hp : p ≠ 0) {start : Int64} (hstart : start.toInt = a.toInt + c.toInt * p.toInt) :
    Sliceable start stop step := by
  have hspan : stop.toInt - start.toInt = (d.toInt - c.toInt) * p.toInt := by
    rw [h.stop_eq, hstart]
    ring
  refine ⟨?_, hspan ▸ h.span.1, hspan ▸ h.span.2, hspan ▸ h.counted⟩
  rintro rfl
  have hzero : (0 : Int64).toInt = 0 := rfl
  exact mul_ne_zero (Checked.toInt_ne_zero hp) (Checked.toInt_ne_zero h.step_ne_zero)
    (h.step_eq.symm.trans hzero)

/-- The index in the text of the first code point is a word: it lies between the start and the stop of the
slice that was taken first. -/
theorem exists_start {count : Nat} {e : Int64} (htakes : Takes count a.toInt e.toInt p.toInt m) :
    ∃ start : Int64, start.toInt = a.toInt + c.toInt * p.toInt := by
  obtain ⟨j, hj⟩ := Int.eq_ofNat_of_zero_le h.start_nonneg
  have hlt := h.start_lt
  obtain ⟨hle, -, hprecedes⟩ := htakes.1 j (by omega)
  rw [hj]
  have hword : a.toInt + (j : Nat) * p.toInt < 2 ^ 63 := by
    have ha := a.toInt_lt
    have he := e.toInt_lt
    have hj := Int.natCast_nonneg j
    unfold Precedes at hprecedes
    split at hprecedes <;> nlinarith
  obtain ⟨start, hstart⟩ := Checked.exists_ofInt?_iff.2 ⟨by omega, hword⟩
  exact ⟨start, Checked.ofInt?_eq_some_iff.1 hstart⟩

end InnerSlice

/-- Slicing a slice is slicing the text with composed indices. -/
theorem exists_substring_substring {a e p c d q stop step : Int64} (hstarts : StartsCodePoint bs.toList)
    (hout : substring bs a e p = .ok out) (h : InnerSlice (length out) a p c d q stop step) :
    ∃ start : Int64, start.toInt = a.toInt + c.toInt * p.toInt ∧
      ∃ r, substring out c d q = .ok r ∧ substring bs start stop step = .ok r := by
  have hsliceable := sliceable_of_substring hout
  obtain ⟨m, out', htakes, hout', hlength, hruns⟩ := runs_substring hstarts hsliceable
  obtain rfl : out = out' := Except.ok.inj (hout.symm.trans hout')
  rw [hlength] at h
  obtain ⟨start, hstart⟩ := h.exists_start htakes
  obtain ⟨l, hinner, hsub⟩ := exists_substring out h.sliceable
  rw [hlength] at hinner
  obtain ⟨l', houter, hsub'⟩ := exists_substring bs (h.sliceable_outer hsliceable.step_ne_zero hstart)
  rw [hstart, h.stop_eq, h.step_eq] at houter
  rw [hstart, h.step_eq] at hsub'
  have hcomposed := htakes.compose (Checked.toInt_ne_zero hsliceable.step_ne_zero)
    (Checked.toInt_ne_zero h.step_ne_zero) ⟨h.start_nonneg, h.start_lt⟩ ⟨h.le_stop, h.stop_le⟩ hinner
  obtain rfl := houter.unique hcomposed
  refine ⟨start, hstart, _, hsub, ?_⟩
  rw [hsub', hruns, pick_pick (fun k hk => htakes.lt_runs hk) fun k hk => ⟨(hinner.1 k hk).1, (hinner.1 k hk).2.1⟩]

/-! ### Counting down -/

theorem takes_down (count : Nat) : Takes count (count - 1) (-1) (-1) count := by
  have hindex (k : Nat) : Within count (-1) (-1) (count - 1 + (k : Nat) * -1) ↔ k < count := by
    rw [Within, Precedes, if_neg (by decide)]
    omega
  exact ⟨fun k hk => (hindex k).2 hk, fun h => Nat.lt_irrefl count ((hindex count).1 h)⟩

theorem toInt_sub_one {n : Int64} (h : 0 ≤ n.toInt) : (n - 1).toInt = n.toInt - 1 := by
  have hlt := n.toInt_lt
  have hone : (1 : Int64).toInt = 1 := rfl
  rw [Int64.toInt_sub, hone, Int.bmod_eq_of_le] <;> omega

/-- Counting down gives all runs in turn, and counting them down again the text. -/
theorem exists_substring_down {n : Int64} (hstarts : StartsCodePoint bs.toList) (hn : n.toInt = length bs) :
    ∃ r, substring bs (n - 1) (-1) (-1) = .ok r ∧ length r = length bs ∧
      substring r (n - 1) (-1) (-1) = .ok bs := by
  have hminus : (-1 : Int64).toInt = -1 := rfl
  have hlast : (n - 1).toInt = length bs - 1 := by rw [toInt_sub_one (by omega), hn]
  have hsliceable : Sliceable (n - 1) (-1) (-1) := by
    have hlt := n.toInt_lt
    refine ⟨by decide, ?_, ?_, fun h => ?_⟩ <;> omega
  obtain ⟨m, r, htakes, hr, hlength, hruns⟩ := runs_substring hstarts hsliceable
  rw [hlast, hminus] at htakes hruns
  obtain rfl := htakes.unique (takes_down _)
  refine ⟨r, hr, hlength, ?_⟩
  obtain ⟨m', htakes', hback⟩ := exists_substring r hsliceable
  rw [hlast, hminus, hlength] at htakes'
  obtain rfl := htakes'.unique (takes_down _)
  have hinner : ∀ k < length bs, 0 ≤ (length bs : Int) - 1 + (k : Nat) * -1 ∧
      (length bs : Int) - 1 + (k : Nat) * -1 < length bs := fun k hk => by omega
  have hpick := pick_pick (fun k hk => htakes.lt_runs hk) hinner
  rw [hback, hlast, hminus, hruns, hpick]
  have hstart : (length bs : Int) - 1 + ((length bs : Int) - 1) * -1 = 0 := by ring
  rw [hstart, show (-1 : Int) * -1 = 1 from rfl, pick_zero_one, ← length_runs_eq_length hstarts,
    List.take_length, flatten_runs, Array.toArray_toList]

/-- Slices of text that begins with a code point, or is empty, compose: a slice of a slice is one slice, in
whatever directions the two go. Counting the whole text down twice gives it back. -/
theorem substring_substring (hstarts : bs = #[] ∨ ∃ b, bs[0]? = some b ∧ isBoundary b) :
    (∀ (a e p : Int64) (out : Bytes), substring bs a e p = .ok out →
      ∀ c d q stop step : Int64, InnerSlice (length out) a p c d q stop step →
        ∃ start : Int64, start.toInt = a.toInt + c.toInt * p.toInt ∧
          ∃ r, substring out c d q = .ok r ∧ substring bs start stop step = .ok r) ∧
    ∀ n : Int64, n.toInt = length bs →
      ∃ r, substring bs (n - 1) (-1) (-1) = .ok r ∧ length r = length bs ∧
        substring r (n - 1) (-1) (-1) = .ok bs := by
  have hstarts := startsCodePoint_toList_iff.2 hstarts
  exact ⟨fun _ _ _ _ hout _ _ _ _ _ h => exists_substring_substring hstarts hout h,
    fun _ hn => exists_substring_down hstarts hn⟩

/-- Scalars of one to four bytes and a stray byte: every other run counted down, and the last two of these
taken in the order of the text again. -/
theorem substring_substring_strided :
    let bs := #[0x61, 0xC3, 0xA9, 0x80, 0xE2, 0x82, 0xAC, 0x62, 0xF0, 0x9D, 0x84, 0x9E]
    let out := #[0xF0, 0x9D, 0x84, 0x9E, 0xE2, 0x82, 0xAC, 0x61]
    ((∃ b, bs[0]? = some b ∧ isBoundary b) ∧ substring bs 4 (-1) (-2) = .ok out ∧
      InnerSlice (length out) 4 (-2) 2 0 (-1) 4 2 ∧
      ∃ start : Int64, start.toInt = 0 ∧ ∃ r, substring out 2 0 (-1) = .ok r ∧ substring bs start 4 2 = .ok r) ∧
    (5 : Int64).toInt = length bs ∧
      ∃ r, substring bs 4 (-1) (-1) = .ok r ∧ length r = 5 ∧ substring r 4 (-1) (-1) = .ok bs := by
  intro bs out
  have hstarts : ∃ b, bs[0]? = some b ∧ isBoundary b := ⟨0x61, rfl, by decide⟩
  obtain ⟨hinner, hdown⟩ := substring_substring (Or.inr hstarts)
  have hout : substring bs 4 (-1) (-2) = .ok out := by decide +kernel
  have hindices : InnerSlice (length out) 4 (-2) 2 0 (-1) 4 2 := by
    constructor <;> decide
  have hcount : length bs = 5 := by decide
  have hfour : (5 : Int64) - 1 = 4 := by decide
  obtain ⟨r, hr, hlength, hback⟩ := hdown 5 (hcount ▸ rfl)
  rw [hfour] at hr hback
  exact ⟨⟨hstarts, hout, hindices, hinner 4 (-1) (-2) out hout 2 0 (-1) 4 2 hindices⟩, hcount ▸ rfl, r, hr,
    hlength.trans hcount, hback⟩

end ObjectRuntime.Text
