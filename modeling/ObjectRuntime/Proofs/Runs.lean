import Mathlib.Data.List.TakeWhile
import ObjectRuntime.Proofs.Cursor
import ObjectRuntime.Text.Slice

/-! Text as a list of runs: it is cut at its start and before every byte that starts a code point, and
nowhere else. A cursor that goes over the text stands at the start of some run, moves from run to run
and reads whole runs, so what is said about cursors can be said about indices into the list. -/

namespace ObjectRuntime.Text

def runs : List UInt8 → List (List UInt8)
  | [] => []
  | b :: bs => (b :: bs.takeWhile (!isBoundary ·)) :: runs (bs.dropWhile (!isBoundary ·))
termination_by bs => bs.length
decreasing_by
  have := List.length_dropWhile_le (!isBoundary ·) bs
  simp only [List.length_cons]
  omega

/-- One byte and the continuation bytes after it. -/
def IsRun (r : List UInt8) : Prop := ∃ b cont, r = b :: cont ∧ ∀ x ∈ cont, ¬ isBoundary x

/-- There is no first byte, or it starts a code point. -/
def StartsCodePoint (r : List UInt8) : Prop := ∀ b ∈ r.head?, isBoundary b

instance (r : List UInt8) : Decidable (StartsCodePoint r) :=
  inferInstanceAs (Decidable (∀ b ∈ r.head?, _))

theorem flatten_runs (l : List UInt8) : (runs l).flatten = l := by
  fun_induction runs l with
  | case1 => rfl
  | case2 b bs ih =>
    rw [List.flatten_cons, ih, List.cons_append, List.takeWhile_append_dropWhile]

theorem isRun_of_mem_runs {l r : List UInt8} (h : r ∈ runs l) : IsRun r := by
  fun_induction runs l with
  | case1 => cases h
  | case2 b bs ih =>
    rcases List.mem_cons.1 h with rfl | h
    · exact ⟨b, _, rfl, fun x hx => by simpa using List.mem_takeWhile_imp hx⟩
    · exact ih h

theorem startsCodePoint_dropWhile (l : List UInt8) :
    StartsCodePoint (l.dropWhile (!isBoundary ·)) := by
  intro b hb
  have h := List.head?_dropWhile_not (!isBoundary ·) l
  rw [Option.mem_def.1 hb] at h
  simpa using h

theorem StartsCodePoint.of_head {r : List UInt8} {rs : List (List UInt8)}
    (h : StartsCodePoint (r :: rs).flatten) : StartsCodePoint r := by
  cases r with
  | nil => exact nofun
  | cons b r => exact h

theorem startsCodePoint_of_mem_tail {l r : List UInt8} (h : r ∈ (runs l).tail) :
    StartsCodePoint r := by
  fun_induction runs l with
  | case1 => cases h
  | case2 b bs ih =>
    rw [List.tail_cons] at h
    have hflat := flatten_runs (bs.dropWhile (!isBoundary ·))
    have hstarts := startsCodePoint_dropWhile bs
    cases hruns : runs (bs.dropWhile (!isBoundary ·)) with
    | nil => rw [hruns] at h; cases h
    | cons r' rs =>
      rw [hruns] at h ih hflat
      rw [← hflat] at hstarts
      rcases List.mem_cons.1 h with rfl | h
      · exact hstarts.of_head
      · exact ih h

/-- What is taken up to the next code point stops where the rest starts one. -/
theorem takeWhile_append_of_starts {cont rest : List UInt8} (hcont : ∀ x ∈ cont, ¬ isBoundary x)
    (hrest : StartsCodePoint rest) :
    (cont ++ rest).takeWhile (!isBoundary ·) = cont ∧
    (cont ++ rest).dropWhile (!isBoundary ·) = rest := by
  have hcont : ∀ x ∈ cont, (!isBoundary x) = true := fun x hx => by simpa using hcont x hx
  rw [List.takeWhile_append_of_pos hcont, List.dropWhile_append_of_pos hcont]
  cases rest with
  | nil => simp
  | cons b rest =>
    have hb : isBoundary b := hrest b rfl
    simp [hb]

/-- A text put together from runs is cut into just these runs. -/
theorem runs_flatten {rs : List (List UInt8)} (hruns : ∀ r ∈ rs, IsRun r)
    (htail : ∀ r ∈ rs.tail, StartsCodePoint r) : runs rs.flatten = rs := by
  induction rs with
  | nil => rw [List.flatten_nil, runs]
  | cons r rs ih =>
    obtain ⟨b, cont, rfl, hcont⟩ := hruns r List.mem_cons_self
    have hrest : StartsCodePoint rs.flatten := by
      cases rs with
      | nil => exact nofun
      | cons r' rs =>
        obtain ⟨b', cont', rfl, -⟩ := hruns r' (by simp)
        have hstarts := htail (b' :: cont') List.mem_cons_self
        exact hstarts
    obtain ⟨htake, hdrop⟩ := takeWhile_append_of_starts hcont hrest
    rw [List.flatten_cons, List.cons_append, runs, htake, hdrop,
      ih (fun r hr => hruns r (List.mem_cons_of_mem _ hr))
        (fun r hr => htail r (List.mem_of_mem_tail hr))]

/-- Every run has one byte that starts a code point, except a first one that begins with a continuation
byte. -/
theorem length_runs (l : List UInt8) : (runs l).length =
    l.countP isBoundary + if StartsCodePoint l then 0 else 1 := by
  fun_induction runs l with
  | case1 =>
    have hempty : StartsCodePoint [] := nofun
    rw [if_pos hempty, List.length_nil, List.countP_nil]
  | case2 b bs ih =>
    have hcont : (bs.takeWhile (!isBoundary ·)).countP isBoundary = 0 := by
      rw [List.countP_eq_zero]
      exact fun x hx => by simpa using List.mem_takeWhile_imp hx
    have hcount : bs.countP isBoundary = (bs.dropWhile (!isBoundary ·)).countP isBoundary := by
      rw [← List.takeWhile_append_dropWhile (p := (!isBoundary ·)) (l := bs), List.countP_append,
        hcont, List.takeWhile_append_dropWhile, Nat.zero_add]
    rw [List.length_cons, ih, if_pos (startsCodePoint_dropWhile bs), ← hcount, List.countP_cons]
    by_cases hb : isBoundary b <;> simp [StartsCodePoint, hb]

/-! ### Offsets -/

/-- The offset at which the run with this index starts. -/
def runStart (bs : Bytes) (k : Nat) : Nat := ((runs bs.toList).take k).flatten.length

variable {bs : Bytes} {k : Nat}

theorem runStart_succ (h : k < (runs bs.toList).length) :
    runStart bs (k + 1) = runStart bs k + (runs bs.toList)[k].length := by
  rw [runStart, List.take_succ_eq_append_getElem h, List.flatten_append, List.length_append,
    List.flatten_singleton, runStart]

theorem runStart_length : runStart bs (runs bs.toList).length = bs.size := by
  rw [runStart, List.take_length, flatten_runs, Array.length_toList]

/-- The text around a run. -/
theorem around_run (l : List UInt8) (h : k < (runs l).length) :
    ((runs l).take k).flatten ++ ((runs l)[k] ++ ((runs l).drop (k + 1)).flatten) = l := by
  rw [← List.flatten_cons, ← List.drop_eq_getElem_cons h, ← List.flatten_append,
    List.take_append_drop, flatten_runs]

theorem getElem?_runStart_add (h : k < (runs bs.toList).length) {i : Nat}
    (hi : i < (runs bs.toList)[k].length) :
    bs[runStart bs k + i]? = (runs bs.toList)[k][i]? := by
  have haround := congrArg (·[runStart bs k + i]?) (around_run bs.toList h)
  rw [runStart] at haround ⊢
  rw [← Array.getElem?_toList, ← haround, List.getElem?_append_right (Nat.le_add_right _ _),
    Nat.add_sub_cancel_left, List.getElem?_append_left hi]

theorem runStart_lt_succ (h : k < (runs bs.toList).length) :
    runStart bs k < runStart bs (k + 1) := by
  obtain ⟨b, cont, hrun, -⟩ := isRun_of_mem_runs (List.getElem_mem h)
  rw [runStart_succ h, hrun, List.length_cons]
  omega

theorem isStart_runStart (h : k < (runs bs.toList).length) : IsStart bs (runStart bs k) := by
  obtain ⟨b, cont, hrun, -⟩ := isRun_of_mem_runs (List.getElem_mem h)
  have hhead : bs[runStart bs k]? = some b := by
    have hfirst := getElem?_runStart_add h (i := 0) (by rw [hrun]; exact Nat.succ_pos _)
    rwa [Nat.add_zero, hrun, List.getElem?_cons_zero] at hfirst
  cases k with
  | zero => exact Or.inl ⟨rfl, (Array.getElem?_eq_some_iff.1 hhead).1⟩
  | succ k =>
    have htail : (runs bs.toList)[k + 1] ∈ (runs bs.toList).tail := by
      rw [← List.getElem_tail (by rw [List.length_tail]; omega)]
      exact List.getElem_mem _
    exact Or.inr ⟨b, hhead, startsCodePoint_of_mem_tail htail b (by rw [hrun]; rfl)⟩

/-- No run starts inside another. -/
theorem not_isStart_of_between (h : k < (runs bs.toList).length) {j : Nat}
    (hlt : runStart bs k < j) (hj : j < runStart bs (k + 1)) : ¬ IsStart bs j := by
  obtain ⟨b, cont, hrun, hcont⟩ := isRun_of_mem_runs (List.getElem_mem h)
  obtain ⟨i, rfl⟩ : ∃ i, j = runStart bs k + (i + 1) := ⟨j - runStart bs k - 1, by omega⟩
  rw [runStart_succ h] at hj
  have hi : i + 1 < (runs bs.toList)[k].length := by omega
  rintro (⟨hzero, -⟩ | ⟨x, hx, hboundary⟩)
  · omega
  · rw [getElem?_runStart_add h hi, hrun, List.getElem?_cons_succ] at hx
    exact hcont x (List.mem_of_getElem? hx) hboundary

/-! ### Cursors -/

namespace Cursor

variable {c : Cursor bs}

/-- The cursor stands at the start of the run with this index, or at the end after all runs. -/
def At (c : Cursor bs) (k : Nat) : Prop := c.offset = runStart bs k

theorem at_first : (first bs).At 0 := rfl

theorem At.next (h : c.At k) (hk : k < (runs bs.toList).length) : c.next.At (k + 1) := by
  refine next_offset_eq (h ▸ runStart_lt_succ hk) ?_ (h ▸ fun _ => not_isStart_of_between hk)
  rcases Nat.eq_or_lt_of_le (Nat.succ_le_of_lt hk) with heq | hlt
  · exact Or.inr (by rw [show k + 1 = _ from heq, runStart_length])
  · exact Or.inl (isStart_runStart hlt)

theorem At.prev (h : c.At (k + 1)) (hk : k < (runs bs.toList).length) : c.prev.At k :=
  prev_offset_eq (h ▸ runStart_lt_succ hk) (isStart_runStart hk)
    (h ▸ fun _ => not_isStart_of_between hk)

theorem At.advance {j : Nat} (h : c.At k) (hj : k + j ≤ (runs bs.toList).length) :
    (c.advance j).At (k + j) := by
  induction j generalizing c k with
  | zero => exact h
  | succ j ih =>
    rw [show k + (j + 1) = k + 1 + j by omega]
    exact ih (h.next (by omega)) (by omega)

theorem At.retreat {j : Nat} (h : c.At (k + j)) (hj : k + j ≤ (runs bs.toList).length) :
    (c.retreat j).At k := by
  induction j generalizing c with
  | zero => exact h
  | succ j ih => exact ih (At.prev h (by omega)) (by omega)

theorem At.move {step : Int64} {j : Nat} (h : c.At k) (hk : k < (runs bs.toList).length)
    (hj : j < (runs bs.toList).length) (hstep : (j : Int) = k + step.toInt) :
    (c.move step).At j := by
  rw [Cursor.move]
  split
  · rename_i hpos
    have hpos : 0 < step.toInt := Int64.lt_iff_toInt_lt.1 hpos
    obtain rfl : j = k + step.toInt.natAbs := by omega
    exact h.advance hj.le
  · rename_i hneg
    have hneg : ¬ 0 < step.toInt := fun hpos => hneg (Int64.lt_iff_toInt_lt.2 hpos)
    obtain rfl : k = j + step.toInt.natAbs := by omega
    exact At.retreat h hk.le

theorem At.toList_run (h : c.At k) (hk : k < (runs bs.toList).length) :
    c.run.toList = (runs bs.toList)[k] := by
  have hnext : c.next.offset = runStart bs (k + 1) := h.next hk
  rw [Cursor.run, hnext, show c.offset = _ from h, Array.toList_extract, List.extract_eq_take_drop,
    runStart_succ hk, Nat.add_sub_cancel_left]
  calc (bs.toList.drop (runStart bs k)).take (runs bs.toList)[k].length
    _ = ((((runs bs.toList).take k).flatten ++ ((runs bs.toList)[k] ++
          ((runs bs.toList).drop (k + 1)).flatten)).drop (runStart bs k)).take
          (runs bs.toList)[k].length := by rw [around_run bs.toList hk]
    _ = (runs bs.toList)[k] := by rw [runStart, List.drop_left, List.take_left]

end Cursor

end ObjectRuntime.Text
