import Mathlib.Tactic
import ObjectRuntime.Text.CodePoint

/-! Where cursors go. A run starts at the beginning of the text and at every byte that starts a code
point; moving forward finds the least run start beyond the cursor, moving backward the greatest one
before it. Text that is no UTF-8 is covered: its first run may begin with a continuation byte. The main
statement says that the two moves undo each other just at the starts of runs and at the end, and that
neither reads a byte outside the text. -/

namespace ObjectRuntime.Text

variable {bs : Bytes}

/-- The offsets at which runs start. -/
def IsStart (bs : Bytes) (i : Nat) : Prop :=
  (i = 0 ∧ 0 < bs.size) ∨ ∃ b, bs[i]? = some b ∧ isBoundary b

instance (bs : Bytes) (i : Nat) : Decidable (IsStart bs i) :=
  decidable_of_iff ((i = 0 ∧ 0 < bs.size) ∨ bs[i]?.any isBoundary)
    (or_congr_right (Option.any_eq_true _ _))

theorem IsStart.lt_size {i : Nat} (h : IsStart bs i) : i < bs.size := by
  rcases h with ⟨rfl, h⟩ | ⟨b, hb, -⟩
  · exact h
  · exact (Array.getElem?_eq_some_iff.1 hb).1

theorem isStart_of_boundary {i : Nat} (hi : i < bs.size) (h : isBoundary bs[i]) : IsStart bs i :=
  Or.inr ⟨bs[i], Array.getElem?_eq_getElem hi, h⟩

theorem not_isStart_of_not_boundary {i : Nat} (hi : i < bs.size) (hpos : 0 < i)
    (h : ¬ isBoundary bs[i]) : ¬ IsStart bs i := by
  rintro (⟨rfl, -⟩ | ⟨b, hb, hboundary⟩)
  · exact absurd hpos (Nat.lt_irrefl 0)
  · rw [Array.getElem?_eq_getElem hi, Option.some.injEq] at hb
    exact h (hb ▸ hboundary)

/-- The scan forward stops at the first run start or at the end. -/
theorem boundaryFrom_spec (i : Nat) (hi : i ≤ bs.size) (hpos : 0 < i) :
    i ≤ (boundaryFrom bs i hi).offset ∧
    (IsStart bs (boundaryFrom bs i hi).offset ∨ (boundaryFrom bs i hi).offset = bs.size) ∧
    ∀ j, i ≤ j → j < (boundaryFrom bs i hi).offset → ¬ IsStart bs j := by
  induction hn : bs.size - i generalizing i with
  | zero =>
    have heq : i = bs.size := by omega
    rw [boundaryFrom, dif_neg (by omega)]
    exact ⟨le_rfl, Or.inr heq, fun j hle hlt => absurd hlt (Nat.not_lt.2 hle)⟩
  | succ n ih =>
    have hlt : i < bs.size := by omega
    rw [boundaryFrom, dif_pos hlt]
    split
    · rename_i hboundary
      exact ⟨le_rfl, Or.inl (isStart_of_boundary hlt hboundary),
        fun j hle hlt => absurd hlt (Nat.not_lt.2 hle)⟩
    · rename_i hboundary
      obtain ⟨hle, hstop, hbetween⟩ := ih (i + 1) hlt (Nat.succ_pos i) (by omega)
      refine ⟨by omega, hstop, fun j hij hj => ?_⟩
      rcases Nat.eq_or_lt_of_le hij with rfl | hij
      · exact not_isStart_of_not_boundary hlt hpos hboundary
      · exact hbetween j hij hj

/-- The scan backward stops at the last run start before it. -/
theorem boundaryBefore_spec (i : Nat) (hi : i ≤ bs.size) (hpos : 0 < i) :
    (boundaryBefore bs i hi).offset < i ∧ IsStart bs (boundaryBefore bs i hi).offset ∧
    ∀ j, (boundaryBefore bs i hi).offset < j → j < i → ¬ IsStart bs j := by
  induction i with
  | zero => exact absurd hpos (Nat.lt_irrefl 0)
  | succ i ih =>
    rw [boundaryBefore]
    split
    · rename_i hboundary
      refine ⟨Nat.lt_succ_self i, isStart_of_boundary hi hboundary, fun j hlt hle => ?_⟩
      change i < j at hlt
      omega
    · rename_i hboundary
      rcases Nat.eq_zero_or_pos i with rfl | hpos
      · exact ⟨Nat.one_pos, Or.inl ⟨rfl, hi⟩, fun j hlt hle => absurd hlt (by omega)⟩
      · obtain ⟨hlt, hstart, hbetween⟩ := ih (Nat.le_of_succ_le hi) hpos
        refine ⟨by omega, hstart, fun j hij hj => ?_⟩
        rcases Nat.eq_or_lt_of_le (Nat.lt_succ_iff.1 hj) with rfl | hj
        · exact not_isStart_of_not_boundary hi hpos hboundary
        · exact hbetween j hij hj

namespace Cursor

variable {c : Cursor bs}

theorem next_spec (h : c.offset < bs.size) :
    c.offset < c.next.offset ∧ (IsStart bs c.next.offset ∨ c.next.offset = bs.size) ∧
    ∀ j, c.offset < j → j < c.next.offset → ¬ IsStart bs j := by
  rw [next, dif_pos h]
  exact boundaryFrom_spec (c.offset + 1) h (Nat.succ_pos _)

theorem prev_spec (h : 0 < c.offset) :
    c.prev.offset < c.offset ∧ IsStart bs c.prev.offset ∧
    ∀ j, c.prev.offset < j → j < c.offset → ¬ IsStart bs j :=
  boundaryBefore_spec c.offset c.le_size h

/-- The move forward is determined by what lies between. -/
theorem next_offset_eq {e : Nat} (hlt : c.offset < e) (he : IsStart bs e ∨ e = bs.size)
    (hbetween : ∀ j, c.offset < j → j < e → ¬ IsStart bs j) : c.next.offset = e := by
  have hle : e ≤ bs.size := he.elim (fun h => h.lt_size.le) Nat.le_of_eq
  obtain ⟨hlt', hstop, hbetween'⟩ := c.next_spec (by omega)
  rcases Nat.lt_trichotomy c.next.offset e with h | h | h
  · exact absurd (hstop.resolve_right (by omega)) (hbetween _ hlt' h)
  · exact h
  · have := c.next.le_size
    exact absurd (he.resolve_right (by omega)) (hbetween' _ hlt h)

theorem prev_offset_eq {e : Nat} (hlt : e < c.offset) (he : IsStart bs e)
    (hbetween : ∀ j, e < j → j < c.offset → ¬ IsStart bs j) : c.prev.offset = e := by
  obtain ⟨hlt', hstart, hbetween'⟩ := c.prev_spec (by omega)
  rcases Nat.lt_trichotomy c.prev.offset e with h | h | h
  · exact absurd he (hbetween' _ h hlt)
  · exact h
  · exact absurd hstart (hbetween _ h hlt')

theorem next_isLeast_or_end (h : c.offset < bs.size) :
    IsLeast {j | IsStart bs j ∧ c.offset < j} c.next.offset ∨
      (¬ ∃ j, IsStart bs j ∧ c.offset < j) ∧ c.next.offset = bs.size := by
  obtain ⟨hlt, hstart | hend, hbetween⟩ := c.next_spec h
  · refine Or.inl ⟨⟨hstart, hlt⟩, fun j hj => ?_⟩
    by_contra hle
    exact hbetween j hj.2 (Nat.lt_of_not_le hle) hj.1
  · refine Or.inr ⟨?_, hend⟩
    rintro ⟨j, hj, hlt⟩
    exact hbetween j hlt (hend ▸ hj.lt_size) hj

theorem prev_isGreatest (h : 0 < c.offset) :
    IsGreatest {j | IsStart bs j ∧ j < c.offset} c.prev.offset := by
  obtain ⟨hlt, hstart, hbetween⟩ := c.prev_spec h
  refine ⟨⟨hstart, hlt⟩, fun j hj => ?_⟩
  by_contra hle
  exact hbetween j (Nat.lt_of_not_le hle) hj.2 hj.1

theorem eq_of_offset_eq {d : Cursor bs} (h : c.offset = d.offset) : c = d := by
  cases c
  cases d
  cases h
  rfl

/-- Inside a run there is no way back: the move backward leads to its start. -/
theorem prev_next_eq_self_iff (h : c.offset < bs.size) : c.next.prev = c ↔ IsStart bs c.offset := by
  obtain ⟨hlt, -, hbetween⟩ := c.next_spec h
  refine ⟨fun hback => ?_, fun hstart => eq_of_offset_eq (prev_offset_eq hlt hstart hbetween)⟩
  have hstart := (c.next.prev_spec (Nat.zero_lt_of_lt hlt)).2.1
  rwa [hback] at hstart

theorem next_prev_eq_self_iff (h : 0 < c.offset) :
    c.prev.next = c ↔ IsStart bs c.offset ∨ c.offset = bs.size := by
  obtain ⟨hlt, -, hbetween⟩ := c.prev_spec h
  refine ⟨fun hback => ?_, fun hstop => eq_of_offset_eq (next_offset_eq hlt hstop hbetween)⟩
  have hstop := (c.prev.next_spec (hlt.trans_le c.le_size)).2.1
  rwa [hback] at hstop

theorem next_of_end (h : c.offset = bs.size) : c.next = c := dif_neg (by omega)

theorem prev_of_first (h : c.offset = 0) : c.prev = c := by
  obtain ⟨offset, hle⟩ := c
  cases h
  rfl

end Cursor

/-! ### Plain offsets

The moves once more, over offsets that need not lie in the text. What is read is looked up, and a read
outside the text fails. -/

def nextFrom? (bs : Bytes) (i : Nat) : Option Nat :=
  if i < bs.size then
    if i + 1 = bs.size then some (i + 1)
    else bs[i + 1]?.bind fun b => if isBoundary b then some (i + 1) else nextFrom? bs (i + 1)
  else some i
termination_by bs.size - i

def prevFrom? (bs : Bytes) : Nat → Option Nat
  | 0 => some 0
  | i + 1 => bs[i]?.bind fun b => if isBoundary b then some i else prevFrom? bs i

theorem nextFrom?_of_lt (i : Nat) (h : i < bs.size) :
    nextFrom? bs i = some (boundaryFrom bs (i + 1) h).offset := by
  -- the plain move stands one byte behind the one that it reads
  induction hn : bs.size - (i + 1) generalizing i with
  | zero =>
    rw [nextFrom?, if_pos h, if_pos (by omega), boundaryFrom, dif_neg (by omega)]
  | succ n ih =>
    have hlt : i + 1 < bs.size := by omega
    rw [nextFrom?, if_pos h, if_neg hlt.ne, Array.getElem?_eq_getElem hlt, Option.bind_some,
      boundaryFrom, dif_pos hlt]
    split
    · rfl
    · exact ih (i + 1) hlt (by omega)

theorem prevFrom?_of_le (i : Nat) (h : i ≤ bs.size) :
    prevFrom? bs i = some (boundaryBefore bs i h).offset := by
  induction i with
  | zero => rfl
  | succ i ih =>
    rw [prevFrom?, Array.getElem?_eq_getElem h, Option.bind_some, boundaryBefore]
    split
    · rfl
    · exact ih (Nat.le_of_succ_le h)

/-- From within the text no read fails, and the moves are those of cursors. -/
theorem movesFrom?_eq (c : Cursor bs) :
    nextFrom? bs c.offset = some c.next.offset ∧ prevFrom? bs c.offset = some c.prev.offset := by
  refine ⟨?_, prevFrom?_of_le c.offset c.le_size⟩
  rw [Cursor.next]
  split
  · rename_i h
    exact nextFrom?_of_lt c.offset h
  · rename_i h
    rw [nextFrom?, if_neg h]

theorem prevFrom?_of_size_lt {i : Nat} (h : bs.size < i) : prevFrom? bs i = none := by
  cases i with
  | zero => exact absurd h (Nat.not_lt_zero _)
  | succ i => rw [prevFrom?, Array.getElem?_eq_none (Nat.le_of_lt_succ h), Option.bind_none]

/-- The moves of a cursor. Forward it goes to the next run start, or to the end after the last one, and
backward to the run start before it; it stays at the end and at the beginning. There and back again is
no move at all just for a cursor at a run start, or at the end if it goes backward first. All reads lie
in the text as long as the cursor does; a move backward from beyond the end would read outside. -/
theorem Cursor.moves_inverse (bs : Bytes) :
    (∀ c : Cursor bs, c.offset < bs.size →
      (IsLeast {j | IsStart bs j ∧ c.offset < j} c.next.offset ∨
        (¬ ∃ j, IsStart bs j ∧ c.offset < j) ∧ c.next.offset = bs.size) ∧
      (c.next.prev = c ↔ IsStart bs c.offset)) ∧
    (∀ c : Cursor bs, 0 < c.offset →
      IsGreatest {j | IsStart bs j ∧ j < c.offset} c.prev.offset ∧
      (c.prev.next = c ↔ IsStart bs c.offset ∨ c.offset = bs.size)) ∧
    (∀ c : Cursor bs, (c.offset = bs.size → c.next = c) ∧ (c.offset = 0 → c.prev = c)) ∧
    (∀ c : Cursor bs,
      nextFrom? bs c.offset = some c.next.offset ∧ prevFrom? bs c.offset = some c.prev.offset) ∧
    ∀ i, bs.size < i → prevFrom? bs i = none := by
  refine ⟨fun c h => ?_, fun c h => ?_, fun c => ?_, movesFrom?_eq, fun i => prevFrom?_of_size_lt⟩
  · exact ⟨c.next_isLeast_or_end h, c.prev_next_eq_self_iff h⟩
  · exact ⟨c.prev_isGreatest h, c.next_prev_eq_self_iff h⟩
  · exact ⟨c.next_of_end, c.prev_of_first⟩

/-- Malformed text that begins inside a code point and has a stray byte at its end. -/
theorem Cursor.moves_inverse_malformed :
    let bs : Bytes := #[0x80, 0x61, 0xC3, 0xA9, 0xBF]
    let last : Cursor bs := ⟨2, by decide⟩
    let inside : Cursor bs := ⟨4, by decide⟩
    let stop : Cursor bs := ⟨5, by decide⟩
    (last.offset < bs.size ∧ (¬ ∃ j, IsStart bs j ∧ 2 < j) ∧ last.next.offset = 5 ∧
      IsStart bs last.offset ∧ last.next.prev = last) ∧
    (inside.offset < bs.size ∧ ¬ IsStart bs inside.offset ∧ inside.next.prev ≠ inside) ∧
    (0 < stop.offset ∧ IsGreatest {j | IsStart bs j ∧ j < 5} stop.prev.offset ∧ stop.prev.next = stop) ∧
    (stop.next = stop ∧ (Cursor.first bs).prev = Cursor.first bs) ∧
    nextFrom? bs 5 = some stop.next.offset ∧ prevFrom? bs 5 = some stop.prev.offset ∧
    bs.size < 6 ∧ prevFrom? bs 6 = none := by
  intro bs last inside stop
  obtain ⟨hnext, hprev, hends, hreads, hbeyond⟩ := Cursor.moves_inverse bs
  have hnone : ¬ ∃ j, IsStart bs j ∧ 2 < j := by
    rintro ⟨j, hj, hlt⟩
    have hbound : ∀ j < 5, 2 < j → ¬ IsStart bs j := by decide
    exact hbound j hj.lt_size hlt hj
  obtain ⟨hforward, hback⟩ := hnext last (by decide)
  have hlast := (hforward.resolve_left fun hleast => hnone ⟨_, hleast.1⟩).2
  have hinside : ¬ IsStart bs inside.offset := by decide
  obtain ⟨hbackward, hforth⟩ := hprev stop (by decide)
  exact ⟨⟨by decide, hnone, hlast, by decide, hback.2 (by decide)⟩,
    ⟨by decide, hinside, fun heq => hinside ((hnext inside (by decide)).2.1 heq)⟩,
    ⟨by decide, hbackward, hforth.2 (Or.inr rfl)⟩,
    ⟨(hends stop).1 rfl, (hends (Cursor.first bs)).2 rfl⟩,
    (hreads stop).1, (hreads stop).2, by decide, hbeyond 6 (by decide)⟩

end ObjectRuntime.Text
