import ObjectRuntime.Cli.Session
import ObjectRuntime.Proofs.Slice

/-! Slices of well-formed text. An encoded scalar is one run that starts with a byte of its own, so the
runs of an encoded text are its encoded scalars and slicing commutes with the encoding. The decoder reads
every encoded scalar back, so nothing in such a slice is replaced when it is printed. -/

namespace ObjectRuntime.Text

/-- The byte that carries the low six bits of `x` after the first byte of a sequence. -/
def trailing (x : Nat) : UInt8 := UInt8.ofNat (x % 0x40 + 0x80)

theorem toNat_trailing (x : Nat) : (trailing x).toNat = x % 0x40 + 0x80 := by
  rw [trailing, UInt8.toNat_ofNat', Nat.mod_eq_of_lt (by omega)]

theorem toNat_scalar (c : Char) : c.toNat < 0xD800 ∨ 0xDFFF < c.toNat ∧ c.toNat < 0x110000 := c.valid

/-- The bytes of a scalar value by its size. -/
theorem utf8EncodeChar_cases (c : Char) :
    (c.toNat < 0x80 ∧ String.utf8EncodeChar c = [UInt8.ofNat c.toNat]) ∨
    (0x80 ≤ c.toNat ∧ c.toNat < 0x800 ∧
      String.utf8EncodeChar c = [UInt8.ofNat (c.toNat / 0x40 + 0xC0), trailing c.toNat]) ∨
    (0x800 ≤ c.toNat ∧ c.toNat < 0x10000 ∧
      String.utf8EncodeChar c = [UInt8.ofNat (c.toNat / 0x1000 + 0xE0), trailing (c.toNat / 0x40),
        trailing c.toNat]) ∨
    (0x10000 ≤ c.toNat ∧ c.toNat < 0x110000 ∧
      String.utf8EncodeChar c = [UInt8.ofNat (c.toNat / 0x40000 + 0xF0), trailing (c.toNat / 0x1000),
        trailing (c.toNat / 0x40), trailing c.toNat]) := by
  have hlt : c.toNat < 0x110000 := by
    have := toNat_scalar c
    omega
  fun_cases String.utf8EncodeChar c with
  | case1 v h => exact Or.inl ⟨Nat.lt_succ_of_le h, rfl⟩
  | case2 v h h' =>
    refine Or.inr (Or.inl ⟨Nat.lt_of_not_le h, Nat.lt_succ_of_le h', ?_⟩)
    rw [Nat.mod_eq_of_lt (by omega)]
    rfl
  | case3 v h h' h'' =>
    refine Or.inr (Or.inr (Or.inl ⟨Nat.lt_of_not_le h', Nat.lt_succ_of_le h'', ?_⟩))
    rw [Nat.mod_eq_of_lt (by omega)]
    rfl
  | case4 v h h' h'' =>
    refine Or.inr (Or.inr (Or.inr ⟨Nat.lt_of_not_le h'', hlt, ?_⟩))
    have hlt : v < 0x110000 := hlt
    rw [Nat.mod_eq_of_lt (by omega)]
    rfl

/-! ### Runs -/

theorem isBoundary_iff (b : UInt8) : isBoundary b ↔ b.toNat < 0x80 ∨ 0xC0 ≤ b.toNat := by
  have hall : ∀ n < 256, isBoundary (UInt8.ofNat n) ↔ n < 0x80 ∨ 0xC0 ≤ n := by decide +kernel
  have hb := hall b.toNat b.toNat_lt
  rwa [UInt8.ofNat_toNat] at hb

theorem not_isBoundary_trailing (x : Nat) : ¬ isBoundary (trailing x) := by
  rw [isBoundary_iff, toNat_trailing]
  omega

theorem isBoundary_ofNat {n : Nat} (hn : n < 0x100) (h : n < 0x80 ∨ 0xC0 ≤ n) :
    isBoundary (UInt8.ofNat n) := by
  rwa [isBoundary_iff, UInt8.toNat_ofNat', Nat.mod_eq_of_lt hn]

/-- An encoded scalar is one run, and its first byte is a boundary. -/
theorem utf8EncodeChar_isRun (c : Char) :
    IsRun (String.utf8EncodeChar c) ∧ StartsCodePoint (String.utf8EncodeChar c) := by
  have hrun {n : Nat} {cont : List UInt8} (hn : n < 0x100) (h : n < 0x80 ∨ 0xC0 ≤ n)
      (hcont : ∀ b ∈ cont, ¬ isBoundary b) :
      IsRun (UInt8.ofNat n :: cont) ∧ StartsCodePoint (UInt8.ofNat n :: cont) := by
    refine ⟨⟨_, cont, rfl, hcont⟩, fun b hb => ?_⟩
    rw [List.head?_cons, Option.mem_some_iff] at hb
    exact hb ▸ isBoundary_ofNat hn h
  rcases utf8EncodeChar_cases c with ⟨h, heq⟩ | ⟨h, h', heq⟩ | ⟨h, h', heq⟩ | ⟨h, h', heq⟩
  · rw [heq]
    exact hrun (by omega) (by omega) nofun
  · rw [heq]
    exact hrun (by omega) (by omega) (by simp [not_isBoundary_trailing])
  · rw [heq]
    exact hrun (by omega) (by omega) (by simp [not_isBoundary_trailing])
  · rw [heq]
    exact hrun (by omega) (by omega) (by simp [not_isBoundary_trailing])

theorem runs_encode (cs : List Char) : runs (encode cs) = cs.map String.utf8EncodeChar := by
  have hrun : ∀ r ∈ cs.map String.utf8EncodeChar, IsRun r ∧ StartsCodePoint r := by
    intro r hr
    obtain ⟨c, -, rfl⟩ := List.mem_map.1 hr
    exact utf8EncodeChar_isRun c
  rw [encode, List.flatMap_def]
  exact runs_flatten (fun r hr => (hrun r hr).1) fun r hr => (hrun r (List.mem_of_mem_tail hr)).2

theorem startsCodePoint_encode (cs : List Char) : StartsCodePoint (encode cs) := by
  cases cs with
  | nil => exact nofun
  | cons c cs =>
    obtain ⟨⟨b, cont, hrun, -⟩, hstarts⟩ := utf8EncodeChar_isRun c
    rw [hrun] at hstarts
    rw [encode, List.flatMap_cons, hrun]
    exact hstarts

theorem length_encode (cs : List Char) : length (encode cs).toArray = cs.length := by
  have hruns := length_runs (encode cs)
  rw [runs_encode, List.length_map, if_pos (startsCodePoint_encode cs), Nat.add_zero] at hruns
  rw [hruns, length, List.countP_toArray]

/-! ### Reading back -/

theorem opening_ofNat {n : Nat} (hn : n < 0x100) :
    opening (UInt8.ofNat n) =
      if n < 0x80 then .scalar (Char.ofNat n)
      else if n < 0xC2 then .gap
      else if n < 0xE0 then .sequence ⟨1, 0x80, 0xBF, n - 0xC0⟩
      else if n < 0xF0 then
        .sequence ⟨2, if n = 0xE0 then 0xA0 else 0x80, if n = 0xED then 0x9F else 0xBF, n - 0xE0⟩
      else if n < 0xF5 then
        .sequence ⟨3, if n = 0xF0 then 0x90 else 0x80, if n = 0xF4 then 0x8F else 0xBF, n - 0xF0⟩
      else .gap := by
  have hvalue : (UInt8.ofNat n).toNat = n := by rw [UInt8.toNat_ofNat', Nat.mod_eq_of_lt hn]
  simp only [opening, UInt8.lt_iff_toNat_lt, ← UInt8.toNat_inj, hvalue]
  rfl

theorem scan_of_scalar {b : UInt8} {c : Char} (h : opening b = .scalar c) (rest : List UInt8) :
    scan none (b :: rest) = some c :: scan none rest := by
  rw [scan, h]

theorem scan_of_sequence {b : UInt8} {p : Pending} (h : opening b = .sequence p)
    (rest : List UInt8) : scan none (b :: rest) = scan (some p) rest := by
  rw [scan, h]

/-- The byte with the low six bits of `x` lies between these. -/
def Admits (low high : UInt8) (x : Nat) : Prop :=
  low.toNat ≤ x % 0x40 + 0x80 ∧ x % 0x40 + 0x80 ≤ high.toNat

theorem admits_any (x : Nat) : Admits 0x80 0xBF x := by
  change 0x80 ≤ x % 0x40 + 0x80 ∧ x % 0x40 + 0x80 ≤ 0xBF
  omega

section Trailing

variable {low high : UInt8} {missing bits x : Nat}

theorem accepts_trailing (h : Admits low high x) :
    Pending.accepts ⟨missing, low, high, bits⟩ (trailing x) := by
  rw [Admits, ← toNat_trailing] at h
  simpa only [Pending.accepts, Bool.and_eq_true, decide_eq_true_eq, UInt8.le_iff_toNat_le] using h

/-- The last byte of a sequence. -/
theorem scan_last (h : Admits low high x) (rest : List UInt8) :
    scan (some ⟨1, low, high, bits⟩) (trailing x :: rest) =
      some (Char.ofNat (bits * 0x40 + x % 0x40)) :: scan none rest := by
  rw [scan, if_pos (accepts_trailing h), if_pos (Nat.le_refl 1), Pending.extend, toNat_trailing,
    Nat.add_sub_cancel]

/-- A byte of a sequence of which more are missing. -/
theorem scan_more (h : Admits low high x) (rest : List UInt8) :
    scan (some ⟨missing + 2, low, high, bits⟩) (trailing x :: rest) =
      scan (some ⟨missing + 1, 0x80, 0xBF, bits * 0x40 + x % 0x40⟩) rest := by
  rw [scan, if_pos (accepts_trailing h), if_neg (by simp), Pending.extend, toNat_trailing,
    Nat.add_sub_cancel]
  rfl

end Trailing

/-- The second byte after `E0` is large enough because the form is not overlong, and the one after `ED`
small enough because the scalar is no surrogate. -/
theorem opening_three {v : Nat} (h : 0x800 ≤ v) (hlt : v < 0x10000) (hscalar : v < 0xD800 ∨ 0xDFFF < v) :
    ∃ low high, opening (UInt8.ofNat (v / 0x1000 + 0xE0)) = .sequence ⟨2, low, high, v / 0x1000⟩ ∧
      Admits low high (v / 0x40) := by
  refine ⟨if v / 0x1000 = 0 then 0xA0 else 0x80, if v / 0x1000 = 0xD then 0x9F else 0xBF, ?_, ?_⟩
  · rw [opening_ofNat (by omega), if_neg (by omega), if_neg (by omega), if_neg (by omega),
      if_pos (by omega), Nat.add_sub_cancel]
    simp only [Nat.add_eq_right, Nat.reduceEqDiff]
  · have hlow : (if v / 0x1000 = 0 then 0xA0 else 0x80 : UInt8).toNat =
        if v / 0x1000 = 0 then 0xA0 else 0x80 := by split <;> rfl
    have hhigh : (if v / 0x1000 = 0xD then 0x9F else 0xBF : UInt8).toNat =
        if v / 0x1000 = 0xD then 0x9F else 0xBF := by split <;> rfl
    rw [Admits, hlow, hhigh]
    constructor <;> split <;> omega

/-- The second byte after `F0` is large enough because the form is not overlong, and the one after `F4`
small enough because there are no larger scalars. -/
theorem opening_four {v : Nat} (h : 0x10000 ≤ v) (hlt : v < 0x110000) :
    ∃ low high, opening (UInt8.ofNat (v / 0x40000 + 0xF0)) = .sequence ⟨3, low, high, v / 0x40000⟩ ∧
      Admits low high (v / 0x1000) := by
  refine ⟨if v / 0x40000 = 0 then 0x90 else 0x80, if v / 0x40000 = 4 then 0x8F else 0xBF, ?_, ?_⟩
  · rw [opening_ofNat (by omega), if_neg (by omega), if_neg (by omega), if_neg (by omega),
      if_neg (by omega), if_pos (by omega), Nat.add_sub_cancel]
    simp only [Nat.add_eq_right, Nat.reduceEqDiff]
  · have hlow : (if v / 0x40000 = 0 then 0x90 else 0x80 : UInt8).toNat =
        if v / 0x40000 = 0 then 0x90 else 0x80 := by split <;> rfl
    have hhigh : (if v / 0x40000 = 4 then 0x8F else 0xBF : UInt8).toNat =
        if v / 0x40000 = 4 then 0x8F else 0xBF := by split <;> rfl
    rw [Admits, hlow, hhigh]
    constructor <;> split <;> omega

theorem scan_utf8EncodeChar (c : Char) (rest : List UInt8) :
    scan none (String.utf8EncodeChar c ++ rest) = some c :: scan none rest := by
  rcases utf8EncodeChar_cases c with ⟨h, heq⟩ | ⟨h, hlt, heq⟩ | ⟨h, hlt, heq⟩ | ⟨h, hlt, heq⟩
  · have hopening : opening (UInt8.ofNat c.toNat) = .scalar c := by
      rw [opening_ofNat (by omega), if_pos h, Char.ofNat_toNat]
    rw [heq, List.singleton_append, scan_of_scalar hopening]
  · have hopening : opening (UInt8.ofNat (c.toNat / 0x40 + 0xC0)) =
        .sequence ⟨1, 0x80, 0xBF, c.toNat / 0x40⟩ := by
      rw [opening_ofNat (by omega), if_neg (by omega), if_neg (by omega), if_pos (by omega),
        Nat.add_sub_cancel]
    simp only [heq, List.cons_append, List.nil_append]
    rw [scan_of_sequence hopening, scan_last (admits_any _), Nat.div_add_mod', Char.ofNat_toNat]
  · have hscalar := toNat_scalar c
    obtain ⟨low, high, hopening, hadmits⟩ := opening_three h hlt (by omega)
    have hvalue : (c.toNat / 0x1000 * 0x40 + c.toNat / 0x40 % 0x40) * 0x40 + c.toNat % 0x40 =
      c.toNat := by omega
    simp only [heq, List.cons_append, List.nil_append]
    rw [scan_of_sequence hopening, scan_more hadmits, scan_last (admits_any _), hvalue,
      Char.ofNat_toNat]
  · obtain ⟨low, high, hopening, hadmits⟩ := opening_four h hlt
    have hvalue : ((c.toNat / 0x40000 * 0x40 + c.toNat / 0x1000 % 0x40) * 0x40 +
      c.toNat / 0x40 % 0x40) * 0x40 + c.toNat % 0x40 = c.toNat := by omega
    simp only [heq, List.cons_append, List.nil_append]
    rw [scan_of_sequence hopening, scan_more hadmits, scan_more (admits_any _),
      scan_last (admits_any _), hvalue, Char.ofNat_toNat]

/-- The decoder finds every encoded scalar and no gap. -/
theorem scan_encode (cs : List Char) : scan none (encode cs) = cs.map some := by
  induction cs with
  | nil => rfl
  | cons c cs ih => rw [encode, List.flatMap_cons, scan_utf8EncodeChar, ← encode, ih, List.map_cons]

theorem decode?_encode (cs : List Char) : decode? (encode cs) = some cs := by
  rw [decode?, scan_encode]
  induction cs with
  | nil => rfl
  | cons c cs ih => rw [List.map_cons, List.mapM_cons, ih]; rfl

theorem decodeLossy_encode (cs : List Char) : decodeLossy (encode cs) = cs := by
  rw [decodeLossy, scan_encode, List.map_map]
  exact List.map_id cs

/-! ### Slices -/

variable {start stop step : Int64}

theorem exists_substring_encode (cs : List Char) (h : Sliceable start stop step) :
    ∃ m, Takes cs.length start.toInt stop.toInt step.toInt m ∧
      substring (encode cs).toArray start stop step =
        .ok (encode (pick cs start.toInt step.toInt m)).toArray := by
  obtain ⟨m, htakes, hsubstring⟩ := exists_substring (encode cs).toArray h
  rw [length_encode] at htakes
  refine ⟨m, htakes, ?_⟩
  rw [hsubstring, runs_encode, pick_map, ← List.flatMap_def, encode]

/-- What the command prints for a slice of well-formed text. -/
theorem textSubstr_of_substring {cs out : List Char} {given : Option Int64}
    (hstop : given.getD (Int64.ofNat cs.length) = stop)
    (h : substring (encode cs).toArray start stop step = .ok (encode out).toArray) :
    Cli.textSubstr (String.ofList cs) start given step =
      Cli.print true (Cli.textReport "substr" (String.ofList cs) (some (.ok (String.ofList out)))) := by
  simp only [Cli.textSubstr, bytes, String.toList_ofList, length_encode, hstop, h,
    decodeLossy_encode]

/-- Slicing commutes with the encoding. What is selected is again well-formed, so the command line prints
just the scalars of the slice, whether the stop is given or left at the end of the text. -/
theorem substring_encode (cs : List Char) :
    length (encode cs).toArray = cs.length ∧
    ∀ start stop step : Int64, Sliceable start stop step →
      ∃ m, Takes cs.length start.toInt stop.toInt step.toInt m ∧
        substring (encode cs).toArray start stop step =
          .ok (encode (pick cs start.toInt step.toInt m)).toArray ∧
        decode? (encode (pick cs start.toInt step.toInt m)) =
          some (pick cs start.toInt step.toInt m) ∧
        ∀ given : Option Int64, given.getD (Int64.ofNat cs.length) = stop →
          Cli.textSubstr (String.ofList cs) start given step =
            Cli.print true (Cli.textReport "substr" (String.ofList cs)
              (some (.ok (String.ofList (pick cs start.toInt step.toInt m))))) := by
  refine ⟨length_encode cs, fun start stop step h => ?_⟩
  obtain ⟨m, htakes, hsubstring⟩ := exists_substring_encode cs h
  exact ⟨m, htakes, hsubstring, decode?_encode _, fun given hstop =>
    textSubstr_of_substring hstop hsubstring⟩

/-- Scalars of one to four bytes, counted down in steps of two. -/
theorem substring_encode_backwards :
    Sliceable 3 (-1) (-2) ∧
      substring (encode ['a', 'é', '€', '𝄞']).toArray 3 (-1) (-2) =
        .ok (encode ['𝄞', 'é']).toArray ∧
      Cli.textSubstr "aé€𝄞" 3 (some (-1)) (-2) =
        Cli.print true (Cli.textReport "substr" "aé€𝄞" (some (.ok "𝄞é"))) := by
  have hsliceable : Sliceable 3 (-1) (-2) := ⟨by decide, by decide, by decide, by decide⟩
  obtain ⟨m, htakes, hsubstring, -, hprinted⟩ :=
    (substring_encode ['a', 'é', '€', '𝄞']).2 3 (-1) (-2) hsliceable
  have htwo : Takes 4 3 (-1) (-2) 2 := by
    unfold Takes Within Precedes
    decide
  obtain rfl := htakes.unique htwo
  exact ⟨hsliceable, hsubstring, hprinted (some (-1)) rfl⟩

end ObjectRuntime.Text
