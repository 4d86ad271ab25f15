import ObjectRuntime.Json.Reader
import ObjectRuntime.Proofs.Encoding

/-! Numbers and strings as the writer leaves them. A number is followed by something that cannot belong to
it, so the lexer takes all of its digits and no more; a string is made of pieces, each of which the lexer
passes over whole and takes for the bytes that it spells. -/

namespace ObjectRuntime.Json

open Text (encode)

/-! ### Digits -/

/-- The decimal digits of `n`, the first one first. -/
def decimals (n : Nat) : List Nat := (Nat.toDigits 10 n).map fun c => c.toNat - '0'.toNat

/-- Nothing of a number goes on here. -/
def EndsNumber (rest : List UInt8) : Prop :=
  ∀ b ∈ rest.head?, digitOf? b = none ∧ b ≠ 0x2E ∧ b ≠ 0x65 ∧ b ≠ 0x45

theorem utf8EncodeChar_of_lt {c : Char} (h : c.toNat < 0x80) :
    String.utf8EncodeChar c = [UInt8.ofNat c.toNat] := by
  rcases Text.utf8EncodeChar_cases c with ⟨-, heq⟩ | ⟨h', -⟩ | ⟨h', -⟩ | ⟨h', -⟩
  · exact heq
  all_goals omega

theorem encode_of_isDigit {cs : List Char} (h : ∀ c ∈ cs, c.isDigit) :
    encode cs = cs.map fun c => UInt8.ofNat c.toNat := by
  induction cs with
  | nil => rfl
  | cons c cs ih =>
    have hhigh : c.toNat ≤ 0x39 := (Char.isDigit_iff_toNat.1 (h c List.mem_cons_self)).2
    rw [encode, List.flatMap_cons, utf8EncodeChar_of_lt (by omega), ← encode,
      ih fun d hd => h d (List.mem_cons_of_mem c hd)]
    rfl

theorem digitOf?_ofNat {n : Nat} (hlow : 0x30 ≤ n) (hhigh : n ≤ 0x39) :
    digitOf? (UInt8.ofNat n) = some (n - 0x30) := by
  have hvalue : (UInt8.ofNat n).toNat = n := by rw [UInt8.toNat_ofNat', Nat.mod_eq_of_lt (by omega)]
  have hrange : 0x30 ≤ UInt8.ofNat n ∧ UInt8.ofNat n ≤ 0x39 := by
    rw [UInt8.le_iff_toNat_le, UInt8.le_iff_toNat_le, hvalue]
    exact ⟨hlow, hhigh⟩
  rw [digitOf?, if_pos hrange, hvalue]

theorem digits_nil {rest : List UInt8} (h : EndsNumber rest) : digits rest = [] := by
  cases rest with
  | nil => rfl
  | cons b bs =>
    have hb := (h b rfl).1
    simp [digits, hb]

theorem digits_encode {cs : List Char} {rest : List UInt8} (hcs : ∀ c ∈ cs, c.isDigit)
    (hrest : EndsNumber rest) :
    digits (encode cs ++ rest) = cs.map fun c => c.toNat - '0'.toNat := by
  rw [encode_of_isDigit hcs]
  induction cs with
  | nil => exact digits_nil hrest
  | cons c cs ih =>
    have hrange : 0x30 ≤ c.toNat ∧ c.toNat ≤ 0x39 := Char.isDigit_iff_toNat.1 (hcs c List.mem_cons_self)
    have hdigit := digitOf?_ofNat hrange.1 hrange.2
    have ih := ih fun d hd => hcs d (List.mem_cons_of_mem c hd)
    simp only [digits, List.map_cons, List.cons_append, List.takeWhile_cons, hdigit, Option.isSome_some,
      if_true, List.filterMap_cons_some hdigit] at ih ⊢
    rw [ih]
    rfl

/-- The bytes of a natural number. -/
def numeral (n : Nat) : List UInt8 := encode (Nat.toDigits 10 n)

theorem isDigit_decimal (n : Nat) : ∀ c ∈ Nat.toDigits 10 n, c.isDigit :=
  fun _ hc => Nat.isDigit_of_mem_toDigits (by decide) (by decide) hc

theorem digits_numeral (n : Nat) {rest : List UInt8} (hrest : EndsNumber rest) :
    digits (numeral n ++ rest) = decimals n :=
  digits_encode (isDigit_decimal n) hrest

theorem length_numeral (n : Nat) : (numeral n).length = (decimals n).length := by
  rw [numeral, encode_of_isDigit (isDigit_decimal n), decimals, List.length_map, List.length_map]

theorem decimals_of_lt {n : Nat} (h : n < 10) : decimals n = [n] := by
  rw [decimals, Nat.toDigits_of_lt_base h, List.map_singleton]
  exact congrArg (fun d => [d]) (Nat.toNat_digitChar_sub_48_of_lt_ten h)

theorem decimals_of_le {n : Nat} (h : 10 ≤ n) : decimals n = decimals (n / 10) ++ [n % 10] := by
  rw [decimals, Nat.toDigits_of_base_le (by decide) h, List.map_append, List.map_singleton, decimals]
  have hlast : (Nat.digitChar (n % 10)).toNat - '0'.toNat = n % 10 :=
    Nat.toNat_digitChar_sub_48_of_lt_ten (Nat.mod_lt n (by decide))
  rw [hlast]

theorem decimals_ne_nil (n : Nat) : decimals n ≠ [] := by
  simp [decimals]

/-- No digits but those of zero start with a zero. -/
theorem head?_decimals {n : Nat} (h : 0 < n) : (decimals n).head? ≠ some 0 := by
  induction n using Nat.strongRecOn with
  | ind n ih =>
    rcases Nat.lt_or_ge n 10 with hlt | hle
    · rw [decimals_of_lt hlt]
      simpa using h.ne'
    · rw [decimals_of_le hle, List.head?_append_of_ne_nil _ (decimals_ne_nil _)]
      exact ih (n / 10) (by omega) (by omega)

theorem foldl_decimals (n : Nat) : (decimals n).foldl (fun m d => 10 * m + d) 0 = n := by
  rw [decimals, List.foldl_map]
  exact Nat.ofDigitChars_ten_toDigits

theorem le_foldl_decimals (m : Nat) (ds : List Nat) : m ≤ ds.foldl (fun m d => 10 * m + d) m := by
  induction ds generalizing m with
  | nil => exact Nat.le_refl m
  | cons d ds ih => exact Nat.le_trans (by omega) (ih (10 * m + d))

/-- Digits whose value is below the bound are all taken. -/
theorem accumulate_of_lt {bound m : Nat} {ds : List Nat}
    (h : ds.foldl (fun m d => 10 * m + d) m < bound) :
    Lexeme.accumulate bound m ds = (ds.foldl (fun m d => 10 * m + d) m, []) := by
  induction ds generalizing m with
  | nil => rfl
  | cons d ds ih =>
    have hlt : 10 * m + d < bound := Nat.lt_of_le_of_lt (le_foldl_decimals _ ds) h
    rw [Lexeme.accumulate, if_pos hlt]
    exact ih h

theorem accumulate_decimals {bound n : Nat} (h : n < bound) :
    Lexeme.accumulate bound 0 (decimals n) = (n, []) := by
  have hfold := foldl_decimals n
  rw [accumulate_of_lt (hfold.symm ▸ h), hfold]

/-! ### Numbers -/

section Numbers

variable {offset n : Nat} {rest : List UInt8}

theorem drop_append (offset : Nat) (bs rest : List UInt8) :
    Input.drop ⟨offset, bs ++ rest⟩ bs.length = ⟨offset + bs.length, rest⟩ := by
  rw [Input.drop, List.drop_left]

theorem lexWhole_numeral (offset n : Nat) (hrest : EndsNumber rest) :
    lexWhole ⟨offset, numeral n ++ rest⟩ = .ok (decimals n, ⟨offset + (numeral n).length, rest⟩) := by
  have hdigits : someDigits ⟨offset, numeral n ++ rest⟩ =
      .ok (decimals n, ⟨offset + (numeral n).length, rest⟩) := by
    simp only [someDigits, digits_numeral n hrest, List.isEmpty_eq_false_iff.2 (decimals_ne_nil n),
      Bool.false_eq_true, if_false, ← length_numeral, drop_append]
  have hzero : ¬ ((decimals n).head? = some 0 ∧ 1 < (decimals n).length) := by
    rintro ⟨hhead, hlength⟩
    rcases Nat.eq_zero_or_pos n with rfl | hpos
    · simp [decimals_of_lt] at hlength
    · exact head?_decimals hpos hhead
  rw [lexWhole, hdigits]
  exact if_neg hzero

theorem lexFraction_of_ends (hrest : EndsNumber rest) :
    lexFraction ⟨offset, rest⟩ = .ok ([], ⟨offset, rest⟩) := by
  unfold lexFraction
  split
  · rename_i heq
    exact absurd rfl (hrest 0x2E (by rw [show rest = _ from heq]; rfl)).2.1
  · rfl

theorem lexExponent_of_ends (hrest : EndsNumber rest) :
    lexExponent ⟨offset, rest⟩ = .ok (none, ⟨offset, rest⟩) := by
  cases rest with
  | nil => rfl
  | cons b bs =>
    obtain ⟨-, -, hlower, hupper⟩ := hrest b rfl
    have hletter : ¬ (b = 0x65 ∨ b = 0x45) := by
      rintro (h | h)
      · exact hlower h
      · exact hupper h
    exact if_neg hletter

theorem exists_numeral_eq_cons (n : Nat) :
    ∃ b bs, numeral n = b :: bs ∧ (digitOf? b).isSome ∧ b ≠ 0x2D := by
  obtain ⟨c, cs, heq⟩ := List.exists_cons_of_ne_nil (Nat.toDigits_ne_nil (n := n) (b := 10))
  have hrange : 0x30 ≤ c.toNat ∧ c.toNat ≤ 0x39 :=
    Char.isDigit_iff_toNat.1 (isDigit_decimal n c (heq ▸ List.mem_cons_self))
  have hdigit := digitOf?_ofNat hrange.1 hrange.2
  refine ⟨UInt8.ofNat c.toNat, cs.map fun c => UInt8.ofNat c.toNat, ?_, by rw [hdigit]; rfl, ?_⟩
  · rw [numeral, encode_of_isDigit (isDigit_decimal n), heq, List.map_cons]
  · intro hminus
    rw [hminus] at hdigit
    cases hdigit

/-- The number that is written as `n`. -/
def lexemeOf (n : Int) : Lexeme := ⟨n < 0, decimals n.natAbs, [], none⟩

theorem encode_integer (n : Int) :
    encode (integer n) = if n < 0 then 0x2D :: numeral n.natAbs else numeral n.natAbs := by
  unfold integer
  split <;> rfl

theorem lexNumber_eq_ok {i j k l : Input} {whole fraction : List Nat} {exponent : Option (Bool × List Nat)}
    (hwhole : lexWhole (if i.rest.head? = some 0x2D then i.drop 1 else i) = .ok (whole, j))
    (hfraction : lexFraction j = .ok (fraction, k)) (hexponent : lexExponent k = .ok (exponent, l)) :
    lexNumber i = .ok (⟨i.rest.head? = some 0x2D, whole, fraction, exponent⟩, l) := by
  simp only [lexNumber, hwhole, hfraction, hexponent, bind, Except.bind]
  rfl

theorem lexNumber_integer (offset : Nat) (n : Int) (hrest : EndsNumber rest) : ∃ stop,
    lexNumber ⟨offset, encode (integer n) ++ rest⟩ = .ok (lexemeOf n, ⟨stop, rest⟩) := by
  rw [encode_integer]
  by_cases hneg : n < 0
  · rw [if_pos hneg]
    have hlexeme := lexNumber_eq_ok (i := ⟨offset, 0x2D :: numeral n.natAbs ++ rest⟩)
      (lexWhole_numeral (offset + 1) n.natAbs hrest) (lexFraction_of_ends hrest) (lexExponent_of_ends hrest)
    refine ⟨offset + 1 + (numeral n.natAbs).length, hlexeme.trans ?_⟩
    simp [lexemeOf, hneg]
  · obtain ⟨b, bs, heq, -, hminus⟩ := exists_numeral_eq_cons n.natAbs
    have hhead : (numeral n.natAbs ++ rest).head? ≠ some 0x2D := by
      simpa [heq] using hminus
    rw [if_neg hneg]
    have hwhole := lexWhole_numeral offset n.natAbs hrest
    have hlexeme := lexNumber_eq_ok (i := ⟨offset, numeral n.natAbs ++ rest⟩) (by rwa [if_neg hhead])
      (lexFraction_of_ends hrest) (lexExponent_of_ends hrest)
    refine ⟨offset + (numeral n.natAbs).length, hlexeme.trans ?_⟩
    simp only [lexemeOf, hneg, hhead]

theorem significand_decimals {negative : Bool} (h : n < UInt64.size) :
    Lexeme.significand ⟨negative, decimals n, [], none⟩ = (n, 0) := by
  simp [Lexeme.significand, accumulate_decimals h, Lexeme.accumulate]

theorem value?_lexemeOf {i : Int} {v : Number} (hsize : i.natAbs < UInt64.size)
    (h : (lexemeOf i).integer? i.natAbs = some v) : (lexemeOf i).value? = some v := by
  have hsignificand : (lexemeOf i).significand = (i.natAbs, 0) := significand_decimals hsize
  have hinteger : (lexemeOf i).isInteger = true := rfl
  have hexponent : (lexemeOf i).exponent = none := rfl
  simp only [Lexeme.value?, hsignificand, hexponent, hinteger, h, beq_self_eq_true, Bool.and_self,
    if_true]

theorem value?_natural (h : n < UInt64.size) : (lexemeOf n).value? = some (.unsigned n.toUInt64) := by
  apply value?_lexemeOf (by rwa [Int.natAbs_natCast])
  have hnot : ¬ (n : Int) < 0 := by omega
  simp [Lexeme.integer?, lexemeOf, hnot]

theorem value?_negative {i : Int} (hneg : i < 0) (hlow : -0x8000000000000000 ≤ i) :
    (lexemeOf i).value? = some (.negative (Int64.ofInt i)) := by
  have hsize : i.natAbs < UInt64.size := by
    rw [UInt64.size]
    omega
  apply value?_lexemeOf hsize
  have hrange : 0 < i.natAbs ∧ i.natAbs ≤ 0x8000000000000000 := by omega
  have habs : -(i.natAbs : Int) = i := by omega
  simp only [Lexeme.integer?, lexemeOf, hneg, decide_true, Bool.not_true, Bool.false_eq_true,
    if_false, hrange, and_self, if_true, habs]

end Numbers

/-! ### Strings -/

/-- Inside a string these bytes are passed over whole and taken for the bytes `spelled`. -/
def Passes (bs spelled : List UInt8) : Prop :=
  ∀ offset rest, passString offset (bs ++ rest) = passString (offset + bs.length) rest ∧
    takeBytes offset (bs ++ rest) = (takeBytes (offset + bs.length) rest).map (spelled ++ ·)

theorem passes_nil : Passes [] [] := by
  intro offset rest
  refine ⟨rfl, ?_⟩
  change takeBytes offset rest = (takeBytes offset rest).map id
  rw [Except.map_id]
  rfl

theorem Passes.append {bs bs' spelled spelled' : List UInt8} (h : Passes bs spelled)
    (h' : Passes bs' spelled') : Passes (bs ++ bs') (spelled ++ spelled') := by
  intro offset rest
  obtain ⟨hpass, htake⟩ := h offset (bs' ++ rest)
  obtain ⟨hpass', htake'⟩ := h' (offset + bs.length) rest
  rw [List.append_assoc, List.length_append, ← Nat.add_assoc]
  refine ⟨hpass.trans hpass', ?_⟩
  rw [htake, htake']
  cases takeBytes (offset + bs.length + bs'.length) rest with
  | error f => rfl
  | ok out => simp [Except.map]

theorem passes_plain {b : UInt8} (hquote : b ≠ 0x22) (hescape : b ≠ 0x5C) (hcontrol : ¬ b < 0x20) :
    Passes [b] [b] := by
  intro offset rest
  simp only [List.singleton_append, List.length_singleton]
  constructor
  · rw [passString, if_neg hescape, if_neg hcontrol]
    all_goals simp [hquote, hescape]
  · rw [takeBytes, if_neg hescape, if_neg hcontrol]
    · cases takeBytes (offset + 1) rest <;> rfl
    all_goals simp [hquote, hescape]

theorem passes_short {e b : UInt8} (h : shortEscape? e = some b) : Passes [0x5C, e] [b] := by
  have hunit : e ≠ 0x75 := by
    rintro rfl
    cases h
  intro offset rest
  simp only [List.cons_append, List.nil_append, List.length_cons, List.length_nil]
  constructor
  · rw [passString, h, Option.isSome_some, if_pos rfl]
    all_goals simp [hunit]
  · rw [takeBytes, h]
    · cases takeBytes (offset + 2) rest <;> rfl
    all_goals simp [hunit]

theorem passes_unit {a b c d : UInt8} {n : Nat} (h : hexUnit? [a, b, c, d] = some n) (hn : n < 0xD800) :
    Passes [0x5C, 0x75, a, b, c, d] (String.utf8EncodeChar (Char.ofNat n)) := by
  have hlow : ¬ isLowSurrogate n := by
    simp only [isLowSurrogate, Bool.and_eq_true, decide_eq_true_eq]
    omega
  have hhigh : ¬ isHighSurrogate n := by
    simp only [isHighSurrogate, Bool.and_eq_true, decide_eq_true_eq]
    omega
  intro offset rest
  simp only [List.cons_append, List.nil_append, List.length_cons, List.length_nil]
  constructor
  · rw [passString, h, Option.isSome_some, if_pos rfl]
  · rw [takeBytes, h]
    simp only [hlow, hhigh, Bool.false_eq_true, if_false]
    cases takeBytes (offset + 6) rest <;> rfl

/-- Bytes of a sequence of more than one byte are passed over one by one. -/
theorem passes_high {bs : List UInt8} (h : ∀ b ∈ bs, 0x80 ≤ b.toNat) : Passes bs bs := by
  induction bs with
  | nil => exact passes_nil
  | cons b bs ih =>
    have hb := h b List.mem_cons_self
    have hne {x : UInt8} (hx : x.toNat < 0x80) : b ≠ x := by
      rintro rfl
      omega
    have hcontrol : ¬ b < 0x20 := by
      rw [UInt8.lt_iff_toNat_lt]
      change ¬ b.toNat < 0x20
      omega
    exact (passes_plain (hne (by decide)) (hne (by decide)) hcontrol).append
      (ih fun c hc => h c (List.mem_cons_of_mem b hc))

theorem toNat_utf8EncodeChar_of_le {c : Char} (h : 0x80 ≤ c.toNat) :
    ∀ b ∈ String.utf8EncodeChar c, 0x80 ≤ b.toNat := by
  have hfirst {n m : Nat} (hn : n + m < 0x100) (hm : 0x80 ≤ m) : 0x80 ≤ (UInt8.ofNat (n + m)).toNat := by
    rw [UInt8.toNat_ofNat', Nat.mod_eq_of_lt hn]
    omega
  have hrest (x : Nat) : 0x80 ≤ (Text.trailing x).toNat := by
    rw [Text.toNat_trailing]
    omega
  rcases Text.utf8EncodeChar_cases c with ⟨h', -⟩ | ⟨-, h', heq⟩ | ⟨-, h', heq⟩ | ⟨-, h', heq⟩
  · omega
  all_goals
    rw [heq]
    simp only [List.forall_mem_cons, List.not_mem_nil, false_imp_iff, implies_true, and_true, hrest]
    exact hfirst (by omega) (by decide)

theorem passes_shown {c : Char} (hquote : c ≠ '"') (hescape : c ≠ '\\') (hcontrol : ¬ c.toNat < 0x20) :
    Passes (String.utf8EncodeChar c) (String.utf8EncodeChar c) := by
  rcases Nat.lt_or_ge c.toNat 0x80 with hlt | hle
  · have hvalue : (UInt8.ofNat c.toNat).toNat = c.toNat := by
      rw [UInt8.toNat_ofNat', Nat.mod_eq_of_lt (by omega)]
    have hne {d : Char} (h : c ≠ d) (hd : d.toNat < 0x80) : UInt8.ofNat c.toNat ≠ UInt8.ofNat d.toNat := by
      intro heq
      have hnat := congrArg UInt8.toNat heq
      rw [hvalue, UInt8.toNat_ofNat', Nat.mod_eq_of_lt (by omega)] at hnat
      exact h (Char.toNat_inj.1 hnat)
    rw [utf8EncodeChar_of_lt hlt]
    refine passes_plain (hne hquote (by decide)) (hne hescape (by decide)) ?_
    rw [UInt8.lt_iff_toNat_lt, hvalue]
    exact hcontrol
  · exact passes_high (toNat_utf8EncodeChar_of_le hle)

/-- The escape of a control character that has no short one. -/
theorem passes_control {c : Char} (h : c.toNat < 0x20) :
    Passes (encode ['\\', 'u', '0', '0', Text.hexDigit (c.toNat / 16), Text.hexDigit c.toNat])
      (String.utf8EncodeChar c) := by
  have hall : ∀ n < 0x20,
      encode ['\\', 'u', '0', '0', Text.hexDigit (n / 16), Text.hexDigit n] =
        [0x5C, 0x75, 0x30, 0x30, UInt8.ofNat (Text.hexDigit (n / 16)).toNat,
          UInt8.ofNat (Text.hexDigit n).toNat] ∧
      hexUnit? [0x30, 0x30, UInt8.ofNat (Text.hexDigit (n / 16)).toNat,
        UInt8.ofNat (Text.hexDigit n).toNat] = some n := by
    decide +kernel
  obtain ⟨hbytes, hunit⟩ := hall c.toNat h
  rw [hbytes]
  have hpasses := passes_unit hunit (by omega)
  rwa [Char.ofNat_toNat] at hpasses

/-- An escaped scalar is taken for the scalar. -/
theorem passes_escapeChar (c : Char) : Passes (encode (escapeChar c)) (String.utf8EncodeChar c) := by
  have hshort {e : UInt8} {n : Nat} (h : shortEscape? e = some (UInt8.ofNat n)) (hc : c.toNat = n)
      (hn : n < 0x80) : Passes [0x5C, e] (String.utf8EncodeChar c) := by
    rw [utf8EncodeChar_of_lt (hc ▸ hn), hc]
    exact passes_short h
  unfold escapeChar
  split_ifs with h h h h h h h h
  · exact hshort rfl (congrArg Char.toNat h) (by decide)
  · exact hshort rfl (congrArg Char.toNat h) (by decide)
  · exact hshort rfl h (by decide)
  · exact hshort rfl h (by decide)
  · exact hshort rfl h (by decide)
  · exact hshort rfl h (by decide)
  · exact hshort rfl h (by decide)
  · exact passes_control h
  · rw [encode, List.flatMap_singleton]
    exact passes_shown (by assumption) (by assumption) h

/-- What the writer puts between the quotes of a string is taken for the string. -/
theorem passes_escaped (cs : List Char) : Passes (encode (cs.flatMap escapeChar)) (encode cs) := by
  induction cs with
  | nil => exact passes_nil
  | cons c cs ih =>
    rw [List.flatMap_cons, encode, List.flatMap_append, encode, List.flatMap_cons]
    exact (passes_escapeChar c).append ih

theorem textOf_encode (s : String) (stop : Nat) : textOf stop (encode s.toList) = .ok s := by
  rw [textOf, Text.decode?_encode]
  exact congrArg Except.ok String.ofList_toList

theorem lexString_quote (s : String) (offset : Nat) (rest : List UInt8) : ∃ stop,
    lexString ⟨offset, encode (quote s) ++ rest⟩ = .ok (.ok s, ⟨stop, rest⟩) := by
  have hbytes : encode (quote s) ++ rest =
      0x22 :: (encode (s.toList.flatMap escapeChar) ++ 0x22 :: rest) := by
    simp only [encode, quote, List.flatMap_append, List.flatMap_cons, List.cons_append, List.append_assoc]
    rfl
  obtain ⟨hpass, htake⟩ := passes_escaped s.toList (offset + 1) (0x22 :: rest)
  -- the closing quote ends the string
  simp only [passString, takeBytes, Except.map, List.append_nil] at hpass htake
  refine ⟨offset + 1 + (encode (s.toList.flatMap escapeChar)).length + 1, ?_⟩
  rw [hbytes]
  simp only [lexString, List.drop_succ_cons, List.drop_zero, hpass, htake, Except.bind, textOf_encode]

end ObjectRuntime.Json
