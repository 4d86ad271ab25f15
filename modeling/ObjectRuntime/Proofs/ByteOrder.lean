import Mathlib.Data.String.Basic
import ObjectRuntime.Proofs.Encoding

/-! The order of encoded text. The first byte of an encoded scalar grows with the number of its bytes, and
scalars of one size are compared digit by digit; so encoded scalars stand in the order of the scalars, whatever
follows them, and text stands in the order of its bytes. -/

namespace ObjectRuntime.Text

/-- Numbers are compared by the last digit once the digits before it agree. -/
theorem digit_lt {x y : Nat} (h : x < y) :
    x / 0x40 < y / 0x40 ∨ x / 0x40 = y / 0x40 ∧ x % 0x40 < y % 0x40 := by
  omega

theorem utf8EncodeChar_append_lt {c d : Char} (h : c < d) (xs ys : List UInt8) :
    String.utf8EncodeChar c ++ xs < String.utf8EncodeChar d ++ ys := by
  have hlt : c.toNat < d.toNat := h
  rcases utf8EncodeChar_cases c with ⟨_, heq⟩ | ⟨_, _, heq⟩ | ⟨_, _, heq⟩ | ⟨_, _, heq⟩ <;>
    rcases utf8EncodeChar_cases d with ⟨_, heq'⟩ | ⟨_, _, heq'⟩ | ⟨_, _, heq'⟩ | ⟨_, _, heq'⟩ <;>
    simp only [heq, heq', List.cons_append, List.nil_append, List.cons_lt_cons_iff,
      UInt8.lt_iff_toNat_lt, ← UInt8.toNat_inj, UInt8.toNat_ofNat', toNat_trailing]
  -- four bytes against four are too many digits to be compared all at once
  case inr.inr.inr.inr.inr.inr =>
    rcases digit_lt hlt with hlt | ⟨heq, hlt⟩
    · rcases digit_lt hlt with hlt | ⟨heq, hlt⟩
      · rcases digit_lt hlt with hlt | ⟨heq, hlt⟩ <;> omega
      · omega
    · omega
  all_goals omega

theorem encode_lt {cs ds : List Char} (h : cs < ds) : encode cs < encode ds := by
  induction h with
  | @nil d ds =>
    obtain ⟨⟨b, cont, hrun, -⟩, -⟩ := utf8EncodeChar_isRun d
    rw [encode, encode, List.flatMap_cons, hrun]
    exact List.nil_lt_cons b _
  | cons _ ih =>
    rw [encode, List.flatMap_cons, encode, List.flatMap_cons]
    exact List.append_left_lt ih
  | rel h =>
    rw [encode, List.flatMap_cons, encode, List.flatMap_cons]
    exact utf8EncodeChar_append_lt h _ _

theorem encode_injective {cs ds : List Char} (h : encode cs = encode ds) : cs = ds := by
  have hdecode := congrArg decode? h
  rwa [decode?_encode, decode?_encode, Option.some.injEq] at hdecode

theorem bytes_inj {s t : String} : bytes s = bytes t ↔ s = t := by
  refine ⟨?_, ?_⟩
  · intro h
    exact String.toList_injective (encode_injective h)
  · rintro rfl
    rfl

/-- The order of code points is the order of the bytes. -/
theorem bytes_lt_iff {s t : String} : bytes s < bytes t ↔ s < t := by
  have hmono {s t : String} (h : s < t) : bytes s < bytes t := encode_lt (String.lt_iff.1 h)
  refine ⟨fun h => ?_, hmono⟩
  rcases lt_trichotomy s t with hlt | rfl | hgt
  · exact hlt
  · exact absurd h (List.lt_irrefl _)
  · exact absurd (hmono hgt) (List.lt_asymm h)

end ObjectRuntime.Text
