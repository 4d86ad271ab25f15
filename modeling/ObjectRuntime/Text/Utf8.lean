import ObjectRuntime.Text.CodePoint

/-! UTF-8. The decoder is a machine with one byte of input at a time: it is idle, or inside a
sequence of which some bytes are still missing. Bytes that fit no sequence come out as gaps; a
sequence that breaks off is one gap, and the byte that broke it is read afresh. Strict reading wants
no gaps, lenient reading writes U+FFFD for each. -/

namespace ObjectRuntime.Text

/-- A sequence begun: bytes still missing, the range the next one must lie in, and the bits so far. -/
structure Pending where
  missing : Nat
  low : UInt8
  high : UInt8
  bits : Nat
deriving DecidableEq, Repr

inductive Opening where
  | scalar (c : Char)
  | sequence (p : Pending)
  | gap
deriving DecidableEq, Repr

/-- What a byte means at the start of a code point. The ranges after `E0`, `ED`, `F0` and `F4` leave
out overlong forms, surrogates and what lies above U+10FFFF. -/
def opening (b : UInt8) : Opening :=
  if b < 0x80 then .scalar (Char.ofNat b.toNat)
  else if b < 0xC2 then .gap
  else if b < 0xE0 then .sequence ⟨1, 0x80, 0xBF, b.toNat - 0xC0⟩
  else if b < 0xF0 then
    .sequence ⟨2, if b = 0xE0 then 0xA0 else 0x80, if b = 0xED then 0x9F else 0xBF, b.toNat - 0xE0⟩
  else if b < 0xF5 then
    .sequence ⟨3, if b = 0xF0 then 0x90 else 0x80, if b = 0xF4 then 0x8F else 0xBF, b.toNat - 0xF0⟩
  else .gap

def Pending.accepts (p : Pending) (b : UInt8) : Bool := p.low ≤ b && b ≤ p.high

/-- The sequence after one more byte. -/
def Pending.extend (p : Pending) (b : UInt8) : Pending :=
  ⟨p.missing - 1, 0x80, 0xBF, p.bits * 64 + (b.toNat - 0x80)⟩

/-- The scalars of a byte string in order, `none` for each gap. -/
def scan : Option Pending → List UInt8 → List (Option Char)
  | none, [] => []
  | some _, [] => [none]
  | none, b :: bs =>
    match opening b with
    | .scalar c => some c :: scan none bs
    | .sequence p => scan (some p) bs
    | .gap => none :: scan none bs
  | some p, b :: bs =>
    if p.accepts b then
      if p.missing ≤ 1 then some (Char.ofNat (p.extend b).bits) :: scan none bs
      else scan (some (p.extend b)) bs
    else none :: match opening b with
      | .scalar c => some c :: scan none bs
      | .sequence q => scan (some q) bs
      | .gap => none :: scan none bs

def encode (cs : List Char) : List UInt8 := cs.flatMap String.utf8EncodeChar

/-- The scalars of well-formed UTF-8. -/
def decode? (bs : List UInt8) : Option (List Char) := (scan none bs).mapM id

/-- The number of bytes before the first gap. -/
def validWidth (bs : List UInt8) : Nat :=
  (encode (((scan none bs).takeWhile Option.isSome).filterMap id)).length

/-- Every gap becomes the replacement character. -/
def decodeLossy (bs : List UInt8) : List Char := (scan none bs).map (·.getD '\uFFFD')

def bytes (s : String) : List UInt8 := encode s.toList

end ObjectRuntime.Text
