/-! Code points over raw bytes. Text is kept as the bytes of its UTF-8 encoding and is indexed by
code point, so everything here rests on one test: a byte of the form `10xxxxxx` continues a code
point, every other byte starts one. Bytes that are no UTF-8 at all are cut by the same rule. A
cursor carries the proof that it lies within the text, so no move can read past either end. -/

namespace ObjectRuntime

abbrev Bytes := Array UInt8

namespace Text

def isBoundary (b : UInt8) : Bool := b &&& 0xC0 != 0x80

/-- The number of code points: the bytes that start one. -/
def length (bs : Bytes) : Nat := bs.countP isBoundary

/-- A byte offset into `bs`, the end included. -/
structure Cursor (bs : Bytes) where
  offset : Nat
  le_size : offset ≤ bs.size
deriving DecidableEq

variable {bs : Bytes}

def Cursor.first (bs : Bytes) : Cursor bs := ⟨0, Nat.zero_le _⟩

/-- The first boundary at or after `i`, or the end. -/
def boundaryFrom (bs : Bytes) (i : Nat) (hi : i ≤ bs.size) : Cursor bs :=
  if h : i < bs.size then
    if isBoundary bs[i] then ⟨i, hi⟩ else boundaryFrom bs (i + 1) h
  else ⟨i, hi⟩
termination_by bs.size - i

/-- The last boundary before `i`, or the start. -/
def boundaryBefore (bs : Bytes) : (i : Nat) → i ≤ bs.size → Cursor bs
  | 0, h => ⟨0, h⟩
  | i + 1, h =>
    if isBoundary bs[i] then ⟨i, Nat.le_of_succ_le h⟩
    else boundaryBefore bs i (Nat.le_of_succ_le h)

/-- The start of the following code point; the end stays where it is. -/
def Cursor.next (c : Cursor bs) : Cursor bs :=
  if h : c.offset < bs.size then boundaryFrom bs (c.offset + 1) h else c

/-- The start of the preceding code point; the start of the text stays where it is. -/
def Cursor.prev (c : Cursor bs) : Cursor bs := boundaryBefore bs c.offset c.le_size

def Cursor.advance (c : Cursor bs) : Nat → Cursor bs
  | 0 => c
  | n + 1 => c.next.advance n

def Cursor.retreat (c : Cursor bs) : Nat → Cursor bs
  | 0 => c
  | n + 1 => c.prev.retreat n

/-- The bytes from `c` up to the next code point. -/
def Cursor.run (c : Cursor bs) : Bytes := bs.extract c.offset c.next.offset

def Cursor.width (c : Cursor bs) : Nat := c.next.offset - c.offset

end Text
end ObjectRuntime
