import ObjectRuntime.Checked
import ObjectRuntime.Text.CodePoint

/-! Strided slices of text. The indices are code-point indices, already normalised by the caller:
a negative index is simply outside the text. All arithmetic on indices is 64-bit and checked. A slice
is taken in two passes over the same cursors: the first finds them and adds up their widths, the
second copies the runs. -/

namespace ObjectRuntime.Text

inductive SliceError where
  | zeroStep
  /-- `stop - start` is no 64-bit integer. -/
  | spanOverflow
  /-- The number of indices is no 64-bit integer. -/
  | countOverflow
deriving DecidableEq, Repr

/-- The number of indices `start, start + step, ...` strictly before `stop`, for a span and a step
of one sign: a division rounded up. -/
def indexCount (span step : Int64) : Option Int64 := do
  let short ← Checked.sub? span (Checked.sign step)
  let full ← Checked.div? short step
  Checked.add? full 1

def sliceCount (start stop step : Int64) : Except SliceError Nat :=
  if step = 0 then .error .zeroStep
  else match Checked.sub? stop start with
    | none => .error .spanOverflow
    | some span =>
      if span = 0 ∨ Checked.sign span ≠ Checked.sign step then .ok 0
      else match indexCount span step with
        | none => .error .countOverflow
        | some n => .ok n.toInt.toNat

/-- Whether `i` is the index of a code point of a text of `count` code points. -/
def inText (count : Nat) (i : Int64) : Bool := 0 ≤ i.toInt && i.toInt < count

/-- The index after `i`, as long as it lies in the text. -/
def nextIndex (count : Nat) (step i : Int64) : Option Int64 :=
  (Checked.add? i step).filter (inText count)

variable {bs : Bytes}

/-- Moves by `step` code points, backwards if it is negative. -/
def Cursor.move (c : Cursor bs) (step : Int64) : Cursor bs :=
  if 0 < step then c.advance step.toInt.natAbs else c.retreat step.toInt.natAbs

/-- The cursors of at most `left` code points, the first at index `i` and cursor `c`, until the
index leaves the text. -/
def walk (count : Nat) (step : Int64) : (left : Nat) → (i : Int64) → Cursor bs → List (Cursor bs)
  | 0, _, _ => []
  | left + 1, i, c =>
    c :: match nextIndex count step i with
      | none => []
      | some j => walk count step left j (c.move step)

def totalWidth (cs : List (Cursor bs)) : Nat := cs.foldl (fun total c => total + c.width) 0

def gather (cs : List (Cursor bs)) : Bytes := cs.foldl (fun out c => out ++ c.run) #[]

/-- The cursors of the code points that a slice selects, in order. -/
def selection (bs : Bytes) (start stop step : Int64) : Except SliceError (List (Cursor bs)) := do
  let n ← sliceCount start stop step
  let count := length bs
  pure (if n = 0 ∨ !inText count start then []
    else walk count step n start ((Cursor.first bs).advance start.toInt.natAbs))

/-- The code points at `start, start + step, ...` up to but not including `stop`, as bytes. -/
def substring (bs : Bytes) (start stop step : Int64) : Except SliceError Bytes :=
  (selection bs start stop step).map gather

end ObjectRuntime.Text
