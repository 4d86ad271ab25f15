import ObjectRuntime.Machine

/-! Input and output on descriptors. A host answers each call with a result or an error number and
may change its world of type `ω` in doing so. Failures are raised as input/output errors with the number,
and the end of input as an error of its own where there is nothing to return. Only a full read takes an
interrupted call up again; elsewhere an interruption is a failure like any other. -/

namespace ObjectRuntime

inductive Access where
  | readOnly
  | writeOnly
  | readWrite
  /-- Both ways of asking at once: the file must allow reading and writing, the descriptor does not. -/
  | neither
deriving DecidableEq, Repr

def Access.reads (a : Access) : Bool := a == .readOnly || a == .readWrite

def Access.writes (a : Access) : Bool := a == .writeOnly || a == .readWrite

structure OpenMode where
  access : Access
  create : Bool
  exclusive : Bool
  truncate : Bool
  append : Bool
  directory : Bool
deriving DecidableEq, Repr

/-- Error numbers that descriptor calls end in. -/
structure Errno where
  code : Int32
deriving DecidableEq, Repr

namespace Errno

def noEntry : Errno := ⟨2⟩
def interrupted : Errno := ⟨4⟩
def badDescriptor : Errno := ⟨9⟩
def alreadyExists : Errno := ⟨17⟩
def notDirectory : Errno := ⟨20⟩
def isDirectory : Errno := ⟨21⟩
def invalid : Errno := ⟨22⟩
def nameTooLong : Errno := ⟨36⟩

end Errno

/-- The descriptor calls of a host, and how much it can hold. -/
structure Host (ω : Type) where
  openFile : List UInt8 → OpenMode → ω → Except Errno Int × ω
  close : Int → ω → Except Errno Unit × ω
  read : Int → Nat → ω → Except Errno (List UInt8) × ω
  write : Int → List UInt8 → ω → Except Errno Nat × ω
  /-- Whether a buffer of so many bytes can be reserved. -/
  reserves : Nat → Bool
  /-- How many reads in a row can still be interrupted. -/
  interruptions : ω → Nat
  interruptions_lt : ∀ {fd : Int} {n : Nat} {w w' : ω}, read fd n w = (.error .interrupted, w') →
    interruptions w' < interruptions w

namespace Host

variable {ω : Type} (host : Host ω)

/-- Reads until `left` bytes have arrived, or input ends, or a read fails for another reason than an
interruption. -/
def readFully (fd : Int) (left : Nat) (w : ω) : Except Errno (List UInt8) × ω :=
  if left = 0 then (.ok [], w)
  else match _ : host.read fd left w with
    | (.error e, w') => if e = .interrupted then readFully fd left w' else (.error e, w')
    | (.ok [], w') => (.ok [], w')
    | (.ok (b :: bs), w') =>
      let (rest, w') := readFully fd (left - (b :: bs).length) w'
      (rest.map ((b :: bs) ++ ·), w')
termination_by (left, host.interruptions w)
decreasing_by
  -- an interrupted read leaves as many bytes to be read, and one interruption less
  · subst e
    exact Prod.Lex.right _ (host.interruptions_lt ‹_›)
  · exact Prod.Lex.left _ _ (by simp only [List.length_cons]; omega)

end Host

namespace Machine

variable {ω : Type} (m : Machine) (host : Host ω)

/-- Carries out a call of the host and raises its failure. -/
def hostCall {α : Type} (f : ω → Except Errno α × ω) : ActionOn ω α := do
  match ← modifyGet f with
  | .ok a => return a
  | .error e => m.raise (.io e.code)

/-- Opens a path, which cannot hold a zero byte. -/
def openFile (path : List UInt8) (mode : OpenMode) : ActionOn ω Int :=
  if path.contains 0 then m.raise (.io Errno.invalid.code)
  else m.hostCall (host.openFile path mode)

def close (fd : Int) : ActionOn ω Attr := do
  m.hostCall (host.close fd)
  return .ofObject m.builtins.noneRef

/-- At most `n` bytes; an empty string at the end of input. -/
def read (fd : Int) (n : Nat) : ActionOn ω Attr := do
  if host.reserves n then
    return .str (← m.hostCall (host.read fd n)).toArray
  else m.raise .memory

/-- The next `n` bytes, or as many as there are before the end of input, which must be at least one
if any are wanted. -/
def readStream (fd : Int) (n : Nat) : ActionOn ω Attr := do
  if host.reserves n then
    let bytes ← m.hostCall (host.readFully fd n)
    if bytes.isEmpty ∧ 0 < n then m.raise .endOfInput
    else return .str bytes.toArray
  else m.raise .memory

/-- Writes bytes and returns how many were written. -/
def write (fd : Int) (data : List UInt8) : ActionOn ω Attr := do
  return .int (Int64.ofNat (← m.hostCall (host.write fd data)))

end Machine
end ObjectRuntime
