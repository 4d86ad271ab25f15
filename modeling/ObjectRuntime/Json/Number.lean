import ObjectRuntime.Json.Value

/-! Numbers of JSON documents. A number is first a lexeme, its digits as written; its value is an
integer if it is written as one and fits 64 bits, and a double otherwise. A double is computed from at
most 64 bits of leading digits by one multiplication or division by a power of ten, so a long lexeme
need not give the nearest double. -/

namespace ObjectRuntime.Json

structure Lexeme where
  negative : Bool
  whole : List Nat
  fraction : List Nat
  /-- The digits of the exponent, with `true` for a negative one. -/
  exponent : Option (Bool × List Nat)
deriving DecidableEq, Repr

inductive Number where
  | unsigned (n : UInt64)
  | negative (n : Int64)
  | double (bits : UInt64)
deriving DecidableEq, Repr

namespace Lexeme

/-- Appends digits as long as the result is below `bound`, and returns the digits left over. -/
def accumulate (bound : Nat) : Nat → List Nat → Nat × List Nat
  | n, [] => (n, [])
  | n, d :: ds => if 10 * n + d < bound then accumulate bound (10 * n + d) ds else (n, d :: ds)

def isInteger (l : Lexeme) : Bool := l.fraction.isEmpty && l.exponent.isNone

/-- The leading digits that fit 64 bits, and the power of ten they are to be scaled by. -/
def significand (l : Lexeme) : Nat × Int :=
  let (n, dropped) := accumulate UInt64.size 0 l.whole
  let (m, rest) := accumulate UInt64.size n l.fraction
  (m, (dropped.length : Int) - ((l.fraction.length : Int) - rest.length))

/-- `f * 10 ^ e`, unless that is too large. -/
def scale (f : Float) (e : Int) : Option Float :=
  if e.natAbs ≤ 308 then
    let power := Float.ofScientific 1 false e.natAbs
    if 0 ≤ e then
      let product := f * power
      if product.isInf then none else some product
    else some (f / power)
  else if f == 0 then some f
  else if 0 ≤ e then none
  else scale (f / 1e308) (e + 308)
termination_by e.natAbs
decreasing_by omega

def double (l : Lexeme) (n : Nat) (e : Int) : Option Number :=
  (scale n.toUInt64.toFloat e).map fun f => .double (if l.negative then -f else f).toBits

/-- The integer that `n` stands for, if it has 64 bits; a negative zero is no integer. -/
def integer? (l : Lexeme) (n : Nat) : Option Number :=
  if !l.negative then some (.unsigned n.toUInt64)
  else if 0 < n ∧ n ≤ 0x8000000000000000 then some (.negative (Int64.ofInt (-n)))
  else none

/-- The digits of an exponent after the one that makes it too large. -/
def unreadDigits (l : Lexeme) : Nat :=
  match l.exponent with
  | none => 0
  | some (_, digits) => (accumulate 0x80000000 0 digits).2.length - 1

/-- The value of a lexeme, or `none` if it is out of range. -/
def value? (l : Lexeme) : Option Number :=
  let (n, e) := l.significand
  match l.exponent with
  | none =>
    if l.isInteger && e == 0 then
      match l.integer? n with
      | some v => some v
      | none => l.double n 0
    else l.double n e
  | some (down, digits) =>
    match accumulate 0x80000000 0 digits with
    | (k, []) => l.double n (if down then e - k else e + k)
    | (_, _ :: _) => if n ≠ 0 ∧ !down then none else l.double 0 0

end Lexeme

def Number.toJson : Number → Json
  | .unsigned n => .int n.toNat
  | .negative n => .int n.toInt
  | .double bits => .float bits

end ObjectRuntime.Json
