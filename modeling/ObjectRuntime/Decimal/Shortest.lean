/-! The shortest decimal that reads back as a given double. A finite double is `m * 2 ^ q`; the reals
that round to it form an interval around it, with the ends included iff `m` is even. For one digit, two
digits and so on, the two neighbours of the value on that decimal grid are tested against the interval
in exact arithmetic: the first grid with a hit wins, and of two hits the nearer one. Seventeen digits
are always enough. -/

namespace ObjectRuntime.Decimal

/-- A positive double, with everything scaled by four so that the ends of its interval are integers:
the value is `4 * mantissa * 2 ^ exponent` and the interval reaches from `below` to `above`, in units
of `2 ^ exponent`. -/
structure Magnitude where
  mantissa : Nat
  exponent : Int
  below : Nat
  above : Nat
deriving Repr

inductive Double where
  | nan
  | infinite (negative : Bool)
  | zero (negative : Bool)
  | finite (negative : Bool) (magnitude : Magnitude)
deriving Repr

def Double.ofBits (bits : UInt64) : Double :=
  let negative := bits.toNat >>> 63 == 1
  let biased : Nat := (bits.toNat >>> 52) % (1 <<< 11)
  let fraction : Nat := bits.toNat % (1 <<< 52)
  if biased = 0x7FF then
    if fraction = 0 then .infinite negative else .nan
  else if biased = 0 then
    if fraction = 0 then .zero negative
    else .finite negative ⟨fraction, -1076, 4 * fraction - 2, 4 * fraction + 2⟩
  else
    let m := (1 <<< 52) + fraction
    -- below a power of two the doubles lie twice as close
    let below := if fraction = 0 ∧ 1 < biased then 4 * m - 1 else 4 * m - 2
    .finite negative ⟨m, (biased : Int) - 1077, below, 4 * m + 2⟩

/-- Compares `a * 10 ^ k` with `b * 2 ^ j`. -/
def compareScaled (a : Nat) (k : Int) (b : Nat) (j : Int) : Ordering :=
  compare (a * Nat.pow 10 k.toNat <<< (-j).toNat) (b * Nat.pow 10 (-k).toNat <<< j.toNat)

def Magnitude.reads (x : Magnitude) (digits : Nat) (k : Int) : Bool :=
  let low := compareScaled digits k x.below x.exponent
  let high := compareScaled digits k x.above x.exponent
  if x.mantissa % 2 = 0 then low != .lt && high != .gt else low == .gt && high == .lt

def digitCount (n : Nat) : Nat := (Nat.toDigits 10 n).length

/-- The exponent of the leading decimal digit. -/
def Magnitude.leading (x : Magnitude) : Int :=
  let num := 4 * x.mantissa <<< x.exponent.toNat
  let den := 1 <<< (-x.exponent).toNat
  if den ≤ num then (digitCount (num / den) : Int) - 1
  else -(digitCount ((den + num - 1) / num - 1) : Int)

inductive Tie where
  | toEven
  | up
deriving DecidableEq, Repr

/-- The largest multiple of `10 ^ k` that is at most `x`, in units of `10 ^ k`. -/
def Magnitude.floorAt (x : Magnitude) (k : Int) : Nat :=
  (4 * x.mantissa * Nat.pow 10 (-k).toNat <<< x.exponent.toNat) /
    (Nat.pow 10 k.toNat <<< (-x.exponent).toNat)

/-- Of the neighbours `d` and `d + 1`, the nearer to `x`. -/
def Magnitude.nearer (x : Magnitude) (tie : Tie) (d : Nat) (k : Int) : Nat :=
  match compareScaled (2 * d + 1) k (8 * x.mantissa) x.exponent with
  | .lt => d + 1
  | .gt => d
  | .eq => match tie with
    | .up => d + 1
    | .toEven => if d % 2 = 0 then d else d + 1

def Magnitude.pick (x : Magnitude) (tie : Tie) (k : Int) : Option Nat :=
  let d := x.floorAt k
  match x.reads d k, x.reads (d + 1) k with
  | true, true => some (x.nearer tie d k)
  | true, false => some d
  | false, true => some (d + 1)
  | false, false => none

/-- The first grid with a hit, among `fuel` grids from `k` downwards. -/
def Magnitude.search (x : Magnitude) (tie : Tie) : Nat → Int → Nat × Int
  | 0, k => (x.floorAt k, k)
  | fuel + 1, k => match x.pick tie k with
    | some d => (d, k)
    | none => x.search tie fuel (k - 1)

/-- Digits and the exponent of the last one. -/
def Magnitude.shortest (x : Magnitude) (tie : Tie) : Nat × Int := x.search tie 17 x.leading

end ObjectRuntime.Decimal
