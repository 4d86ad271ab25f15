import ObjectRuntime.Decimal.Shortest

/-! Doubles as text: the shortest digits, laid out by a style. Inside the style's range of leading
exponents the number is written out with a point and at least one decimal, outside it has an exponent. -/

namespace ObjectRuntime.Decimal

structure Style where
  /-- The least and the greatest leading exponent that is written out. -/
  least : Int
  greatest : Int
  /-- Whether a positive exponent carries a sign. -/
  plus : Bool
  tie : Tie
deriving Repr

/-- Digits without trailing zeros. -/
def significant (digits : Nat) : List Char :=
  ((Nat.toDigits 10 digits).reverse.dropWhile (· == '0')).reverse

/-- `ds` with the point after the digit of exponent zero, when the first digit has exponent `e`. -/
def writtenOut (ds : List Char) (e : Int) : List Char :=
  if e < 0 then '0' :: '.' :: List.replicate (-e - 1).toNat '0' ++ ds
  else
    let whole := ds.take (e.toNat + 1)
    let fraction := ds.drop (e.toNat + 1)
    whole ++ List.replicate (e.toNat + 1 - whole.length) '0' ++ '.' ::
      (if fraction.isEmpty then ['0'] else fraction)

def withExponent (plus : Bool) (ds : List Char) (e : Int) : List Char :=
  let fraction := ds.drop 1
  ds.take 1 ++ (if fraction.isEmpty then [] else '.' :: fraction) ++ 'e' ::
    ((if e < 0 then ['-'] else if plus then ['+'] else []) ++ Nat.toDigits 10 e.natAbs)

def Style.magnitude (s : Style) (x : Magnitude) : List Char :=
  let (digits, k) := x.shortest s.tie
  let e := k + digitCount digits - 1
  if s.least ≤ e ∧ e ≤ s.greatest then writtenOut (significant digits) e
  else withExponent s.plus (significant digits) e

def signed (negative : Bool) (cs : List Char) : List Char := if negative then '-' :: cs else cs

def Style.write (s : Style) (bits : UInt64) : String :=
  String.ofList (match Double.ofBits bits with
    | .nan => ['N', 'a', 'N']
    | .infinite negative => signed negative ['i', 'n', 'f']
    | .zero negative => signed negative ['0', '.', '0']
    | .finite negative x => signed negative (s.magnitude x))

/-- Documents write out exponents from -5 to 15 and sign every exponent. -/
def document : Style := ⟨-5, 15, true, .toEven⟩

/-- Inspected values write out exponents from -4 to 15; a tie goes up. -/
def inspected : Style := ⟨-4, 15, false, .up⟩

end ObjectRuntime.Decimal
