/-! Integers and bytes as text. Reading a decimal allows one leading sign and nothing but ASCII
digits after it, and fails when the value does not fit; hexadecimal is lower case, two digits for
each byte. -/

namespace ObjectRuntime.Text

def digit? (c : Char) : Option Nat :=
  if '0' ≤ c ∧ c ≤ '9' then some (c.toNat - '0'.toNat) else none

/-- The value of a nonempty string of decimal digits. -/
def natural? : List Char → Option Nat
  | [] => none
  | c :: cs => (c :: cs).foldlM (fun n d => (digit? d).map (10 * n + ·)) 0

/-- A 64-bit count, written with an optional `+`. -/
def unsigned? (cs : List Char) : Option Nat :=
  let digits := match cs with
    | '+' :: rest => rest
    | _ => cs
  (natural? digits).filter (· < UInt64.size)

/-- A 64-bit integer, written with an optional sign. -/
def signed? (cs : List Char) : Option Int64 :=
  let value : Option Int := match cs with
    | '+' :: rest => (natural? rest).map Int.ofNat
    | '-' :: rest => (natural? rest).map (fun n => -Int.ofNat n)
    | _ => (natural? cs).map Int.ofNat
  (value.filter (fun x => Int64.minValue.toInt ≤ x ∧ x ≤ Int64.maxValue.toInt)).map Int64.ofInt

def hexDigit (n : Nat) : Char := Nat.digitChar (n % 16)

/-- The digits of `n` in base sixteen, without leading zeros. -/
def hexNumber (n : Nat) : List Char := Nat.toDigits 16 n

def hexByte (b : UInt8) : List Char := [hexDigit (b.toNat / 16), hexDigit b.toNat]

def hex (bs : List UInt8) : String := String.ofList (bs.flatMap hexByte)

def hexValue? (c : Char) : Option Nat :=
  if '0' ≤ c ∧ c ≤ '9' then some (c.toNat - '0'.toNat)
  else if 'a' ≤ c ∧ c ≤ 'f' then some (c.toNat - 'a'.toNat + 10)
  else if 'A' ≤ c ∧ c ≤ 'F' then some (c.toNat - 'A'.toNat + 10)
  else none

/-- The bytes that `hex` writes as `cs`. -/
def unhex? : List Char → Option (List UInt8)
  | [] => some []
  | [_] => none
  | h :: l :: rest => do
    let high ← hexValue? h
    let low ← hexValue? l
    let tail ← unhex? rest
    return (16 * high + low).toUInt8 :: tail

end ObjectRuntime.Text
