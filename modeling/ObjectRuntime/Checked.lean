/-! Sixty-four bit arithmetic that says when a result does not fit, instead of wrapping. Each
operation is carried out on exact integers and then brought back into the word. -/

namespace ObjectRuntime.Checked

/-- The word with value `x`, if there is one. -/
def ofInt? (x : Int) : Option Int64 :=
  if Int64.minValue.toInt ≤ x ∧ x ≤ Int64.maxValue.toInt then some (Int64.ofInt x) else none

def add? (a b : Int64) : Option Int64 := ofInt? (a.toInt + b.toInt)

def sub? (a b : Int64) : Option Int64 := ofInt? (a.toInt - b.toInt)

/-- The quotient toward zero. -/
def div? (a b : Int64) : Option Int64 :=
  if b = 0 then none else ofInt? (a.toInt.tdiv b.toInt)

def sign (a : Int64) : Int64 := if a < 0 then -1 else if a = 0 then 0 else 1

/-- The largest count a machine word holds. -/
def maxWord : Nat := UInt64.size - 1

/-- Addition of counts that stops at the largest one. -/
def addSaturating (a b : Nat) : Nat := min (a + b) maxWord

end ObjectRuntime.Checked
