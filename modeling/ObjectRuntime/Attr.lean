import ObjectRuntime.Table
import ObjectRuntime.Text.CodePoint

/-! Attribute values: what an object slot, an argument array or a fragment holds. Objects and
fragments are shared, so a value only refers to them. -/

namespace ObjectRuntime

structure ObjectRef where
  index : Nat
deriving DecidableEq, Repr, Inhabited

structure FragmentRef where
  index : Nat
deriving DecidableEq, Repr, Inhabited

/-- A native function: the one that stands in for methods called without an instance, or one of the
program's own. -/
inductive NativeRef where
  | unboundMethod
  | named (name : String)
deriving DecidableEq, Repr, Inhabited

inductive Attr where
  | null
  /-- An object with the context that it was reached through. -/
  | value (context : Option ObjectRef) (object : ObjectRef)
  /-- Bounds and parameters of a callable. The bounds that count are those of the table. -/
  | args (min : UInt32) (params : ParamTable)
  /-- A function; a method also refers to its bound version. -/
  | callable (bound : Option ObjectRef) (func : NativeRef)
  | int (n : Int64)
  /-- A double, by its bits. -/
  | float (bits : UInt64)
  | str (bytes : Bytes)
  | seq (fragment : FragmentRef)
deriving DecidableEq, Repr, Inhabited

namespace Attr

def ofObject (o : ObjectRef) : Attr := .value none o

def isNull (a : Attr) : Bool := a == .null

def object? : Attr → Option ObjectRef
  | .value _ o => some o
  | _ => none

def int? : Attr → Option Int64
  | .int n => some n
  | _ => none

/-- Whether `a` is this object. -/
def is (a : Attr) (o : ObjectRef) : Bool := a.object? == some o

/-- Whether both are empty or both are one object. -/
def same : Attr → Attr → Bool
  | .null, .null => true
  | .value _ o, .value _ p => o == p
  | _, _ => false

end Attr
end ObjectRuntime
