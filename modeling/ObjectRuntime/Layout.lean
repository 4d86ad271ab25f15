import ObjectRuntime.Table

/-! The layout contract: where the special attributes lie that the program core itself reads and
writes. -/

namespace ObjectRuntime

structure AttrSlot where
  pos : UInt64
  code : UInt32
deriving DecidableEq, Repr, Inhabited

inductive SpecialAttr where
  | classRef
  | args
  | fn
  | data
  | value
  | context
deriving DecidableEq, Repr

def SpecialAttr.name : SpecialAttr → String
  | .classRef => "class"
  | .args => "args"
  | .fn => "fn"
  | .data => "data"
  | .value => "value"
  | .context => "context"

def SpecialAttr.all : List SpecialAttr := [.classRef, .args, .fn, .data, .value, .context]

structure Layout where
  /-- The class of an instance. -/
  classSlot : AttrSlot
  /-- Bounds and parameters of a callable. -/
  argsSlot : AttrSlot
  /-- The function of a callable. -/
  fnSlot : AttrSlot
  /-- The contents of an instance made from a literal. -/
  dataSlot : AttrSlot
  /-- The target of a wrapper. -/
  valueSlot : AttrSlot
  /-- The bound context of a wrapper. -/
  contextSlot : AttrSlot
  /-- The number of attributes of a function; the defaults of its parameters follow them. -/
  functionSize : UInt64
deriving DecidableEq, Repr, Inhabited

def Layout.slot (l : Layout) : SpecialAttr → AttrSlot
  | .classRef => l.classSlot
  | .args => l.argsSlot
  | .fn => l.fnSlot
  | .data => l.dataSlot
  | .value => l.valueSlot
  | .context => l.contextSlot

/-- The position of the default with this index, if positions reach that far. -/
def Layout.defaultPos? (l : Layout) (index : Nat) : Option Nat :=
  let pos := l.functionSize.toNat + index
  if pos < UInt64.size then some pos else none

end ObjectRuntime
