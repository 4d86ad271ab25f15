/-! Attribute tables and parameter tables. Every attribute name of a program has one code and one
position, so a table only has to say whether its shape holds that code at that position: a lookup is
one comparison and no search. Codes count from one, and zero marks a gap. -/

namespace ObjectRuntime

def gapCode : UInt32 := 0

/-- The attribute codes of a shape by position. -/
structure Table where
  codes : Array UInt32
deriving DecidableEq, Repr, Inhabited

/-- Whether the shape has `code` at `pos`. -/
def Table.provides (t : Table) (pos : Nat) (code : UInt32) : Bool :=
  code != gapCode && t.codes[pos]? == some code

def Table.resolve (t : Table) (pos : Nat) (code : UInt32) : Option Nat :=
  if t.provides pos code then some pos else none

/-- A parameter: its code and the argument position that it binds. -/
structure Param where
  code : UInt16
  pos : UInt16
deriving DecidableEq, Repr, Inhabited

def Param.isGap (p : Param) : Bool := p.code == 0

/-- The parameters of a callable. They are indexed by the parameter slot of each name, which a keyword
brings along as its hint. The bounds count the context in position zero. -/
structure ParamTable where
  min : UInt32
  max : UInt32
  params : Array Param
deriving DecidableEq, Repr, Inhabited

/-- The argument position that a keyword binds. -/
def ParamTable.resolve (t : ParamTable) (hint : Nat) (code : UInt16) : Option Nat :=
  if code = 0 then none
  else match t.params[hint]? with
    | some p => if p.code = code then some p.pos.toNat else none
    | none => none

end ObjectRuntime
