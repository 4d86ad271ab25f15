import ObjectRuntime.Call

/-! A small library of natives. They see the machine only through its operations and raise only what
it lets them raise. One of them calls back into the machine, so natives run on a measure of fuel that
bounds how deeply they nest. -/

namespace ObjectRuntime.NativeLibrary

variable (m : Machine)

def arg (args : Array Attr) (i : Nat) : Attr := args.getD i .null

/-- The integer argument `i`, cut to 32 bits, or a standard code. -/
def codeArg (args : Array Attr) (i : Nat) (standard : Int32) : Int32 :=
  match (arg args i).int? with
  | some n => n.toInt32
  | none => standard

def addTo (total : Int64) (a : Attr) : Except Halt Int64 :=
  match a.int? with
  | none => .error (.type (.program "sum expects integers"))
  | some n => match Checked.add? total n with
    | none => .error (.raised .overflow)
    | some t => .ok t

/-- The sum of the arguments after the context. -/
def sum (args : Array Attr) : Action Attr := do
  return .int (← ofExcept ((args.toList.drop 1).foldlM addTo 0))

/-- The object in this position, which the native works on. -/
def receiver (args : Array Attr) (i : Nat) : Action ObjectRef :=
  match (arg args i).object? with
  | some o => pure o
  | none => typeError (.program "no receiver")

/-- Whether a value counts as true: nonzero integers and nonempty strings. -/
def isTruthy : Attr → Bool
  | .int n => n != 0
  | .str bytes => !bytes.isEmpty
  | _ => false

def truthTest (args : Array Attr) : Attr :=
  .ofObject (if isTruthy (arg args 1) then m.builtins.trueRef else m.builtins.falseRef)

/-- Lets a mapping share the data of a list. -/
def shareData (args : Array Attr) : Action Attr := do
  let this ← receiver args 0
  let list ← receiver args 1
  let data ← load list m.layout.dataSlot.pos.toNat
  store this m.layout.dataSlot.pos.toNat data
  return .null

def setData (args : Array Attr) : Action Attr := do
  let this ← receiver args 0
  storeChecked this m.layout.dataSlot (arg args 1)
  return .null

def getData (args : Array Attr) : Action Attr := do
  loadChecked (← receiver args 0) m.layout.dataSlot

/-- Calls argument one with an empty context and the arguments after it. -/
def callBack (natives : Natives) (args : Array Attr) : Action Attr :=
  m.invoke natives (arg args 1) false [] (#[.null] ++ args.extract 2 args.size)

def natives : Nat → Natives
  | 0 => fun _ _ => throw .exhausted
  | fuel + 1 => fun name args =>
    match name with
    | "record" => do return .ofObject (← m.newList args)
    | "make" => do return .ofObject (← m.newTuple (args.extract 1 args.size))
    | "first" => pure (arg args 0)
    | "last" => pure (args.back?.getD .null)
    | "sum" => sum args
    | "fail" => typeError (.program "native failure")
    | "zero" => m.raise .zeroDivision
    | "memory" => m.raise .memory
    | "eof" => m.raise .endOfInput
    | "io_err" => m.raise (.io (codeArg args 1 5))
    | "os" => m.raise (.os (codeArg args 1 2) (arg args 2))
    | "call" => callBack m (natives fuel) args
    | "set_data" => setData m args
    | "get_data" => getData m args
    | "bool_test" => pure (truthTest m args)
    | "bool_true" => pure (.ofObject m.builtins.trueRef)
    | "dict_store" => shareData m args
    | _ => throw .fault

end ObjectRuntime.NativeLibrary
