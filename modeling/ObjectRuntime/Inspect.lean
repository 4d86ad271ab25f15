import ObjectRuntime.Decimal.Notation
import ObjectRuntime.Machine
import ObjectRuntime.Text.Quoted
import ObjectRuntime.Text.Utf8

/-! Inspected values: one-line texts of attributes, objects, fragments and the machine, for messages to
programmers. An object within another value is shown by its place in the heap only, since objects may
refer back to themselves. -/

namespace ObjectRuntime

/-- A named record with its fields. -/
def inspectRecord (name : String) (fields : List (String × String)) : String :=
  name ++ " \x7b " ++ ", ".intercalate (fields.map fun f => f.1 ++ ": " ++ f.2) ++ " \x7d"

def inspectNat (n : Nat) : String := String.ofList (Nat.toDigits 10 n)

def ObjectRef.inspect (o : ObjectRef) : String := "0x" ++ String.ofList (Text.hexNumber o.index)

def inspectOption : Option ObjectRef → String
  | some o => s!"Some({o.inspect})"
  | none => "None"

def NativeRef.inspect : NativeRef → String
  | .unboundMethod => "unbound"
  | .named name => name

def Attr.inspect (h : Heap) : Attr → String
  | .null => "Null"
  | .value context o =>
    inspectRecord "Value" [("context", inspectOption context), ("value", o.inspect)]
  | .args min t => inspectRecord "Args" [("min", inspectNat min.toNat), ("max", inspectNat t.max.toNat)]
  | .callable bound func =>
    inspectRecord "Callable" [("bound", inspectOption bound), ("func", func.inspect)]
  | .int n => s!"Int({n.toInt})"
  | .float bits => s!"Float({Decimal.inspected.write bits})"
  | .str bytes => "Str(" ++ String.ofList (Text.quote (Text.decodeLossy bytes.toList)) ++ ")"
  | .seq f => inspectRecord "Seq" [("size", inspectNat (h.fragment f).size)]

def inspectAttrs (h : Heap) (attrs : Array Attr) : String :=
  "[" ++ ", ".intercalate (attrs.toList.map (Attr.inspect h)) ++ "]"

def Object.inspect (h : Heap) (o : Object) : String :=
  inspectRecord "Object" [("pos", inspectNat o.pos.toNat), ("policy", o.policy.inspect),
    ("attrs", inspectAttrs h o.slots)]

def Fragment.inspect (h : Heap) (f : Fragment) : String :=
  inspectRecord "Fragment" [("size", inspectNat f.size), ("capacity", inspectNat f.capacity),
    ("attrs", inspectAttrs h f.items)]

def AttrSlot.inspect (s : AttrSlot) : String :=
  inspectRecord "AttrSlot" [("pos", inspectNat s.pos.toNat), ("code", inspectNat s.code.toNat)]

def Layout.inspect (l : Layout) : String :=
  inspectRecord "Layout" [("class", l.classSlot.inspect), ("args", l.argsSlot.inspect),
    ("func", l.fnSlot.inspect), ("data", l.dataSlot.inspect), ("value", l.valueSlot.inspect),
    ("context", l.contextSlot.inspect),
    ("function_instance_size", inspectNat l.functionSize.toNat)]

def Usage.inspect (u : Usage) : String :=
  inspectRecord "AllocStats" [("objects", inspectNat u.objects),
    ("immutable_objects", inspectNat u.immutableObjects), ("fragments", inspectNat u.fragments),
    ("slots", inspectNat u.slots)]

def Machine.inspect (m : Machine) (s : State) : String :=
  "Runtime \x7b layout: " ++ m.layout.inspect ++ ", caps: " ++ m.capabilities.inspect ++ ", alloc: " ++
    s.allocator.usage.inspect ++ ", .. \x7d"

end ObjectRuntime
