import ObjectRuntime.Json.Reader
import ObjectRuntime.Json.Shape
import ObjectRuntime.Manifest.Basic

/-! Reading a manifest. Slots and parameters are open records, so that a generator may add remarks of
its own to them; the manifest, its layout and the parameter tables are closed. Everything but the
version and the layout may be left out. -/

namespace ObjectRuntime

open Json

inductive SlotField where
  | pos
  | code
deriving DecidableEq

def AttrSlot.shape : Shape SlotField where
  title := "AttrSlot"
  fields := [.pos, .code]
  name
    | .pos => "pos"
    | .code => "code"
  Value
    | .pos => UInt64
    | .code => UInt32
  read
    | .pos => readWord64
    | .code => readWord32
  optional _ := false
  closed := false

def AttrSlot.reader : Reader AttrSlot := AttrSlot.shape.reader fun d => do
  return ⟨← d.need .pos, ← d.need .code⟩

inductive LayoutField where
  | slot (a : SpecialAttr)
  | functionSize
deriving DecidableEq

def Layout.shape : Shape LayoutField where
  title := "Layout"
  fields := SpecialAttr.all.map .slot ++ [.functionSize]
  name
    | .slot a => a.name
    | .functionSize => "function_instance_size"
  Value
    | .slot _ => AttrSlot
    | .functionSize => UInt64
  read
    | .slot _ => AttrSlot.reader
    | .functionSize => readWord64
  optional _ := false
  closed := true

def Layout.reader : Reader Layout := Layout.shape.reader fun d => do
  return ⟨← d.need (.slot .classRef), ← d.need (.slot .args),
    ← d.need (.slot .fn), ← d.need (.slot .data), ← d.need (.slot .value),
    ← d.need (.slot .context), ← d.need .functionSize⟩

inductive ParamField where
  | code
  | pos
deriving DecidableEq

def Param.shape : Shape ParamField where
  title := "Param"
  fields := [.code, .pos]
  name
    | .code => "code"
    | .pos => "pos"
  Value _ := UInt16
  read _ := readWord16
  optional _ := false
  closed := false

def Param.reader : Reader Param := Param.shape.reader fun d => do
  return ⟨← d.need .code, ← d.need .pos⟩

inductive ParamTableField where
  | min
  | max
  | params
deriving DecidableEq

def ParamTable.shape : Shape ParamTableField where
  title := "ParamTableDecl"
  fields := [.min, .max, .params]
  name
    | .min => "min"
    | .max => "max"
    | .params => "params"
  Value
    | .min => UInt32
    | .max => UInt32
    | .params => List Param
  read
    | .min => readWord32
    | .max => readWord32
    | .params => readList Param.reader
  optional
    | .params => true
    | _ => false
  closed := true

def ParamTable.reader : Reader ParamTable := ParamTable.shape.reader fun d => do
  return ⟨← d.need .min, ← d.need .max, ((d .params).getD []).toArray⟩

def Table.reader : Reader Table := fun n => (readList readWord32 n).map fun codes => ⟨codes.toArray⟩

inductive ManifestField where
  | schemaVersion
  | caps
  | layout
  | tables
  | paramTables
deriving DecidableEq

def Manifest.shape : Shape ManifestField where
  title := "LayoutManifest"
  fields := [.schemaVersion, .caps, .layout, .tables, .paramTables]
  name
    | .schemaVersion => "schema_version"
    | .caps => "caps"
    | .layout => "layout"
    | .tables => "tables"
    | .paramTables => "ptables"
  Value
    | .schemaVersion => String
    | .caps => String
    | .layout => Layout
    | .tables => NameMap Table
    | .paramTables => NameMap ParamTable
  read
    | .schemaVersion => readText
    | .caps => readText
    | .layout => Layout.reader
    | .tables => readMap Table.reader
    | .paramTables => readMap ParamTable.reader
  optional
    | .schemaVersion => false
    | .layout => false
    | _ => true
  closed := true

def Manifest.reader : Reader Manifest := Manifest.shape.reader fun d => do
  return ⟨← d.need .schemaVersion, (d .caps).getD "",
    ← d.need .layout, (d .tables).getD .empty, (d .paramTables).getD .empty⟩

def Manifest.ofBytes (bs : List UInt8) : Except ReadError Manifest :=
  (Document.ofBytes bs).readAs Manifest.reader

/-- The message of a manifest that cannot be read, with the place in the document. -/
def Manifest.readFailure (bs : List UInt8) (e : ReadError) : String :=
  let (line, column) := position bs e.offset
  s!"parse layout manifest JSON: {e.message} at line {line} column {column}"

end ObjectRuntime
