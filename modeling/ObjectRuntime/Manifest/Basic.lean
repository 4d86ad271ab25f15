import ObjectRuntime.Json.Value
import ObjectRuntime.Layout
import ObjectRuntime.NameMap

/-! The layout manifest: what a code generator says about a program's tables, and its JSON form. -/

namespace ObjectRuntime

structure Manifest where
  schemaVersion : String
  /-- A capability profile or list. -/
  caps : String
  layout : Layout
  tables : NameMap Table
  paramTables : NameMap ParamTable
deriving DecidableEq

namespace AttrSlot

def toJson (s : AttrSlot) : Json := .obj [("pos", .ofNat s.pos.toNat), ("code", .ofNat s.code.toNat)]

end AttrSlot

def Layout.toJson (l : Layout) : Json :=
  .obj (SpecialAttr.all.map (fun a => (a.name, (l.slot a).toJson)) ++
    [("function_instance_size", .ofNat l.functionSize.toNat)])

def Table.toJson (t : Table) : Json := .arr (t.codes.toList.map fun c => .ofNat c.toNat)

def Param.toJson (p : Param) : Json := .obj [("code", .ofNat p.code.toNat), ("pos", .ofNat p.pos.toNat)]

def ParamTable.toJson (t : ParamTable) : Json :=
  .obj [("min", .ofNat t.min.toNat), ("max", .ofNat t.max.toNat),
    ("params", .arr (t.params.toList.map Param.toJson))]

namespace Manifest

/-- The version that is understood. -/
def supportedVersion : String := "tarn.layout@0.1.0"

def toJson (m : Manifest) : Json :=
  .obj [("schema_version", .str m.schemaVersion), ("caps", .str m.caps), ("layout", m.layout.toJson),
    ("tables", .ofMap (m.tables.map Table.toJson)),
    ("ptables", .ofMap (m.paramTables.map ParamTable.toJson))]

def toBytes (m : Manifest) : List UInt8 := m.toJson.toBytes

end Manifest
end ObjectRuntime
