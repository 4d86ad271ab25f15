import ObjectRuntime.Manifest.Read
import ObjectRuntime.Proofs.Records

/-! Manifests and their text. Every record of a manifest has the members that its shape declares, so it
is read back from its JSON form; the form is plain, so its compact text is read as it stands. -/

namespace ObjectRuntime

open Json

/-! ### Every record is read back from its form -/

theorem AttrSlot.declared : AttrSlot.shape.Declared where
  mem_fields i := by cases i <;> decide
  nodup := by decide

/-- What a field of the shape holds. -/
def AttrSlot.value (s : AttrSlot) : (i : SlotField) → AttrSlot.shape.Value i
  | .pos => s.pos
  | .code => s.code

/-- The form of a field of the shape. -/
def AttrSlot.form (s : AttrSlot) : SlotField → Json
  | .pos => .ofNat s.pos.toNat
  | .code => .ofNat s.code.toNat

theorem AttrSlot.reads (s : AttrSlot) : Reads AttrSlot.reader s.toJson s := by
  refine Shape.reads_reader s.value s.form AttrSlot.declared (fun i => ?_) ?_
  · cases i with
    | pos => exact reads_word64 s.pos
    | code => exact reads_word32 s.code
  · rfl

theorem Layout.declared : Layout.shape.Declared where
  mem_fields
    | .slot a => by cases a <;> decide
    | .functionSize => by decide
  nodup := by decide

def Layout.value (l : Layout) : (i : LayoutField) → Layout.shape.Value i
  | .slot a => l.slot a
  | .functionSize => l.functionSize

def Layout.form (l : Layout) : LayoutField → Json
  | .slot a => (l.slot a).toJson
  | .functionSize => .ofNat l.functionSize.toNat

theorem Layout.reads (l : Layout) : Reads Layout.reader l.toJson l := by
  refine Shape.reads_reader l.value l.form Layout.declared (fun i => ?_) ?_
  · cases i with
    | slot a => exact (l.slot a).reads
    | functionSize => exact reads_word64 l.functionSize
  · rfl

theorem Param.declared : Param.shape.Declared where
  mem_fields i := by cases i <;> decide
  nodup := by decide

def Param.value (p : Param) : (i : ParamField) → Param.shape.Value i
  | .code => p.code
  | .pos => p.pos

def Param.form (p : Param) : ParamField → Json
  | .code => .ofNat p.code.toNat
  | .pos => .ofNat p.pos.toNat

theorem Param.reads (p : Param) : Reads Param.reader p.toJson p := by
  refine Shape.reads_reader p.value p.form Param.declared (fun i => ?_) ?_
  · cases i with
    | code => exact reads_word16 p.code
    | pos => exact reads_word16 p.pos
  · rfl

theorem ParamTable.declared : ParamTable.shape.Declared where
  mem_fields i := by cases i <;> decide
  nodup := by decide

def ParamTable.value (t : ParamTable) : (i : ParamTableField) → ParamTable.shape.Value i
  | .min => t.min
  | .max => t.max
  | .params => t.params.toList

def ParamTable.form (t : ParamTable) : ParamTableField → Json
  | .min => .ofNat t.min.toNat
  | .max => .ofNat t.max.toNat
  | .params => .arr (t.params.toList.map Param.toJson)

theorem ParamTable.reads (t : ParamTable) : Reads ParamTable.reader t.toJson t := by
  refine Shape.reads_reader t.value t.form ParamTable.declared (fun i => ?_) ?_
  · cases i with
    | min => exact reads_word32 t.min
    | max => exact reads_word32 t.max
    | params => exact reads_list fun p _ => p.reads
  · rfl

theorem Table.reads (t : Table) : Reads Table.reader t.toJson t :=
  Reads.map (reads_list fun (c : UInt32) _ => reads_word32 c) fun codes => (⟨codes.toArray⟩ : Table)

theorem Manifest.declared : Manifest.shape.Declared where
  mem_fields i := by cases i <;> decide
  nodup := by decide

def Manifest.value (m : Manifest) : (i : ManifestField) → Manifest.shape.Value i
  | .schemaVersion => m.schemaVersion
  | .caps => m.caps
  | .layout => m.layout
  | .tables => m.tables
  | .paramTables => m.paramTables

def Manifest.form (m : Manifest) : ManifestField → Json
  | .schemaVersion => .str m.schemaVersion
  | .caps => .str m.caps
  | .layout => m.layout.toJson
  | .tables => .ofMap (m.tables.map Table.toJson)
  | .paramTables => .ofMap (m.paramTables.map ParamTable.toJson)

theorem Manifest.reads (m : Manifest) : Reads Manifest.reader m.toJson m := by
  refine Shape.reads_reader m.value m.form Manifest.declared (fun i => ?_) ?_
  · cases i with
    | schemaVersion => exact reads_text m.schemaVersion
    | caps => exact reads_text m.caps
    | layout => exact m.layout.reads
    | tables => exact reads_map fun e _ => Table.reads e.2
    | paramTables => exact reads_map fun e _ => ParamTable.reads e.2
  · rfl

/-! ### The form is plain -/

namespace Json

theorem plain_ofNat {n : Nat} (h : n < UInt64.size) : (ofNat n).Plain :=
  .int (Int.le_trans (by decide) (Int.natCast_nonneg n)) (Int.ofNat_lt.2 h)

theorem plain_word16 (w : UInt16) : (ofNat w.toNat).Plain :=
  plain_ofNat (Nat.lt_trans w.toNat_lt (by decide))

theorem plain_word32 (w : UInt32) : (ofNat w.toNat).Plain :=
  plain_ofNat (Nat.lt_trans w.toNat_lt (by decide))

theorem plain_word64 (w : UInt64) : (ofNat w.toNat).Plain := plain_ofNat w.toNat_lt

theorem plain_list {α : Type} {toJson : α → Json} (h : ∀ a, (toJson a).Plain) (as : List α) :
    (Json.arr (as.map toJson)).Plain :=
  .arr fun _ hj => by
    obtain ⟨a, -, rfl⟩ := List.mem_map.1 hj
    exact h a

theorem plain_map {α : Type} {toJson : α → Json} (h : ∀ a, (toJson a).Plain) (m : NameMap α) :
    (ofMap (m.map toJson)).Plain :=
  .obj fun _ hj => by
    obtain ⟨e, -, rfl⟩ := List.mem_map.1 hj
    exact h e.2

end Json

theorem AttrSlot.plain (s : AttrSlot) : s.toJson.Plain := by
  refine .obj ?_
  simp only [List.forall_mem_cons]
  exact ⟨plain_word64 s.pos, plain_word32 s.code, nofun⟩

theorem Layout.plain (l : Layout) : l.toJson.Plain := by
  refine .obj fun e he => ?_
  rcases List.mem_append.1 he with he | he
  · obtain ⟨a, -, rfl⟩ := List.mem_map.1 he
    exact (l.slot a).plain
  · obtain rfl := List.mem_singleton.1 he
    exact plain_word64 l.functionSize

theorem Param.plain (p : Param) : p.toJson.Plain := by
  refine .obj ?_
  simp only [List.forall_mem_cons]
  exact ⟨plain_word16 p.code, plain_word16 p.pos, nofun⟩

theorem Table.plain (t : Table) : t.toJson.Plain := plain_list plain_word32 t.codes.toList

theorem ParamTable.plain (t : ParamTable) : t.toJson.Plain := by
  refine .obj ?_
  simp only [List.forall_mem_cons]
  exact ⟨plain_word32 t.min, plain_word32 t.max, plain_list Param.plain t.params.toList, nofun⟩

namespace Manifest

theorem plain (m : Manifest) : m.toJson.Plain := by
  refine .obj ?_
  simp only [List.forall_mem_cons]
  exact ⟨.str m.schemaVersion, .str m.caps, m.layout.plain, plain_map Table.plain m.tables,
    plain_map ParamTable.plain m.paramTables, nofun⟩

/-! ### Writing and reading -/

theorem ofBytes_eq_ok (m : Manifest) : ofBytes m.toBytes = .ok m := by
  obtain ⟨n, hdocument, hspells⟩ := ofBytes_toBytes_plain m.plain
  have hroot : reader n = .ok m := m.reads n hspells
  rw [ofBytes, toBytes, hdocument, Document.readAs, hroot]
  rfl

/-- Every manifest is read back from its text. So whatever document a manifest has been read from,
writing it out and reading that gives the same manifest, and writing it again the same bytes. -/
theorem roundtrip :
    (∀ m : Manifest, ofBytes m.toBytes = .ok m) ∧
      ∀ (document : List UInt8) (m : Manifest), ofBytes document = .ok m →
        ∃ m', ofBytes m.toBytes = .ok m' ∧ m' = m ∧ m'.toBytes = m.toBytes := by
  refine ⟨ofBytes_eq_ok, fun document m _ => ?_⟩
  have hread := ofBytes_eq_ok m
  exact ⟨m, hread, rfl, rfl⟩

def loose : Manifest where
  schemaVersion := supportedVersion
  caps := "full"
  layout := ⟨⟨0, 1⟩, ⟨1, 2⟩, ⟨2, 3⟩, ⟨3, 4⟩, ⟨4, 5⟩, ⟨5, 6⟩, 3⟩
  tables := .ofList [("a/", ⟨#[7, 0]⟩), ("b", ⟨#[]⟩)]
  paramTables := .empty

/-- A document of it that is not the one written for it: records as lists, members out of order, a remark,
and no parameter tables. -/
def looseDocument : List UInt8 :=
  Json.toBytes <| .arr [.str supportedVersion, .str "full",
    .obj [("function_instance_size", .int 3), ("context", .arr [.int 5, .int 6]),
      ("value", .arr [.int 4, .int 5]), ("data", .arr [.int 3, .int 4]), ("fn", .arr [.int 2, .int 3]),
      ("args", .arr [.int 1, .int 2]), ("class", .obj [("code", .int 1), ("remark", .null), ("pos", .int 0)])],
    .obj [("b", .arr []), ("a/", .arr [.int 7, .int 0])]]

theorem roundtrip_loose : ofBytes looseDocument = .ok loose ∧
    ∃ m', ofBytes loose.toBytes = .ok m' ∧ m' = loose ∧ m'.toBytes = loose.toBytes := by
  have hread : ofBytes looseDocument = .ok loose := by decide +kernel
  exact ⟨hread, roundtrip.2 looseDocument loose hread⟩

end Manifest

end ObjectRuntime
