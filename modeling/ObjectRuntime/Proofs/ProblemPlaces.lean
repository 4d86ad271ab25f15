import ObjectRuntime.Proofs.Pointers
import ObjectRuntime.Proofs.Rules

/-! Where problems lie. Each is about one value of the manifest, at a place that the manifest's JSON form
has. The pointer of a problem is the names on the way there, written as they are; so it leads to the
value iff the name of the table, which alone may be any string, needs no escapes. -/

namespace ObjectRuntime

open Json

/-- A value of a manifest that something can be wrong with. -/
inductive Place where
  | version
  | caps
  | slotCode (a : SpecialAttr)
  | slotPos (a : SpecialAttr)
  | entry (table : String) (pos : Nat)
  | min (table : String)
  | paramPos (table : String) (slot : Nat)
  | paramCode (table : String) (slot : Nat)

namespace Place

/-- The names on the way to it. -/
def names : Place → List String
  | version => ["schema_version"]
  | caps => ["caps"]
  | slotCode a => ["layout", a.name, "code"]
  | slotPos a => ["layout", a.name, "pos"]
  | entry table pos => ["tables", table, Problem.decimal pos]
  | min table => ["ptables", table, "min"]
  | paramPos table slot => ["ptables", table, "params", Problem.decimal slot, "pos"]
  | paramCode table slot => ["ptables", table, "params", Problem.decimal slot, "code"]

/-- The table or parameter table that it is in. -/
def table? : Place → Option String
  | entry table _ | min table | paramPos table _ | paramCode table _ => some table
  | _ => none

def value? (m : Manifest) : Place → Option Json
  | version => some (.str m.schemaVersion)
  | caps => some (.str m.caps)
  | slotCode a => some (.ofNat (m.layout.slot a).code.toNat)
  | slotPos a => some (.ofNat (m.layout.slot a).pos.toNat)
  | entry table pos => do
    let t ← m.tables.get? table
    let code ← t.codes[pos]?
    return .ofNat code.toNat
  | min table => do
    let t ← m.paramTables.get? table
    return .ofNat t.min.toNat
  | paramPos table slot => do
    let t ← m.paramTables.get? table
    let p ← t.params[slot]?
    return .ofNat p.pos.toNat
  | paramCode table slot => do
    let t ← m.paramTables.get? table
    let p ← t.params[slot]?
    return .ofNat p.code.toNat

end Place

/-- The place of the value that the problem is about. -/
def Problem.place : Problem → Place
  | .version _ => .version
  | .capabilities _ => .caps
  | .gapCode a | .sharedCode a _ _ => .slotCode a
  | .outsideFunction a _ _ => .slotPos a
  | .repeatedAttribute table pos _ => .entry table pos
  | .boundsReversed table _ _ => .min table
  | .positionAtMax table slot _ _ | .contextPosition table slot | .sharedPosition table slot _ =>
    .paramPos table slot
  | .repeatedParam table slot _ => .paramCode table slot

namespace Place

/-! ### The names lead to the value -/

theorem at?_slot (l : Layout) (a : SpecialAttr) (ts : List String) :
    l.toJson.at? (a.name :: ts) = (l.slot a).toJson.at? ts := by
  cases a <;> rfl

theorem at?_tables (m : Manifest) (table : String) (ts : List String) :
    m.toJson.at? ("tables" :: table :: ts) = (m.tables.get? table).bind fun t => t.toJson.at? ts := by
  rw [at?_cons, show m.toJson.child? "tables" = some (.ofMap (m.tables.map Table.toJson)) from rfl,
    Option.bind_some, at?_cons, child?_ofMap, Option.bind_map]
  rfl

theorem at?_paramTables (m : Manifest) (table : String) (ts : List String) :
    m.toJson.at? ("ptables" :: table :: ts) =
      (m.paramTables.get? table).bind fun t => t.toJson.at? ts := by
  rw [at?_cons, show m.toJson.child? "ptables" = some (.ofMap (m.paramTables.map ParamTable.toJson)) from rfl,
    Option.bind_some, at?_cons, child?_ofMap, Option.bind_map]
  rfl

theorem at?_entry (t : Table) (pos : Nat) :
    t.toJson.at? [Problem.decimal pos] = t.codes[pos]?.bind fun code => some (.ofNat code.toNat) := by
  rw [at?_cons, Problem.decimal, Table.toJson, child?_arr, List.getElem?_map, Array.getElem?_toList,
    Option.bind_map]
  rfl

theorem at?_param (t : ParamTable) (slot : Nat) (ts : List String) :
    t.toJson.at? ("params" :: Problem.decimal slot :: ts) =
      t.params[slot]?.bind fun p => p.toJson.at? ts := by
  rw [at?_cons, show t.toJson.child? "params" = some (.arr (t.params.toList.map Param.toJson)) from rfl,
    Option.bind_some, at?_cons, Problem.decimal, child?_arr, List.getElem?_map, Array.getElem?_toList,
    Option.bind_map]
  rfl

theorem at?_names (m : Manifest) (p : Place) : m.toJson.at? p.names = p.value? m := by
  cases p with
  | version => rfl
  | caps => rfl
  | slotCode a => exact at?_slot m.layout a ["code"]
  | slotPos a => exact at?_slot m.layout a ["pos"]
  | entry table pos =>
    rw [names, at?_tables]
    simp only [at?_entry]
    rfl
  | min table => exact at?_paramTables m table ["min"]
  | paramPos table slot =>
    rw [names, at?_paramTables]
    simp only [at?_param]
    rfl
  | paramCode table slot =>
    rw [names, at?_paramTables]
    simp only [at?_param]
    rfl

/-! ### What the pointers say -/

theorem clean_decimal (n : Nat) : Pointer.Clean (Problem.decimal n) := by
  refine ⟨Rule.slash_notMem_decimal n, fun h => ?_⟩
  rw [Problem.decimal, String.toList_ofList] at h
  have hdigit := Nat.isDigit_of_mem_toDigits (by decide) (by decide) h
  revert hdigit
  decide

/-- Only the name of a table can need escapes. -/
theorem clean_names_iff (p : Place) :
    (∀ t ∈ p.names, Pointer.Clean t) ↔ ∀ table ∈ p.table?, Pointer.Clean table := by
  have hname (a : SpecialAttr) : Pointer.Clean a.name := by cases a <;> decide
  have hfixed : ∀ t ∈ ["schema_version", "caps", "layout", "code", "pos", "tables", "ptables", "min",
      "params"], Pointer.Clean t := by decide
  simp only [List.forall_mem_cons] at hfixed
  cases p <;> simp [names, table?, clean_decimal, hname, hfixed]

end Place

theorem Problem.pointer_eq (p : Problem) : p.pointer = Pointer.raw p.place.names := by
  rw [← String.toList_inj, Pointer.toList_raw]
  cases p <;>
    simp [pointer, paramPointer, place, Place.names]

namespace Manifest

variable {m : Manifest}

theorem exists_value {p : Problem} (h : p ∈ m.problems) : ∃ v, p.place.value? m = some v := by
  rcases mem_problems_iff.1 h with ⟨-, rfl⟩ | ⟨e, -, rfl⟩ | hlayout | ⟨table, t, ht, hp⟩ | ⟨table, t, ht, hp⟩
  · exact ⟨_, rfl⟩
  · exact ⟨_, rfl⟩
  · rcases Layout.mem_problems_iff.1 hlayout with ⟨a, -, rfl⟩ | ⟨a, b, -, -, rfl⟩ | ⟨a, -, -, rfl⟩ <;>
      exact ⟨_, rfl⟩
  · obtain ⟨pos, code, ⟨hcode, -⟩, rfl⟩ := Table.mem_problems_iff.1 hp
    simp only [Problem.place, Place.value?, Option.bind_eq_bind, ht, Option.bind_some, hcode]
    exact ⟨_, rfl⟩
  · rcases ParamTable.mem_problems_iff.1 hp with ⟨-, rfl⟩ | ⟨slot, q, ⟨hq, -⟩, hmisplaced⟩
    · simp only [Problem.place, Place.value?, ht]
      exact ⟨_, rfl⟩
    · cases hmisplaced <;>
        (simp only [Problem.place, Place.value?, Option.bind_eq_bind, ht, Option.bind_some, hq]
         exact ⟨_, rfl⟩)

/-- A diagnostic is about a value of the manifest's JSON form, and the escaped pointer of its place leads
there. The diagnostic's own pointer is one for that place iff the name of the table needs no escapes. -/
theorem pointer_of_mem_validate {d : Diagnostic} (h : d ∈ m.validate) :
    ∃ p ∈ m.problems, d = p.toDiagnostic ∧ ∃ v, p.place.value? m = some v ∧
      m.toJson.resolve? (Pointer.write p.place.names) = some v ∧
      (Pointer.read? d.pointer = some p.place.names ↔ ∀ table ∈ p.place.table?, Pointer.Clean table) ∧
      ((∀ table ∈ p.place.table?, Pointer.Clean table) → m.toJson.resolve? d.pointer = some v) := by
  obtain ⟨p, hp, rfl⟩ := List.mem_map.1 h
  obtain ⟨v, hv⟩ := exists_value hp
  have hlead : m.toJson.resolve? (Pointer.write p.place.names) = some v := by
    rw [resolve?_write, p.place.at?_names, hv]
  have hpointer : p.toDiagnostic.pointer = Pointer.write p.place.names ↔
      ∀ table ∈ p.place.table?, Pointer.Clean table := by
    rw [show p.toDiagnostic.pointer = p.pointer from rfl, p.pointer_eq, Pointer.raw_eq_write_iff,
      p.place.clean_names_iff]
  refine ⟨p, hp, rfl, v, hv, hlead, Pointer.read?_eq_some_iff.trans hpointer, fun hclean => ?_⟩
  rw [hpointer.2 hclean]
  exact hlead

/-- Three tables with a repeated code each. The name of the second, read as a token, is that of the
first. -/
def astray : Manifest where
  schemaVersion := supportedVersion
  caps := "full"
  layout := ⟨⟨0, 1⟩, ⟨1, 2⟩, ⟨2, 3⟩, ⟨3, 4⟩, ⟨4, 5⟩, ⟨5, 6⟩, 3⟩
  tables := .ofList [("a/b", ⟨#[8, 8]⟩), ("a~1b", ⟨#[7, 7]⟩), ("c", ⟨#[9, 9]⟩)]
  paramTables := .empty

theorem pointer_of_mem_validate_clean :
    ∃ d ∈ astray.validate, d.pointer = "/tables/c/1" ∧
      ∃ v, (Place.entry "c" 1).value? astray = some v ∧ astray.toJson.resolve? d.pointer = some v := by
  have hd : (Problem.repeatedAttribute "c" 1 9).toDiagnostic ∈ astray.validate :=
    List.mem_map_of_mem (by decide)
  obtain ⟨p, hp, heq, v, hv, -, -, hresolve⟩ := pointer_of_mem_validate hd
  have hpointer : p.pointer = "/tables/c/1" := (congrArg Diagnostic.pointer heq).symm
  have hproblem : p = .repeatedAttribute "c" 1 9 := by
    have hall : ∀ p ∈ astray.problems, p.pointer = "/tables/c/1" → p = .repeatedAttribute "c" 1 9 := by
      decide
    exact hall p hp hpointer
  subst hproblem
  exact ⟨_, hd, rfl, v, hv, hresolve (by decide)⟩

/-- The pointer to the first table leads nowhere, and the pointer to the second into the first. -/
theorem pointers_astray :
    astray.validate.map Diagnostic.pointer = ["/tables/a/b/1", "/tables/a~1b/1", "/tables/c/1"] ∧
    (Place.entry "a/b" 1).value? astray = some (.ofNat 8) ∧
    astray.toJson.resolve? "/tables/a/b/1" = none ∧
    (Place.entry "a~1b" 1).value? astray = some (.ofNat 7) ∧
    astray.toJson.resolve? "/tables/a~1b/1" = some (.ofNat 8) :=
  ⟨by decide, rfl, rfl, rfl, rfl⟩

end Manifest

end ObjectRuntime
