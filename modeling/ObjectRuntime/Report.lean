import ObjectRuntime.Json.Reader

/-! Diagnostics and reports. A report lists its diagnostics by place, code and message, whatever the
order in which they were found; it is ok iff none of them is an error. -/

namespace ObjectRuntime

inductive Severity where
  | error
  | warning
  | info
deriving DecidableEq, Repr

def Severity.name : Severity → String
  | .error => "error"
  | .warning => "warning"
  | .info => "info"

inductive Stage where
  | load
  | validate
deriving DecidableEq, Repr

def Stage.name : Stage → String
  | .load => "load"
  | .validate => "validate"

/-- A pointer into the layout manifest. -/
structure Location where
  pointer : String
deriving DecidableEq, Repr

def Location.toJson (l : Location) : Json := .obj [("kind", .str "manifest"), ("ptr", .str l.pointer)]

/-- The members with this name, of which a location must have exactly one. -/
def membersNamed (name : String) (ms : List (String × Json)) : List Json :=
  (ms.filter (·.1 = name)).map Prod.snd

def Location.ofParts? : Json → Json → Option Location
  | .str kind, .str pointer => if kind = "manifest" then some ⟨pointer⟩ else none
  | _, _ => none

/-- Reads an object with one kind and one pointer, its other members being read over, or a list of just
the kind and the pointer. -/
def Location.read? (bs : List UInt8) : Option Location :=
  let d := Json.Document.ofBytes bs
  match d.root, d.excess with
  | .object _ members, none => do
    let ms ← (members.values (Json.depthLimit - 1)).toOption
    match membersNamed "kind" ms, membersNamed "ptr" ms with
    | [kind], [pointer] => ofParts? kind pointer
    | _, _ => none
  | .array _ items, none => do
    match ← (items.values (Json.depthLimit - 1)).toOption with
    | [kind, pointer] => ofParts? kind pointer
    | _ => none
  | _, _ => none

structure Diagnostic where
  code : String
  severity : Severity
  stage : Stage
  message : String
  location : Option Location
  notes : List String
  data : NameMap Json

namespace Diagnostic

/-- An error found while validating. -/
def error (code pointer message : String) : Diagnostic :=
  ⟨code, .error, .validate, message, some ⟨pointer⟩, [], .empty⟩

def pointer (d : Diagnostic) : String := (d.location.map Location.pointer).getD ""

/-- By pointer, then by code, then by message. -/
def le (a b : Diagnostic) : Bool :=
  a.pointer < b.pointer ||
    (a.pointer = b.pointer && (a.code < b.code || (a.code = b.code && a.message ≤ b.message)))

def toJson (d : Diagnostic) : Json :=
  .obj <|
    [("code", .str d.code), ("severity", .str d.severity.name), ("stage", .str d.stage.name),
      ("message", .str d.message)] ++
    (d.location.map fun l => ("loc", l.toJson)).toList ++
    (if d.notes.isEmpty then [] else [("notes", Json.strs d.notes)]) ++
    (if d.data.isEmpty then [] else [("data", Json.ofMap d.data)])

end Diagnostic

structure Report where
  ok : Bool
  diagnostics : List Diagnostic
  metadata : NameMap Json

namespace Report

def schemaVersion : String := "tarn.diag@0.1.0"

def empty : Report := ⟨true, [], .empty⟩

def withDiagnostics (r : Report) (ds : List Diagnostic) : Report :=
  { r with
    ok := ds.all (·.severity != .error)
    diagnostics := ds.mergeSort Diagnostic.le }

def withMetadata (r : Report) (key : String) (value : Json) : Report :=
  { r with metadata := r.metadata.insert key value }

def toJson (r : Report) : Json :=
  .obj <|
    [("schema_version", .str schemaVersion), ("ok", .bool r.ok),
      ("diagnostics", .arr (r.diagnostics.map Diagnostic.toJson))] ++
    (if r.metadata.isEmpty then [] else [("meta", Json.ofMap r.metadata)])

end Report
end ObjectRuntime
