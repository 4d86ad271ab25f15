import ObjectRuntime.Json.Document
import ObjectRuntime.Text.Quoted

/-! Reading documents against a shape. Readers go through a value in the order of its text and stop at
the first thing wrong with it. A record is read from an object, its members in any order, or from a
list of its fields in the order of their declaration. An open record reads over members it does not
know; a closed one refuses them as soon as it has read their name. -/

namespace ObjectRuntime.Json

/-- What stands where something else was expected. -/
inductive Found where
  | null
  | bool (b : Bool)
  | number (n : Number)
  | string (s : String)
  | sequence
  | map
deriving DecidableEq, Repr

def Number.describe : Number → String
  | .unsigned n => s!"integer `{n.toNat}`"
  | .negative n => s!"integer `{n.toInt}`"
  | .double bits => s!"floating point `{Decimal.document.write bits}`"

def Found.describe : Found → String
  | .null => "null"
  | .bool b => s!"boolean `{b}`"
  | .number n => n.describe
  | .string s => s!"string {Text.quoted s}"
  | .sequence => "sequence"
  | .map => "map"

inductive Mismatch where
  | missingField (name : String)
  | duplicateField (name : String)
  | unknownField (name : String) (known : List String)
  | wrongType (found : Found) (expected : String)
  | outOfRange (found : Number) (expected : String)
  | wrongLength (length : Nat) (expected : String)
deriving DecidableEq, Repr

def ticked (s : String) : String := "`" ++ s ++ "`"

def alternatives : List String → String
  | [] => "there are no fields"
  | [a] => s!"expected {ticked a}"
  | [a, b] => s!"expected {ticked a} or {ticked b}"
  | names => "expected one of " ++ ", ".intercalate (names.map ticked)

def Mismatch.message : Mismatch → String
  | .missingField name => s!"missing field {ticked name}"
  | .duplicateField name => s!"duplicate field {ticked name}"
  | .unknownField name known => s!"unknown field {ticked name}, {alternatives known}"
  | .wrongType found expected => s!"invalid type: {found.describe}, expected {expected}"
  | .outOfRange found expected => s!"invalid value: {found.describe}, expected {expected}"
  | .wrongLength length expected => s!"invalid length {length}, expected {expected}"

inductive ReadError where
  | malformed (fault : Fault)
  | mismatch (problem : Mismatch) (offset : Nat)
deriving DecidableEq, Repr

def ReadError.offset : ReadError → Nat
  | .malformed f => f.offset
  | .mismatch _ offset => offset

def ReadError.message : ReadError → String
  | .malformed f => f.reason.message
  | .mismatch problem _ => problem.message

abbrev Reader (α : Type) := Node → Except ReadError α

def orMalformed {α : Type} (x : Except Fault α) : Except ReadError α := x.mapError .malformed

/-- What a value is, and where that is known: lists and objects at their start, the rest at its end. -/
def Node.found : Node → Except Fault (Found × Nat)
  | .null stop => .ok (.null, stop)
  | .bool b stop => .ok (.bool b, stop)
  | .number l stop => (wordOf l stop).map (.number ·, stop)
  | .string s stop => s.map (.string ·, stop)
  | .array start _ => .ok (.sequence, start)
  | .object start _ => .ok (.map, start)
  | .broken b => .error b.taken

def Node.reject {α : Type} (expected : String) (n : Node) : Except ReadError α := do
  let (found, offset) ← orMalformed n.found
  .error (.mismatch (.wrongType found expected) offset)

def readText : Reader String
  | .string s _ => orMalformed s
  | n => n.reject "a string"

/-- A natural number below `bound`. -/
def readBelow (bound : Nat) (expected : String) : Reader Nat
  | .number l stop => do
    match ← orMalformed (wordOf l stop) with
    | .unsigned n =>
      if n.toNat < bound then .ok n.toNat
      else .error (.mismatch (.outOfRange (.unsigned n) expected) stop)
    | .negative n => .error (.mismatch (.outOfRange (.negative n) expected) stop)
    | .double bits => .error (.mismatch (.wrongType (.number (.double bits)) expected) stop)
  | n => n.reject expected

def readWord16 : Reader UInt16 := fun n => (readBelow UInt16.size "u16" n).map Nat.toUInt16

def readWord32 : Reader UInt32 := fun n => (readBelow UInt32.size "u32" n).map Nat.toUInt32

def readWord64 : Reader UInt64 := fun n => (readBelow UInt64.size "usize" n).map Nat.toUInt64

variable {α : Type}

def Items.readEach (read : Reader α) : Items → Except ReadError (List α)
  | .close _ => .ok []
  | .broken b => .error (.malformed b.taken)
  | .cons _ head tail => do
    let a ← read head
    return a :: (← tail.readEach read)

def readList (read : Reader α) : Reader (List α)
  | .array _ items => items.readEach read
  | n => n.reject "a sequence"

def Members.readEach (read : Reader α) : Members → Except ReadError (List (String × α))
  | .close _ => .ok []
  | .broken b => .error (.malformed b.taken)
  | .cons key _ value tail => do
    let name ← orMalformed key
    let a ← read value
    return (name, a) :: (← tail.readEach read)

def readMap (read : Reader α) : Reader (NameMap α)
  | .object _ members => (members.readEach read).map NameMap.ofList
  | n => n.reject "a map"

/-- A record with fields `ι`. -/
structure Shape (ι : Type) where
  title : String
  /-- The fields in the order of their declaration. -/
  fields : List ι
  name : ι → String
  Value : ι → Type
  read : (i : ι) → Reader (Value i)
  optional : ι → Bool
  closed : Bool

namespace Shape

variable {ι : Type} [DecidableEq ι]

/-- The fields read so far. -/
abbrev Draft (s : Shape ι) := (i : ι) → Option (s.Value i)

def Draft.set {s : Shape ι} (d : Draft s) (i : ι) (v : s.Value i) : Draft s := fun j =>
  if h : i = j then some (h ▸ v) else d j

/-- The value of a field that may not be missing. -/
def Draft.need {s : Shape ι} (d : Draft s) (i : ι) : Except ι (s.Value i) := (d i).elim (.error i) .ok

/-- The fields found among the members, and where the object ends. -/
def readMembers (s : Shape ι) (d : Draft s) : Members → Except ReadError (Draft s × Nat)
  | .close stop => .ok (d, stop)
  | .broken b => .error (.malformed b.taken)
  | .cons key stop value tail => do
    let name ← orMalformed key
    match s.fields.find? (s.name · == name) with
    | none =>
      if s.closed then .error (.mismatch (.unknownField name (s.fields.map s.name)) stop)
      else match value.fault? with
        | some f => .error (.malformed f)
        | none => readMembers s d tail
    | some i =>
      if (d i).isSome then .error (.mismatch (.duplicateField name) stop)
      else do
        let v ← s.read i value
        readMembers s (d.set i v) tail

def lengthWanted (s : Shape ι) : String := s!"struct {s.title} with {s.fields.length} elements"

/-- What is wrong where a list must close: whatever follows the last field is surplus. -/
def unclosed (f : Fault) : Fault :=
  match f.reason with
  | .endOfValue | .expectedListCommaOrEnd => { f with reason := .trailingCharacters }
  | _ => f

/-- The fields of a list, of which the first `index` have been read. Only optional fields may be
left out at its end. -/
def readItems (s : Shape ι) (d : Draft s) (index : Nat) :
    List ι → Items → Except ReadError (Draft s × Nat)
  | [], .close stop => .ok (d, stop)
  | [], .cons start _ _ => .error (.malformed ⟨.trailingCharacters, start + 1⟩)
  | [], .broken b => .error (.malformed (unclosed b.taken))
  | _ :: _, .broken b => .error (.malformed b.taken)
  | i :: rest, .close stop =>
    if s.optional i then readItems s d (index + 1) rest (.close stop)
    else .error (.mismatch (.wrongLength index s.lengthWanted) stop)
  | i :: rest, .cons _ head tail => do
    let v ← s.read i head
    readItems s (d.set i v) (index + 1) rest tail

/-- Reads the record that `finish` makes of the fields, or of which it names a missing one. -/
def reader (s : Shape ι) (finish : Draft s → Except ι α) : Reader α := fun n => do
  let (d, stop) ← match n with
    | .object _ members => s.readMembers (fun _ => none) members
    | .array _ items => s.readItems (fun _ => none) 0 s.fields items
    | n => n.reject s!"struct {s.title}"
  (finish d).mapError fun i => .mismatch (.missingField (s.name i)) stop

end Shape

/-- Reads a whole document. -/
def Document.readAs (read : Reader α) (d : Document) : Except ReadError α := do
  let a ← read d.root
  match d.excess with
  | some f => .error (.malformed f)
  | none => .ok a

end ObjectRuntime.Json
