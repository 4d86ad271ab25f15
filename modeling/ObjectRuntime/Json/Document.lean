import ObjectRuntime.Json.Number

/-! Documents as far as they read. A document is kept as the tree of what is written, together with
the places where writing breaks the grammar: a broken value, list or object ends in the breach that
stopped the reading. So a document can be checked against a shape in the order of its text, and the
first thing wrong with it is found, be it a fault of grammar or a mismatch of shape.

A value may be taken or passed over. Whoever takes it looks more closely, so that a breach may come
to light earlier and under another name than for one who passes over it. -/

namespace ObjectRuntime.Json

inductive Reason where
  | endOfList
  | endOfObject
  | endOfString
  | endOfValue
  | expectedColon
  | expectedListCommaOrEnd
  | expectedObjectCommaOrEnd
  | expectedWord
  | expectedValue
  | invalidEscape
  | invalidNumber
  | numberOutOfRange
  | invalidCodePoint
  | controlCharacter
  | keyNotString
  | loneSurrogate
  | endOfHexEscape
  | trailingComma
  | trailingCharacters
  | recursionLimit
deriving DecidableEq, Repr

def Reason.message : Reason → String
  | .endOfList => "EOF while parsing a list"
  | .endOfObject => "EOF while parsing an object"
  | .endOfString => "EOF while parsing a string"
  | .endOfValue => "EOF while parsing a value"
  | .expectedColon => "expected `:`"
  | .expectedListCommaOrEnd => "expected `,` or `]`"
  | .expectedObjectCommaOrEnd => "expected `,` or `\x7d`"
  | .expectedWord => "expected ident"
  | .expectedValue => "expected value"
  | .invalidEscape => "invalid escape"
  | .invalidNumber => "invalid number"
  | .numberOutOfRange => "number out of range"
  | .invalidCodePoint => "invalid unicode code point"
  | .controlCharacter => "control character (\\u0000-\\u001F) found while parsing a string"
  | .keyNotString => "key must be a string"
  | .loneSurrogate => "lone leading surrogate in hex escape"
  | .endOfHexEscape => "unexpected end of hex escape"
  | .trailingComma => "trailing comma"
  | .trailingCharacters => "trailing characters"
  | .recursionLimit => "recursion limit exceeded"

/-- A breach of the grammar and the number of bytes up to and including it. -/
structure Fault where
  reason : Reason
  offset : Nat
deriving DecidableEq, Repr

/-- A breach of the grammar, as it shows to one who takes the value and to one who passes over it. -/
structure Breach where
  taken : Fault
  passed : Fault
deriving DecidableEq, Repr

/-- A breach that shows alike to both. -/
def Fault.breach (f : Fault) : Breach := ⟨f, f⟩

/-- A string between its quotes: its text, or the fault that keeps it from being taken. -/
abbrev Spelling := Except Fault String

mutual

inductive Node where
  | null (stop : Nat)
  | bool (b : Bool) (stop : Nat)
  | number (l : Lexeme) (stop : Nat)
  | string (s : Spelling) (stop : Nat)
  | array (start : Nat) (items : Items)
  | object (start : Nat) (members : Members)
  | broken (breach : Breach)

inductive Items where
  | close (stop : Nat)
  | broken (breach : Breach)
  | cons (start : Nat) (head : Node) (tail : Items)

inductive Members where
  | close (stop : Nat)
  | broken (breach : Breach)
  /-- The name may be refused at `stop`. -/
  | cons (key : Spelling) (stop : Nat) (value : Node) (tail : Members)

end

instance : Inhabited Node := ⟨.null 0⟩

/-- A value, and the fault of what follows it if anything does. -/
structure Document where
  root : Node
  excess : Option Fault

mutual

/-- The first fault of a value that is passed over: numbers may be of any size and strings may spell
anything. -/
def Node.fault? : Node → Option Fault
  | .array _ items => items.fault?
  | .object _ members => members.fault?
  | .broken b => some b.passed
  | _ => none

def Items.fault? : Items → Option Fault
  | .close _ => none
  | .broken b => some b.passed
  | .cons _ head tail => head.fault?.or tail.fault?

def Members.fault? : Members → Option Fault
  | .close _ => none
  | .broken b => some b.passed
  | .cons _ _ value tail => value.fault?.or tail.fault?

end

/-- The value of a number that ends at `stop`. An exponent is found too large at the digit that makes
it so. -/
def wordOf (l : Lexeme) (stop : Nat) : Except Fault Number :=
  match l.value? with
  | some v => .ok v
  | none => .error ⟨.numberOutOfRange, stop - l.unreadDigits⟩

mutual

/-- The value of a document in which nothing is passed over. Lists and objects may nest to a depth below
`depth`. -/
def Node.value (depth : Nat) : Node → Except Fault Json
  | .null _ => .ok .null
  | .bool b _ => .ok (.bool b)
  | .number l stop => (wordOf l stop).map Number.toJson
  | .string s _ => s.map .str
  | .array start items =>
    if depth ≤ 1 then .error ⟨.recursionLimit, start⟩
    else do return .arr (← items.values (depth - 1))
  | .object start members =>
    if depth ≤ 1 then .error ⟨.recursionLimit, start⟩
    else do return ofMembers (← members.values (depth - 1))
  | .broken b => .error b.taken

def Items.values (depth : Nat) : Items → Except Fault (List Json)
  | .close _ => .ok []
  | .broken b => .error b.taken
  | .cons _ head tail => do return (← head.value depth) :: (← tail.values depth)

def Members.values (depth : Nat) : Members → Except Fault (List (String × Json))
  | .close _ => .ok []
  | .broken b => .error b.taken
  | .cons key _ value tail => do
    let name ← key
    let v ← value.value depth
    return (name, v) :: (← tail.values depth)

end

/-- The greatest depth of nesting that a reader follows, plus one. -/
def depthLimit : Nat := 128

def Document.value (d : Document) : Except Fault Json := do
  let v ← d.root.value depthLimit
  match d.excess with
  | some f => .error f
  | none => .ok v

end ObjectRuntime.Json
