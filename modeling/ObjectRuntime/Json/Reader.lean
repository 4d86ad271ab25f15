import ObjectRuntime.Json.Document

/-! Reading a document from bytes. Values, items and members are three functions that call one
another on one measure of fuel; every byte is looked at by at most two of them, so twice the number of
bytes is always enough. Each returns what it has read, and where to go on or the fault it stopped at. -/

namespace ObjectRuntime.Json

/-- The bytes still to be read and the number already read. -/
structure Input where
  offset : Nat
  rest : List UInt8
deriving Repr

namespace Input

def ofBytes (bs : List UInt8) : Input := ⟨0, bs⟩

def drop (i : Input) (n : Nat) : Input := ⟨i.offset + n, i.rest.drop n⟩

def isBlank (b : UInt8) : Bool := b == 0x20 || b == 0x0A || b == 0x09 || b == 0x0D

def skipBlanks (i : Input) : Input := i.drop (i.rest.takeWhile isBlank).length

/-- A fault at the next byte. -/
def fault (i : Input) (reason : Reason) : Fault :=
  ⟨reason, if i.rest.isEmpty then i.offset else i.offset + 1⟩

/-- A fault at the last byte read. -/
def faultBefore (i : Input) (reason : Reason) : Fault := ⟨reason, i.offset⟩

end Input

def digitOf? (b : UInt8) : Option Nat :=
  if 0x30 ≤ b ∧ b ≤ 0x39 then some (b.toNat - 0x30) else none

def digits (bs : List UInt8) : List Nat := (bs.takeWhile (digitOf? · |>.isSome)).filterMap digitOf?

/-- The breach where a digit must stand and none does. -/
def Input.noDigit (i : Input) : Breach :=
  ⟨i.fault (if i.rest.isEmpty then .endOfValue else .invalidNumber), i.fault .invalidNumber⟩

/-- The digits at the front, of which there must be at least one. -/
def someDigits (i : Input) : Except Breach (List Nat × Input) :=
  let ds := digits i.rest
  if ds.isEmpty then .error i.noDigit else .ok (ds, i.drop ds.length)

def lexWhole (i : Input) : Except Breach (List Nat × Input) := do
  let (ds, j) ← someDigits i
  if ds.head? = some 0 ∧ 1 < ds.length then .error ((i.drop 1).fault .invalidNumber).breach
  else return (ds, j)

def lexFraction (i : Input) : Except Breach (List Nat × Input) :=
  match i.rest with
  | 0x2E :: _ => someDigits (i.drop 1)
  | _ => .ok ([], i)

def lexExponent (i : Input) : Except Breach (Option (Bool × List Nat) × Input) :=
  match i.rest with
  | b :: rest =>
    if b = 0x65 ∨ b = 0x45 then
      let (down, j) := match rest with
        | 0x2B :: _ => (false, i.drop 2)
        | 0x2D :: _ => (true, i.drop 2)
        | _ => (false, i.drop 1)
      (someDigits j).map fun (ds, k) => (some (down, ds), k)
    else .ok (none, i)
  | [] => .ok (none, i)

/-- A number, from its sign or its first digit. -/
def lexNumber (i : Input) : Except Breach (Lexeme × Input) := do
  let negative := i.rest.head? = some 0x2D
  let (whole, i) ← lexWhole (if negative then i.drop 1 else i)
  let (fraction, i) ← lexFraction i
  let (exponent, i) ← lexExponent i
  return (⟨negative, whole, fraction, exponent⟩, i)

def hexOf? (b : UInt8) : Option Nat := Text.hexValue? (Char.ofNat b.toNat)

def hexUnit? : List UInt8 → Option Nat
  | [a, b, c, d] => do
    return (((← hexOf? a) * 16 + (← hexOf? b)) * 16 + (← hexOf? c)) * 16 + (← hexOf? d)
  | _ => none

/-- What a short escape stands for. -/
def shortEscape? (b : UInt8) : Option UInt8 :=
  if b = 0x22 ∨ b = 0x5C ∨ b = 0x2F then some b
  else if b = 0x62 then some 0x08
  else if b = 0x66 then some 0x0C
  else if b = 0x6E then some 0x0A
  else if b = 0x72 then some 0x0D
  else if b = 0x74 then some 0x09
  else none

def isHighSurrogate (n : Nat) : Bool := 0xD800 ≤ n && n < 0xDC00

def isLowSurrogate (n : Nat) : Bool := 0xDC00 ≤ n && n < 0xE000

/-- The scalar that two surrogates make. -/
def pair (high low : Nat) : Char := Char.ofNat (0x10000 + (high - 0xD800) * 1024 + (low - 0xDC00))

/-- Why no low surrogate follows a high one whose escape ends at `offset`. -/
def brokenPair (offset : Nat) : List UInt8 → Fault
  | [] => ⟨.endOfString, offset⟩
  | [0x5C] => ⟨.endOfString, offset + 1⟩
  | 0x5C :: 0x75 :: a :: b :: c :: d :: _ =>
    ⟨if (hexUnit? [a, b, c, d]).isSome then .loneSurrogate else .invalidEscape, offset + 6⟩
  | 0x5C :: 0x75 :: rest => ⟨.endOfString, offset + 2 + rest.length⟩
  | 0x5C :: _ :: _ => ⟨.endOfHexEscape, offset + 2⟩
  | _ :: _ => ⟨.endOfHexEscape, offset + 1⟩

/-- The UTF-8 bytes that a string spells, up to its closing quote. Two surrogate escapes in a row make
one scalar; a surrogate alone spells nothing. -/
def takeBytes (offset : Nat) : List UInt8 → Except Fault (List UInt8)
  | [] => .error ⟨.endOfString, offset⟩
  | 0x22 :: _ => .ok []
  | 0x5C :: 0x75 :: a :: b :: c :: d :: rest =>
    match hexUnit? [a, b, c, d] with
    | none => .error ⟨.invalidEscape, offset + 6⟩
    | some n =>
      if isLowSurrogate n then .error ⟨.loneSurrogate, offset + 6⟩
      else if isHighSurrogate n then
        match rest with
        | 0x5C :: 0x75 :: e :: f :: g :: h :: more =>
          match (hexUnit? [e, f, g, h]).filter isLowSurrogate with
          | some m => do return String.utf8EncodeChar (pair n m) ++ (← takeBytes (offset + 12) more)
          | none => .error (brokenPair (offset + 6) (0x5C :: 0x75 :: e :: f :: g :: h :: more))
        | other => .error (brokenPair (offset + 6) other)
      else do return String.utf8EncodeChar (Char.ofNat n) ++ (← takeBytes (offset + 6) rest)
  | 0x5C :: 0x75 :: rest => .error ⟨.endOfString, offset + 2 + rest.length⟩
  | 0x5C :: e :: rest =>
    match shortEscape? e with
    | none => .error ⟨.invalidEscape, offset + 2⟩
    | some b => do return b :: (← takeBytes (offset + 2) rest)
  | b :: rest =>
    if b = 0x5C then .error ⟨.endOfString, offset + 1⟩
    else if b < 0x20 then .error ⟨.controlCharacter, offset + 1⟩
    else do return b :: (← takeBytes (offset + 1) rest)

/-- The text of a string from the bytes that it spells. Whether they are UTF-8 is looked at last, and a
fault is placed by counting them back from the end of the string at `stop`. -/
def textOf (stop : Nat) (spelled : List UInt8) : Spelling :=
  match Text.decode? spelled with
  | some cs => .ok (String.ofList cs)
  | none => .error ⟨.invalidCodePoint, stop - (spelled.length - Text.validWidth spelled)⟩

/-- Goes past the closing quote of a string. -/
def passString (offset : Nat) : List UInt8 → Except Fault Input
  | [] => .error ⟨.endOfString, offset⟩
  | 0x22 :: rest => .ok ⟨offset + 1, rest⟩
  | 0x5C :: 0x75 :: a :: b :: c :: d :: rest =>
    if (hexUnit? [a, b, c, d]).isSome then passString (offset + 6) rest
    else .error ⟨.invalidEscape, offset + 6⟩
  | 0x5C :: 0x75 :: rest => .error ⟨.endOfString, offset + 2 + rest.length⟩
  | 0x5C :: e :: rest =>
    if (shortEscape? e).isSome then passString (offset + 2) rest
    else .error ⟨.invalidEscape, offset + 2⟩
  | b :: rest =>
    if b = 0x5C then .error ⟨.endOfString, offset + 1⟩
    else if b < 0x20 then .error ⟨.controlCharacter, offset⟩
    else passString (offset + 1) rest

/-- A string, from its opening quote. -/
def lexString (i : Input) : Except Breach (Spelling × Input) :=
  let spelled := takeBytes (i.offset + 1) (i.rest.drop 1)
  match passString (i.offset + 1) (i.rest.drop 1) with
  | .ok j => .ok (spelled.bind (textOf j.offset), j)
  | .error f => .error ⟨match spelled with
      | .error g => g
      | .ok _ => f, f⟩

/-- The bytes of `word` from where it must stand. -/
def lexWord (word : List UInt8) (i : Input) : Except Fault Input :=
  match word with
  | [] => .ok i
  | b :: bs => match i.rest with
    | [] => .error (i.faultBefore .endOfValue)
    | c :: _ => if c = b then lexWord bs (i.drop 1) else .error ((i.drop 1).faultBefore .expectedWord)

/-- What has been read, and where reading goes on or why it stops. -/
abbrev Reading (α : Type) := α × Except Breach Input

def Reading.ofBreach {α : Type} (broken : Breach → α) (b : Breach) : Reading α := (broken b, .error b)

def readWord (word : List UInt8) (node : Nat → Node) (i : Input) : Reading Node :=
  match lexWord word i with
  | .ok j => (node j.offset, .ok j)
  | .error f => .ofBreach .broken f.breach

def readNumber (i : Input) : Reading Node :=
  match lexNumber i with
  | .ok (l, j) => (.number l j.offset, .ok j)
  | .error b => .ofBreach .broken b

def readString (i : Input) : Reading Node :=
  match lexString i with
  | .ok (s, j) => (.string s j.offset, .ok j)
  | .error b => .ofBreach .broken b

/-- The step from one item to the next: `none` at the end of the list. One who passes over a list takes
what follows a comma for an item. -/
def separateItems (opening : Bool) (i : Input) : Except Breach (Option Input) :=
  match i.rest with
  | [] => .error (i.fault .endOfList).breach
  | b :: _ =>
    if b = 0x5D then .ok none
    else if opening then .ok (some i)
    else if b = 0x2C then
      let j := (i.drop 1).skipBlanks
      match j.rest with
      | [] => .error (j.fault .endOfValue).breach
      | c :: _ =>
        if c = 0x5D then .error ⟨j.fault .trailingComma, j.fault .expectedValue⟩ else .ok (some j)
    else .error (i.fault .expectedListCommaOrEnd).breach

/-- The step from one member to the next key: `none` at the end of the object. One who passes over an
object takes what follows a comma for a key. -/
def separateMembers (opening : Bool) (i : Input) : Except Breach (Option Input) :=
  match i.rest with
  | [] => .error (i.fault .endOfObject).breach
  | b :: _ =>
    if b = 0x7D then .ok none
    else if opening then
      if b = 0x22 then .ok (some i) else .error (i.fault .keyNotString).breach
    else if b = 0x2C then
      let j := (i.drop 1).skipBlanks
      match j.rest with
      | [] => .error ⟨j.fault .endOfValue, j.fault .endOfObject⟩
      | c :: _ =>
        if c = 0x22 then .ok (some j)
        else if c = 0x7D then .error ⟨j.fault .trailingComma, j.fault .keyNotString⟩
        else .error (j.fault .keyNotString).breach
    else .error (i.fault .expectedObjectCommaOrEnd).breach

def expectColon (i : Input) : Except Fault Input :=
  match i.rest with
  | [] => .error (i.fault .endOfObject)
  | b :: _ => if b = 0x3A then .ok (i.drop 1) else .error (i.fault .expectedColon)

/-- Where a name that ends before `i` is refused: a brace that closes the object is read first. -/
def refusal (i : Input) : Nat := if i.rest.head? = some 0x7D then i.offset + 1 else i.offset

mutual

def readNode : Nat → Input → Reading Node
  | 0, i => .ofBreach .broken (i.fault .endOfValue).breach
  | fuel + 1, start =>
    let i := start.skipBlanks
    match i.rest with
    | [] => .ofBreach .broken (i.fault .endOfValue).breach
    | b :: _ =>
      if b = 0x22 then readString i
      else if b = 0x2D ∨ (digitOf? b).isSome then readNumber i
      else if b = 0x5B then
        let (items, next) := readItems fuel true (i.drop 1)
        (.array i.offset items, next)
      else if b = 0x7B then
        let (members, next) := readMembers fuel true (i.drop 1)
        (.object i.offset members, next)
      else if b = 0x6E then readWord [0x6E, 0x75, 0x6C, 0x6C] .null i
      else if b = 0x74 then readWord [0x74, 0x72, 0x75, 0x65] (.bool true) i
      else if b = 0x66 then readWord [0x66, 0x61, 0x6C, 0x73, 0x65] (.bool false) i
      else .ofBreach .broken (i.fault .expectedValue).breach

/-- The items up to the closing bracket; `opening` tells that none has been read yet. -/
def readItems : Nat → Bool → Input → Reading Items
  | 0, _, i => .ofBreach .broken (i.fault .endOfList).breach
  | fuel + 1, opening, start =>
    let i := start.skipBlanks
    match separateItems opening i with
    | .error b => .ofBreach .broken b
    | .ok none => let j := i.drop 1; (.close j.offset, .ok j)
    | .ok (some j) =>
      match readNode fuel j with
      | (head, .error b) => .ofBreach (fun c => .cons j.offset head (.broken c)) b
      | (head, .ok k) =>
        let (tail, next) := readItems fuel false k
        (.cons j.offset head tail, next)

/-- The members up to the closing brace. -/
def readMembers : Nat → Bool → Input → Reading Members
  | 0, _, i => .ofBreach .broken (i.fault .endOfObject).breach
  | fuel + 1, opening, start =>
    let i := start.skipBlanks
    match separateMembers opening i with
    | .error b => .ofBreach .broken b
    | .ok none => let j := i.drop 1; (.close j.offset, .ok j)
    | .ok (some j) =>
      match lexString j with
      | .error b => .ofBreach .broken b
      | .ok (key, k) =>
        let k := k.skipBlanks
        match expectColon k with
        | .error f => .ofBreach (fun c => .cons key (refusal k) (.broken c) (.broken c)) f.breach
        | .ok v =>
          match readNode fuel v with
          | (value, .error b) => .ofBreach (fun c => .cons key (refusal k) value (.broken c)) b
          | (value, .ok n) =>
            let (tail, next) := readMembers fuel false n
            (.cons key (refusal k) value tail, next)

end

def Document.ofBytes (bs : List UInt8) : Document :=
  match readNode (2 * bs.length + 2) (.ofBytes bs) with
  | (root, .error _) => ⟨root, none⟩
  | (root, .ok i) =>
    let i := i.skipBlanks
    ⟨root, if i.rest.isEmpty then none else some (i.fault .trailingCharacters)⟩

/-- The value that a document holds, if it is well formed throughout. -/
def read? (bs : List UInt8) : Option Json := (Document.ofBytes bs).value.toOption

/-- Line and column of an offset, lines counted from one. The column is the number of bytes of the
line up to the offset. -/
def position (bs : List UInt8) (offset : Nat) : Nat × Nat :=
  let before := bs.take offset
  (1 + before.count 0x0A, (before.reverse.takeWhile (· != 0x0A)).length)

end ObjectRuntime.Json
