import ObjectRuntime.Decimal.Notation
import ObjectRuntime.NameMap
import ObjectRuntime.Text.Utf8
import ObjectRuntime.Text.Digits

/-! JSON values and their compact text. Members of an object stand in the order they are to be
written; a value taken from a document has them in the order of their names, each name once. -/

namespace ObjectRuntime

inductive Json where
  | null
  | bool (b : Bool)
  | int (n : Int)
  /-- A double, by its bits. -/
  | float (bits : UInt64)
  | str (s : String)
  | arr (items : List Json)
  | obj (members : List (String × Json))
deriving BEq, Repr, Inhabited

namespace Json

def ofNat (n : Nat) : Json := .int n

def strs (ss : List String) : Json := .arr (ss.map .str)

/-- The object with these members in the order of their names; a repeated name keeps its last value. -/
def ofMembers (ms : List (String × Json)) : Json := .obj (NameMap.ofList ms).entries

def ofMap (m : NameMap Json) : Json := .obj m.entries

def member? (name : String) : Json → Option Json
  | .obj ms => ms.lookup name
  | _ => none

def escapeChar (c : Char) : List Char :=
  if c = '"' then ['\\', '"']
  else if c = '\\' then ['\\', '\\']
  else if c.toNat = 0x08 then ['\\', 'b']
  else if c.toNat = 0x09 then ['\\', 't']
  else if c.toNat = 0x0A then ['\\', 'n']
  else if c.toNat = 0x0C then ['\\', 'f']
  else if c.toNat = 0x0D then ['\\', 'r']
  else if c.toNat < 0x20 then
    ['\\', 'u', '0', '0', Text.hexDigit (c.toNat / 16), Text.hexDigit c.toNat]
  else [c]

def quote (s : String) : List Char := '"' :: s.toList.flatMap escapeChar ++ ['"']

def integer (n : Int) : List Char :=
  if n < 0 then '-' :: Nat.toDigits 10 n.natAbs else Nat.toDigits 10 n.natAbs

mutual

/-- The text without any blanks. -/
def compact : Json → List Char
  | .null => ['n', 'u', 'l', 'l']
  | .bool true => ['t', 'r', 'u', 'e']
  | .bool false => ['f', 'a', 'l', 's', 'e']
  | .int n => integer n
  | .float bits => (Decimal.document.write bits).toList
  | .str s => quote s
  | .arr items => '[' :: compactItems items ++ [']']
  | .obj members => '\x7b' :: compactMembers members ++ ['\x7d']

def compactItems : List Json → List Char
  | [] => []
  | [j] => compact j
  | j :: js => compact j ++ ',' :: compactItems js

def compactMembers : List (String × Json) → List Char
  | [] => []
  | [(k, j)] => quote k ++ ':' :: compact j
  | (k, j) :: ms => quote k ++ ':' :: compact j ++ ',' :: compactMembers ms

end

def text (j : Json) : String := String.ofList (compact j)

def toBytes (j : Json) : List UInt8 := Text.encode (compact j)

end Json
end ObjectRuntime
