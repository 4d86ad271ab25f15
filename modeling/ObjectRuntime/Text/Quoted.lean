import ObjectRuntime.Text.CharacterClass
import ObjectRuntime.Text.Digits

/-! Quoted text as it stands in messages: double quotes, a backslash before quotes and backslashes,
short escapes for common controls, and the code point in braces for everything that would not show. -/

namespace ObjectRuntime.Text

def escapeCode (c : Char) : List Char := '\\' :: 'u' :: '\x7b' :: hexNumber c.toNat ++ ['\x7d']

def escapeShown (c : Char) : List Char :=
  if c = '"' ∨ c = '\\' then ['\\', c]
  else if c = '\n' then ['\\', 'n']
  else if c = '\r' then ['\\', 'r']
  else if c = '\t' then ['\\', 't']
  else if c.toNat = 0 then ['\\', '0']
  else if isUnprintable c || isExtending c then escapeCode c
  else [c]

def quote (cs : List Char) : List Char := '"' :: cs.flatMap escapeShown ++ ['"']

def quoted (s : String) : String := String.ofList (quote s.toList)

end ObjectRuntime.Text
