/-! Settings of the environment. A program is told by text; a variable that is set to anything else tells it as
little as one that is not set. -/

namespace ObjectRuntime

/-- What the environment has under a name. -/
inductive Setting where
  | unset
  /-- Set, to bytes that are no Unicode text. -/
  | notUnicode
  | text (value : String)
deriving DecidableEq, Repr

namespace Setting

def ofOption : Option String → Setting
  | none => .unset
  | some value => .text value

/-- The text that is set, if it is text. -/
def text? : Setting → Option String
  | .text value => some value
  | .unset | .notUnicode => none

@[simp] theorem text?_ofOption (given : Option String) : (ofOption given).text? = given := by
  cases given <;> rfl

end Setting

end ObjectRuntime
