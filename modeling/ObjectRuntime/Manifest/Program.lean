import ObjectRuntime.Manifest.Problem
import ObjectRuntime.Setting

/-! Programs. A program is a manifest without problems together with the capabilities of its build,
which the environment may set in place of the manifest. -/

namespace ObjectRuntime

structure Program where
  layout : Layout
  capabilities : CapabilitySet
  tables : NameMap Table
  paramTables : NameMap ParamTable
deriving DecidableEq

inductive ProgramError where
  | invalid (errors : List Diagnostic)
  | capabilities (e : UnknownCapability)

/-- The environment variable that sets the capabilities. -/
def capabilityVariable : String := "TARN_CAPS"

def Diagnostic.line (d : Diagnostic) : String := s!"{d.code}: {d.message} ({d.pointer})"

def ProgramError.message : ProgramError → String
  | .invalid errors => "invalid layout manifest:\n" ++ "\n".intercalate (errors.map Diagnostic.line)
  | .capabilities e => s!"{capabilityVariable}/caps: {e.message}"

/-- Makes a program of a manifest. A capability list that the environment sets comes in place of the manifest's;
where it sets something that is no text, the manifest's stays. -/
def Manifest.toProgram (m : Manifest) (setting : Setting) : Except ProgramError Program :=
  let errors := m.validate.filter (·.severity = .error)
  if errors.isEmpty then
    match CapabilitySet.parse (setting.text?.getD m.caps) with
    | .ok capabilities => .ok ⟨m.layout, capabilities, m.tables, m.paramTables⟩
    | .error e => .error (.capabilities e)
  else .error (.invalid errors)

end ObjectRuntime
