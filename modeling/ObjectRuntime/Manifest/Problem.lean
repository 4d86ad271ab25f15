import ObjectRuntime.Capability
import ObjectRuntime.Manifest.Basic
import ObjectRuntime.Report

/-! What can be wrong with a manifest that reads well. Checking goes through the whole manifest and
finds every problem, so that a generator can be mended in one pass. A table or parameter is compared
with those before it, and it is the later one of two that is reported. -/

namespace ObjectRuntime

inductive Problem where
  | version (found : String)
  | capabilities (e : UnknownCapability)
  | gapCode (a : SpecialAttr)
  | sharedCode (a other : SpecialAttr) (code : UInt32)
  | outsideFunction (a : SpecialAttr) (pos size : UInt64)
  | repeatedAttribute (table : String) (pos : Nat) (code : UInt32)
  | boundsReversed (table : String) (min max : UInt32)
  | positionAtMax (table : String) (slot : Nat) (pos : UInt16) (max : UInt32)
  | contextPosition (table : String) (slot : Nat)
  | repeatedParam (table : String) (slot : Nat) (code : UInt16)
  | sharedPosition (table : String) (slot : Nat) (pos : UInt16)
deriving DecidableEq, Repr

namespace Problem

def code : Problem → String
  | .version _ => "TARN-LAYOUT-0001"
  | .capabilities _ => "TARN-LAYOUT-0002"
  | .gapCode _ => "TARN-LAYOUT-0003"
  | .outsideFunction _ _ _ => "TARN-LAYOUT-0004"
  | .sharedCode _ _ _ => "TARN-LAYOUT-0005"
  | .repeatedAttribute _ _ _ => "TARN-LAYOUT-0010"
  | .boundsReversed _ _ _ => "TARN-LAYOUT-0020"
  | .positionAtMax _ _ _ _ => "TARN-LAYOUT-0021"
  | .repeatedParam _ _ _ => "TARN-LAYOUT-0022"
  | .sharedPosition _ _ _ => "TARN-LAYOUT-0023"
  | .contextPosition _ _ => "TARN-LAYOUT-0024"

def decimal (n : Nat) : String := String.ofList (Nat.toDigits 10 n)

def paramPointer (table : String) (slot : Nat) (field : String) : String :=
  "/ptables/" ++ table ++ "/params/" ++ decimal slot ++ "/" ++ field

/-- Where the problem lies, as a path of names. -/
def pointer : Problem → String
  | .version _ => "/schema_version"
  | .capabilities _ => "/caps"
  | .gapCode a => "/layout/" ++ a.name ++ "/code"
  | .sharedCode a _ _ => "/layout/" ++ a.name ++ "/code"
  | .outsideFunction a _ _ => "/layout/" ++ a.name ++ "/pos"
  | .repeatedAttribute table pos _ => "/tables/" ++ table ++ "/" ++ decimal pos
  | .boundsReversed table _ _ => "/ptables/" ++ table ++ "/min"
  | .positionAtMax table slot _ _ => paramPointer table slot "pos"
  | .contextPosition table slot => paramPointer table slot "pos"
  | .repeatedParam table slot _ => paramPointer table slot "code"
  | .sharedPosition table slot _ => paramPointer table slot "pos"

def message : Problem → String
  | .version found => s!"unsupported schema_version {Text.quoted found}"
  | .capabilities e => e.message
  | .gapCode a => s!"special attribute {Text.quoted a.name} has the gap code"
  | .sharedCode a other code =>
    s!"special attributes {Text.quoted other.name} and {Text.quoted a.name} share code {code.toNat}"
  | .outsideFunction a pos size =>
    s!"{a.name} position {pos.toNat} lies outside the function instance (size {size.toNat})"
  | .repeatedAttribute _ _ code => s!"attribute code {code.toNat} appears more than once"
  | .boundsReversed _ min max => s!"min {min.toNat} exceeds max {max.toNat}"
  | .positionAtMax _ _ pos max => s!"parameter position {pos.toNat} is not below max {max.toNat}"
  | .contextPosition _ _ => "parameter position 0 is reserved for the context"
  | .repeatedParam _ _ code => s!"parameter code {code.toNat} appears more than once"
  | .sharedPosition _ _ pos => s!"two parameters bind position {pos.toNat}"

def notes : Problem → List String
  | .version _ => [s!"expected {Text.quoted Manifest.supportedVersion}"]
  | _ => []

def toDiagnostic (p : Problem) : Diagnostic :=
  { Diagnostic.error p.code p.pointer p.message with notes := p.notes }

end Problem

/-- The last of `seen` that has this code. -/
def lastOwner (code : UInt32) (seen : List (SpecialAttr × AttrSlot)) : Option SpecialAttr :=
  (seen.reverse.find? (·.2.code = code)).map Prod.fst

/-- Gap codes and shared codes among the special attributes, given those before them. -/
def codeProblems (seen : List (SpecialAttr × AttrSlot)) :
    List (SpecialAttr × AttrSlot) → List Problem
  | [] => []
  | (a, s) :: rest =>
    (if s.code = gapCode then [.gapCode a]
      else match lastOwner s.code seen with
        | some other => [.sharedCode a other s.code]
        | none => []) ++
    codeProblems (seen ++ [(a, s)]) rest

def Layout.problems (l : Layout) : List Problem :=
  codeProblems [] (SpecialAttr.all.map fun a => (a, l.slot a)) ++
  [SpecialAttr.args, .fn].flatMap fun a =>
    if l.functionSize ≤ (l.slot a).pos then [.outsideFunction a (l.slot a).pos l.functionSize] else []

/-- Repeated codes of a table from position `pos` on, given the codes before it. -/
def repeatedAttributes (table : String) (seen : List UInt32) (pos : Nat) :
    List UInt32 → List Problem
  | [] => []
  | code :: rest =>
    (if code ≠ gapCode ∧ code ∈ seen then [.repeatedAttribute table pos code] else []) ++
    repeatedAttributes table (code :: seen) (pos + 1) rest

def Table.problems (name : String) (t : Table) : List Problem :=
  repeatedAttributes name [] 0 t.codes.toList

/-- The problems of one parameter, given the proper parameters before it. -/
def Param.problems (table : String) (max : UInt32) (seen : List Param) (slot : Nat) (p : Param) :
    List Problem :=
  (if max.toNat ≤ p.pos.toNat then [.positionAtMax table slot p.pos max] else []) ++
  (if p.pos = 0 then [.contextPosition table slot] else []) ++
  (if p.code ∈ seen.map Param.code then [.repeatedParam table slot p.code] else []) ++
  (if p.pos ∈ seen.map Param.pos then [.sharedPosition table slot p.pos] else [])

def paramProblems (table : String) (max : UInt32) (seen : List Param) (slot : Nat) :
    List Param → List Problem
  | [] => []
  | p :: rest =>
    if p.isGap then paramProblems table max seen (slot + 1) rest
    else p.problems table max seen slot ++ paramProblems table max (p :: seen) (slot + 1) rest

def ParamTable.problems (name : String) (t : ParamTable) : List Problem :=
  (if t.max < t.min then [.boundsReversed name t.min t.max] else []) ++
  paramProblems name t.max [] 0 t.params.toList

namespace Manifest

def problems (m : Manifest) : List Problem :=
  (if m.schemaVersion = supportedVersion then [] else [.version m.schemaVersion]) ++
  (match CapabilitySet.parse m.caps with
    | .ok _ => []
    | .error e => [.capabilities e]) ++
  m.layout.problems ++
  (m.tables.entries.flatMap fun e => e.2.problems e.1) ++
  (m.paramTables.entries.flatMap fun e => e.2.problems e.1)

def validate (m : Manifest) : List Diagnostic := m.problems.map Problem.toDiagnostic

end Manifest
end ObjectRuntime
