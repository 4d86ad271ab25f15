import ObjectRuntime.Text.Blank
import ObjectRuntime.Text.Quoted

/-! Build capabilities. A program build has some of the optional subsystems and not others; what it has
is fixed when the program is set up, and every use of an optional subsystem asks for it first. A set of
capabilities is written as the name of a profile or as a list of names. -/

namespace ObjectRuntime

inductive Capability where
  | mapping
  | ioError
  | eofError
  | osError
deriving DecidableEq, Repr

namespace Capability

/-- All capabilities, in the order in which they are listed. -/
def all : List Capability := [.mapping, .ioError, .eofError, .osError]

def name : Capability → String
  | .mapping => "mapping"
  | .ioError => "io-error"
  | .eofError => "eof-error"
  | .osError => "os-error"

def ofName? (s : String) : Option Capability := all.find? (·.name = s)

/-- Reads a name with white space around it. -/
def parse? (s : String) : Option Capability := ofName? (String.ofList (Text.trim s.toList))

/-- What is said where a build lacks a capability that it needs. -/
def missingMessage (c : Capability) : String :=
  s!"program build does not include capability {Text.quoted c.name}"

end Capability

structure CapabilitySet where
  mapping : Bool
  ioError : Bool
  eofError : Bool
  osError : Bool
deriving DecidableEq, Repr

namespace CapabilitySet

def none : CapabilitySet := ⟨false, false, false, false⟩

def has (s : CapabilitySet) : Capability → Bool
  | .mapping => s.mapping
  | .ioError => s.ioError
  | .eofError => s.eofError
  | .osError => s.osError

def insert (s : CapabilitySet) : Capability → CapabilitySet
  | .mapping => { s with mapping := true }
  | .ioError => { s with ioError := true }
  | .eofError => { s with eofError := true }
  | .osError => { s with osError := true }

def ofList (cs : List Capability) : CapabilitySet := cs.foldl insert none

def full : CapabilitySet := ofList Capability.all

/-- The members, each once, in the order of `Capability.all`. -/
def toList (s : CapabilitySet) : List Capability := Capability.all.filter s.has

def names (s : CapabilitySet) : List String := s.toList.map Capability.name

/-- The set as it stands in inspected values. -/
def inspect (s : CapabilitySet) : String :=
  "\x7b" ++ ", ".intercalate (s.names.map Text.quoted) ++ "\x7d"

end CapabilitySet

/-- A named set of capabilities. -/
inductive Profile where
  | core
  | io
  | full
deriving DecidableEq, Repr

namespace Profile

def all : List Profile := [.core, .io, .full]

def name : Profile → String
  | .core => "core"
  | .io => "io"
  | .full => "full"

def ofName? (s : String) : Option Profile := all.find? (·.name = s)

def parse? (s : String) : Option Profile := ofName? (String.ofList (Text.trim s.toList))

def capabilities : Profile → CapabilitySet
  | .core => .none
  | .io => .ofList [.ioError, .eofError]
  | .full => .full

end Profile

/-- A piece of a capability list that names no capability. -/
structure UnknownCapability where
  value : String
deriving DecidableEq, Repr

def UnknownCapability.message (e : UnknownCapability) : String :=
  s!"unknown capability {Text.quoted e.value}" ++
    " (expected a profile: core, io, full; or a list of: mapping, io-error, eof-error, os-error)"

namespace CapabilitySet

/-- The pieces of a comma separated list, trimmed, blank ones left out. -/
def listed (cs : List Char) : List String :=
  (((Text.pieces ',' cs).map Text.trim).filter (!·.isEmpty)).map String.ofList

def insertNamed (s : CapabilitySet) (name : String) : Except UnknownCapability CapabilitySet :=
  match Capability.ofName? name with
  | some c => .ok (s.insert c)
  | Option.none => .error ⟨name⟩

/-- Reads a profile name or a comma separated list of capability names. -/
def parse (s : String) : Except UnknownCapability CapabilitySet :=
  let trimmed := Text.trim s.toList
  match Profile.ofName? (String.ofList trimmed) with
  | some p => .ok p.capabilities
  | Option.none => (listed trimmed).foldlM insertNamed none

end CapabilitySet
end ObjectRuntime
