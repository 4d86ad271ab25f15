import ObjectRuntime.Capability
import ObjectRuntime.Text.Digits

/-! Command line arguments. A command has a number of positional arguments and options with values,
given as `--name value` or `--name=value`. After `--` everything is positional. An option may stand
once, and what looks like an option is no value, except that numeric options take negative numbers. -/

namespace ObjectRuntime.Cli

structure OptionSpec where
  name : String
  numeric : Bool
deriving DecidableEq, Repr

/-- The arguments of a command, taken apart. -/
structure Parsed where
  positional : List String
  options : List (String × String)
deriving DecidableEq, Repr

def Parsed.empty : Parsed := ⟨[], []⟩

def Parsed.value? (p : Parsed) (name : String) : Option String := p.options.lookup name

def Parsed.addPositional (p : Parsed) (a : String) : Parsed :=
  { p with positional := p.positional ++ [a] }

def Parsed.addOption (p : Parsed) (name value : String) : Option Parsed :=
  if (p.value? name).isSome then none else some { p with options := p.options ++ [(name, value)] }

/-- Splits `name=value`. -/
def splitEquals (cs : List Char) : List Char × Option (List Char) :=
  match cs.dropWhile (· != '=') with
  | [] => (cs, none)
  | _ :: value => (cs.takeWhile (· != '='), some value)

def looksLikeOption : List Char → Bool
  | '-' :: _ :: _ => true
  | _ => false

/-- Whether `value` may follow the option as an argument of its own. -/
def OptionSpec.admits (o : OptionSpec) (value : String) : Bool :=
  !looksLikeOption value.toList || (o.numeric && (Text.signed? value.toList).isSome)

/-- Takes arguments apart, or gives up on the first that does not fit. -/
def parseArguments (specs : List OptionSpec) (parsed : Parsed) : List String → Option Parsed
  | [] => some parsed
  | a :: rest =>
    match a.toList with
    | '-' :: '-' :: [] => some { parsed with positional := parsed.positional ++ rest }
    | '-' :: '-' :: long =>
      let (name, inline) := splitEquals long
      match specs.find? (·.name.toList = name) with
      | none => none
      | some spec =>
        match inline with
        | some value => do
          parseArguments specs (← parsed.addOption spec.name (String.ofList value)) rest
        | none =>
          match rest with
          | [] => none
          | value :: rest =>
            if spec.admits value then do
              parseArguments specs (← parsed.addOption spec.name value) rest
            else none
    | '-' :: _ :: _ => none
    | _ => parseArguments specs (parsed.addPositional a) rest

inductive Command where
  | version
  | checkLayout (path : String) (out : Option String)
  | listCapabilities (profile : Option Profile)
  | textLength (text : String)
  | textSubstr (text : String) (start : Int64) (stop : Option Int64) (step : Int64)
deriving DecidableEq, Repr

inductive ArgumentError where
  /-- No subcommand where there must be one, of this group. -/
  | missingSubcommand (group : Option String)
  | usage
deriving DecidableEq, Repr

def ArgumentError.message : ArgumentError → String
  | .missingSubcommand none => "missing subcommand (try --help)"
  | .missingSubcommand (some group) => s!"missing {group} subcommand (try --help)"
  | .usage => "unexpected arguments"

/-- A value that an option gives, or `none` if it is not given. -/
def optional {α : Type} (read : String → Option α) : Option String → Option (Option α)
  | none => some none
  | some value => (read value).map some

def nonempty? (s : String) : Option String := if s.isEmpty then none else some s

def layoutCommand (args : List String) : Option Command := do
  let p ← parseArguments [⟨"out", false⟩] .empty args
  match p.positional with
  | [path] => return .checkLayout (← nonempty? path) (← optional nonempty? (p.value? "out"))
  | _ => none

def capsCommand (args : List String) : Option Command := do
  let p ← parseArguments [⟨"profile", false⟩] .empty args
  match p.positional with
  | [] => return .listCapabilities (← optional Profile.ofName? (p.value? "profile"))
  | _ => none

def lengthCommand (args : List String) : Option Command := do
  let p ← parseArguments [] .empty args
  match p.positional with
  | [text] => return .textLength text
  | _ => none

def number? (s : String) : Option Int64 := Text.signed? s.toList

def substrCommand (args : List String) : Option Command := do
  let p ← parseArguments [⟨"start", true⟩, ⟨"end", true⟩, ⟨"step", true⟩] .empty args
  match p.positional with
  | [text] =>
    let start ← optional number? (p.value? "start")
    let stop ← optional number? (p.value? "end")
    let step ← optional number? (p.value? "step")
    return .textSubstr text (start.getD 0) stop (step.getD 1)
  | _ => none

/-- The groups of subcommands. -/
def groups : List String := ["layout", "caps", "text"]

/-- The group whose subcommand is missing, if one is. A `--` that nothing follows is no subcommand. -/
def incomplete? : List String → Option (Option String)
  | [] | ["--"] => some none
  | [group] | [group, "--"] => if group ∈ groups then some (some group) else none
  | _ => none

def subcommand? : List String → Option Command
  | "layout" :: "check" :: rest => layoutCommand rest
  | "caps" :: "list" :: rest => capsCommand rest
  | "text" :: "len" :: rest => lengthCommand rest
  | "text" :: "substr" :: rest => substrCommand rest
  | _ => none

/-- Whether a first argument asks for the version. More short options may follow in it. -/
def asksVersion (a : String) : Bool := a = "--version" || ['-', 'V'].isPrefixOf a.toList

/-- The command that the arguments ask for. -/
def command (args : List String) : Except ArgumentError Command :=
  match incomplete? args with
  | some group => .error (.missingSubcommand group)
  | none => match subcommand? args with
    | some c => .ok c
    | none => if args.head?.any asksVersion then .ok .version else .error .usage

end ObjectRuntime.Cli
