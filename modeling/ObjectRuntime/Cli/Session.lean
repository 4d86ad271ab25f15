import ObjectRuntime.Cli.Arguments
import ObjectRuntime.Digest.Sha256
import ObjectRuntime.Host.FileSystem
import ObjectRuntime.Manifest.Program
import ObjectRuntime.Manifest.Read
import ObjectRuntime.Raise
import ObjectRuntime.Report

/-! What the commands do. A session is all that a command does to the outside: it reads or writes a file, or
writes to standard output or flushes it, and goes on with the answer, or it ends with an exit code and what else
is to be printed. So the commands are plain functions, and may be run on the files of a host or on a file system
in memory. -/

namespace ObjectRuntime.Cli

/-- A failure of the operating system, in its words. -/
structure Failure where
  text : String
deriving DecidableEq, Repr

structure Outcome where
  exit : Nat
  stdout : String
  stderr : String
deriving DecidableEq, Repr

inductive Session where
  | done (outcome : Outcome)
  | readFile (path : String) (next : Except Failure (List UInt8) → Session)
  | writeFile (path : String) (bytes : List UInt8) (next : Except Failure Unit → Session)
  | writeOut (text : String) (next : Except Failure Unit → Session)
  | flushOut (next : Except Failure Unit → Session)

/-- Ends with exit code 2 and one line of complaint. -/
def complain (message : String) : Session := .done ⟨2, "", message ++ "\n"⟩

/-- A report as one line. -/
def line (j : Json) : String := j.text ++ "\n"

/-- Prints a report and ends, with exit code 1 if it is not ok. -/
def print (ok : Bool) (j : Json) : Session :=
  .writeOut (line j) fun
    | .ok () => .flushOut fun
      | .ok () => .done ⟨if ok then 0 else 1, "", ""⟩
      | .error e => complain s!"flush stdout: {e.text}"
    | .error e => complain s!"write stdout: {e.text}"

/-- Prints a report, or writes to the file `out` what would be printed. -/
def emit (ok : Bool) (j : Json) : Option String → Session
  | none => print ok j
  | some path => .writeFile path (Text.bytes (line j)) fun
    | .ok () => .done ⟨if ok then 0 else 1, "", ""⟩
    | .error e => complain s!"write: {path}: {e.text}"

/-- The diagnostic of a manifest that cannot be read. -/
def unreadable (bs : List UInt8) (e : Json.ReadError) : Diagnostic :=
  { Diagnostic.error "TARN-LAYOUT-0000" "" (Manifest.readFailure bs e) with stage := .load }

/-- The report on the contents of a manifest file. -/
def layoutReport (bs : List UInt8) : Report :=
  let report := match Manifest.ofBytes bs with
    | .ok m =>
      ((Report.empty.withDiagnostics m.validate).withMetadata "tables" (.ofNat m.tables.size)).withMetadata
        "ptables" (.ofNat m.paramTables.size)
    | .error e => Report.empty.withDiagnostics [unreadable bs e]
  report.withMetadata "manifest_sha256" (.str (Text.hex (Digest.sha256 bs)))

def checkLayout (path : String) (out : Option String) : Session :=
  .readFile path fun
    | .ok bs => let r := layoutReport bs; emit r.ok r.toJson out
    | .error e => complain s!"read manifest: {path}: {e.text}"

def capabilityReport (profiles : List Profile) (env : Option CapabilitySet) : Json :=
  .obj <|
    [("schema_version", .str "tarn.caps.report@0.1.0"),
      ("capabilities", Json.strs (Capability.all.map Capability.name)),
      ("profiles", .arr (profiles.map fun p =>
        .obj [("name", .str p.name), ("caps", Json.strs p.capabilities.names)]))] ++
    (env.map fun s => ("env", Json.strs s.names)).toList

def listCapabilities (profile : Option Profile) (setting : Setting) : Session :=
  let profiles := match profile with
    | some p => [p]
    | none => Profile.all
  match setting.text? with
  | none => print true (capabilityReport profiles none)
  | some raw =>
    match CapabilitySet.parse raw with
    | .ok s => print true (capabilityReport profiles (some s))
    | .error e => complain s!"{capabilityVariable}={Text.quoted raw}: {e.message}"

/-- A report on a text, with the outcome of an operation on it. -/
def textReport (op text : String) (outcome : Option (Except String String)) : Json :=
  let bytes := (Text.bytes text).toArray
  let (ok, more) := match outcome with
    | none => (true, [])
    | some (.ok result) => (true, [("result", Json.str result)])
    | some (.error e) => (false, [("error", Json.str e)])
  .obj <|
    [("schema_version", .str "tarn.text.report@0.1.0"), ("op", .str op), ("ok", .bool ok),
      ("bytes", .ofNat bytes.size), ("code_points", .ofNat (Text.length bytes))] ++ more

def textSubstr (text : String) (start : Int64) (stop : Option Int64) (step : Int64) : Session :=
  let bytes := (Text.bytes text).toArray
  let stop := stop.getD (Int64.ofNat (Text.length bytes))
  match Text.substring bytes start stop step with
  | .ok out =>
    print true (textReport "substr" text (some (.ok (String.ofList (Text.decodeLossy out.toList)))))
  | .error e =>
    match e.halt with
    | .raised r => print false (textReport "substr" text (some (.error r.describe)))
    | _ => .done ⟨101, "", ""⟩

/-- The name of the program and its version. -/
def versionLine : String := "tarn 0.1.0\n"

/-- Runs a command; `setting` is the capability list of the environment. -/
def run (setting : Setting) : Command → Session
  | .version => .done ⟨0, versionLine, ""⟩
  | .checkLayout path out => checkLayout path out
  | .listCapabilities profile => listCapabilities profile setting
  | .textLength text => print true (textReport "len" text none)
  | .textSubstr text start stop step => textSubstr text start stop step

/-- The session of a command line. -/
def start (setting : Setting) (args : List String) : Session :=
  match command args with
  | .ok c => run setting c
  | .error e => complain e.message

/-- What an error number means. -/
def errnoText (e : Errno) : String :=
  let words :=
    if e = .noEntry then "No such file or directory"
    else if e = .badDescriptor then "Bad file descriptor"
    else if e = .alreadyExists then "File exists"
    else if e = .notDirectory then "Not a directory"
    else if e = .isDirectory then "Is a directory"
    else if e = .nameTooLong then "File name too long"
    else "Invalid argument"
  s!"{words} (os error {e.code.toInt})"

def failureOf : FileSystem.FileError → Failure
  | .errno e => ⟨errnoText e⟩
  | .zeroByte => ⟨"file name contained an unexpected NUL byte"⟩

/-- How standard output answers when it is written to, and flushed. -/
structure StandardOutput where
  write : String → Except Failure Unit
  flush : Except Failure Unit

/-- Standard output that takes whatever is written. -/
def StandardOutput.ready : StandardOutput := ⟨fun _ => .ok (), .ok ()⟩

/-- Runs a session on a file system in memory. A text that standard output does not take is not printed. -/
def Session.runOn (stdout : StandardOutput) (fs : FileSystem) : Session → Outcome × FileSystem
  | .done outcome => (outcome, fs)
  | .readFile path next => runOn stdout fs (next ((fs.contentsOf (Text.bytes path)).mapError failureOf))
  | .writeFile path bytes next =>
    match fs.setContents (Text.bytes path) bytes with
    | .ok fs => runOn stdout fs (next (.ok ()))
    | .error e => runOn stdout fs (next (.error (failureOf e)))
  | .writeOut text next =>
    match stdout.write text with
    | .ok () =>
      let (outcome, fs) := runOn stdout fs (next (.ok ()))
      ({ outcome with stdout := text ++ outcome.stdout }, fs)
    | .error e => runOn stdout fs (next (.error e))
  | .flushOut next => runOn stdout fs (next stdout.flush)

end ObjectRuntime.Cli
