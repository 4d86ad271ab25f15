import ObjectRuntime.Cli.Session

/-! The command line program: sessions run on the files of the host. -/

namespace ObjectRuntime.Cli

def failureText (e : IO.Error) : String :=
  match e with
  | .noFileOrDirectory _ code _ => s!"No such file or directory (os error {code})"
  | .permissionDenied _ code _ => s!"Permission denied (os error {code})"
  | .inappropriateType _ code _ => s!"Is a directory (os error {code})"
  | .resourceExhausted _ code _ => s!"No space left on device (os error {code})"
  | .resourceVanished code _ => s!"Broken pipe (os error {code})"
  | e => toString e

/-- Carries out `x` and keeps its failure as a value. -/
def attempt {α : Type} (x : IO α) : IO (Except Failure α) := do
  match ← x.toBaseIO with
  | .ok a => return .ok a
  | .error e => return .error ⟨failureText e⟩

def Session.runHere : Session → IO UInt32
  | .done outcome => do
    IO.print outcome.stdout
    IO.eprint outcome.stderr
    return outcome.exit.toUInt32
  | .readFile path next => do
    let r ← attempt (IO.FS.readBinFile path)
    runHere (next (r.map (·.data.toList)))
  | .writeFile path bytes next => do
    let r ← attempt (IO.FS.writeBinFile path ⟨bytes.toArray⟩)
    runHere (next r)
  | .writeOut text next => do
    let stdout ← IO.getStdout
    runHere (next (← attempt (stdout.putStr text)))
  | .flushOut next => do
    let stdout ← IO.getStdout
    runHere (next (← attempt stdout.flush))

end ObjectRuntime.Cli

def main (args : List String) : IO UInt32 := do
  let given ← IO.getEnv ObjectRuntime.capabilityVariable
  (ObjectRuntime.Cli.start (.ofOption given) args).runHere
