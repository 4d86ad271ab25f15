import ObjectRuntime.Cli.Session
import ObjectRuntime.Proofs.FileContents
import ObjectRuntime.Proofs.ManifestText
import ObjectRuntime.Proofs.Programs

/-! The check of a layout manifest against the loader. The check reports on the bytes of a file, the
loader makes a program of them; the report is ok iff there is a program to be made. Where the report goes
changes neither its bytes nor the exit code, as long as it gets there. -/

namespace ObjectRuntime

/-- The bytes are a manifest that makes a program where the environment sets nothing. -/
def Manifest.Loads (bs : List UInt8) : Prop :=
  ∃ m program, Manifest.ofBytes bs = .ok m ∧ m.toProgram .unset = .ok program

namespace Cli

variable {bs : List UInt8}

/-! ### The report -/

theorem ok_withMetadata (r : Report) (key : String) (value : Json) : (r.withMetadata key value).ok = r.ok :=
  rfl

theorem ok_withDiagnostics_validate (r : Report) (m : Manifest) :
    (r.withDiagnostics m.validate).ok = true ↔ m.validate = [] := by
  rw [Report.withDiagnostics, List.all_eq_true]
  refine ⟨?_, ?_⟩
  · intro h
    refine List.eq_nil_iff_forall_not_mem.2 fun d hd => ?_
    exact absurd (Manifest.severity_of_mem_validate hd) (bne_iff_ne.1 (h d hd))
  · intro h d hd
    rw [h] at hd
    cases hd

theorem ok_layoutReport_iff : (layoutReport bs).ok = true ↔ Manifest.Loads bs := by
  unfold layoutReport Manifest.Loads
  rw [ok_withMetadata]
  cases hread : Manifest.ofBytes bs with
  | error e => simp [Report.withDiagnostics, unreadable, Diagnostic.error]
  | ok m =>
    simp only [ok_withMetadata, ok_withDiagnostics_validate, Except.ok.injEq,
      ← Manifest.exists_toProgram_unset_iff]
    simp

theorem member?_ok (r : Report) : r.toJson.member? "ok" = some (.bool r.ok) := rfl

/-! ### Where it goes -/

def exitCode (ok : Bool) : Nat := if ok then 0 else 1

/-- Standard output takes the text and lets itself be flushed. -/
def StandardOutput.Takes (stdout : StandardOutput) (text : String) : Prop :=
  stdout.write text = .ok () ∧ stdout.flush = .ok ()

/-- What becomes of the text of a command that prints it, or writes it to a file if it is given one: it gets
there, and the command ends with `exit`; or it does not, and the command complains and ends with 2. -/
structure Delivers (command : Option String → Session) (exit : Nat) (text : String) (stdout : StandardOutput)
    (fs : FileSystem) : Prop where
  printed : stdout.Takes text → (command none).runOn stdout fs = (⟨exit, text, ""⟩, fs)
  unprinted : ∀ e, stdout.write text = .error e →
    (command none).runOn stdout fs = (⟨2, "", s!"write stdout: {e.text}" ++ "\n"⟩, fs)
  unflushed : ∀ e, stdout.write text = .ok () → stdout.flush = .error e →
    (command none).runOn stdout fs = (⟨2, text, s!"flush stdout: {e.text}" ++ "\n"⟩, fs)
  written : ∀ out fs', fs.setContents (Text.bytes out) (Text.bytes text) = .ok fs' →
    (command (some out)).runOn stdout fs = (⟨exit, "", ""⟩, fs') ∧
    (fs.Sound → ¬ fs.IsNull (Text.bytes out) → fs'.contentsOf (Text.bytes out) = .ok (Text.bytes text))
  unwritten : ∀ out e, fs.setContents (Text.bytes out) (Text.bytes text) = .error e →
    (command (some out)).runOn stdout fs = (⟨2, "", s!"write: {out}: {(failureOf e).text}" ++ "\n"⟩, fs)

/-- Every report is delivered in this way. -/
theorem emit_delivers (ok : Bool) (j : Json) (stdout : StandardOutput) (fs : FileSystem) :
    Delivers (emit ok j) (exitCode ok) (line j) stdout fs where
  printed h := by simp only [emit, print, Session.runOn, h.1, h.2, String.append_empty, exitCode]
  unprinted e h := by simp only [emit, print, Session.runOn, h, complain]
  unflushed e hwrite h := by simp only [emit, print, Session.runOn, hwrite, h, complain, String.append_empty]
  written out fs' hwrite := by
    refine ⟨?_, fun hs hnull => FileSystem.contentsOf_setContents hs hwrite hnull⟩
    simp only [emit, Session.runOn, hwrite, exitCode]
  unwritten out e hwrite := by simp only [emit, Session.runOn, hwrite, complain]

theorem Delivers.congr {c c' : Option String → Session} {exit : Nat} {text : String} {stdout : StandardOutput}
    {fs : FileSystem} (h : Delivers c exit text stdout fs)
    (heq : ∀ out, (c' out).runOn stdout fs = (c out).runOn stdout fs) : Delivers c' exit text stdout fs := by
  constructor
  · exact fun htakes => (heq none).trans (h.printed htakes)
  · exact fun e hwrite => (heq none).trans (h.unprinted e hwrite)
  · exact fun e hwrite hflush => (heq none).trans (h.unflushed e hwrite hflush)
  · exact fun out fs' hwrite => ⟨(heq (some out)).trans (h.written out fs' hwrite).1, (h.written out fs' hwrite).2⟩
  · exact fun out e hwrite => (heq (some out)).trans (h.unwritten out e hwrite)

/-! ### The command -/

theorem checkLayout_delivers {fs : FileSystem} {path : String} (h : fs.contentsOf (Text.bytes path) = .ok bs)
    (setting : Setting) (stdout : StandardOutput) :
    Delivers (fun out => run setting (.checkLayout path out)) (exitCode (layoutReport bs).ok)
      (line (layoutReport bs).toJson) stdout fs := by
  refine (emit_delivers _ _ stdout fs).congr fun out => ?_
  rw [run, checkLayout, Session.runOn, h]
  rfl

/-- One manifest in the current directory. -/
def sampleFiles : FileSystem :=
  let fs := FileSystem.empty 3
  fs.addFile (fs.current ++ [Text.bytes "m"]) Manifest.loose.toBytes

theorem sampleFiles_sound : sampleFiles.Sound := (FileSystem.sound_empty 3).addFile rfl rfl

theorem contentsOf_sampleFiles : sampleFiles.contentsOf (Text.bytes "m") = .ok Manifest.loose.toBytes := rfl

theorem loads_loose : Manifest.Loads Manifest.loose.toBytes :=
  ⟨Manifest.loose, _, Manifest.ofBytes_eq_ok _, rfl⟩

/-- Standard output on a device that is full. -/
def fullDevice : StandardOutput := ⟨fun _ => .error ⟨"No space left on device (os error 28)"⟩, .ok ()⟩

end Cli

end ObjectRuntime
