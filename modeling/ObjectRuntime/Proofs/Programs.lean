import ObjectRuntime.Manifest.Program
import ObjectRuntime.Proofs.Validation

/-! Programs of manifests. Every problem is an error and a capability list that cannot be read is one, so
the manifest's own list is read twice with the same result: a manifest without diagnostics always makes a
program, unless the environment sets a list that cannot be read. -/

namespace ObjectRuntime.Manifest

variable {m : Manifest} {setting : Setting} {program : Program}

theorem severity_of_mem_validate {d : Diagnostic} (h : d ∈ m.validate) : d.severity = .error := by
  obtain ⟨p, -, rfl⟩ := List.mem_map.1 h
  rfl

theorem toProgram_eq_ok_iff : m.toProgram setting = .ok program ↔ m.validate = [] ∧
    CapabilitySet.parse (setting.text?.getD m.caps) = .ok program.capabilities ∧
    program.layout = m.layout ∧ program.tables = m.tables ∧ program.paramTables = m.paramTables := by
  have hall : m.validate.filter (·.severity = .error) = m.validate :=
    List.filter_eq_self.2 fun d hd => decide_eq_true (severity_of_mem_validate hd)
  obtain ⟨layout, capabilities, tables, paramTables⟩ := program
  simp only [toProgram, hall, List.isEmpty_iff]
  split
  · rename_i hvalid
    cases CapabilitySet.parse (setting.text?.getD m.caps) with
    | ok c =>
      simp only [Except.ok.injEq, Program.mk.injEq, hvalid, true_and]
      grind
    | error e => simp
  · simp [*]

theorem exists_capabilities (h : m.validate = []) : ∃ c, CapabilitySet.parse m.caps = .ok c := by
  have hsound : ¬ Rule.Broken m .capabilities := validate_eq_nil_iff.1 h _
  simpa [Rule.Broken] using hsound

theorem exists_toProgram_iff : (∃ program, m.toProgram setting = .ok program) ↔
    m.validate = [] ∧ ∃ c, CapabilitySet.parse (setting.text?.getD m.caps) = .ok c := by
  simp only [toProgram_eq_ok_iff, exists_and_left]
  refine and_congr_right fun _ => ⟨?_, ?_⟩
  · rintro ⟨program, hparse, -⟩
    exact ⟨_, hparse⟩
  · rintro ⟨c, hparse⟩
    exact ⟨⟨m.layout, c, m.tables, m.paramTables⟩, hparse, rfl, rfl, rfl⟩

/-- With nothing set in the environment, checking and loading ask the same. -/
theorem exists_toProgram_unset_iff : (∃ program, m.toProgram .unset = .ok program) ↔ m.validate = [] :=
  exists_toProgram_iff.trans ⟨And.left, fun h => ⟨h, exists_capabilities h⟩⟩

end ObjectRuntime.Manifest
