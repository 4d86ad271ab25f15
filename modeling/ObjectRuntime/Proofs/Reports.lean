import ObjectRuntime.Proofs.ByteOrder
import ObjectRuntime.Proofs.Rules

/-! Reports. A report lists the diagnostics that it is given in the order of what they are told apart by:
pointer, code and message, byte by byte. Diagnostics that agree in all three stay as they stood. No two
diagnostics of one manifest agree in code and pointer, so the report on a manifest does not depend on the order
in which the check goes about it. -/

namespace ObjectRuntime

namespace Diagnostic

/-- What a diagnostic is ordered by, in bytes. Lists of byte strings are compared from the left. -/
def sortKey (d : Diagnostic) : List (List UInt8) :=
  [Text.bytes d.pointer, Text.bytes d.code, Text.bytes d.message]

variable {a b c : Diagnostic}

theorem sortKey_inj :
    a.sortKey = b.sortKey ↔ a.pointer = b.pointer ∧ a.code = b.code ∧ a.message = b.message := by
  simp only [sortKey, List.cons.injEq, Text.bytes_inj, and_true]

theorem le_iff : a.le b ↔ a.sortKey ≤ b.sortKey := by
  have hnil : ([] : List (List UInt8)) ≤ [] := List.le_refl []
  simp only [le, sortKey, List.cons_le_cons_iff, Text.bytes_lt_iff, Text.bytes_inj, Bool.or_eq_true,
    Bool.and_eq_true, decide_eq_true_eq, hnil, and_true, le_iff_lt_or_eq]

theorem le_trans (hab : a.le b) (hbc : b.le c) : a.le c :=
  le_iff.2 (List.le_trans (le_iff.1 hab) (le_iff.1 hbc))

theorem le_total (a b : Diagnostic) : a.le b || b.le a := by
  rw [Bool.or_eq_true, le_iff, le_iff]
  exact List.le_total a.sortKey b.sortKey

theorem sortKey_eq_of_le (hab : a.le b) (hba : b.le a) : a.sortKey = b.sortKey :=
  List.le_antisymm (le_iff.1 hab) (le_iff.1 hba)

/-! ### Sorting -/

theorem pairwise_mergeSort (ds : List Diagnostic) : (ds.mergeSort le).Pairwise fun a b => a.le b :=
  @List.pairwise_mergeSort _ le (fun _ _ _ => le_trans) le_total ds

/-- Diagnostics with one key stay in the order in which they stand. -/
theorem filter_mergeSort (ds : List Diagnostic) (key : List (List UInt8)) :
    (ds.mergeSort le).filter (·.sortKey = key) = ds.filter (·.sortKey = key) := by
  have htied : (ds.filter (·.sortKey = key)).Pairwise fun a b => a.le b := by
    refine List.pairwise_of_forall_mem_list fun a ha b hb => ?_
    have ha : a.sortKey = key := of_decide_eq_true (List.mem_filter.1 ha).2
    have hb : b.sortKey = key := of_decide_eq_true (List.mem_filter.1 hb).2
    rw [le_iff, ha, hb]
    exact List.le_refl key
  have hkept := @List.sublist_mergeSort _ le ds (fun _ _ _ => le_trans) le_total _ htied List.filter_sublist
  have hkept := hkept.filter (·.sortKey = key)
  simp only [List.filter_filter, Bool.and_self] at hkept
  refine (hkept.eq_of_length ?_).symm
  exact ((List.mergeSort_perm ds le).filter _).length_eq.symm

/-- Where no two diagnostics have one key, sorting forgets the order in which they stand. -/
theorem mergeSort_perm_eq {ds es : List Diagnostic} (h : ds.Perm es) (hkeys : (es.map sortKey).Nodup) :
    ds.mergeSort le = es.mergeSort le := by
  have hperm : (ds.mergeSort le).Perm (es.mergeSort le) :=
    (List.mergeSort_perm ds le).trans (h.trans (List.mergeSort_perm es le).symm)
  refine hperm.eq_of_pairwise (fun a b ha hb hab hba => ?_) (pairwise_mergeSort ds) (pairwise_mergeSort es)
  have ha : a ∈ es := h.mem_iff.1 (List.mem_mergeSort.1 ha)
  have hb : b ∈ es := List.mem_mergeSort.1 hb
  exact List.inj_on_of_nodup_map hkeys ha hb (sortKey_eq_of_le hab hba)

end Diagnostic

namespace Report

variable {r : Report} {ds es : List Diagnostic}

theorem withDiagnostics_diagnostics (r : Report) (ds : List Diagnostic) :
    (r.withDiagnostics ds).withDiagnostics (r.withDiagnostics ds).diagnostics = r.withDiagnostics ds := by
  have hall : (ds.mergeSort Diagnostic.le).all (·.severity != .error) = ds.all (·.severity != .error) :=
    (List.mergeSort_perm ds Diagnostic.le).all_eq
  simp only [withDiagnostics, hall, List.mergeSort_of_pairwise (Diagnostic.pairwise_mergeSort ds)]

theorem ok_withDiagnostics_iff : (r.withDiagnostics ds).ok ↔ ∀ d ∈ ds, d.severity ≠ .error := by
  simp only [withDiagnostics, List.all_eq_true, bne_iff_ne]

theorem withDiagnostics_perm (h : ds.Perm es) (hkeys : (es.map Diagnostic.sortKey).Nodup) :
    r.withDiagnostics ds = r.withDiagnostics es := by
  rw [withDiagnostics, withDiagnostics, Diagnostic.mergeSort_perm_eq h hkeys, h.all_eq]

end Report

namespace Manifest

variable {m : Manifest}

/-- No two diagnostics of a manifest are told apart by their message alone. -/
theorem pairwise_validate (m : Manifest) :
    m.validate.Pairwise fun a b => ¬ (a.code = b.code ∧ a.pointer = b.pointer) := by
  refine List.pairwise_map.2 (m.pairwise_problems.imp fun {p q} hapart hsame => hapart ?_)
  simp only [Problem.code_toDiagnostic, Problem.pointer_toDiagnostic] at hsame
  exact Rule.eq_of_place hsame.1 hsame.2

end Manifest

/-- A report is canonical. It lists what it is given, all of it and nothing else, by pointer, code and
message in bytes, with ties as they stood; given its own list it stays as it is; and it is ok iff nothing in it
is an error. Of a manifest no two diagnostics agree in code and pointer, whatever its tables are called, so it
has one report whatever the order of its diagnostics. -/
theorem report_canonical :
    (∀ (r : Report) (ds : List Diagnostic),
      (r.withDiagnostics ds).diagnostics.Perm ds ∧
      (r.withDiagnostics ds).diagnostics.Pairwise (fun a b => a.sortKey ≤ b.sortKey) ∧
      (∀ d : Diagnostic, (r.withDiagnostics ds).diagnostics.filter (·.sortKey = d.sortKey) =
        ds.filter (·.sortKey = d.sortKey)) ∧
      (r.withDiagnostics ds).withDiagnostics (r.withDiagnostics ds).diagnostics = r.withDiagnostics ds ∧
      ((r.withDiagnostics ds).ok ↔ ∀ d ∈ ds, d.severity ≠ .error)) ∧
    ∀ m : Manifest,
      m.validate.Pairwise (fun a b => ¬ (a.code = b.code ∧ a.pointer = b.pointer)) ∧
      ∀ (r : Report) (ds : List Diagnostic), ds.Perm m.validate →
        r.withDiagnostics ds = r.withDiagnostics m.validate := by
  refine ⟨fun r ds => ⟨?_, ?_, ?_, ?_, ?_⟩, fun m => ⟨m.pairwise_validate, fun r ds hperm => ?_⟩⟩
  · exact List.mergeSort_perm ds Diagnostic.le
  · exact (Diagnostic.pairwise_mergeSort ds).imp Diagnostic.le_iff.1
  · exact fun d => Diagnostic.filter_mergeSort ds d.sortKey
  · exact r.withDiagnostics_diagnostics ds
  · exact Report.ok_withDiagnostics_iff
  · refine Report.withDiagnostics_perm hperm (List.pairwise_map.2 (m.pairwise_validate.imp ?_))
    intro a b hne hkey
    refine hne ?_
    obtain ⟨hpointer, hcode, -⟩ := Diagnostic.sortKey_inj.1 hkey
    exact ⟨hcode, hpointer⟩

/-- Names of tables that look like the pointers into others. -/
def slashed : Manifest where
  schemaVersion := Manifest.supportedVersion
  caps := "full"
  layout := ⟨⟨0, 1⟩, ⟨1, 2⟩, ⟨2, 3⟩, ⟨3, 4⟩, ⟨4, 5⟩, ⟨5, 6⟩, 3⟩
  tables := .ofList [("a", ⟨#[8, 8]⟩), ("a/1", ⟨#[7, 7, 7]⟩)]
  paramTables := .ofList [("a", ⟨1, 9, #[⟨4, 1⟩, ⟨4, 1⟩]⟩), ("a/params/1", ⟨2, 1, #[]⟩)]

theorem report_canonical_slashed :
    slashed.validate.map Diagnostic.pointer = ["/tables/a/1", "/tables/a/1/1", "/tables/a/1/2",
      "/ptables/a/params/1/code", "/ptables/a/params/1/pos", "/ptables/a/params/1/min"] ∧
    slashed.validate.reverse.Perm slashed.validate ∧
    Report.empty.withDiagnostics slashed.validate.reverse = Report.empty.withDiagnostics slashed.validate ∧
    ((Problem.repeatedAttribute "a" 1 8).toDiagnostic ∈ slashed.validate ∧
      ¬ (Report.empty.withDiagnostics slashed.validate).ok) := by
  obtain ⟨hlists, hmanifests⟩ := report_canonical
  obtain ⟨-, -, -, -, hok⟩ := hlists .empty slashed.validate
  have hperm := slashed.validate.reverse_perm
  have hmem : (Problem.repeatedAttribute "a" 1 8).toDiagnostic ∈ slashed.validate :=
    List.mem_map_of_mem (by decide)
  exact ⟨by decide, hperm, (hmanifests slashed).2 .empty _ hperm, hmem, fun h => hok.1 h _ hmem rfl⟩

end ObjectRuntime
