import Mathlib.Data.List.TakeWhile
import ObjectRuntime.Proofs.Rules

/-! The check is exact: it reports every broken rule once and nothing else. What it then means that the
check is silent is said without rules and without an order of going through the tables. -/

namespace ObjectRuntime

structure Layout.Sound (l : Layout) : Prop where
  code_ne_gap (a : SpecialAttr) : (l.slot a).code ≠ gapCode
  code_injective {a b : SpecialAttr} (h : (l.slot a).code = (l.slot b).code) : a = b
  args_lt : (l.slot .args).pos < l.functionSize
  fn_lt : (l.slot .fn).pos < l.functionSize

/-- No code but the gap code occurs twice. -/
def Table.Sound (t : Table) : Prop :=
  ∀ (i j : Nat) (code : UInt32), t.codes[i]? = some code → t.codes[j]? = some code →
    code ≠ gapCode → i = j

structure ParamTable.Sound (t : ParamTable) : Prop where
  min_le_max : t.min ≤ t.max
  pos_ne_zero {slot : Nat} {p : Param} (h : t.Declares slot p) : p.pos ≠ 0
  pos_lt {slot : Nat} {p : Param} (h : t.Declares slot p) : p.pos.toNat < t.max.toNat
  code_injective {i j : Nat} {p q : Param} (hp : t.Declares i p) (hq : t.Declares j q)
    (h : p.code = q.code) : i = j
  pos_injective {i j : Nat} {p q : Param} (hp : t.Declares i p) (hq : t.Declares j q)
    (h : p.pos = q.pos) : i = j

structure Manifest.Sound (m : Manifest) : Prop where
  version : m.schemaVersion = supportedVersion
  capabilities : ∃ s, CapabilitySet.parse m.caps = .ok s
  layout : m.layout.Sound
  tables {name : String} {t : Table} (h : m.tables.get? name = some t) : t.Sound
  paramTables {name : String} {t : ParamTable} (h : m.paramTables.get? name = some t) : t.Sound

theorem SpecialAttr.ne_of_mem_earlier {a b : SpecialAttr} (h : b ∈ a.earlier) : b ≠ a := by
  simpa using List.mem_takeWhile_imp h

theorem SpecialAttr.earlier_or_earlier {a b : SpecialAttr} (h : a ≠ b) :
    a ∈ b.earlier ∨ b ∈ a.earlier := by
  revert h
  cases a <;> cases b <;> decide

/-- If nothing occurs a second time, then no two positions hold the same. -/
theorem eq_of_no_repeat {P : Nat → Prop} (h : ∀ i, P i → ¬ ∃ j < i, P j) {i j : Nat} (hi : P i)
    (hj : P j) : i = j := by
  rcases Nat.lt_trichotomy i j with hlt | heq | hlt
  · exact absurd ⟨i, hlt, hi⟩ (h j hj)
  · exact heq
  · exact absurd ⟨j, hlt, hj⟩ (h i hi)

namespace Manifest

variable {m : Manifest}

theorem layout_sound (h : ∀ r : Rule, ¬ r.Broken m) : m.layout.Sound where
  code_ne_gap a := h (.gapCode a)
  code_injective {a b} heq := by
    by_contra hne
    rcases SpecialAttr.earlier_or_earlier hne with ha | hb
    · exact h (.sharedCode b) ⟨h (.gapCode b), a, ha, heq⟩
    · exact h (.sharedCode a) ⟨h (.gapCode a), b, hb, heq.symm⟩
  args_lt := by
    by_contra hle
    exact h (.outsideFunction .args) ⟨Or.inl rfl, UInt64.not_lt.1 hle⟩
  fn_lt := by
    by_contra hle
    exact h (.outsideFunction .fn) ⟨Or.inr rfl, UInt64.not_lt.1 hle⟩

theorem table_sound (h : ∀ r : Rule, ¬ r.Broken m) {name : String} {t : Table}
    (ht : m.tables.get? name = some t) : t.Sound := by
  intro i j code hi hj hne
  refine eq_of_no_repeat (P := fun i => t.codes[i]? = some code) (fun i hi hrepeat => ?_) hi hj
  exact h (.repeatedAttribute name i) ⟨t, code, ht, hi, hne, hrepeat⟩

theorem paramTable_sound (h : ∀ r : Rule, ¬ r.Broken m) {name : String} {t : ParamTable}
    (ht : m.paramTables.get? name = some t) : t.Sound where
  min_le_max := by
    by_contra hlt
    exact h (.boundsReversed name) ⟨t, ht, UInt32.not_le.1 hlt⟩
  pos_ne_zero {slot p} hp hzero := h (.contextPosition name slot) ⟨t, p, ht, hp, hzero⟩
  pos_lt {slot p} hp := by
    by_contra hle
    exact h (.positionAtMax name slot) ⟨t, p, ht, hp, Nat.not_lt.1 hle⟩
  code_injective {i j p q} hp hq heq := by
    refine eq_of_no_repeat (P := fun i => ∃ p, t.Declares i p ∧ p.code = q.code)
      (fun i hi hrepeat => ?_) ⟨p, hp, heq⟩ ⟨q, hq, rfl⟩
    obtain ⟨p, hp, heq⟩ := hi
    obtain ⟨j, hj, p', hp', heq'⟩ := hrepeat
    exact h (.repeatedParam name i) ⟨t, p, ht, hp, j, hj, p', hp', heq'.trans heq.symm⟩
  pos_injective {i j p q} hp hq heq := by
    refine eq_of_no_repeat (P := fun i => ∃ p, t.Declares i p ∧ p.pos = q.pos)
      (fun i hi hrepeat => ?_) ⟨p, hp, heq⟩ ⟨q, hq, rfl⟩
    obtain ⟨p, hp, heq⟩ := hi
    obtain ⟨j, hj, p', hp', heq'⟩ := hrepeat
    exact h (.sharedPosition name i) ⟨t, p, ht, hp, j, hj, p', hp', heq'.trans heq.symm⟩

theorem Sound.not_broken (hm : m.Sound) (r : Rule) : ¬ r.Broken m := by
  intro h
  cases r with
  | version => exact h hm.version
  | capabilities =>
    obtain ⟨s, hs⟩ := hm.capabilities
    exact h s hs
  | gapCode a => exact hm.layout.code_ne_gap a h
  | sharedCode a =>
    obtain ⟨-, b, hb, heq⟩ := h
    exact SpecialAttr.ne_of_mem_earlier hb (hm.layout.code_injective heq)
  | outsideFunction a =>
    rcases h with ⟨rfl | rfl, hle⟩
    · exact UInt64.not_lt.2 hle hm.layout.args_lt
    · exact UInt64.not_lt.2 hle hm.layout.fn_lt
  | repeatedAttribute table pos =>
    obtain ⟨t, code, ht, hcode, hne, j, hj, hearlier⟩ := h
    exact hj.ne (hm.tables ht j pos code hearlier hcode hne)
  | boundsReversed table =>
    obtain ⟨t, ht, hlt⟩ := h
    exact UInt32.not_le.2 hlt (hm.paramTables ht).min_le_max
  | positionAtMax table slot =>
    obtain ⟨t, p, ht, hp, hle⟩ := h
    exact Nat.not_lt.2 hle ((hm.paramTables ht).pos_lt hp)
  | contextPosition table slot =>
    obtain ⟨t, p, ht, hp, hzero⟩ := h
    exact (hm.paramTables ht).pos_ne_zero hp hzero
  | repeatedParam table slot =>
    obtain ⟨t, p, ht, hp, j, hj, q, hq, heq⟩ := h
    exact hj.ne ((hm.paramTables ht).code_injective hq hp heq)
  | sharedPosition table slot =>
    obtain ⟨t, p, ht, hp, j, hj, q, hq, heq⟩ := h
    exact hj.ne ((hm.paramTables ht).pos_injective hq hp heq)

theorem sound_iff : m.Sound ↔ ∀ r : Rule, ¬ r.Broken m := by
  refine ⟨?_, ?_⟩
  · exact Sound.not_broken
  · intro h
    have hcaps : ∃ s, CapabilitySet.parse m.caps = .ok s := by
      by_contra hnone
      exact h .capabilities fun s hs => hnone ⟨s, hs⟩
    exact ⟨by_contra (h .version), hcaps, layout_sound h, table_sound h, paramTable_sound h⟩

/-- The check reports each broken rule at its place exactly once and nothing besides, so it is silent
just on sound manifests. -/
theorem validate_exact (m : Manifest) :
    (∀ r : Rule,
      (r.Broken m → m.validate.countP (fun d => d.code = r.code ∧ d.pointer = r.pointer) = 1) ∧
      (¬ r.Broken m → m.validate.countP (fun d => d.code = r.code ∧ d.pointer = r.pointer) = 0)) ∧
    (∀ d ∈ m.validate, ∃ r : Rule, r.Broken m ∧ d.code = r.code ∧ d.pointer = r.pointer) ∧
    (m.validate = [] ↔ m.Sound) := by
  classical
  refine ⟨fun r => ⟨fun hbroken => ?_, fun hkept => ?_⟩, fun d hd => ?_, ?_⟩
  · rw [countP_validate_eq, if_pos hbroken]
  · rw [countP_validate_eq, if_neg hkept]
  · exact exists_broken_of_mem_validate hd
  · rw [validate_eq_nil_iff, sound_iff]

/-- A manifest with faults in its layout and in both of its tables. -/
def faulty : Manifest where
  schemaVersion := supportedVersion
  caps := ""
  layout := ⟨⟨0, 1⟩, ⟨9, 2⟩, ⟨1, 2⟩, ⟨2, 0⟩, ⟨3, 5⟩, ⟨4, 6⟩, 8⟩
  tables := .insert .empty "point" ⟨#[7, 0, 7]⟩
  paramTables := .insert .empty "move" ⟨1, 3, #[⟨4, 1⟩, ⟨0, 1⟩, ⟨5, 1⟩]⟩

theorem validate_faulty :
    (Rule.Broken faulty (.sharedCode .fn) ∧ faulty.validate.countP (fun d =>
      d.code = "TARN-LAYOUT-0005" ∧ d.pointer = Rule.pointer (.sharedCode .fn)) = 1) ∧
    (Rule.Broken faulty (.repeatedAttribute "point" 2) ∧ faulty.validate.countP (fun d =>
      d.code = "TARN-LAYOUT-0010" ∧ d.pointer = Rule.pointer (.repeatedAttribute "point" 2)) = 1) ∧
    (Rule.Broken faulty (.sharedPosition "move" 2) ∧ faulty.validate.countP (fun d =>
      d.code = "TARN-LAYOUT-0023" ∧ d.pointer = Rule.pointer (.sharedPosition "move" 2)) = 1) ∧
    (¬ Rule.Broken faulty .version ∧ faulty.validate.countP (fun d =>
      d.code = "TARN-LAYOUT-0001" ∧ d.pointer = "/schema_version") = 0) ∧
    ∃ d ∈ faulty.validate, ∃ r : Rule, r.Broken faulty ∧ d.code = r.code ∧ d.pointer = r.pointer := by
  obtain ⟨hcount, hplace, -⟩ := validate_exact faulty
  have hshared : Rule.Broken faulty (.sharedCode .fn) := ⟨by decide, .args, by decide, rfl⟩
  have hrepeated : Rule.Broken faulty (.repeatedAttribute "point" 2) :=
    ⟨⟨#[7, 0, 7]⟩, 7, by decide, rfl, by decide, 0, by decide, rfl⟩
  have hposition : Rule.Broken faulty (.sharedPosition "move" 2) :=
    ⟨⟨1, 3, #[⟨4, 1⟩, ⟨0, 1⟩, ⟨5, 1⟩]⟩, ⟨5, 1⟩, by decide, ⟨rfl, by decide⟩, 0, by decide, ⟨4, 1⟩,
      ⟨rfl, by decide⟩, rfl⟩
  have hversion : ¬ Rule.Broken faulty .version := fun h => h rfl
  have hmem : (Problem.gapCode .data).toDiagnostic ∈ faulty.validate := by
    refine List.mem_map_of_mem (mem_problems_iff.2 (Or.inr (Or.inr (Or.inl ?_))))
    exact Layout.mem_problems_iff.2 (Or.inl ⟨.data, rfl, rfl⟩)
  exact ⟨⟨hshared, (hcount _).1 hshared⟩, ⟨hrepeated, (hcount _).1 hrepeated⟩,
    ⟨hposition, (hcount _).1 hposition⟩, ⟨hversion, (hcount _).2 hversion⟩, _, hmem, hplace _ hmem⟩

end Manifest

end ObjectRuntime
