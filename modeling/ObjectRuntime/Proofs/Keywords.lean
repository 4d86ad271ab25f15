import ObjectRuntime.Proofs.Invocation
import ObjectRuntime.Proofs.Programs

/-! Keywords in a checked program. A parameter table that passes the check resolves every code in one
slot only, different codes to different positions, and none to the position of the context. So keywords
with different codes never meet in one position, and of the keywords that a call may use only a repeated
code finds its position taken. -/

namespace ObjectRuntime

/-! ### Resolution -/

namespace ParamTable

variable {t : ParamTable} {hint hint' p p' : Nat} {code code' : UInt16}

theorem resolve_eq_some_iff :
    t.resolve hint code = some p ↔ ∃ q, t.Declares hint q ∧ q.code = code ∧ q.pos.toNat = p := by
  unfold resolve Declares Param.isGap
  by_cases hzero : code = 0
  · subst hzero
    simp only [if_true, reduceCtorEq, false_iff]
    rintro ⟨q, ⟨-, hgap⟩, hcode, -⟩
    exact hgap (beq_iff_eq.2 hcode)
  · cases t.params[hint]? with
    | none => simp
    | some q =>
      by_cases hcode : q.code = code
      · subst hcode
        simp [hzero]
      · simp [hzero, hcode]

/-- A code resolves with one hint at most, different codes resolve to different positions, and every
position lies behind the context and below the bound. -/
structure Unambiguous (t : ParamTable) : Prop where
  hint_unique {hint hint' p p' : Nat} {code : UInt16} (h : t.resolve hint code = some p)
    (h' : t.resolve hint' code = some p') : hint = hint'
  code_unique {hint hint' p : Nat} {code code' : UInt16} (h : t.resolve hint code = some p)
    (h' : t.resolve hint' code' = some p) : code = code'
  within {hint p : Nat} {code : UInt16} (h : t.resolve hint code = some p) : 1 ≤ p ∧ p < t.max.toNat

theorem Sound.unambiguous (ht : t.Sound) : t.Unambiguous where
  hint_unique h h' := by
    obtain ⟨q, hq, hcode, -⟩ := resolve_eq_some_iff.1 h
    obtain ⟨q', hq', hcode', -⟩ := resolve_eq_some_iff.1 h'
    exact ht.code_injective hq hq' (hcode.trans hcode'.symm)
  code_unique h h' := by
    obtain ⟨q, hq, hcode, hpos⟩ := resolve_eq_some_iff.1 h
    obtain ⟨q', hq', hcode', hpos'⟩ := resolve_eq_some_iff.1 h'
    have hslot := ht.pos_injective hq hq' (UInt16.toNat_inj.1 (hpos.trans hpos'.symm))
    subst hslot
    obtain rfl : q = q' := Option.some.inj (hq.1.symm.trans hq'.1)
    exact hcode.symm.trans hcode'
  within h := by
    obtain ⟨q, hq, -, rfl⟩ := resolve_eq_some_iff.1 h
    refine ⟨Nat.one_le_iff_ne_zero.2 fun hzero => ?_, ht.pos_lt hq⟩
    exact ht.pos_ne_zero hq (UInt16.toNat_inj.1 hzero)

/-! ### The keyword loop -/

variable {given : Nat} {bound named args : Array Attr} {k : Keyword} {ks : List Keyword}

theorem bindKeyword_ne_occupied
    (hempty : ∀ p, t.position? k = some p → given ≤ p → bound[p]? = some .null) :
    t.bindKeyword given bound k ≠ .error (.type .parameterOccupied) := by
  unfold bindKeyword
  unfold position? at hempty
  cases hp : t.resolve k.hint.toNat k.code with
  | none => simp [Halt.type]
  | some p =>
    by_cases hgiven : given ≤ p
    · simp [hgiven, hempty p hp hgiven]
    · simp [hgiven, Halt.type]

/-- Keywords that ask for different positions, each of them empty, find no position taken. -/
theorem foldlM_bindKeyword_ne_occupied
    (hapart : ks.Pairwise fun k k' => ∀ p, t.position? k = some p → t.position? k' ≠ some p)
    (hempty : ∀ k ∈ ks, ∀ p, t.position? k = some p → given ≤ p → bound[p]? = some .null) :
    ks.foldlM (t.bindKeyword given) bound ≠ .error (.type .parameterOccupied) := by
  induction ks generalizing bound with
  | nil => nofun
  | cons k ks ih =>
    obtain ⟨hk, hapart⟩ := List.pairwise_cons.1 hapart
    rw [List.foldlM_cons]
    intro h
    rcases bind_eq_error_iff.1 h with h | ⟨b, hb, h⟩
    · exact bindKeyword_ne_occupied (hempty k List.mem_cons_self) h
    · obtain ⟨p, hp, -, -, rfl⟩ := bindKeyword_eq_ok_iff.1 hb
      refine ih hapart (fun k' hk' q hq hle => ?_) h
      have hne : p ≠ q := by
        rintro rfl
        exact hk k' hk' p hp hq
      rw [Array.getElem?_setIfInBounds_ne hne]
      exact hempty k' (List.mem_cons_of_mem _ hk') q hq hle

theorem bindKeyword_ne_unexpected {q : Nat} (hq : t.position? k = some q) (hle : given ≤ q) :
    t.bindKeyword given bound k ≠ .error (.type .unexpectedKeyword) := by
  unfold bindKeyword
  unfold position? at hq
  simp only [hq, if_pos hle]
  split <;> simp [Halt.type]

theorem foldlM_bindKeyword_ne_unexpected
    (hresolved : ∀ k ∈ ks, ∃ p, t.position? k = some p ∧ given ≤ p) :
    ks.foldlM (t.bindKeyword given) bound ≠ .error (.type .unexpectedKeyword) := by
  induction ks generalizing bound with
  | nil => nofun
  | cons k ks ih =>
    rw [List.foldlM_cons]
    intro h
    rcases bind_eq_error_iff.1 h with h | ⟨b, -, h⟩
    · obtain ⟨p, hp, hle⟩ := hresolved k List.mem_cons_self
      exact bindKeyword_ne_unexpected hp hle h
    · exact ih (fun k' hk' => hresolved k' (List.mem_cons_of_mem _ hk')) h

namespace Unambiguous

variable (ht : t.Unambiguous)

include ht

theorem pairwise_position (hcodes : (ks.map Keyword.code).Nodup) :
    ks.Pairwise fun k k' => ∀ p, t.position? k = some p → t.position? k' ≠ some p := by
  apply (List.pairwise_map.1 hcodes).imp
  intro k k' hne p hp hp'
  exact hne (ht.code_unique hp hp')

theorem buffer_empty {q : Nat} (hq : t.position? k = some q) (hle : args.size ≤ q) :
    (t.buffer args)[q]? = some .null :=
  (buffer_of_le hle).2 (ht.within hq).2

/-- Among keywords that may be used, equal codes are equal positions. -/
theorem nodup_codes (hresolved : ∀ k ∈ ks, ∃ p, t.position? k = some p ∧ given ≤ p)
    (hdistinct : (ks.map t.position?).Nodup) : (ks.map Keyword.code).Nodup := by
  rw [List.Nodup, List.pairwise_map] at hdistinct ⊢
  refine hdistinct.imp_of_mem fun {k k'} hk hk' hne hcode => ?_
  obtain ⟨p, hp, -⟩ := hresolved k hk
  obtain ⟨p', hp', -⟩ := hresolved k' hk'
  unfold position? at hne hp hp'
  rw [hcode] at hp hne
  have hhint := ht.hint_unique hp hp'
  exact hne (by rw [hhint])

/-- Keywords that may be used fail to bind just if a code is repeated, and then by finding a position
taken. -/
theorem foldlM_bindKeyword_eq_occupied_iff (hvalues : ∀ k ∈ ks, k.value ≠ .null)
    (hresolved : ∀ k ∈ ks, ∃ p, t.position? k = some p ∧ args.size ≤ p) :
    ks.foldlM (t.bindKeyword args.size) (t.buffer args) = .error (.type .parameterOccupied) ↔
      ¬ (ks.map Keyword.code).Nodup := by
  refine ⟨?_, ?_⟩
  · intro h hcodes
    exact foldlM_bindKeyword_ne_occupied (ht.pairwise_position hcodes)
      (fun k _ q hq hle => ht.buffer_empty hq hle) h
  · intro hrepeated
    cases hfold : ks.foldlM (t.bindKeyword args.size) (t.buffer args) with
    | ok named =>
      have hfits := (exists_foldlM_bindKeyword_iff hvalues).1 ⟨named, hfold⟩
      exact absurd (ht.nodup_codes hresolved hfits.distinct) hrepeated
    | error e =>
      rcases foldlM_bindKeyword_error hfold with rfl | rfl
      · exact absurd hfold (foldlM_bindKeyword_ne_unexpected hresolved)
      · rfl

theorem context_untouched
    (h : ks.foldlM (t.bindKeyword args.size) (t.buffer args) = .ok named) :
    named[0]? = (t.buffer args)[0]? := by
  apply foldlM_bindKeyword_of_not_mem h
  intro k _ hk
  exact absurd (ht.within hk).1 (by decide)

end Unambiguous

end ParamTable

/-! ### Calls -/

namespace Layout

variable {l : Layout} {target : Object} {t : ParamTable} {args bound : Array Attr} {ks : List Keyword}

theorem bindArgs_eq_occupied_iff : l.bindArgs target t args ks = .error (.type .parameterOccupied) ↔
    t.min.toNat ≤ args.size + ks.length ∧ args.size + ks.length ≤ t.max.toNat ∧
      ks.foldlM (t.bindKeyword args.size) (t.buffer args) = .error (.type .parameterOccupied) := by
  rcases bindArgs_cases l target t args ks with ⟨hsize, rfl, hfast⟩ | ⟨harity, herr⟩ | ⟨harity, hloops⟩
  · rw [hfast]
    simp [pure, Except.pure]
  · rw [herr]
    refine ⟨?_, ?_⟩
    · intro h
      cases h
    · intro h
      omega
  · rw [hloops, bind_eq_error_iff]
    refine ⟨?_, ?_⟩
    · rintro (h | ⟨named, -, h⟩)
      · exact ⟨harity.1, harity.2, h⟩
      · obtain ⟨p, -, -, hp, -⟩ := foldlM_fillDefault_error_first List.pairwise_lt_range' h
        rcases defaultFor_error hp with h | h | ⟨h, -⟩ <;> cases h
    · intro h
      exact Or.inl h.2.2

/-- Slot zero holds the context that was given or, where none was, its default. -/
theorem bindArgs_context (ht : t.Unambiguous) (h : l.bindArgs target t args ks = .ok bound) :
    (0 < args.size → bound[0]? = args[0]?) ∧
    (args.size = 0 → 0 < t.max.toNat →
      ∃ a, l.defaultFor target t.min.toNat 0 = .ok a ∧ bound[0]? = some a) := by
  rcases bindArgs_eq_ok h with ⟨hsize, -, rfl⟩ | ⟨-, named, hnamed, hfill⟩
  · refine ⟨fun _ => rfl, fun hzero hmax => ?_⟩
    omega
  · have hcontext := ht.context_untouched hnamed
    refine ⟨fun hgiven => ?_, fun hzero hmax => ?_⟩
    · rw [foldlM_fillDefault_of_full hfill fun hmem => ?_, hcontext, ParamTable.buffer_of_lt hgiven]
      exact absurd (mem_positions_iff.1 hmem).1 (by omega)
    · have hnull : named[0]? = some .null := hcontext.trans ((ParamTable.buffer_of_le (by omega)).2 hmax)
      exact foldlM_fillDefault_of_empty hfill (mem_positions_iff.2 ⟨by omega, hmax⟩) hnull

theorem prepare_eq_occupied_iff {h : Heap} {callable : Attr} {o : ObjectRef} {context : Option Attr}
    (htargets : l.Targets h callable o context t) (proven : Bool) :
    l.prepare h callable proven ks args = .error (.type .parameterOccupied) ↔
      l.bindArgs (h.object o) t (supply args context) ks = .error (.type .parameterOccupied) := by
  rw [prepare_of_targets htargets, bind_eq_error_iff]
  refine ⟨?_, Or.inl⟩
  rintro (hbind | ⟨bound, -, hrest⟩)
  · exact hbind
  · rcases bind_eq_error_iff.1 hrest with hdispatch | ⟨func, -, hdone⟩
    · rcases dispatch_error hdispatch with h | h <;> cases h
    · cases hdone

end Layout

namespace Manifest

variable {m : Manifest} {setting : Setting} {program : Program}

/-- A program has the tables of its manifest, which is sound. -/
theorem sound_of_toProgram (h : m.toProgram setting = .ok program) :
    m.Sound ∧ program.paramTables = m.paramTables := by
  obtain ⟨hvalid, -, -, -, htables⟩ := toProgram_eq_ok_iff.1 h
  exact ⟨sound_iff.2 (validate_eq_nil_iff.1 hvalid), htables⟩

/-- In a checked program keywords with different codes never conflict and none reaches the context; and
where every keyword may be used, a call is refused for a conflict iff it repeats a code. -/
theorem keywords_conflict_iff (hprogram : m.toProgram setting = .ok program) {name : String}
    {t : ParamTable} (ht : program.paramTables.get? name = some t) :
    t.Unambiguous ∧
    ∀ (machine : Machine) (s : State) (callable : Attr) (target : ObjectRef) (context : Option Attr)
      (proven : Bool) (args : Array Attr) (ks : List Keyword),
      machine.layout.Targets s.heap callable target context t →
      ((ks.map Keyword.code).Nodup → ∀ natives s',
        machine.invoke natives callable proven ks args s = .error (.type .parameterOccupied) s' →
        ∃ func bound, machine.Runs s callable proven ks args ⟨.named func, bound⟩) ∧
      (∀ used named, used <+: ks →
        used.foldlM (t.bindKeyword (supply args context).size) (t.buffer (supply args context))
          = .ok named → named[0]? = (t.buffer (supply args context))[0]?) ∧
      (∀ func bound, machine.Runs s callable proven ks args ⟨.named func, bound⟩ →
        (0 < (supply args context).size → bound[0]? = (supply args context)[0]?) ∧
        ((supply args context).size = 0 → 0 < t.max.toNat → ∃ a, bound[0]? = some a ∧
          machine.layout.defaultFor (s.heap.object target) t.min.toNat 0 = .ok a)) ∧
      ((∀ k ∈ ks, k.value ≠ .null) →
        (∀ k ∈ ks, ∃ p, t.position? k = some p ∧ (supply args context).size ≤ p) →
        t.min.toNat ≤ (supply args context).size + ks.length →
        (supply args context).size + ks.length ≤ t.max.toNat →
        (machine.Refuses s callable proven ks args .parameterOccupied ↔
          ¬ (ks.map Keyword.code).Nodup)) := by
  obtain ⟨hsound, htables⟩ := sound_of_toProgram hprogram
  have hunambiguous : t.Unambiguous := (hsound.paramTables (htables ▸ ht)).unambiguous
  refine ⟨hunambiguous, fun machine s callable target context proven args ks htargets =>
    ⟨fun hcodes natives s' herror => ?_, fun used named _ h => hunambiguous.context_untouched h,
      fun func bound hruns => ?_, fun hvalues hresolved hmin hmax => ?_⟩⟩
  · rcases Machine.invoke_error_cases herror with hrefused | hunbound | hruns
    · obtain ⟨-, -, hloop⟩ :=
        Layout.bindArgs_eq_occupied_iff.1 ((Layout.prepare_eq_occupied_iff htargets proven).1 hrefused)
      exact absurd hloop (ParamTable.foldlM_bindKeyword_ne_occupied
        (hunambiguous.pairwise_position hcodes) fun k _ q hq hle => hunambiguous.buffer_empty hq hle)
    · cases hunbound
    · exact hruns
  · obtain ⟨hbind, -⟩ := (Layout.prepare_eq_ok_iff htargets).1 (Machine.prepare_of_runs hruns)
    obtain ⟨hgiven, hnone⟩ := Layout.bindArgs_context hunambiguous hbind
    refine ⟨hgiven, fun hzero hpos => ?_⟩
    obtain ⟨a, ha, hslot⟩ := hnone hzero hpos
    exact ⟨a, hslot, ha⟩
  · rw [Machine.refuses_iff (by decide), Layout.prepare_eq_occupied_iff htargets proven,
      Layout.bindArgs_eq_occupied_iff, hunambiguous.foldlM_bindKeyword_eq_occupied_iff hvalues hresolved]
    exact ⟨fun h => h.2.2, fun h => ⟨hmin, hmax, h⟩⟩

end Manifest

namespace Sample

def manifest : Manifest where
  schemaVersion := Manifest.supportedVersion
  caps := ""
  layout := layout
  tables := .empty
  paramTables := .insert .empty "record" params

def program : Program := ⟨layout, .none, .empty, .insert .empty "record" params⟩

/-- Each may be used on its own; both ask for the last parameter. -/
def twice : List Keyword := [⟨9, 1, .int 30⟩, ⟨9, 1, .int 31⟩]

end Sample

/-- The sample function in a program of its own, called with its last parameter named twice. -/
theorem Manifest.keywords_conflict_twice :
    Sample.manifest.toProgram .unset = .ok Sample.program ∧ Sample.params.Unambiguous ∧
    ¬ (Sample.twice.map Keyword.code).Nodup ∧
    Sample.machine.Refuses Sample.state (.ofObject ⟨1⟩) false Sample.twice #[.null]
      .parameterOccupied := by
  have hprogram : Sample.manifest.toProgram .unset = .ok Sample.program := rfl
  have hrepeated : ¬ (Sample.twice.map Keyword.code).Nodup := by decide
  have hvalues : ∀ k ∈ Sample.twice, k.value ≠ .null := by decide
  have hresolved : ∀ k ∈ Sample.twice, ∃ p, Sample.params.position? k = some p ∧
      (supply #[.null] (some (.int 1))).size ≤ p := by
    intro k hk
    refine ⟨3, ?_, by decide⟩
    revert k
    decide
  have htable : Sample.program.paramTables.get? "record" = some Sample.params := rfl
  obtain ⟨hunambiguous, hcalls⟩ := keywords_conflict_iff hprogram htable
  obtain ⟨-, -, -, hiff⟩ := hcalls Sample.machine Sample.state (.ofObject ⟨1⟩) ⟨0⟩ (some (.int 1)) false
    #[.null] Sample.twice Sample.targets
  exact ⟨hprogram, hunambiguous, hrepeated,
    (hiff hvalues hresolved (by decide) (by decide)).2 hrepeated⟩

end ObjectRuntime
