import ObjectRuntime.Proofs.Dispatch
import ObjectRuntime.Proofs.Slots
import ObjectRuntime.Proofs.Supplied

/-! Faults of calls. Binding looks at everything with a check, but for how far positions reach. After it a call
goes from a method to its bound version, and that an object is referred to as one does not say that it has a
function; nor is the function of the target looked for where it is known to be there. No call faults for
another reason. -/

namespace ObjectRuntime

theorem Heap.loadChecked_error {h : Heap} {o : ObjectRef} {slot : AttrSlot} {e : Halt}
    (herr : h.loadChecked o slot = .error e) : e = .type .attributeMissing := by
  unfold loadChecked at herr
  split at herr
  · rename_i hattr
    have hsize := (Heap.load_eq_error_iff.1 herr).2
    exact absurd (Object.hasAttr_iff.1 hattr).2.2 (Nat.not_lt.2 hsize)
  · exact (Except.error.inj herr).symm

namespace Layout

variable {l : Layout} {h : Heap} {callable : Attr} {target : ObjectRef} {o : Object} {t : ParamTable}
  {args bound : Array Attr} {ks : List Keyword} {proven : Bool} {e : Halt}

/-! ### Binding -/

/-- The default of a position that is left lies further than positions reach, and every position left before
it has one. -/
def Overreaches (l : Layout) (o : Object) (t : ParamTable) (given : Nat) (ks : List Keyword) : Prop :=
  ∃ p, t.IsLeft given ks p ∧ 2 ^ 64 ≤ l.functionSize.toNat + (p - t.min.toNat) ∧
    ∀ q, t.IsLeft given ks q → q < p → ∃ a, l.defaultFor o t.min.toNat q = .ok a

/-- Binding faults at a default, and at nothing that comes before. -/
theorem bindArgs_eq_fault_iff : l.bindArgs o t args ks = .error .fault ↔
    (t.min.toNat ≤ args.size + ks.length ∧ args.size + ks.length ≤ t.max.toNat) ∧
    (∃ named, ks.foldlM (t.bindKeyword args.size) (t.buffer args) = .ok named) ∧
    l.Overreaches o t args.size ks := by
  rcases bindArgs_cases l o t args ks with ⟨hsize, -, hfast⟩ | ⟨harity, herr⟩ | ⟨harity, hloops⟩
  · rw [hfast]
    refine ⟨nofun, ?_⟩
    rintro ⟨-, -, p, ⟨hle, hlt, -⟩, -⟩
    exact absurd (hle.trans_lt hlt) (Nat.not_lt.2 hsize.ge)
  · rw [herr]
    exact ⟨nofun, fun hbinds => by omega⟩
  rw [hloops, bind_eq_error_iff]
  simp only [foldlM_fillDefault_eq_error_iff List.pairwise_lt_range', defaultFor_eq_fault_iff, mem_positions_iff]
  refine ⟨?_, ?_⟩
  · rintro (h | ⟨named, hnamed, p, ⟨hle, -⟩, hnull, hover, hearlier⟩)
    · rcases ParamTable.foldlM_bindKeyword_error h with h | h <;> cases h
    · have hleft := fun {q : Nat} => ParamTable.foldlM_bindKeyword_isLeft_iff (p := q) hnamed
      exact ⟨harity, ⟨named, hnamed⟩, p, (hleft hle).1 hnull, hover,
        fun q hq hlt => hearlier q ⟨hq.1, hq.2.1⟩ hlt ((hleft hq.1).2 hq)⟩
  · rintro ⟨-, ⟨named, hnamed⟩, p, hp, hover, hearlier⟩
    have hleft := fun {q : Nat} => ParamTable.foldlM_bindKeyword_isLeft_iff (p := q) hnamed
    exact Or.inr ⟨named, hnamed, p, ⟨hp.1, hp.2.1⟩, (hleft hp.1).2 hp, hover,
      fun q hq hlt hnull => hearlier q ((hleft hq.1).1 hnull) hlt⟩

/-! ### The function -/

/-- The target refers to a bound version, and that reaches no further than before the slot of a function. -/
def Dangles (l : Layout) (h : Heap) (target : ObjectRef) : Prop :=
  ∃ version func, (h.object target).slots[l.fnSlot.pos.toNat]? = some (.callable (some version) func) ∧
    (h.object version).slots.size ≤ l.fnSlot.pos.toNat

theorem functionOf_eq_fault_iff : l.functionOf h target = .error .fault ↔
    (h.object target).slots.size ≤ l.fnSlot.pos.toNat ∨ l.Dangles h target := by
  unfold functionOf Dangles
  refine ⟨?_, ?_⟩
  · intro herr
    rcases bind_eq_error_iff.1 herr with herr | ⟨a, hslot, herr⟩
    · exact Or.inl (Heap.load_eq_error_iff.1 herr).2
    · split at herr
      · cases herr
      · rcases bind_eq_error_iff.1 herr with herr | ⟨b, -, herr⟩
        · exact Or.inr ⟨_, _, Heap.load_eq_ok_iff.1 hslot, (Heap.load_eq_error_iff.1 herr).2⟩
        · split at herr <;> cases herr
      · cases herr
  · rintro (hshort | ⟨version, func, hslot, hshort⟩)
    · exact bind_eq_error_iff.2 (Or.inl (Heap.load_eq_error_iff.2 ⟨rfl, hshort⟩))
    · exact bind_eq_error_iff.2 (Or.inr ⟨_, Heap.load_eq_ok_iff.2 hslot,
        bind_eq_error_iff.2 (Or.inl (Heap.load_eq_error_iff.2 ⟨rfl, hshort⟩))⟩)

theorem dispatch_eq_fault_iff : l.dispatch h target proven (bound.getD 0 .null) = .error .fault ↔
    ¬ h.LedByClass bound ∧ (proven ∨ (h.object target).hasAttr l.fnSlot) ∧
      ((h.object target).slots.size ≤ l.fnSlot.pos.toNat ∨ l.Dangles h target) := by
  by_cases hclass : h.LedByClass bound
  · rw [dispatch_of_ledByClass hclass]
    simp [hclass]
  have hcontext := Heap.acceptsContext_iff.2 hclass
  by_cases hexposed : proven ∨ (h.object target).hasAttr l.fnSlot
  · rw [dispatch_of_acceptsContext hcontext hexposed, functionOf_eq_fault_iff]
    simp only [hclass, not_false_eq_true, hexposed, true_and]
  · have hhidden : (proven || (h.object target).hasAttr l.fnSlot) = false := by simpa using hexposed
    simp only [dispatch, hcontext, hhidden, Bool.not_true, Bool.false_eq_true, if_false, hexposed, false_and,
      and_false, reduceCtorEq, Except.error.injEq, Halt.type]

/-! ### Calls -/

/-- A call has a target, or it is refused whatever it is given. -/
theorem targets_or_refused (l : Layout) (h : Heap) (callable : Attr) :
    (∃ target context t, l.Targets h callable target context t) ∨
    ∃ cause, cause ≠ .unboundMethod ∧
      ∀ proven ks args, l.prepare h callable proven ks args = .error (.type cause) := by
  rcases hunwrap : l.unwrap h callable with ⟨a, context⟩
  simp only [prepare, hunwrap]
  cases hobject : a.object? with
  | none => exact Or.inr ⟨.notCallable, by decide, fun _ _ _ => rfl⟩
  | some target =>
    simp only
    cases hload : h.loadChecked target l.argsSlot with
    | error e =>
      rw [Heap.loadChecked_error hload]
      exact Or.inr ⟨.attributeMissing, by decide, fun _ _ _ => rfl⟩
    | ok params =>
      cases params with
      | args lower t => exact Or.inl ⟨target, context, t, ⟨a, hunwrap, hobject⟩, lower, hload⟩
      | _ => exact Or.inr ⟨.notCallable, by decide, fun _ _ _ => rfl⟩

theorem prepare_error (herr : l.prepare h callable proven ks args = .error e) :
    (∃ cause, cause ≠ .unboundMethod ∧ e = .type cause) ∨ e = .fault := by
  rcases l.targets_or_refused h callable with ⟨target, context, t, htargets⟩ | ⟨cause, hcause, hrefused⟩
  · rw [prepare_of_targets htargets, bind_eq_error_iff] at herr
    rcases herr with herr | ⟨bound, -, herr⟩
    · rcases bindArgs_error_cases herr with hcause | ⟨rfl, -⟩
      · exact Or.inl hcause
      · exact Or.inr rfl
    · rcases bind_eq_error_iff.1 herr with herr | ⟨func, -, herr⟩
      · rcases dispatch_error herr with rfl | rfl
        · exact Or.inr rfl
        · exact Or.inl ⟨.notCallable, by decide, rfl⟩
      · cases herr
  · rw [hrefused] at herr
    exact Or.inl ⟨cause, hcause, (Except.error.inj herr).symm⟩

/-- Why a call faults: at a default, when the arguments count right and the keywords are bound; or else, when
all arguments are bound and do not start with a class, at the slot of a function that nobody looked for. -/
inductive OutOfReach (l : Layout) (h : Heap) (callable : Attr) (proven : Bool) (ks : List Keyword)
    (args : Array Attr) : Prop where
  | default {target : ObjectRef} {context : Option Attr} {t : ParamTable} {named : Array Attr}
    (htargets : l.Targets h callable target context t)
    (hmin : t.min.toNat ≤ (supply args context).size + ks.length)
    (hmax : (supply args context).size + ks.length ≤ t.max.toNat)
    (hnamed : ks.foldlM (t.bindKeyword (supply args context).size) (t.buffer (supply args context)) = .ok named)
    (hover : l.Overreaches (h.object target) t (supply args context).size ks)
  | own {target : ObjectRef} {context : Option Attr} {t : ParamTable} {bound : Array Attr}
    (htargets : l.Targets h callable target context t)
    (hbound : l.bindArgs (h.object target) t (supply args context) ks = .ok bound)
    (hclass : ¬ h.LedByClass bound) (hproven : proven)
    (hshort : (h.object target).slots.size ≤ l.fnSlot.pos.toNat)
  | version {target : ObjectRef} {context : Option Attr} {t : ParamTable} {bound : Array Attr}
    (htargets : l.Targets h callable target context t)
    (hbound : l.bindArgs (h.object target) t (supply args context) ks = .ok bound)
    (hclass : ¬ h.LedByClass bound) (hexposed : proven ∨ (h.object target).hasAttr l.fnSlot)
    (hdangles : l.Dangles h target)

/-- A call faults just where something is out of reach. -/
theorem prepare_eq_fault_iff : l.prepare h callable proven ks args = .error .fault ↔
    l.OutOfReach h callable proven ks args := by
  refine ⟨fun hfault => ?_, ?_⟩
  · rcases l.targets_or_refused h callable with ⟨target, context, t, htargets⟩ | ⟨cause, -, hrefused⟩
    · rw [prepare_of_targets htargets, bind_eq_error_iff, bindArgs_eq_fault_iff] at hfault
      rcases hfault with ⟨⟨hmin, hmax⟩, ⟨named, hnamed⟩, hover⟩ | ⟨bound, hbound, hfault⟩
      · exact .default htargets hmin hmax hnamed hover
      · rcases bind_eq_error_iff.1 hfault with hfault | ⟨func, -, hfault⟩
        · obtain ⟨hclass, hexposed, hshort | hdangles⟩ := dispatch_eq_fault_iff.1 hfault
          · refine .own htargets hbound hclass (hexposed.resolve_right fun hattr => ?_) hshort
            exact absurd (Object.hasAttr_iff.1 hattr).2.2 (Nat.not_lt.2 hshort)
          · exact .version htargets hbound hclass hexposed hdangles
        · cases hfault
    · rw [hrefused] at hfault
      cases hfault
  · intro hout
    cases hout with
    | default htargets hmin hmax hnamed hover =>
      rw [prepare_of_targets htargets, bindArgs_eq_fault_iff.2 ⟨⟨hmin, hmax⟩, ⟨_, hnamed⟩, hover⟩]
      rfl
    | own htargets hbound hclass hproven hshort =>
      have hfault := dispatch_eq_fault_iff.2 ⟨hclass, Or.inl hproven, Or.inl hshort⟩
      rw [prepare_of_targets htargets, bind_eq_error_iff]
      exact Or.inr ⟨_, hbound, bind_eq_error_iff.2 (Or.inl hfault)⟩
    | version htargets hbound hclass hexposed hdangles =>
      have hfault := dispatch_eq_fault_iff.2 ⟨hclass, hexposed, Or.inr hdangles⟩
      rw [prepare_of_targets htargets, bind_eq_error_iff]
      exact Or.inr ⟨_, hbound, bind_eq_error_iff.2 (Or.inl hfault)⟩

end Layout

namespace Machine

/-- Invoking ends in a fault and does nothing else, whatever the natives would do. -/
def Faults (m : Machine) (s : State) (callable : Attr) (proven : Bool) (keywords : List Keyword)
    (args : Array Attr) : Prop :=
  ∀ natives, m.invoke natives callable proven keywords args s = .error .fault s

variable {m : Machine} {s : State} {callable : Attr} {proven : Bool} {ks : List Keyword} {args : Array Attr}

theorem faults_of_prepare (h : m.layout.prepare s.heap callable proven ks args = .error .fault) :
    m.Faults s callable proven ks args := by
  intro natives
  rw [invoke_eq, h]
  rfl

theorem faults_iff : m.Faults s callable proven ks args ↔
    m.layout.prepare s.heap callable proven ks args = .error .fault := by
  refine ⟨fun h => ?_, faults_of_prepare⟩
  -- natives that answer at once do not fault
  have heq := h fun _ _ => pure .null
  rw [invoke_eq] at heq
  cases hprepare : m.layout.prepare s.heap callable proven ks args with
  | error e =>
    rw [hprepare] at heq
    rw [(EStateM.Result.error.inj heq).1]
  | ok c =>
    rw [hprepare] at heq
    obtain ⟨native, bound⟩ := c
    cases native <;> cases heq

theorem Faults.not_runs_or_refuses (h : m.Faults s callable proven ks args) :
    ¬ ((∃ c, m.Runs s callable proven ks args c) ∨ ∃ cause, m.Refuses s callable proven ks args cause) := by
  -- with natives that answer at once, only a fault ends in one
  have hfault := h fun _ _ => pure .null
  rintro (⟨⟨native, bound⟩, hruns⟩ | ⟨cause, hrefused⟩)
  · have heq := (hruns fun _ _ => pure .null).symm.trans hfault
    cases native <;> cases heq
  · cases (hrefused fun _ _ => pure .null).symm.trans hfault

/-- A call runs a native of the program, is refused, or faults. -/
theorem runs_or_refuses_or_faults (m : Machine) (s : State) (callable : Attr) (proven : Bool)
    (ks : List Keyword) (args : Array Attr) :
    (∃ name bound, m.Runs s callable proven ks args ⟨.named name, bound⟩) ∨
    (∃ cause, m.Refuses s callable proven ks args cause) ∨ m.Faults s callable proven ks args := by
  cases hprepare : m.layout.prepare s.heap callable proven ks args with
  | ok c =>
    obtain ⟨native, bound⟩ := c
    cases native with
    | unboundMethod => exact Or.inr (Or.inl ⟨.unboundMethod, runs_of_prepare hprepare⟩)
    | named name => exact Or.inl ⟨name, bound, runs_of_prepare hprepare⟩
  | error e =>
    rcases Layout.prepare_error hprepare with ⟨cause, -, rfl⟩ | rfl
    · exact Or.inr (Or.inl ⟨cause, refuses_of_prepare hprepare⟩)
    · exact Or.inr (Or.inr (faults_of_prepare hprepare))

/-- Two calls that come down to the same end alike, and if they fault then something is out of reach for
both. -/
theorem alike_of_prepare_eq {s' : State} {ks' : List Keyword}
    (h : m.layout.prepare s'.heap callable proven ks' args = m.layout.prepare s.heap callable proven ks args) :
    (∃ c, m.Runs s callable proven ks args c ∧ m.Runs s' callable proven ks' args c) ∨
    (∃ cause, m.Refuses s callable proven ks args cause ∧ m.Refuses s' callable proven ks' args cause) ∨
    (m.Faults s callable proven ks args ∧ m.Faults s' callable proven ks' args ∧
      m.layout.OutOfReach s.heap callable proven ks args ∧
      m.layout.OutOfReach s'.heap callable proven ks' args) := by
  cases hprepare : m.layout.prepare s.heap callable proven ks args with
  | ok c => exact Or.inl ⟨c, runs_of_prepare hprepare, runs_of_prepare (h.trans hprepare)⟩
  | error e =>
    have hprepare' := h.trans hprepare
    rcases Layout.prepare_error hprepare with ⟨cause, -, rfl⟩ | rfl
    · exact Or.inr (Or.inl ⟨cause, refuses_of_prepare hprepare, refuses_of_prepare hprepare'⟩)
    · exact Or.inr (Or.inr ⟨faults_of_prepare hprepare, faults_of_prepare hprepare',
        Layout.prepare_eq_fault_iff.1 hprepare, Layout.prepare_eq_fault_iff.1 hprepare'⟩)

/-- Where positions reach as far as the defaults of the target, a checked call faults before its native just
if it binds, is not taken from a class, and comes to a method whose bound version has no slot for a function.
A call that neither faults nor runs a native is a type error. -/
theorem checked_call_faults_iff (ks : List Keyword) (args : Array Attr)
    (hroom : ∀ target context t, m.layout.Targets s.heap callable target context t →
      m.layout.functionSize.toNat + t.max.toNat ≤ 2 ^ 64) :
    (m.Faults s callable false ks args ↔ ∃ target context t bound,
      m.layout.Targets s.heap callable target context t ∧
      m.layout.bindArgs (s.heap.object target) t (supply args context) ks = .ok bound ∧
      ¬ s.heap.LedByClass bound ∧ (s.heap.object target).hasAttr m.layout.fnSlot ∧
      m.layout.Dangles s.heap target) ∧
    ((∃ name bound, m.Runs s callable false ks args ⟨.named name, bound⟩) ∨
      (∃ cause, m.Refuses s callable false ks args cause) ∨ m.Faults s callable false ks args) := by
  refine ⟨?_, runs_or_refuses_or_faults m s callable false ks args⟩
  rw [faults_iff, Layout.prepare_eq_fault_iff]
  refine ⟨fun hout => ?_, ?_⟩
  · cases hout with
    | default htargets hmin hmax hnamed hover =>
      obtain ⟨p, ⟨-, hlt, -⟩, hover, -⟩ := hover
      have := hroom _ _ _ htargets
      omega
    | own htargets hbound hclass hproven hshort => cases hproven
    | version htargets hbound hclass hexposed hdangles =>
      exact ⟨_, _, _, _, htargets, hbound, hclass, hexposed.resolve_left Bool.false_ne_true, hdangles⟩
  · rintro ⟨target, context, t, bound, htargets, hbound, hclass, hattr, hdangles⟩
    exact .version htargets hbound hclass (Or.inr hattr) hdangles

end Machine

namespace Sample

/-- A method whose bound version is an object of one slot. -/
def dangling : Object :=
  { function with slots := function.slots.set! 2 (.callable (some ⟨3⟩) (.named "record")) }

def danglings : State := { state with heap := ⟨#[function, wrapper, dangling, classObject], #[]⟩ }

theorem targets_dangling {target : ObjectRef} {context : Option Attr} {t : ParamTable}
    (h : layout.Targets danglings.heap (.ofObject ⟨2⟩) target context t) :
    target = ⟨2⟩ ∧ context = none ∧ t = params := by
  obtain ⟨⟨a, hunwrap, hobject⟩, lower, hparams⟩ := h
  cases hunwrap
  cases hobject
  cases hparams
  exact ⟨rfl, rfl, rfl⟩

end Sample

/-- The dangling method faults when its arguments bind, and is refused with a keyword too many. -/
theorem Machine.checked_call_faults_sample :
    Sample.machine.Faults Sample.danglings (.ofObject ⟨2⟩) false Sample.keywords #[.null] ∧
    ∃ cause, Sample.machine.Refuses Sample.danglings (.ofObject ⟨2⟩) false
      (Sample.keywords ++ Sample.keywords) #[.null] cause := by
  have hroom : ∀ target context t,
      Sample.machine.layout.Targets Sample.danglings.heap (.ofObject ⟨2⟩) target context t →
      Sample.machine.layout.functionSize.toNat + t.max.toNat ≤ 2 ^ 64 := by
    intro target context t h
    obtain ⟨-, -, rfl⟩ := Sample.targets_dangling h
    decide
  refine ⟨(checked_call_faults_iff Sample.keywords #[.null] hroom).1.2 ?_, ?_⟩
  · refine ⟨⟨2⟩, none, Sample.params, #[.null, .int 5, .int 6, .int 30], ⟨⟨.ofObject ⟨2⟩, rfl, rfl⟩, 0, rfl⟩,
      rfl, ?_, by decide, ⟨3⟩, _, rfl, by decide⟩
    rintro ⟨context, r, hslot, -⟩
    cases hslot
  · rcases (checked_call_faults_iff (Sample.keywords ++ Sample.keywords) #[.null] hroom).2 with
      ⟨name, bound, hruns⟩ | hrefused | hfaults
    · cases prepare_of_runs hruns
    · exact hrefused
    · cases faults_iff.1 hfaults

end ObjectRuntime
