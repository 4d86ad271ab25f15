import ObjectRuntime.Proofs.Invocation

/-! Which function a call runs. Once the arguments are bound, the context decides first: a class in slot
zero means that a method was taken from its class, and then no function of the target is looked at. With any
other context the function is the target's own or that of its bound version. To know beforehand that the
target has a function only saves the look for it. -/

namespace ObjectRuntime

namespace Heap

variable {h : Heap} {o : ObjectRef} {pos : Nat} {a : Attr} {bound : Array Attr} {e : Halt}

theorem load_eq_ok_iff : h.load o pos = .ok a ↔ (h.object o).slots[pos]? = some a := by
  unfold load
  cases (h.object o).slots[pos]? <;> simp

theorem load_eq_error_iff : h.load o pos = .error e ↔ e = .fault ∧ (h.object o).slots.size ≤ pos := by
  unfold load
  cases hslot : (h.object o).slots[pos]? with
  | none => simpa [eq_comm] using fun _ => Array.getElem?_eq_none_iff.1 hslot
  | some a => simpa using fun _ => (Array.getElem?_eq_some_iff.1 hslot).1

/-- Slot zero of the arguments refers to an object that is no instance. -/
def LedByClass (h : Heap) (bound : Array Attr) : Prop :=
  ∃ context r, bound[0]? = some (.value context r) ∧ (h.object r).isInstance = false

theorem acceptsContext_iff : h.acceptsContext (bound.getD 0 .null) ↔ ¬ h.LedByClass bound := by
  rw [LedByClass, Array.getD_eq_getD_getElem?]
  rcases bound[0]? with _ | a
  · simp [acceptsContext]
  · cases a <;> simp [acceptsContext]

theorem acceptsContext_eq_false_iff : h.acceptsContext (bound.getD 0 .null) = false ↔ h.LedByClass bound := by
  rw [← Bool.not_eq_true, acceptsContext_iff, not_not]

end Heap

namespace Layout

variable {l : Layout} {h : Heap} {callable context : Attr} {target : ObjectRef} {proven : Bool}
  {func : NativeRef} {bound : Array Attr}

/-- The function of a target is the one in its own slot. Where that refers to a bound version, it is the one
in the slot of this. -/
inductive Provides (l : Layout) (h : Heap) (target : ObjectRef) (func : NativeRef) : Prop where
  | own (hslot : (h.object target).slots[l.fnSlot.pos.toNat]? = some (.callable none func))
  | bound {version : ObjectRef} {stored : NativeRef} {further : Option ObjectRef}
    (hslot : (h.object target).slots[l.fnSlot.pos.toNat]? = some (.callable (some version) stored))
    (hversion : (h.object version).slots[l.fnSlot.pos.toNat]? = some (.callable further func))

theorem functionOf_eq_ok_iff : l.functionOf h target = .ok func ↔ l.Provides h target func := by
  unfold functionOf
  simp only [bind_eq_ok_iff, Heap.load_eq_ok_iff]
  refine ⟨?_, ?_⟩
  · rintro ⟨a, hslot, hfunc⟩
    split at hfunc
    · cases hfunc
      exact .own hslot
    · obtain ⟨b, hversion, hfunc⟩ := bind_eq_ok_iff.1 hfunc
      split at hfunc
      · cases hfunc
        exact .bound hslot (Heap.load_eq_ok_iff.1 hversion)
      · cases hfunc
    · cases hfunc
  · intro hfunc
    cases hfunc with
    | own hslot => exact ⟨_, hslot, rfl⟩
    | bound hslot hversion =>
      exact ⟨_, hslot, bind_eq_ok_iff.2 ⟨_, Heap.load_eq_ok_iff.2 hversion, rfl⟩⟩

theorem dispatch_of_ledByClass (hclass : h.LedByClass bound) :
    l.dispatch h target proven (bound.getD 0 .null) = .ok .unboundMethod := by
  simp only [dispatch, Heap.acceptsContext_eq_false_iff.2 hclass, Bool.not_false, if_true]

theorem dispatch_eq_ok_iff (hclass : ¬ h.LedByClass bound) :
    l.dispatch h target proven (bound.getD 0 .null) = .ok func ↔
      (proven ∨ (h.object target).hasAttr l.fnSlot) ∧ l.Provides h target func := by
  have hcontext : h.acceptsContext (bound.getD 0 .null) := Heap.acceptsContext_iff.2 hclass
  by_cases hexposed : proven ∨ (h.object target).hasAttr l.fnSlot
  · rw [dispatch_of_acceptsContext hcontext hexposed, functionOf_eq_ok_iff]
    simp [hexposed]
  · have hhidden : (proven || (h.object target).hasAttr l.fnSlot) = false := by simpa using hexposed
    simp only [dispatch, hcontext, hhidden, Bool.not_true, Bool.false_eq_true, if_false, reduceCtorEq, hexposed,
      false_and]

theorem dispatch_proven (hattr : (h.object target).hasAttr l.fnSlot) :
    l.dispatch h target true context = l.dispatch h target false context := by
  simp [dispatch, hattr]

/-- The look for the function is the only difference that `proven` makes, and it comes last. -/
theorem prepare_proven (htarget : (l.unwrap h callable).1.object? = some target)
    (hattr : (h.object target).hasAttr l.fnSlot) (ks : List Keyword) (args : Array Attr) :
    l.prepare h callable true ks args = l.prepare h callable false ks args := by
  simp only [prepare, htarget, dispatch_proven hattr]

end Layout

namespace Machine

/-- Where the target has a function, it makes no difference whether this was known. And however the context
comes about, once the arguments are bound a class in slot zero is refused and nothing of the target is run,
while in any other context the function that the target provides is run, and no other. -/
theorem dispatch_paths (m : Machine) (s : State) (callable : Attr) (ks : List Keyword) (args : Array Attr) :
    (∀ target, (m.layout.unwrap s.heap callable).1.object? = some target →
      (s.heap.object target).hasAttr m.layout.fnSlot →
      m.layout.prepare s.heap callable true ks args = m.layout.prepare s.heap callable false ks args ∧
      ∀ natives, m.invoke natives callable true ks args s = m.invoke natives callable false ks args s) ∧
    (∀ (proven : Bool) (target : ObjectRef) (context : Option Attr) (t : ParamTable) (bound : Array Attr),
      m.layout.Targets s.heap callable target context t →
      m.layout.bindArgs (s.heap.object target) t (supply args context) ks = .ok bound →
      (s.heap.LedByClass bound → m.Refuses s callable proven ks args .unboundMethod) ∧
      (¬ s.heap.LedByClass bound →
        (∀ c, m.layout.prepare s.heap callable proven ks args = .ok c ↔
          c.args = bound ∧ (proven ∨ (s.heap.object target).hasAttr m.layout.fnSlot) ∧
            m.layout.Provides s.heap target c.native) ∧
        ∀ name got, m.Runs s callable proven ks args ⟨.named name, got⟩ →
          got = bound ∧ m.layout.Provides s.heap target (.named name))) := by
  refine ⟨fun target htarget hattr => ?_, fun proven target context t bound htargets hbind => ⟨fun hclass => ?_,
    fun hclass => ?_⟩⟩
  · have hprepare := Layout.prepare_proven htarget hattr ks args
    refine ⟨hprepare, fun natives => ?_⟩
    rw [invoke_eq, invoke_eq, hprepare]
  · have hprepare : m.layout.prepare s.heap callable proven ks args = .ok ⟨.unboundMethod, bound⟩ :=
      (Layout.prepare_eq_ok_iff htargets).2 ⟨hbind, Layout.dispatch_of_ledByClass hclass⟩
    exact runs_of_prepare hprepare
  · have hcalls : ∀ c, m.layout.prepare s.heap callable proven ks args = .ok c ↔
        c.args = bound ∧ (proven ∨ (s.heap.object target).hasAttr m.layout.fnSlot) ∧
          m.layout.Provides s.heap target c.native := by
      rintro ⟨func, got⟩
      rw [Layout.prepare_eq_ok_iff htargets, hbind, Except.ok.injEq, eq_comm]
      refine and_congr_right ?_
      rintro rfl
      exact Layout.dispatch_eq_ok_iff hclass
    refine ⟨hcalls, fun name got hruns => ?_⟩
    obtain ⟨hgot, -, hprovides⟩ := (hcalls _).1 (prepare_of_runs hruns)
    exact ⟨hgot, hprovides⟩

end Machine

namespace Sample

/-- A method, whose bound version is the sample function. -/
def method : Object :=
  { function with slots := function.slots.set! 2 (.callable (some ⟨0⟩) .unboundMethod) }

def classObject : Object := ⟨⟨#[1]⟩, 7, .immutable, #[.null]⟩

def methods : State := { state with heap := ⟨#[function, wrapper, method, classObject], #[]⟩ }

theorem targets_method : layout.Targets methods.heap (.ofObject ⟨2⟩) ⟨2⟩ none params :=
  ⟨⟨.ofObject ⟨2⟩, rfl, rfl⟩, 0, rfl⟩

end Sample

/-- A method is called on nothing in particular, and taken from its class. -/
theorem Machine.dispatch_paths_sample :
    (Sample.methods.heap.object ⟨2⟩).hasAttr Sample.layout.fnSlot ∧
    (∀ natives, Sample.machine.invoke natives (.ofObject ⟨2⟩) true Sample.keywords #[.null] Sample.methods =
      Sample.machine.invoke natives (.ofObject ⟨2⟩) false Sample.keywords #[.null] Sample.methods) ∧
    Sample.layout.prepare Sample.methods.heap (.ofObject ⟨2⟩) false Sample.keywords #[.null] =
      .ok ⟨.named "record", #[.null, .int 5, .int 6, .int 30]⟩ ∧
    Sample.methods.heap.LedByClass #[.ofObject ⟨3⟩, .int 5, .int 6, .int 30] ∧
    Sample.machine.Refuses Sample.methods (.ofObject ⟨2⟩) true Sample.keywords #[.ofObject ⟨3⟩]
      .unboundMethod := by
  have hattr : (Sample.methods.heap.object ⟨2⟩).hasAttr Sample.machine.layout.fnSlot := by decide
  have hclass : Sample.methods.heap.LedByClass #[.ofObject ⟨3⟩, .int 5, .int 6, .int 30] :=
    ⟨none, ⟨3⟩, rfl, rfl⟩
  have hplain : ¬ Sample.methods.heap.LedByClass #[.null, .int 5, .int 6, .int 30] := by
    rintro ⟨context, r, hslot, -⟩
    cases hslot
  obtain ⟨hagree, -⟩ := dispatch_paths Sample.machine Sample.methods (.ofObject ⟨2⟩) Sample.keywords #[.null]
  obtain ⟨-, hbound⟩ :=
    dispatch_paths Sample.machine Sample.methods (.ofObject ⟨2⟩) Sample.keywords #[.ofObject ⟨3⟩]
  obtain ⟨-, hcalls⟩ :=
    dispatch_paths Sample.machine Sample.methods (.ofObject ⟨2⟩) Sample.keywords #[.null]
  refine ⟨hattr, (hagree ⟨2⟩ rfl hattr).2, ?_, hclass, ?_⟩
  · exact (((hcalls false ⟨2⟩ none Sample.params _ Sample.targets_method rfl).2 hplain).1 _).2
      ⟨rfl, Or.inr hattr, .bound rfl rfl⟩
  · exact (hbound true ⟨2⟩ none Sample.params _ Sample.targets_method rfl).1 hclass

end ObjectRuntime
