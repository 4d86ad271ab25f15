import ObjectRuntime.Proofs.Invocation
import ObjectRuntime.Proofs.Slots

/-! Calls through a wrapper. A wrapper that has just been made holds its context and its target in slots
of their own, so taking it apart gives both back, and calling it is calling its target with the context in
front. -/

namespace ObjectRuntime

theorem supply_some (c : Attr) (args : Array Attr) :
    supply args (some c) = (c :: args.toList.tail).toArray := by
  obtain ⟨as⟩ := args
  cases as with
  | nil => rfl
  | cons a as => simp [supply]

namespace Layout

variable {l : Layout} {h : Heap} {callable target : Attr} {o : ObjectRef}

theorem unwrap_of_plain
    (hplain : ∀ o, callable.object? = some o → (h.object o).loadOrNull l.valueSlot = .null) :
    l.unwrap h callable = (callable, none) := by
  unfold unwrap
  cases ho : callable.object? with
  | none => rfl
  | some o => simp [hplain o ho, Attr.isNull]

theorem unwrap_ofObject (hne : (h.object o).loadOrNull l.valueSlot ≠ .null) :
    l.unwrap h (.ofObject o) =
      ((h.object o).loadOrNull l.valueSlot, some ((h.object o).loadOrNull l.contextSlot)) := by
  simp [unwrap, Attr.ofObject, Attr.object?, Attr.isNull, hne]

/-- Binding depends on a callable only through its target and context, and a context only comes in
front of the arguments. -/
theorem prepare_of_unwrap {context : Attr} (hcallable : l.unwrap h callable = (target, some context))
    (htarget : l.unwrap h target = (target, none)) (proven : Bool) (ks : List Keyword)
    (args : Array Attr) :
    l.prepare h callable proven ks args =
      l.prepare h target proven ks (context :: args.toList.tail).toArray := by
  unfold prepare
  simp only [hcallable, htarget, supply_some]
  rfl

end Layout

namespace Machine

variable {m : Machine} {context target : Attr} {s s' : State} {w : ObjectRef}

/-- A new wrapper is an object of its own, and its two slots hold what they were given. -/
theorem newWrapper_eq_ok (hcodes : m.layout.contextSlot.code ≠ m.layout.valueSlot.code)
    (h : m.newWrapper context target s = .ok w s') :
    (s'.heap.object w).loadOrNull m.layout.contextSlot = context ∧
    (s'.heap.object w).loadOrNull m.layout.valueSlot = target ∧
    ∀ r, r ≠ w → s'.heap.object r = s.heap.object r := by
  unfold newWrapper at h
  cases hclass : m.builtins.wrapper with
  | none =>
    simp only [hclass] at h
    cases h
  | some c =>
    simp only [hclass] at h
    obtain ⟨o, made, hnew, h⟩ := ActionOn.bind_eq_ok_iff.1 h
    obtain ⟨u, bound, hbind, h⟩ := ActionOn.bind_eq_ok_iff.1 h
    obtain ⟨v, wrapped, hwrap, h⟩ := ActionOn.bind_eq_ok_iff.1 h
    cases h
    obtain ⟨hcontext, rfl⟩ := storeChecked_eq_ok_iff.1 hbind
    obtain ⟨hvalue, rfl⟩ := storeChecked_eq_ok_iff.1 hwrap
    have hslots : m.layout.contextSlot ≠ m.layout.valueSlot := fun heq => hcodes (by rw [heq])
    refine ⟨?_, Heap.loadOrNull_setSlot_self hvalue, fun r hr => ?_⟩
    · rw [Heap.loadOrNull_setSlot_of_ne hvalue hslots, Heap.loadOrNull_setSlot_self hcontext]
    · rw [Heap.object_setSlot_of_ne hr, Heap.object_setSlot_of_ne hr, object_of_newObject hnew hr]

/-- Calling a wrapper that was made for a target which is none itself comes to the same as calling the
target with the context in front: the same native on the same arguments, or the same error. The wrapper
is new, so no reference that was there before is to it (`hfresh`). -/
theorem invoke_newWrapper (hcodes : m.layout.contextSlot.code ≠ m.layout.valueSlot.code)
    (hne : target ≠ .null)
    (hplain : ∀ o, target.object? = some o → (s.heap.object o).loadOrNull m.layout.valueSlot = .null)
    (hfresh : target.object? ≠ some w) (h : m.newWrapper context target s = .ok w s') (proven : Bool)
    (ks : List Keyword) (args : Array Attr) :
    m.layout.prepare s'.heap (.ofObject w) proven ks args =
      m.layout.prepare s'.heap target proven ks (context :: args.toList.tail).toArray ∧
    ∀ natives, m.invoke natives (.ofObject w) proven ks args s' =
      m.invoke natives target proven ks (context :: args.toList.tail).toArray s' := by
  obtain ⟨hcontext, hvalue, hframe⟩ := newWrapper_eq_ok hcodes h
  have htarget : m.layout.unwrap s'.heap target = (target, none) := by
    apply Layout.unwrap_of_plain
    intro o ho
    have hother : o ≠ w := by
      rintro rfl
      exact hfresh ho
    rw [hframe o hother]
    exact hplain o ho
  have hwrapper : m.layout.unwrap s'.heap (.ofObject w) = (target, some context) := by
    rw [Layout.unwrap_ofObject (by rwa [hvalue]), hvalue, hcontext]
  have hprepare := Layout.prepare_of_unwrap hwrapper htarget proven ks args
  refine ⟨hprepare, fun natives => ?_⟩
  rw [invoke_eq, invoke_eq, hprepare]

end Machine

namespace Sample

/-- The sample program with a wrapper class of its own. -/
def wrapping : Machine :=
  { machine with builtins := { machine.builtins with wrapper := some ⟨wrapper.table, ⟨0⟩, 6⟩ } }

/-- What the sample state becomes when its function is bound to a context. -/
def wrapped : State where
  heap := ⟨#[function, wrapper,
    { wrapper with slots := #[.ofObject ⟨0⟩, .null, .null, .null, .ofObject ⟨0⟩, .int 2] }], #[]⟩
  allocator := ⟨none, ⟨1, 0, 0, 6⟩⟩
  calls := #[]

end Sample

/-- The new wrapper is called with an argument and a keyword, and without any argument at all. -/
theorem Machine.invoke_newWrapper_sample :
    Sample.wrapping.newWrapper (.int 2) (.ofObject ⟨0⟩) Sample.state = .ok ⟨2⟩ Sample.wrapped ∧
    ∀ natives,
      Sample.wrapping.invoke natives (.ofObject ⟨2⟩) false Sample.keywords #[.null, .int 9] Sample.wrapped =
        Sample.wrapping.invoke natives (.ofObject ⟨0⟩) false Sample.keywords #[.int 2, .int 9]
          Sample.wrapped ∧
      Sample.wrapping.invoke natives (.ofObject ⟨2⟩) false [] #[] Sample.wrapped =
        Sample.wrapping.invoke natives (.ofObject ⟨0⟩) false [] #[.int 2] Sample.wrapped := by
  have hmade : Sample.wrapping.newWrapper (.int 2) (.ofObject ⟨0⟩) Sample.state =
      .ok ⟨2⟩ Sample.wrapped := rfl
  have hcodes : Sample.wrapping.layout.contextSlot.code ≠ Sample.wrapping.layout.valueSlot.code := by
    decide
  have hplain : ∀ o, (Attr.ofObject ⟨0⟩).object? = some o →
      (Sample.state.heap.object o).loadOrNull Sample.wrapping.layout.valueSlot = .null := by
    intro o ho
    obtain rfl : (⟨0⟩ : ObjectRef) = o := Option.some.inj ho
    rfl
  have hne : Attr.ofObject ⟨0⟩ ≠ .null := by decide
  have hfresh : (Attr.ofObject ⟨0⟩).object? ≠ some ⟨2⟩ := by decide
  have hcall := invoke_newWrapper hcodes hne hplain hfresh hmade false
  exact ⟨hmade, fun natives => ⟨(hcall Sample.keywords #[.null, .int 9]).2 natives,
    (hcall [] #[]).2 natives⟩⟩

end ObjectRuntime
