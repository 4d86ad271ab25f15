import ObjectRuntime.Proofs.Faults

/-! Errors that need no capability. Slots, storage and the binding of calls only ever fail with errors that
come up in every build: type errors, lack of memory, and accesses outside an object. -/

namespace ObjectRuntime

/-- Errors that come up in every build and need no capability. -/
def Halt.IsCore : Halt → Prop
  | .raised r => r.kind.capability? = none
  | .fault => True
  | .aborted _ => False
  | .exhausted => True

theorem Halt.isCore_type (cause : TypeFault) : (Halt.type cause).IsCore := rfl

theorem raising_of_core {caps : CapabilitySet} {r : Raise} (h : r.kind.capability? = none) :
    caps.raising r = .raised r := by
  simp [CapabilitySet.raising, h]

/-- The action ends early only in errors of every build. -/
def Core {σ α : Type} (x : ActionOn σ α) : Prop := ∀ s e s', x s = .error e s' → e.IsCore

section Core

variable {σ α β : Type} {e : Halt}

theorem core_pure (a : α) : Core (pure a : ActionOn σ α) := nofun

theorem core_throw (h : e.IsCore) : Core (throw e : ActionOn σ α) := by
  intro s e' s' heq
  cases heq
  exact h

theorem core_bind {x : ActionOn σ α} {f : α → ActionOn σ β} (hx : Core x) (hf : ∀ a, Core (f a)) :
    Core (x >>= f) := by
  intro s e s' h
  rcases ActionOn.bind_eq_error_iff.1 h with h | ⟨a, w, -, h⟩
  · exact hx s e s' h
  · exact hf a w e s' h

theorem core_ofExcept {x : Except Halt α} (h : ∀ e, x = .error e → e.IsCore) :
    Core (ofExcept x : ActionOn σ α) := by
  cases x with
  | ok a => exact core_pure a
  | error e => exact core_throw (h e rfl)

theorem core_getHeap : Core getHeap := nofun

theorem core_modifyHeap (f : Heap → Heap) : Core (modifyHeap f) := nofun

end Core

section Operations

variable {h : Heap} {o : ObjectRef} {slot : AttrSlot} {pos : Nat} {a : Attr} {e : Halt}

theorem Heap.load_isCore (herr : h.load o pos = .error e) : e.IsCore := by
  rw [load_error herr]
  trivial

theorem Heap.loadChecked_isCore (herr : h.loadChecked o slot = .error e) : e.IsCore := by
  rw [loadChecked_error herr]
  rfl

theorem Heap.store_isCore (herr : h.store o pos a = .error e) : e.IsCore := by
  unfold store at herr
  split at herr
  · cases herr
  · cases herr
    trivial

theorem Heap.storeChecked_isCore (herr : h.storeChecked o slot a = .error e) : e.IsCore := by
  unfold storeChecked at herr
  split at herr
  · exact store_isCore herr
  · cases herr
    rfl

theorem core_load : Core (load o pos) :=
  core_bind core_getHeap fun _ => core_ofExcept fun _ => Heap.load_isCore

theorem core_loadChecked : Core (loadChecked o slot) :=
  core_bind core_getHeap fun _ => core_ofExcept fun _ => Heap.loadChecked_isCore

theorem core_store : Core (store o pos a) := by
  apply core_bind core_getHeap
  intro h
  apply core_bind (core_ofExcept fun _ => Heap.store_isCore)
  intro h'
  exact core_modifyHeap _

theorem core_storeChecked : Core (storeChecked o slot a) := by
  apply core_bind core_getHeap
  intro h
  apply core_bind (core_ofExcept fun _ => Heap.storeChecked_isCore)
  intro h'
  exact core_modifyHeap _

theorem core_push (f : FragmentRef) : Core (push f a) := by
  apply core_bind core_getHeap
  intro h
  split
  · exact core_bind (core_modifyHeap _) fun _ => core_pure _
  · exact core_pure _

theorem core_predefine (table : Table) (classPos : UInt32) (slots : Array Attr) :
    Core (predefine table classPos slots) :=
  core_bind core_getHeap fun _ => core_bind (core_modifyHeap _) fun _ => core_pure _

theorem core_typeError {σ α : Type} (cause : TypeFault) : Core (typeError cause : ActionOn σ α) :=
  core_throw (Halt.isCore_type cause)

namespace Machine

variable {m : Machine} {items : Array Attr}

theorem core_raise {σ α : Type} {r : Raise} (hr : r.kind.capability? = none) :
    Core (m.raise r : ActionOn σ α) := by
  apply core_throw
  rw [raising_of_core hr]
  exact hr

theorem core_allocate (kind : StorageKind) (n : Nat) : Core (m.allocate kind n) := by
  apply core_bind (x := get) nofun
  intro s
  split
  · exact core_bind nofun fun _ => core_pure _
  · exact core_raise rfl

theorem core_newObject (table : Table) (classRef : ObjectRef) (size : Nat) (policy : Policy) :
    Core (m.newObject table classRef size policy) := by
  apply core_bind (core_allocate _ _)
  intro slots
  apply core_bind core_getHeap
  intro h
  apply core_bind (core_modifyHeap _)
  intro u
  exact core_bind core_store fun _ => core_pure _

theorem core_newInstance (c : ClassLayout) (policy : Policy) : Core (m.newInstance c policy) :=
  core_newObject _ _ _ _

theorem core_newFragment (n : Nat) : Core (m.newFragment n) := by
  apply core_bind (core_allocate _ _)
  intro storage
  apply core_bind core_getHeap
  intro h
  exact core_bind (core_modifyHeap _) fun _ => core_pure _

theorem core_fill (f : FragmentRef) : Core (fill f items) := by
  apply core_bind core_getHeap
  intro h
  split
  · exact core_modifyHeap _
  · exact core_throw trivial

theorem core_populate : Core (m.populate o items) := by
  apply core_bind (core_newFragment _)
  intro f
  exact core_bind (core_fill f) fun _ => core_store

theorem core_populateSequence : Core (m.populateSequence a items) := by
  unfold populateSequence
  split
  · exact core_bind core_populate fun _ => core_pure _
  · exact core_typeError _

theorem core_newLiteral (c : ClassLayout) : Core (m.newLiteral c items) := by
  apply core_bind (core_newInstance _ _)
  intro o
  exact core_bind core_populate fun _ => core_pure _

theorem core_newList : Core (m.newList items) := by
  unfold newList
  split
  · exact core_newLiteral _
  · exact core_typeError _

theorem core_newTuple : Core (m.newTuple items) := by
  unfold newTuple
  split
  · exact core_newLiteral _
  · exact core_typeError _

theorem core_listToTuple : Core (m.listToTuple a) := by
  unfold listToTuple
  split
  · apply core_bind core_loadChecked
    intro data
    split
    · exact core_bind core_getHeap fun _ => core_newTuple
    · exact core_typeError _
  · exact core_typeError _

theorem core_newWrapper (context target : Attr) : Core (m.newWrapper context target) := by
  unfold newWrapper
  split
  · apply core_bind (core_newInstance _ _)
    intro o
    apply core_bind core_storeChecked
    intro u
    exact core_bind core_storeChecked fun _ => core_pure _
  · exact core_typeError _

theorem core_setDefault (index : Nat) : Core (m.setDefault o index a) := by
  unfold setDefault
  split
  · exact core_store
  · exact core_throw trivial

theorem core_getDefault (index : Nat) : Core (m.getDefault o index) := by
  unfold getDefault
  split
  · exact core_load
  · exact core_throw trivial

end Machine

end Operations

/-! ### Binding -/

namespace Layout

variable {l : Layout} {h : Heap} {callable : Attr} {args : Array Attr} {ks : List Keyword} {proven : Bool}
  {e : Halt}

theorem prepare_isCore (herr : l.prepare h callable proven ks args = .error e) : e.IsCore := by
  rcases prepare_error herr with ⟨cause, -, rfl⟩ | rfl
  · exact Halt.isCore_type cause
  · trivial

end Layout

end ObjectRuntime
