import ObjectRuntime.Proofs.HeapRuns

/-! What is granted. An operation asks for storage piece by piece, and is granted the pieces in that order up
to the first that is refused, or up to another error. Each piece that is granted is counted and is in the
heap from then on, even if the operation ends early and hands nothing out. -/

namespace ObjectRuntime

/-- A piece of storage: what it is for, and the number of its slots. -/
structure Storage where
  kind : StorageKind
  slots : Nat
deriving DecidableEq

namespace Storage

def isObject (q : Storage) : Bool := q.kind != .fragment

@[simp] theorem isObject_object (policy : Policy) (n : Nat) : isObject ⟨.object policy, n⟩ = true := rfl

@[simp] theorem isObject_fragment (n : Nat) : isObject ⟨.fragment, n⟩ = false := rfl

end Storage

/-- The storage that an object takes up. -/
def Object.storage (x : Object) : Storage := ⟨.object x.policy, x.slots.size⟩

def Fragment.storage (y : Fragment) : Storage := ⟨.fragment, y.capacity⟩

/-- Counts a piece. -/
def Usage.charge (u : Usage) (q : Storage) : Usage := u.grant (Checked.addSaturating u.slots q.slots) q.kind

/-- Counts one piece after the other. -/
def Usage.charges (u : Usage) (l : List Storage) : Usage := l.foldl Usage.charge u

/-- The state with this piece counted. -/
def State.charge (s : State) (q : Storage) : State :=
  { s with allocator := { s.allocator with usage := s.allocator.usage.charge q } }

@[simp] theorem State.heap_charge (s : State) (q : Storage) : (s.charge q).heap = s.heap := rfl

/-- A new instance of the class, if there is one, and a fragment with room for `n` items as its data. -/
def Storage.ofLiteral (c : Option ClassLayout) (n : Nat) : List Storage :=
  c.elim [] fun c => [⟨.object .heap, c.size⟩, ⟨.fragment, n⟩]

namespace Operation

variable {ω : Type}

/-- The storage that an operation asks for, in this order, not counting what is done by a native that it
calls. Whatever is not listed asks for none, and neither does what is made without the allocator. -/
def asks (m : Machine) (s : State) : {α : Type} → Operation ω α → List Storage
  | _, newObject _ _ size policy => [⟨.object policy, size⟩]
  | _, newInstance c policy => [⟨.object policy, c.size⟩]
  | _, newFragment n => [⟨.fragment, n⟩]
  | _, populateSequence _ items => [⟨.fragment, items.size⟩]
  | _, newLiteral c items => Storage.ofLiteral (some c) items.size
  | _, newList items => Storage.ofLiteral m.builtins.list items.size
  | _, newTuple items => Storage.ofLiteral m.builtins.tuple items.size
  | _, listToTuple list => (m.itemsOf? s.heap list).elim [] fun items => Storage.ofLiteral m.builtins.tuple items.size
  | _, newWrapper _ _ => m.builtins.wrapper.elim [] fun c => [⟨.object .heap, c.size⟩]
  | _, populateMapping _ items => Storage.ofLiteral m.builtins.list items.size
  | _, _ => []

end Operation

/-! ### Pieces of storage in a heap -/

namespace Heap

def objectStorage (h : Heap) : List Storage := h.objects.toList.map Object.storage

def fragmentStorage (h : Heap) : List Storage := h.fragments.toList.map Fragment.storage

variable {h : Heap} {r : ObjectRef} {g : FragmentRef} {pos : Nat} {a : Attr} {x : Object} {y : Fragment}

@[simp] theorem objectStorage_addObject :
    (h.addObject x).2.objectStorage = h.objectStorage ++ [x.storage] := by
  simp [addObject, objectStorage]

@[simp] theorem fragmentStorage_addObject : (h.addObject x).2.fragmentStorage = h.fragmentStorage := rfl

@[simp] theorem objectStorage_addFragment : (h.addFragment y).2.objectStorage = h.objectStorage := rfl

@[simp] theorem fragmentStorage_addFragment :
    (h.addFragment y).2.fragmentStorage = h.fragmentStorage ++ [y.storage] := by
  simp [addFragment, fragmentStorage]

@[simp] theorem objectStorage_setSlot : (h.setSlot r pos a).objectStorage = h.objectStorage := by
  refine List.ext_getElem (by simp [setSlot, objectStorage]) fun i hi hi' => ?_
  simp only [setSlot, objectStorage, List.getElem_map, Array.getElem_toList, Array.getElem_modify]
  split <;> simp [Object.storage]

@[simp] theorem fragmentStorage_setSlot : (h.setSlot r pos a).fragmentStorage = h.fragmentStorage := rfl

@[simp] theorem objectStorage_setFragment : (h.setFragment g y).objectStorage = h.objectStorage := rfl

/-- What is put into a fragment takes up nothing more. -/
theorem fragmentStorage_setFragment (hy : y.capacity = (h.fragment g).capacity) :
    (h.setFragment g y).fragmentStorage = h.fragmentStorage := by
  refine List.ext_getElem (by simp [setFragment, fragmentStorage]) fun i hi hi' => ?_
  have hsize : i < h.fragments.size := by simpa [fragmentStorage] using hi'
  simp only [setFragment, fragmentStorage, List.getElem_map, Array.getElem_toList]
  rw [Array.getElem_setIfInBounds hsize]
  split
  · rename_i hindex
    simp [Fragment.storage, hy, fragment, hindex, hsize]
  · rfl

end Heap

/-! ### Grants -/

/-- From the one state to the other just these pieces of storage have been granted: they are counted, and they
are what has been added to the heap. -/
structure Supplies (granted : List Storage) (s s' : State) : Prop where
  usage : s'.allocator.usage = s.allocator.usage.charges granted
  objects : s'.heap.objectStorage = s.heap.objectStorage ++ granted.filter Storage.isObject
  fragments : s'.heap.fragmentStorage = s.heap.fragmentStorage ++ granted.filter fun q => !q.isObject

namespace Supplies

variable {s t u : State} {l l' : List Storage}

theorem refl (s : State) : Supplies [] s s := ⟨rfl, by simp, by simp⟩

theorem trans (h : Supplies l s t) (h' : Supplies l' t u) : Supplies (l ++ l') s u where
  usage := by rw [h'.usage, h.usage, Usage.charges, Usage.charges, Usage.charges, List.foldl_append]
  objects := by rw [h'.objects, h.objects, List.filter_append, List.append_assoc]
  fragments := by rw [h'.fragments, h.fragments, List.filter_append, List.append_assoc]

end Supplies

/-- A run from the one state was granted the pieces that it asked for in this order, though maybe not to the
last of them; if it ended well it was granted all. -/
def Grants {α : Type} (asked : List Storage) (s : State) (x : EStateM.Result Halt State α) : Prop :=
  ∃ granted, granted <+: asked ∧ Supplies granted s (stateOf x) ∧ ∀ a t, x = .ok a t → granted = asked

/-- The action asks for these pieces, whatever the state. -/
def Charges {α : Type} (x : Action α) (asked : List Storage) : Prop := ∀ s, Grants asked s (x s)

section Rules

variable {α β : Type} {x : Action α} {k : α → Action β} {asked asked' : List Storage} {s : State}

theorem grants_of_supplies {y : EStateM.Result Halt State α} (h : Supplies [] s (stateOf y)) : Grants [] s y :=
  ⟨[], List.nil_prefix, h, fun _ _ _ => rfl⟩

theorem grants_of_stateOf {y : EStateM.Result Halt State α} (h : stateOf y = s) : Grants [] s y := by
  apply grants_of_supplies
  rw [h]
  exact Supplies.refl s

/-- What ends in an error may have been about to ask for anything. -/
theorem grants_error (e : Halt) (s : State) : Grants asked s (.error e s : EStateM.Result Halt State α) :=
  ⟨[], List.nil_prefix, Supplies.refl s, nofun⟩

theorem Charges.usage_of_ok {a : α} {t : State} (hx : Charges x asked) (hrun : x s = .ok a t) :
    t.allocator.usage = s.allocator.usage.charges asked := by
  obtain ⟨granted, -, hsupplies, hall⟩ := hx s
  obtain rfl := hall a t hrun
  rw [hrun] at hsupplies
  exact hsupplies.usage

theorem charges_of_stateOf (h : ∀ s, stateOf (x s) = s) : Charges x [] := fun s => grants_of_stateOf (h s)

theorem charges_pure (a : α) : Charges (pure a) [] := charges_of_stateOf fun _ => rfl

theorem charges_throw (e : Halt) : Charges (throw e : Action α) asked := grants_error e

theorem charges_typeError (cause : TypeFault) : Charges (typeError cause : Action α) asked := charges_throw _

theorem stateOf_ofExcept (x : Except Halt α) (s : State) : stateOf (ofExcept x s) = s := by
  cases x <;> rfl

theorem Charges.bind (hx : Charges x asked) (hk : ∀ a, Charges (k a) asked') :
    Charges (x >>= k) (asked ++ asked') := by
  intro s
  obtain ⟨granted, hprefix, hsupplies, hall⟩ := hx s
  change Grants (asked ++ asked') s (EStateM.bind x k s)
  unfold EStateM.bind
  cases hrun : x s with
  | ok a t =>
    rw [hrun] at hsupplies
    obtain ⟨granted', hprefix', hsupplies', hall'⟩ := hk a t
    obtain rfl := hall a t hrun
    exact ⟨granted ++ granted', (List.prefix_append_right_inj granted).2 hprefix',
      hsupplies.trans hsupplies', fun b u hrest => by rw [hall' b u hrest]⟩
  | error e t =>
    rw [hrun] at hsupplies
    exact ⟨granted, hprefix.trans (List.prefix_append _ _), hsupplies, nofun⟩

/-- What asks for nothing may come after. -/
theorem Charges.bind_nil (hx : Charges x asked) (hk : ∀ a, Charges (k a) []) : Charges (x >>= k) asked := by
  have h := hx.bind hk
  rwa [List.append_nil] at h

end Rules

/-! ### Actions -/

theorem Allocator.request_cases (a : Allocator) (reserved : Bool) (q : Storage) :
    a.request reserved q.kind q.slots =
        .ok (Array.replicate q.slots .null, { a with usage := a.usage.charge q }) ∨
      a.request reserved q.kind q.slots = .error ⟨q.kind, q.slots⟩ := by
  simp only [request]
  split
  · exact .inl rfl
  · exact .inr rfl

section Actions

@[simp] theorem stateOf_addObject (x : Object) (s : State) :
    stateOf (addObject x s) = { s with heap := (s.heap.addObject x).2 } := rfl

@[simp] theorem stateOf_addFragment (y : Fragment) (s : State) :
    stateOf (addFragment y s) = { s with heap := (s.heap.addFragment y).2 } := rfl

variable {r : ObjectRef} {g : FragmentRef} {pos : Nat} {a : Attr} {slot : AttrSlot} {items : Array Attr}

theorem charges_load : Charges (load r pos) [] := charges_of_stateOf fun _ => stateOf_ofExcept _ _

theorem charges_loadChecked : Charges (loadChecked r slot) [] :=
  charges_of_stateOf fun _ => stateOf_ofExcept _ _

/-- A change of the heap asks for nothing if all that is in the heap takes up what it did. -/
theorem charges_update {u : Heap → Except Halt Heap}
    (hu : ∀ h h', u h = .ok h' → h'.objectStorage = h.objectStorage ∧ h'.fragmentStorage = h.fragmentStorage) :
    Charges (update u) [] := by
  intro s
  apply grants_of_supplies
  change Supplies [] s (stateOf ((ofExcept (u s.heap) >>= fun h => modifyHeap fun _ => h) s))
  cases hstep : u s.heap with
  | ok h =>
    obtain ⟨hobjects, hfragments⟩ := hu s.heap h hstep
    refine ⟨rfl, ?_, ?_⟩
    · rw [List.filter_nil, List.append_nil]
      exact hobjects
    · rw [List.filter_nil, List.append_nil]
      exact hfragments
  | error e => exact Supplies.refl s

theorem charges_store : Charges (store r pos a) [] := by
  refine charges_update (u := fun h => h.store r pos a) fun h h' hstep => ?_
  obtain ⟨-, rfl⟩ := Heap.store_eq_ok_iff.1 hstep
  simp

theorem charges_storeChecked : Charges (storeChecked r slot a) [] := by
  refine charges_update (u := fun h => h.storeChecked r slot a) fun h h' hstep => ?_
  obtain ⟨-, rfl⟩ := Heap.storeChecked_eq_ok_iff.1 hstep
  simp

theorem supplies_setFragment {s : State} {y : Fragment} (hy : y.capacity = (s.heap.fragment g).capacity) :
    Supplies [] s { s with heap := s.heap.setFragment g y } :=
  ⟨rfl, by simp, by simp [Heap.fragmentStorage_setFragment hy]⟩

theorem charges_push : Charges (push g a) [] := by
  intro s
  apply grants_of_supplies
  rw [push, getHeap_bind]
  cases hpush : (s.heap.fragment g).push? a with
  | none => exact Supplies.refl s
  | some y => exact supplies_setFragment (fits_of_push? hpush).1

namespace Machine

variable {m : Machine}

theorem charges_fill : Charges (fill g items) [] := by
  intro s
  apply grants_of_supplies
  rw [fill, getHeap_bind]
  cases hfill : (s.heap.fragment g).fill? items with
  | none => exact Supplies.refl s
  | some y => exact supplies_setFragment (fits_of_fill? hfill).1

/-- A request is either granted, and counted, or refused, which changes nothing. -/
theorem allocate_cases (m : Machine) (q : Storage) (s : State) :
    m.allocate q.kind q.slots s = .ok (Array.replicate q.slots .null) (s.charge q) ∨
      m.allocate q.kind q.slots s = .error (.raised .memory) s := by
  rw [allocate, ActionOn.get_bind]
  rcases s.allocator.request_cases (m.reserves q.slots) q with hgranted | hrefused
  · rw [hgranted]
    exact .inl rfl
  · rw [hrefused]
    exact .inr rfl

/-- Storage that is put to use as soon as it is granted. -/
theorem charges_allocate {α : Type} (q : Storage) {k : Array Attr → Action α}
    (hk : ∀ s, Supplies [q] s (stateOf (k (Array.replicate q.slots .null) (s.charge q)))) :
    Charges (m.allocate q.kind q.slots >>= k) [q] := by
  intro s
  change Grants [q] s (EStateM.bind _ k s)
  unfold EStateM.bind
  rcases m.allocate_cases q s with hgranted | hrefused
  · rw [hgranted]
    exact ⟨[q], List.prefix_rfl, hk s, fun _ _ _ => rfl⟩
  · rw [hrefused]
    exact grants_error _ s

theorem charges_newObject (table : Table) (classRef : ObjectRef) (size : Nat) (policy : Policy) :
    Charges (m.newObject table classRef size policy) [⟨.object policy, size⟩] := by
  rw [newObject_eq, ← bind_assoc]
  -- the object stays where it is even if its class cannot be put in place
  refine Charges.bind_nil (charges_allocate ⟨.object policy, size⟩ fun s => ?_) fun o =>
    charges_store.bind_nil fun _ => charges_pure o
  exact ⟨rfl, by simp [Object.storage, List.filter_cons], by simp⟩

theorem charges_newInstance (c : ClassLayout) (policy : Policy) :
    Charges (m.newInstance c policy) [⟨.object policy, c.size⟩] := charges_newObject _ _ _ _

theorem charges_newFragment (n : Nat) : Charges (m.newFragment n) [⟨.fragment, n⟩] := by
  rw [newFragment_eq]
  refine charges_allocate ⟨.fragment, n⟩ fun s => ?_
  exact ⟨rfl, by simp, by simp [Fragment.ofStorage, Fragment.storage]⟩

theorem charges_populate (r : ObjectRef) (items : Array Attr) :
    Charges (m.populate r items) [⟨.fragment, items.size⟩] :=
  (charges_newFragment items.size).bind_nil fun _ => charges_fill.bind_nil fun _ => charges_store

theorem charges_populateSequence (this : Attr) (items : Array Attr) :
    Charges (m.populateSequence this items) [⟨.fragment, items.size⟩] := by
  unfold populateSequence
  split
  · exact (charges_populate _ items).bind_nil fun _ => charges_pure this
  · exact charges_typeError _

theorem charges_newLiteral (c : ClassLayout) (items : Array Attr) :
    Charges (m.newLiteral c items) (Storage.ofLiteral (some c) items.size) :=
  (charges_newInstance c .heap).bind fun r => (charges_populate r items).bind_nil fun _ => charges_pure r

theorem charges_newList (items : Array Attr) :
    Charges (m.newList items) (Storage.ofLiteral m.builtins.list items.size) := by
  unfold newList
  split
  · rename_i c hc
    rw [hc]
    exact charges_newLiteral c items
  · exact charges_typeError _

theorem charges_newTuple (items : Array Attr) :
    Charges (m.newTuple items) (Storage.ofLiteral m.builtins.tuple items.size) := by
  unfold newTuple
  split
  · rename_i c hc
    rw [hc]
    exact charges_newLiteral c items
  · exact charges_typeError _

theorem charges_newWrapper (context target : Attr) :
    Charges (m.newWrapper context target) (m.builtins.wrapper.elim [] fun c => [⟨.object .heap, c.size⟩]) := by
  unfold newWrapper
  split
  · rename_i c hc
    rw [hc]
    exact (charges_newInstance c .heap).bind_nil fun r =>
      charges_storeChecked.bind_nil fun _ => charges_storeChecked.bind_nil fun _ => charges_pure r
  · exact charges_typeError _

theorem charges_setDefault (index : Nat) : Charges (m.setDefault r index a) [] := by
  unfold setDefault
  split
  · exact charges_store
  · exact charges_throw _

theorem charges_getDefault (index : Nat) : Charges (m.getDefault r index) [] := by
  unfold getDefault
  split
  · exact charges_load
  · exact charges_throw _

end Machine

end Actions

/-! ### Operations -/

namespace Operation

variable {ω α : Type} {m : Machine} {host : Host ω} {natives : Natives} {o : Operation ω α} {s t : State}
  {c : Call} {this : Attr} {items : Array Attr}

/-- The object that the operation adds without asking for storage. -/
def predefined : {α : Type} → Operation ω α → State → Option ObjectRef
  | _, predefine table pos slots, s =>
    match ObjectRuntime.predefine table pos slots s with
    | .ok r _ => some r
    | .error _ _ => none
  | _, _, _ => none

theorem grants_listToTuple (list : Attr) (s : State) :
    Grants ((listToTuple list : Operation ω ObjectRef).asks m s) s (m.listToTuple list s) := by
  simp only [asks]
  rcases m.listToTuple_cases list s with ⟨items, hitems, heq⟩ | ⟨e, heq⟩
  · rw [hitems, heq]
    exact Machine.charges_newTuple items s
  · rw [heq]
    exact grants_error e s

theorem grants_populateMapping (hcall : (populateMapping this items : Operation ω Attr).callee m s = none) :
    Grants (Storage.ofLiteral m.builtins.list items.size) s (m.populateMapping natives this items s) := by
  obtain ⟨e, t, hrun, rfl | hlist⟩ := populateMapping_of_leaf natives hcall
  · rw [hrun]
    exact grants_error e t
  · obtain ⟨granted, hprefix, hsupplies, -⟩ := Machine.charges_newList items s
    rw [hlist] at hsupplies
    rw [hrun]
    exact ⟨granted, hprefix, hsupplies, nofun⟩

/-- An operation that calls no native is granted what it asks for, in order. -/
theorem grants_of_leaf (hcall : o.callee m s = none) (hpredefined : o.predefined s = none) :
    Grants (o.asks m s) s (o.run m host natives s) := by
  cases o
  case inspect f => exact grants_of_stateOf rfl
  case panic => exact grants_error _ s
  case raise r => exact grants_error _ s
  case load o pos => exact charges_load s
  case loadChecked o slot => exact charges_loadChecked s
  case store o pos a => exact charges_store s
  case storeChecked o slot a => exact charges_storeChecked s
  case push f a => exact charges_push s
  case setDefault target index a => exact Machine.charges_setDefault index s
  case getDefault target index => exact Machine.charges_getDefault index s
  case predefine table pos slots => cases hpredefined
  case newObject table classRef size policy => exact Machine.charges_newObject table classRef size policy s
  case newInstance c policy => exact Machine.charges_newInstance c policy s
  case newFragment n => exact Machine.charges_newFragment n s
  case populateSequence this items => exact Machine.charges_populateSequence this items s
  case newLiteral c items => exact Machine.charges_newLiteral c items s
  case newList items => exact Machine.charges_newList items s
  case newTuple items => exact Machine.charges_newTuple items s
  case listToTuple list => exact grants_listToTuple list s
  case newWrapper context target => exact Machine.charges_newWrapper context target s
  case populateMapping this items => exact grants_populateMapping hcall
  case invoke callable proven keywords args => exact grants_of_stateOf (stateOf_invoke hcall)
  case ensureInstance a => exact grants_of_stateOf (stateOf_ensureInstance hcall)
  case truth a => exact grants_of_stateOf (stateOf_truth hcall)
  -- what is done on the host is done outside the state
  all_goals exact grants_of_stateOf (stateOf_outside _ _)

/-- An operation that calls a native has been granted all that it asks for by then. -/
theorem supplies_of_callee (hcall : o.callee m s = some (c, t)) : Supplies (o.asks m s) s t := by
  cases o
  case populateMapping this items =>
    obtain ⟨list, hlist⟩ := newList_of_callee hcall
    obtain ⟨granted, -, hsupplies, hall⟩ := Machine.charges_newList items s
    obtain rfl := hall list t hlist
    rwa [hlist] at hsupplies
  case invoke callable proven keywords args =>
    rw [eq_of_callOf hcall]
    exact Supplies.refl s
  case ensureInstance a =>
    rw [eq_of_callee_ensureInstance hcall]
    exact Supplies.refl s
  case truth a =>
    rw [eq_of_callee_truth hcall]
    exact Supplies.refl s
  all_goals cases hcall

theorem predefined_of_callee (hcall : o.callee m s = some (c, t)) : o.predefined s = none := by
  cases o
  case predefine table pos slots => cases hcall
  all_goals rfl

end Operation

/-- The object that the event adds without asking for storage. -/
def Event.predefined {ω : Type} (e : Event ω) : Option ObjectRef := e.operation.predefined e.state

end ObjectRuntime
