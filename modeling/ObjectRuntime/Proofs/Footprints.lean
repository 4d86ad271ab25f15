import ObjectRuntime.Call
import ObjectRuntime.Proofs.HeapShape

/-! What actions leave of a heap. An action keeps a heap if nothing is done to it beyond the footprint,
whichever way the action ends. Actions that keep a heap do so in any order, and what they make is new to it,
so they may go on to change that. -/

namespace ObjectRuntime

/-- The state in which a run ends, well or not. -/
def stateOf {α : Type} : EStateM.Result Halt State α → State
  | .ok _ s => s
  | .error _ s => s

/-- Begun where nothing has been done to `h` beyond the footprint, the action ends so too. Of its result `R`
is known. -/
def Keeps {α : Type} (h : Heap) (p : Footprint) (x : Action α) (R : α → Prop) : Prop :=
  ∀ s, h.Touches p s.heap → h.Touches p (stateOf (x s)).heap ∧ ∀ a s', x s = .ok a s' → R a

section Rules

variable {α β : Type} {h : Heap} {p : Footprint} {x : Action α} {k : α → Action β} {R : α → Prop}
  {Q : β → Prop}

theorem keeps_pure {a : α} (ha : R a) : Keeps h p (pure a) R := by
  intro s hs
  refine ⟨hs, fun b s' heq => ?_⟩
  cases heq
  exact ha

theorem keeps_throw (e : Halt) : Keeps h p (throw e : Action α) R := fun _ hs => ⟨hs, nofun⟩

theorem keeps_bind (hx : Keeps h p x R) (hk : ∀ a, R a → Keeps h p (k a) Q) :
    Keeps h p (x >>= k) Q := by
  intro s hs
  obtain ⟨hleft, hresult⟩ := hx s hs
  change h.Touches p (stateOf (EStateM.bind x k s)).heap ∧ ∀ b s', EStateM.bind x k s = _ → _
  unfold EStateM.bind
  cases hrun : x s with
  | ok a s' =>
    rw [hrun] at hleft
    exact hk a (hresult a s' hrun) s' hleft
  | error e s' =>
    rw [hrun] at hleft
    exact ⟨hleft, nofun⟩

/-- What an action does to the heap it is begun on. -/
theorem Keeps.touches {s : State} (hx : Keeps s.heap p x R) : s.heap.Touches p (stateOf (x s)).heap :=
  (hx s (Heap.Touches.refl s.heap)).1

theorem keeps_getHeap : Keeps h p getHeap fun _ => True := fun _ hs => ⟨hs, fun _ _ _ => trivial⟩

theorem keeps_ofExcept (x : Except Halt α) : Keeps h p (ofExcept x) fun _ => True := by
  cases x with
  | ok a => exact keeps_pure trivial
  | error e => exact keeps_throw e

theorem keeps_typeError (cause : TypeFault) : Keeps h p (typeError cause : Action α) R := keeps_throw _

end Rules

section Actions

variable {h : Heap} {p : Footprint} {r : ObjectRef} {g : FragmentRef} {pos : Nat} {a : Attr}
  {slot : AttrSlot}

theorem keeps_load : Keeps h p (load r pos) fun _ => True :=
  keeps_bind keeps_getHeap fun _ _ => keeps_ofExcept _

theorem keeps_loadChecked : Keeps h p (loadChecked r slot) fun _ => True :=
  keeps_bind keeps_getHeap fun _ _ => keeps_ofExcept _

theorem loadChecked_bind {α : Type} (k : Attr → Action α) (s : State) :
    (loadChecked r slot >>= k) s = (ofExcept (s.heap.loadChecked r slot) >>= k) s := rfl

/-- Puts the heap that `u` makes of the present one in its place. -/
def update (u : Heap → Except Halt Heap) : Action Unit := do
  let h ← ofExcept (u (← getHeap))
  modifyHeap fun _ => h

theorem keeps_update {u : Heap → Except Halt Heap}
    (hu : ∀ h₁ h₂, h.Touches p h₁ → u h₁ = .ok h₂ → h.Touches p h₂) :
    Keeps h p (update u) fun _ => True := by
  intro s hs
  refine ⟨?_, fun _ _ _ => trivial⟩
  change h.Touches p (stateOf ((ofExcept (u s.heap) >>= fun h => modifyHeap fun _ => h) s)).heap
  cases hstep : u s.heap with
  | ok h₂ => exact hu s.heap h₂ hs hstep
  | error e => exact hs

theorem touches_setSlot_named (hr : h.HasObject r → p.object = some r) {h' : Heap} (hs : h.Touches p h') :
    h.Touches p (h'.setSlot r pos a) := by
  refine hs.trans Heap.touches_setSlot (fun r' heq hr' => ?_) nofun nofun nofun
  cases heq
  exact hr hr'

/-- A write reaches the object that is named, or one that is new. -/
theorem keeps_store (hr : h.HasObject r → p.object = some r) : Keeps h p (store r pos a) fun _ => True := by
  refine keeps_update (u := fun h => h.store r pos a) fun h₁ h₂ hs hstep => ?_
  obtain ⟨-, rfl⟩ := Heap.store_eq_ok_iff.1 hstep
  exact touches_setSlot_named hr hs

theorem keeps_storeChecked (hr : h.HasObject r → p.object = some r) :
    Keeps h p (storeChecked r slot a) fun _ => True := by
  refine keeps_update (u := fun h => h.storeChecked r slot a) fun h₁ h₂ hs hstep => ?_
  obtain ⟨-, rfl⟩ := Heap.storeChecked_eq_ok_iff.1 hstep
  exact touches_setSlot_named hr hs

theorem touches_setFragment_named (hg : h.HasFragment g → p.fragment = some g) {h' : Heap} {y : Fragment}
    (hs : h.Touches p h') (hcapacity : y.capacity = (h'.fragment g).capacity) (hy : y.Fits) :
    h.Touches p (h'.setFragment g y) := by
  refine hs.trans (Heap.touches_setFragment hcapacity hy) nofun (fun g' heq hg' => ?_) nofun nofun
  cases heq
  exact hg hg'

theorem fits_of_push? {y z : Fragment} (h : y.push? a = some z) : z.capacity = y.capacity ∧ z.Fits := by
  unfold Fragment.push? at h
  split at h
  · rename_i hroom
    cases h
    refine ⟨rfl, ?_⟩
    rw [Fragment.Fits, Fragment.size, Array.size_push]
    exact hroom
  · cases h

theorem fits_of_fill? {y z : Fragment} {items : Array Attr} (h : y.fill? items = some z) :
    z.capacity = y.capacity ∧ z.Fits := by
  unfold Fragment.fill? at h
  split at h
  · rename_i hroom
    cases h
    exact ⟨rfl, hroom⟩
  · cases h

theorem keeps_push (hg : h.HasFragment g → p.fragment = some g) : Keeps h p (push g a) fun _ => True := by
  intro s hs
  refine ⟨?_, fun _ _ _ => trivial⟩
  rw [push, getHeap_bind]
  cases hpush : (s.heap.fragment g).push? a with
  | none => exact hs
  | some y =>
    obtain ⟨hcapacity, hy⟩ := fits_of_push? hpush
    exact touches_setFragment_named hg hs hcapacity hy

/-- Puts an object at the end of the heap. -/
def addObject (x : Object) : Action ObjectRef := do
  let (o, h) := (← getHeap).addObject x
  modifyHeap fun _ => h
  return o

def addFragment (y : Fragment) : Action FragmentRef := do
  let (f, h) := (← getHeap).addFragment y
  modifyHeap fun _ => h
  return f

/-- An object is new to whatever heap the action keeps. -/
theorem keeps_addObject {x : Object} (hx : p.made = some x.shape) :
    Keeps h p (addObject x) fun r => ¬ h.HasObject r := by
  intro s hs
  refine ⟨hs.trans (Heap.touches_addObject hx) (fun _ heq _ => heq) (fun _ heq _ => heq) (fun _ => id)
    (fun _ => id), fun r s' heq => ?_⟩
  cases heq
  exact Nat.not_lt.2 hs.objects

theorem keeps_addFragment {y : Fragment} (hroom : p.room = some y.capacity) (hy : y.Fits) :
    Keeps h p (addFragment y) fun g => ¬ h.HasFragment g := by
  intro s hs
  refine ⟨hs.trans (Heap.touches_addFragment hroom hy) (fun _ heq _ => heq) (fun _ heq _ => heq) (fun _ => id)
    (fun _ => id), fun r s' heq => ?_⟩
  cases heq
  exact Nat.not_lt.2 hs.fragments

theorem keeps_predefine {table : Table} {classPos : UInt32} {slots : Array Attr}
    (hmade : p.made = some ⟨table, classPos, .immutable, slots.size⟩) :
    Keeps h p (predefine table classPos slots) fun r => ¬ h.HasObject r :=
  keeps_addObject (x := ⟨table, classPos, .immutable, slots⟩) hmade

/-- The shape of the instances of a class. -/
def ClassLayout.shape (c : ClassLayout) (policy : Policy) : ObjectShape := ⟨c.table, 0, policy, c.size⟩

namespace Machine

variable {m : Machine} {items : Array Attr}

theorem keeps_allocate (kind : StorageKind) (n : Nat) :
    Keeps h p (m.allocate kind n) fun storage => storage.size = n := by
  intro s hs
  have hheap : (stateOf (m.allocate kind n s)).heap = s.heap := by
    rw [allocate, ActionOn.get_bind]
    cases s.allocator.request (m.reserves n) kind n <;> rfl
  refine ⟨by rwa [hheap], fun storage s' hrun => ?_⟩
  rw [(allocate_eq_ok hrun).2.2]
  exact Array.size_replicate

theorem newObject_eq (table : Table) (classRef : ObjectRef) (size : Nat) (policy : Policy) :
    m.newObject table classRef size policy = (do
      let slots ← m.allocate (.object policy) size
      let o ← addObject ⟨table, 0, policy, slots⟩
      store o m.layout.classSlot.pos.toNat (.ofObject classRef)
      return o) := rfl

theorem newFragment_eq (n : Nat) : m.newFragment n = (do
    let storage ← m.allocate .fragment n
    addFragment (.ofStorage storage)) := rfl

theorem keeps_newObject {table : Table} {size : Nat} {policy : Policy} (classRef : ObjectRef)
    (hmade : p.made = some ⟨table, 0, policy, size⟩) :
    Keeps h p (m.newObject table classRef size policy) fun r => ¬ h.HasObject r := by
  rw [newObject_eq]
  apply keeps_bind (keeps_allocate _ _)
  rintro slots rfl
  apply keeps_bind (keeps_addObject hmade)
  intro r hr
  apply keeps_bind (keeps_store fun hold => absurd hold hr)
  intro _ _
  exact keeps_pure hr

theorem keeps_newInstance {c : ClassLayout} {policy : Policy} (hmade : p.made = some (c.shape policy)) :
    Keeps h p (m.newInstance c policy) fun r => ¬ h.HasObject r :=
  keeps_newObject _ hmade

theorem keeps_newFragment {n : Nat} (hroom : p.room = some n) :
    Keeps h p (m.newFragment n) fun g => ¬ h.HasFragment g := by
  rw [newFragment_eq]
  apply keeps_bind (keeps_allocate _ _)
  rintro storage rfl
  exact keeps_addFragment hroom (Nat.zero_le _)

theorem keeps_fill (hg : h.HasFragment g → p.fragment = some g) : Keeps h p (fill g items) fun _ => True := by
  intro s hs
  refine ⟨?_, fun _ _ _ => trivial⟩
  rw [fill, getHeap_bind]
  cases hfill : (s.heap.fragment g).fill? items with
  | none => exact hs
  | some y =>
    obtain ⟨hcapacity, hy⟩ := fits_of_fill? hfill
    exact touches_setFragment_named hg hs hcapacity hy

theorem keeps_populate (hr : h.HasObject r → p.object = some r) (hroom : p.room = some items.size) :
    Keeps h p (m.populate r items) fun _ => True := by
  apply keeps_bind (keeps_newFragment hroom)
  intro g hg
  apply keeps_bind (keeps_fill fun hold => absurd hold hg)
  intro _ _
  exact keeps_store hr

theorem keeps_populateSequence (ha : p.object = a.object?) (hroom : p.room = some items.size) :
    Keeps h p (m.populateSequence a items) fun _ => True := by
  unfold populateSequence
  split
  · rename_i r hr
    apply keeps_bind (keeps_populate (fun _ => ha.trans hr) hroom)
    intro _ _
    exact keeps_pure trivial
  · exact keeps_typeError _

theorem keeps_newLiteral {c : ClassLayout} (hmade : p.made = some (c.shape .heap))
    (hroom : p.room = some items.size) : Keeps h p (m.newLiteral c items) fun r => ¬ h.HasObject r := by
  apply keeps_bind (keeps_newInstance hmade)
  intro r hr
  apply keeps_bind (keeps_populate (fun hold => absurd hold hr) hroom)
  intro _ _
  exact keeps_pure hr

theorem keeps_newList (hmade : p.made = m.builtins.list.map (·.shape .heap))
    (hroom : p.room = some items.size) : Keeps h p (m.newList items) fun r => ¬ h.HasObject r := by
  unfold newList
  split
  · rename_i c hc
    rw [hc] at hmade
    exact keeps_newLiteral hmade hroom
  · exact keeps_typeError _

theorem keeps_newTuple (hmade : p.made = m.builtins.tuple.map (·.shape .heap))
    (hroom : p.room = some items.size) : Keeps h p (m.newTuple items) fun r => ¬ h.HasObject r := by
  unfold newTuple
  split
  · rename_i c hc
    rw [hc] at hmade
    exact keeps_newLiteral hmade hroom
  · exact keeps_typeError _

theorem keeps_newWrapper (hmade : p.made = m.builtins.wrapper.map (·.shape .heap)) (context target : Attr) :
    Keeps h p (m.newWrapper context target) fun r => ¬ h.HasObject r := by
  unfold newWrapper
  split
  · rename_i c hc
    rw [hc] at hmade
    apply keeps_bind (keeps_newInstance hmade)
    intro r hr
    apply keeps_bind (keeps_storeChecked fun hold => absurd hold hr)
    intro _ _
    apply keeps_bind (keeps_storeChecked fun hold => absurd hold hr)
    intro _ _
    exact keeps_pure hr
  · exact keeps_typeError _

theorem keeps_setDefault (hr : h.HasObject r → p.object = some r) (index : Nat) :
    Keeps h p (m.setDefault r index a) fun _ => True := by
  unfold setDefault
  split
  · exact keeps_store hr
  · exact keeps_throw _

theorem keeps_getDefault (index : Nat) : Keeps h p (m.getDefault r index) fun _ => True := by
  unfold getDefault
  split
  · exact keeps_load
  · exact keeps_throw _

end Machine

end Actions

/-! ### What is made -/

section Making

variable {m : Machine} {s s' : State} {g : FragmentRef} {r : ObjectRef} {items : Array Attr} {n : Nat}

/-- The result is an object that was not there before. -/
def Makes (x : Action ObjectRef) : Prop :=
  ∀ s r s', x s = .ok r s' → ¬ s.heap.HasObject r ∧ s'.heap.HasObject r

/-- The object stays there in what is done with it before it is returned. -/
theorem Makes.bind {x : Action ObjectRef} {k : ObjectRef → Action ObjectRef} {p : ObjectRef → Footprint}
    (hx : Makes x) (hk : ∀ r h, Keeps h (p r) (k r) (· = r)) : Makes (x >>= k) := by
  intro s r s' hrun
  obtain ⟨r', w, hmake, hrest⟩ := ActionOn.bind_eq_ok_iff.1 hrun
  obtain ⟨hnew, hthere⟩ := hx s r' w hmake
  have htouches := (hk r' w.heap).touches
  rw [hrest] at htouches
  obtain rfl : r = r' := (hk r' w.heap w (Heap.Touches.refl w.heap)).2 r s' hrest
  exact ⟨hnew, hthere.grows htouches.toGrows⟩

theorem makes_addObject (x : Object) : Makes (addObject x) := by
  intro s r s' hrun
  cases hrun
  exact ⟨Nat.lt_irrefl _, Heap.hasObject_addObject⟩

theorem makes_predefine (table : Table) (classPos : UInt32) (slots : Array Attr) :
    Makes (predefine table classPos slots) := makes_addObject ⟨table, classPos, .immutable, slots⟩

namespace Machine

theorem makes_newObject (table : Table) (classRef : ObjectRef) (size : Nat) (policy : Policy) :
    Makes (m.newObject table classRef size policy) := by
  intro s r s' hrun
  obtain ⟨rfl, -, hheap⟩ := newObject_eq_ok hrun
  rw [hheap]
  exact ⟨Nat.lt_irrefl _, Heap.hasObject_setSlot.2 Heap.hasObject_addObject⟩

theorem makes_newInstance (c : ClassLayout) (policy : Policy) : Makes (m.newInstance c policy) :=
  makes_newObject _ _ _ _

theorem makes_newLiteral (c : ClassLayout) : Makes (m.newLiteral c items) := by
  apply (makes_newInstance c .heap).bind (p := fun r => ⟨some r, none, none, some items.size⟩)
  intro r h
  exact keeps_bind (keeps_populate (fun _ => rfl) rfl) fun _ _ => keeps_pure rfl

theorem makes_newList : Makes (m.newList items) := by
  unfold newList
  split
  · exact makes_newLiteral _
  · nofun

theorem makes_newTuple : Makes (m.newTuple items) := by
  unfold newTuple
  split
  · exact makes_newLiteral _
  · nofun

/-- The items of a list as they stand. -/
def itemsOf? (m : Machine) (h : Heap) (list : Attr) : Option (Array Attr) :=
  list.object?.bind fun o =>
    match h.loadChecked o m.layout.dataSlot with
    | .ok (.seq f) => some (h.fragment f).items
    | _ => none

theorem listToTuple_cases (m : Machine) (list : Attr) (s : State) :
    (∃ items, m.itemsOf? s.heap list = some items ∧ m.listToTuple list s = m.newTuple items s) ∨
      ∃ e, m.listToTuple list s = .error e s := by
  unfold listToTuple itemsOf?
  cases list.object? with
  | none => exact .inr ⟨_, rfl⟩
  | some o =>
    simp only [loadChecked_bind, Option.bind_some]
    cases hload : s.heap.loadChecked o m.layout.dataSlot with
    | error e => exact .inr ⟨e, rfl⟩
    | ok a =>
      cases a with
      | seq f => exact .inl ⟨_, rfl, rfl⟩
      | _ => exact .inr ⟨_, rfl⟩

theorem makes_listToTuple (list : Attr) : Makes (m.listToTuple list) := by
  intro s r s' hrun
  rcases m.listToTuple_cases list s with ⟨items, -, heq⟩ | ⟨e, heq⟩
  · rw [heq] at hrun
    exact makes_newTuple s r s' hrun
  · rw [heq] at hrun
    cases hrun

theorem makes_newWrapper (context target : Attr) : Makes (m.newWrapper context target) := by
  unfold newWrapper
  split
  · rename_i c hc
    apply (makes_newInstance c .heap).bind (p := fun r => { Footprint.nothing with object := some r })
    intro r h
    apply keeps_bind (keeps_storeChecked fun _ => rfl)
    intro _ _
    apply keeps_bind (keeps_storeChecked fun _ => rfl)
    intro _ _
    exact keeps_pure rfl
  · nofun

/-- A fragment is new, too, and it is made empty and with the room asked for. -/
theorem makes_newFragment (hrun : m.newFragment n s = .ok g s') :
    ¬ s.heap.HasFragment g ∧ s'.heap.HasFragment g ∧ s'.heap.fragment g = ⟨n, #[]⟩ := by
  rw [newFragment_eq] at hrun
  obtain ⟨storage, granted, hallocate, hadd⟩ := ActionOn.bind_eq_ok_iff.1 hrun
  obtain ⟨hheap, -, rfl⟩ := allocate_eq_ok hallocate
  cases hadd
  have hmade : Fragment.ofStorage (Array.replicate n .null) = ⟨n, #[]⟩ := by
    rw [Fragment.ofStorage, Array.size_replicate]
  rw [← hheap, ← hmade]
  exact ⟨Nat.lt_irrefl _, Heap.hasFragment_addFragment, Heap.fragment_addFragment_self⟩

theorem fill_of_newFragment (hrun : m.newFragment n s = .ok g s') (hroom : items.size ≤ n) :
    fill g items s' = .ok () { s' with heap := s'.heap.setFragment g ⟨n, items⟩ } := by
  obtain ⟨-, -, hfragment⟩ := makes_newFragment hrun
  have hfill : (s'.heap.fragment g).fill? items = some ⟨n, items⟩ := by
    rw [hfragment, Fragment.fill?, if_pos hroom]
  rw [fill, getHeap_bind, hfill]
  rfl

/-- Populating never runs out of room: it does the same with a fill that does not look. -/
theorem populate_eq (r : ObjectRef) (items : Array Attr) : m.populate r items = (do
    let g ← m.newFragment items.size
    modifyHeap (·.setFragment g ⟨items.size, items⟩)
    store r m.layout.dataSlot.pos.toNat (.seq g)) := by
  funext s
  change EStateM.bind _ _ s = EStateM.bind _ _ s
  unfold EStateM.bind
  cases hrun : m.newFragment items.size s with
  | error e s' => rfl
  | ok g s' =>
    change EStateM.bind (fill g items) _ s' = _
    rw [EStateM.bind, fill_of_newFragment hrun (Nat.le_refl _)]
    rfl

end Machine

end Making

end ObjectRuntime
