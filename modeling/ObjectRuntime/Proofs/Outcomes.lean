import ObjectRuntime.Proofs.Grants

/-! What making comes to. Storage is granted as a whole or not at all, so a step that makes an object or a
fragment has three outcomes: it is refused, and nothing has been done; or the new thing stands at the end of
the heap and is counted, and then either the step is done or a slot that had to be written was not there. -/

namespace ObjectRuntime

namespace State

variable {s : State} {x : Object} {y : Fragment} {g : FragmentRef}

/-- The state with one more object at the end of its heap, and its storage counted. -/
def withObject (s : State) (x : Object) : State :=
  { s.charge x.storage with heap := (s.heap.addObject x).2 }

def withFragment (s : State) (y : Fragment) : State :=
  { s.charge y.storage with heap := (s.heap.addFragment y).2 }

/-- The state with a slot written. -/
def withSlot (s : State) (r : ObjectRef) (pos : Nat) (a : Attr) : State :=
  { s with heap := s.heap.setSlot r pos a }

theorem object_withObject_self : (s.withObject x).heap.object ⟨s.heap.objects.size⟩ = x :=
  Heap.object_addObject_self

theorem fragment_withFragment_self : (s.withFragment y).heap.fragment ⟨s.heap.fragments.size⟩ = y :=
  Heap.fragment_addFragment_self

theorem fragment_withFragment (hg : s.heap.HasFragment g) :
    (s.withFragment y).heap.fragment g = s.heap.fragment g :=
  Heap.fragment_addFragment_of_ne (Nat.ne_of_lt hg)

end State

namespace Heap

variable {h : Heap} {x : Object} {y z : Fragment} {pos : Nat} {a : Attr}

/-- To write a slot of the newest object is to make that object with the slot written. -/
theorem setSlot_addObject : (h.addObject x).2.setSlot ⟨h.objects.size⟩ pos a =
    (h.addObject { x with slots := x.slots.setIfInBounds pos a }).2 := by
  simp only [addObject, setSlot, Heap.mk.injEq, and_true]
  refine Array.ext (by simp) fun i hi hi' => ?_
  simp only [Array.getElem_modify, Array.getElem_push]
  split <;> grind

theorem setFragment_addFragment :
    (h.addFragment y).2.setFragment ⟨h.fragments.size⟩ z = (h.addFragment z).2 := by
  simp only [addFragment, setFragment, Heap.mk.injEq, true_and]
  refine Array.ext (by simp) fun i hi hi' => ?_
  simp only [Array.getElem_push]
  grind

end Heap

/-- The newest object is made as large as it stays. -/
theorem State.withSlot_withObject {s : State} {x : Object} {pos : Nat} {a : Attr} :
    (s.withObject x).withSlot ⟨s.heap.objects.size⟩ pos a =
      s.withObject { x with slots := x.slots.setIfInBounds pos a } := by
  have hstorage : x.storage = Object.storage { x with slots := x.slots.setIfInBounds pos a } := by
    simp [Object.storage]
  rw [withSlot, withObject, withObject, ← hstorage, ← Heap.setSlot_addObject]

/-! ### Slots -/

section Slots

variable {s : State} {r : ObjectRef} {pos : Nat} {a : Attr} {slot : AttrSlot}

theorem store_cases (r : ObjectRef) (pos : Nat) (a : Attr) (s : State) :
    (pos < (s.heap.object r).slots.size ∧ store r pos a s = .ok () (s.withSlot r pos a)) ∨
      (¬ pos < (s.heap.object r).slots.size ∧ store r pos a s = .error .fault s) := by
  by_cases hpos : pos < (s.heap.object r).slots.size
  · exact .inl ⟨hpos, store_eq_ok_iff.2 ⟨hpos, rfl⟩⟩
  · refine .inr ⟨hpos, ?_⟩
    change (ofExcept (s.heap.store r pos a) >>= fun h => modifyHeap fun _ => h) s = _
    rw [Heap.store, if_neg hpos]
    rfl

theorem storeChecked_cases (r : ObjectRef) (slot : AttrSlot) (a : Attr) (s : State) :
    storeChecked r slot a s = .ok () (s.withSlot r slot.pos.toNat a) ∨
      storeChecked r slot a s = .error (.type .attributeMissing) s := by
  by_cases hattr : (s.heap.object r).hasAttr slot
  · exact .inl (storeChecked_eq_ok_iff.2 ⟨hattr, rfl⟩)
  · refine .inr ?_
    change (ofExcept (s.heap.storeChecked r slot a) >>= fun h => modifyHeap fun _ => h) s = _
    rw [Heap.storeChecked, if_neg hattr]
    rfl

end Slots

/-! ### Objects and fragments -/

section Bind

variable {α β : Type} {x : Action α} {k : α → Action β} {s t : State}

theorem bind_of_ok {a : α} (h : x s = .ok a t) : (x >>= k) s = k a t := by
  change EStateM.bind x k s = _
  rw [EStateM.bind, h]

theorem bind_of_error {e : Halt} (h : x s = .error e t) : (x >>= k) s = .error e t := by
  change EStateM.bind x k s = _
  rw [EStateM.bind, h]

end Bind

namespace Machine

variable {m : Machine}

/-- A new object with its class in place, if it has a slot for it, and nothing else in it. -/
def instanceOf (m : Machine) (table : Table) (classRef : ObjectRef) (size : Nat) (policy : Policy) : Object where
  table := table
  pos := 0
  policy := policy
  slots := (Array.replicate size .null).setIfInBounds m.layout.classSlot.pos.toNat (.ofObject classRef)

theorem newObject_cases (table : Table) (classRef : ObjectRef) (size : Nat) (policy : Policy) (s : State) :
    m.newObject table classRef size policy s = .error (.raised .memory) s ∨
    (m.layout.classSlot.pos.toNat < size ∧ m.newObject table classRef size policy s =
      .ok ⟨s.heap.objects.size⟩ (s.withObject (m.instanceOf table classRef size policy))) ∨
    (¬ m.layout.classSlot.pos.toNat < size ∧ m.newObject table classRef size policy s =
      .error .fault (s.withObject (m.instanceOf table classRef size policy))) := by
  let x : Object := ⟨table, 0, policy, Array.replicate size .null⟩
  have hstorage : x.storage = ⟨.object policy, size⟩ := by simp [x, Object.storage]
  have hsize : ((s.withObject x).heap.object ⟨s.heap.objects.size⟩).slots.size = size := by
    rw [State.object_withObject_self, Array.size_replicate]
  rw [newObject_eq]
  rcases m.allocate_cases ⟨.object policy, size⟩ s with hgranted | hrefused
  · refine .inr ?_
    rw [bind_of_ok hgranted]
    have hadd : addObject x (s.charge ⟨.object policy, size⟩) = .ok ⟨s.heap.objects.size⟩ (s.withObject x) := by
      rw [State.withObject, hstorage]
      rfl
    rw [bind_of_ok hadd]
    rcases store_cases ⟨s.heap.objects.size⟩ m.layout.classSlot.pos.toNat (.ofObject classRef)
      (s.withObject x) with ⟨hpos, hstore⟩ | ⟨hpos, hstore⟩
    · rw [hsize] at hpos
      rw [bind_of_ok hstore, State.withSlot_withObject]
      exact .inl ⟨hpos, rfl⟩
    · rw [hsize] at hpos
      rw [bind_of_error hstore]
      refine .inr ⟨hpos, ?_⟩
      rw [instanceOf, Array.setIfInBounds_eq_of_size_le (by simpa using hpos)]
  · exact .inl (bind_of_error hrefused)

theorem newFragment_cases (n : Nat) (s : State) :
    m.newFragment n s = .error (.raised .memory) s ∨
      m.newFragment n s = .ok ⟨s.heap.fragments.size⟩ (s.withFragment ⟨n, #[]⟩) := by
  rw [newFragment_eq]
  rcases m.allocate_cases ⟨.fragment, n⟩ s with hgranted | hrefused
  · refine .inr ?_
    rw [bind_of_ok hgranted]
    have hmade : Fragment.ofStorage (Array.replicate n .null) = ⟨n, #[]⟩ := by
      rw [Fragment.ofStorage, Array.size_replicate]
    change addFragment (Fragment.ofStorage (Array.replicate n .null)) _ = _
    rw [hmade]
    rfl
  · exact .inl (bind_of_error hrefused)

/-- The items are in a fragment of their own before the object comes to refer to it. -/
theorem populate_cases (r : ObjectRef) (items : Array Attr) (s : State) :
    m.populate r items s = .error (.raised .memory) s ∨
    (m.layout.dataSlot.pos.toNat < (s.heap.object r).slots.size ∧ m.populate r items s =
      .ok () ((s.withFragment ⟨items.size, items⟩).withSlot r m.layout.dataSlot.pos.toNat
        (.seq ⟨s.heap.fragments.size⟩))) ∨
    (¬ m.layout.dataSlot.pos.toNat < (s.heap.object r).slots.size ∧
      m.populate r items s = .error .fault (s.withFragment ⟨items.size, items⟩)) := by
  rw [populate_eq]
  rcases m.newFragment_cases items.size s with hrefused | hgranted
  · exact .inl (bind_of_error hrefused)
  · refine .inr ?_
    rw [bind_of_ok hgranted]
    have hfill : modifyHeap (·.setFragment ⟨s.heap.fragments.size⟩ ⟨items.size, items⟩)
        (s.withFragment ⟨items.size, #[]⟩) = .ok () (s.withFragment ⟨items.size, items⟩) := by
      let filled (h : Heap) : EStateM.Result Halt State Unit :=
        .ok () { s.charge ⟨.fragment, items.size⟩ with heap := h }
      exact congrArg filled Heap.setFragment_addFragment
    rw [bind_of_ok hfill]
    exact store_cases r _ _ (s.withFragment ⟨items.size, items⟩)

end Machine

end ObjectRuntime
