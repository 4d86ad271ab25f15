import Mathlib.Tactic
import ObjectRuntime.Instantiate

/-! Slots under writing. A write reaches one slot of one object and leaves every other reading as it was;
because a table holds one code at each position, two attributes of an object never share a slot. On top
of that, what the actions that write slots and make objects come to when they succeed. -/

namespace ObjectRuntime

/-! ### Heaps -/

namespace Heap

variable {h h' : Heap} {o r : ObjectRef} {pos : Nat} {a : Attr} {s t : AttrSlot}

theorem object_setSlot_self : (h.setSlot o pos a).object o =
    { h.object o with slots := (h.object o).slots.setIfInBounds pos a } := by
  simp only [setSlot, object, Array.getD_eq_getD_getElem?, Array.getElem?_modify, if_true]
  cases h.objects[o.index]? with
  | none => simp [Object.blank]
  | some x => rfl

theorem object_setSlot_of_ne (hne : r ≠ o) : (h.setSlot o pos a).object r = h.object r := by
  have hindex : o.index ≠ r.index := by
    intro heq
    apply hne
    cases r
    cases o
    exact congrArg ObjectRef.mk heq.symm
  simp [setSlot, object, Array.getD_eq_getD_getElem?, Array.getElem?_modify, hindex]

theorem hasAttr_setSlot : ((h.setSlot o pos a).object r).hasAttr s = (h.object r).hasAttr s := by
  by_cases hr : r = o
  · subst hr
    simp [object_setSlot_self, Object.hasAttr]
  · rw [object_setSlot_of_ne hr]

theorem object_addObject_of_ne {x : Object} (hne : r ≠ (h.addObject x).1) :
    (h.addObject x).2.object r = h.object r := by
  have hindex : r.index ≠ h.objects.size := by
    intro heq
    apply hne
    cases r
    exact congrArg ObjectRef.mk heq
  simp [addObject, object, Array.getD_eq_getD_getElem?, Array.getElem?_push, hindex]

theorem store_eq_ok_iff : h.store o pos a = .ok h' ↔
    pos < (h.object o).slots.size ∧ h' = h.setSlot o pos a := by
  unfold store
  split
  · rename_i hpos
    simp [hpos, eq_comm]
  · rename_i hpos
    simp [hpos]

theorem storeChecked_eq_ok_iff : h.storeChecked o s a = .ok h' ↔
    (h.object o).hasAttr s ∧ h' = h.setSlot o s.pos.toNat a := by
  unfold storeChecked
  split
  · rename_i hattr
    have hpos : s.pos.toNat < (h.object o).slots.size := by
      simp only [Object.hasAttr, Bool.and_eq_true, decide_eq_true_eq] at hattr
      exact hattr.2
    simp [store_eq_ok_iff, hattr, hpos]
  · rename_i hattr
    simp [hattr]

end Heap

namespace Object

variable {o : Object} {s t : AttrSlot}

theorem hasAttr_iff : o.hasAttr s ↔
    s.code ≠ gapCode ∧ o.table.codes[s.pos.toNat]? = some s.code ∧ s.pos.toNat < o.slots.size := by
  simp [hasAttr, Table.provides, and_assoc]

/-- Two attributes at one position are one attribute. -/
theorem eq_of_hasAttr (hs : o.hasAttr s) (ht : o.hasAttr t) (hpos : s.pos.toNat = t.pos.toNat) :
    s = t := by
  obtain ⟨-, hcode, -⟩ := hasAttr_iff.1 hs
  obtain ⟨-, hcode', -⟩ := hasAttr_iff.1 ht
  rw [hpos, hcode'] at hcode
  cases s
  cases t
  simp only [AttrSlot.mk.injEq]
  exact ⟨UInt64.toNat_inj.1 hpos, (Option.some.inj hcode).symm⟩

end Object

namespace Heap

variable {h : Heap} {o : ObjectRef} {a : Attr} {s t : AttrSlot}

theorem loadOrNull_setSlot_self (hs : (h.object o).hasAttr s) :
    ((h.setSlot o s.pos.toNat a).object o).loadOrNull s = a := by
  have hpos := (Object.hasAttr_iff.1 hs).2.2
  unfold Object.loadOrNull
  rw [hasAttr_setSlot, if_pos hs, object_setSlot_self]
  simp [Array.getD_eq_getD_getElem?, hpos]

/-- Writing an attribute leaves the other attributes of the object alone, wherever they are taken to
lie. -/
theorem loadOrNull_setSlot_of_ne (hs : (h.object o).hasAttr s) (hne : t ≠ s) :
    ((h.setSlot o s.pos.toNat a).object o).loadOrNull t = (h.object o).loadOrNull t := by
  unfold Object.loadOrNull
  rw [hasAttr_setSlot]
  split
  · rename_i ht
    have hpos : s.pos.toNat ≠ t.pos.toNat := fun hpos => hne (Object.eq_of_hasAttr hs ht hpos).symm
    rw [object_setSlot_self]
    simp [Array.getD_eq_getD_getElem?, Array.getElem?_setIfInBounds_ne hpos]
  · rfl

end Heap

/-! ### Actions -/

section Actions

variable {σ α β : Type} {x : ActionOn σ α} {f : α → ActionOn σ β} {u v : σ} {b : β} {e : Halt}

theorem ActionOn.bind_eq_ok_iff :
    (x >>= f) u = .ok b v ↔ ∃ a w, x u = .ok a w ∧ f a w = .ok b v := by
  change EStateM.bind x f u = _ ↔ _
  unfold EStateM.bind
  cases x u <;> simp

theorem ActionOn.bind_eq_error_iff :
    (x >>= f) u = .error e v ↔ x u = .error e v ∨ ∃ a w, x u = .ok a w ∧ f a w = .error e v := by
  change EStateM.bind x f u = _ ↔ _
  unfold EStateM.bind
  cases x u <;> simp

theorem ActionOn.get_bind (k : σ → ActionOn σ β) : (get >>= k) u = k u u := rfl

theorem ActionOn.modifyGet_bind (g : σ → α × σ) (k : α → ActionOn σ β) :
    (modifyGet g >>= k) u = k (g u).1 (g u).2 := rfl

theorem getHeap_bind (k : Heap → Action β) (s : State) : (getHeap >>= k) s = k s.heap s := rfl

theorem ofExcept_eq_ok_iff {e : Except Halt α} {a : α} : ofExcept e u = .ok a v ↔ e = .ok a ∧ v = u := by
  cases e with
  | error e =>
    simp only [reduceCtorEq, false_and, iff_false]
    intro h
    cases h
  | ok b =>
    change EStateM.Result.ok b u = _ ↔ _
    simp [eq_comm]

end Actions

variable {s s' : State} {o : ObjectRef} {pos : Nat} {a : Attr} {slot : AttrSlot} {v : Unit}

theorem store_eq_ok_iff : store o pos a s = .ok v s' ↔
    pos < (s.heap.object o).slots.size ∧ s' = { s with heap := s.heap.setSlot o pos a } := by
  change (ofExcept (s.heap.store o pos a) >>= fun h => modifyHeap fun _ => h) s = _ ↔ _
  rw [ActionOn.bind_eq_ok_iff]
  simp only [ofExcept_eq_ok_iff, Heap.store_eq_ok_iff]
  refine ⟨?_, ?_⟩
  · rintro ⟨h, w, ⟨⟨hpos, rfl⟩, rfl⟩, hmodify⟩
    exact ⟨hpos, (EStateM.Result.ok.inj hmodify).2.symm⟩
  · rintro ⟨hpos, rfl⟩
    exact ⟨_, s, ⟨⟨hpos, rfl⟩, rfl⟩, rfl⟩

theorem storeChecked_eq_ok_iff : storeChecked o slot a s = .ok v s' ↔
    (s.heap.object o).hasAttr slot ∧ s' = { s with heap := s.heap.setSlot o slot.pos.toNat a } := by
  change (ofExcept (s.heap.storeChecked o slot a) >>= fun h => modifyHeap fun _ => h) s = _ ↔ _
  rw [ActionOn.bind_eq_ok_iff]
  simp only [ofExcept_eq_ok_iff, Heap.storeChecked_eq_ok_iff]
  refine ⟨?_, ?_⟩
  · rintro ⟨h, w, ⟨⟨hattr, rfl⟩, rfl⟩, hmodify⟩
    exact ⟨hattr, (EStateM.Result.ok.inj hmodify).2.symm⟩
  · rintro ⟨hattr, rfl⟩
    exact ⟨_, s, ⟨⟨hattr, rfl⟩, rfl⟩, rfl⟩

namespace Machine

variable {m : Machine}

/-- Storage that is granted is empty, and granting it is only counted. -/
theorem allocate_eq_ok {kind : StorageKind} {n : Nat} {storage : Array Attr}
    (h : m.allocate kind n s = .ok storage s') :
    s'.heap = s.heap ∧ s'.calls = s.calls ∧ storage = Array.replicate n .null := by
  unfold allocate at h
  obtain ⟨u, w, hget, h⟩ := ActionOn.bind_eq_ok_iff.1 h
  cases hget
  cases hrequest : s.allocator.request (m.reserves n) kind n with
  | error e =>
    simp only [hrequest] at h
    cases h
  | ok granted =>
    simp only [hrequest] at h
    cases h
    refine ⟨rfl, rfl, ?_⟩
    simp only [Allocator.request] at hrequest
    split at hrequest
    · cases hrequest
      rfl
    · cases hrequest

/-- An object is made at the end of the heap, with its class in place and nothing else in it. -/
theorem newObject_eq_ok {table : Table} {classRef : ObjectRef} {size : Nat} {policy : Policy}
    (h : m.newObject table classRef size policy s = .ok o s') :
    o = ⟨s.heap.objects.size⟩ ∧ s'.calls = s.calls ∧
      s'.heap = ((s.heap.addObject ⟨table, 0, policy, Array.replicate size .null⟩).2.setSlot o
        m.layout.classSlot.pos.toNat (.ofObject classRef)) := by
  unfold newObject at h
  obtain ⟨storage, granted, hallocate, h⟩ := ActionOn.bind_eq_ok_iff.1 h
  obtain ⟨hheap, hcalls, rfl⟩ := allocate_eq_ok hallocate
  obtain ⟨heap, w, hget, h⟩ := ActionOn.bind_eq_ok_iff.1 h
  cases hget
  obtain ⟨u, added, hmodify, h⟩ := ActionOn.bind_eq_ok_iff.1 h
  cases hmodify
  obtain ⟨v, stored, hstore, h⟩ := ActionOn.bind_eq_ok_iff.1 h
  cases h
  obtain ⟨-, rfl⟩ := store_eq_ok_iff.1 hstore
  rw [← hheap]
  exact ⟨rfl, hcalls, rfl⟩

/-- Making an object leaves every other reading of the heap alone. -/
theorem object_of_newObject {table : Table} {classRef : ObjectRef} {size : Nat} {policy : Policy}
    (h : m.newObject table classRef size policy s = .ok o s') {r : ObjectRef} (hr : r ≠ o) :
    s'.heap.object r = s.heap.object r := by
  obtain ⟨rfl, -, hheap⟩ := newObject_eq_ok h
  rw [hheap, Heap.object_setSlot_of_ne hr, Heap.object_addObject_of_ne hr]

end Machine

end ObjectRuntime
