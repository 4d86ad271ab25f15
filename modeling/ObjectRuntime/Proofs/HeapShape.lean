import ObjectRuntime.Proofs.Slots

/-! The shape of a heap. Whatever is done to a heap, its objects keep their shape and its fragments their
room, and no fragment comes to hold more than it has room for. What is done to it is described by its
footprint: at most one object and one fragment are changed among those that there are, and what is added has
the shape or the room that was asked for. -/

namespace ObjectRuntime

/-- What an object is made with and keeps. -/
structure ObjectShape where
  table : Table
  pos : UInt32
  policy : Policy
  /-- The number of slots. -/
  size : Nat
deriving DecidableEq

def Object.shape (o : Object) : ObjectShape := ⟨o.table, o.pos, o.policy, o.slots.size⟩

/-- What is changed of a heap, and what is added to it. -/
structure Footprint where
  object : Option ObjectRef
  fragment : Option FragmentRef
  /-- The shape of every object that is added. -/
  made : Option ObjectShape
  /-- The capacity of every fragment that is added. -/
  room : Option Nat

def Footprint.nothing : Footprint := ⟨none, none, none, none⟩

/-- The items are no more than there is room for. -/
def Fragment.Fits (f : Fragment) : Prop := f.size ≤ f.capacity

namespace Heap

def HasObject (h : Heap) (r : ObjectRef) : Prop := r.index < h.objects.size

def HasFragment (h : Heap) (f : FragmentRef) : Prop := f.index < h.fragments.size

/-- No fragment holds more than it has room for. -/
def InRoom (h : Heap) : Prop := ∀ f, (h.fragment f).Fits

/-- What a heap keeps for good. -/
structure Grows (h h' : Heap) : Prop where
  objects : h.objects.size ≤ h'.objects.size
  fragments : h.fragments.size ≤ h'.fragments.size
  shape {r : ObjectRef} (hr : h.HasObject r) : (h'.object r).shape = (h.object r).shape
  capacity {f : FragmentRef} (hf : h.HasFragment f) : (h'.fragment f).capacity = (h.fragment f).capacity
  /-- This holds of new fragments, too: where there is none yet, an empty one is read. -/
  fits {f : FragmentRef} (hf : (h.fragment f).Fits) : (h'.fragment f).Fits

/-- What a heap keeps where nothing is done beyond the footprint. -/
structure Touches (p : Footprint) (h h' : Heap) : Prop extends Grows h h' where
  object {r : ObjectRef} (hr : h.HasObject r) (hne : p.object ≠ some r) : h'.object r = h.object r
  fragment {g : FragmentRef} (hg : h.HasFragment g) (hne : p.fragment ≠ some g) :
    h'.fragment g = h.fragment g
  made {r : ObjectRef} (hnew : ¬ h.HasObject r) (hr : h'.HasObject r) : p.made = some (h'.object r).shape
  room {g : FragmentRef} (hnew : ¬ h.HasFragment g) (hg : h'.HasFragment g) :
    p.room = some (h'.fragment g).capacity

variable {h h' h'' : Heap} {p p' : Footprint} {r s : ObjectRef} {g k : FragmentRef} {x : Object}
  {y : Fragment} {pos : Nat} {a : Attr}

theorem HasObject.grows (hr : h.HasObject r) (hgrows : h.Grows h') : h'.HasObject r :=
  Nat.lt_of_lt_of_le hr hgrows.objects

theorem HasFragment.grows (hg : h.HasFragment g) (hgrows : h.Grows h') : h'.HasFragment g :=
  Nat.lt_of_lt_of_le hg hgrows.fragments

theorem Grows.refl (h : Heap) : h.Grows h := ⟨Nat.le_refl _, Nat.le_refl _, fun _ => rfl, fun _ => rfl, id⟩

theorem Grows.trans (h₁ : h.Grows h') (h₂ : h'.Grows h'') : h.Grows h'' where
  objects := Nat.le_trans h₁.objects h₂.objects
  fragments := Nat.le_trans h₁.fragments h₂.fragments
  shape hr := (h₂.shape (hr.grows h₁)).trans (h₁.shape hr)
  capacity hf := (h₂.capacity (hf.grows h₁)).trans (h₁.capacity hf)
  fits hf := h₂.fits (h₁.fits hf)

theorem InRoom.grows (hroom : h.InRoom) (hgrows : h.Grows h') : h'.InRoom := fun f => hgrows.fits (hroom f)

theorem Touches.refl (h : Heap) : Touches p h h :=
  ⟨Grows.refl h, fun _ _ => rfl, fun _ _ => rfl, fun hnew hr => absurd hr hnew, fun hnew hg => absurd hg hnew⟩

/-- What is done next has to be in the footprint, too, but for changes of what is new. -/
theorem Touches.trans (h₁ : Touches p h h') (h₂ : Touches p' h' h'')
    (hobject : ∀ r, p'.object = some r → h.HasObject r → p.object = some r)
    (hfragment : ∀ g, p'.fragment = some g → h.HasFragment g → p.fragment = some g)
    (hmade : ∀ made, p'.made = some made → p.made = some made)
    (hroom : ∀ n, p'.room = some n → p.room = some n) : Touches p h h'' where
  toGrows := h₁.toGrows.trans h₂.toGrows
  object hr hne :=
    (h₂.object (hr.grows h₁.toGrows) fun heq => hne (hobject _ heq hr)).trans (h₁.object hr hne)
  fragment hg hne :=
    (h₂.fragment (hg.grows h₁.toGrows) fun heq => hne (hfragment _ heq hg)).trans (h₁.fragment hg hne)
  made {r} hnew hr := by
    by_cases hr' : h'.HasObject r
    · rw [h₂.shape hr']
      exact h₁.made hnew hr'
    · exact hmade _ (h₂.made hr' hr)
  room {g} hnew hg := by
    by_cases hg' : h'.HasFragment g
    · rw [h₂.capacity hg']
      exact h₁.room hnew hg'
    · exact hroom _ (h₂.room hg' hg)

/-! ### The changes that are made to heaps -/

theorem object_addObject (hr : h.HasObject r) : (h.addObject x).2.object r = h.object r := by
  refine object_addObject_of_ne ?_
  rintro rfl
  exact Nat.lt_irrefl _ hr

theorem object_addObject_self : (h.addObject x).2.object ⟨h.objects.size⟩ = x := by
  simp [addObject, object, Array.getD_eq_getD_getElem?]

theorem hasObject_addObject : (h.addObject x).2.HasObject ⟨h.objects.size⟩ := by
  simp [addObject, HasObject]

theorem eq_of_hasObject_addObject (hnew : ¬ h.HasObject r) (hr : (h.addObject x).2.HasObject r) :
    r = ⟨h.objects.size⟩ := by
  have hlt : r.index < h.objects.size + 1 := by simpa [addObject, HasObject] using hr
  exact congrArg ObjectRef.mk (Nat.le_antisymm (Nat.lt_succ_iff.1 hlt) (Nat.not_lt.1 hnew))

theorem touches_addObject (hx : p.made = some x.shape) : Touches p h (h.addObject x).2 where
  objects := by simp [addObject]
  fragments := Nat.le_refl _
  shape hr := congrArg Object.shape (object_addObject hr)
  capacity _ := rfl
  fits := id
  object hr _ := object_addObject hr
  fragment _ _ := rfl
  made hnew hr := by
    rw [eq_of_hasObject_addObject hnew hr, object_addObject_self]
    exact hx
  room hnew hg := absurd hg hnew

theorem fragment_addFragment_self : (h.addFragment y).2.fragment ⟨h.fragments.size⟩ = y := by
  simp [addFragment, fragment, Array.getD_eq_getD_getElem?]

theorem hasFragment_addFragment : (h.addFragment y).2.HasFragment ⟨h.fragments.size⟩ := by
  simp [addFragment, HasFragment]

theorem fragment_addFragment_of_ne (hne : g.index ≠ h.fragments.size) :
    (h.addFragment y).2.fragment g = h.fragment g := by
  simp [addFragment, fragment, Array.getD_eq_getD_getElem?, Array.getElem?_push, hne]

theorem eq_of_hasFragment_addFragment (hnew : ¬ h.HasFragment g)
    (hg : (h.addFragment y).2.HasFragment g) : g = ⟨h.fragments.size⟩ := by
  have hlt : g.index < h.fragments.size + 1 := by simpa [addFragment, HasFragment] using hg
  exact congrArg FragmentRef.mk (Nat.le_antisymm (Nat.lt_succ_iff.1 hlt) (Nat.not_lt.1 hnew))

theorem touches_addFragment (hroom : p.room = some y.capacity) (hy : y.Fits) :
    Touches p h (h.addFragment y).2 where
  objects := Nat.le_refl _
  fragments := by simp [addFragment]
  shape _ := rfl
  capacity hf := congrArg Fragment.capacity (fragment_addFragment_of_ne (Nat.ne_of_lt hf))
  fits {g} hf := by
    by_cases hg : g.index = h.fragments.size
    · obtain rfl : g = ⟨h.fragments.size⟩ := congrArg FragmentRef.mk hg
      rw [fragment_addFragment_self]
      exact hy
    · rw [fragment_addFragment_of_ne hg]
      exact hf
  object _ _ := rfl
  fragment hg _ := fragment_addFragment_of_ne (Nat.ne_of_lt hg)
  made hnew hr := absurd hr hnew
  room hnew hg := by
    rw [eq_of_hasFragment_addFragment hnew hg, fragment_addFragment_self]
    exact hroom

theorem shape_setSlot : ((h.setSlot r pos a).object s).shape = (h.object s).shape := by
  by_cases hs : s = r
  · subst hs
    rw [object_setSlot_self, Object.shape, Object.shape, Array.size_setIfInBounds]
  · rw [object_setSlot_of_ne hs]

theorem hasObject_setSlot : (h.setSlot r pos a).HasObject s ↔ h.HasObject s := by
  simp [setSlot, HasObject]

theorem touches_setSlot : Touches { Footprint.nothing with object := some r } h (h.setSlot r pos a) where
  objects := by simp [setSlot]
  fragments := Nat.le_refl _
  shape _ := shape_setSlot
  capacity _ := rfl
  fits := id
  object _ hne := object_setSlot_of_ne fun heq => hne (congrArg some heq.symm)
  fragment _ _ := rfl
  made hnew hr := absurd (hasObject_setSlot.1 hr) hnew
  room hnew hg := absurd hg hnew

theorem fragment_setFragment_of_ne (hne : k ≠ g) : (h.setFragment g y).fragment k = h.fragment k := by
  have hindex : g.index ≠ k.index := fun heq => hne (congrArg FragmentRef.mk heq.symm)
  simp [setFragment, fragment, Array.getD_eq_getD_getElem?, hindex]

theorem fragment_setFragment_self (hg : h.HasFragment g) : (h.setFragment g y).fragment g = y := by
  simp [setFragment, fragment, Array.getD_eq_getD_getElem?, show g.index < h.fragments.size from hg]

theorem setFragment_of_not_hasFragment (hg : ¬ h.HasFragment g) : h.setFragment g y = h := by
  rw [setFragment, Array.setIfInBounds_eq_of_size_le (Nat.not_lt.1 hg)]

theorem hasFragment_setFragment : (h.setFragment g y).HasFragment k ↔ h.HasFragment k := by
  simp [setFragment, HasFragment]

theorem touches_setFragment (hcapacity : y.capacity = (h.fragment g).capacity) (hy : y.Fits) :
    Touches { Footprint.nothing with fragment := some g } h (h.setFragment g y) := by
  by_cases hg : h.HasFragment g
  · refine ⟨⟨Nat.le_refl _, by simp [setFragment], fun _ => rfl, fun {k} _ => ?_, fun {k} hk => ?_⟩,
      fun _ _ => rfl, fun _ hne => fragment_setFragment_of_ne fun heq => hne (congrArg some heq.symm),
      fun hnew hr => absurd hr hnew, fun hnew hk => absurd (hasFragment_setFragment.1 hk) hnew⟩
    · by_cases hk : k = g
      · rw [hk, fragment_setFragment_self hg, hcapacity]
      · rw [fragment_setFragment_of_ne hk]
    · by_cases hkg : k = g
      · rw [hkg, fragment_setFragment_self hg]
        exact hy
      · rw [fragment_setFragment_of_ne hkg]
        exact hk
  · rw [setFragment_of_not_hasFragment hg]
    exact Touches.refl h

end Heap
end ObjectRuntime
