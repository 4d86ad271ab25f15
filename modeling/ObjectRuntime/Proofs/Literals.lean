import ObjectRuntime.Proofs.Accounting
import ObjectRuntime.Proofs.FailedMaking

/-! Literals. A list or a tuple is made with a fragment of its own that has room for just the items it holds, so
nothing is ever added to it; and a tuple made from a list shares nothing with the list. Its items change only
where the tuple itself is written. -/

namespace ObjectRuntime

namespace Machine

/-- Instances of the class have a slot for their class and another one for their data, which their table
provides. -/
structure Houses (m : Machine) (c : ClassLayout) : Prop where
  classRoom : m.layout.classSlot.pos.toNat < c.size
  dataRoom : m.layout.dataSlot.pos.toNat < c.size
  apart : m.layout.dataSlot.pos ≠ m.layout.classSlot.pos
  provided : c.table.provides m.layout.dataSlot.pos.toNat m.layout.dataSlot.code

/-- The object is an instance of the class, and its data are a fragment with just these items and no room for
more. -/
structure Literal (m : Machine) (h : Heap) (c : ClassLayout) (items : Array Attr) (r : ObjectRef)
    (g : FragmentRef) : Prop where
  object : h.HasObject r
  fragment : h.HasFragment g
  shape : (h.object r).shape = c.shape .heap
  classRef : h.load r m.layout.classSlot.pos.toNat = .ok (.ofObject c.classRef)
  data : h.loadChecked r m.layout.dataSlot = .ok (.seq g)
  items : h.fragment g = ⟨items.size, items⟩

/-- Neither the object nor the fragment was there in the first state, and all that was there is as it was. -/
structure Fresh (s t : State) (r : ObjectRef) (g : FragmentRef) : Prop extends Undisturbed s t where
  newObject : ¬ s.heap.HasObject r
  newFragment : ¬ s.heap.HasFragment g

variable {m : Machine} {c : ClassLayout} {items : Array Attr} {s t : State} {r l : ObjectRef}
  {g f : FragmentRef} {h h' : Heap} {list : Attr}

/-! ### Making -/

theorem newLiteral_eq_ok (hrun : m.newLiteral c items s = .ok r t) :
    r = ⟨s.heap.objects.size⟩ ∧
    t = ((s.withObject (m.instanceOf c.table c.classRef c.size .heap)).withFragment ⟨items.size, items⟩).withSlot r
      m.layout.dataSlot.pos.toNat (.seq ⟨s.heap.fragments.size⟩) := by
  obtain ⟨o, w, hmake, hrun⟩ := ActionOn.bind_eq_ok_iff.1 hrun
  obtain ⟨rfl, rfl⟩ := newObject_eq_withObject hmake
  obtain ⟨⟨⟩, w, hpopulate, hrun⟩ := ActionOn.bind_eq_ok_iff.1 hrun
  cases hrun
  rcases m.populate_cases ⟨s.heap.objects.size⟩ items
    (s.withObject (m.instanceOf c.table c.classRef c.size .heap)) with heq | ⟨-, heq⟩ | ⟨-, heq⟩ <;>
    rw [heq] at hpopulate <;> cases hpopulate
  exact ⟨rfl, rfl⟩

theorem literal_of_newLiteral (hc : m.Houses c) (hrun : m.newLiteral c items s = .ok r t) :
    ∃ g, m.Literal t.heap c items r g ∧ Fresh s t r g := by
  have htouches : s.heap.Touches (.literal (some c) (some items.size)) (stateOf (m.newLiteral c items s)).heap :=
    (keeps_newLiteral rfl rfl).touches
  rw [hrun] at htouches
  obtain ⟨hnew, hthere⟩ := makes_newLiteral c s r t hrun
  obtain ⟨rfl, rfl⟩ := newLiteral_eq_ok hrun
  let w : State := (s.withObject (m.instanceOf c.table c.classRef c.size .heap)).withFragment ⟨items.size, items⟩
  have hmade : w.heap.object ⟨s.heap.objects.size⟩ = m.instanceOf c.table c.classRef c.size .heap :=
    State.object_withObject_self
  let data : Attr := .seq ⟨s.heap.fragments.size⟩
  have hdata : (w.withSlot ⟨s.heap.objects.size⟩ m.layout.dataSlot.pos.toNat data).heap.object
      ⟨s.heap.objects.size⟩ = { m.instanceOf c.table c.classRef c.size .heap with
        slots := (m.instanceOf c.table c.classRef c.size .heap).slots.setIfInBounds
          m.layout.dataSlot.pos.toNat data } := by
    rw [State.withSlot, Heap.object_setSlot_self, hmade]
  have hfragment : w.heap.fragment ⟨s.heap.fragments.size⟩ = ⟨items.size, items⟩ :=
    State.fragment_withFragment_self
  have hapart : m.layout.dataSlot.pos.toNat ≠ m.layout.classSlot.pos.toNat :=
    fun heq => hc.apart (UInt64.toNat_inj.1 heq)
  refine ⟨⟨s.heap.fragments.size⟩, ⟨hthere, Heap.hasFragment_addFragment, ?_, ?_, ?_, hfragment⟩,
    Operation.undisturbed_of_touches rfl rfl htouches, hnew, Nat.lt_irrefl _⟩
  · rw [hdata, Object.shape, Array.size_setIfInBounds]
    simp [instanceOf, ClassLayout.shape]
  · rw [Heap.load, hdata]
    simp [instanceOf, hapart, hc.classRoom]
  · have hattr : ((w.withSlot ⟨s.heap.objects.size⟩ m.layout.dataSlot.pos.toNat data).heap.object
        ⟨s.heap.objects.size⟩).hasAttr m.layout.dataSlot := by
      rw [hdata, Object.hasAttr, Array.size_setIfInBounds]
      simp [instanceOf, hc.provided, hc.dataRoom]
    rw [Heap.loadChecked, if_pos hattr, Heap.load, hdata]
    simp [instanceOf, hc.dataRoom, data]

theorem literal_of_newList (hlist : ∀ c ∈ m.builtins.list, m.Houses c) (hrun : m.newList items s = .ok r t) :
    ∃ c ∈ m.builtins.list, ∃ g, m.Literal t.heap c items r g ∧ Fresh s t r g := by
  unfold newList at hrun
  cases hc : m.builtins.list with
  | some c =>
    simp only [hc] at hrun
    exact ⟨c, rfl, literal_of_newLiteral (hlist c hc) hrun⟩
  | none =>
    simp only [hc] at hrun
    cases hrun

theorem literal_of_newTuple (htuple : ∀ c ∈ m.builtins.tuple, m.Houses c) (hrun : m.newTuple items s = .ok r t) :
    ∃ c ∈ m.builtins.tuple, ∃ g, m.Literal t.heap c items r g ∧ Fresh s t r g := by
  unfold newTuple at hrun
  cases hc : m.builtins.tuple with
  | some c =>
    simp only [hc] at hrun
    exact ⟨c, rfl, literal_of_newLiteral (htuple c hc) hrun⟩
  | none =>
    simp only [hc] at hrun
    cases hrun

/-- It is what the fragment holds that goes into the tuple, whatever the fragment has room for. -/
theorem newTuple_of_listToTuple (hobject : list.object? = some l)
    (hdata : s.heap.loadChecked l m.layout.dataSlot = .ok (.seq f)) (hrun : m.listToTuple list s = .ok r t) :
    m.newTuple (s.heap.fragment f).items s = .ok r t := by
  rcases m.listToTuple_cases list s with ⟨items, hitems, heq⟩ | ⟨e, heq⟩
  · have hheld : m.itemsOf? s.heap list = some (s.heap.fragment f).items := by
      simp [itemsOf?, hobject, hdata]
    rw [heq] at hrun
    rwa [Option.some.inj (hitems.symm.trans hheld)] at hrun
  · rw [heq] at hrun
    cases hrun

theorem hasObject_of_loadChecked {slot : AttrSlot} {a : Attr} (hload : h.loadChecked l slot = .ok a) :
    h.HasObject l := by
  by_contra hnone
  have hblank : h.object l = .blank := by
    simp [Heap.object, Array.getD_eq_getD_getElem?, Nat.not_lt.1 hnone]
  have hattr : (h.object l).hasAttr slot = false := by simp [hblank, Object.hasAttr, Object.blank]
  simp [Heap.loadChecked, hattr] at hload

/-! ### Later runs -/

theorem Literal.touches {p : Footprint} (hliteral : m.Literal h c items r g) (htouches : h.Touches p h')
    (hobject : p.object ≠ some r) (hfragment : h'.fragment g = h.fragment g) : m.Literal h' c items r g := by
  have hsame : h'.object r = h.object r := htouches.object hliteral.object hobject
  refine ⟨hliteral.object.grows htouches.toGrows, hliteral.fragment.grows htouches.toGrows, ?_, ?_, ?_, ?_⟩
  · rw [hsame]
    exact hliteral.shape
  · rw [Heap.load, hsame]
    exact hliteral.classRef
  · rw [Heap.loadChecked, Heap.load, hsame]
    exact hliteral.data
  · rw [hfragment]
    exact hliteral.items

/-- Nothing is added to a fragment without room. -/
theorem push?_of_full {y : Fragment} (hfull : y.capacity ≤ y.size) (a : Attr) : y.push? a = none :=
  if_neg (Nat.not_lt.2 hfull)

section Runs

variable {ω α : Type} {host : Host ω} {natives : Natives} {o : Operation ω α}

/-- The only operation that adds to a fragment that is there finds this one full. -/
theorem Literal.fragment_of_leaf (hliteral : m.Literal s.heap c items r g) (hcall : o.callee m s = none) :
    (stateOf (o.run m host natives s)).heap.fragment g = s.heap.fragment g := by
  have htouches : s.heap.Touches (o.footprint m s) (stateOf (o.run m host natives s)).heap :=
    Operation.touches_of_leaf hcall
  by_cases hfragment : (o.footprint m s).fragment = some g
  · cases o
    case push f a =>
      cases hfragment
      have hfull : (s.heap.fragment g).push? a = none := by
        rw [hliteral.items]
        exact push?_of_full (Nat.le_refl _) a
      rw [Operation.run, push, getHeap_bind, hfull]
      rfl
    all_goals cases hfragment
  · exact htouches.fragment hliteral.fragment hfragment

/-- A literal stays as it is along every run in which nothing writes to it. -/
theorem composes_literal (m : Machine) (host : Host ω) (c : ClassLayout) (items : Array Attr) (r : ObjectRef)
    (g : FragmentRef) : Composes m host fun s tr t =>
      (∀ e ∈ tr, (e.operation.footprint m e.state).object ≠ some r) → m.Literal s.heap c items r g →
        m.Literal t.heap c items r g where
  nil _ _ h := h
  append h h' hwrites hliteral :=
    h' (fun e he => hwrites e (List.mem_append_right _ he))
      (h (fun e he => hwrites e (List.mem_append_left _ he)) hliteral)
  leaf o natives hcall hwrites hliteral :=
    hliteral.touches (Operation.touches_of_leaf hcall) (hwrites _ (List.mem_singleton.2 rfl))
      (hliteral.fragment_of_leaf hcall)
  call o hcall h hwrites hliteral := by
    obtain ⟨hobject, hfragment⟩ := Operation.footprint_of_callee hcall
    have htouches := Operation.touches_of_callee hcall
    refine h (fun e he => hwrites e (List.mem_cons_of_mem _ he)) (hliteral.touches htouches ?_ ?_)
    · simp [hobject]
    · exact htouches.fragment hliteral.fragment (by simp [hfragment])
  enter _ h hwrites hliteral := h hwrites hliteral

end Runs

end Machine

namespace Routines

variable {ω : Type} {m : Machine}

open Machine

/-- Where the classes of lists and tuples have room for it, a list or a tuple is new and holds just the values it
is made of, in a fragment of its own with no room for more, and its class is the registered one. A tuple of a
list holds what the list holds at that time; the list and its fragment stay as they are, and the fragment of the
tuple is another one. Whatever programs do next, pushing to the fragment of the list, writing to the list or
anything else, the tuple holds the same unless it is itself written to. -/
theorem literals_hold (hlist : ∀ c ∈ m.builtins.list, m.Houses c) (htuple : ∀ c ∈ m.builtins.tuple, m.Houses c) :
    (∀ (items : Array Attr) (s t : State) (r : ObjectRef), m.newList items s = .ok r t →
      ∃ c ∈ m.builtins.list, ∃ g, m.Literal t.heap c items r g ∧ Fresh s t r g) ∧
    (∀ (items : Array Attr) (s t : State) (r : ObjectRef), m.newTuple items s = .ok r t →
      ∃ c ∈ m.builtins.tuple, ∃ g, m.Literal t.heap c items r g ∧ Fresh s t r g) ∧
    (∀ (list : Attr) (l : ObjectRef) (f : FragmentRef) (s t : State) (r : ObjectRef), list.object? = some l →
      s.heap.loadChecked l m.layout.dataSlot = .ok (.seq f) → s.heap.HasFragment f →
      m.listToTuple list s = .ok r t →
      t.heap.object l = s.heap.object l ∧ t.heap.fragment f = s.heap.fragment f ∧
      ∃ c ∈ m.builtins.tuple, ∃ g, m.Literal t.heap c (s.heap.fragment f).items r g ∧ Fresh s t r g ∧
        r ≠ l ∧ g ≠ f ∧
        ∀ (host : Host ω) (rs : Routines ω) (fuel : Nat) (β : Type) (programs : List (Routine ω β)),
          (∀ e ∈ rs.events m host fuel programs t, (e.operation.footprint m e.state).object ≠ some r) →
          m.Literal (rs.final m host fuel programs t).heap c (s.heap.fragment f).items r g) := by
  refine ⟨fun items s t r => literal_of_newList hlist, fun items s t r => literal_of_newTuple htuple,
    fun list l f s t r hobject hdata hfragment hrun => ?_⟩
  have hmake := newTuple_of_listToTuple hobject hdata hrun
  have hthere := hasObject_of_loadChecked hdata
  obtain ⟨c, hc, g, hliteral, hfresh⟩ := literal_of_newTuple htuple hmake
  refine ⟨hfresh.object hthere, hfresh.fragment hfragment, c, hc, g, hliteral, hfresh, ?_, ?_,
    fun host rs fuel β programs hwrites => ?_⟩
  · rintro rfl
    exact hfresh.newObject hthere
  · rintro rfl
    exact hfresh.newFragment hfragment
  · exact rs.along_events fuel (composes_literal m host c _ r g) programs t hwrites hliteral

end Routines

namespace Sample

/-- Adds an item to the fragment of the list, and then takes the fragment away from it. -/
def altering : Routine Unit Unit :=
  .step (.push ⟨0⟩ (.int 3)) fun _ =>
    .step (.store ⟨1⟩ 3 .null) fun _ => .done ()

theorem houses_sequenceClass : sequences.Houses sequenceClass :=
  ⟨by decide, by decide, by decide, by decide⟩

/-- A tuple of the list has been made. -/
def copied : State where
  heap := ⟨#[function, list, { list with slots := list.slots.set! 3 (.seq ⟨1⟩) }],
    #[⟨3, #[.int 1, .int 2]⟩, ⟨2, #[.int 1, .int 2]⟩]⟩
  allocator := ⟨none, ⟨1, 0, 1, 6⟩⟩
  calls := #[]

end Sample

/-- A list has room for an item more, and its tuple has not. The list gets its third item and loses its data; the
tuple keeps its two items. Other literals have the values that they are made of. -/
theorem Routines.literals_hold_sample :
    (∃ t g, Sample.sequences.newList #[.null] (Sample.listed none) = .ok ⟨2⟩ t ∧
      Sample.sequences.Literal t.heap Sample.sequenceClass #[.null] ⟨2⟩ g) ∧
    (∃ t g, Sample.sequences.newTuple #[] (Sample.listed none) = .ok ⟨2⟩ t ∧
      Sample.sequences.Literal t.heap Sample.sequenceClass #[] ⟨2⟩ g) ∧
    Sample.sequences.listToTuple (.ofObject ⟨1⟩) (Sample.listed none) = .ok ⟨2⟩ Sample.copied ∧
    let final := Sample.routines.final Sample.sequences Sample.host 1 [Sample.altering] Sample.copied
    final.heap.fragment ⟨0⟩ = ⟨3, #[.int 1, .int 2, .int 3]⟩ ∧
    (final.heap.object ⟨1⟩).loadOrNull Sample.layout.dataSlot = .null ∧
    ∃ g, Sample.sequences.Literal final.heap Sample.sequenceClass #[.int 1, .int 2] ⟨2⟩ g := by
  have hhoused : ∀ c ∈ some Sample.sequenceClass, Sample.sequences.Houses c := by
    rintro c ⟨⟩
    exact Sample.houses_sequenceClass
  obtain ⟨hlist, htuple, hcopy⟩ := literals_hold (ω := Unit) (m := Sample.sequences) hhoused hhoused
  obtain ⟨c, ⟨⟩, g, hmade, -⟩ := hlist #[.null] (Sample.listed none) _ ⟨2⟩ rfl
  obtain ⟨c, ⟨⟩, g', hmade', -⟩ := htuple #[] (Sample.listed none) _ ⟨2⟩ rfl
  obtain ⟨-, -, c, ⟨⟩, k, -, -, -, -, hlater⟩ :=
    hcopy (.ofObject ⟨1⟩) ⟨1⟩ ⟨0⟩ (Sample.listed none) Sample.copied ⟨2⟩ rfl rfl Nat.zero_lt_one rfl
  have hwrites : (Sample.routines.events Sample.sequences Sample.host 1 [Sample.altering] Sample.copied).map
      (fun e => (e.operation.footprint Sample.sequences e.state).object) = [none, some ⟨1⟩] := rfl
  refine ⟨⟨_, g, rfl, hmade⟩, ⟨_, g', rfl, hmade'⟩, rfl, rfl, rfl, k, ?_⟩
  refine hlater Sample.host Sample.routines 1 Unit [Sample.altering] fun e he => ?_
  have hmem := List.mem_map_of_mem (f := fun e => (e.operation.footprint Sample.sequences e.state).object) he
  rw [hwrites] at hmem
  intro heq
  rw [heq] at hmem
  exact absurd hmem (by decide)

end ObjectRuntime
