import ObjectRuntime.Proofs.Outcomes

/-! Making that fails. Where the storage for an object, a fragment or a literal is refused, or an attribute that
a wrapper needs is not there, whatever there was before is as it was. What may be left is an object that nothing
refers to; its storage has been granted, so it stays counted. -/

namespace ObjectRuntime

/-- Every object and every fragment that there was is as it was. -/
structure Undisturbed (s t : State) : Prop where
  object {r : ObjectRef} (hr : s.heap.HasObject r) : t.heap.object r = s.heap.object r
  fragment {g : FragmentRef} (hg : s.heap.HasFragment g) : t.heap.fragment g = s.heap.fragment g

/-- From the one state to the other just these objects have been added and counted, and nothing else has been
done. -/
structure Adds (made : List Object) (s t : State) : Prop where
  objects : t.heap.objects = s.heap.objects ++ made
  fragments : t.heap.fragments = s.heap.fragments
  usage : t.allocator.usage = s.allocator.usage.charges (made.map Object.storage)
  budget : t.allocator.budget = s.allocator.budget
  calls : t.calls = s.calls

/-- Where the action raises an error it has done nothing. -/
def Declines {α : Type} (x : Action α) : Prop := ∀ s r t, x s = .error (.raised r) t → t = s

/-- Where the action raises an error it has made no more than an object. -/
def Discards {α : Type} (x : Action α) : Prop :=
  ∀ s r t, x s = .error (.raised r) t → t = s ∨ ∃ y, t = s.withObject y

section Rules

variable {α β : Type} {x : Action α} {k : α → Action β} {s t : State}

theorem Declines.discards (h : Declines x) : Discards x := fun s r t hrun => .inl (h s r t hrun)

theorem declines_typeError (cause : TypeFault) : Declines (typeError cause : Action α) := by
  intro s r t hrun
  cases hrun
  rfl

theorem Declines.bind_pure (h : Declines x) (f : α → β) : Declines (x >>= fun a => pure (f a)) := by
  intro s r t hrun
  rcases ActionOn.bind_eq_error_iff.1 hrun with hrun | ⟨a, w, -, hrun⟩
  · exact h s r t hrun
  · cases hrun

theorem Undisturbed.refl (s : State) : Undisturbed s s := ⟨fun _ => rfl, fun _ => rfl⟩

/-- What is left by an action that discards what it has made. -/
theorem adds_of_withObject (h : t = s ∨ ∃ y, t = s.withObject y) : ∃ made, made.length ≤ 1 ∧ Adds made s t := by
  rcases h with rfl | ⟨y, rfl⟩
  · exact ⟨[], Nat.zero_le 1, by simp, rfl, rfl, rfl, rfl⟩
  · exact ⟨[y], Nat.le_refl 1, by simp [State.withObject, Heap.addObject], rfl, rfl, rfl, rfl⟩

end Rules

namespace Machine

variable {m : Machine} {s t : State} {r : ObjectRef} {items : Array Attr}

theorem declines_newObject (table : Table) (classRef : ObjectRef) (size : Nat) (policy : Policy) :
    Declines (m.newObject table classRef size policy) := by
  intro s r t hrun
  rcases m.newObject_cases table classRef size policy s with heq | ⟨-, heq⟩ | ⟨-, heq⟩ <;> rw [heq] at hrun <;>
    cases hrun
  rfl

theorem newObject_eq_withObject {table : Table} {classRef : ObjectRef} {size : Nat} {policy : Policy}
    (hrun : m.newObject table classRef size policy s = .ok r t) :
    r = ⟨s.heap.objects.size⟩ ∧ t = s.withObject (m.instanceOf table classRef size policy) := by
  rcases m.newObject_cases table classRef size policy s with heq | ⟨-, heq⟩ | ⟨-, heq⟩ <;> rw [heq] at hrun <;>
    cases hrun
  exact ⟨rfl, rfl⟩

theorem declines_newFragment (n : Nat) : Declines (m.newFragment n) := by
  intro s r t hrun
  rcases m.newFragment_cases n s with heq | heq <;> rw [heq] at hrun <;> cases hrun
  rfl

theorem declines_populate (r : ObjectRef) (items : Array Attr) : Declines (m.populate r items) := by
  intro s e t hrun
  rcases m.populate_cases r items s with heq | ⟨-, heq⟩ | ⟨-, heq⟩ <;> rw [heq] at hrun <;> cases hrun
  rfl

theorem declines_populateSequence (this : Attr) (items : Array Attr) : Declines (m.populateSequence this items) := by
  unfold populateSequence
  split
  · exact (declines_populate _ items).bind_pure fun _ => this
  · exact declines_typeError _

/-- Whatever ends it, what the items were meant for keeps the data that it had. -/
theorem undisturbed_populateSequence {this : Attr} {e : Halt} (hrun : m.populateSequence this items s = .error e t) :
    t.heap.objects = s.heap.objects ∧ Undisturbed s t := by
  unfold populateSequence at hrun
  cases hthis : this.object? with
  | some r =>
    simp only [hthis] at hrun
    rcases ActionOn.bind_eq_error_iff.1 hrun with hrun | ⟨a, w, -, hrun⟩
    · rcases m.populate_cases r items s with heq | ⟨-, heq⟩ | ⟨-, heq⟩ <;> rw [heq] at hrun <;> cases hrun
      · exact ⟨rfl, Undisturbed.refl s⟩
      · exact ⟨rfl, fun _ => rfl, State.fragment_withFragment⟩
    · cases hrun
  | none =>
    simp only [hthis] at hrun
    cases hrun
    exact ⟨rfl, Undisturbed.refl s⟩

/-- The object is granted first; it is of no use without its fragment. -/
theorem discards_newLiteral (c : ClassLayout) (items : Array Attr) : Discards (m.newLiteral c items) := by
  intro s e t hrun
  rcases ActionOn.bind_eq_error_iff.1 hrun with hrun | ⟨r, w, hmake, hrun⟩
  · exact .inl (declines_newObject _ _ _ _ s e t hrun)
  · obtain ⟨-, rfl⟩ := newObject_eq_withObject hmake
    refine .inr ⟨m.instanceOf c.table c.classRef c.size .heap, ?_⟩
    exact (declines_populate r items).bind_pure (fun _ => r) _ e t hrun

theorem discards_newList (items : Array Attr) : Discards (m.newList items) := by
  unfold newList
  split
  · exact discards_newLiteral _ items
  · exact (declines_typeError _).discards

theorem discards_newTuple (items : Array Attr) : Discards (m.newTuple items) := by
  unfold newTuple
  split
  · exact discards_newLiteral _ items
  · exact (declines_typeError _).discards

theorem discards_listToTuple (list : Attr) : Discards (m.listToTuple list) := by
  intro s r t hrun
  rcases m.listToTuple_cases list s with ⟨items, -, heq⟩ | ⟨e, heq⟩
  · rw [heq] at hrun
    exact discards_newTuple items s r t hrun
  · rw [heq] at hrun
    cases hrun
    exact .inl rfl

/-- A slot of a new object is written before anything refers to the object. -/
theorem storeChecked_withObject (y : Object) (slot : AttrSlot) (a : Attr) (s : State) :
    (∃ z, storeChecked ⟨s.heap.objects.size⟩ slot a (s.withObject y) = .ok () (s.withObject z)) ∨
      storeChecked ⟨s.heap.objects.size⟩ slot a (s.withObject y) =
        .error (.type .attributeMissing) (s.withObject y) := by
  rcases storeChecked_cases ⟨s.heap.objects.size⟩ slot a (s.withObject y) with hstore | hmissing
  · rw [State.withSlot_withObject] at hstore
    exact .inl ⟨_, hstore⟩
  · exact .inr hmissing

theorem discards_newWrapper (context target : Attr) : Discards (m.newWrapper context target) := by
  unfold newWrapper
  split
  · rename_i c _
    intro s e t hrun
    rcases ActionOn.bind_eq_error_iff.1 hrun with hrun | ⟨r, w, hmake, hrun⟩
    · exact .inl (declines_newObject _ _ _ _ s e t hrun)
    obtain ⟨rfl, rfl⟩ := newObject_eq_withObject hmake
    refine .inr ?_
    rcases storeChecked_withObject _ m.layout.contextSlot context s with ⟨y, hstore⟩ | hmissing
    · rw [bind_of_ok hstore] at hrun
      rcases storeChecked_withObject y m.layout.valueSlot target s with ⟨z, hstore'⟩ | hmissing
      · rw [bind_of_ok hstore'] at hrun
        cases hrun
      · rw [bind_of_error hmissing] at hrun
        cases hrun
        exact ⟨_, rfl⟩
    · rw [bind_of_error hmissing] at hrun
      cases hrun
      exact ⟨_, rfl⟩
  · exact (declines_typeError _).discards

end Machine

/-! ### Operations -/

namespace Operation

variable {ω α : Type} {m : Machine} {host : Host ω} {natives : Natives} {o : Operation ω α} {s t : State}
  {e : Halt}

/-- Makes objects or fragments for which the allocator is asked, and calls nothing. -/
def instantiates : {α : Type} → Operation ω α → Bool
  | _, newObject _ _ _ _ => true
  | _, newInstance _ _ => true
  | _, newFragment _ => true
  | _, populateSequence _ _ => true
  | _, newLiteral _ _ => true
  | _, newList _ => true
  | _, newTuple _ => true
  | _, listToTuple _ => true
  | _, newWrapper _ _ => true
  | _, _ => false

theorem discards_of_instantiates (ho : o.instantiates) : Discards (o.run m host natives) := by
  cases o
  case newObject table classRef size policy => exact (Machine.declines_newObject table classRef size policy).discards
  case newInstance c policy => exact (Machine.declines_newObject c.table c.classRef c.size policy).discards
  case newFragment n => exact (Machine.declines_newFragment n).discards
  case populateSequence this items => exact (Machine.declines_populateSequence this items).discards
  case newLiteral c items => exact Machine.discards_newLiteral c items
  case newList items => exact Machine.discards_newList items
  case newTuple items => exact Machine.discards_newTuple items
  case listToTuple list => exact Machine.discards_listToTuple list
  case newWrapper context target => exact Machine.discards_newWrapper context target
  all_goals cases ho

theorem undisturbed_of_touches {p : Footprint} (hobject : p.object = none) (hfragment : p.fragment = none)
    (h : s.heap.Touches p t.heap) : Undisturbed s t where
  object hr := h.object hr (by simp [hobject])
  fragment hg := h.fragment hg (by simp [hfragment])

theorem undisturbed_of_instantiates (ho : o.instantiates) (hrun : o.run m host natives s = .error e t) :
    Undisturbed s t := by
  have hkept (hcall : o.callee m s = none) : s.heap.Touches (o.footprint m s) t.heap := by
    have htouches : s.heap.Touches (o.footprint m s) (stateOf (o.run m host natives s)).heap := touches_of_leaf hcall
    rwa [hrun] at htouches
  cases o
  case populateSequence this items => exact (Machine.undisturbed_populateSequence hrun).2
  case newObject => exact undisturbed_of_touches rfl rfl (hkept rfl)
  case newInstance => exact undisturbed_of_touches rfl rfl (hkept rfl)
  case newFragment => exact undisturbed_of_touches rfl rfl (hkept rfl)
  case newLiteral => exact undisturbed_of_touches rfl rfl (hkept rfl)
  case newList => exact undisturbed_of_touches rfl rfl (hkept rfl)
  case newTuple => exact undisturbed_of_touches rfl rfl (hkept rfl)
  case listToTuple => exact undisturbed_of_touches rfl rfl (hkept rfl)
  case newWrapper => exact undisturbed_of_touches rfl rfl (hkept rfl)
  all_goals cases ho

end Operation

namespace Machine

variable {ω : Type} (m : Machine) (host : Host ω) (natives : Natives)

/-- Whichever way an instantiation ends without its result, every object and every fragment that there was is
as it was; a sequence that was to be populated keeps its data. Where it raises an error no fragment has been
made and at most one object, and just that is counted; a sequence that is not populated counts for nothing. A
mapping whose initialiser is not called leaves everything as it was, too, and where there is no initialiser
nothing is made at all. -/
theorem failed_instantiation_undisturbed :
    (∀ {α : Type} (o : Operation ω α) (s t : State) (e : Halt), o.instantiates →
      o.run m host natives s = .error e t →
      Undisturbed s t ∧ ∀ r, e = .raised r → ∃ made, made.length ≤ 1 ∧ Adds made s t) ∧
    (∀ (this : Attr) (items : Array Attr) (s t : State) (e : Halt), m.populateSequence this items s = .error e t →
      t.heap.objects = s.heap.objects ∧ ∀ r, e = .raised r → t = s) ∧
    (∀ (this : Attr) (items : Array Attr) (s : State),
      (Operation.populateMapping this items : Operation ω Attr).callee m s = none →
      ∃ e t, m.populateMapping natives this items s = .error e t ∧ Undisturbed s t ∧
        ∀ r, e = .raised r → ∃ made, made.length ≤ 1 ∧ Adds made s t) ∧
    (∀ (this : Attr) (items : Array Attr) (s : State), m.capabilities.has .mapping →
      m.builtins.mappingInit = none →
        m.populateMapping natives this items s = .error (.type .mappingUnregistered) s) := by
  refine ⟨fun o s t e ho hrun => ⟨Operation.undisturbed_of_instantiates ho hrun, ?_⟩,
    fun this items s t e hrun => ⟨(undisturbed_populateSequence hrun).1, ?_⟩, fun this items s hcall => ?_,
    fun this items s hmapping hinit => ?_⟩
  · rintro r rfl
    exact adds_of_withObject (Operation.discards_of_instantiates ho s r t hrun)
  · rintro r rfl
    exact declines_populateSequence this items s r t hrun
  · have htouches := m.touches_newList s items
    obtain ⟨e, t, hrun, hleft⟩ := Operation.populateMapping_of_leaf natives hcall
    rcases hleft with rfl | hlist
    · exact ⟨e, t, hrun, Undisturbed.refl t, fun _ _ => adds_of_withObject (.inl rfl)⟩
    rw [hlist] at htouches
    refine ⟨e, t, hrun, Operation.undisturbed_of_touches rfl rfl htouches, ?_⟩
    rintro r rfl
    exact adds_of_withObject (discards_newList items s r t hlist)
  · rw [populateMapping, if_pos hmapping, hinit]
    rfl

end Machine

namespace Sample

def sequenceClass : ClassLayout := ⟨⟨#[1, 0, 0, 4]⟩, ⟨0⟩, 4⟩

/-- A list that has room for an item more. -/
def list : Object := ⟨sequenceClass.table, 0, .heap, #[.ofObject ⟨0⟩, .null, .null, .seq ⟨0⟩]⟩

/-- The sample program with sequence classes of its own, and with mappings, of which none can be initialised. -/
def sequences : Machine :=
  { machine with
    capabilities := .ofList [.mapping]
    builtins := { machine.builtins with list := some sequenceClass, tuple := some sequenceClass } }

/-- The same with an initialiser for mappings. -/
def mappings : Machine :=
  { sequences with builtins := { sequences.builtins with mappingInit := some (.named "record") } }

def listed (budget : Option UInt64) : State where
  heap := ⟨#[function, list], #[⟨3, #[.int 1, .int 2]⟩]⟩
  allocator := .ofBudget budget
  calls := #[]

/-- Every native of the program makes a list of its arguments. -/
def listing : Natives := fun _ args => do
  let list ← sequences.newList args
  return .ofObject list

end Sample

/-- There is storage for the object of a literal and none for its fragment: the list that is there keeps its
data, and the new object alone is counted. Its data stay the same when it is to be populated, too, or when it
is made a mapping. -/
theorem Machine.failed_instantiation_undisturbed_sample :
    (Operation.newList #[.int 1, .int 2] : Operation Unit ObjectRef).instantiates ∧
    (∃ t, Sample.sequences.newList #[.int 1, .int 2] (Sample.listed (some 5)) = .error (.raised .memory) t ∧
      Undisturbed (Sample.listed (some 5)) t ∧ t.allocator.usage = ⟨1, 0, 0, 4⟩ ∧
      ∃ made, made.length ≤ 1 ∧ Adds made (Sample.listed (some 5)) t) ∧
    (∃ t, Sample.sequences.populateSequence (.ofObject ⟨1⟩) (Array.replicate 6 .null) (Sample.listed (some 5)) =
        .error (.raised .memory) t ∧
      (t.heap.object ⟨1⟩).loadOrNull Sample.layout.dataSlot = .seq ⟨0⟩ ∧ t = Sample.listed (some 5)) ∧
    (∃ e t, Sample.mappings.populateMapping Sample.listing (.ofObject ⟨1⟩) #[.int 1, .int 2]
      (Sample.listed (some 5)) = .error e t ∧ Undisturbed (Sample.listed (some 5)) t) ∧
    Sample.sequences.populateMapping Sample.listing (.ofObject ⟨1⟩) #[.int 1] (Sample.listed (some 5)) =
      .error (.type .mappingUnregistered) (Sample.listed (some 5)) := by
  let newList : Operation Unit ObjectRef := .newList #[.int 1, .int 2]
  obtain ⟨hmade, hpopulated, -, hmapping⟩ :=
    failed_instantiation_undisturbed Sample.sequences Sample.host Sample.listing
  obtain ⟨-, -, hunfinished, -⟩ := failed_instantiation_undisturbed Sample.mappings Sample.host Sample.listing
  obtain ⟨e, t, hrun, hunchanged, -⟩ :=
    hunfinished (.ofObject ⟨1⟩) #[.int 1, .int 2] (Sample.listed (some 5)) rfl
  obtain ⟨hkept, hadded⟩ := hmade newList (Sample.listed (some 5)) _ (.raised .memory) rfl rfl
  obtain ⟨hobjects, hsame⟩ :=
    hpopulated (.ofObject ⟨1⟩) (Array.replicate 6 .null) (Sample.listed (some 5)) _ (.raised .memory) rfl
  refine ⟨rfl, ⟨_, rfl, hkept, rfl, hadded .memory rfl⟩, ⟨_, rfl, ?_, hsame .memory rfl⟩,
    ⟨e, t, hrun, hunchanged⟩, hmapping (.ofObject ⟨1⟩) #[.int 1] (Sample.listed (some 5)) rfl rfl⟩
  rw [Heap.object, hobjects]
  rfl

end ObjectRuntime
