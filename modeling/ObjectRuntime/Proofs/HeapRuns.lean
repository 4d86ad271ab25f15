import ObjectRuntime.Proofs.Footprints
import ObjectRuntime.Proofs.Gating

/-! The shape of a heap over whole runs. An operation names at most one object and one fragment, and up to a
native that it calls it changes nothing else that was there before; what it adds is as it was asked for. So a
heap only ever grows, from each state of a history to every later one, whatever ends the programs of which
the history is made. -/

namespace ObjectRuntime

/-- Makes an instance of the class, if there is one, with a fragment of this capacity. -/
def Footprint.literal (c : Option ClassLayout) (room : Option Nat) : Footprint :=
  ⟨none, none, c.map (·.shape .heap), room⟩

namespace Operation

variable {ω α : Type}

/-- What an operation is asked to do to the heap. A tuple has room for the items that the list holds then;
of what is done with mappings, only the list of the items is made outside natives. -/
def footprint (m : Machine) (s : State) : Operation ω α → Footprint
  | store o _ _ => { Footprint.nothing with object := some o }
  | storeChecked o _ _ => { Footprint.nothing with object := some o }
  | setDefault target _ _ => { Footprint.nothing with object := some target }
  | push f _ => { Footprint.nothing with fragment := some f }
  | predefine table pos slots =>
    { Footprint.nothing with made := some ⟨table, pos, .immutable, slots.size⟩ }
  | newObject table _ size policy => { Footprint.nothing with made := some ⟨table, 0, policy, size⟩ }
  | newInstance c policy => { Footprint.nothing with made := some (c.shape policy) }
  | newFragment n => { Footprint.nothing with room := some n }
  | populateSequence this items => { Footprint.nothing with object := this.object?, room := some items.size }
  | newLiteral c items => .literal c items.size
  | newList items => .literal m.builtins.list items.size
  | newTuple items => .literal m.builtins.tuple items.size
  | listToTuple list => .literal m.builtins.tuple ((m.itemsOf? s.heap list).map Array.size)
  | newWrapper _ _ => .literal m.builtins.wrapper none
  | populateMapping _ items => .literal m.builtins.list items.size
  | _ => .nothing

/-- The object that the operation has made, if it is there to make one. -/
def made : {α : Type} → Operation ω α → α → Option ObjectRef
  | _, predefine _ _ _, r => some r
  | _, newObject _ _ _ _, r => some r
  | _, newInstance _ _, r => some r
  | _, newLiteral _ _, r => some r
  | _, newList _, r => some r
  | _, newTuple _, r => some r
  | _, listToTuple _, r => some r
  | _, newWrapper _ _, r => some r
  | _, _, _ => none

end Operation

/-! ### States in which runs end -/

section Ends

variable {ω α β : Type} {x : Action α} {s : State}

theorem stateOf_outside (w : ω) (y : ActionOn ω α) : stateOf (outside w y s) = s := by
  unfold outside
  cases y w <;> rfl

theorem stateOf_attempted : stateOf (attempted x s) = stateOf (x s) := by
  unfold attempted
  cases x s with
  | ok a t => rfl
  | error e t => cases e <;> rfl

theorem stateOf_map (k : α → β) : stateOf ((k <$> x) s) = stateOf (x s) := by
  change stateOf (EStateM.map k x s) = _
  unfold EStateM.map
  cases x s <;> rfl

end Ends

/-! ### Operations -/

namespace Machine

variable (m : Machine) (s : State)

theorem touches_newList (items : Array Attr) :
    s.heap.Touches (.literal m.builtins.list items.size) (stateOf (m.newList items s)).heap :=
  (keeps_newList rfl rfl).touches

theorem touches_newTuple (items : Array Attr) :
    s.heap.Touches (.literal m.builtins.tuple items.size) (stateOf (m.newTuple items s)).heap :=
  (keeps_newTuple rfl rfl).touches

theorem touches_listToTuple (list : Attr) :
    s.heap.Touches (.literal m.builtins.tuple ((m.itemsOf? s.heap list).map Array.size))
      (stateOf (m.listToTuple list s)).heap := by
  rcases m.listToTuple_cases list s with ⟨items, hitems, heq⟩ | ⟨e, heq⟩
  · rw [hitems, heq]
    exact m.touches_newTuple s items
  · rw [heq]
    exact Heap.Touches.refl s.heap

end Machine

namespace Operation

variable {ω α : Type} {m : Machine} {host : Host ω} {natives : Natives} {o : Operation ω α} {s t : State}
  {c : Call} {this callable : Attr} {items args : Array Attr} {proven : Bool} {keywords : List Keyword}

theorem stateOf_invoke (hcall : callOf m callable proven keywords args s = none) :
    stateOf (m.invoke natives callable proven keywords args s) = s := by
  unfold callOf at hcall
  rw [Machine.invoke_eq]
  cases hprepare : m.layout.prepare s.heap callable proven keywords args with
  | ok c => simp [hprepare] at hcall
  | error e => rfl

theorem stateOf_ensureInstance {a : Attr} (hcall : (ensureInstance a : Operation ω Attr).callee m s = none) :
    stateOf (m.ensureInstance natives a s) = s := by
  simp only [callee] at hcall
  rw [ensureInstance_apply]
  split at hcall
  · rename_i hinstance
    rw [if_pos hinstance]
    rfl
  · rename_i hinstance
    rw [if_neg hinstance]
    exact stateOf_invoke hcall

theorem stateOf_truth {a : Attr} (hcall : (truth a : Operation ω Bool).callee m s = none) :
    stateOf (m.truth natives a s) = s := by
  simp only [callee] at hcall
  split at hcall
  · rename_i hself
    unfold Machine.truth
    rcases Bool.or_eq_true_iff.1 hself with htrue | hfalse
    · rw [if_pos htrue]
      rfl
    · rw [if_pos hfalse]
      split <;> rfl
  · cases hcall

/-- Without a call of the initialiser there is no mapping, and at most the list of its items has been begun. -/
theorem populateMapping_of_leaf (natives : Natives)
    (hcall : (populateMapping this items : Operation ω Attr).callee m s = none) :
    ∃ e t, m.populateMapping natives this items s = .error e t ∧ (t = s ∨ m.newList items s = .error e t) := by
  unfold Machine.populateMapping
  simp only [callee] at hcall
  split
  · rename_i hmapping
    rw [if_pos hmapping] at hcall
    cases hinit : m.builtins.mappingInit with
    | none => exact ⟨_, s, rfl, Or.inl rfl⟩
    | some init =>
      simp only [hinit] at hcall
      change ∃ e t, EStateM.bind (m.newList items) _ s = .error e t ∧ _
      unfold EStateM.bind
      cases hlist : m.newList items s with
      | ok list t => simp [hlist] at hcall
      | error e t => exact ⟨e, t, rfl, Or.inr rfl⟩
  · exact ⟨_, s, rfl, Or.inl rfl⟩

theorem newList_of_callee
    (hcall : (populateMapping this items : Operation ω Attr).callee m s = some (c, t)) :
    ∃ list, m.newList items s = .ok list t := by
  simp only [callee] at hcall
  split at hcall
  · split at hcall
    · rename_i init list made hinit hlist
      cases hcall
      exact ⟨list, hlist⟩
    · cases hcall
  · cases hcall

/-- An operation that calls no native keeps to its footprint. -/
theorem touches_of_leaf (hcall : o.callee m s = none) :
    s.heap.Touches (o.footprint m s) (stateOf (o.run m host natives s)).heap := by
  cases o
  case inspect f => exact Heap.Touches.refl s.heap
  case panic => exact Heap.Touches.refl s.heap
  case raise r => exact Heap.Touches.refl s.heap
  case load o pos => exact keeps_load.touches
  case loadChecked o slot => exact keeps_loadChecked.touches
  case store o pos a => exact (keeps_store fun _ => rfl).touches
  case storeChecked o slot a => exact (keeps_storeChecked fun _ => rfl).touches
  case push f a => exact (keeps_push fun _ => rfl).touches
  case setDefault target index a => exact (Machine.keeps_setDefault (fun _ => rfl) index).touches
  case getDefault target index => exact (Machine.keeps_getDefault index).touches
  case predefine table pos slots => exact (keeps_predefine rfl).touches
  case newObject table classRef size policy => exact (Machine.keeps_newObject classRef rfl).touches
  case newInstance c policy => exact (Machine.keeps_newInstance rfl).touches
  case newFragment n => exact (Machine.keeps_newFragment rfl).touches
  case populateSequence this items => exact (Machine.keeps_populateSequence rfl rfl).touches
  case newLiteral c items => exact (Machine.keeps_newLiteral rfl rfl).touches
  case newList items => exact m.touches_newList s items
  case newTuple items => exact m.touches_newTuple s items
  case listToTuple list => exact m.touches_listToTuple s list
  case newWrapper context target => exact (Machine.keeps_newWrapper rfl context target).touches
  case populateMapping this items =>
    obtain ⟨e, t, hrun, rfl | hlist⟩ := populateMapping_of_leaf natives hcall
    · rw [run, hrun]
      exact Heap.Touches.refl t.heap
    · have htouches := m.touches_newList s items
      rw [hlist] at htouches
      rw [run, hrun]
      exact htouches
  case invoke callable proven keywords args =>
    rw [run, stateOf_invoke hcall]
    exact Heap.Touches.refl s.heap
  case ensureInstance a =>
    rw [run, stateOf_ensureInstance hcall]
    exact Heap.Touches.refl s.heap
  case truth a =>
    rw [run, stateOf_truth hcall]
    exact Heap.Touches.refl s.heap
  -- what is done on the host is done outside the state
  all_goals
    rw [run, stateOf_outside]
    exact Heap.Touches.refl s.heap

theorem eq_of_callOf (h : callOf m callable proven keywords args s = some (c, t)) : t = s := by
  unfold callOf at h
  split at h <;> cases h
  rfl

theorem eq_of_callee_ensureInstance {a : Attr}
    (hcall : (ensureInstance a : Operation ω Attr).callee m s = some (c, t)) : t = s := by
  simp only [callee] at hcall
  split at hcall
  · cases hcall
  · exact eq_of_callOf hcall

theorem eq_of_callee_truth {a : Attr} (hcall : (truth a : Operation ω Bool).callee m s = some (c, t)) :
    t = s := by
  simp only [callee] at hcall
  split at hcall
  · cases hcall
  · cases hcall
    rfl

/-- An operation keeps to its footprint up to the call of a native. -/
theorem touches_of_callee (hcall : o.callee m s = some (c, t)) :
    s.heap.Touches (o.footprint m s) t.heap := by
  cases o
  case populateMapping this items =>
    obtain ⟨list, hlist⟩ := newList_of_callee hcall
    have htouches := m.touches_newList s items
    rw [hlist] at htouches
    exact htouches
  case invoke callable proven keywords args =>
    rw [eq_of_callOf hcall]
    exact Heap.Touches.refl s.heap
  case ensureInstance a =>
    rw [eq_of_callee_ensureInstance hcall]
    exact Heap.Touches.refl s.heap
  case truth a =>
    rw [eq_of_callee_truth hcall]
    exact Heap.Touches.refl s.heap
  all_goals cases hcall

theorem stateOf_of_callee (hcall : o.callee m s = some (c, t)) :
    stateOf (o.run m host natives s) = stateOf (natives.run c t) := by
  obtain ⟨k, hrun⟩ := run_of_callee host hcall
  rw [hrun, stateOf_map]

/-- An operation that calls a native is not asked to change anything that is there. -/
theorem footprint_of_callee (hcall : o.callee m s = some (c, t)) :
    (o.footprint m s).object = none ∧ (o.footprint m s).fragment = none := by
  cases o
  case populateMapping this items => exact ⟨rfl, rfl⟩
  case invoke callable proven keywords args => exact ⟨rfl, rfl⟩
  case ensureInstance a => exact ⟨rfl, rfl⟩
  case truth a => exact ⟨rfl, rfl⟩
  all_goals cases hcall

/-- What an operation makes is new. -/
theorem makes_of_made {a : α} {r : ObjectRef} (hrun : o.run m host natives s = .ok a t)
    (hmade : o.made a = some r) : ¬ s.heap.HasObject r ∧ t.heap.HasObject r := by
  cases o
  case predefine table pos slots =>
    cases hmade
    exact makes_predefine table pos slots _ _ _ hrun
  case newObject table classRef size policy =>
    cases hmade
    exact Machine.makes_newObject table classRef size policy _ _ _ hrun
  case newInstance c policy =>
    cases hmade
    exact Machine.makes_newInstance c policy _ _ _ hrun
  case newLiteral c items =>
    cases hmade
    exact Machine.makes_newLiteral c _ _ _ hrun
  case newList items =>
    cases hmade
    exact Machine.makes_newList _ _ _ hrun
  case newTuple items =>
    cases hmade
    exact Machine.makes_newTuple _ _ _ hrun
  case listToTuple list =>
    cases hmade
    exact Machine.makes_listToTuple list _ _ _ hrun
  case newWrapper context target =>
    cases hmade
    exact Machine.makes_newWrapper context target _ _ _ hrun
  all_goals cases hmade

end Operation

/-! ### What composes along runs -/

/-- The relation holds of a run, from its first state through its events to its last, if it does of each
operation. An operation is an event of its own, and where it calls a native the native is run from the state
in which it is called. -/
structure Composes {ω : Type} (m : Machine) (host : Host ω) (R : State → List (Event ω) → State → Prop) :
    Prop where
  nil (s : State) : R s [] s
  append {s t u : State} {tr tr' : List (Event ω)} : R s tr t → R t tr' u → R s (tr ++ tr') u
  leaf {α : Type} {s : State} (o : Operation ω α) (natives : Natives) (hcall : o.callee m s = none) :
    R s [⟨o, s⟩] (stateOf (o.run m host natives s))
  call {α : Type} {s t u : State} {c : Call} {tr : List (Event ω)} (o : Operation ω α)
    (hcall : o.callee m s = some (c, t)) : R t tr u → R s (⟨o, s⟩ :: tr) u
  /-- The call of a native is recorded before anything else is done. -/
  enter {s t : State} {tr : List (Event ω)} (c : Call) : R { s with calls := s.calls.push c } tr t → R s tr t

namespace Composes

variable {ω α β : Type} {m : Machine} {host : Host ω} {natives : Natives}
  {inside : Call → State → List (Event ω)} {R : State → List (Event ω) → State → Prop}

/-- One run after another is a run. -/
theorem bind (hR : Composes m host R) {s : State} {tr : List (Event ω)} {x : Action α} {k : α → Action β}
    {rest : α → State → List (Event ω)} (h : R s tr (stateOf (x s)))
    (hrest : ∀ a t, R t (rest a t) (stateOf (k a t))) :
    R s (tr ++ followed (x s) rest) (stateOf ((x >>= k) s)) := by
  change R s _ (stateOf (EStateM.bind x k s))
  unfold EStateM.bind
  cases hx : x s with
  | ok a t =>
    rw [hx] at h
    exact hR.append h (hrest a t)
  | error e t =>
    rw [hx] at h
    rw [followed, List.append_nil]
    exact h

theorem operation (hR : Composes m host R)
    (hinside : ∀ c s, R s (inside c s) (stateOf (natives.run c s))) (o : Operation ω α) (s : State) :
    R s (o.trace m inside s) (stateOf (o.run m host natives s)) := by
  cases hcall : o.callee m s with
  | none =>
    have htrace : o.trace m inside s = [⟨o, s⟩] := by simp [Operation.trace, hcall]
    rw [htrace]
    exact hR.leaf o natives hcall
  | some call =>
    obtain ⟨c, t⟩ := call
    have htrace : o.trace m inside s = ⟨o, s⟩ :: inside c t := by simp [Operation.trace, hcall]
    rw [htrace, Operation.stateOf_of_callee hcall]
    exact hR.call o hcall (hinside c t)

theorem routine (hR : Composes m host R)
    (hinside : ∀ c s, R s (inside c s) (stateOf (natives.run c s))) (r : Routine ω β) (s : State) :
    R s (r.trace m host natives inside s) (stateOf (r.run m host natives s)) := by
  induction r generalizing s with
  | done b => exact hR.nil s
  | step o next ih => exact hR.bind (hR.operation hinside o s) ih
  | attempt o next ih =>
    have hfirst : R s (o.trace m inside s) (stateOf (attempted (o.run m host natives) s)) := by
      rw [stateOf_attempted]
      exact hR.operation hinside o s
    exact hR.bind hfirst ih

/-- It holds within natives, however deeply they nest. -/
theorem native (hR : Composes m host R) (rs : Routines ω) (fuel : Nat) (c : Call) (s : State) :
    R s (rs.inside m host fuel c s) (stateOf ((rs.natives m host fuel).run c s)) := by
  obtain ⟨native, args⟩ := c
  -- a native is a routine whose own calls have less fuel, so they are known to be runs
  induction fuel generalizing native args s with
  | zero =>
    cases native with
    | unboundMethod => exact hR.nil s
    | named name => exact hR.enter ⟨.named name, args⟩ (hR.nil _)
  | succ fuel ih =>
    cases native with
    | unboundMethod => exact hR.nil s
    | named name =>
      exact hR.enter ⟨.named name, args⟩ (hR.routine (fun c s => ih s c.native c.args) (rs name args) _)

/-- It holds of a program as it is run. -/
theorem program (hR : Composes m host R) (rs : Routines ω) (fuel : Nat) (r : Routine ω β) (s : State) :
    R s (r.trace m host (rs.natives m host fuel) (rs.inside m host fuel) s)
      (stateOf (r.run m host (rs.natives m host fuel) s)) :=
  hR.routine (hR.native rs fuel) r s

end Composes

/-! ### Histories -/

/-- Every heap of these states keeps what the earlier ones do. -/
def Growing (l : List State) : Prop := l.Pairwise fun s t => s.heap.Grows t.heap

namespace Growing

variable {s t : State} {l l' : List State}

theorem pair (h : s.heap.Grows t.heap) : Growing [s, t] := List.pairwise_pair.2 h

/-- What may come after a state may come after any that it has grown from. -/
theorem of_grows (hgrows : s.heap.Grows t.heap) (h : Growing (t :: l)) : Growing (s :: l) := by
  obtain ⟨hlater, hl⟩ := List.pairwise_cons.1 h
  exact List.pairwise_cons.2 ⟨fun u hu => hgrows.trans (hlater u hu), hl⟩

theorem cons_self (h : Growing (s :: l)) : Growing (s :: s :: l) := by
  refine List.pairwise_cons.2 ⟨fun u hu => ?_, h⟩
  rcases List.mem_cons.1 hu with rfl | hu
  · exact Heap.Grows.refl u.heap
  · exact (List.pairwise_cons.1 h).1 u hu

/-- One history goes on where another ends. -/
theorem append (h : Growing (l ++ [t])) (h' : Growing (t :: l')) : Growing (l ++ l') := by
  obtain ⟨hl, -, hlast⟩ := List.pairwise_append.1 h
  obtain ⟨hfirst, hl'⟩ := List.pairwise_cons.1 h'
  -- from one history into the other it is the state in which they meet that has grown in between
  refine List.pairwise_append.2 ⟨hl, hl', fun u hu v hv => ?_⟩
  exact (hlast u hu t (List.mem_singleton.2 rfl)).trans (hfirst v hv)

end Growing

section Runs

variable {ω α : Type} {s t u : State} {tr tr' : List (Event ω)}

/-- The heap grows from the first of these states through the events to the last. -/
def Along (s : State) (tr : List (Event ω)) (t : State) : Prop :=
  Growing (s :: (tr.map Event.state ++ [t]))

namespace Along

theorem nil (h : s.heap.Grows t.heap) : Along s ([] : List (Event ω)) t := Growing.pair h

theorem of_grows (hgrows : s.heap.Grows t.heap) (h : Along t tr u) : Along s tr u := Growing.of_grows hgrows h

theorem cons_self (o : Operation ω α) (h : Along s tr t) : Along s (⟨o, s⟩ :: tr) t := Growing.cons_self h

theorem append (h : Along s tr t) (h' : Along t tr' u) : Along s (tr ++ tr') u := by
  rw [Along, List.map_append, List.append_assoc]
  exact Growing.append (l := s :: tr.map Event.state) h h'

end Along

theorem composes_along (m : Machine) (host : Host ω) : Composes m host Along where
  nil s := Along.nil (Heap.Grows.refl s.heap)
  append := Along.append
  leaf o _ hcall := (Along.nil (Operation.touches_of_leaf hcall).toGrows).cons_self o
  call o hcall h := (h.of_grows (Operation.touches_of_callee hcall).toGrows).cons_self o
  enter {s t tr} c h := by
    have hcalled : s.heap.Grows { s with calls := s.calls.push c }.heap := Heap.Grows.refl s.heap
    exact h.of_grows hcalled

end Runs

/-! ### What becomes of a heap -/

/-- Nothing is done beyond the footprint of the operation. Where it calls a native that is so up to the call,
nothing that was there has been changed by then, and the operation ends as the native leaves things. -/
def Operation.Frames {ω α : Type} (m : Machine) (host : Host ω) (natives : Natives) (o : Operation ω α)
    (s : State) : Prop :=
  match o.callee m s with
  | none => s.heap.Touches (o.footprint m s) (stateOf (o.run m host natives s)).heap
  | some (c, t) =>
    s.heap.Touches (o.footprint m s) t.heap ∧
      (o.footprint m s).object = none ∧ (o.footprint m s).fragment = none ∧
      stateOf (o.run m host natives s) = stateOf (natives.run c t)

theorem Operation.frames {ω α : Type} {m : Machine} {host : Host ω} {natives : Natives} (o : Operation ω α)
    (s : State) : o.Frames m host natives s := by
  unfold Frames
  split
  · exact touches_of_leaf ‹_›
  · rename_i c t hcall
    obtain ⟨hobject, hfragment⟩ := footprint_of_callee hcall
    exact ⟨touches_of_callee hcall, hobject, hfragment, stateOf_of_callee hcall⟩

namespace Routines

variable {ω : Type} (m : Machine) (host : Host ω) (rs : Routines ω) (fuel : Nat)

/-- The states that programs go through one after the other, each begun where the one before it ended,
well or not. The last state is the one that they leave. -/
def history {β : Type} : List (Routine ω β) → State → List State
  | [], s => [s]
  | r :: programs, s =>
    (r.trace m host (rs.natives m host fuel) (rs.inside m host fuel) s).map Event.state ++
      history programs (stateOf (r.run m host (rs.natives m host fuel) s))

variable {m host rs fuel}

theorem growing_history {β : Type} (programs : List (Routine ω β)) (s : State) :
    Growing (s :: rs.history m host fuel programs s) := by
  induction programs generalizing s with
  | nil => exact Growing.pair (Heap.Grows.refl s.heap)
  | cons r programs ih =>
    have hfirst : Along s (r.trace m host (rs.natives m host fuel) (rs.inside m host fuel) s)
        (stateOf (r.run m host (rs.natives m host fuel) s)) :=
      (composes_along m host).program rs fuel r s
    exact Growing.append (l := s :: _) hfirst (ih _)

variable (m host rs fuel)

/-- Whatever programs do to a heap, and whichever way they end, from each state to every later one its
objects keep their shape, its fragments keep their capacity, and no fragment comes to hold more than it has
room for. An operation changes only what it names and what it adds itself, apart from what is done by a
native that it calls, and whichever way it ends what it adds has the shape or the capacity that was asked
for. Where a sequence is populated, its items always fit. -/
theorem heap_shape :
    (∀ {β : Type} (programs : List (Routine ω β)) (s : State),
      Growing (s :: rs.history m host fuel programs s) ∧
      (s.heap.InRoom → ∀ t ∈ rs.history m host fuel programs s, t.heap.InRoom)) ∧
    (∀ {α : Type} (o : Operation ω α) (s : State), o.Frames m host (rs.natives m host fuel) s) ∧
    (∀ {α : Type} (o : Operation ω α) (s t : State) (a : α) (r : ObjectRef),
      o.run m host (rs.natives m host fuel) s = .ok a t → o.made a = some r →
        ¬ s.heap.HasObject r ∧ t.heap.HasObject r) ∧
    (∀ (n : Nat) (s t : State) (g : FragmentRef), m.newFragment n s = .ok g t →
      ¬ s.heap.HasFragment g ∧ t.heap.HasFragment g ∧ t.heap.fragment g = ⟨n, #[]⟩) ∧
    (∀ (o : ObjectRef) (items : Array Attr),
      (∀ (s t : State) (g : FragmentRef), m.newFragment items.size s = .ok g t →
        items.size ≤ (t.heap.fragment g).capacity) ∧
      m.populate o items = (do
        let g ← m.newFragment items.size
        modifyHeap (·.setFragment g ⟨items.size, items⟩)
        store o m.layout.dataSlot.pos.toNat (.seq g))) := by
  refine ⟨fun programs s => ?_, fun o s => o.frames s, fun o s t a r => Operation.makes_of_made,
    fun n s t g => Machine.makes_newFragment,
    fun o items => ⟨fun s t g hrun => ?_, Machine.populate_eq o items⟩⟩
  · have hgrowing : Growing (s :: rs.history m host fuel programs s) := growing_history programs s
    exact ⟨hgrowing, fun hroom t ht => hroom.grows ((List.pairwise_cons.1 hgrowing).1 t ht)⟩
  · rw [(Machine.makes_newFragment hrun).2.2]

end Routines

namespace Sample

/-- Adds an item more to a fragment than there is room for, and ends in an error. -/
def pushing : Routine Unit Unit :=
  .step (.newFragment 1) fun f =>
    .step (.push f (.int 1)) fun _ =>
      .step (.push f (.int 2)) fun _ =>
        .step .panic .done

/-- Calls a native that is aborted. -/
def aborting : Routine Unit Unit := .step calling fun _ => .done ()

def pushed : List State := routines.history machine host 1 [pushing, aborting] state

theorem inRoom_state : state.heap.InRoom := by
  intro f
  simp [state, Heap.fragment, Fragment.ofStorage, Fragment.Fits, Fragment.size]

end Sample

/-- Two programs of which neither gets to its end: in all their states the fragment has room for what it
holds. A new instance has the slots that its class asks for, and a new fragment the room. -/
theorem Routines.heap_shape_sample :
    Growing (Sample.state :: Sample.pushed) ∧ (∀ t ∈ Sample.pushed, t.heap.InRoom) ∧
    (Sample.pushed.map fun t => t.heap.fragment ⟨0⟩) =
      [⟨0, #[]⟩, ⟨1, #[]⟩, ⟨1, #[.int 1]⟩, ⟨1, #[.int 1]⟩, ⟨1, #[.int 1]⟩, ⟨1, #[.int 1]⟩, ⟨1, #[.int 1]⟩] ∧
    (∃ t, Sample.machine.newObject ⟨#[7]⟩ ⟨0⟩ 5 .heap Sample.state = .ok ⟨2⟩ t ∧
      (t.heap.object ⟨2⟩).shape = ⟨⟨#[7]⟩, 0, .heap, 5⟩) ∧
    ∃ t, Sample.machine.newFragment 3 Sample.state = .ok ⟨0⟩ t ∧ t.heap.fragment ⟨0⟩ = ⟨3, #[]⟩ ∧
      3 ≤ (t.heap.fragment ⟨0⟩).capacity := by
  obtain ⟨hhistory, hframes, hmade, hfragment, hroom⟩ :=
    heap_shape Sample.machine Sample.host Sample.routines 1
  obtain ⟨hgrowing, hfits⟩ := hhistory [Sample.pushing, Sample.aborting] Sample.state
  let newObject : Operation Unit ObjectRef := .newObject ⟨#[7]⟩ ⟨0⟩ 5 .heap
  refine ⟨hgrowing, hfits Sample.inRoom_state, rfl, ⟨_, rfl, ?_⟩, ⟨_, rfl, ?_, ?_⟩⟩
  · obtain ⟨hnew, hthere⟩ := hmade newObject Sample.state _ ⟨2⟩ ⟨2⟩ rfl rfl
    have htouches : Sample.state.heap.Touches (newObject.footprint Sample.machine Sample.state) _ :=
      hframes newObject Sample.state
    exact (Option.some.inj (htouches.made hnew hthere)).symm
  · exact (hfragment 3 Sample.state _ ⟨0⟩ rfl).2.2
  · exact (hroom ⟨0⟩ #[.int 1, .int 2, .int 3]).1 Sample.state _ ⟨0⟩ rfl

end ObjectRuntime
