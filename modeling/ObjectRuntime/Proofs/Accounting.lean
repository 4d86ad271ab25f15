import ObjectRuntime.Proofs.Grants

/-! Accounting over whole runs. The allocator's counts are at every time those of the objects and fragments
that have been made since it was fresh, whether or not anything still refers to them. Objects that are
predefined are in the heap as well, but they do not count. -/

namespace ObjectRuntime

/-- The counts that these objects and fragments come to. Slots are counted up to the largest word. -/
def Usage.tally (objects : List Object) (fragments : List Fragment) : Usage where
  objects := objects.length
  immutableObjects := objects.countP (·.policy = .immutable)
  fragments := fragments.length
  slots := min ((objects.map (·.slots.size)).sum + (fragments.map (·.capacity)).sum) Checked.maxWord

/-- What a list holds beyond its first `n` entries, but for the predefined places. -/
def madeIn {β : Type} (n : Nat) (predefined : List ObjectRef) (l : List β) : List β :=
  ((l.zipIdx.drop n).filter fun x => ⟨x.2⟩ ∉ predefined).map Prod.fst

namespace Heap

/-- The objects that have been made since the heap was `start`, all but the predefined ones. -/
def made (h start : Heap) (predefined : List ObjectRef) : List Object :=
  madeIn start.objects.size predefined h.objects.toList

/-- The fragments that have been made since the heap was `start`. -/
def madeFragments (h start : Heap) : List Fragment := h.fragments.toList.drop start.fragments.size

end Heap

/-! ### Counting storage -/

section Counting

variable {β γ : Type} {n : Nat} {predefined : List ObjectRef} {l l' : List β}

theorem map_madeIn (f : β → γ) : (madeIn n predefined l).map f = madeIn n predefined (l.map f) := by
  simp [madeIn, List.zipIdx_map, ← List.map_drop, List.filter_map, Function.comp_def]

/-- What is added is not at any of the places that there were before. -/
theorem madeIn_append (hn : n ≤ l.length) (hpredefined : ∀ r ∈ predefined, r.index < l.length) :
    madeIn n predefined (l ++ l') = madeIn n predefined l ++ l' := by
  have hnew : (l'.zipIdx l.length).filter (fun x => ⟨x.2⟩ ∉ predefined) = l'.zipIdx l.length := by
    refine List.filter_eq_self.2 fun x hx => decide_eq_true fun hmem => ?_
    exact Nat.not_lt.2 (List.le_snd_of_mem_zipIdx hx) (hpredefined _ hmem)
  rw [madeIn, List.zipIdx_append, List.drop_append_of_le_length (by simpa using hn), List.filter_append,
    List.map_append, Nat.zero_add, hnew, List.zipIdx_map_fst]
  rfl

/-- What is added is left out if its place is predefined, and everything before it is as it was. -/
theorem madeIn_predefined (hn : n ≤ l.length) (b : β) :
    madeIn n (predefined ++ [⟨l.length⟩]) (l ++ [b]) = madeIn n predefined l := by
  have hold : ((l.zipIdx.drop n).filter fun x => ⟨x.2⟩ ∉ predefined ++ [⟨l.length⟩]) =
      (l.zipIdx.drop n).filter fun x => ⟨x.2⟩ ∉ predefined := by
    refine List.filter_congr fun x hx => ?_
    have hlt : x.2 < l.length := by simpa using List.snd_lt_of_mem_zipIdx (List.mem_of_mem_drop hx)
    simp [Nat.ne_of_lt hlt]
  rw [madeIn, List.zipIdx_append, List.drop_append_of_le_length (by simpa using hn), List.filter_append, hold]
  simp [madeIn]

end Counting

namespace Usage

variable {objects fragments granted : List Storage}

/-- The counts that these pieces of storage come to. -/
def ofStorage (objects fragments : List Storage) : Usage where
  objects := objects.length
  immutableObjects := objects.countP (·.kind = .object .immutable)
  fragments := fragments.length
  slots := min ((objects.map (·.slots)).sum + (fragments.map (·.slots)).sum) Checked.maxWord

theorem tally_eq (objects : List Object) (fragments : List Fragment) :
    tally objects fragments = ofStorage (objects.map Object.storage) (fragments.map Fragment.storage) := by
  simp [tally, ofStorage, Object.storage, Fragment.storage, List.countP_map, Function.comp_def]

/-- One more piece is counted with those of its kind. Once the slots have come to the largest word they
stay there. -/
theorem charge_ofStorage (q : Storage) : (ofStorage objects fragments).charge q =
    ofStorage (objects ++ [q].filter Storage.isObject) (fragments ++ [q].filter fun q => !q.isObject) := by
  obtain ⟨kind, n⟩ := q
  have hslots (x y : Nat) : Checked.addSaturating (min (x + y) Checked.maxWord) n =
      min (x + y + n) Checked.maxWord := by
    unfold Checked.addSaturating
    omega
  cases kind with
  | object policy =>
    cases policy <;> simp [ofStorage, charge, grant, hslots, List.filter_cons, Nat.add_right_comm]
  | fragment => simp [ofStorage, charge, grant, hslots, Nat.add_assoc]

theorem charges_ofStorage : (ofStorage objects fragments).charges granted =
    ofStorage (objects ++ granted.filter Storage.isObject)
      (fragments ++ granted.filter fun q => !q.isObject) := by
  induction granted generalizing objects fragments with
  | nil => simp [charges]
  | cons q granted ih =>
    change ((ofStorage objects fragments).charge q).charges granted = _
    rw [charge_ofStorage, ih, List.append_assoc, List.append_assoc, ← List.filter_append, ← List.filter_append,
      List.singleton_append]

end Usage

namespace Heap

variable {h start : Heap} {predefined : List ObjectRef}

@[simp] theorem length_objectStorage : h.objectStorage.length = h.objects.size := by simp [objectStorage]

@[simp] theorem length_fragmentStorage : h.fragmentStorage.length = h.fragments.size := by
  simp [fragmentStorage]

theorem tally_made : Usage.tally (h.made start predefined) (h.madeFragments start) =
    .ofStorage (madeIn start.objects.size predefined h.objectStorage)
      (h.fragmentStorage.drop start.fragments.size) := by
  rw [Usage.tally_eq, made, madeFragments, map_madeIn, List.map_drop]
  rfl

end Heap

/-! ### Balance -/

/-- The counts are right, given what has been predefined since `start`. -/
structure Balanced (start : Heap) (predefined : List ObjectRef) (s : State) : Prop where
  usage : s.allocator.usage = .tally (s.heap.made start predefined) (s.heap.madeFragments start)
  objects : start.objects.size ≤ s.heap.objects.size
  fragments : start.fragments.size ≤ s.heap.fragments.size
  present : ∀ r ∈ predefined, s.heap.HasObject r

namespace Balanced

variable {start : Heap} {predefined : List ObjectRef} {s s' : State} {granted : List Storage}

theorem fresh (h : s.allocator.usage = .none) : Balanced s.heap [] s where
  usage := by
    have hobjects : s.heap.made s.heap [] = [] := by simp [Heap.made, madeIn]
    have hfragments : s.heap.madeFragments s.heap = [] := by simp [Heap.madeFragments]
    rw [h, hobjects, hfragments]
    rfl
  objects := Nat.le_refl _
  fragments := Nat.le_refl _
  present := nofun

/-- What has been granted is counted as it is added to the heap. -/
theorem supplies (h : Balanced start predefined s) (hs : Supplies granted s s') :
    Balanced start predefined s' := by
  have hobjects : s.heap.objects.size ≤ s'.heap.objects.size := by
    rw [← Heap.length_objectStorage, ← Heap.length_objectStorage, hs.objects, List.length_append]
    exact Nat.le_add_right _ _
  have hfragments : s.heap.fragments.size ≤ s'.heap.fragments.size := by
    rw [← Heap.length_fragmentStorage, ← Heap.length_fragmentStorage, hs.fragments, List.length_append]
    exact Nat.le_add_right _ _
  have hstart : start.objects.size ≤ s.heap.objectStorage.length := by simpa using h.objects
  have hpresent : ∀ r ∈ predefined, r.index < s.heap.objectStorage.length := by
    simpa [Heap.HasObject] using h.present
  have hroom : start.fragments.size ≤ s.heap.fragmentStorage.length := by simpa using h.fragments
  refine ⟨?_, h.objects.trans hobjects, h.fragments.trans hfragments,
    fun r hr => Nat.lt_of_lt_of_le (h.present r hr) hobjects⟩
  rw [hs.usage, h.usage, Heap.tally_made, Heap.tally_made, Usage.charges_ofStorage, hs.objects, hs.fragments,
    madeIn_append hstart hpresent, List.drop_append_of_le_length hroom]

/-- A predefined object is not counted. -/
theorem predefine (h : Balanced start predefined s) (table : Table) (pos : UInt32) (slots : Array Attr) :
    Balanced start (predefined ++ [⟨s.heap.objects.size⟩])
      (stateOf (ObjectRuntime.predefine table pos slots s)) := by
  let x : Object := ⟨table, pos, .immutable, slots⟩
  change Balanced start _ { s with heap := (s.heap.addObject x).2 }
  have hadded : (s.heap.addObject x).2.objects.size = s.heap.objects.size + 1 := by simp [Heap.addObject]
  have hmade : (s.heap.addObject x).2.made start (predefined ++ [⟨s.heap.objects.size⟩]) =
      s.heap.made start predefined := by
    have hplace : madeIn start.objects.size (predefined ++ [⟨s.heap.objects.toList.length⟩])
        (s.heap.objects.toList ++ [x]) = madeIn start.objects.size predefined s.heap.objects.toList :=
      madeIn_predefined (by simpa using h.objects) x
    simpa [Heap.made, Heap.addObject] using hplace
  refine ⟨?_, ?_, h.fragments, fun r hr => ?_⟩
  · rw [hmade]
    exact h.usage
  · rw [hadded]
    exact h.objects.trans (Nat.le_succ _)
  · rw [Heap.HasObject, hadded]
    rcases List.mem_append.1 hr with hr | hr
    · exact Nat.lt_succ_of_lt (h.present r hr)
    · rw [List.mem_singleton.1 hr]
      exact Nat.lt_succ_self _

end Balanced

/-! ### Runs -/

section Runs

variable {ω α : Type} {m : Machine} {host : Host ω} {natives : Natives} {start : Heap} {o : Operation ω α}
  {predefined : List ObjectRef} {s t u : State} {e : Event ω} {tr tr' after : List (Event ω)}

/-- The counts are right at each event and at the end, with more and more that has been predefined. -/
def Tallied (start : Heap) (predefined : List ObjectRef) : List (Event ω) → State → Prop
  | [], t => Balanced start predefined t
  | e :: tr, t => Balanced start predefined e.state ∧ Tallied start (predefined ++ e.predefined.toList) tr t

namespace Tallied

theorem append (h : Tallied start predefined tr t)
    (h' : ∀ predefined, Balanced start predefined t → Tallied start predefined tr' u) :
    Tallied start predefined (tr ++ tr') u := by
  induction tr generalizing predefined with
  | nil => exact h' predefined h
  | cons e tr ih => exact ⟨h.1, ih h.2⟩

theorem balanced (h : Tallied start predefined tr t) :
    Balanced start (predefined ++ tr.filterMap Event.predefined) t := by
  induction tr generalizing predefined with
  | nil => simpa [Tallied] using h
  | cons e tr ih =>
    have hrest := ih h.2
    cases he : e.predefined <;> simpa [he] using hrest

theorem balanced_before (before : List (Event ω)) (h : Tallied start predefined (before ++ e :: after) t) :
    Balanced start (predefined ++ before.filterMap Event.predefined) e.state := by
  induction before generalizing predefined with
  | nil => simpa using h.1
  | cons e' before ih =>
    have hrest := ih h.2
    cases he : e'.predefined <;> simpa [he] using hrest

end Tallied

theorem balanced_of_leaf (hcall : o.callee m s = none) (h : Balanced start predefined s) :
    Balanced start (predefined ++ (o.predefined s).toList) (stateOf (o.run m host natives s)) := by
  cases hpredefined : o.predefined s with
  | none =>
    obtain ⟨granted, -, hsupplies, -⟩ := Operation.grants_of_leaf hcall hpredefined
    rw [Option.toList_none, List.append_nil]
    exact h.supplies hsupplies
  | some r =>
    cases o
    case predefine table pos slots =>
      cases hpredefined
      exact h.predefine table pos slots
    all_goals cases hpredefined

/-- Wherever the counts are right they stay so. -/
theorem composes_tallied (m : Machine) (host : Host ω) (start : Heap) :
    Composes m host fun s tr t => ∀ predefined, Balanced start predefined s → Tallied start predefined tr t where
  nil _ _ h := h
  append h h' predefined hs := (h predefined hs).append h'
  leaf o natives hcall predefined hs := ⟨hs, balanced_of_leaf hcall hs⟩
  call o hcall h predefined hs := by
    have hnone := Operation.predefined_of_callee hcall
    refine ⟨hs, ?_⟩
    rw [Event.predefined, hnone, Option.toList_none, List.append_nil]
    exact h predefined (hs.supplies (Operation.supplies_of_callee hcall))
  enter c h predefined hs := h predefined ⟨hs.usage, hs.objects, hs.fragments, hs.present⟩

end Runs

/-! ### What becomes of the counts -/

/-- The counts are those of what has been made since the heap was `start` and these events began. -/
def State.Accounts {ω : Type} (start : Heap) (tr : List (Event ω)) (s : State) : Prop :=
  s.allocator.usage =
    .tally (s.heap.made start (tr.filterMap Event.predefined)) (s.heap.madeFragments start)

/-- Just the storage that the operation asks for is counted: all of it, in order, unless it ends early. Where
it calls a native that is so up to the call, and from there on the counts are left as the native leaves
them. -/
def Operation.Accounts {ω α : Type} (m : Machine) (host : Host ω) (natives : Natives) (o : Operation ω α)
    (s : State) : Prop :=
  match o.callee m s with
  | none => ∃ granted, granted <+: o.asks m s ∧
    (stateOf (o.run m host natives s)).allocator.usage = s.allocator.usage.charges granted ∧
    ∀ a t, o.run m host natives s = .ok a t → granted = o.asks m s
  | some (c, t) =>
    t.allocator.usage = s.allocator.usage.charges (o.asks m s) ∧
      stateOf (o.run m host natives s) = stateOf (natives.run c t)

theorem Operation.accounts {ω α : Type} {m : Machine} {host : Host ω} {natives : Natives} (o : Operation ω α)
    (s : State) : o.Accounts m host natives s := by
  unfold Accounts
  split
  · rename_i hcall
    cases hpredefined : o.predefined s with
    | none =>
      have hgrants : Grants (o.asks m s) s (o.run m host natives s) := grants_of_leaf hcall hpredefined
      obtain ⟨granted, hprefix, hsupplies, hall⟩ := hgrants
      exact ⟨granted, hprefix, hsupplies.usage, hall⟩
    | some r =>
      cases o
      case predefine table pos slots => exact ⟨[], List.nil_prefix, rfl, fun _ _ _ => rfl⟩
      all_goals cases hpredefined
  · rename_i c t hcall
    exact ⟨(supplies_of_callee hcall).usage, stateOf_of_callee hcall⟩

namespace Machine

variable {m : Machine} {s t : State} {r : ObjectRef}

theorem usage_of_listToTuple {list : Attr} (hrun : m.listToTuple list s = .ok r t) :
    ∃ c items, m.builtins.tuple = some c ∧ m.itemsOf? s.heap list = some items ∧
      t.allocator.usage = s.allocator.usage.charges [⟨.object .heap, c.size⟩, ⟨.fragment, items.size⟩] := by
  rcases m.listToTuple_cases list s with ⟨items, hitems, heq⟩ | ⟨e, heq⟩
  · rw [heq] at hrun
    have husage := (charges_newTuple items).usage_of_ok hrun
    cases htuple : m.builtins.tuple with
    | some c =>
      rw [htuple] at husage
      exact ⟨c, items, rfl, hitems, husage⟩
    | none =>
      simp only [newTuple, htuple] at hrun
      cases hrun
  · rw [heq] at hrun
    cases hrun

theorem usage_of_newWrapper {context target : Attr} (hrun : m.newWrapper context target s = .ok r t) :
    ∃ c, m.builtins.wrapper = some c ∧
      t.allocator.usage = s.allocator.usage.charge ⟨.object .heap, c.size⟩ := by
  have husage := (charges_newWrapper context target).usage_of_ok hrun
  cases hwrapper : m.builtins.wrapper with
  | some c =>
    rw [hwrapper] at husage
    exact ⟨c, rfl, husage⟩
  | none =>
    simp only [newWrapper, hwrapper] at hrun
    cases hrun

end Machine

namespace Routines

variable {ω : Type} (m : Machine) (host : Host ω) (rs : Routines ω) (fuel : Nat)

/-- The events of programs that are run one after the other, each begun where the one before it ended, well
or not. -/
def events {β : Type} : List (Routine ω β) → State → List (Event ω)
  | [], _ => []
  | r :: programs, s =>
    r.trace m host (rs.natives m host fuel) (rs.inside m host fuel) s ++
      events programs (stateOf (r.run m host (rs.natives m host fuel) s))

/-- The state that they leave. -/
def final {β : Type} : List (Routine ω β) → State → State
  | [], s => s
  | r :: programs, s => final programs (stateOf (r.run m host (rs.natives m host fuel) s))

variable {m host}

theorem along_events {R : State → List (Event ω) → State → Prop} (hR : Composes m host R) {β : Type}
    (programs : List (Routine ω β)) (s : State) :
    R s (rs.events m host fuel programs s) (rs.final m host fuel programs s) := by
  induction programs generalizing s with
  | nil => exact hR.nil s
  | cons r programs ih => exact hR.append (hR.program rs fuel r s) (ih _)

variable (m host)

/-- Whatever programs do from a state with a fresh allocator on, and whichever way they end, at each of their
operations and at the end the allocator has counted the objects and the fragments that have been made so far,
with the immutable objects among them, and their slots up to the largest word. What an operation asks for is
counted piece by piece, also where a later piece is refused, and a call counts for nothing beyond what its
native does. All that asks for nothing, such as a write, a raise or a predefined object, leaves the counts
alone. Where they end well, a sequence counts for a fragment with room for its items, a literal and a tuple
for an object and such a fragment, and a wrapper for an object. -/
theorem storage_accounted :
    (∀ {β : Type} (programs : List (Routine ω β)) (s : State), s.allocator.usage = .none →
      (∀ before e after, rs.events m host fuel programs s = before ++ e :: after →
        e.state.Accounts s.heap before) ∧
      (rs.final m host fuel programs s).Accounts s.heap (rs.events m host fuel programs s)) ∧
    (∀ {α : Type} (o : Operation ω α) (s : State), o.Accounts m host (rs.natives m host fuel) s) ∧
    (∀ (this : Attr) (items : Array Attr) (s t : State) (a : Attr), m.populateSequence this items s = .ok a t →
      t.allocator.usage = s.allocator.usage.charge ⟨.fragment, items.size⟩) ∧
    (∀ (c : ClassLayout) (items : Array Attr) (s t : State) (r : ObjectRef), m.newLiteral c items s = .ok r t →
      t.allocator.usage = s.allocator.usage.charges [⟨.object .heap, c.size⟩, ⟨.fragment, items.size⟩]) ∧
    (∀ (list : Attr) (s t : State) (r : ObjectRef), m.listToTuple list s = .ok r t →
      ∃ c items, m.builtins.tuple = some c ∧ m.itemsOf? s.heap list = some items ∧
        t.allocator.usage = s.allocator.usage.charges [⟨.object .heap, c.size⟩, ⟨.fragment, items.size⟩]) ∧
    (∀ (context target : Attr) (s t : State) (r : ObjectRef), m.newWrapper context target s = .ok r t →
      ∃ c, m.builtins.wrapper = some c ∧
        t.allocator.usage = s.allocator.usage.charge ⟨.object .heap, c.size⟩) := by
  refine ⟨fun programs s hfresh => ?_, fun o s => o.accounts s,
    fun this items s t a => (Machine.charges_populateSequence this items).usage_of_ok,
    fun c items s t r => (Machine.charges_newLiteral c items).usage_of_ok,
    fun list s t r => Machine.usage_of_listToTuple, fun context target s t r => Machine.usage_of_newWrapper⟩
  have htallied : Tallied s.heap [] (rs.events m host fuel programs s) (rs.final m host fuel programs s) :=
    rs.along_events fuel (composes_tallied m host s.heap) programs s [] (.fresh hfresh)
  refine ⟨fun before e after hevents => ?_, htallied.balanced.usage⟩
  rw [hevents] at htallied
  exact (htallied.balanced_before before).usage

end Routines

namespace Sample

def pairClass : ClassLayout := ⟨⟨#[7]⟩, ⟨0⟩, 4⟩

/-- Makes an object for which there is storage, and then one whose fragment is refused. -/
def building : Routine Unit Unit :=
  .step (.predefine ⟨#[7]⟩ 0 #[.null]) fun _ =>
    .step (.newObject ⟨#[7]⟩ ⟨0⟩ 2 .immutable) fun _ =>
      .step (.newLiteral pairClass #[.int 1, .int 2]) fun _ => .done ()

/-- Makes a fragment for which there is storage left. -/
def remaining : Routine Unit Unit := .step (.newFragment 1) fun _ => .done ()

def budgeted : State := { state with allocator := .ofBudget (some 7) }

end Sample

/-- The second object stays counted, though its literal is not there, and the predefined one never is. Where
nothing is refused the literal counts for both. -/
theorem Routines.storage_accounted_sample :
    let events := Sample.routines.events Sample.machine Sample.host 1 [Sample.building, Sample.remaining]
    let final := Sample.routines.final Sample.machine Sample.host 1 [Sample.building, Sample.remaining]
    Sample.budgeted.allocator.usage = .none ∧
    (events Sample.budgeted).map (fun e => e.state.allocator.usage) =
      [⟨0, 0, 0, 0⟩, ⟨0, 0, 0, 0⟩, ⟨1, 1, 0, 2⟩, ⟨2, 1, 0, 6⟩] ∧
    (final Sample.budgeted).allocator.usage = ⟨2, 1, 1, 7⟩ ∧
    (final Sample.budgeted).heap.objects.size = Sample.budgeted.heap.objects.size + 3 ∧
    (final Sample.budgeted).Accounts Sample.budgeted.heap (events Sample.budgeted) ∧
    ∃ t, Sample.machine.newLiteral Sample.pairClass #[.int 1, .int 2] Sample.state = .ok ⟨2⟩ t ∧
      t.allocator.usage = ⟨1, 0, 1, 6⟩ := by
  obtain ⟨hruns, -, -, hliteral, -⟩ := storage_accounted Sample.machine Sample.host Sample.routines 1
  obtain ⟨-, hfinal⟩ := hruns [Sample.building, Sample.remaining] Sample.budgeted rfl
  refine ⟨rfl, rfl, rfl, rfl, hfinal, _, rfl, ?_⟩
  exact hliteral Sample.pairClass #[.int 1, .int 2] Sample.state _ ⟨2⟩ rfl

end ObjectRuntime
