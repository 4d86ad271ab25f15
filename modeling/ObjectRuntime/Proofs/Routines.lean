import ObjectRuntime.Call
import ObjectRuntime.Host.Descriptor
import ObjectRuntime.Proofs.Slots

/-! Programs over the machine. A routine is a program that reaches the machine and its host through their
operations only: it carries one out, goes on with what comes back, and may handle a raise but nothing
else. The natives of a program are routines too, and may call one another through the machine; how deeply
is bounded by a measure of fuel. A trace lists every operation that a run carries out, also within
natives, together with the state in which it begins. -/

namespace ObjectRuntime

/-- The operations of the machine and its host by the type of their results. Those on the host carry the
world that they find. -/
inductive Operation (ω : Type) : Type → Type 1 where
  /-- Reads anything off the state. -/
  | inspect {α : Type} (f : State → α) : Operation ω α
  /-- Ends in an error of the program's own, such as an index out of range. -/
  | panic {α : Type} : Operation ω α
  | raise {α : Type} (r : Raise) : Operation ω α
  | load (o : ObjectRef) (pos : Nat) : Operation ω Attr
  | loadChecked (o : ObjectRef) (slot : AttrSlot) : Operation ω Attr
  | store (o : ObjectRef) (pos : Nat) (a : Attr) : Operation ω Unit
  | storeChecked (o : ObjectRef) (slot : AttrSlot) (a : Attr) : Operation ω Unit
  | push (f : FragmentRef) (a : Attr) : Operation ω (Option Attr)
  | setDefault (target : ObjectRef) (index : Nat) (a : Attr) : Operation ω Unit
  | getDefault (target : ObjectRef) (index : Nat) : Operation ω Attr
  | predefine (table : Table) (pos : UInt32) (slots : Array Attr) : Operation ω ObjectRef
  | newObject (table : Table) (classRef : ObjectRef) (size : Nat) (policy : Policy) :
    Operation ω ObjectRef
  | newInstance (c : ClassLayout) (policy : Policy) : Operation ω ObjectRef
  | newFragment (n : Nat) : Operation ω FragmentRef
  | populateSequence (this : Attr) (items : Array Attr) : Operation ω Attr
  | newLiteral (c : ClassLayout) (items : Array Attr) : Operation ω ObjectRef
  | newList (items : Array Attr) : Operation ω ObjectRef
  | newTuple (items : Array Attr) : Operation ω ObjectRef
  | listToTuple (list : Attr) : Operation ω ObjectRef
  | newWrapper (context target : Attr) : Operation ω ObjectRef
  | populateMapping (this : Attr) (items : Array Attr) : Operation ω Attr
  | invoke (callable : Attr) (proven : Bool) (keywords : List Keyword) (args : Array Attr) :
    Operation ω Attr
  | ensureInstance (a : Attr) : Operation ω Attr
  | truth (a : Attr) : Operation ω Bool
  | openFile (w : ω) (path : List UInt8) (mode : OpenMode) : Operation ω Int
  | close (w : ω) (fd : Int) : Operation ω Attr
  | read (w : ω) (fd : Int) (n : Nat) : Operation ω Attr
  | readStream (w : ω) (fd : Int) (n : Nat) : Operation ω Attr
  | write (w : ω) (fd : Int) (data : List UInt8) : Operation ω Attr

/-- Programs over the operations. -/
inductive Routine (ω : Type) (β : Type) : Type 1 where
  | done (b : β)
  /-- Goes on with the result; a raise ends the routine. -/
  | step {α : Type} (o : Operation ω α) (next : α → Routine ω β)
  /-- Goes on with the result or with the raise. -/
  | attempt {α : Type} (o : Operation ω α) (next : Except Raise α → Routine ω β)

/-- The natives of a program as routines by name. -/
abbrev Routines (ω : Type) := String → Array Attr → Routine ω Attr

/-- An operation and the state in which it begins. -/
structure Event (ω : Type) where
  {result : Type}
  operation : Operation ω result
  state : State

/-- Carries out an action of the host in the world `w`. What becomes of the world is left open, so the
next such action may find any other. -/
def outside {ω α : Type} (w : ω) (x : ActionOn ω α) : Action α := fun s =>
  match x w with
  | .ok a _ => .ok a s
  | .error e _ => .error e s

/-- Hands a raise back as a value. Everything else that ends an action early ends this one too. -/
def attempted {α : Type} (x : Action α) : Action (Except Raise α) := fun s =>
  match x s with
  | .ok a s => .ok (.ok a) s
  | .error (.raised r) s => .ok (.error r) s
  | .error e s => .error e s

/-- What a trace goes on with after an operation that came to `x`. -/
def followed {ω α : Type} (x : EStateM.Result Halt State α) (rest : α → State → List (Event ω)) :
    List (Event ω) :=
  match x with
  | .ok a s => rest a s
  | .error _ _ => []

variable {ω : Type} (m : Machine) (host : Host ω)

namespace Operation

def run (natives : Natives) : {α : Type} → Operation ω α → Action α
  | _, inspect f => do return f (← get)
  | _, panic => throw .fault
  | _, raise r => m.raise r
  | _, load o pos => ObjectRuntime.load o pos
  | _, loadChecked o slot => ObjectRuntime.loadChecked o slot
  | _, store o pos a => ObjectRuntime.store o pos a
  | _, storeChecked o slot a => ObjectRuntime.storeChecked o slot a
  | _, push f a => ObjectRuntime.push f a
  | _, setDefault target index a => m.setDefault target index a
  | _, getDefault target index => m.getDefault target index
  | _, predefine table pos slots => ObjectRuntime.predefine table pos slots
  | _, newObject table classRef size policy => m.newObject table classRef size policy
  | _, newInstance c policy => m.newInstance c policy
  | _, newFragment n => m.newFragment n
  | _, populateSequence this items => m.populateSequence this items
  | _, newLiteral c items => m.newLiteral c items
  | _, newList items => m.newList items
  | _, newTuple items => m.newTuple items
  | _, listToTuple list => m.listToTuple list
  | _, newWrapper context target => m.newWrapper context target
  | _, populateMapping this items => m.populateMapping natives this items
  | _, invoke callable proven keywords args => m.invoke natives callable proven keywords args
  | _, ensureInstance a => m.ensureInstance natives a
  | _, truth a => m.truth natives a
  | _, openFile w path mode => outside w (m.openFile host path mode)
  | _, close w fd => outside w (m.close host fd)
  | _, read w fd n => outside w (m.read host fd n)
  | _, readStream w fd n => outside w (m.readStream host fd n)
  | _, write w fd data => outside w (m.write host fd data)

/-- The call that invoking comes down to, with the state in which it is made. -/
def callOf (callable : Attr) (proven : Bool) (keywords : List Keyword) (args : Array Attr) (s : State) :
    Option (Call × State) :=
  match m.layout.prepare s.heap callable proven keywords args with
  | .ok c => some (c, s)
  | .error _ => none

/-- The call of a native that an operation makes, if it comes to that, with the state in which it makes
it. -/
def callee : {α : Type} → Operation ω α → State → Option (Call × State)
  | _, populateMapping this items, s =>
    if m.capabilities.has .mapping then
      match m.builtins.mappingInit, m.newList items s with
      | some init, .ok list s => some (⟨init, #[this, .ofObject list]⟩, s)
      | _, _ => none
    else none
  | _, invoke callable proven keywords args, s => callOf m callable proven keywords args s
  | _, ensureInstance a, s =>
    if a.object?.any fun o => (s.heap.object o).isInstance then none
    else callOf m a false [] #[.null] s
  | _, truth a, s =>
    if a.is m.builtins.trueRef || a.is m.builtins.falseRef then none
    else some (⟨m.builtins.truthTest, #[.null, a]⟩, s)
  | _, _, _ => none

/-- The operation itself, and after it what goes on within the native that it calls. -/
def trace (inside : Call → State → List (Event ω)) {α : Type} (o : Operation ω α) (s : State) :
    List (Event ω) :=
  ⟨o, s⟩ :: (o.callee m s).elim [] fun c => inside c.1 c.2

end Operation

namespace Routine

variable {β : Type}

def run (natives : Natives) : Routine ω β → Action β
  | done b => pure b
  | step o next => o.run m host natives >>= fun a => (next a).run natives
  | attempt o next => attempted (o.run m host natives) >>= fun x => (next x).run natives

def trace (natives : Natives) (inside : Call → State → List (Event ω)) :
    Routine ω β → State → List (Event ω)
  | done _, _ => []
  | step o next, s =>
    o.trace m inside s ++
      followed (o.run m host natives s) fun a s => (next a).trace natives inside s
  | attempt o next, s =>
    o.trace m inside s ++
      followed (attempted (o.run m host natives) s) fun x s => (next x).trace natives inside s

end Routine

namespace Routines

variable (rs : Routines ω)

/-- The natives that these routines are, which nest at most as deeply as there is fuel. -/
def natives : Nat → Natives
  | 0 => fun _ _ => throw .exhausted
  | fuel + 1 => fun name args => (rs name args).run m host (natives fuel)

/-- The trace of a call of a native. -/
def inside : Nat → Call → State → List (Event ω)
  | 0, _, _ => []
  | fuel + 1, c, s =>
    match c.native with
    | .unboundMethod => []
    | .named name =>
      (rs name c.args).trace m host (rs.natives m host fuel) (inside fuel)
        { s with calls := s.calls.push c }

end Routines

/-! ### Calls of natives -/

namespace Operation

variable {m} {α : Type} {o : Operation ω α} {s s' : State} {c : Call} {callable : Attr}
  {proven : Bool} {keywords : List Keyword} {args : Array Attr}

theorem invoke_of_callOf (h : callOf m callable proven keywords args s = some (c, s'))
    (natives : Natives) : m.invoke natives callable proven keywords args s = natives.run c s' := by
  unfold callOf at h
  cases hprepare : m.layout.prepare s.heap callable proven keywords args with
  | error e => simp [hprepare] at h
  | ok call =>
    simp only [hprepare, Option.some.injEq, Prod.mk.injEq] at h
    obtain ⟨rfl, rfl⟩ := h
    change (ofExcept (m.layout.prepare s.heap callable proven keywords args) >>= natives.run) s = _
    rw [hprepare]
    rfl

theorem populateMapping_of_callee {this : Attr} {items : Array Attr}
    (h : (populateMapping this items : Operation ω Attr).callee m s = some (c, s')) (natives : Natives) :
    m.populateMapping natives this items s = ((fun _ => this) <$> natives.run c) s' := by
  simp only [callee] at h
  split at h
  · rename_i hmapping
    split at h
    · rename_i init list made hinit hlist
      cases h
      simp only [Machine.populateMapping, hmapping, hinit, if_true]
      change EStateM.bind _ _ s = _
      rw [EStateM.bind, hlist]
      rfl
    · cases h
  · cases h

theorem ensureInstance_apply (natives : Natives) (a : Attr) (s : State) :
    m.ensureInstance natives a s =
      if a.object?.any fun o => (s.heap.object o).isInstance then .ok a s
      else m.invoke natives a false [] #[.null] s := by
  rw [Machine.ensureInstance, getHeap_bind]
  cases a.object? with
  | none => rfl
  | some o =>
    rw [Option.any_some]
    cases hinstance : (s.heap.object o).isInstance with
    | false => simp only [hinstance, Bool.false_eq_true, if_false]
    | true =>
      simp only [hinstance, if_true]
      rfl

theorem ensureInstance_of_callee {a : Attr}
    (h : (ensureInstance a : Operation ω Attr).callee m s = some (c, s')) (natives : Natives) :
    m.ensureInstance natives a s = natives.run c s' := by
  simp only [callee] at h
  split at h
  · cases h
  · rename_i hinstance
    rw [ensureInstance_apply, if_neg hinstance]
    exact invoke_of_callOf h natives

theorem truth_of_callee {a : Attr} (h : (truth a : Operation ω Bool).callee m s = some (c, s'))
    (natives : Natives) :
    m.truth natives a s = ((fun b => b.is m.builtins.trueRef) <$> natives.run c) s' := by
  simp only [callee] at h
  split at h
  · cases h
  · rename_i hother
    cases h
    simp only [Bool.or_eq_true, not_or, Bool.not_eq_true] at hother
    simp only [Machine.truth, hother.1, hother.2, Bool.false_eq_true, if_false]
    rfl

/-- An operation that makes a call depends on the natives in nothing else, and ends just as the call
does. -/
theorem run_of_callee (host : Host ω) (h : o.callee m s = some (c, s')) :
    ∃ f : Attr → α, ∀ natives, o.run m host natives s = (f <$> natives.run c) s' := by
  cases o
  case populateMapping this items => exact ⟨fun _ => this, populateMapping_of_callee h⟩
  case invoke callable proven keywords args =>
    refine ⟨id, fun natives => ?_⟩
    rw [id_map]
    exact invoke_of_callOf h natives
  case ensureInstance a =>
    refine ⟨id, fun natives => ?_⟩
    rw [id_map]
    exact ensureInstance_of_callee h natives
  case truth a => exact ⟨_, truth_of_callee h⟩
  all_goals cases h

end Operation

end ObjectRuntime
