import ObjectRuntime.Instantiate

/-! Calls. The arguments of a call start with the context, in position zero, and a callable with `max`
parameters gets exactly `max` of them. Binding goes through three stages: the positional arguments with
the context of a wrapper, then the keywords in the order given, then the defaults of positions that are
still empty. Binding only reads the heap; what comes out is the native function to run and the
arguments to run it on. -/

namespace ObjectRuntime

/-- A keyword argument: the parameter's code, its slot in parameter tables, and the value. -/
structure Keyword where
  code : UInt16
  hint : UInt16
  value : Attr
deriving DecidableEq, Repr

/-- Takes a wrapper apart into its target and the context it binds; anything else is its own target. -/
def Layout.unwrap (l : Layout) (h : Heap) (callable : Attr) : Attr × Option Attr :=
  match callable.object? with
  | some o =>
    let target := (h.object o).loadOrNull l.valueSlot
    if target.isNull then (callable, none)
    else (target, some ((h.object o).loadOrNull l.contextSlot))
  | none => (callable, none)

/-- The arguments with a wrapper's context in position zero. -/
def supply (args : Array Attr) : Option Attr → Array Attr
  | none => args
  | some c => if args.isEmpty then #[c] else args.setIfInBounds 0 c

/-- Binds one keyword, which must resolve to a position after the `given` positional arguments that
nothing has been bound to. -/
def ParamTable.bindKeyword (t : ParamTable) (given : Nat) (bound : Array Attr) (k : Keyword) :
    Except Halt (Array Attr) :=
  match t.resolve k.hint.toNat k.code with
  | some pos =>
    if given ≤ pos then
      match bound[pos]? with
      | some .null => .ok (bound.setIfInBounds pos k.value)
      | _ => .error (.type .parameterOccupied)
    else .error (.type .unexpectedKeyword)
  | none => .error (.type .unexpectedKeyword)

/-- The default for position `pos`. Defaults cover the positions from `min` on and follow the
attributes of the function. -/
def Layout.defaultFor (l : Layout) (target : Object) (min pos : Nat) : Except Halt Attr :=
  if pos < min then .error (.type .argumentMissing)
  else match l.defaultPos? (pos - min) with
    | none => .error .fault
    | some p => match target.slots[p]? with
      | some a => if a.isNull then .error (.type .defaultMissing) else .ok a
      | none => .error (.type .defaultMissing)

/-- Gives an empty position its default. -/
def Layout.fillDefault (l : Layout) (target : Object) (min : Nat) (bound : Array Attr) (pos : Nat) :
    Except Halt (Array Attr) :=
  match bound[pos]? with
  | some .null => (l.defaultFor target min pos).map (bound.setIfInBounds pos)
  | _ => .ok bound

/-- Binds arguments and keywords to the parameters of `target`. -/
def Layout.bindArgs (l : Layout) (target : Object) (t : ParamTable) (args : Array Attr)
    (keywords : List Keyword) : Except Halt (Array Attr) := do
  let min := t.min.toNat
  let max := t.max.toNat
  let total := args.size + keywords.length
  if args.size = max ∧ keywords.isEmpty then return args
  else if total < min ∨ max < total then .error (.type .wrongArgumentCount)
  else
    let padded := args ++ Array.replicate (max - args.size) Attr.null
    let bound ← keywords.foldlM (t.bindKeyword args.size) padded
    (List.range' args.size (max - args.size)).foldlM (l.fillDefault target min) bound

/-- Functions take an empty context and methods an instance; a class as context means that a method was
taken from its class. -/
def Heap.acceptsContext (h : Heap) : Attr → Bool
  | .value _ o => (h.object o).isInstance
  | _ => true

/-- The function of `target`. A method has the function of its bound version. -/
def Layout.functionOf (l : Layout) (h : Heap) (target : ObjectRef) : Except Halt NativeRef := do
  let pos := l.fnSlot.pos.toNat
  match ← h.load target pos with
  | .callable none func => return func
  | .callable (some bound) _ =>
    match ← h.load bound pos with
    | .callable _ func => return func
    | _ => .error (.type .notCallable)
  | _ => .error (.type .notCallable)

/-- The function to run in this context. With `proven` the target is known to have a function. -/
def Layout.dispatch (l : Layout) (h : Heap) (target : ObjectRef) (proven : Bool) (context : Attr) :
    Except Halt NativeRef :=
  if !h.acceptsContext context then .ok .unboundMethod
  else if proven || (h.object target).hasAttr l.fnSlot then l.functionOf h target
  else .error (.type .notCallable)

/-- The call that invoking `callable` comes down to. -/
def Layout.prepare (l : Layout) (h : Heap) (callable : Attr) (proven : Bool) (keywords : List Keyword)
    (args : Array Attr) : Except Halt Call := do
  let (target, context) := l.unwrap h callable
  match target.object? with
  | none => .error (.type .notCallable)
  | some o =>
    match ← h.loadChecked o l.argsSlot with
    | .args _ t =>
      let bound ← l.bindArgs (h.object o) t (supply args context) keywords
      let func ← l.dispatch h o proven (bound.getD 0 .null)
      return ⟨func, bound⟩
    | _ => .error (.type .notCallable)

/-- Runs a native. Calls of the program's own natives are recorded as they begin. -/
def Natives.run (natives : Natives) (c : Call) : Action Attr :=
  match c.native with
  | .unboundMethod => typeError .unboundMethod
  | .named name => do
    modify fun s => { s with calls := s.calls.push c }
    natives name c.args

namespace Machine

variable (m : Machine) (natives : Natives)

def invoke (callable : Attr) (proven : Bool) (keywords : List Keyword) (args : Array Attr) :
    Action Attr := do
  let call ← ofExcept (m.layout.prepare (← getHeap) callable proven keywords args)
  natives.run call

/-- Writes the default of position `min + index`. -/
def setDefault (target : ObjectRef) (index : Nat) (a : Attr) : Action Unit :=
  match m.layout.defaultPos? index with
  | some pos => store target pos a
  | none => throw .fault

def getDefault (target : ObjectRef) (index : Nat) : Action Attr :=
  match m.layout.defaultPos? index with
  | some pos => load target pos
  | none => throw .fault

/-- Instances are returned as they are; anything else is called to produce one. -/
def ensureInstance (a : Attr) : Action Attr := do
  let h ← getHeap
  match a.object? with
  | some o =>
    if (h.object o).isInstance then return a
    else m.invoke natives a false [] #[.null]
  | none => m.invoke natives a false [] #[.null]

/-- The truth value of `a`. The two truth objects answer by identity; anything else is converted. -/
def truth (a : Attr) : Action Bool := do
  if a.is m.builtins.trueRef then return true
  else if a.is m.builtins.falseRef then return false
  else do
    let converted ← natives.run ⟨m.builtins.truthTest, #[.null, a]⟩
    return converted.is m.builtins.trueRef

/-- Initialises a mapping from a list of these items, in builds with mappings. -/
def populateMapping (this : Attr) (items : Array Attr) : Action Attr := do
  if m.capabilities.has .mapping then
    match m.builtins.mappingInit with
    | some init =>
      let list ← m.newList items
      let _ ← natives.run ⟨init, #[this, .ofObject list]⟩
      return this
    | none => typeError .mappingUnregistered
  else throw (.aborted .mapping)

end Machine
end ObjectRuntime
