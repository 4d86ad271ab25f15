import ObjectRuntime.Machine

/-! Making objects, fragments and literals. Storage is granted before anything is made, and nothing
that existed before is written until all storage is there. -/

namespace ObjectRuntime

namespace Machine

variable (m : Machine)

/-- Asks the allocator for storage. -/
def allocate (kind : StorageKind) (slots : Nat) : Action (Array Attr) := do
  match (← get).allocator.request (m.reserves slots) kind slots with
  | .ok (storage, a) =>
    modify fun s => { s with allocator := a }
    return storage
  | .error _ => m.raise .memory

/-- A new instance with `size` slots, of which all but the class are empty. -/
def newObject (table : Table) (classRef : ObjectRef) (size : Nat) (policy : Policy) :
    Action ObjectRef := do
  let slots ← m.allocate (.object policy) size
  let (o, h) := (← getHeap).addObject ⟨table, 0, policy, slots⟩
  modifyHeap fun _ => h
  store o m.layout.classSlot.pos.toNat (.ofObject classRef)
  return o

def newInstance (c : ClassLayout) (policy : Policy) : Action ObjectRef :=
  m.newObject c.table c.classRef c.size policy

/-- A new fragment with room for `n` items and nothing in it. -/
def newFragment (n : Nat) : Action FragmentRef := do
  let storage ← m.allocate .fragment n
  let (f, h) := (← getHeap).addFragment (.ofStorage storage)
  modifyHeap fun _ => h
  return f

/-- Puts exactly these items into a fragment. -/
def fill (f : FragmentRef) (items : Array Attr) : Action Unit := do
  match ((← getHeap).fragment f).fill? items with
  | some g => modifyHeap (·.setFragment f g)
  | none => throw .fault

/-- Gives `o` a new fragment with exactly these items as its data. -/
def populate (o : ObjectRef) (items : Array Attr) : Action Unit := do
  let f ← m.newFragment items.size
  fill f items
  store o m.layout.dataSlot.pos.toNat (.seq f)

def populateSequence (this : Attr) (items : Array Attr) : Action Attr :=
  match this.object? with
  | some o => do
    m.populate o items
    return this
  | none => typeError .literalTarget

/-- An instance of a sequence class holding these items. -/
def newLiteral (c : ClassLayout) (items : Array Attr) : Action ObjectRef := do
  let o ← m.newInstance c .heap
  m.populate o items
  return o

def newList (items : Array Attr) : Action ObjectRef :=
  match m.builtins.list with
  | some c => m.newLiteral c items
  | none => typeError .listUnregistered

def newTuple (items : Array Attr) : Action ObjectRef :=
  match m.builtins.tuple with
  | some c => m.newLiteral c items
  | none => typeError .tupleUnregistered

/-- A tuple of what the list holds at this time. -/
def listToTuple (list : Attr) : Action ObjectRef :=
  match list.object? with
  | some o => do
    match ← loadChecked o m.layout.dataSlot with
    | .seq f => m.newTuple ((← getHeap).fragment f).items
    | _ => typeError .noSequence
  | none => typeError .notAList

/-- A wrapper that binds `target` to `context` for a later call. -/
def newWrapper (context target : Attr) : Action ObjectRef :=
  match m.builtins.wrapper with
  | some c => do
    let o ← m.newInstance c .heap
    storeChecked o m.layout.contextSlot context
    storeChecked o m.layout.valueSlot target
    return o
  | none => typeError .wrapperUnregistered

end Machine
end ObjectRuntime
