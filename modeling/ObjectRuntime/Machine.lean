import ObjectRuntime.Allocator
import ObjectRuntime.Heap
import ObjectRuntime.Raise

/-! The machine that programs run on: what is fixed when a program is set up, the state that its
operations change, and access to slots. An operation that ends early leaves the state as it was when
it ended. -/

namespace ObjectRuntime

/-- What it takes to make an instance of a class. -/
structure ClassLayout where
  table : Table
  classRef : ObjectRef
  /-- The number of slots of an instance. -/
  size : Nat
deriving DecidableEq, Repr

/-- The objects and natives of a program that the core refers to. -/
structure Builtins where
  trueRef : ObjectRef
  falseRef : ObjectRef
  noneRef : ObjectRef
  /-- The conversion to a truth value, called with an empty context and the value. -/
  truthTest : NativeRef
  list : Option ClassLayout
  tuple : Option ClassLayout
  wrapper : Option ClassLayout
  /-- The initialiser of mappings, called with the mapping and a list. -/
  mappingInit : Option NativeRef
deriving DecidableEq, Repr

structure Machine where
  layout : Layout
  capabilities : CapabilitySet
  builtins : Builtins
  /-- Whether the host has storage for so many slots at once. -/
  reserves : Nat → Bool

/-- A native function and the arguments that it gets. -/
structure Call where
  native : NativeRef
  args : Array Attr
deriving DecidableEq, Repr

structure State where
  heap : Heap
  allocator : Allocator
  /-- The calls of the program's natives so far, in order. -/
  calls : Array Call
deriving DecidableEq, Repr, Inhabited

/-- An operation on a state of type `σ` that may end early. -/
abbrev ActionOn (σ α : Type) := EStateM Halt σ α

abbrev Action (α : Type) := ActionOn State α

/-- The natives of a program by name. -/
abbrev Natives := String → Array Attr → Action Attr

def ofExcept {σ α : Type} : Except Halt α → ActionOn σ α
  | .ok a => pure a
  | .error e => throw e

def typeError {σ α : Type} (cause : TypeFault) : ActionOn σ α := throw (.type cause)

/-- Raises what the build may raise, and ends the program otherwise. -/
def Machine.raise {σ α : Type} (m : Machine) (r : Raise) : ActionOn σ α :=
  throw (m.capabilities.raising r)

def getHeap : Action Heap := do return (← get).heap

def modifyHeap (f : Heap → Heap) : Action Unit := modify fun s => { s with heap := f s.heap }

/-- Reads a slot without a check. -/
def Heap.load (h : Heap) (o : ObjectRef) (pos : Nat) : Except Halt Attr :=
  match (h.object o).slots[pos]? with
  | some a => .ok a
  | none => .error .fault

def Heap.loadChecked (h : Heap) (o : ObjectRef) (s : AttrSlot) : Except Halt Attr :=
  if (h.object o).hasAttr s then h.load o s.pos.toNat else .error (.type .attributeMissing)

/-- Writes a slot without a check. -/
def Heap.store (h : Heap) (o : ObjectRef) (pos : Nat) (a : Attr) : Except Halt Heap :=
  if pos < (h.object o).slots.size then .ok (h.setSlot o pos a) else .error .fault

def Heap.storeChecked (h : Heap) (o : ObjectRef) (s : AttrSlot) (a : Attr) : Except Halt Heap :=
  if (h.object o).hasAttr s then h.store o s.pos.toNat a else .error (.type .attributeMissing)

def load (o : ObjectRef) (pos : Nat) : Action Attr := do ofExcept ((← getHeap).load o pos)

def loadChecked (o : ObjectRef) (s : AttrSlot) : Action Attr := do
  ofExcept ((← getHeap).loadChecked o s)

def store (o : ObjectRef) (pos : Nat) (a : Attr) : Action Unit := do
  let h ← ofExcept ((← getHeap).store o pos a)
  modifyHeap fun _ => h

def storeChecked (o : ObjectRef) (s : AttrSlot) (a : Attr) : Action Unit := do
  let h ← ofExcept ((← getHeap).storeChecked o s a)
  modifyHeap fun _ => h

/-- Adds an object that a generator laid out, without asking for storage. -/
def predefine (table : Table) (pos : UInt32) (slots : Array Attr) : Action ObjectRef := do
  let (o, h) := (← getHeap).addObject ⟨table, pos, .immutable, slots⟩
  modifyHeap fun _ => h
  return o

/-- Appends to a fragment, or hands the value back if it is full. -/
def push (f : FragmentRef) (a : Attr) : Action (Option Attr) := do
  match ((← getHeap).fragment f).push? a with
  | some g =>
    modifyHeap (·.setFragment f g)
    return none
  | none => return some a

end ObjectRuntime
