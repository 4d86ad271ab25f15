import ObjectRuntime.Attr
import ObjectRuntime.Layout

/-! Objects and fragments. Both are only ever added, so a reference stays good for good. An object has
a table, a class position and a fixed number of slots; a fragment has a fixed capacity and grows within
it. A reference to nothing reads as an object without slots or a fragment without room. -/

namespace ObjectRuntime

inductive Policy where
  | heap
  /-- Not written any more once its creator is done with it. -/
  | immutable
deriving DecidableEq, Repr, Inhabited

structure Object where
  table : Table
  /-- Zero for instances, the position of the type attribute for classes. -/
  pos : UInt32
  policy : Policy
  slots : Array Attr
deriving DecidableEq, Repr, Inhabited

namespace Object

def blank : Object := ⟨⟨#[]⟩, 0, .immutable, #[]⟩

def isInstance (o : Object) : Bool := o.pos == 0

/-- Whether the table provides the attribute and the object reaches as far as its position. -/
def hasAttr (o : Object) (s : AttrSlot) : Bool :=
  o.table.provides s.pos.toNat s.code && decide (s.pos.toNat < o.slots.size)

/-- The attribute, or nothing where the object does not have it. -/
def loadOrNull (o : Object) (s : AttrSlot) : Attr :=
  if o.hasAttr s then o.slots.getD s.pos.toNat .null else .null

end Object

structure Fragment where
  capacity : Nat
  items : Array Attr
deriving DecidableEq, Repr, Inhabited

namespace Fragment

/-- A fragment with nothing in it and room for as many items as `storage` has slots. -/
def ofStorage (storage : Array Attr) : Fragment := ⟨storage.size, #[]⟩

def size (f : Fragment) : Nat := f.items.size

/-- The fragment with one more item, unless it is full. -/
def push? (f : Fragment) (a : Attr) : Option Fragment :=
  if f.size < f.capacity then some { f with items := f.items.push a } else none

/-- The fragment with these items instead, if there is room for them. -/
def fill? (f : Fragment) (items : Array Attr) : Option Fragment :=
  if items.size ≤ f.capacity then some { f with items := items } else none

end Fragment

structure Heap where
  objects : Array Object
  fragments : Array Fragment
deriving DecidableEq, Repr, Inhabited

namespace Heap

def empty : Heap := ⟨#[], #[]⟩

def object (h : Heap) (r : ObjectRef) : Object := h.objects.getD r.index .blank

def fragment (h : Heap) (r : FragmentRef) : Fragment := h.fragments.getD r.index (.ofStorage #[])

def addObject (h : Heap) (o : Object) : ObjectRef × Heap :=
  (⟨h.objects.size⟩, { h with objects := h.objects.push o })

def addFragment (h : Heap) (f : Fragment) : FragmentRef × Heap :=
  (⟨h.fragments.size⟩, { h with fragments := h.fragments.push f })

/-- Writes a slot; a position outside the object is left out of account. -/
def setSlot (h : Heap) (r : ObjectRef) (pos : Nat) (a : Attr) : Heap :=
  { h with objects := h.objects.modify r.index fun o =>
      { o with slots := o.slots.setIfInBounds pos a } }

def setFragment (h : Heap) (r : FragmentRef) (f : Fragment) : Heap :=
  { h with fragments := h.fragments.setIfInBounds r.index f }

end Heap
end ObjectRuntime
