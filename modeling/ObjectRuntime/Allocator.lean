import ObjectRuntime.Checked
import ObjectRuntime.Heap
import ObjectRuntime.Setting
import ObjectRuntime.Text.Digits

/-! Accounting for storage. The allocator counts what it has granted and may have a budget of slots for
the whole life of the program: nothing is ever given back. A request is refused if it would pass the
budget or if the host does not reserve the storage, and a refused request counts for nothing. -/

namespace ObjectRuntime

inductive StorageKind where
  | object (policy : Policy)
  | fragment
deriving DecidableEq, Repr

structure Usage where
  objects : Nat
  immutableObjects : Nat
  fragments : Nat
  slots : Nat
deriving DecidableEq, Repr, Inhabited

def Usage.none : Usage := ⟨0, 0, 0, 0⟩

/-- Counts one more grant; `slots` is the new total. -/
def Usage.grant (u : Usage) (slots : Nat) : StorageKind → Usage
  | .object .heap => { u with objects := u.objects + 1, slots := slots }
  | .object .immutable =>
    { u with objects := u.objects + 1, immutableObjects := u.immutableObjects + 1, slots := slots }
  | .fragment => { u with fragments := u.fragments + 1, slots := slots }

structure AllocError where
  kind : StorageKind
  slots : Nat
deriving DecidableEq, Repr

def Policy.inspect : Policy → String
  | .heap => "Heap"
  | .immutable => "Immutable"

def StorageKind.inspect : StorageKind → String
  | .object policy => s!"Object({policy.inspect})"
  | .fragment => "Fragment"

def AllocError.message (e : AllocError) : String :=
  s!"cannot allocate {e.slots} slots for {e.kind.inspect}"

structure Allocator where
  budget : Option UInt64
  usage : Usage
deriving DecidableEq, Repr, Inhabited

namespace Allocator

def ofBudget (budget : Option UInt64) : Allocator := ⟨budget, .none⟩

/-- The budget that the environment sets: a positive count, else none. -/
def budgetOf? (setting : Setting) : Option UInt64 := do
  let n ← Text.unsigned? (← setting.text?).toList
  if 0 < n then some n.toUInt64 else none

def withinBudget (a : Allocator) (total : Nat) : Bool :=
  match a.budget with
  | some max => total ≤ max.toNat
  | none => true

/-- The most slots that a host is taken to reserve at once. -/
def reservable : Nat := 1 <<< 28

/-- Asks for `slots` slots, which are handed out empty; `reserved` tells whether the host has storage
for them. -/
def request (a : Allocator) (reserved : Bool) (kind : StorageKind) (slots : Nat) :
    Except AllocError (Array Attr × Allocator) :=
  let total := Checked.addSaturating a.usage.slots slots
  if a.withinBudget total && reserved then
    .ok (Array.replicate slots .null, { a with usage := a.usage.grant total kind })
  else .error ⟨kind, slots⟩

end Allocator
end ObjectRuntime
