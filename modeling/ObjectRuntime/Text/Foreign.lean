import ObjectRuntime.Text.Slice

/-! Text functions for callers outside the program. Bytes come in as an address, which may be null, and a
32-bit length. A slice goes out in a buffer that the host provides on request and that must have exactly
the length asked for; a status says how the call went. -/

namespace ObjectRuntime.Text.Foreign

/-- A buffer from outside: its length, and that many bytes unless its address is null. -/
structure Buffer where
  length : UInt32
  content : Option (Vector UInt8 length.toNat)

namespace Buffer

def null (length : UInt32) : Buffer := ⟨length, none⟩

/-- The buffer with these bytes, if there are not too many for a length. -/
def ofBytes? (bs : Bytes) : Option Buffer :=
  if h : bs.size < UInt32.size then
    some ⟨UInt32.ofNatLT bs.size h, some ⟨bs, UInt32.toNat_ofNatLT.symm⟩⟩
  else none

/-- The bytes that are read; a null buffer has none, whatever its length. -/
def bytes (buffer : Buffer) : Bytes :=
  match buffer.content with
  | some content => content.toArray
  | none => #[]

end Buffer

def len (buffer : Buffer) : Int64 := Int64.ofNat (Text.length buffer.bytes)

def statusOk : UInt32 := 0
def statusZeroStep : UInt32 := 70101
def statusOverflow : UInt32 := 70102
def statusTooLarge : UInt32 := 70116
def statusInternal : UInt32 := 70199

/-- The trap taken when the host provides a buffer of another length. -/
def wrongBuffer : Int32 := 9700

def status : SliceError → UInt32
  | .zeroStep => statusZeroStep
  | .spanOverflow => statusOverflow
  | .countOverflow => statusInternal

inductive Answer where
  | returned (status : UInt32) (out : Bytes)
  | trapped (code : Int32)
deriving DecidableEq, Repr

/-- An answer and the lengths of the buffers that the host was asked for. -/
structure Exchange where
  requests : List Nat
  answer : Answer
deriving DecidableEq, Repr

def failed (status : UInt32) : Exchange := ⟨[], .returned status #[]⟩

/-- Hands `out` to a host that provides a buffer of length `provided n` when asked for `n`. -/
def deliver (provided : Nat → Nat) (out : Bytes) : Exchange :=
  if out.size < UInt32.size then
    if provided out.size = out.size then ⟨[out.size], .returned statusOk out⟩
    else ⟨[out.size], .trapped wrongBuffer⟩
  else failed statusTooLarge

def substr (provided : Nat → Nat) (buffer : Buffer) (start stop step : Int64) : Exchange :=
  match Text.substring buffer.bytes start stop step with
  | .ok out => deliver provided out
  | .error e => failed (status e)

end ObjectRuntime.Text.Foreign
