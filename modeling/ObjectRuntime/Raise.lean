import ObjectRuntime.Attr
import ObjectRuntime.Capability
import ObjectRuntime.Text.Slice

/-! Raised errors and the other ways in which a computation ends early. A raise is told apart by its
cause; its kind, its wording and its arguments follow from that. Three kinds exist only in builds that
have them: raising one in another build ends the program instead. -/

namespace ObjectRuntime

inductive ErrorKind where
  | memory
  | overflow
  | type
  | zeroDivision
  | io
  | eof
  | os
deriving DecidableEq, Repr

namespace ErrorKind

def all : List ErrorKind := [.memory, .overflow, .type, .zeroDivision, .io, .eof, .os]

def name : ErrorKind → String
  | .memory => "MemoryError"
  | .overflow => "OverflowError"
  | .type => "TypeError"
  | .zeroDivision => "ZeroDivisionError"
  | .io => "IOError"
  | .eof => "EOFError"
  | .os => "OSError"

/-- The capability without which errors of this kind do not exist. -/
def capability? : ErrorKind → Option Capability
  | .io => some .ioError
  | .eof => some .eofError
  | .os => some .osError
  | _ => none

end ErrorKind

inductive TypeFault where
  | attributeMissing
  | notCallable
  | wrongArgumentCount
  | unexpectedKeyword
  | parameterOccupied
  | argumentMissing
  | defaultMissing
  | unboundMethod
  | literalTarget
  | mappingUnregistered
  | listUnregistered
  | tupleUnregistered
  | wrapperUnregistered
  | notAList
  | noSequence
  /-- Raised by the program itself. -/
  | program (message : String)
deriving DecidableEq, Repr

def TypeFault.message : TypeFault → String
  | .attributeMissing => "object does not provide the attribute"
  | .notCallable => "object is not callable"
  | .wrongArgumentCount => "wrong number of arguments"
  | .unexpectedKeyword => "unexpected keyword argument"
  | .parameterOccupied => "keyword argument binds an occupied parameter"
  | .argumentMissing => "missing required argument"
  | .defaultMissing => "missing default for parameter"
  | .unboundMethod => "unbound method invoked without an instance"
  | .literalTarget => "sequence literal target is not an object"
  | .mappingUnregistered => "mapping initialiser is not registered"
  | .listUnregistered => "list type is not registered"
  | .tupleUnregistered => "tuple type is not registered"
  | .wrapperUnregistered => "wrapper type is not registered"
  | .notAList => "list_to_tuple expects a list"
  | .noSequence => "list has no sequence data"
  | .program message => message

inductive Raise where
  | memory
  | overflow
  | type (cause : TypeFault)
  | zeroDivision
  | io (code : Int32)
  | endOfInput
  | os (code : Int32) (arg : Attr)
deriving DecidableEq, Repr

namespace Raise

def kind : Raise → ErrorKind
  | .memory => .memory
  | .overflow => .overflow
  | .type _ => .type
  | .zeroDivision => .zeroDivision
  | .io _ => .io
  | .endOfInput => .eof
  | .os _ _ => .os

def message : Raise → String
  | .memory => "allocation failed"
  | .overflow => "value out of range"
  | .type cause => cause.message
  | .zeroDivision => "division by zero"
  | .io _ => "input/output operation failed"
  | .endOfInput => "end of input"
  | .os _ _ => "operating system call failed"

/-- The arguments of the exception: an error code, and what an operating system call was about. -/
def args : Raise → List Attr
  | .io code => [.int code.toInt64]
  | .os code arg => [.int code.toInt64, arg]
  | _ => []

/-- The error code, where the first argument is one. -/
def code? (r : Raise) : Option Int64 := r.args.head?.bind Attr.int?

/-- Kind and message in one line. -/
def describe (r : Raise) : String := s!"{r.kind.name}: {r.message}"

end Raise

/-- Why a computation ended without a value. -/
inductive Halt where
  | raised (r : Raise)
  /-- An unchecked access outside an object. -/
  | fault
  /-- A capability was needed that the build lacks; the whole program ends. -/
  | aborted (missing : Capability)
  /-- Natives called one another too deeply. -/
  | exhausted
deriving DecidableEq, Repr

/-- How raising ends in a build with these capabilities. -/
def CapabilitySet.raising (caps : CapabilitySet) (r : Raise) : Halt :=
  match r.kind.capability? with
  | some c => if caps.has c then .raised r else .aborted c
  | Option.none => .raised r

def Halt.type (cause : TypeFault) : Halt := .raised (.type cause)

/-- How a slice that cannot be taken ends. -/
def Text.SliceError.halt : Text.SliceError → Halt
  | .zeroStep => .raised .zeroDivision
  | .spanOverflow => .raised .overflow
  | .countOverflow => .fault

end ObjectRuntime
