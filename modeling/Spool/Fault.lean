import Spool.Quota

/-!
# Faults

A call on a spool can fail for four reasons. `Fault` is the answer the caller
gets, with the number and the kind under which other layers know it; `Cause` is
what went wrong inside, in words of its own, and `Cause.fault` the answer it
becomes.
-/

namespace Spool

/-- Why a call failed. -/
inductive Fault where
  /-- The caller's memory is missing, or the position is impossible. -/
  | invalidArgument
  /-- A buffer could not grow. -/
  | outOfMemory
  /-- Copying from or to the caller failed. -/
  | transferFault
  /-- Waiting for the spool was given up; the whole call can be made again. -/
  | interrupted
  deriving DecidableEq, Repr

/-- The kinds of failure that layers above tell apart. -/
inductive FaultKind where
  /-- An argument does not make sense. -/
  | invalidInput
  /-- Memory ran out. -/
  | outOfMemory
  /-- Any other failure. -/
  | other
  /-- The call was cut short. -/
  | interrupted
  deriving DecidableEq, Repr

namespace Fault

/-- The text of a fault. -/
def message : Fault → String
  | invalidArgument => "invalid argument"
  | outOfMemory => "out of memory"
  | transferFault => "bad address in caller buffer"
  | interrupted => "interrupted, restart the call"

/-- The positive error number. A missing buffer is a bad address. -/
def errno : Fault → Nat
  | invalidArgument | transferFault => 14
  | outOfMemory => 12
  | interrupted => 512

/-- Whether the caller should simply try again. -/
def isRetryable : Fault → Bool
  | interrupted => true
  | _ => false

/-- The kind of a fault. -/
def kind : Fault → FaultKind
  | invalidArgument => .invalidInput
  | outOfMemory => .outOfMemory
  | transferFault => .other
  | interrupted => .interrupted

end Fault

/-- What went wrong inside a call. -/
inductive Cause where
  /-- A buffer could not grow. -/
  | shortage (s : Shortage)
  /-- The caller's memory could not be read or written. -/
  | badAddress
  /-- The signal of a waiting caller was raised. -/
  | interruption
  deriving DecidableEq

namespace Cause

/-- The text of a cause. -/
def message : Cause → String
  | shortage s => s.message
  | badAddress => "bad address in caller buffer"
  | interruption => "interrupted while waiting for the device lock"

/-- The fault a cause becomes. -/
def fault : Cause → Fault
  | shortage _ => .outOfMemory
  | badAddress => .transferFault
  | interruption => .interrupted

end Cause

end Spool
