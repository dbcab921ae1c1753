import Spool.Bytes

/-!
# Memory of the caller

A spool copies bytes from the memory of its caller and to it, and either copy may
fault. A copy is all or nothing: one that faults has moved no byte. Memory can
also be missing altogether, which a spool asks about before it copies.
-/

namespace Spool

/-- Memory a write takes its bytes from. -/
inductive Source where
  /-- The caller passed no memory. -/
  | missing
  /-- Memory that holds `bytes`. -/
  | memory (bytes : Bytes)
  /-- Memory said to be `size` bytes long, of which only `bytes` can be read. -/
  | claimed (size : Nat) (bytes : Bytes)

namespace Source

/-- The number of bytes the caller offers. -/
def size : Source → Nat
  | missing => 0
  | memory bytes => bytes.length
  | claimed size _ => size

/-- Whether the caller passed no memory. -/
def isMissing : Source → Bool
  | missing => true
  | _ => false

/-- Copy the first `count` bytes; nothing if they cannot all be read. -/
def copy : Source → Nat → Option Bytes
  | missing, _ => none
  | memory bytes, count | claimed _ bytes, count =>
    if count ≤ bytes.length then some (bytes.take count) else none

/-- A copy has the length that was asked for. -/
theorem length_copy {source : Source} {count : Nat} {bytes : Bytes}
    (h : source.copy count = some bytes) : bytes.length = count := by
  cases source <;> grind [copy]

end Source

/-- Memory a read puts its bytes into. -/
inductive Sink where
  /-- The caller passed no memory. -/
  | missing
  /-- Memory that holds `bytes` now. -/
  | memory (bytes : Bytes)
  /-- Memory that cannot be written. -/
  | faulty
  deriving DecidableEq

namespace Sink

/-- The number of bytes the caller can receive. -/
def size : Sink → Nat
  | memory bytes => bytes.length
  | _ => 0

/-- Whether the caller passed no memory. -/
def isMissing : Sink → Bool
  | missing => true
  | _ => false

/-- What the memory holds. -/
def contents : Sink → Bytes
  | memory bytes => bytes
  | _ => []

/-- Put `data` at the beginning; nothing if it does not fit. -/
def put : Sink → Bytes → Option Sink
  | memory bytes, data =>
    if data.length ≤ bytes.length then some (.memory (data ++ bytes.drop data.length)) else none
  | _, _ => none

end Sink

end Spool
