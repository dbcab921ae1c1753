import Spool.Assembler
import Spool.Ring
import Spool.Stream

/-!
# What a spool stores

The `Store` is the assembler together with the ring of live commands: all that a
spool guards. `Store.feed` takes a chunk. Under `discard` it takes at most one
command, and what follows the first delimiter is left to the caller. Under
`retain` it goes on with what is left over until nothing is, so that every
command in the chunk is stored and the bytes after its last delimiter wait. If
memory is refused on the way, the commands stored so far stay stored.
-/

namespace Spool

/-- The guarded state of a spool. -/
structure Store where
  /-- Puts commands together. -/
  assembler : Assembler
  /-- The commands that are retained. -/
  ring : Ring

/-- What came of feeding a chunk. -/
structure Fed where
  /-- The store afterwards. -/
  store : Store
  /-- How many bytes of the chunk were taken. -/
  accepted : Nat
  /-- The growth that was refused, if one was. -/
  shortage : Option Shortage
  /-- The memory left. -/
  quota : Quota
  /-- What was logged. -/
  records : List Record

/-- A shortage is an error only if nothing was taken before; later it just makes
the count short. -/
def Fed.result (fed : Fed) : Except Shortage Nat :=
  match fed.shortage with
  | some s => if fed.accepted = 0 then .error s else .ok fed.accepted
  | none => .ok fed.accepted

/-- What a teardown released. -/
structure Teardown where
  /-- Live commands. -/
  commands : Nat
  /-- Bytes of those commands. -/
  commandBytes : Nat
  /-- Bytes that waited for a delimiter. -/
  pendingBytes : Nat
  deriving DecidableEq

/-- Whether there was nothing to release. -/
def Teardown.isEmpty (t : Teardown) : Bool := t.commands == 0 && t.pendingBytes == 0

/-- What is logged about a teardown that released something. -/
def Teardown.records (t : Teardown) : List Record :=
  if t.isEmpty then [] else [.tornDown t.commands t.commandBytes t.pendingBytes]

namespace Store

/-- The store of a new spool. -/
def start (config : Config) (h : config.Valid) : Store :=
  ⟨.start config.delimiter, .start config.capacity h⟩

/-- The live commands, oldest first. -/
def live (s : Store) : List Command := s.ring.live

/-- The bytes that wait for a delimiter. -/
def pending (s : Store) : Bytes := s.assembler.pending.bytes

/-- One line about a store. -/
def describe (s : Store) : String :=
  "DeviceState(" ++ s.assembler.describe ++ ", " ++ s.ring.describe ++ ")"

/-- Put a finished command into the ring. -/
def ingest (s : Store) (assembler : Assembler) (command : Command) : Store × List Record :=
  let (ring, evicted) := s.ring.ingest command
  (⟨assembler, ring⟩, evicted.toList.map fun c => .evicted c.size)

/-- Take a chunk, as far as the policy and the memory go. -/
def feed (s : Store) (trailing : Trailing) (chunk : Bytes) (q : Quota) : Fed :=
  match _h : s.assembler.append chunk q with
  | .error shortage =>
    { store := s, accepted := 0, shortage := some shortage, quota := q, records := [] }
  | .ok out =>
    match _hc : out.command with
    | none =>
      { store := { s with assembler := out.assembler }
        accepted := out.accepted
        shortage := none
        quota := out.quota
        records := out.records }
    | some command =>
      let (stored, evictions) := s.ingest out.assembler command
      match trailing with
      | .discard =>
        { store := stored
          accepted := out.accepted
          shortage := none
          quota := out.quota
          records := out.records ++ evictions }
      | .retain =>
        let more := stored.feed .retain out.rest out.quota
        { more with
          accepted := out.accepted + more.accepted
          records := out.records ++ evictions ++ more.records }
termination_by chunk.length
decreasing_by exact Assembler.rest_lt_of_command _h _hc

/-- The bytes that a read of `count` bytes at `position` delivers: those of one
command, as many as fit. There are none at the end of the stream. -/
def excerpt (s : Store) (position count : Nat) : Option Bytes :=
  (Stream.locate s.live position).map fun (command, within) =>
    (command.bytes.drop within).take count

/-- Release everything. -/
def tearDown (s : Store) : Teardown × Store :=
  let (pendingBytes, assembler) := s.assembler.discardPending
  let ((commands, commandBytes), ring) := s.ring.releaseAll
  (⟨commands, commandBytes, pendingBytes⟩, ⟨assembler, ring⟩)

end Store

end Spool
