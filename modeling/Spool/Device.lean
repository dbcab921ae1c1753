import Spool.Config.Error
import Spool.Fault
import Spool.Plan
import Spool.Store
import Spool.Transfer

/-!
# The device

A `Device` is a store behind a guard, with the configuration it was made from and
the counter that numbers its files. Its calls are `Plan`s on the store
(`writePlan`, `readPlan`, `inspectPlan`); `Device.perform` finishes one of them,
given how its request for the guard ended.

A write decides its outcome in this order: missing memory, an empty chunk, the
growth of the local copy, the copy itself, the guard, the growths in the assembler.
A read: missing memory, the guard, the end of the stream, the copy.
-/

namespace Spool

/-- The answer to a write. -/
structure Written where
  /-- How many bytes were taken. -/
  result : Except Fault Nat
  /-- The memory left. -/
  quota : Quota

/-- The answer to a read. -/
structure Delivered where
  /-- How many bytes were delivered. -/
  result : Except Fault Nat
  /-- The position afterwards. -/
  position : Nat
  /-- The caller's memory afterwards. -/
  sink : Sink

/-- Write the bytes of `source`. The caller's bytes are copied before the guard is
asked for, so a fault in the copy, or a refusal of the guard, stores nothing. -/
def writePlan (trailing : Trailing) (source : Source) (q : Quota) : Plan Store Written :=
  if source.isMissing then .done ⟨.error .invalidArgument, q⟩ []
  else if source.size = 0 then .done ⟨.ok 0, q⟩ []
  else
    let asked := [Record.writing source.size]
    match q.grow source.size with
    | .error s => .done ⟨.error (Cause.shortage s).fault, q⟩ asked
    | .ok q =>
      match source.copy source.size with
      | none => .done ⟨.error Cause.badAddress.fault, q⟩ asked
      | some chunk =>
        .guarded asked ⟨.error Cause.interruption.fault, q⟩ fun store =>
          let fed := store.feed trailing chunk q
          match fed.result with
          | .error s => ⟨⟨.error (Cause.shortage s).fault, fed.quota⟩, fed.store, fed.records⟩
          | .ok n =>
            ⟨⟨.ok n, fed.quota⟩, fed.store,
              fed.records ++ [.accepted n source.size fed.store.describe]⟩

/-- Read at most `count` bytes at `position` into `sink`. One read never goes from
one command into the next. -/
def readPlan (position : Nat) (sink : Sink) (count : Nat) : Plan Store Delivered :=
  if sink.isMissing then .done ⟨.error .invalidArgument, position, sink⟩ []
  else
    let refusal : Delivered := ⟨.error Cause.interruption.fault, position, sink⟩
    .guarded [.reading count position] refusal fun store =>
      match store.excerpt position count with
      | none => ⟨⟨.ok 0, position, sink⟩, store, []⟩
      | some data =>
        match sink.put data with
        | none => ⟨⟨.error Cause.badAddress.fault, position, sink⟩, store, []⟩
        | some sink => ⟨⟨.ok data.length, position + data.length, sink⟩, store, []⟩

/-- Look at the store. -/
def inspectPlan {α : Type} (look : Store → α) : Plan Store (Except Fault α) :=
  .guarded [] (.error Cause.interruption.fault) fun store => ⟨.ok (look store), store, []⟩

/-- A store with its configuration and the numbers of its files. -/
structure Device where
  /-- The choices it was made from. -/
  config : Config
  /-- What the guard protects. -/
  store : Store
  /-- The number of the next file. -/
  handles : Counter

namespace Device

/-- A new device: nothing stored, nothing pending, no file opened. -/
def start (config : Config) (h : config.Valid) : Device := ⟨config, .start config h, .start⟩

/-- A new device, if the configuration is valid. -/
def create (config : Config) : Except Config.LoadError Device :=
  if h : config.Valid then .ok (start config h) else .error .zeroCapacity

/-- The device of the standard configuration. -/
def standard : Device := start .standard Config.valid_standard

/-- Finish a call, given how its request for the guard ended. -/
def perform {ρ : Type} (d : Device) (plan : Plan Store ρ) (admission : Admission) :
    Effect Device ρ :=
  let e := plan.run admission d.store
  ⟨e.answer, { d with store := e.state }, e.records⟩

/-- Write the bytes of `source`. -/
def write (d : Device) (source : Source) (q : Quota) (admission : Admission) :
    Effect Device Written :=
  d.perform (writePlan d.config.trailing source q) admission

/-- Read at most `count` bytes at `position` into `sink`. -/
def read (d : Device) (position : Nat) (sink : Sink) (count : Nat) (admission : Admission) :
    Effect Device Delivered :=
  d.perform (readPlan position sink count) admission

/-- The length of the stream. -/
def logicalLength (d : Device) (admission : Admission) : Effect Device (Except Fault Nat) :=
  d.perform (inspectPlan fun s => Stream.size s.live) admission

/-- The live commands, oldest first. -/
def liveCommands (d : Device) (admission : Admission) :
    Effect Device (Except Fault (List Bytes)) :=
  d.perform (inspectPlan fun s => s.live.map Command.bytes) admission

/-- The number of bytes that wait for a delimiter. -/
def pendingLength (d : Device) (admission : Admission) : Effect Device (Except Fault Nat) :=
  d.perform (inspectPlan fun s => s.pending.length) admission

/-- The offset of byte `within` of live command number `index`. A caller that is
admitted can come upon an overflow there. -/
def commandOffset (d : Device) (index within : Nat) (admission : Admission) :
    Effect Device (Except Fault (Except Overflow (Option Nat))) :=
  d.perform (inspectPlan fun s => Stream.offsetOf s.live index within) admission

/-- Release all that is stored; the device is of no use afterwards. -/
def tearDown (d : Device) : Effect Device Teardown :=
  let (report, store) := d.store.tearDown
  ⟨report, { d with store }, report.records⟩

/-- One line about a device, given whether its guard is taken. -/
def describe (d : Device) (busy : Bool) : String :=
  "CommandLog(config=" ++ d.config.describe ++ ", AccessGuard(busy=" ++ toString busy ++ "))"

end Device

end Spool
