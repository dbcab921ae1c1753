import Spool.Device

/-!
# Opened files

A `File` is a caller's view on a device: a handle, a position in the stream and a
signal of its own. Reads use the position and move it forward; writes go to the
device and leave it alone. A position may lie past the end of the stream, where
reads find nothing, but it is always a 64-bit word.

Besides single calls there are loops over them: `readExactly` fills a buffer,
`writeAll` submits what was not taken again until all is, `drain` reads to the end.
Each ends at the first fault.
-/

namespace Spool

/-- Where a file is to go. -/
inductive Target where
  /-- To this offset. -/
  | start (offset : Nat)
  /-- This far from the present position. -/
  | current (delta : Int)
  /-- This far from the end of the stream. -/
  | fromEnd (delta : Int)

/-- The offset `delta` away from `base`, if it is a position. -/
def moveBy (base : Nat) (delta : Int) : Option Nat :=
  match delta with
  | .ofNat up => if base + up < wordLimit then some (base + up) else none
  | .negSucc down =>
    if down < base ∧ base - (down + 1) < wordLimit then some (base - (down + 1)) else none

/-- **Moving is exact**: the offset is the integer sum, and there is none just when
the sum is no 64-bit word. -/
theorem moveBy_eq_some_iff {base target : Nat} {delta : Int} :
    moveBy base delta = some target ↔ (target : Int) = base + delta ∧ target < wordLimit := by
  cases delta with
  | ofNat up => simp only [moveBy]; split <;> simp <;> omega
  | negSucc down => simp only [moveBy]; split <;> simp <;> omega

/-- A caller's view on a device. -/
structure File where
  /-- Its name. -/
  handle : Handle
  /-- Its offset in the stream. -/
  position : Nat
  /-- Its signal. -/
  signal : Signal

/-- The end of a loop that fills a buffer. -/
inductive Filling where
  /-- The buffer is full. -/
  | full
  /-- The stream ended first. -/
  | endOfStream
  /-- A read failed. -/
  | failed (fault : Fault)
  deriving DecidableEq

/-- The end of a loop that submits bytes. -/
inductive Submission where
  /-- All bytes were taken. -/
  | complete
  /-- A write took nothing, so that trying again would not end. -/
  | stalled
  /-- A write failed. -/
  | failed (fault : Fault)
  deriving DecidableEq

/-- A byte that marks buffers nothing was read into. -/
def filler : UInt8 := 0xaa

namespace File

/-- Open a file at the beginning of the stream. -/
def openOn (d : Device) : Effect Device File :=
  let (handle, handles) := d.handles.takeHandle
  ⟨⟨handle, 0, .lowered⟩, { d with handles }, [.opened handle]⟩

/-- What is logged when a file is released. The device does not change. -/
def releaseRecords (f : File) : List Record := [.released f.handle]

/-- One line about a file. -/
def describe (f : File) : String :=
  "File(handle=" ++ f.handle.describe ++ ", pos=" ++ toString f.position ++ ", " ++
    f.signal.describe ++ ")"

/-- Read into a buffer at the position, which moves on by the bytes read. -/
def read (f : File) (d : Device) (buffer : Bytes) (admission : Admission) :
    Effect (File × Device) (Except Fault Nat × Bytes) :=
  let e := d.read f.position (.memory buffer) buffer.length admission
  ⟨(e.answer.result, e.answer.sink.contents), ({ f with position := e.answer.position }, e.state),
    e.records⟩

/-- Write bytes to the device. -/
def write (f : File) (d : Device) (bytes : Bytes) (q : Quota) (admission : Admission) :
    Effect (File × Device) Written :=
  let e := d.write (.memory bytes) q admission
  ⟨e.answer, (f, e.state), e.records⟩

/-- Go to an offset that was worked out. -/
def settle (f : File) (d : Device) (target : Option Nat) (records : Nat → List Record) :
    Effect (File × Device) (Except Fault Nat) :=
  match target with
  | some position => ⟨.ok position, ({ f with position }, d), records position⟩
  | none => ⟨.error .invalidArgument, (f, d), []⟩

/-- Move to a target; only a target counted from the end needs the guard. -/
def seek (f : File) (d : Device) (target : Target) (admission : Admission) :
    Effect (File × Device) (Except Fault Nat) :=
  let records := fun position => [Record.sought f.handle position]
  match target with
  | .start offset => f.settle d (some offset) records
  | .current delta => f.settle d (moveBy f.position delta) records
  | .fromEnd delta =>
    let e := d.logicalLength admission
    match e.answer with
    | .error fault => ⟨.error fault, (f, e.state), e.records⟩
    | .ok length =>
      let moved := f.settle e.state (moveBy length delta) records
      { moved with records := e.records ++ moved.records }

/-- Move to byte `within` of live command number `index`. An overflow moves
nothing. -/
def seekToCommand (f : File) (d : Device) (index within : Nat) (admission : Admission) :
    Effect (File × Device) (Except Overflow (Except Fault Nat)) :=
  let e := d.commandOffset index within admission
  match e.answer with
  | .error fault => ⟨.ok (.error fault), (f, e.state), e.records⟩
  | .ok (.error overflow) => ⟨.error overflow, (f, e.state), e.records⟩
  | .ok (.ok target) =>
    let moved := f.settle e.state target fun _ => []
    ⟨.ok moved.answer, moved.state, e.records ++ moved.records⟩

/-! ### Loops over single calls -/

/-- Read until `buffer` is full. The bytes read are kept also when the stream ends
or a read fails. -/
def readExactly (f : File) (d : Device) (buffer : Bytes) (admission : Admission) :
    Effect (File × Device) (Filling × Bytes) :=
  if buffer = [] then ⟨(.full, []), (f, d), []⟩
  else
    let e := f.read d buffer admission
    let (result, bytes) := e.answer
    match result with
    | .error fault => ⟨(.failed fault, bytes), e.state, e.records⟩
    | .ok n =>
      if 0 < n then
        let more := readExactly e.state.1 e.state.2 (buffer.drop n) admission
        ⟨(more.answer.1, bytes.take n ++ more.answer.2), more.state, e.records ++ more.records⟩
      else ⟨(.endOfStream, bytes), e.state, e.records⟩
termination_by buffer.length
decreasing_by
  have := List.length_pos_iff.mpr ‹buffer ≠ []›
  simp only [List.length_drop]
  omega

/-- How a loop of writes went. -/
structure Submitted where
  /-- How it ended. -/
  outcome : Submission
  /-- How many writes it made. -/
  writes : Nat
  /-- The memory left. -/
  quota : Quota

/-- Write until all bytes are taken. -/
def writeAll (f : File) (d : Device) (bytes : Bytes) (q : Quota) (admission : Admission) :
    Effect (File × Device) Submitted :=
  if bytes = [] then ⟨⟨.complete, 0, q⟩, (f, d), []⟩
  else
    let e := f.write d bytes q admission
    match e.answer.result with
    | .error fault => ⟨⟨.failed fault, 1, e.answer.quota⟩, e.state, e.records⟩
    | .ok n =>
      if 0 < n then
        let more := writeAll e.state.1 e.state.2 (bytes.drop n) e.answer.quota admission
        ⟨{ more.answer with writes := more.answer.writes + 1 }, more.state,
          e.records ++ more.records⟩
      else ⟨⟨.stalled, 1, e.answer.quota⟩, e.state, e.records⟩
termination_by bytes.length
decreasing_by
  have := List.length_pos_iff.mpr ‹bytes ≠ []›
  simp only [List.length_drop]
  omega

/-- Read with a buffer of `size` bytes until a read finds nothing, making at most
`reads` reads: the pieces that were read. -/
def drainWithin (reads : Nat) (f : File) (d : Device) (size : Nat) (admission : Admission) :
    Effect (File × Device) (Except Fault (List Bytes)) :=
  match reads with
  | 0 => ⟨.ok [], (f, d), []⟩
  | reads + 1 =>
    let e := f.read d (List.replicate size filler) admission
    let (result, bytes) := e.answer
    match result with
    | .error fault => ⟨.error fault, e.state, e.records⟩
    | .ok n =>
      if n = 0 then ⟨.ok [], e.state, e.records⟩
      else
        let more := drainWithin reads e.state.1 e.state.2 size admission
        ⟨more.answer.map (bytes.take n :: ·), more.state, e.records ++ more.records⟩

/-- Read to the end of the stream. Every read but the last takes at least one byte
of the stream, which bounds their number. -/
def drain (f : File) (d : Device) (size : Nat) (admission : Admission) :
    Effect (File × Device) (Except Fault (List Bytes)) :=
  drainWithin (Stream.size d.store.live + 1) f d size admission

end File

end Spool
