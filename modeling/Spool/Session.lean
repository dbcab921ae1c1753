import Spool.File

/-!
# Sessions

A `Session` is one device in use: the files opened on it, numbered in the order
they were opened, the signals its callers go by, and the log so far. `Session.step`
carries out one `Request`.

Requests are served one after another, so the guard is free when one comes. The
exception is `Request.heldRead`, a read whose caller does other things in the
middle of it, while the read holds the guard. Then every request that asks for the
guard has to wait, its caller's signal is raised to end the wait, and it is turned
away; a request that does not ask for the guard is carried out as always. One more
write can be left waiting; it is served when the read has ended.

A request on a file that is not open cannot be carried out, and neither can one that
means nothing. This is no answer of the device: `step` gives nothing then. While a
read holds the guard, such a request raises its caller's signal like any other.
Which signal that is, is settled before the request is carried out: a file that is
released takes its signal with it, and a file that is opened was not there yet.

The offset of a byte can be no word. The session does not go on then, and
`Answer.overflow` is the last that is heard of it.
-/

namespace Spool

/-- Who makes a request, as far as it matters for signals. -/
structure Caller where
  /-- The name of a signal. -/
  signal : Option String
  /-- The number of a file. An open file's own signal counts before a named one. -/
  file : Option Nat
  deriving Inhabited

/-- Calls on an opened file. -/
inductive FileCall where
  /-- Read into a buffer of `size` bytes. -/
  | read (size : Nat)
  /-- Write bytes once. -/
  | write (bytes : Bytes) (quota : Quota)
  /-- Move. -/
  | seek (target : Target)
  /-- Move to a byte of a live command. -/
  | seekToCommand (index within : Nat)
  /-- Ask for the position. -/
  | tell
  /-- Ask for the number of the handle. -/
  | handle
  /-- Ask for one line about the file. -/
  | describe
  /-- Fill a buffer of `size` bytes. -/
  | readExactly (size : Nat)
  /-- Write until all bytes are taken. -/
  | writeAll (bytes : Bytes) (quota : Quota)
  /-- Have all writes done. They are done at once, so nothing is left to do. -/
  | flush
  /-- Move to the beginning. -/
  | rewind
  /-- Ask for the position by moving nowhere. -/
  | position
  /-- Read to the end with a buffer of `size` bytes. -/
  | drain (size : Nat)

/-- What can be asked of a session. -/
inductive Request where
  /-- Write to the device. -/
  | write (source : Source) (quota : Quota)
  /-- Read from the device. -/
  | read (position count : Nat) (sink : Sink)
  /-- Ask for the length of the stream. -/
  | logicalLength
  /-- Ask for the number of bytes that wait for a delimiter. -/
  | pendingLength
  /-- Ask for the live commands. -/
  | liveCommands
  /-- Ask for the offset of a byte of a live command. -/
  | commandOffset (index within : Nat)
  /-- Ask for the configuration. -/
  | config
  /-- Ask for one line about the device. -/
  | describe
  /-- Raise the caller's signal. -/
  | raise
  /-- Lower the caller's signal. -/
  | lower
  /-- Ask whether the caller's signal is raised. -/
  | isRaised
  /-- Ask for one line about the caller's signal. -/
  | describeSignal
  /-- Open a file. -/
  | openFile
  /-- Release a file. -/
  | release (file : Nat)
  /-- Make a call on an open file. -/
  | onFile (file : Nat) (call : FileCall)
  /-- Read, and while the read holds the guard carry out the requests `inner` and
  let one more write wait. The read's memory faults if `fault` holds. -/
  | heldRead (position count : Nat) (inner : List (Caller × Request))
      (waiting : Option (Source × Quota)) (fault : Bool)
  /-- Ask for something that means nothing. -/
  | meaningless
  deriving Inhabited

/-- What a request comes to. -/
inductive Answer where
  /-- It is done. -/
  | done
  /-- A number. -/
  | number (n : Int)
  /-- A number, if there is one. -/
  | offset (n : Option Nat)
  /-- Yes or no. -/
  | truth (b : Bool)
  /-- A line of text. -/
  | text (t : String)
  /-- Byte strings, in order. -/
  | pieces (l : List Bytes)
  /-- A configuration. -/
  | config (c : Config)
  /-- It failed. -/
  | fault (f : Fault)
  /-- The stream ended before a buffer was full. -/
  | endOfStream
  /-- A write took nothing of what it was given. -/
  | stalled
  /-- An offset was no word. The session is over. -/
  | overflow (o : Overflow)
  deriving DecidableEq

/-- The answer to a request, with what the caller can see besides. -/
structure Reply where
  /-- The answer. -/
  answer : Answer
  /-- The caller's position, if it passed one. -/
  position : Option Nat
  /-- The caller's buffer, if it passed one. -/
  buffer : Option Bytes
  /-- The position of the file, if one was used. -/
  tell : Option Nat
  deriving DecidableEq

/-- What came of a request. -/
inductive Outcome where
  /-- A reply. -/
  | reply (r : Reply)
  /-- The reply to a read that was held: its own reply, what came of the inner
  requests (nothing if the read never came to them), the bytes it took, and the
  reply to the write that waited. -/
  | held (read : Reply) (inner : Option (List (Option Outcome))) (taken : Bytes)
      (waiting : Option Reply)

/-- Whether a request leaves the signal of its caller alone when it comes while the
guard is taken: those that use the signal, and those that only describe. -/
def Request.sparesSignal : Request → Bool
  | .raise | .lower | .isRaised | .describeSignal | .describe | .onFile _ .describe => true
  | _ => false

/-- A result as an answer. -/
def Answer.ofResult {α : Type} (ok : α → Answer) : Except Fault α → Answer
  | .ok a => ok a
  | .error f => .fault f

/-- What was worked out, or the overflow that came instead, as an answer. -/
def Answer.ofWord {α : Type} (ok : α → Answer) : Except Overflow α → Answer
  | .ok a => ok a
  | .error o => .overflow o

/-- An answer with nothing besides. -/
def Reply.bare (answer : Answer) : Reply := ⟨answer, none, none, none⟩

/-- The overflow that ended the session, if one did. -/
def Outcome.overflow? : Outcome → Option Overflow
  | .reply ⟨.overflow o, _, _, _⟩ => some o
  | _ => none

/-- Whose a signal is. -/
inductive Owner where
  /-- It is the signal of the file with this number. -/
  | file (index : Nat)
  /-- It goes by this name. -/
  | name (name : String)
  /-- Only the caller knows it. -/
  | caller

/-- One device in use. -/
structure Session where
  /-- The device. -/
  device : Device
  /-- The files opened so far; those that were released are gone. -/
  files : List (Option File)
  /-- The signals that were named so far. -/
  signals : List (String × Signal)
  /-- What was logged so far. -/
  log : List Record

namespace Session

/-- A session with a device that is in use already. -/
def resume (device : Device) : Session := ⟨device, [], [], []⟩

/-- A session with a new device, which is logged. -/
def create (config : Config) : Except Config.LoadError Session :=
  match Device.create config with
  | .ok device => .ok { resume device with log := [.made config] }
  | .error e => .error e

/-- The open file with this number. -/
def file? (s : Session) (index : Nat) : Option File := (s.files[index]?).join

/-- Whose signal a caller goes by: that of its open file, else the one it names, else
one of its own. -/
def ownerOf (s : Session) (caller : Caller) : Owner :=
  match caller.file.filter (fun index => (s.file? index).isSome), caller.signal with
  | some index, _ => .file index
  | none, some name => .name name
  | none, none => .caller

/-- The signal of an owner. One that was never raised is down. -/
def signal (s : Session) : Owner → Signal
  | .file index => ((s.file? index).map File.signal).getD .lowered
  | .name name => (s.signals.lookup name).getD .lowered
  | .caller => .lowered

/-- The session with the signal of an owner set. Nobody sees the signal of a file
that is gone, nor one that only its caller knows. -/
def setSignal (s : Session) (signal : Signal) : Owner → Session
  | .file index =>
    { s with files := s.files.modify index fun file => file.map fun f => { f with signal } }
  | .name name => { s with signals := (name, signal) :: s.signals }
  | .caller => s

/-- The session after a piece of work on the device. -/
def after {ρ : Type} (s : Session) (e : Effect Device ρ) : Session :=
  { s with device := e.state, log := s.log ++ e.records }

/-- The session after a piece of work on the file `index`. -/
def afterFile {ρ : Type} (s : Session) (index : Nat) (e : Effect (File × Device) ρ) : Session :=
  { s with
    device := e.state.2
    files := s.files.set index (some e.state.1)
    log := s.log ++ e.records }

/-- Make a call on the open file `file`, which has the number `index`. -/
def callFile (s : Session) (admission : Admission) (index : Nat) (file : File)
    (call : FileCall) : Reply × Session :=
  let d := s.device
  let blank (size : Nat) : Bytes := List.replicate size filler
  /- The reply to work on the file that leaves `buffer`. -/
  let finish {ρ : Type} (e : Effect (File × Device) ρ) (answer : Answer) (buffer : Option Bytes) :
      Reply × Session :=
    (⟨answer, none, buffer, some e.state.1.position⟩, s.afterFile index e)
  let tell (answer : Answer) : Reply × Session :=
    (⟨answer, none, none, some file.position⟩, s)
  match call with
  | .read size =>
    let e := file.read d (blank size) admission
    finish e (.ofResult (.number ·) e.answer.1) (some e.answer.2)
  | .write bytes quota =>
    let e := file.write d bytes quota admission
    finish e (.ofResult (.number ·) e.answer.result) none
  | .seek target =>
    let e := file.seek d target admission
    finish e (.ofResult (.number ·) e.answer) none
  | .seekToCommand i within =>
    let e := file.seekToCommand d i within admission
    finish e (.ofWord (.ofResult fun n : Nat => .number n) e.answer) none
  | .tell => tell (.number file.position)
  | .handle => tell (.number file.handle.id.toInt)
  | .describe => tell (.text file.describe)
  | .readExactly size =>
    let e := file.readExactly d (blank size) admission
    let answer := match e.answer.1 with
      | .full => Answer.done
      | .endOfStream => .endOfStream
      | .failed fault => .fault fault
    finish e answer (some e.answer.2)
  | .writeAll bytes quota =>
    let e := file.writeAll d bytes quota admission
    let answer := match e.answer.outcome with
      | .complete => Answer.done
      | .stalled => .stalled
      | .failed fault => .fault fault
    finish e answer none
  | .flush => tell .done
  | .rewind =>
    let e := file.seek d (.start 0) admission
    finish e (.ofResult (fun _ => .done) e.answer) none
  | .position =>
    let e := file.seek d (.current 0) admission
    finish e (.ofResult (.number ·) e.answer) none
  | .drain size =>
    let e := file.drain d size admission
    finish e (.ofResult .pieces e.answer) none

/-- Carry out a request, given whether the guard is taken and how a request for it
would end. -/
def serve (s : Session) (busy : Bool) (admission : Admission) (caller : Caller) :
    Request → Option (Outcome × Session)
  | .write source quota =>
    let e := s.device.write source quota admission
    some (.reply (.bare (.ofResult (.number ·) e.answer.result)), s.after e)
  | .read position count sink =>
    let e := s.device.read position sink count admission
    some (.reply ⟨.ofResult (.number ·) e.answer.result, some e.answer.position,
      some e.answer.sink.contents, none⟩, s.after e)
  | .logicalLength =>
    let e := s.device.logicalLength admission
    some (.reply (.bare (.ofResult (.number ·) e.answer)), s.after e)
  | .pendingLength =>
    let e := s.device.pendingLength admission
    some (.reply (.bare (.ofResult (.number ·) e.answer)), s.after e)
  | .liveCommands =>
    let e := s.device.liveCommands admission
    some (.reply (.bare (.ofResult .pieces e.answer)), s.after e)
  | .commandOffset index within =>
    let e := s.device.commandOffset index within admission
    some (.reply (.bare (.ofResult (.ofWord .offset) e.answer)), s.after e)
  | .config => some (.reply (.bare (.config s.device.config)), s)
  | .describe => some (.reply (.bare (.text (s.device.describe busy))), s)
  | .raise => some (.reply (.bare .done), s.setSignal ⟨true⟩ (s.ownerOf caller))
  | .lower => some (.reply (.bare .done), s.setSignal ⟨false⟩ (s.ownerOf caller))
  | .isRaised => some (.reply (.bare (.truth (s.signal (s.ownerOf caller)).raised)), s)
  | .describeSignal => some (.reply (.bare (.text (s.signal (s.ownerOf caller)).describe)), s)
  | .openFile =>
    let e := File.openOn s.device
    some (.reply (.bare (.number e.answer.handle.id.toInt)),
      { s.after e with files := s.files ++ [some e.answer] })
  | .release index =>
    (s.file? index).map fun file =>
      (.reply (.bare .done),
        { s with files := s.files.set index none, log := s.log ++ file.releaseRecords })
  | .onFile index call =>
    (s.file? index).map fun file =>
      let (reply, s) := s.callFile admission index file call
      (.reply reply, s)
  | .heldRead .. | .meaningless => none

/-- Carry out a request while a read holds the guard. The signal that is raised is the
one the caller went by when the request came. -/
def interrupt (s : Session) (caller : Caller) (request : Request) : Option Outcome × Session :=
  let owner := s.ownerOf caller
  let admission := Admission.refused (s.signal owner).raised
  let result : Option (Outcome × Session) :=
    match request with
    | .heldRead position count .. =>
      let e := s.device.read position (.memory []) count admission
      some (.held ⟨.ofResult (.number ·) e.answer.result, some e.answer.position, none, none⟩
        none [] none, s.after e)
    | other => s.serve true admission caller other
  let after := (result.map Prod.snd).getD s
  (result.map Prod.fst,
    if request.sparesSignal then after else after.setSignal ⟨true⟩ owner)

/-- Carry out requests one after another while a read holds the guard. -/
def interruptAll (s : Session) : List (Caller × Request) → List (Option Outcome) × Session
  | [] => ([], s)
  | (caller, request) :: rest =>
    let (outcome, s) := s.interrupt caller request
    let (outcomes, s) := interruptAll s rest
    (outcome :: outcomes, s)

/-- Read, with other requests coming while the read holds the guard. -/
def hold (s : Session) (position count : Nat) (inner : List (Caller × Request))
    (waiting : Option (Source × Quota)) (fault : Bool) : Outcome × Session :=
  let found := s.device.store.excerpt position count
  let sink := if fault then Sink.faulty
    else .memory (List.replicate (found.getD []).length filler)
  let e := s.device.read position sink count .granted
  let read : Reply :=
    ⟨.ofResult (.number ·) e.answer.result, some e.answer.position, none, none⟩
  let s := s.after e
  if found.isNone then (.held read none [] none, s)
  else
    let (outcomes, s) := s.interruptAll inner
    let taken := e.answer.sink.contents
    match waiting with
    | none => (.held read (some outcomes) taken none, s)
    | some (source, quota) =>
      let w := s.device.write source quota .granted
      (.held read (some outcomes) taken (some (.bare (.ofResult (.number ·) w.answer.result))),
        s.after w)

/-- Carry out a request. -/
def step (s : Session) (caller : Caller) (request : Request) : Option (Outcome × Session) :=
  match request with
  | .heldRead position count inner waiting fault =>
    some (s.hold position count inner waiting fault)
  | other => s.serve false .granted caller other

/-- Release all files and what the device stores. -/
def shutDown (s : Session) : Teardown × Session :=
  let e := s.device.tearDown
  (e.answer, { s.after e with files := s.files.map fun _ => none })

end Session

end Spool
