import Spool.Config.Reader
import Spool.File
import Spool.Segments
import Spool.Text.Blank
import Spool.Text.Utf8

/-!
# The console

A user at a console types commands, one to a line, and is then shown what the device
has kept of them. A `Conversation` is how far this has come. It hears one line after
another; a line of blanks ends it, and so does the end of the input, but a line that
is not UTF-8 breaks it off, and then nothing is shown.

There is no conversation if there is no device: a configuration that cannot be had or is
not valid is refused, and one with more slots than any memory has room for brings the
program down before it says anything (`Failure`).

Each command is stored with the delimiter of the device after it, through a file of
its own. A device with another delimiter than a line feed shows its commands without
line ends, and one whose delimiter is not ASCII shows U+FFFD in their place.
-/

namespace Spool.Console

/-! ### Lines -/

/-- The byte that ends a line. -/
def lineFeed : UInt8 := 0x0a

/-- The byte that may stand before a line feed. -/
def carriageReturn : UInt8 := 0x0d

/-- Take `b` off the end of a byte string, if it ends in it. -/
def chop (b : UInt8) (bytes : Bytes) : Option Bytes :=
  if bytes.getLast? = some b then some bytes.dropLast else none

/-- A line without its end: the line feed and one carriage return before it. A
carriage return without a line feed belongs to the line. -/
def content (line : Bytes) : Bytes :=
  match chop lineFeed line with
  | none => line
  | some text => (chop carriageReturn text).getD text

/-- What a line says. -/
inductive Line where
  /-- Store this. -/
  | command (bytes : Bytes)
  /-- Nothing: the user is done. -/
  | blank
  /-- The line is not UTF-8. -/
  | garbled
  deriving DecidableEq

/-- Understand a line. -/
def Line.read (line : Bytes) : Line :=
  match Text.ofBytes? (content line) with
  | none => .garbled
  | some text => if text.all Text.isBlank then .blank else .command (content line)

/-! ### Storing and showing -/

/-- Store a command with the delimiter after it. A write that fails leaves what was
stored before it, and the user can go on. -/
def enter (d : Device) (command : Bytes) : Device :=
  let opened := File.openOn d
  let written := opened.answer.writeAll opened.state (command ++ [d.config.delimiter])
    .unlimited .granted
  written.state.2

/-- The number of bytes that are read at a time. -/
def readSize : Nat := 16

/-- All that is stored, read through a new file. -/
def stored (d : Device) : Except Fault Bytes :=
  let opened := File.openOn d
  (opened.answer.drain opened.state readSize .granted).answer.map List.flatten

/-! ### Conversations -/

/-- How far a conversation has come. -/
inductive Conversation where
  /-- The user is typing. -/
  | typing (d : Device)
  /-- The user is done. -/
  | ended (d : Device)
  /-- A line could not be read. -/
  | broken

/-- How a conversation ended. -/
structure Closing where
  /-- Zero if all went well. -/
  status : Nat
  /-- What the user is shown. -/
  output : String
  deriving DecidableEq, Repr

namespace Conversation

/-- Hear one more line. A conversation that has ended hears nothing. -/
def hear : Conversation → Bytes → Conversation
  | typing d, line =>
    match Line.read line with
    | .command bytes => typing (enter d bytes)
    | .blank => ended d
    | .garbled => broken
  | ended d, _ => ended d
  | broken, _ => broken

/-- End a conversation, and show what is stored unless it broke off. -/
def close : Conversation → Closing
  | typing d | ended d =>
    match stored d with
    | .ok bytes => ⟨0, String.ofList (Text.lossy bytes)⟩
    | .error _ => ⟨1, ""⟩
  | broken => ⟨1, ""⟩

end Conversation

/-- What the user is told first. -/
def prompt : String := "Enter commands (empty line to quit):\n"

/-- Where the configuration comes from. -/
inductive Setup where
  /-- The user named no file. -/
  | standard
  /-- The user named a file that holds these bytes. -/
  | file (bytes : Bytes)
  /-- The user named a file that cannot be read. -/
  | unreadable

/-- The configuration of a setup. A file has to be UTF-8 throughout. -/
def Setup.config : Setup → Except Config.LoadError Config
  | standard => .ok .standard
  | file bytes =>
    match Text.ofBytes? bytes with
    | none => .error (.read "not UTF-8")
    | some text => Config.loadText text
  | unreadable => .error (.read "no such file")

/-- Why there is no device to talk to. -/
inductive Failure where
  /-- The configuration is refused, which the user is told. -/
  | refused (e : Config.LoadError)
  /-- The slots of the ring have no room in any memory, which brings the program down. -/
  | noRoom

namespace Failure

/-- The status of the program that fails. -/
def status : Failure → Nat
  | refused _ => 1
  | noRoom => 101

/-- The text that reports a failure. -/
def message : Failure → String
  | refused e => e.message
  | noRoom => "capacity overflow"

end Failure

/-- The device of a setup. Its ring is laid out as a whole when it is made. No configuration
is refused for having too many slots, so it is only here that they find no room. -/
def Setup.device (setup : Setup) : Except Failure Device :=
  match setup.config with
  | .error e => .error (.refused e)
  | .ok config =>
    if config.capacity < slotLimit then (Device.create config).mapError .refused
    else .error .noRoom

/-- A whole conversation with a user who types `input`. Nothing is said if there is
no device. -/
def converse (setup : Setup) (input : Bytes) : Closing :=
  match setup.device with
  | .error failure => ⟨failure.status, ""⟩
  | .ok d =>
    let closing := ((segments lineFeed input).foldl Conversation.hear (.typing d)).close
    { closing with output := prompt ++ closing.output }

/-- The lines after the end of a conversation make no difference. -/
theorem foldl_hear_ended (d : Device) (more : List Bytes) :
    more.foldl Conversation.hear (.ended d) = .ended d := by
  induction more with
  | nil => rfl
  | cons line more ih => exact ih

end Spool.Console
