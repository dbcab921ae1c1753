import Spool.Config
import Spool.Handle

/-!
# Log records

What a spool reports while it works. A record is kept as the event it stands for;
`Record.level` and `Record.message` give the form in which it is logged.
-/

namespace Spool

/-- How much a record matters. -/
inductive Level where
  /-- A detail. -/
  | trace
  /-- A step of the work. -/
  | debug
  /-- Something a caller should look at. -/
  | warn
  deriving DecidableEq, Repr

/-- The name of a level. -/
def Level.name : Level → String
  | .trace => "TRACE"
  | .debug => "DEBUG"
  | .warn => "WARN"

/-- An event that is logged. -/
inductive Record where
  /-- A spool was made. -/
  | made (config : Config)
  /-- A file was opened. -/
  | opened (handle : Handle)
  /-- A file was released. -/
  | released (handle : Handle)
  /-- A write of `count` bytes was asked for. -/
  | writing (count : Nat)
  /-- A read of `count` bytes at `position` was asked for. -/
  | reading (count position : Nat)
  /-- A write took `accepted` of its `count` bytes and left the store in `state`. -/
  | accepted (accepted count : Nat) (state : String)
  /-- A chunk of `count` bytes without a delimiter was added to the pending
  bytes, which are `pending` many now. -/
  | absorbed (count pending : Nat)
  /-- A chunk had `count` bytes after its first delimiter. -/
  | dropped (count : Nat)
  /-- The oldest command, of `size` bytes, made room for a new one. -/
  | evicted (size : Nat)
  /-- A file moved to `position`. -/
  | sought (handle : Handle) (position : Nat)
  /-- A caller had to wait although its signal was up before. -/
  | waitedRaised
  /-- A caller gave up waiting. -/
  | interrupted
  /-- A teardown released `commands` commands of `size` bytes and `pending`
  pending bytes. -/
  | tornDown (commands size pending : Nat)
  deriving DecidableEq

namespace Record

/-- How much an event matters. -/
def level : Record → Level
  | accepted .. | absorbed .. | sought .. => .trace
  | waitedRaised => .warn
  | _ => .debug

/-- The text of a record. -/
def message : Record → String
  | made config => "cmdlog: init " ++ config.describe
  | opened handle => "open " ++ handle.describe
  | released handle => "release " ++ handle.describe
  | writing count => "write " ++ toString count ++ " bytes"
  | reading count position =>
    "read " ++ toString count ++ " bytes with offset " ++ toString position
  | accepted n count state =>
    "write accepted " ++ toString n ++ " of " ++ toString count ++ " bytes: " ++ state
  | absorbed count pending =>
    "assembler: absorbed " ++ toString count ++ " bytes, pending " ++ toString pending
  | dropped count => "assembler: dropped " ++ toString count ++ " bytes after the delimiter"
  | evicted size => "ring: evicted oldest entry (" ++ toString size ++ " bytes)"
  | sought handle position => handle.describe ++ ": seek to " ++ toString position
  | waitedRaised => "guard: waited with a signal that was already raised"
  | interrupted => "guard: acquisition interrupted"
  | tornDown commands size pending =>
    "cmdlog: released " ++ toString commands ++ " entries (" ++ toString size ++
      " bytes) and " ++ toString pending ++ " pending bytes"

end Record

end Spool
