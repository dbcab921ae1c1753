import Spool.Quota
import Spool.Text.Quoted
import Spool.Text.Utf8

/-!
# Commands and pending bytes

A `Command` is a byte string that has been completed by its delimiter, so it is
never empty. `Pending` holds the bytes of a command whose delimiter has not come
yet. Bytes enter a pending buffer by `append` and leave it by `complete`, which
turns all of them and one last piece into a command, or by `clear`. Both ways in
need memory; when it is refused, the buffer stays as it was.
-/

namespace Spool

/-- A completed command. -/
structure Command where
  /-- The bytes, the delimiter included. -/
  bytes : Bytes
  /-- A command holds at least its delimiter. -/
  bytes_ne_nil : bytes ≠ []
  deriving DecidableEq

namespace Command

/-- The number of bytes of a command. -/
def size (c : Command) : Nat := c.bytes.length

/-- A command is at least one byte long. -/
theorem size_pos (c : Command) : 0 < c.size := List.length_pos_iff.mpr c.bytes_ne_nil

/-- Two commands with the same bytes are the same. -/
@[ext] theorem ext {a b : Command} (h : a.bytes = b.bytes) : a = b := by
  cases a; cases b; cases h; rfl

/-- A command of one byte. -/
def single (b : UInt8) : Command := ⟨[b], by simp⟩

/-- The command `c` with the bytes `front` put before it. -/
def prepend (front : Bytes) (c : Command) : Command :=
  ⟨front ++ c.bytes, by simp [c.bytes_ne_nil]⟩

/-- The bytes of a command as a command, if there are any. -/
def ofBytes? (bytes : Bytes) : Option Command :=
  if h : bytes ≠ [] then some ⟨bytes, h⟩ else none

/-- One line about a command: its length and its text. -/
def describe (c : Command) : String :=
  "Entry(len=" ++ toString c.size ++ ", " ++ Text.quoted (Text.lossy c.bytes) ++ ")"

@[simp] theorem bytes_single (b : UInt8) : (single b).bytes = [b] := rfl

@[simp] theorem bytes_prepend (front : Bytes) (c : Command) :
    (prepend front c).bytes = front ++ c.bytes := rfl

end Command

/-- The bytes of a command that still waits for its delimiter. -/
structure Pending where
  /-- The bytes, in the order they came. -/
  bytes : Bytes
  deriving DecidableEq

namespace Pending

/-- No bytes. -/
def empty : Pending := ⟨[]⟩

/-- The number of bytes that wait. -/
def size (p : Pending) : Nat := p.bytes.length

/-- Put `data` at the end. -/
def append (p : Pending) (data : Bytes) (q : Quota) : Except Shortage (Pending × Quota) :=
  match q.grow data.length with
  | .ok left => .ok (⟨p.bytes ++ data⟩, left)
  | .error s => .error s

/-- Finish the command with `tail`; nothing waits afterwards. -/
def complete (p : Pending) (tail : Command) (q : Quota) : Except Shortage (Command × Quota) :=
  match q.grow tail.size with
  | .ok left => .ok (tail.prepend p.bytes, left)
  | .error s => .error s

/-- Release the bytes: how many there were. -/
def clear (p : Pending) : Nat × Pending := (p.size, empty)

/-- One line about the bytes that wait. -/
def describe (p : Pending) : String := "PendingBuffer(len=" ++ toString p.size ++ ")"

end Pending

end Spool
