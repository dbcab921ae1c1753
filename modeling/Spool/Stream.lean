import Spool.Command
import Spool.Word

/-!
# The stream of live commands

Readers see the live commands, oldest first, as one stream of bytes, and name a
byte by its offset in it. `locate` finds the command that holds the byte at an
offset and the place inside the command; `offsetOf` goes the other way, from the
number of a command and a place in it to the offset. Offsets are words. `offsetOf`
works out the sum before it looks whether the command is that long, so a place far
past the end of a command can bring about an overflow.
-/

namespace Spool.Stream

/-- The bytes of the stream. -/
def bytes (commands : List Command) : Bytes := commands.flatMap Command.bytes

/-- The length of the stream. -/
def size : List Command → Nat
  | [] => 0
  | c :: rest => c.size + size rest

/-- The command that holds the byte at `offset`, and where in it. There is none
at the end of the stream and past it. -/
def locate : List Command → Nat → Option (Command × Nat)
  | [], _ => none
  | c :: rest, offset => if offset < c.size then some (c, offset) else locate rest (offset - c.size)

/-- The offset of byte `within` of command number `index`, counted from 0. There is
none if there is no such command or if it has no such byte. The sum is worked out
for every command there is, whether or not it has the byte. -/
def offsetOf (commands : List Command) (index within : Nat) : Except Overflow (Option Nat) :=
  match commands[index]? with
  | none => .ok none
  | some c =>
    (addWord (size (commands.take index)) within).map fun offset =>
      if within < c.size then some offset else none

@[simp] theorem size_nil : size [] = 0 := rfl

@[simp] theorem size_cons (c : Command) (rest : List Command) :
    size (c :: rest) = c.size + size rest := rfl

@[simp] theorem size_append (a b : List Command) : size (a ++ b) = size a + size b := by
  induction a with
  | nil => simp
  | cons c rest ih => simp [ih, Nat.add_assoc]

/-- The stream is as long as its bytes. -/
theorem length_bytes (commands : List Command) : (bytes commands).length = size commands := by
  induction commands with
  | nil => rfl
  | cons c rest ih => simp_all [bytes, Command.size]

end Spool.Stream
