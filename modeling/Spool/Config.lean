/-!
# Configurations

A spool is made from three choices: how many commands it retains, which byte ends
a command, and what a write does with the bytes after the first delimiter. Every
choice has a default. A spool that retains no command is refused.
-/

namespace Spool

/-- What a write does with the bytes that follow the first delimiter of a chunk. -/
inductive Trailing where
  /-- They are left to the caller: the write reports the bytes up to the delimiter. -/
  | discard
  /-- They are taken as well: every command in the chunk is stored and an
  unterminated tail stays pending. -/
  | retain
  deriving DecidableEq, Repr

/-- The choices that make a spool. -/
structure Config where
  /-- How many commands are retained. -/
  capacity : Nat
  /-- The byte that ends a command. -/
  delimiter : UInt8
  /-- What happens to the bytes after a chunk's first delimiter. -/
  trailing : Trailing
  deriving DecidableEq, Repr

namespace Config

/-- Ten commands, ended by a line feed, one command a write. -/
def standard : Config := ⟨10, 10, .discard⟩

/-- A configuration is valid if it retains at least one command. -/
def Valid (c : Config) : Prop := 0 < c.capacity

instance (c : Config) : Decidable c.Valid := inferInstanceAs (Decidable (0 < c.capacity))

theorem valid_standard : standard.Valid := by decide

/-- One line about a configuration. -/
def describe (c : Config) : String :=
  "DeviceConfig \x7b capacity: " ++ toString c.capacity ++
    ", delimiter: " ++ toString c.delimiter.toNat ++
    ", trailing_bytes: " ++ (match c.trailing with | .discard => "Discard" | .retain => "Retain") ++
    " \x7d"

end Config

end Spool
