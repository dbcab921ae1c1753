/-!
# Handles

Every opened file gets a handle of its own. Handles are numbered from 1 by a
64-bit counter that begins again below zero when it runs over.
-/

namespace Spool

/-- The name of an opened file. -/
structure Handle where
  /-- Its number. -/
  id : Int64
  deriving DecidableEq

/-- One line about a handle. -/
def Handle.describe (h : Handle) : String :=
  "Handle \x7b id: " ++ toString h.id.toInt ++ " \x7d"

/-- A counter that hands out numbers. -/
structure Counter where
  /-- The number that comes next. -/
  next : Int64
  deriving DecidableEq

namespace Counter

/-- The counter of a new spool. -/
def start : Counter := ⟨1⟩

/-- Take the next number. -/
def take (c : Counter) : Int64 × Counter := (c.next, ⟨c.next + 1⟩)

/-- Take a handle with the next number. -/
def takeHandle (c : Counter) : Handle × Counter := (⟨c.next⟩, ⟨c.next + 1⟩)

end Counter

end Spool
