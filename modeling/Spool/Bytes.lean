/-!
# Byte strings

Everything a spool stores or passes on is a finite string of bytes. A byte
string is a list, so that concatenation, cutting and counting are those of lists.
-/

namespace Spool

/-- A finite string of bytes. -/
abbrev Bytes := List UInt8

/-- The number of bytes that no buffer can hold: a buffer of this size or more is
never granted, whatever memory is left. -/
def sizeLimit : Nat := 0x7fffffffffffffff

end Spool
