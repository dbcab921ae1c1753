/-!
# Blank text

The characters with the Unicode property `White_Space`. A line of blanks alone
ends the commands a user types.
-/

namespace Spool.Text

/-- Whether `c` is white space in Unicode. -/
def isBlank (c : Char) : Bool :=
  let n := c.toNat
  (0x9 ≤ n && n ≤ 0xd) || n == 0x20 || n == 0x85 || n == 0xa0 || n == 0x1680 ||
    (0x2000 ≤ n && n ≤ 0x200a) || n == 0x2028 || n == 0x2029 || n == 0x202f || n == 0x205f ||
    n == 0x3000

end Spool.Text
