import Spool.Text.Unprintable
import Spool.Text.Extending

/-!
# Quoted text

Reports show strings between double quotes and single characters between single
quotes. Inside, the quote in use and the backslash are escaped by a backslash,
the common controls have short escapes, and every other character that would not
be seen as itself is written as its code in hexadecimal between braces.
-/

namespace Spool.Text

/-- The code of `c` in lower-case hexadecimal without leading zeros. -/
def hexOf (c : Char) : String := String.ofList (Nat.toDigits 16 c.toNat)

/-- The character `c` as it stands between two characters `quote`. -/
def escape (quote c : Char) : String :=
  if c = '\x00' then "\\0"
  else if c = '\t' then "\\t"
  else if c = '\r' then "\\r"
  else if c = '\n' then "\\n"
  else if c = '\\' ∨ c = quote then String.ofList ['\\', c]
  else if isExtending c || isUnprintable c then "\\u\x7b" ++ hexOf c ++ "\x7d"
  else String.singleton c

/-- A string between double quotes. -/
def quoted (text : List Char) : String :=
  "\"" ++ String.join (text.map (escape '"')) ++ "\""

/-- A character between single quotes. -/
def quotedChar (c : Char) : String := "'" ++ escape '\'' c ++ "'"

end Spool.Text
