import Spool.Bytes

/-!
# Reading bytes as characters

`decode` reads a byte string as UTF-8, one byte at a time. It gives one item for
every character and one item, `none`, for every maximal run of bytes that begins
a character and cannot be continued to one; a byte that begins no character is
such a run by itself. Text that has to be well formed is read by `ofBytes?`, text
that is only shown by `lossy`, which puts U+FFFD in place of every bad run.
-/

namespace Spool.Text

/-- A character of which the first bytes have been read. -/
structure Unfinished where
  /-- The bits read so far. -/
  value : Nat
  /-- How many bytes are missing after the next one. -/
  missing : Nat
  /-- The least byte that can come next. -/
  low : UInt8
  /-- The greatest byte that can come next. -/
  high : UInt8

/-- Read a byte that stands at the beginning of a character: the items it
finishes and the character it begins. -/
def begin (b : UInt8) : List (Option Char) × Option Unfinished :=
  let n := b.toNat
  if n < 0x80 then ([some (Char.ofNat n)], none)
  else if n < 0xc2 then ([none], none)
  else if n < 0xe0 then ([], some ⟨n - 0xc0, 0, 0x80, 0xbf⟩)
  else if n = 0xe0 then ([], some ⟨0, 1, 0xa0, 0xbf⟩)
  else if n = 0xed then ([], some ⟨0xd, 1, 0x80, 0x9f⟩)
  else if n < 0xf0 then ([], some ⟨n - 0xe0, 1, 0x80, 0xbf⟩)
  else if n = 0xf0 then ([], some ⟨0, 2, 0x90, 0xbf⟩)
  else if n < 0xf4 then ([], some ⟨n - 0xf0, 2, 0x80, 0xbf⟩)
  else if n = 0xf4 then ([], some ⟨4, 2, 0x80, 0x8f⟩)
  else ([none], none)

/-- Read a byte inside a character. A byte that cannot continue it ends a bad run
and is read again as the beginning of a character. -/
def Unfinished.next (u : Unfinished) (b : UInt8) : List (Option Char) × Option Unfinished :=
  if u.low ≤ b ∧ b ≤ u.high then
    let value := u.value * 64 + (b.toNat - 0x80)
    match u.missing with
    | 0 => ([some (Char.ofNat value)], none)
    | missing + 1 => ([], some ⟨value, missing, 0x80, 0xbf⟩)
  else
    let (items, unfinished) := begin b
    (none :: items, unfinished)

/-- Read the rest of a byte string, given the character that is unfinished. -/
def decodeFrom : Option Unfinished → Bytes → List (Option Char)
  | none, [] => []
  | some _, [] => [none]
  | none, b :: rest => (begin b).1 ++ decodeFrom (begin b).2 rest
  | some u, b :: rest => (u.next b).1 ++ decodeFrom (u.next b).2 rest

/-- The characters and bad runs of a byte string, in order. -/
def decode (bytes : Bytes) : List (Option Char) := decodeFrom none bytes

/-- The characters of a byte string that is well formed throughout. -/
def ofBytes? (bytes : Bytes) : Option (List Char) := (decode bytes).mapM id

/-- The text of a byte string, with U+FFFD for every bad run. -/
def lossy (bytes : Bytes) : List Char := (decode bytes).map (·.getD '\ufffd')

/-- The bytes of a text. -/
def toBytes (text : List Char) : Bytes := text.flatMap String.utf8EncodeChar

end Spool.Text
