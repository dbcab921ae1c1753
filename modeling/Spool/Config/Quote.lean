import Spool.Config.Error
import Spool.Text.Utf8

/-!
# Strings in a configuration

A string stands between double quotes. A backslash begins an escape: one letter
for a common character, or `u` and four hexadecimal digits for a code. Codes above
U+FFFF are given by two escapes in a row, a leading and a trailing surrogate, and
surrogates stand nowhere else.

`scanString` reads a string byte by byte, `Place` being where it is: inside the
plain text or part of the way through an escape. `readString` goes on to the text that
these bytes are. In a medium of which nothing is known they are first checked, at the
closing quote, to be UTF-8; in one that is text throughout they are taken for it.
-/

namespace Spool.Config

/-- Where in a string the next byte stands. -/
inductive Place where
  /-- In the plain text. -/
  | plain
  /-- After a backslash. -/
  | escape
  /-- After `u` and the bytes `digits` of a code, with the leading surrogate `high`
  before it if there was one. -/
  | code (high : Option Nat) (digits : Bytes)
  /-- After a leading surrogate. -/
  | paired (high : Nat)
  /-- After a leading surrogate and a backslash. -/
  | pairedEscape (high : Nat)

/-- The character that a one-letter escape stands for. -/
def simpleEscape (b : UInt8) : Option UInt8 :=
  if b = 0x22 ∨ b = 0x5c ∨ b = 0x2f then some b
  else if b = 0x62 then some 0x08
  else if b = 0x66 then some 0x0c
  else if b = 0x6e then some 0x0a
  else if b = 0x72 then some 0x0d
  else if b = 0x74 then some 0x09
  else none

/-- The value of a hexadecimal digit. -/
def hexValue (b : UInt8) : Option Nat :=
  let n := b.toNat
  if 0x30 ≤ n ∧ n ≤ 0x39 then some (n - 0x30)
  else if 0x61 ≤ n ∧ n ≤ 0x66 then some (n - 0x61 + 10)
  else if 0x41 ≤ n ∧ n ≤ 0x46 then some (n - 0x41 + 10)
  else none

/-- The value of hexadecimal digits, the highest first. -/
def codeValue (digits : Bytes) : Option Nat :=
  digits.foldl (fun acc b => acc.bind fun n => (hexValue b).map (n * 16 + ·)) (some 0)

/-- Whether a code is a leading surrogate. -/
def isLeading (n : Nat) : Bool := 0xd800 ≤ n && n ≤ 0xdbff

/-- Whether a code is a trailing surrogate. -/
def isTrailing (n : Nat) : Bool := 0xdc00 ≤ n && n ≤ 0xdfff

/-- The bytes of the character with the code `n`. -/
def codeBytes (n : Nat) : Bytes := String.utf8EncodeChar (Char.ofNat n)

/-- The bytes before the ones that a scan gives. -/
def emit (front : Bytes) : Except ParseError (Bytes × Bytes) → Except ParseError (Bytes × Bytes)
  | .ok (bytes, rest) => .ok (front ++ bytes, rest)
  | .error e => .error e

/-- Read the rest of a string up to its closing quote: the bytes it stands for, and
what follows the quote. -/
def scanString : Place → Bytes → Except ParseError (Bytes × Bytes)
  | _, [] => .error .endInString
  | .plain, b :: rest =>
    if b = 0x22 then .ok ([], rest)
    else if b = 0x5c then scanString .escape rest
    else if b < 0x20 then .error .controlCharacter
    else emit [b] (scanString .plain rest)
  | .escape, b :: rest =>
    if b = 0x75 then scanString (.code none []) rest
    else match simpleEscape b with
      | some c => emit [c] (scanString .plain rest)
      | none => .error .invalidEscape
  | .code high digits, b :: rest =>
    if digits.length < 3 then scanString (.code high (digits ++ [b])) rest
    else match codeValue (digits ++ [b]), high with
      | none, _ => .error .invalidEscape
      | some n, none =>
        if isTrailing n then .error .loneSurrogate
        else if isLeading n then scanString (.paired n) rest
        else emit (codeBytes n) (scanString .plain rest)
      | some n, some h =>
        if isTrailing n then
          emit (codeBytes (0x10000 + (h - 0xd800) * 0x400 + (n - 0xdc00))) (scanString .plain rest)
        else .error .loneSurrogate
  | .paired high, b :: rest =>
    if b = 0x5c then scanString (.pairedEscape high) rest else .error .unfinishedSurrogate
  | .pairedEscape high, b :: rest =>
    if b = 0x75 then scanString (.code (some high) []) rest else .error .unfinishedSurrogate

/-- What is known of the bytes that a configuration is read from. -/
inductive Medium where
  /-- They are the bytes of a text. -/
  | text
  /-- Nothing: they can be any bytes. -/
  | bytes
  deriving DecidableEq, Repr

/-- The text that the bytes of a string are. In a text no string is looked at, and
what would be said of bytes that are not UTF-8 does not matter. -/
def Medium.textOf (medium : Medium) (bytes : Bytes) : Option (List Char) :=
  match medium with
  | .text => some (Text.lossy bytes)
  | .bytes => Text.ofBytes? bytes

/-- Read a string after its opening quote: its text, and what follows. -/
def readString (medium : Medium) (input : Bytes) : Except ParseError (List Char × Bytes) :=
  match scanString .plain input with
  | .error e => .error e
  | .ok (bytes, rest) =>
    match medium.textOf bytes with
    | some text => .ok (text, rest)
    | none => .error .invalidUnicode

end Spool.Config
