import Spool.Bytes
import Spool.Config.Error
import Spool.Word

/-!
# Numbers in a configuration

A number is an optional minus sign, digits without a superfluous zero in front, and
optionally a fraction and an exponent. Without these two it is an integer, if it
fits a 64-bit word; a minus sign before zero, a fraction, an exponent and a
greater size each make it a decimal.

A decimal is read as a double in steps. Its significant digits are taken as long
as they fit a 64-bit word; the ones left over count as zeros before the point and
for nothing behind it. The significand is rounded to a double, and the result is
scaled by the power of ten with a rounding in each step (`Magnitude.scale`).
-/

namespace Spool.Config

/-- Whether `b` is a decimal digit. -/
def isDigit (b : UInt8) : Bool := 0x30 ≤ b && b ≤ 0x39

/-- The value of a decimal digit. -/
def digitValue (b : UInt8) : Nat := b.toNat - 0x30

/-- The longest run of digits at the beginning, and what follows. -/
def digitRun : Bytes → Bytes × Bytes
  | [] => ([], [])
  | b :: rest => if isDigit b then (b :: (digitRun rest).1, (digitRun rest).2) else ([], b :: rest)

/-- Put digits behind a significand as long as it stays a 64-bit word: the
significand, and the digits left over. -/
def extend (significand : Nat) : Bytes → Nat × Bytes
  | [] => (significand, [])
  | b :: rest =>
    if significand * 10 + digitValue b < wordLimit then
      extend (significand * 10 + digitValue b) rest
    else (significand, b :: rest)

/-- The double nearest to a significand, scaled by a power of ten. -/
def decimal (negative : Bool) (significand : Nat) (exponent : Int) : Except ParseError Numeral :=
  match (Decimal.Magnitude.round significand 1).bind (·.scale exponent) with
  | some m => .ok (.decimal negative m)
  | none => .error .numberOutOfRange

/-- Read a sign, if there is one: whether it is a minus sign, and what follows. -/
def readSign : Bytes → Bool × Bytes
  | [] => (false, [])
  | b :: rest =>
    if b = 0x2d then (true, rest)
    else if b = 0x2b then (false, rest)
    else (false, b :: rest)

/-- Read the sign and the digits of an exponent: its value, and what follows. -/
def readExponent (input : Bytes) : Except ParseError (Int × Bytes) :=
  let (negative, digits) := readSign input
  match digitRun digits with
  | ([], []) => .error .endInValue
  | ([], _ :: _) => .error .invalidNumber
  | (run, rest) =>
    let n : Int := run.foldl (fun n b => n * 10 + digitValue b) 0
    .ok (if negative then -n else n, rest)

/-- Read what may follow the digits of a decimal: an exponent, which is added to
the one they have already. -/
def readScale (negative : Bool) (significand : Nat) (exponent : Int) (input : Bytes) :
    Except ParseError (Numeral × Bytes) :=
  match input with
  | b :: rest =>
    if b = 0x65 ∨ b = 0x45 then
      match readExponent rest with
      | .ok (more, rest) => (decimal negative significand (exponent + more)).map (·, rest)
      | .error e => .error e
    else (decimal negative significand exponent).map (·, input)
  | [] => (decimal negative significand exponent).map (·, input)

/-- Read what follows the digits of a whole number, given its significand and the
number of digits left over. -/
def readFraction (negative : Bool) (significand left : Nat) (input : Bytes) :
    Except ParseError (Numeral × Bytes) :=
  match input with
  | b :: rest =>
    if b = 0x2e then
      match digitRun rest with
      | ([], []) => .error .endInValue
      | ([], _ :: _) => .error .invalidNumber
      | (run, rest) =>
        let (significand, unused) := extend significand run
        readScale negative significand ((left : Int) - (run.length - unused.length)) rest
    else readScale negative significand left input
  | [] => readScale negative significand left input

/-- The magnitude of the least integer that fits a 64-bit word with a sign. -/
def leastMagnitude : Nat := 0x8000000000000000

/-- Whether what follows a whole number makes it a decimal. -/
def goesOn : Bytes → Bool
  | b :: _ => b = 0x2e || b = 0x65 || b = 0x45
  | [] => false

/-- Read a number after its sign. -/
def readUnsigned (negative : Bool) (input : Bytes) : Except ParseError (Numeral × Bytes) :=
  match digitRun input with
  | ([], []) => .error .endInValue
  | ([], _ :: _) => .error .invalidNumber
  | (first :: more, rest) =>
    if first = 0x30 ∧ more ≠ [] then .error .invalidNumber
    else
      let (significand, left) := extend 0 (first :: more)
      if left ≠ [] ∨ goesOn rest = true then readFraction negative significand left.length rest
      else if !negative then .ok (.integer significand, rest)
      else if 0 < significand ∧ significand ≤ leastMagnitude then
        .ok (.integer (-significand), rest)
      else (decimal negative significand 0).map (·, rest)

/-- Read a number. -/
def readNumeral : Bytes → Except ParseError (Numeral × Bytes)
  | b :: rest => if b = 0x2d then readUnsigned true rest else readUnsigned false (b :: rest)
  | [] => .error .endInValue

end Spool.Config
