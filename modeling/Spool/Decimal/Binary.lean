/-!
# Binary floating point, exactly

The magnitude of a finite double is `significand * 2 ^ exponent` with a significand
below `2 ^ 53` and an exponent from -1074 to 971. `Magnitude.round` takes any
fraction to the nearest magnitude, a tie to the one with an even significand, and
finds none when the nearest would be `2 ^ 1024` or more. All arithmetic is on
natural numbers, so nothing is lost before that one rounding.
-/

namespace Spool.Decimal

/-- The quotient rounded to the nearest number, a tie to the even one. -/
def roundDiv (num den : Nat) : Nat :=
  let q := num / den
  let twice := 2 * (num % den)
  if twice < den ∨ (twice = den ∧ q % 2 = 0) then q else q + 1

/-- The magnitude of a finite double. -/
structure Magnitude where
  /-- The integer part of the representation. -/
  significand : Nat
  /-- The power of two that scales it. -/
  exponent : Int
  deriving DecidableEq, Repr

namespace Magnitude

/-- The least exponent of a double. -/
def minExponent : Int := -1074

/-- The greatest exponent of a double. -/
def maxExponent : Int := 971

/-- No magnitude at all. -/
def zero : Magnitude := ⟨0, minExponent⟩

/-- The numerator and the denominator of a magnitude. -/
def toFraction (m : Magnitude) : Nat × Nat :=
  (m.significand * Nat.pow 2 m.exponent.toNat, Nat.pow 2 (-m.exponent).toNat)

/-- The exponent of the greatest power of two in `num / den`, both positive. -/
def log2 (num den : Nat) : Int :=
  let guess : Int := (Nat.log2 num : Int) - (Nat.log2 den : Int)
  if den * Nat.pow 2 guess.toNat ≤ num * Nat.pow 2 (-guess).toNat then guess else guess - 1

/-- The magnitude nearest to `num / den`. -/
def round (num den : Nat) : Option Magnitude :=
  if num = 0 then some zero
  else
    let exponent := max (log2 num den - 52) minExponent
    let significand :=
      roundDiv (num * Nat.pow 2 (-exponent).toNat) (den * Nat.pow 2 exponent.toNat)
    let m : Magnitude :=
      if significand = Nat.pow 2 53 then ⟨Nat.pow 2 52, exponent + 1⟩ else ⟨significand, exponent⟩
    if m.exponent ≤ maxExponent then some m else none

/-- The product, rounded. -/
def mul (a b : Magnitude) : Option Magnitude :=
  let (an, ad) := a.toFraction
  let (bn, bd) := b.toFraction
  round (an * bn) (ad * bd)

/-- The quotient, rounded. -/
def div (a b : Magnitude) : Option Magnitude :=
  let (an, ad) := a.toFraction
  let (bn, bd) := b.toFraction
  round (an * bd) (ad * bn)

/-- The greatest power of ten that is used as a factor in one step. -/
def tenLimit : Nat := 308

/-- A power of ten, rounded. -/
def ten (n : Nat) : Option Magnitude := round (Nat.pow 10 n) 1

/-- The magnitude `m` times `10 ^ exponent`, in at most `steps + 1` steps. -/
def scaleWithin : Nat → Magnitude → Int → Option Magnitude
  | steps, m, exponent =>
    if exponent.natAbs ≤ tenLimit then
      (ten exponent.natAbs).bind fun factor => if 0 ≤ exponent then m.mul factor else m.div factor
    else if m.significand = 0 then some m
    else if 0 ≤ exponent then none
    else
      match steps, (ten tenLimit).bind m.div with
      | steps + 1, some smaller => scaleWithin steps smaller (exponent + tenLimit)
      | _, _ => none

/-- The magnitude `m` times `10 ^ exponent`, by factors up to `10 ^ 308` and
rounded after each. Every step but the last takes 308 off the exponent, which
bounds their number. -/
def scale (m : Magnitude) (exponent : Int) : Option Magnitude :=
  scaleWithin exponent.natAbs m exponent

end Magnitude

end Spool.Decimal
