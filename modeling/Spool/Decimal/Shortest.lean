import Spool.Decimal.Binary

/-!
# The shortest decimal of a double

Many decimals are read as the same double. `shortest` gives the one with the
fewest digits, and of those with as few the nearest to the double itself. It looks
at grids with 1, 2, … 17 digits: on each, only the two points next to the double
can be the nearest ones, and the first grid with a point in the double's interval
wins. `Layout` says how the digits are written down.
-/

namespace Spool.Decimal

/-- A decimal `digits * 10 ^ exponent`. -/
structure Scaled where
  /-- The digits as a number. -/
  digits : Nat
  /-- The power of ten that scales them. -/
  exponent : Int
  deriving DecidableEq, Repr

namespace Scaled

/-- Whether `num / den ≤ s`. -/
def above (s : Scaled) (num den : Nat) : Bool :=
  num * Nat.pow 10 (-s.exponent).toNat ≤ s.digits * Nat.pow 10 s.exponent.toNat * den

/-- Whether `s ≤ num / den`. -/
def below (s : Scaled) (num den : Nat) : Bool :=
  s.digits * Nat.pow 10 s.exponent.toNat * den ≤ num * Nat.pow 10 (-s.exponent).toNat

/-- Drop zeros at the end of the digits, at most `n` of them. -/
def trimWithin : Nat → Scaled → Scaled
  | 0, s => s
  | n + 1, s => if s.digits % 10 = 0 then trimWithin n ⟨s.digits / 10, s.exponent + 1⟩ else s

end Scaled

/-- The reals that are read as the magnitude `m`, in units of one fourth of its last
place: the least, `m` itself, the greatest, and the two parts of the unit as a
fraction. The interval reaches half way to the neighbours; the one below is twice
as near where the significand is the least of its exponent. -/
def interval (m : Magnitude) : (Nat × Nat × Nat) × (Nat × Nat) :=
  let low := if m.significand = Nat.pow 2 52 ∧ Magnitude.minExponent < m.exponent then 1 else 2
  ((4 * m.significand - low, 4 * m.significand, 4 * m.significand + 2),
    (Nat.pow 2 m.exponent.toNat, 4 * Nat.pow 2 (-m.exponent).toNat))

/-- The exponent of the greatest power of ten in `num / den`, looking no further
down than `10 ^ -limit`. -/
def log10 (limit num den : Nat) : Int :=
  if den ≤ num then ((Nat.toDigits 10 (num / den)).length : Int) - 1
  else
    match (List.range limit).find? fun k => den ≤ num * Nat.pow 10 (k + 1) with
    | some k => -((k : Int) + 1)
    | none => -(limit : Int)

/-- The digits of a magnitude that is not zero. -/
def shortest (m : Magnitude) : Scaled :=
  let ((low, mid, high), (unit, den)) := interval m
  let num := mid * unit
  let top := log10 324 num den
  let inside (s : Scaled) : Bool :=
    if m.significand % 2 = 0 then s.above (low * unit) den && s.below (high * unit) den
    else !s.below (low * unit) den && !s.above (high * unit) den
  let onGrid (places : Nat) : Option Scaled :=
    let exponent := top - places
    let above := num * Nat.pow 10 (-exponent).toNat
    let below := den * Nat.pow 10 exponent.toNat
    let floor := above / below
    let down : Scaled := ⟨floor, exponent⟩
    let up : Scaled := ⟨floor + 1, exponent⟩
    let nearer : Scaled := ⟨roundDiv above below, exponent⟩
    match inside down, inside up with
    | true, true => some nearer
    | true, false => some down
    | false, true => some up
    | false, false => none
  match (List.range 17).findSome? onGrid with
  | some s => s.trimWithin 20
  | none => ⟨0, 0⟩

/-- How decimals are written down. -/
structure Layout where
  /-- The least exponent of the first digit that is written without an exponent. -/
  minPlain : Int
  /-- The greatest exponent of the first digit that is written without an exponent. -/
  maxPlain : Int

/-- The text of a decimal with the digits `ds`, the first of which stands at
`10 ^ top`. Plain text has a point with at least one digit on either side of it;
otherwise one digit stands before the point, and the exponent has a sign. -/
def Layout.write (l : Layout) (ds : List Char) (top : Int) : String :=
  if l.minPlain ≤ top ∧ top ≤ l.maxPlain then
    if top < 0 then "0." ++ String.ofList (List.replicate (-top - 1).toNat '0' ++ ds)
    else
      let whole := top.toNat + 1
      let front := ds.take whole ++ List.replicate (whole - ds.length) '0'
      let back := if ds.length ≤ whole then ['0'] else ds.drop whole
      String.ofList front ++ "." ++ String.ofList back
  else
    let fraction := match ds.drop 1 with
      | [] => ""
      | rest => "." ++ String.ofList rest
    String.ofList (ds.take 1) ++ fraction ++ "e" ++ (if top < 0 then "-" else "+") ++
      toString top.natAbs

/-- The text of a double: the shortest decimal that is read as it. -/
def Layout.text (l : Layout) (negative : Bool) (m : Magnitude) : String :=
  let sign := if negative then "-" else ""
  if m.significand = 0 then sign ++ l.write ['0'] 0
  else
    let s := shortest m
    let ds := Nat.toDigits 10 s.digits
    sign ++ l.write ds (s.exponent + ds.length - 1)

end Spool.Decimal
