/-!
# Words

Offsets in a stream are words of 64 bits. Arithmetic on them is that of the natural
numbers as long as its results are words. A sum that is no word has no value:
`addWord` gives an `Overflow` then, after which the computation that needed the sum
does not go on. The numbers that guards protect (`Spool.Guard.Contest`) are words
with a sign, of 64 bits too.
-/

namespace Spool

/-- The least number that is no longer a 64-bit word. Stream positions stay
below it. -/
def wordLimit : Nat := 0x10000000000000000

/-- Whether an integer is a word with a sign. -/
def isSignedWord (n : Int) : Bool := -0x8000000000000000 ≤ n && n < 0x8000000000000000

/-- A result that is no word. -/
inductive Overflow where
  /-- A sum was too large. -/
  | addition
  deriving DecidableEq

/-- The text of an overflow. -/
def Overflow.message : Overflow → String
  | addition => "attempt to add with overflow"

/-- The sum of two words. -/
def addWord (a b : Nat) : Except Overflow Nat :=
  if a + b < wordLimit then .ok (a + b) else .error .addition

/-- A sum of words has a value just when it is a word, and the value is the sum. -/
theorem addWord_eq_ok_iff {a b sum : Nat} :
    addWord a b = .ok sum ↔ sum = a + b ∧ sum < wordLimit := by
  unfold addWord
  split <;> simp <;> omega

end Spool
