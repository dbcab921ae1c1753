import Spool.Bytes

/-!
# Memory quotas

A buffer grows only by asking for memory, and the answer can be no. `Quota` says
how many more of these requests are granted. A request for no bytes at all needs
no memory: it succeeds and counts for nothing. A request that no buffer could
hold is refused under every quota.
-/

namespace Spool

/-- How many more times a buffer may grow. -/
inductive Quota where
  /-- Memory never runs out. -/
  | unlimited
  /-- The next `n` growths succeed and all later ones fail. -/
  | atMost (n : Nat)
  deriving DecidableEq, Repr

/-- A growth that was refused. -/
structure Shortage where
  /-- The bytes that were asked for. -/
  requested : Nat
  deriving DecidableEq, Repr

/-- The text that reports a refused growth. -/
def Shortage.message (s : Shortage) : String :=
  "Buffer error: cannot allocate " ++ toString s.requested ++ " more bytes"

namespace Quota

/-- Ask for `n` more bytes: the quota left if they are granted. -/
def grow (q : Quota) (n : Nat) : Except Shortage Quota :=
  if n = 0 then .ok q
  else if sizeLimit ≤ n then .error ⟨n⟩
  else match q with
    | .unlimited => .ok .unlimited
    | .atMost 0 => .error ⟨n⟩
    | .atMost (k + 1) => .ok (.atMost k)

/-- A request for nothing is always granted. -/
@[simp] theorem grow_zero (q : Quota) : q.grow 0 = .ok q := by simp [grow]

/-- A refusal names the size that was asked for. -/
theorem eq_of_grow_eq_error {q : Quota} {n : Nat} {s : Shortage} (h : q.grow n = .error s) :
    s = ⟨n⟩ := by
  match q with
  | .unlimited | .atMost 0 | .atMost (_ + 1) => grind [grow]

/-- Unlimited memory refuses only what no buffer could hold. -/
theorem grow_unlimited {n : Nat} (h : n < sizeLimit) : unlimited.grow n = .ok unlimited := by
  grind [grow]

end Quota

end Spool
