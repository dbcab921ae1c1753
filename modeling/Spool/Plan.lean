import Spool.Signal

/-!
# Plans of calls

A call on a guarded state has at most two parts: what the caller does alone, and
one critical section. A `Plan` is a call after its first part. It is either over,
or it asks for the guard and goes on with the body of its critical section; if the
guard is refused, the call ends with an answer fixed in advance and the state is
not touched. That the state is used in one piece is what makes calls of several
callers behave as if they were made one after another.
-/

namespace Spool

/-- What a piece of work leaves: an answer, the state, and what was logged. -/
structure Effect (σ ρ : Type) where
  /-- The answer to the caller. -/
  answer : ρ
  /-- The state afterwards. -/
  state : σ
  /-- What was logged, in order. -/
  records : List Record

/-- A call that has done its work outside the guard. -/
inductive Plan (σ ρ : Type) where
  /-- The call is over. -/
  | done (answer : ρ) (records : List Record)
  /-- The call asks for the guard. It runs `body` if it is admitted and answers
  `refusal` if it is not. -/
  | guarded (records : List Record) (refusal : ρ) (body : σ → Effect σ ρ)

namespace Plan

variable {σ ρ : Type}

/-- Whether the call asks for the guard. -/
def asksGuard : Plan σ ρ → Bool
  | done .. => false
  | guarded .. => true

/-- Finish a call on the state `s`, given how its request for the guard ended. -/
def run (plan : Plan σ ρ) (admission : Admission) (s : σ) : Effect σ ρ :=
  match plan, admission with
  | done answer records, _ => ⟨answer, s, records⟩
  | guarded records _ body, .granted =>
    let e := body s
    ⟨e.answer, e.state, records ++ e.records⟩
  | guarded records refusal _, .refused b => ⟨refusal, s, records ++ (Admission.refused b).records⟩

end Plan

end Spool
