import Spool.Device
import Spool.Guard.Schedule

/-!
# Many callers at once

A crowd of threads, each with one call on the same device. What a `Plan` leaves to
be done under the guard becomes the operation of a thread of the machine in
`Spool.Guard.Machine`; a plan that is over asks for nothing. The threads step in
turn, so that they meet at the guard.
-/

namespace Spool

/-- The operation of a plan's critical section, on the value of a guard. -/
def Plan.operation {σ ρ : Type} (body : σ → Effect σ ρ) (s : σ) : Effect σ ρ × σ :=
  let e := body s
  (e, e.state)

/-- A machine whose only guard has a store as its value. -/
abbrev Crowd := Guard.State Nat Unit Nat Store (Effect Store Written)

namespace Crowd

/-- The crowd's threads, each at the beginning of its call: thread `i` makes call
number `i`, with signal number `i`. -/
def assemble (store : Store) (plans : List (Plan Store Written)) : Crowd :=
  plans.zipIdx.foldl
    (fun (crowd : Crowd) (plan, i) =>
      match plan with
      | .done .. => crowd
      | .guarded _ _ body =>
        (crowd.call i (.acquire ⟨(), some i, some (Plan.operation body)⟩)).getD crowd)
    (.start fun _ => store)

/-- The answer that thread `t` got under the guard. -/
def answerOf (crowd : Crowd) (t : Nat) : Option Written :=
  crowd.history.findSome? fun event =>
    match event with
    | .used u _ _ e => if u = t then some e.answer else none
    | _ => none

/-- The answers to all calls, each either from its plan or from the guard. -/
def answers (crowd : Crowd) (plans : List (Plan Store Written)) : List (Option Written) :=
  plans.zipIdx.map fun (plan, i) =>
    match plan with
    | .done answer _ => some answer
    | .guarded .. => crowd.answerOf i

end Crowd

/-- Make writes from a crowd of threads. The threads first step in turn and then
come to rest one by one, until all calls are over. -/
def Device.writeTogether (d : Device) (sources : List Source) : List (Option Written) × Device :=
  let plans := sources.map fun source => writePlan d.config.trailing source .unlimited
  let threads := List.range plans.length
  let crowd := (Crowd.assemble d.store plans).turns threads (plans.length + 10)
  let crowd := crowd.finish threads (plans.length + 1)
  (Crowd.answers crowd plans, { d with store := (crowd.cells ()).value })

end Spool
