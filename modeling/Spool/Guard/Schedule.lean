import Spool.Guard.Machine

/-!
# Running the machine

A machine does what its threads do in some order. `State.rest` lets one thread
step until it can go no further: because its call is over, because it sleeps, or
because it waits for a mutex. It always gets there, since every step of a thread
brings it nearer to the end of its call (`rank_advance`); only others can set it
back, by waking it. `State.turns` lets several threads step in turn, and
`State.perform` makes one call as far as it goes.
-/

namespace Spool.Guard.State

variable {T G S σ ρ : Type} [DecidableEq T] [DecidableEq G] [DecidableEq S]

/-- An upper bound on the steps that the thread `t` makes before it comes to
rest. -/
def rank (s : State T G S σ ρ) (t : T) : Nat :=
  match s.stage t with
  | .idle | .asleep .. => 0
  | .dozing .. | .withdrawing _ | .leaving _ | .lowering _ => 1
  | .announcing _ => 2
  | .clearing _ => 3
  | .returning _ => 4
  | .closing _ => 5
  | .working .. => 6
  | .inside _ | .applying .. => 7
  | .opening _ => 8
  | .unlocking _ => 9
  | .marking _ => 10
  | .unregistering .. => 11
  | .unparking .. => 12
  | .checking .. => 13
  | .looking .. => 14
  | .woken .. | .registering .. => 15
  | .parking .. => 16
  | .sampling .. => 17
  | .testing .. => 18
  | .entering _ => 19
  | .ringing _ guards => 3 * guards.length + 1
  | .quitting _ _ guards => 3 * guards.length + 2
  | .notifying _ _ guards => 3 * guards.length + 3
  | .copying sig => 3 * (s.flags sig).parked.length + 4
  | .listing sig => 3 * (s.flags sig).parked.length + 5
  | .flagging sig => 3 * (s.flags sig).parked.length + 6

/-- Every step brings a thread nearer to rest. -/
theorem rank_advance {s s' : State T G S σ ρ} {t : T} (h : s.advance t = some s') :
    s'.rank t < s.rank t := by
  unfold rank
  cases hs : s.stage t
  all_goals
    simp only [advance, hs, lock, lockList, reduceCtorEq] at h
    repeat' split at h
    all_goals cases h
    all_goals
      simp [stage, goTo, note, setCell, setFlag, unlock, unlockList, notifyAll, apply,
        Stage.notified] at hs ⊢
  all_goals omega

/-- Let the thread `t` step until it comes to rest. -/
def rest (s : State T G S σ ρ) (t : T) : State T G S σ ρ :=
  match _h : s.advance t with
  | some s' => s'.rest t
  | none => s
termination_by s.rank t
decreasing_by exact rank_advance _h

/-- Let the threads `ts` come to rest one after another. -/
def restAll (s : State T G S σ ρ) (ts : List T) : State T G S σ ρ := ts.foldl rest s

/-- Whether the thread `t` is in no call. -/
def isIdle (s : State T G S σ ρ) (t : T) : Bool :=
  match s.stage t with
  | .idle => true
  | _ => false

/-- Let the threads `ts` come to rest again and again, at most `passes` times, until
all their calls are over. -/
def finish (s : State T G S σ ρ) (ts : List T) : Nat → State T G S σ ρ
  | 0 => s
  | passes + 1 => if ts.all s.isIdle then s else (s.restAll ts).finish ts passes

/-- Let the threads `ts` step once each, in turn, as far as they can. -/
def turn (s : State T G S σ ρ) (ts : List T) : State T G S σ ρ :=
  ts.foldl (fun s t => (s.advance t).getD s) s

/-- Let the threads `ts` step in turn, `rounds` times. -/
def turns (s : State T G S σ ρ) (ts : List T) : Nat → State T G S σ ρ
  | 0 => s
  | rounds + 1 => (s.turn ts).turns ts rounds

/-- Start a call of the thread `t` and let it come to rest. -/
def perform (s : State T G S σ ρ) (t : T) (call : Call G S σ ρ) : Option (State T G S σ ρ) :=
  (s.call t call).map (·.rest t)

end Spool.Guard.State
