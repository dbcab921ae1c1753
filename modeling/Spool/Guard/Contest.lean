import Spool.Guard.Schedule
import Spool.Signal
import Spool.Word

/-!
# Guarded numbers

A `Contest` is a row of guards, each with a number as its value, and a main caller
who uses them. The caller can also set off waiters, threads that add to a number
while the caller holds its guard, so that all of them have to wait: some give up
because their signals are raised, the others are served when the guards are
dropped.

Everything is done by the machine of `Spool.Guard.Machine`; the main caller is its
thread 0. A request that would make the main caller wait for itself, or that uses a
guard which is not in the row, cannot be carried out.

The numbers are words with a sign. A request that leaves a number which is none ends
the contest; `Response.overflow` is the last that is heard of it.
-/

namespace Spool.Guard

/-- Adding `v` to a number: the answer is the sum. -/
def adding (v : Int) (n : Int) : Int × Int := (n + v, n + v)

/-- How a call that asked for a guard stands. -/
inductive Verdict where
  /-- It has been served. -/
  | served
  /-- It gave up waiting. -/
  | interrupted
  /-- It waits. -/
  | waiting
  deriving DecidableEq

/-- How the last call of the thread `t` stands, given how long the history was when
the call began. -/
def State.verdict {T G S σ ρ : Type} [DecidableEq T] (s : State T G S σ ρ) (t : T) (since : Nat) :
    Verdict :=
  let refused := (s.history.drop since).any fun event =>
    match event with
    | .refused u .. => u = t
    | _ => false
  if refused then .interrupted
  else match (s.threads t).stage with
    | .idle => .served
    | _ => .waiting

/-- What an event has put into the log. -/
def Event.records {T G σ ρ : Type} : Event T G σ ρ → List Record
  | .refused _ _ before => (Admission.refused before).records
  | _ => []

/-- A thread that adds to a number while its guard is held. -/
structure Waiter where
  /-- The guard. -/
  guard : Nat
  /-- What it adds. -/
  amount : Int
  /-- The name of its signal. -/
  signal : Option String
  /-- Whether it waits without a signal. -/
  plain : Bool

/-- What the main caller can ask for. -/
inductive Demand where
  /-- Add to a number, waiting with a signal. -/
  | add (guard : Nat) (amount : Int)
  /-- Hold a guard, waiting with a signal. -/
  | lockInterruptible (guard : Nat)
  /-- Hold a guard, waiting without a signal. -/
  | lock (guard : Nat)
  /-- Look at a number whose guard is held. -/
  | heldGet (guard : Nat)
  /-- Add to a number whose guard is held. -/
  | heldAdd (guard : Nat) (amount : Int)
  /-- Drop a guard. -/
  | release (guard : Nat)
  /-- Drop all guards and add to a number as its only owner. -/
  | ownAdd (guard : Nat) (amount : Int)
  /-- Raise the signal. -/
  | raise
  /-- Lower the signal. -/
  | lower
  /-- Ask whether the signal is raised. -/
  | isRaised
  /-- Give the signal another name as well. -/
  | clone (name : String)
  /-- Ask for one line about a guard. -/
  | describe (guard : Nat)
  /-- Ask for one line about the signal. -/
  | describeSignal
  /-- Let waiters wait, raise signals, and drop the guards they wait for. -/
  | contend (waiters : List Waiter) (raised : List String)

/-- The guards a demand uses. -/
def Demand.guards : Demand → List Nat
  | add g _ | lockInterruptible g | lock g | heldGet g | heldAdd g _ | release g | ownAdd g _
  | describe g => [g]
  | contend waiters _ => waiters.map Waiter.guard
  | raise | lower | isRaised | clone _ | describeSignal => []

/-- What comes of a demand. -/
inductive Response where
  /-- It is done. -/
  | done
  /-- A number. -/
  | number (n : Int)
  /-- There is no number to look at. -/
  | nothing
  /-- Yes or no. -/
  | truth (b : Bool)
  /-- A line of text. -/
  | text (t : String)
  /-- The caller gave up waiting. -/
  | interrupted
  /-- How the waiters fared. -/
  | verdicts (l : List Verdict)
  /-- A sum was no word. The contest is over. -/
  | overflow (o : Overflow)
  deriving DecidableEq

/-- The overflow that ended the contest, if one did. -/
def Response.overflow? : Response → Option Overflow
  | overflow o => some o
  | _ => none

/-- A row of guarded numbers in use. -/
structure Contest where
  /-- The number of guards in the row. -/
  size : Nat
  /-- The machine. -/
  machine : State Nat Nat Nat Int Int
  /-- The signals by name. -/
  names : List (String × Nat)
  /-- The number of the next new signal. -/
  nextSignal : Nat
  /-- The number of the next new thread. -/
  nextThread : Nat

namespace Contest

/-- The thread of the main caller. -/
def caller : Nat := 0

/-- Guards with these numbers, none of them held. -/
def start (numbers : List Int) : Contest :=
  ⟨numbers.length, .start fun g => numbers.getD g 0, [], 0, 1⟩

/-- The value of a guard. -/
def value (c : Contest) (guard : Nat) : Int := (c.machine.cells guard).value

/-- Whether the main caller holds a guard. -/
def holds (c : Contest) (guard : Nat) : Bool := (c.machine.threads caller).kept.contains guard

/-- The signal with a name. A name that is new, like no name at all, stands for a new
signal. -/
def signalOf (c : Contest) (name : Option String) : Nat × Contest :=
  match name.bind fun n => c.names.lookup n with
  | some sig => (sig, c)
  | none =>
    let names := match name with
      | some n => (n, c.nextSignal) :: c.names
      | none => c.names
    (c.nextSignal, { c with names, nextSignal := c.nextSignal + 1 })

/-- Make a call with the main caller and see it through. -/
def perform (c : Contest) (call : Call Nat Nat Int Int) : Option (Verdict × Contest) :=
  match c.machine.perform caller call with
  | some machine =>
    match machine.verdict caller c.machine.history.length with
    | .waiting => none
    | verdict => some (verdict, { c with machine })
  | none => none

/-- The answer to a call that was served or given up. -/
def respond : Verdict × Contest → Response × Contest
  | (.interrupted, c) => (.interrupted, c)
  | (_, c) => (.done, c)

/-- Drop guards that the main caller holds; the others are left out. -/
def dropAll (c : Contest) : List Nat → Option Contest
  | [] => some c
  | g :: rest =>
    if c.holds g then (c.perform (.drop g)).bind fun (_, c) => c.dropAll rest else c.dropAll rest

/-- Hold guards that the main caller does not hold yet. -/
def holdAll (c : Contest) : List Nat → Option Contest
  | [] => some c
  | g :: rest =>
    if c.holds g then c.holdAll rest
    else (c.perform (.acquire ⟨g, none, none⟩)).bind fun (_, c) => c.holdAll rest

/-- Raise signals. -/
def raiseAll (c : Contest) : List String → Option Contest
  | [] => some c
  | name :: rest =>
    let (sig, c) := c.signalOf (some name)
    (c.perform (.raise sig)).bind fun (_, c) => c.raiseAll rest

/-- Set off waiters and let each come to rest: their threads. -/
def setOff (c : Contest) : List Waiter → Option (List Nat × Contest)
  | [] => some ([], c)
  | w :: rest =>
    let (sig, c) := c.signalOf w.signal
    let ask : Ask Nat Nat Int Int :=
      ⟨w.guard, if w.plain then none else some sig, some (adding w.amount)⟩
    (c.machine.perform c.nextThread (.acquire ask)).bind fun machine =>
      ({ c with machine, nextThread := c.nextThread + 1 }.setOff rest).map fun (ts, d) =>
        (c.nextThread :: ts, d)

/-- Let the threads `ts` come to rest. -/
def restAll (c : Contest) (ts : List Nat) : Contest :=
  { c with machine := c.machine.restAll ts }

/-- Let waiters wait, raise signals, and drop the guards. -/
def contend (c : Contest) (waiters : List Waiter) (raised : List String) :
    Option (List Verdict × Contest) := do
  let guards := waiters.map Waiter.guard
  let c ← c.holdAll guards
  let since := c.machine.history.length
  let (ts, c) ← c.setOff waiters
  let c ← c.raiseAll raised
  let c ← (c.restAll ts).dropAll guards
  let c := c.restAll ts
  some (ts.map fun t => c.machine.verdict t since, c)

/-- Carry out a demand of the main caller, who goes by the signal `name`; all guards it
uses are in the row. -/
def serve (c : Contest) (name : Option String) (demand : Demand) : Option (Response × Contest) :=
  let (sig, c) := c.signalOf name
  match demand with
  | .add g amount => (c.perform (.acquire ⟨g, some sig, some (adding amount)⟩)).map respond
  | .lockInterruptible g => (c.perform (.acquire ⟨g, some sig, none⟩)).map respond
  | .lock g => (c.perform (.acquire ⟨g, none, none⟩)).map respond
  | .heldGet g => some (if c.holds g then .number (c.value g) else .nothing, c)
  | .heldAdd g amount =>
    (c.perform (.use g (adding amount))).map fun (_, d) => (.number (d.value g), d)
  | .release g => (c.dropAll [g]).map fun d => (.truth (c.holds g), d)
  | .ownAdd g amount =>
    (c.dropAll (c.machine.threads caller).kept).map fun d =>
      let cell := d.machine.cells g
      let value := (adding amount cell.value).2
      (.number value, { d with machine := d.machine.setCell g { cell with value } })
  | .raise => (c.perform (.raise sig)).map respond
  | .lower => (c.perform (.lower sig)).map respond
  | .isRaised => some (.truth (c.machine.flags sig).raised, c)
  | .clone other => some (.done, { c with names := (other, sig) :: c.names })
  | .describe g =>
    some (.text ("AccessGuard(busy=" ++ toString (c.machine.cells g).busy ++ ")"), c)
  | .describeSignal => some (.text (Signal.mk (c.machine.flags sig).raised).describe, c)
  | .contend waiters raised =>
    (c.contend waiters raised).map fun (verdicts, d) => (.verdicts verdicts, d)

/-- The numbers of all guards. -/
def numbers (c : Contest) : List Int := (List.range c.size).map c.value

/-- Carry out a demand of the main caller, who goes by the signal `name`. -/
def step (c : Contest) (name : Option String) (demand : Demand) : Option (Response × Contest) :=
  if demand.guards.all (· < c.size) then
    (c.serve name demand).map fun (response, d) =>
      (if d.numbers.all isSignedWord then response else .overflow .addition, d)
  else none

/-- The log. -/
def log (c : Contest) : List Record := c.machine.history.flatMap Event.records

end Contest

end Spool.Guard
