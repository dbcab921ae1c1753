/-!
# The guard as a machine

A guard lets one thread at a time use a value. It is taken if its `busy` flag is
set. The flag is kept behind a small mutex, and threads that find it set sleep
until they are notified. A thread may wait with a signal: it then registers the
guard with the signal before it sleeps, so that raising the signal can wake it, and
gives up if it finds the signal raised.

This module describes any number of threads that use any number of guards and
signals, step by step. A step is one mutex taken or released, one flag read or
written, one look at a guarded value or one change of it, one fall asleep or one
notification; what a step can do depends on its thread's `Stage` and on the shared
state. A thread that works on a guarded value looks at it in one step and changes it
in another, so that only the guard keeps others from changing it in between.
`State.advance` makes the next step of a thread, if it has one: a thread that waits
for a mutex has none while another thread holds it, and a sleeping thread has none
at all. `Move` adds what a thread does not decide by itself, to start a call and to
wake without being notified, and `State.Reaches` says which states a machine can
come to.

Every thread's step is a function, so the machine also runs: see
`Spool.Guard.Schedule`.

What is *not* described: memory is the same for all threads at all times, and a
mutex goes to any of the threads that wait for it.
-/

namespace Spool.Guard

/-- A guard asked for: with a signal or without, and with something to do once it
is there. Without that, the access is kept until it is dropped. -/
structure Ask (G S σ ρ : Type) where
  /-- The guard. -/
  guard : G
  /-- The signal that ends the wait. -/
  signal : Option S
  /-- What is done with the value; the access is dropped afterwards. -/
  op : Option (σ → ρ × σ)

/-- What a thread can call. -/
inductive Call (G S σ ρ : Type) where
  /-- Ask for a guard. -/
  | acquire (ask : Ask G S σ ρ)
  /-- Use the value of a guard whose access is kept. -/
  | use (guard : G) (op : σ → ρ × σ)
  /-- Drop an access that was kept. -/
  | drop (guard : G)
  /-- Raise a signal and wake all that wait with it. -/
  | raise (signal : S)
  /-- Lower a signal. -/
  | lower (signal : S)

/-- What a thread can do next. -/
inductive Move (G S σ ρ : Type) where
  /-- Make the next step of its call. -/
  | advance
  /-- Start a call. -/
  | call (c : Call G S σ ρ)
  /-- Wake without having been notified. -/
  | wake

/-- Where a thread is in its call. Those that hold a guard's mutex are marked M,
those that hold the list of a signal L. -/
inductive Stage (G S σ ρ : Type) where
  /-- In no call. -/
  | idle
  /-- About to take the guard's mutex. -/
  | entering (ask : Ask G S σ ρ)
  /-- M. About to look at the flag for the first time. -/
  | testing (ask : Ask G S σ ρ) (signal : S)
  /-- M. The flag is set: about to look whether the signal is raised already. -/
  | sampling (ask : Ask G S σ ρ) (signal : S)
  /-- M. About to take the signal's list, in order to register. -/
  | parking (ask : Ask G S σ ρ) (signal : S) (raisedBefore : Bool)
  /-- M, L. About to register. -/
  | registering (ask : Ask G S σ ρ) (signal : S) (raisedBefore : Bool)
  /-- M. About to look at the flag; registered with a signal or not. -/
  | looking (ask : Ask G S σ ρ) (registered : Option (S × Bool))
  /-- M. The flag is set: about to look whether the signal is raised. -/
  | checking (ask : Ask G S σ ρ) (signal : S) (raisedBefore : Bool)
  /-- M. About to fall asleep. -/
  | dozing (ask : Ask G S σ ρ) (registered : Option (S × Bool))
  /-- Asleep, and not notified. -/
  | asleep (ask : Ask G S σ ρ) (registered : Option (S × Bool))
  /-- Awake again, about to take the guard's mutex. -/
  | woken (ask : Ask G S σ ρ) (registered : Option (S × Bool))
  /-- M. About to take the signal's list, in order to unregister; `granted` tells
  whether the guard will be taken afterwards or the call given up. -/
  | unparking (ask : Ask G S σ ρ) (signal : S) (granted : Bool)
  /-- M, L. About to unregister. -/
  | unregistering (ask : Ask G S σ ρ) (signal : S) (granted : Bool)
  /-- M. The call is given up: about to release the mutex. -/
  | withdrawing (ask : Ask G S σ ρ)
  /-- M. The flag is clear: about to set it. -/
  | marking (ask : Ask G S σ ρ)
  /-- M. The flag is set for this thread: about to release the mutex. -/
  | unlocking (ask : Ask G S σ ρ)
  /-- About to take the value. -/
  | opening (ask : Ask G S σ ρ)
  /-- The value is taken: about to look at it, if there is something to do with it. -/
  | inside (ask : Ask G S σ ρ)
  /-- About to look at the value of an access that is kept. -/
  | applying (guard : G) (op : σ → ρ × σ)
  /-- The value was `seen`: about to put what `op` makes of it in its place; `last` tells
  whether the access is dropped afterwards or kept. -/
  | working (guard : G) (op : σ → ρ × σ) (seen : σ) (last : Bool)
  /-- About to give the value back. -/
  | closing (guard : G)
  /-- About to take the mutex, in order to clear the flag. -/
  | returning (guard : G)
  /-- M. About to clear the flag. -/
  | clearing (guard : G)
  /-- M. The flag is clear: about to notify all that sleep. -/
  | announcing (guard : G)
  /-- M. About to release the mutex. -/
  | leaving (guard : G)
  /-- About to set the flag of a signal. -/
  | flagging (signal : S)
  /-- About to take the list of a signal that is raised. -/
  | listing (signal : S)
  /-- L. About to copy the list. -/
  | copying (signal : S)
  /-- About to take the mutex of the next guard that was registered. -/
  | ringing (signal : S) (guards : List G)
  /-- M. About to notify all that sleep at this guard. -/
  | notifying (signal : S) (guard : G) (guards : List G)
  /-- M. About to release the mutex. -/
  | quitting (signal : S) (guard : G) (guards : List G)
  /-- About to clear the flag of a signal. -/
  | lowering (signal : S)

/-- A guard and its value. -/
structure Cell (T σ : Type) where
  /-- The thread that holds the mutex. -/
  owner : Option T
  /-- Whether the guard is taken. -/
  busy : Bool
  /-- The guarded value. -/
  value : σ
  /-- The thread that has the value. -/
  user : Option T

/-- A signal and the guards at which somebody waits with it. -/
structure Flag (T G : Type) where
  /-- Whether it is raised. -/
  raised : Bool
  /-- The guards, one entry for each registration. -/
  parked : List G
  /-- The thread that holds the list. -/
  owner : Option T

/-- A thread. -/
structure Thread (G S σ ρ : Type) where
  /-- Where it is in its call. -/
  stage : Stage G S σ ρ
  /-- The guards whose access it keeps. -/
  kept : List G

/-- What happens to a call that asks for a guard, in the order in which it
happens. -/
inductive Event (T G σ ρ : Type) where
  /-- The thread was admitted: it set the flag. -/
  | admitted (thread : T) (guard : G)
  /-- The thread found its signal raised and gave up. -/
  | refused (thread : T) (guard : G) (raisedBefore : Bool)
  /-- The thread used the value. -/
  | used (thread : T) (guard : G) (op : σ → ρ × σ) (answer : ρ)

/-- What all threads share, the threads, and what has happened. -/
structure State (T G S σ ρ : Type) where
  /-- The guards. -/
  cells : G → Cell T σ
  /-- The signals. -/
  flags : S → Flag T G
  /-- The threads. -/
  threads : T → Thread G S σ ρ
  /-- What happened so far. -/
  history : List (Event T G σ ρ)

/-- The function `f` with the value at `a` replaced by `b`. -/
def assign {α β : Type} [DecidableEq α] (f : α → β) (a : α) (b : β) : α → β :=
  fun x => if x = a then b else f x

@[simp] theorem assign_self {α β : Type} [DecidableEq α] (f : α → β) (a : α) (b : β) :
    assign f a b a = b := by
  simp [assign]

@[simp] theorem assign_of_ne {α β : Type} [DecidableEq α] (f : α → β) {a x : α} (b : β)
    (h : x ≠ a) : assign f a b x = f x := by
  simp [assign, h]

/-- Take one entry for `g` off a list of registrations: the last entry comes to the
place of the first one for `g`. -/
def unregister {G : Type} [DecidableEq G] (g : G) : List G → List G
  | [] => []
  | h :: rest =>
    if h = g then
      match rest.getLast? with
      | some last => last :: rest.dropLast
      | none => []
    else h :: unregister g rest

/-- Unregistering takes off one entry, and only the order of the others changes. -/
theorem unregister_perm_erase {G : Type} [DecidableEq G] (g : G) (l : List G) :
    (unregister g l).Perm (l.erase g) := by
  fun_induction unregister g l with
  | case1 => exact .nil
  | case2 rest last h =>
    obtain ⟨front, rfl⟩ := List.getLast?_eq_some_iff.mp h
    simpa using (List.perm_append_singleton last front).symm
  | case3 rest h => simp [List.getLast?_eq_none_iff.mp h]
  | case4 h rest hne ih => simpa [List.erase_cons, hne] using ih

/-- A thread that is notified at `g` is awake. -/
def Stage.notified {G S σ ρ : Type} [DecidableEq G] (g : G) : Stage G S σ ρ → Stage G S σ ρ
  | asleep ask registered => if ask.guard = g then woken ask registered else asleep ask registered
  | stage => stage

namespace State

variable {T G S σ ρ : Type}

/-- Nothing is taken, raised or called; the guards have the values `init`. -/
def start (init : G → σ) : State T G S σ ρ where
  cells g := ⟨none, false, init g, none⟩
  flags _ := ⟨false, [], none⟩
  threads _ := ⟨.idle, []⟩
  history := []

variable [DecidableEq T] [DecidableEq G] [DecidableEq S]

/-- Where the thread `t` is. -/
def stage (s : State T G S σ ρ) (t : T) : Stage G S σ ρ := (s.threads t).stage

/-! ### Changes that steps are made of -/

/-- The thread `t` is at `stage`. -/
def goTo (s : State T G S σ ρ) (t : T) (stage : Stage G S σ ρ) : State T G S σ ρ :=
  { s with threads := assign s.threads t { s.threads t with stage } }

/-- The guard `g` is `cell`. -/
def setCell (s : State T G S σ ρ) (g : G) (cell : Cell T σ) : State T G S σ ρ :=
  { s with cells := assign s.cells g cell }

/-- The signal `sig` is `flag`. -/
def setFlag (s : State T G S σ ρ) (sig : S) (flag : Flag T G) : State T G S σ ρ :=
  { s with flags := assign s.flags sig flag }

/-- Something more has happened. -/
def note (s : State T G S σ ρ) (event : Event T G σ ρ) : State T G S σ ρ :=
  { s with history := s.history ++ [event] }

/-- The thread `t` takes the mutex of `g`, if it is free, and is at `stage`. -/
def lock (s : State T G S σ ρ) (t : T) (g : G) (stage : Stage G S σ ρ) :
    Option (State T G S σ ρ) :=
  match (s.cells g).owner with
  | none => some ((s.setCell g { s.cells g with owner := some t }).goTo t stage)
  | some _ => none

/-- The thread `t` releases the mutex of `g` and is at `stage`. -/
def unlock (s : State T G S σ ρ) (t : T) (g : G) (stage : Stage G S σ ρ) : State T G S σ ρ :=
  (s.setCell g { s.cells g with owner := none }).goTo t stage

/-- The thread `t` takes the list of `sig`, if it is free, and is at `stage`. -/
def lockList (s : State T G S σ ρ) (t : T) (sig : S) (stage : Stage G S σ ρ) :
    Option (State T G S σ ρ) :=
  match (s.flags sig).owner with
  | none => some ((s.setFlag sig { s.flags sig with owner := some t }).goTo t stage)
  | some _ => none

/-- The thread `t` makes the list of `sig` be `parked`, releases it and is at
`stage`. -/
def unlockList (s : State T G S σ ρ) (t : T) (sig : S) (parked : List G)
    (stage : Stage G S σ ρ) : State T G S σ ρ :=
  (s.setFlag sig { s.flags sig with parked, owner := none }).goTo t stage

/-- All that sleep at `g` wake. -/
def notifyAll (s : State T G S σ ρ) (g : G) : State T G S σ ρ :=
  { s with threads := fun t => { s.threads t with stage := (s.threads t).stage.notified g } }

/-- The thread `t` makes the value of `g` be what `op` makes of the value `seen`. -/
def apply (s : State T G S σ ρ) (t : T) (g : G) (op : σ → ρ × σ) (seen : σ)
    (stage : Stage G S σ ρ) : State T G S σ ρ :=
  let (answer, value) := op seen
  ((s.setCell g { s.cells g with value }).note (.used t g op answer)).goTo t stage

/-! ### Steps -/

/-- The next step of the thread `t`, if it has one. -/
def advance (s : State T G S σ ρ) (t : T) : Option (State T G S σ ρ) :=
  match s.stage t with
  | .idle => none
  | .entering ask =>
    match ask.signal with
    | some sig => s.lock t ask.guard (.testing ask sig)
    | none => s.lock t ask.guard (.looking ask none)
  | .testing ask sig =>
    some (s.goTo t (if (s.cells ask.guard).busy then .sampling ask sig else .marking ask))
  | .sampling ask sig => some (s.goTo t (.parking ask sig (s.flags sig).raised))
  | .parking ask sig before => s.lockList t sig (.registering ask sig before)
  | .registering ask sig before =>
    some (s.unlockList t sig ((s.flags sig).parked ++ [ask.guard])
      (.looking ask (some (sig, before))))
  | .looking ask registered =>
    some (s.goTo t
      (match (s.cells ask.guard).busy, registered with
      | true, some (sig, before) => .checking ask sig before
      | true, none => .dozing ask none
      | false, some (sig, _) => .unparking ask sig true
      | false, none => .marking ask))
  | .checking ask sig before =>
    some (if (s.flags sig).raised then
        (s.note (.refused t ask.guard before)).goTo t (.unparking ask sig false)
      else s.goTo t (.dozing ask (some (sig, before))))
  | .dozing ask registered => some (s.unlock t ask.guard (.asleep ask registered))
  | .asleep .. => none
  | .woken ask registered => s.lock t ask.guard (.looking ask registered)
  | .unparking ask sig granted => s.lockList t sig (.unregistering ask sig granted)
  | .unregistering ask sig granted =>
    some (s.unlockList t sig (Guard.unregister ask.guard (s.flags sig).parked)
      (if granted then .marking ask else .withdrawing ask))
  | .withdrawing ask => some (s.unlock t ask.guard .idle)
  | .marking ask =>
    some (((s.setCell ask.guard { s.cells ask.guard with busy := true }).note
      (.admitted t ask.guard)).goTo t (.unlocking ask))
  | .unlocking ask => some (s.unlock t ask.guard (.opening ask))
  | .opening ask =>
    match (s.cells ask.guard).user with
    | none =>
      some ((s.setCell ask.guard { s.cells ask.guard with user := some t }).goTo t (.inside ask))
    | some _ => none
  | .inside ask =>
    match ask.op with
    | some op => some (s.goTo t (.working ask.guard op (s.cells ask.guard).value true))
    | none =>
      some { s with threads := assign s.threads t ⟨.idle, ask.guard :: (s.threads t).kept⟩ }
  | .applying g op =>
    if (s.cells g).user = some t then some (s.goTo t (.working g op (s.cells g).value false))
    else none
  | .working g op seen last => some (s.apply t g op seen (if last then .closing g else .idle))
  | .closing g => some ((s.setCell g { s.cells g with user := none }).goTo t (.returning g))
  | .returning g => s.lock t g (.clearing g)
  | .clearing g => some ((s.setCell g { s.cells g with busy := false }).goTo t (.announcing g))
  | .announcing g => some ((s.notifyAll g).goTo t (.leaving g))
  | .leaving g => some (s.unlock t g .idle)
  | .flagging sig =>
    some ((s.setFlag sig { s.flags sig with raised := true }).goTo t (.listing sig))
  | .listing sig => s.lockList t sig (.copying sig)
  | .copying sig =>
    some (s.unlockList t sig (s.flags sig).parked (.ringing sig (s.flags sig).parked))
  | .ringing sig guards =>
    match guards with
    | [] => some (s.goTo t .idle)
    | g :: rest => s.lock t g (.notifying sig g rest)
  | .notifying sig g rest => some ((s.notifyAll g).goTo t (.quitting sig g rest))
  | .quitting sig g rest => some (s.unlock t g (.ringing sig rest))
  | .lowering sig => some ((s.setFlag sig { s.flags sig with raised := false }).goTo t .idle)

/-- Start a call. The thread is in none, and it uses or drops only what it keeps. -/
def call (s : State T G S σ ρ) (t : T) (call : Call G S σ ρ) : Option (State T G S σ ρ) :=
  match s.stage t, call with
  | .idle, .acquire ask => some (s.goTo t (.entering ask))
  | .idle, .use g op => if g ∈ (s.threads t).kept then some (s.goTo t (.applying g op)) else none
  | .idle, .drop g =>
    if g ∈ (s.threads t).kept then
      some { s with threads := assign s.threads t ⟨.closing g, (s.threads t).kept.erase g⟩ }
    else none
  | .idle, .raise sig => some (s.goTo t (.flagging sig))
  | .idle, .lower sig => some (s.goTo t (.lowering sig))
  | _, _ => none

/-- Wake without having been notified. -/
def wake (s : State T G S σ ρ) (t : T) : Option (State T G S σ ρ) :=
  match s.stage t with
  | .asleep ask registered => some (s.goTo t (.woken ask registered))
  | _ => none

/-- Make a move with the thread `t`, if it is possible. -/
def next (s : State T G S σ ρ) (t : T) : Move G S σ ρ → Option (State T G S σ ρ)
  | .advance => s.advance t
  | .call c => s.call t c
  | .wake => s.wake t

/-- The states a machine can come to from `s`, whatever its threads do and in
whatever order. -/
inductive Reaches (s : State T G S σ ρ) : State T G S σ ρ → Prop where
  /-- Nothing has been done. -/
  | refl : Reaches s s
  /-- One more move. -/
  | step {u v : State T G S σ ρ} {t : T} {move : Move G S σ ρ} :
      Reaches s u → u.next t move = some v → Reaches s v

end State

end Spool.Guard
