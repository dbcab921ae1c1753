import Spool.Guard.Machine

/-!
# Kinds of steps

A machine has some forty stages, but there are few kinds of steps between them. What a
thread holds at a stage is its `Stage.profile`: the mutex of a guard, the list of a signal,
a guard that it has taken, the value of one. Most steps change at most one of these, and
the shared state with it. `State.Step` lists the kinds, and `State.step_of_next` says that
every move is of one of them; what is proved of all moves is proved kind by kind.
-/

namespace Spool.Guard

variable {T G S σ ρ : Type}

/-! ### What a thread holds -/

namespace Stage

/-- The guard whose mutex the thread holds. -/
def mutex : Stage G S σ ρ → Option G
  | testing ask _ | sampling ask _ | parking ask _ _ | registering ask _ _ | looking ask _
  | checking ask _ _ | dozing ask _ | unparking ask _ _ | unregistering ask _ _
  | withdrawing ask | marking ask | unlocking ask => some ask.guard
  | clearing g | announcing g | leaving g | notifying _ g _ | quitting _ g _ => some g
  | _ => none

/-- The signal whose list the thread holds. -/
def list : Stage G S σ ρ → Option S
  | registering _ sig _ | unregistering _ sig _ | copying sig => some sig
  | _ => none

/-- The guard whose flag is set for the present call of the thread. -/
def taken : Stage G S σ ρ → Option G
  | unlocking ask | opening ask | inside ask => some ask.guard
  | working g _ _ true | closing g | returning g | clearing g => some g
  | _ => none

/-- The guard whose value the present call of the thread has. -/
def entered : Stage G S σ ρ → Option G
  | inside ask => some ask.guard
  | working g _ _ true | closing g => some g
  | _ => none

/-- The guard that is kept from a call before and in use. -/
def uses : Stage G S σ ρ → Option G
  | applying g _ | working g _ _ false => some g
  | _ => none

/-- What the thread knows of the flag of the guard it asks for: it has looked at it and has
held the mutex since. -/
def knows : Stage G S σ ρ → Option (G × Bool)
  | sampling ask _ | parking ask _ _ | registering ask _ _ | checking ask _ _ | dozing ask _
  | withdrawing ask => some (ask.guard, true)
  | unparking ask _ granted | unregistering ask _ granted => some (ask.guard, !granted)
  | marking ask => some (ask.guard, false)
  | _ => none

/-- The guard at whose value the thread has looked, and what it saw. -/
def seen : Stage G S σ ρ → Option (G × σ)
  | working g _ seen _ => some (g, seen)
  | _ => none

/-- Only who holds the mutex knows the flag. -/
theorem mutex_of_knows {stage : Stage G S σ ρ} {g : G} {b : Bool}
    (h : stage.knows = some (g, b)) : stage.mutex = some g := by
  cases stage <;> simp_all [knows, mutex]

theorem taken_of_entered {stage : Stage G S σ ρ} {g : G} (h : stage.entered = some g) :
    stage.taken = some g := by
  unfold entered at h
  split at h <;> simp_all [taken]

theorem entered_or_uses_of_seen {stage : Stage G S σ ρ} {g : G} {v : σ}
    (h : stage.seen = some (g, v)) : stage.entered = some g ∨ stage.uses = some g := by
  unfold seen at h
  split at h
  · rename_i last
    cases last <;> simp_all [entered, uses]
  · cases h

end Stage

/-- What a thread holds. -/
structure Profile (G S : Type) where
  /-- The mutex of a guard. -/
  mutex : Option G
  /-- The list of a signal. -/
  list : Option S
  /-- A guard that its present call has taken. -/
  taken : Option G
  /-- A guard whose value its present call has. -/
  entered : Option G
  /-- A guard that is kept and in use. -/
  uses : Option G

/-- What a thread holds at a stage. -/
def Stage.profile (stage : Stage G S σ ρ) : Profile G S :=
  ⟨stage.mutex, stage.list, stage.taken, stage.entered, stage.uses⟩

@[simp] theorem Stage.profile_notified [DecidableEq G] (g : G) (stage : Stage G S σ ρ) :
    (stage.notified g).profile = stage.profile := by
  cases stage with
  | asleep ask registered =>
    rw [notified]
    split <;> rfl
  | _ => rfl

@[simp] theorem Stage.knows_notified [DecidableEq G] (g : G) (stage : Stage G S σ ρ) :
    (stage.notified g).knows = stage.knows := by
  cases stage with
  | asleep ask registered =>
    rw [notified]
    split <;> rfl
  | _ => rfl

@[simp] theorem Stage.seen_notified [DecidableEq G] (g : G) (stage : Stage G S σ ρ) :
    (stage.notified g).seen = stage.seen := by
  cases stage with
  | asleep ask registered =>
    rw [notified]
    split <;> rfl
  | _ => rfl

/-! ### Kinds of steps -/

namespace State

/-- The thread `t` may go to `stage`, where it holds `p`: what it knows of a flag there it
knew before or it is so, and what it has seen of a value there is so. -/
structure Leads (s : State T G S σ ρ) (t : T) (p : Profile G S) (stage : Stage G S σ ρ) :
    Prop where
  /-- What the thread holds there. -/
  profile : stage.profile = p
  /-- What it knows there. -/
  knows : ∀ g b, stage.knows = some (g, b) →
    (s.stage t).knows = some (g, b) ∨ (s.cells g).busy = b
  /-- What it has seen there. -/
  seen : ∀ g v, stage.seen = some (g, v) → (s.cells g).value = v

namespace Leads

variable {s : State T G S σ ρ} {t : T} {p : Profile G S} {stage : Stage G S σ ρ}

theorem mutex (h : s.Leads t p stage) : stage.mutex = p.mutex := congrArg Profile.mutex h.profile

theorem list (h : s.Leads t p stage) : stage.list = p.list := congrArg Profile.list h.profile

theorem taken (h : s.Leads t p stage) : stage.taken = p.taken := congrArg Profile.taken h.profile

theorem entered (h : s.Leads t p stage) : stage.entered = p.entered :=
  congrArg Profile.entered h.profile

theorem uses (h : s.Leads t p stage) : stage.uses = p.uses := congrArg Profile.uses h.profile

theorem of_profile (hp : stage.profile = p)
    (hk : stage.knows = none) (hv : stage.seen = none) : s.Leads t p stage :=
  ⟨hp, fun g b h => by simp [hk] at h, fun g v h => by simp [hv] at h⟩

theorem of_knows (hp : stage.profile = p)
    (hk : stage.knows = (s.stage t).knows) (hv : stage.seen = none) : s.Leads t p stage :=
  ⟨hp, fun g b h => .inl (hk ▸ h), fun g v h => by simp [hv] at h⟩

theorem of_seen {g : G} (hp : stage.profile = p)
    (hk : stage.knows = none) (hv : stage.seen = some (g, (s.cells g).value)) : s.Leads t p stage :=
  ⟨hp, fun g b h => by simp [hk] at h, fun g v h => by simp_all⟩

end Leads

/-! ### The thread that makes a step -/

variable [DecidableEq T]

theorem stage_assign_self (s : State T G S σ ρ) (t : T) (th : Thread G S σ ρ) :
    ({ s with threads := assign s.threads t th } : State T G S σ ρ).stage t = th.stage :=
  congrArg Thread.stage (assign_self _ _ _)

theorem kept_assign_self (s : State T G S σ ρ) (t : T) (th : Thread G S σ ρ) :
    (({ s with threads := assign s.threads t th } : State T G S σ ρ).threads t).kept = th.kept :=
  congrArg Thread.kept (assign_self _ _ _)

@[simp] theorem stage_goTo_self (s : State T G S σ ρ) (t : T) (stage : Stage G S σ ρ) :
    (s.goTo t stage).stage t = stage :=
  s.stage_assign_self t _

@[simp] theorem kept_goTo_self (s : State T G S σ ρ) (t : T) (stage : Stage G S σ ρ) :
    ((s.goTo t stage).threads t).kept = (s.threads t).kept :=
  s.kept_assign_self t _

section

variable [DecidableEq G]

theorem lock_eq_some_iff {s s' : State T G S σ ρ} {t : T} {g : G} {stage : Stage G S σ ρ} :
    s.lock t g stage = some s' ↔ (s.cells g).owner = none ∧
      s' = (s.setCell g { s.cells g with owner := some t }).goTo t stage := by
  unfold lock
  cases (s.cells g).owner <;> simp [eq_comm]

@[simp] theorem stage_unlock_self (s : State T G S σ ρ) (t : T) (g : G) (stage : Stage G S σ ρ) :
    (s.unlock t g stage).stage t = stage :=
  stage_goTo_self _ t stage

@[simp] theorem kept_unlock_self (s : State T G S σ ρ) (t : T) (g : G) (stage : Stage G S σ ρ) :
    ((s.unlock t g stage).threads t).kept = (s.threads t).kept :=
  kept_goTo_self _ t stage

@[simp] theorem stage_apply_self (s : State T G S σ ρ) (t : T) (g : G) (op : σ → ρ × σ) (seen : σ)
    (stage : Stage G S σ ρ) : (s.apply t g op seen stage).stage t = stage :=
  stage_goTo_self _ t stage

@[simp] theorem kept_apply_self (s : State T G S σ ρ) (t : T) (g : G) (op : σ → ρ × σ) (seen : σ)
    (stage : Stage G S σ ρ) : ((s.apply t g op seen stage).threads t).kept = (s.threads t).kept :=
  kept_goTo_self _ t stage

end

section

variable [DecidableEq S]

theorem lockList_eq_some_iff {s s' : State T G S σ ρ} {t : T} {sig : S} {stage : Stage G S σ ρ} :
    s.lockList t sig stage = some s' ↔ (s.flags sig).owner = none ∧
      s' = (s.setFlag sig { s.flags sig with owner := some t }).goTo t stage := by
  unfold lockList
  cases (s.flags sig).owner <;> simp [eq_comm]

@[simp] theorem stage_unlockList_self (s : State T G S σ ρ) (t : T) (sig : S) (parked : List G)
    (stage : Stage G S σ ρ) : (s.unlockList t sig parked stage).stage t = stage :=
  stage_goTo_self _ t stage

@[simp] theorem kept_unlockList_self (s : State T G S σ ρ) (t : T) (sig : S) (parked : List G)
    (stage : Stage G S σ ρ) :
    ((s.unlockList t sig parked stage).threads t).kept = (s.threads t).kept :=
  kept_goTo_self _ t stage

end

variable [DecidableEq G] [DecidableEq S]

/-- The kinds of steps that the thread `t` can make. -/
inductive Step (s : State T G S σ ρ) (t : T) : State T G S σ ρ → Prop where
  /-- The thread goes on and holds what it held. -/
  | goTo (stage : Stage G S σ ρ) : s.Leads t (s.stage t).profile stage → Step s t (s.goTo t stage)
  /-- It takes the mutex of a guard. -/
  | lock (g : G) (stage : Stage G S σ ρ) : (s.cells g).owner = none → (s.stage t).mutex = none →
      s.Leads t { (s.stage t).profile with mutex := some g } stage →
      Step s t ((s.setCell g { s.cells g with owner := some t }).goTo t stage)
  /-- It releases the mutex of a guard. -/
  | unlock (g : G) (stage : Stage G S σ ρ) : (s.stage t).mutex = some g →
      s.Leads t { (s.stage t).profile with mutex := none } stage → Step s t (s.unlock t g stage)
  /-- It takes the list of a signal. -/
  | lockList (sig : S) (stage : Stage G S σ ρ) : (s.flags sig).owner = none →
      (s.stage t).list = none → s.Leads t { (s.stage t).profile with list := some sig } stage →
      Step s t ((s.setFlag sig { s.flags sig with owner := some t }).goTo t stage)
  /-- It releases the list of a signal. -/
  | unlockList (sig : S) (parked : List G) (stage : Stage G S σ ρ) : (s.stage t).list = some sig →
      s.Leads t { (s.stage t).profile with list := none } stage →
      Step s t (s.unlockList t sig parked stage)
  /-- It raises or lowers a signal. -/
  | flag (sig : S) (raised : Bool) (stage : Stage G S σ ρ) :
      s.Leads t (s.stage t).profile stage →
      Step s t ((s.setFlag sig { s.flags sig with raised }).goTo t stage)
  /-- It wakes all that sleep at a guard. -/
  | notify (g : G) (stage : Stage G S σ ρ) : s.Leads t (s.stage t).profile stage →
      Step s t ((s.notifyAll g).goTo t stage)
  /-- It gives up waiting. -/
  | refuse (ask : Ask G S σ ρ) (sig : S) (before : Bool) : s.stage t = .checking ask sig before →
      (s.flags sig).raised = true →
      Step s t ((s.note (.refused t ask.guard before)).goTo t (.unparking ask sig false))
  /-- It takes a guard. -/
  | mark (ask : Ask G S σ ρ) : s.stage t = .marking ask →
      Step s t (((s.setCell ask.guard { s.cells ask.guard with busy := true }).note
        (.admitted t ask.guard)).goTo t (.unlocking ask))
  /-- It takes the value of a guard. -/
  | enter (ask : Ask G S σ ρ) : s.stage t = .opening ask → (s.cells ask.guard).user = none →
      Step s t ((s.setCell ask.guard { s.cells ask.guard with user := some t }).goTo t
        (.inside ask))
  /-- It changes the value of a guard. -/
  | apply (g : G) (op : σ → ρ × σ) (seen : σ) (last : Bool) :
      s.stage t = .working g op seen last →
      Step s t (s.apply t g op seen (if last then .closing g else .idle))
  /-- It gives the value of a guard back. -/
  | close (g : G) : s.stage t = .closing g →
      Step s t ((s.setCell g { s.cells g with user := none }).goTo t (.returning g))
  /-- It gives a guard back. -/
  | clear (g : G) : s.stage t = .clearing g →
      Step s t ((s.setCell g { s.cells g with busy := false }).goTo t (.announcing g))
  /-- It keeps a guard beyond its call. -/
  | keep (ask : Ask G S σ ρ) : s.stage t = .inside ask → ask.op = none →
      Step s t { s with threads := assign s.threads t ⟨.idle, ask.guard :: (s.threads t).kept⟩ }
  /-- It is about to use a guard that it keeps. -/
  | use (g : G) (op : σ → ρ × σ) : s.stage t = .idle → g ∈ (s.threads t).kept →
      Step s t (s.goTo t (.applying g op))
  /-- It is about to drop a guard that it keeps. -/
  | drop (g : G) : s.stage t = .idle → g ∈ (s.threads t).kept →
      Step s t { s with threads := assign s.threads t ⟨.closing g, (s.threads t).kept.erase g⟩ }

/-! ### Where a step leads -/

variable {s s' : State T G S σ ρ} {t : T}

/-- **Every step is of one of the kinds.** -/
theorem step_of_advance (h : s.advance t = some s') : s.Step t s' := by
  cases hs : s.stage t
  all_goals
    simp only [advance, hs, lock_eq_some_iff, lockList_eq_some_iff, Option.some.injEq,
      reduceCtorEq] at h
  case entering ask =>
    cases hsig : ask.signal
    all_goals
      simp only [hsig, lock_eq_some_iff] at h
      obtain ⟨hfree, rfl⟩ := h
      exact .lock _ _ hfree (by rw [hs]; rfl) (.of_profile (by rw [hs]; rfl) rfl rfl)
  case woken | returning =>
    obtain ⟨hfree, rfl⟩ := h
    exact .lock _ _ hfree (by rw [hs]; rfl) (.of_profile (by rw [hs]; rfl) rfl rfl)
  case ringing sig guards =>
    cases guards with
    | nil =>
      cases h
      exact .goTo _ (.of_profile (by rw [hs]; rfl) rfl rfl)
    | cons g rest =>
      obtain ⟨hfree, rfl⟩ := lock_eq_some_iff.mp h
      exact .lock _ _ hfree (by rw [hs]; rfl) (.of_profile (by rw [hs]; rfl) rfl rfl)
  case dozing | withdrawing | unlocking | leaving | quitting =>
    subst h
    exact .unlock _ _ (by rw [hs]; rfl) (.of_profile (by rw [hs]; rfl) rfl rfl)
  case parking | unparking | listing =>
    obtain ⟨hfree, rfl⟩ := h
    exact .lockList _ _ hfree (by rw [hs]; rfl) (.of_knows (by rw [hs]; rfl) (by rw [hs]; rfl) rfl)
  case registering | copying =>
    subst h
    exact .unlockList _ _ _ (by rw [hs]; rfl) (.of_profile (by rw [hs]; rfl) rfl rfl)
  case unregistering ask sig granted =>
    subst h
    cases granted
    all_goals
      exact .unlockList _ _ _ (by rw [hs]; rfl) (.of_knows (by rw [hs]; rfl) (by rw [hs]; rfl) rfl)
  case testing | looking =>
    -- the flag is read, and from here on it is known
    subst h
    refine .goTo _ ⟨by rw [hs]; split <;> rfl, fun g b hk => .inr ?_, fun g v hv => ?_⟩
    · split at hk <;> simp_all [Stage.knows]
    · split at hv <;> cases hv
  case sampling =>
    subst h
    exact .goTo _ (.of_knows (by rw [hs]; rfl) (by rw [hs]; rfl) rfl)
  case checking ask sig before =>
    subst h
    split
    · rename_i hraised
      exact .refuse ask sig before hs hraised
    · exact .goTo _ (.of_knows (by rw [hs]; rfl) (by rw [hs]; rfl) rfl)
  case marking ask =>
    subst h
    exact .mark ask hs
  case opening ask =>
    split at h
    · cases h
      exact .enter ask hs ‹_›
    · cases h
  case inside ask =>
    split at h
    · cases h
      exact .goTo _ (.of_seen (by rw [hs]; rfl) rfl rfl)
    · cases h
      exact .keep ask hs ‹_›
  case applying g op =>
    split at h
    · cases h
      exact .goTo _ (.of_seen (by rw [hs]; rfl) rfl rfl)
    · cases h
  case working g op seen last =>
    subst h
    exact .apply g op seen last hs
  case closing g =>
    subst h
    exact .close g hs
  case clearing g =>
    subst h
    exact .clear g hs
  case announcing | notifying =>
    subst h
    exact .notify _ _ (.of_profile (by rw [hs]; rfl) rfl rfl)
  case flagging | lowering =>
    subst h
    exact .flag _ _ _ (.of_profile (by rw [hs]; rfl) rfl rfl)

/-- A call is begun, or a guard that is kept is about to be used or dropped. -/
theorem step_of_call {call : Call G S σ ρ} (h : s.call t call = some s') : s.Step t s' := by
  cases hs : s.stage t
  all_goals simp only [State.call, hs, reduceCtorEq] at h
  cases call with
  | acquire | raise | lower =>
    cases h
    exact .goTo _ (.of_profile (by rw [hs]; rfl) rfl rfl)
  | use g op =>
    simp only [Option.ite_none_right_eq_some, Option.some.injEq] at h
    obtain ⟨hkept, rfl⟩ := h
    exact .use g op hs hkept
  | drop g =>
    simp only [Option.ite_none_right_eq_some, Option.some.injEq] at h
    obtain ⟨hkept, rfl⟩ := h
    exact .drop g hs hkept

theorem step_of_wake (h : s.wake t = some s') : s.Step t s' := by
  cases hs : s.stage t
  all_goals simp only [wake, hs, reduceCtorEq, Option.some.injEq] at h
  subst h
  exact .goTo _ (.of_profile (by rw [hs]; rfl) rfl rfl)

/-- **Every move is of one of the kinds.** -/
theorem step_of_next {move : Move G S σ ρ} (h : s.next t move = some s') : s.Step t s' := by
  cases move with
  | advance => exact step_of_advance h
  | call c => exact step_of_call h
  | wake => exact step_of_wake h

/-! ### Runs -/

/-- Make moves one after another, if they are possible. -/
def run (s : State T G S σ ρ) : List (T × Move G S σ ρ) → Option (State T G S σ ρ)
  | [] => some s
  | (t, move) :: rest => (s.next t move).bind (·.run rest)

theorem Reaches.trans {u v : State T G S σ ρ} (h : s.Reaches u) (h' : u.Reaches v) :
    s.Reaches v := by
  induction h' with
  | refl => exact h
  | step _ hstep ih => exact .step ih hstep

theorem reaches_of_run {moves : List (T × Move G S σ ρ)} (h : s.run moves = some s') :
    s.Reaches s' := by
  induction moves generalizing s with
  | nil =>
    cases h
    exact .refl
  | cons m rest ih =>
    obtain ⟨u, hu, h⟩ := Option.bind_eq_some_iff.mp h
    exact (Reaches.step .refl hu).trans (ih h)

/-! ### Who makes no step -/

/-- The thread `u` holds, knows and has seen in `s'` what it did in `s`. -/
structure Rests (s s' : State T G S σ ρ) (u : T) : Prop where
  /-- What it holds. -/
  profile : (s'.stage u).profile = (s.stage u).profile
  /-- What it knows. -/
  knows : (s'.stage u).knows = (s.stage u).knows
  /-- What it has seen. -/
  seen : (s'.stage u).seen = (s.stage u).seen
  /-- What it keeps. -/
  kept : (s'.threads u).kept = (s.threads u).kept

/-- A step of one thread leaves the others where they are, or wakes them. -/
theorem Step.stage_of_ne (h : s.Step t s') {u : T} (hu : u ≠ t) :
    (s'.threads u).kept = (s.threads u).kept ∧
      (s'.stage u = s.stage u ∨ ∃ g, s'.stage u = (s.stage u).notified g) := by
  have hsame : ∀ {th : Thread G S σ ρ}, assign s.threads t th u = s.threads u :=
    assign_of_ne _ _ hu
  cases h with
  | notify g stage =>
    have hth : ((s.notifyAll g).goTo t stage).threads u =
        { s.threads u with stage := (s.threads u).stage.notified g } := assign_of_ne _ _ hu
    exact ⟨by rw [hth], .inr ⟨g, congrArg Thread.stage hth⟩⟩
  | _ => exact ⟨congrArg Thread.kept hsame, .inl (congrArg Thread.stage hsame)⟩

theorem Step.rests (h : s.Step t s') {u : T} (hu : u ≠ t) : s.Rests s' u := by
  obtain ⟨hkept, hstage | ⟨g, hstage⟩⟩ := h.stage_of_ne hu
  · exact ⟨by rw [hstage], by rw [hstage], by rw [hstage], hkept⟩
  · exact ⟨by rw [hstage, Stage.profile_notified], by rw [hstage, Stage.knows_notified],
      by rw [hstage, Stage.seen_notified], hkept⟩

end State

end Spool.Guard
