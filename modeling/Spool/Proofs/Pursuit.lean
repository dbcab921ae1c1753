import Spool.Guard.Schedule
import Spool.Proofs.Steps

/-!
# What becomes of a request for a guard

A thread that asks for a guard goes through many stages, but few things happen to its
request on the way: it is admitted, and then it does what it came for, or keeps the guard if
it came for that; or it is refused. `Stage.Pursues` says that a thread is still about it,
and `State.Progress` what a step can do to it. A thread that is about nothing
(`Stage.isAimless`) leaves no trace in the history and does not change a value.
-/

namespace Spool.Guard

variable {T G S σ ρ : Type}

namespace Stage

/-- The thread is about the request `ask`, which is neither done nor refused yet. -/
def Pursues (ask : Ask G S σ ρ) : Stage G S σ ρ → Prop
  | entering a | marking a | unlocking a | opening a | inside a => a = ask
  | testing a sig | sampling a sig | parking a sig _ | registering a sig _ | checking a sig _ =>
    a = ask ∧ ask.signal = some sig
  | looking a registered | dozing a registered | asleep a registered | woken a registered =>
    a = ask ∧ ∀ sig before, registered = some (sig, before) → ask.signal = some sig
  | unparking a _ granted | unregistering a _ granted => a = ask ∧ granted = true
  | working g op _ last => g = ask.guard ∧ ask.op = some op ∧ last = true
  | _ => False

/-- The thread is about no request, nor about to use a guard that it keeps. -/
def isAimless : Stage G S σ ρ → Bool
  | idle | unparking _ _ false | unregistering _ _ false | withdrawing _ | closing _ | returning _
  | clearing _ | announcing _ | leaving _ | flagging _ | listing _ | copying _ | ringing _ _
  | notifying _ _ _ | quitting _ _ _ | lowering _ => true
  | _ => false

variable {ask : Ask G S σ ρ} {stage : Stage G S σ ρ}

theorem seen_of_isAimless (h : stage.isAimless = true) : stage.seen = none := by
  cases stage <;> simp_all [isAimless, seen]

theorem taken_of_knows {x : G × Bool} (h : stage.knows = some x) : stage.taken = none := by
  cases stage <;> simp_all [knows, taken]

theorem seen_of_knows {x : G × Bool} (h : stage.knows = some x) : stage.seen = none := by
  cases stage <;> simp_all [knows, seen]

@[simp] theorem pursues_notified [DecidableEq G] (g : G) :
    (stage.notified g).Pursues ask ↔ stage.Pursues ask := by
  cases stage with
  | asleep a registered =>
    rw [notified]
    split <;> exact Iff.rfl
  | _ => exact Iff.rfl

@[simp] theorem isAimless_notified [DecidableEq G] (g : G) :
    (stage.notified g).isAimless = stage.isAimless := by
  cases stage with
  | asleep a registered =>
    rw [notified]
    split <;> rfl
  | _ => rfl

end Stage

namespace State

variable {s s' : State T G S σ ρ} {t : T} {ask : Ask G S σ ρ}

theorem isIdle_iff : s.isIdle t = true ↔ s.stage t = .idle := by
  unfold isIdle
  cases s.stage t <;> simp

/-- What a step can do to a request of its thread. -/
inductive Progress (s s' : State T G S σ ρ) (t : T) (ask : Ask G S σ ρ) : Prop where
  /-- It goes on. -/
  | quiet : (s'.stage t).Pursues ask → (s'.stage t).taken = (s.stage t).taken →
      (s.stage t).seen = none → s'.history = s.history → Progress s s' t ask
  /-- It is admitted. -/
  | admitted : (s'.stage t).Pursues ask → (s'.stage t).taken = some ask.guard →
      (s.stage t).knows = some (ask.guard, false) →
      s'.history = s.history ++ [.admitted t ask.guard] → Progress s s' t ask
  /-- It is refused: its signal is raised, and the guard is taken. -/
  | refused (sig : S) (before : Bool) : (s'.stage t).isAimless = true → ask.signal = some sig →
      (s.flags sig).raised = true → (s.stage t).knows = some (ask.guard, true) →
      s'.history = s.history ++ [.refused t ask.guard before] → Progress s s' t ask
  /-- It is done: the thread changes the value that it has seen. -/
  | used (op : σ → ρ × σ) (seen : σ) : ask.op = some op → (s'.stage t).isAimless = true →
      (s.stage t).taken = some ask.guard → (s.stage t).seen = some (ask.guard, seen) →
      (s'.cells ask.guard).value = (op seen).2 →
      s'.history = s.history ++ [.used t ask.guard op (op seen).1] → Progress s s' t ask
  /-- It is done: the thread keeps the guard. -/
  | kept : ask.op = none → (s'.stage t).isAimless = true →
      (s.stage t).taken = some ask.guard → ask.guard ∈ (s'.threads t).kept →
      s'.history = s.history → Progress s s' t ask

theorem Progress.quiet_of {stage : Stage G S σ ρ} (hs' : s'.stage t = stage)
    (hp : stage.Pursues ask) (ht : stage.taken = (s.stage t).taken) (hv : (s.stage t).seen = none)
    (hh : s'.history = s.history) : s.Progress s' t ask :=
  .quiet (hs' ▸ hp) (hs' ▸ ht) hv hh

variable [DecidableEq T] [DecidableEq G] [DecidableEq S]

/-- **A step of a thread that is about a request** makes it go on, admits or refuses it, or
does it. -/
theorem progress_of_advance (hp : (s.stage t).Pursues ask) (h : s.advance t = some s') :
    s.Progress s' t ask := by
  cases hs : s.stage t
  all_goals
    rw [hs] at hp
    simp only [advance, hs, lock_eq_some_iff, lockList_eq_some_iff, Option.some.injEq,
      reduceCtorEq] at h
  case entering a =>
    cases hp
    cases hsig : ask.signal with
    | none =>
      simp only [hsig, lock_eq_some_iff] at h
      obtain ⟨-, rfl⟩ := h
      exact .quiet_of (stage_goTo_self _ _ _) ⟨rfl, fun _ _ e => by cases e⟩
        (by rw [hs]; rfl) (by rw [hs]; rfl) rfl
    | some sig =>
      simp only [hsig, lock_eq_some_iff] at h
      obtain ⟨-, rfl⟩ := h
      exact .quiet_of (stage_goTo_self _ _ _) ⟨rfl, hsig⟩ (by rw [hs]; rfl) (by rw [hs]; rfl) rfl
  case testing a sig =>
    subst h
    obtain ⟨rfl, hsig⟩ := hp
    refine .quiet_of (stage_goTo_self _ _ _) ?_ (by rw [hs]; split <;> rfl) (by rw [hs]; rfl) rfl
    split
    · exact ⟨rfl, hsig⟩
    · exact rfl
  case sampling a sig =>
    subst h
    exact .quiet_of (stage_goTo_self _ _ _) hp (by rw [hs]; rfl) (by rw [hs]; rfl) rfl
  case parking a sig before =>
    obtain ⟨-, rfl⟩ := h
    exact .quiet_of (stage_goTo_self _ _ _) hp (by rw [hs]; rfl) (by rw [hs]; rfl) rfl
  case registering a sig before =>
    subst h
    obtain ⟨rfl, hsig⟩ := hp
    exact .quiet_of (stage_unlockList_self _ _ _ _ _) ⟨rfl, fun _ _ e => by cases e; exact hsig⟩
      (by rw [hs]; rfl) (by rw [hs]; rfl) rfl
  case looking a registered =>
    subst h
    obtain ⟨rfl, hsig⟩ := hp
    refine .quiet_of (stage_goTo_self _ _ _) ?_ (by rw [hs]; split <;> rfl) (by rw [hs]; rfl) rfl
    split
    · exact ⟨rfl, hsig _ _ rfl⟩
    · exact ⟨rfl, hsig⟩
    · exact ⟨rfl, rfl⟩
    · exact rfl
  case checking a sig before =>
    subst h
    obtain ⟨rfl, hsig⟩ := hp
    split
    · rename_i hraised
      refine .refused sig before ?_ hsig hraised (by rw [hs]; rfl) rfl
      rw [stage_goTo_self]
      rfl
    · exact .quiet_of (stage_goTo_self _ _ _) ⟨rfl, fun _ _ e => by cases e; exact hsig⟩
        (by rw [hs]; rfl) (by rw [hs]; rfl) rfl
  case dozing a registered =>
    subst h
    exact .quiet_of (stage_unlock_self _ _ _ _) hp (by rw [hs]; rfl) (by rw [hs]; rfl) rfl
  case woken a registered =>
    obtain ⟨-, rfl⟩ := h
    exact .quiet_of (stage_goTo_self _ _ _) hp (by rw [hs]; rfl) (by rw [hs]; rfl) rfl
  case unparking a sig granted =>
    obtain ⟨-, rfl⟩ := h
    exact .quiet_of (stage_goTo_self _ _ _) hp (by rw [hs]; rfl) (by rw [hs]; rfl) rfl
  case unregistering a sig granted =>
    subst h
    obtain ⟨rfl, rfl⟩ := hp
    exact .quiet_of (stage_unlockList_self _ _ _ _ _) rfl (by rw [hs]; rfl) (by rw [hs]; rfl) rfl
  case marking a =>
    subst h
    cases hp
    refine .admitted ?_ ?_ (by rw [hs]; rfl) rfl
    · rw [stage_goTo_self]
      exact rfl
    · rw [stage_goTo_self]
      rfl
  case unlocking a =>
    subst h
    exact .quiet_of (stage_unlock_self _ _ _ _) hp (by rw [hs]; rfl) (by rw [hs]; rfl) rfl
  case opening a =>
    split at h
    · cases h
      exact .quiet_of (stage_goTo_self _ _ _) hp (by rw [hs]; rfl) (by rw [hs]; rfl) rfl
    · cases h
  case inside a =>
    cases hp
    split at h
    · rename_i op hop
      cases h
      exact .quiet_of (stage_goTo_self _ _ _) ⟨rfl, hop, rfl⟩ (by rw [hs]; rfl) (by rw [hs]; rfl)
        rfl
    · rename_i hop
      cases h
      refine .kept hop ?_ (by rw [hs]; rfl) ?_ rfl
      · rw [stage_assign_self]
        rfl
      · rw [kept_assign_self]
        exact List.mem_cons_self
  case working g op seen last =>
    subst h
    obtain ⟨rfl, hop, rfl⟩ := hp
    refine .used op seen hop ?_ (by rw [hs]; rfl) (by rw [hs]; rfl) ?_ rfl
    · rw [stage_apply_self]
      rfl
    · exact congrArg Cell.value (assign_self _ _ _)
  all_goals cases hp

/-- A step of a thread that is about nothing leaves no trace. -/
theorem history_of_isAimless (ha : (s.stage t).isAimless = true) (h : s.advance t = some s') :
    (s'.stage t).isAimless = true ∧ s'.history = s.history := by
  cases hs : s.stage t
  all_goals
    rw [hs] at ha
    simp only [advance, hs, lock_eq_some_iff, lockList_eq_some_iff, Option.some.injEq,
      reduceCtorEq] at h
  case ringing sig guards =>
    cases guards with
    | nil =>
      cases h
      exact ⟨by rw [stage_goTo_self]; rfl, rfl⟩
    | cons g rest =>
      obtain ⟨-, rfl⟩ := lock_eq_some_iff.mp h
      exact ⟨by rw [stage_goTo_self]; rfl, rfl⟩
  case returning | listing =>
    obtain ⟨-, rfl⟩ := h
    exact ⟨by rw [stage_goTo_self]; rfl, rfl⟩
  case unparking a sig granted =>
    obtain ⟨-, rfl⟩ := h
    cases granted with
    | true => cases ha
    | false => exact ⟨by rw [stage_goTo_self]; rfl, rfl⟩
  case unregistering a sig granted =>
    subst h
    cases granted with
    | true => cases ha
    | false => exact ⟨by rw [stage_unlockList_self]; rfl, rfl⟩
  case copying =>
    subst h
    exact ⟨by rw [stage_unlockList_self]; rfl, rfl⟩
  case withdrawing | leaving | quitting =>
    subst h
    exact ⟨by rw [stage_unlock_self]; rfl, rfl⟩
  case closing | clearing | announcing | flagging | notifying | lowering =>
    subst h
    exact ⟨by rw [stage_goTo_self]; rfl, rfl⟩
  all_goals cases ha

omit [DecidableEq S] in
theorem stage_of_call {call : Call G S σ ρ} (h : s.call t call = some s') : s.stage t = .idle := by
  cases hs : s.stage t with
  | idle => rfl
  | _ => simp [State.call, hs] at h

omit [DecidableEq G] [DecidableEq S] in
theorem stage_of_wake (h : s.wake t = some s') : ∃ ask registered,
    s.stage t = .asleep ask registered ∧ s' = s.goTo t (.woken ask registered) := by
  cases hs : s.stage t with
  | asleep ask registered =>
    simp only [wake, hs, Option.some.injEq] at h
    exact ⟨ask, registered, rfl, h.symm⟩
  | _ => simp [wake, hs] at h

/-- A thread that asks for nothing to keep keeps nothing. -/
theorem Step.kept_eq_nil (h : s.Step t s') (hkept : (s.threads t).kept = [])
    (hop : ∀ ask, s.stage t = .inside ask → ask.op ≠ none) : (s'.threads t).kept = [] := by
  cases h with
  | keep ask hs hnone => exact absurd hnone (hop ask hs)
  | drop g hs hg | use g op hs hg =>
    rw [hkept] at hg
    cases hg
  | unlock => rwa [kept_unlock_self]
  | unlockList => rwa [kept_unlockList_self]
  | apply => rwa [kept_apply_self]
  | goTo | lock | lockList | flag | notify | refuse | mark | enter | close | clear =>
    rw [kept_goTo_self]
    exact hkept

end State

end Spool.Guard
