import Spool.Proofs.Exclusion

/-!
# Nobody who can go on is left asleep

A thread that finds a guard taken looks at its signal and falls asleep. Between the look and
the sleep the guard may be dropped and the signal raised, and it would sleep on if it could
miss that. It cannot: it holds the guard's mutex from its look to its sleep, and whoever drops
the guard or raises the signal notifies under the same mutex.

Said of a state (`Wakeful`): where a thread sleeps, or is about to, at a guard that is clear,
another has cleared the guard and not yet told of it; where its signal is raised, another that
has raised it is still to notify at this guard. A thread that raises a signal goes by a copy of
the signal's list, so the list must have an entry for every thread that waits with the signal,
although threads register and unregister at any time; it has just these entries.

`State.Stir` lists the few steps that matter to this, and `State.stir_of_advance` says that all
others are `Calm`. Every move keeps the invariant (`Wakeful.next`), so it holds of every state
that a machine comes to (`State.wakes`).
-/

namespace Spool.Guard

variable {T G S σ ρ : Type}

/-! ### What a thread has to do with sleeping and waking -/

namespace Stage

/-- The signal and the guard of the entry that the thread has in the signal's list. -/
def registered : Stage G S σ ρ → Option (S × G)
  | looking ask (some (sig, _)) | dozing ask (some (sig, _)) | asleep ask (some (sig, _))
  | woken ask (some (sig, _)) | checking ask sig _ | unparking ask sig _
  | unregistering ask sig _ => some (sig, ask.guard)
  | _ => none

/-- The guard at which the thread sleeps or is about to. -/
def dozes : Stage G S σ ρ → Option G
  | dozing ask _ | asleep ask _ => some ask.guard
  | _ => none

/-- The guard that the thread has cleared without having told those that sleep there. -/
def announces : Stage G S σ ρ → Option G
  | announcing g => some g
  | _ => none

/-- The thread has raised `sig` and is still to notify those that sleep at `g`: it has not
copied the list yet, or `g` is among the guards left of its copy. -/
def Rings (sig : S) (g : G) : Stage G S σ ρ → Prop
  | listing raised | copying raised => raised = sig
  | ringing raised guards | quitting raised _ guards => raised = sig ∧ g ∈ guards
  | notifying raised next guards => raised = sig ∧ g ∈ next :: guards
  | _ => False

/-- The thread waits with the signal it asks with, if it asks with one. -/
def Heeds : Stage G S σ ρ → Prop
  | testing ask sig | sampling ask sig | parking ask sig _ | registering ask sig _
  | checking ask sig _ => ask.signal = some sig
  | looking ask registered | dozing ask registered | asleep ask registered
  | woken ask registered => registered.map Prod.fst = ask.signal
  | _ => True

/-- A thread that drops a guard. -/
def isReleasing : Stage G S σ ρ → Bool
  | closing _ | returning _ | clearing _ | announcing _ | leaving _ => true
  | _ => false

/-- A thread that raises a signal. -/
def isRaising : Stage G S σ ρ → Bool
  | flagging _ | listing _ | copying _ | ringing .. | notifying .. | quitting .. => true
  | _ => false

theorem isReleasing_of_announces {stage : Stage G S σ ρ} {g : G} (h : stage.announces = some g) :
    stage.isReleasing = true := by
  cases stage with
  | announcing => rfl
  | _ => cases h

theorem isRaising_of_rings {stage : Stage G S σ ρ} {sig : S} {g : G} (h : stage.Rings sig g) :
    stage.isRaising = true := by
  cases stage with
  | listing | copying | ringing | notifying | quitting => rfl
  | _ => cases h

theorem mutex_of_announces {stage : Stage G S σ ρ} {g : G} (h : stage.announces = some g) :
    stage.mutex = some g := by
  cases stage with
  | announcing => exact h
  | _ => cases h

/-- A thread that goes from `a` to `b` stays registered as it was, does not go to sleep, and
forgets nobody that it is to wake. -/
structure Calm (a b : Stage G S σ ρ) : Prop where
  /-- It stays registered as it was. -/
  registered : b.registered = a.registered
  /-- It sleeps only where it slept. -/
  dozes : ∀ g, b.dozes = some g → a.dozes = some g
  /-- What it is to tell of it is still to tell of. -/
  announces : ∀ g, a.announces = some g → b.announces = some g
  /-- Where it is to notify it is still to notify. -/
  rings : ∀ sig g, a.Rings sig g → b.Rings sig g

/-- A thread that has nobody to wake and does not go to sleep is calm if it stays registered
as it was. -/
theorem Calm.of_awake {a b : Stage G S σ ρ} (hregistered : b.registered = a.registered)
    (hdozes : b.dozes = none) (hannounces : a.announces = none)
    (hrings : ∀ sig g, ¬ a.Rings sig g) :
    a.Calm b :=
  ⟨hregistered, fun g h => by simp [hdozes] at h, fun g h => by simp [hannounces] at h,
    fun sig g h => absurd h (hrings sig g)⟩

theorem calm_notified [DecidableEq G] (g : G) (stage : Stage G S σ ρ) :
    stage.Calm (stage.notified g) := by
  cases stage with
  | asleep ask registered =>
    rw [notified]
    split
    · cases registered <;> exact ⟨rfl, fun _ h => (by cases h), fun _ h => h, fun _ _ h => h⟩
    · exact ⟨rfl, fun _ h => h, fun _ h => h, fun _ _ h => h⟩
  | _ => exact ⟨rfl, fun _ h => h, fun _ h => h, fun _ _ h => h⟩

/-- Who has been notified at `g` no longer sleeps there, but may be about to. -/
theorem mutex_of_dozes_notified [DecidableEq G] {g : G} {stage : Stage G S σ ρ}
    (h : (stage.notified g).dozes = some g) : stage.mutex = some g := by
  cases stage with
  | asleep ask registered =>
    rw [notified] at h
    split at h
    · cases h
    · rename_i hne
      exact absurd (Option.some.inj h) hne
  | dozing => exact h
  | _ => cases h

theorem heeds_notified [DecidableEq G] (g : G) {stage : Stage G S σ ρ} (h : stage.Heeds) :
    (stage.notified g).Heeds := by
  cases stage with
  | asleep ask registered =>
    rw [notified]
    split <;> exact h
  | _ => exact h

end Stage

/-! ### What a step does to those that wait -/

namespace State

variable [DecidableEq T] [DecidableEq G] [DecidableEq S]

/-- The kinds of steps of the thread `t`, as far as they matter to those that wait. -/
inductive Stir (s : State T G S σ ρ) (t : T) : State T G S σ ρ → Prop where
  /-- Nothing becomes of it: no guard is cleared, no signal is raised and no list changes. -/
  | calm {s' : State T G S σ ρ} : (s.stage t).Calm (s'.stage t) →
      (∀ g, (s'.cells g).busy = false → (s.cells g).busy = false) →
      (∀ sig, (s'.flags sig).raised = true → (s.flags sig).raised = true) →
      (∀ sig, (s'.flags sig).parked = (s.flags sig).parked) → Stir s t s'
  /-- It registers. -/
  | register (ask : Ask G S σ ρ) (sig : S) (before : Bool) :
      s.stage t = .registering ask sig before →
      Stir s t (s.unlockList t sig ((s.flags sig).parked ++ [ask.guard])
        (.looking ask (some (sig, before))))
  /-- It takes its entry off the list. -/
  | unregister (ask : Ask G S σ ρ) (sig : S) (granted : Bool) :
      s.stage t = .unregistering ask sig granted →
      Stir s t (s.unlockList t sig (Guard.unregister ask.guard (s.flags sig).parked)
        (if granted then .marking ask else .withdrawing ask))
  /-- It has looked and goes to sleep: the guard is taken, and the signal is not raised. -/
  | doze (ask : Ask G S σ ρ) (registered : Option (S × Bool)) :
      (s.stage t).registered = (Stage.dozing ask registered).registered →
      (∀ g, (s.stage t).announces ≠ some g) → (∀ sig g, ¬ (s.stage t).Rings sig g) →
      (s.cells ask.guard).busy = true →
      (∀ sig before, registered = some (sig, before) → (s.flags sig).raised = false) →
      Stir s t (s.goTo t (.dozing ask registered))
  /-- It notifies those that sleep at `g`. -/
  | notify (g : G) (stage : Stage G S σ ρ) : (s.stage t).mutex = some g →
      stage.registered = (s.stage t).registered → stage.dozes = none →
      (∀ h, h ≠ g → (s.stage t).announces = some h → stage.announces = some h) →
      (∀ sig h, h ≠ g → (s.stage t).Rings sig h → stage.Rings sig h) →
      Stir s t ((s.notifyAll g).goTo t stage)
  /-- It sets the flag of a signal. -/
  | raise (sig : S) : s.stage t = .flagging sig →
      Stir s t ((s.setFlag sig { s.flags sig with raised := true }).goTo t (.listing sig))
  /-- It copies the list of a signal. -/
  | copy (sig : S) : s.stage t = .copying sig →
      Stir s t (s.unlockList t sig (s.flags sig).parked (.ringing sig (s.flags sig).parked))
  /-- It clears the flag of a guard. -/
  | clear (g : G) : s.stage t = .clearing g →
      Stir s t ((s.setCell g { s.cells g with busy := false }).goTo t (.announcing g))

variable {s s' : State T G S σ ρ} {t : T}

theorem Stir.of_goTo {stage : Stage G S σ ρ} (h : (s.stage t).Calm stage) :
    s.Stir t (s.goTo t stage) :=
  .calm (by rwa [stage_goTo_self]) (fun _ h => h) (fun _ h => h) fun _ => rfl

theorem Stir.of_setCell {g : G} {cell : Cell T σ} {stage : Stage G S σ ρ}
    (hbusy : cell.busy = false → (s.cells g).busy = false) (h : (s.stage t).Calm stage) :
    s.Stir t ((s.setCell g cell).goTo t stage) := by
  refine .calm (by rwa [stage_goTo_self]) (fun k hk => ?_) (fun _ h => h) fun _ => rfl
  by_cases hkg : k = g
  · subst hkg
    exact hbusy (by simpa [goTo, setCell] using hk)
  · simpa [goTo, setCell, hkg] using hk

theorem Stir.of_setFlag {sig : S} {flag : Flag T G} {stage : Stage G S σ ρ}
    (hraised : flag.raised = true → (s.flags sig).raised = true)
    (hparked : flag.parked = (s.flags sig).parked) (h : (s.stage t).Calm stage) :
    s.Stir t ((s.setFlag sig flag).goTo t stage) := by
  refine .calm (by rwa [stage_goTo_self]) (fun _ h => h) (fun k hk => ?_)
    (field_assign Flag.parked hparked)
  by_cases hksig : k = sig
  · subst hksig
    exact hraised (by simpa [goTo, setFlag] using hk)
  · simpa [goTo, setFlag, hksig] using hk

/-- **Every step is of one of these kinds.** -/
theorem stir_of_advance (hsound : Sound s) (h : s.advance t = some s') : s.Stir t s' := by
  cases hs : s.stage t
  all_goals
    simp only [advance, hs, lock_eq_some_iff, lockList_eq_some_iff, Option.some.injEq,
      reduceCtorEq] at h
  case entering ask =>
    cases hsig : ask.signal
    all_goals
      simp only [hsig, lock_eq_some_iff] at h
      obtain ⟨-, rfl⟩ := h
      exact .of_setCell id (by rw [hs]; exact .of_awake rfl rfl rfl fun _ _ h => h)
  case woken ask registered =>
    obtain ⟨-, rfl⟩ := h
    refine .of_setCell id ?_
    rw [hs]
    cases registered <;> exact .of_awake rfl rfl rfl fun _ _ h => h
  case returning =>
    obtain ⟨-, rfl⟩ := h
    exact .of_setCell id (by rw [hs]; exact .of_awake rfl rfl rfl fun _ _ h => h)
  case testing =>
    subst h
    refine .of_goTo ?_
    rw [hs]
    split <;> exact .of_awake rfl rfl rfl fun _ _ h => h
  case sampling =>
    subst h
    exact .of_goTo (by rw [hs]; exact .of_awake rfl rfl rfl fun _ _ h => h)
  case parking | unparking =>
    obtain ⟨-, rfl⟩ := h
    exact .of_setFlag id rfl (by rw [hs]; exact .of_awake rfl rfl rfl fun _ _ h => h)
  case registering ask sig before =>
    subst h
    exact .register ask sig before hs
  case looking ask registered =>
    subst h
    cases hbusy : (s.cells ask.guard).busy with
    | true =>
      cases registered with
      | none =>
        exact .doze ask none (by rw [hs]; rfl) (by rw [hs]; intro _ e; cases e)
          (by rw [hs]; exact fun _ _ h => h) hbusy fun _ _ e => by cases e
      | some r => exact .of_goTo (by rw [hs]; exact .of_awake rfl rfl rfl fun _ _ h => h)
    | false =>
      cases registered with
      | none => exact .of_goTo (by rw [hs]; exact .of_awake rfl rfl rfl fun _ _ h => h)
      | some r => exact .of_goTo (by rw [hs]; exact .of_awake rfl rfl rfl fun _ _ h => h)
  case checking ask sig before =>
    subst h
    have hbusy : (s.cells ask.guard).busy = true := hsound.knows t _ _ (by rw [hs]; rfl)
    cases hraised : (s.flags sig).raised with
    | true =>
      refine .calm ?_ (fun _ h => h) (fun _ h => h) fun _ => rfl
      rw [if_pos rfl, stage_goTo_self, hs]
      exact .of_awake rfl rfl rfl fun _ _ h => h
    | false =>
      exact .doze ask (some (sig, before)) (by rw [hs]; rfl) (by rw [hs]; intro _ e; cases e)
        (by rw [hs]; exact fun _ _ h => h) hbusy fun _ _ e => by cases e; exact hraised
  case dozing ask registered =>
    subst h
    refine .of_setCell id ?_
    rw [hs]
    cases registered <;> exact ⟨rfl, fun _ h => h, fun _ h => (by cases h), fun _ _ h => h⟩
  case unregistering ask sig granted =>
    subst h
    exact .unregister ask sig granted hs
  case withdrawing | unlocking | leaving =>
    subst h
    exact .of_setCell id (by rw [hs]; exact .of_awake rfl rfl rfl fun _ _ h => h)
  case marking ask =>
    subst h
    refine .calm ?_ (fun g hg => ?_) (fun _ h => h) fun _ => rfl
    · rw [stage_goTo_self, hs]
      exact .of_awake rfl rfl rfl fun _ _ h => h
    · by_cases hne : g = ask.guard
      · simp [goTo, note, setCell, hne] at hg
      · simpa [goTo, note, setCell, hne] using hg
  case opening =>
    split at h
    · cases h
      exact .of_setCell id (by rw [hs]; exact .of_awake rfl rfl rfl fun _ _ h => h)
    · cases h
  case inside =>
    split at h
    · cases h
      exact .of_goTo (by rw [hs]; exact .of_awake rfl rfl rfl fun _ _ h => h)
    · cases h
      refine .calm ?_ (fun _ h => h) (fun _ h => h) fun _ => rfl
      rw [stage_assign_self, hs]
      exact .of_awake rfl rfl rfl fun _ _ h => h
  case applying =>
    split at h
    · cases h
      exact .of_goTo (by rw [hs]; exact .of_awake rfl rfl rfl fun _ _ h => h)
    · cases h
  case working g op seen last =>
    subst h
    refine .calm ?_ (fun k hk => ?_) (fun _ h => h) fun _ => rfl
    · rw [stage_apply_self, hs]
      cases last <;> exact .of_awake rfl rfl rfl fun _ _ h => h
    · exact (field_assign Cell.busy (by rfl) k).symm.trans hk
  case closing =>
    subst h
    exact .of_setCell id (by rw [hs]; exact .of_awake rfl rfl rfl fun _ _ h => h)
  case clearing g =>
    subst h
    exact .clear g hs
  case announcing g =>
    subst h
    exact .notify g _ (by rw [hs]; rfl) (by rw [hs]; rfl) rfl
      (fun k hne e => by rw [hs] at e; exact absurd (Option.some.inj e).symm hne)
      (by rw [hs]; exact fun _ _ _ h => h)
  case flagging sig =>
    subst h
    exact .raise sig hs
  case listing =>
    obtain ⟨-, rfl⟩ := h
    refine .of_setFlag id rfl ?_
    rw [hs]
    exact ⟨rfl, fun _ h => (by cases h), fun _ h => (by cases h), fun _ _ h => h⟩
  case copying sig =>
    subst h
    exact .copy sig hs
  case ringing sig guards =>
    cases guards with
    | nil =>
      cases h
      exact .of_goTo (by rw [hs]; exact .of_awake rfl rfl rfl fun _ _ h => by cases h.2)
    | cons g rest =>
      obtain ⟨-, rfl⟩ := lock_eq_some_iff.mp h
      refine .of_setCell id ?_
      rw [hs]
      exact ⟨rfl, fun _ h => (by cases h), fun _ h => (by cases h), fun _ _ h => h⟩
  case notifying sig g rest =>
    subst h
    refine .notify g _ (by rw [hs]; rfl) (by rw [hs]; rfl) rfl (by rw [hs]; intro _ _ e; cases e) ?_
    rw [hs]
    rintro _ h hne ⟨hsig, hmem⟩
    exact ⟨hsig, (List.mem_cons.mp hmem).resolve_left hne⟩
  case quitting =>
    subst h
    refine .of_setCell id ?_
    rw [hs]
    exact ⟨rfl, fun _ h => (by cases h), fun _ h => (by cases h), fun _ _ h => h⟩
  case lowering =>
    subst h
    exact .of_setFlag (fun e => by cases e) rfl
      (by rw [hs]; exact .of_awake rfl rfl rfl fun _ _ h => h)

theorem stir_of_call {call : Call G S σ ρ} (h : s.call t call = some s') : s.Stir t s' := by
  cases hs : s.stage t
  all_goals simp only [State.call, hs, reduceCtorEq] at h
  cases call with
  | acquire | raise | lower =>
    cases h
    exact .of_goTo (by rw [hs]; exact .of_awake rfl rfl rfl fun _ _ h => h)
  | use g op =>
    simp only [Option.ite_none_right_eq_some, Option.some.injEq] at h
    obtain ⟨-, rfl⟩ := h
    exact .of_goTo (by rw [hs]; exact .of_awake rfl rfl rfl fun _ _ h => h)
  | drop g =>
    simp only [Option.ite_none_right_eq_some, Option.some.injEq] at h
    obtain ⟨-, rfl⟩ := h
    refine .calm ?_ (fun _ h => h) (fun _ h => h) fun _ => rfl
    rw [stage_assign_self, hs]
    exact .of_awake rfl rfl rfl fun _ _ h => h

theorem stir_of_wake (h : s.wake t = some s') : s.Stir t s' := by
  cases hs : s.stage t
  all_goals simp only [wake, hs, reduceCtorEq, Option.some.injEq] at h
  rename_i ask registered
  subst h
  refine .of_goTo ?_
  rw [hs]
  cases registered <;> exact .of_awake rfl rfl rfl fun _ _ h => h

/-- **Every move is of one of these kinds.** -/
theorem stir_of_next {move : Move G S σ ρ} (hsound : Sound s) (h : s.next t move = some s') :
    s.Stir t s' := by
  cases move with
  | advance => exact stir_of_advance hsound h
  | call c => exact stir_of_call h
  | wake => exact stir_of_wake h

theorem Step.calm (h : s.Step t s') {u : T} (hu : u ≠ t) : (s.stage u).Calm (s'.stage u) := by
  obtain ⟨-, hstage | ⟨g, hstage⟩⟩ := h.stage_of_ne hu
  · rw [hstage]
    exact ⟨rfl, fun _ h => h, fun _ h => h, fun _ _ h => h⟩
  · rw [hstage]
    exact Stage.calm_notified g _

end State

/-! ### The lists of signals -/

namespace State

variable {s s' : State T G S σ ρ} {t : T}

/-- The list `parked` of the signal `sig` has one entry for each thread that is registered
with it. -/
def Lists (s : State T G S σ ρ) (sig : S) (parked : List G) : Prop :=
  ∃ waiters : List (T × G), waiters.Nodup ∧
    (∀ u g, (u, g) ∈ waiters ↔ (s.stage u).registered = some (sig, g)) ∧
    parked.Perm (waiters.map Prod.snd)

theorem Lists.mem {sig : S} {parked : List G} (h : s.Lists sig parked) {u : T} {g : G}
    (hu : (s.stage u).registered = some (sig, g)) : g ∈ parked := by
  obtain ⟨waiters, -, hmem, hperm⟩ := h
  exact hperm.mem_iff.mpr (List.mem_map.mpr ⟨(u, g), (hmem u g).mpr hu, rfl⟩)

theorem Lists.congr {sig : S} {parked : List G} (h : s.Lists sig parked)
    (hsame : ∀ u g, (s'.stage u).registered = some (sig, g) ↔
      (s.stage u).registered = some (sig, g)) : s'.Lists sig parked := by
  obtain ⟨waiters, hnodup, hmem, hperm⟩ := h
  exact ⟨waiters, hnodup, fun u g => (hmem u g).trans (hsame u g).symm, hperm⟩

variable [DecidableEq T]

theorem Lists.register {sig : S} {parked : List G} {g : G} (h : s.Lists sig parked)
    (hfree : (s.stage t).registered = none) (hnew : (s'.stage t).registered = some (sig, g))
    (hothers : ∀ u, u ≠ t → (s'.stage u).registered = (s.stage u).registered) :
    s'.Lists sig (parked ++ [g]) := by
  obtain ⟨waiters, hnodup, hmem, hperm⟩ := h
  have hnot : ∀ k, (t, k) ∉ waiters := fun k hk => by
    rw [hmem, hfree] at hk
    cases hk
  refine ⟨waiters ++ [(t, g)], ?_, fun u k => ?_, ?_⟩
  · rw [List.nodup_append]
    refine ⟨hnodup, List.nodup_singleton _, fun a ha b hb => ?_⟩
    rw [List.mem_singleton.mp hb]
    exact fun e => hnot g (e ▸ ha)
  · rw [List.mem_append, List.mem_singleton]
    by_cases hu : u = t
    · subst hu
      rw [or_iff_right (hnot k), hnew]
      simp [eq_comm]
    · rw [hothers u hu, hmem, or_iff_left fun e => hu (congrArg Prod.fst e)]
  · rw [List.map_append]
    exact hperm.append_right [g]

variable [DecidableEq G]

/-- A thread that unregisters takes its entry off, or another one for the same guard. -/
theorem Lists.unregister {sig : S} {parked : List G} {g : G} (h : s.Lists sig parked)
    (hold : (s.stage t).registered = some (sig, g)) (hgone : (s'.stage t).registered = none)
    (hothers : ∀ u, u ≠ t → (s'.stage u).registered = (s.stage u).registered) :
    s'.Lists sig (Guard.unregister g parked) := by
  obtain ⟨waiters, hnodup, hmem, hperm⟩ := h
  have hin : (t, g) ∈ waiters := (hmem t g).mpr hold
  refine ⟨waiters.erase (t, g), hnodup.erase _, fun u k => ?_, ?_⟩
  · rw [hnodup.mem_erase_iff]
    by_cases hu : u = t
    · subst hu
      rw [hmem, hold, hgone]
      simp
      exact fun hne e => hne e.symm
    · rw [hothers u hu, hmem, and_iff_right fun e => hu (congrArg Prod.fst e)]
  · have herase : (parked.erase g).Perm ((waiters.erase (t, g)).map Prod.snd) := by
      have hsplit := (List.perm_cons_erase hin).map Prod.snd
      have hcons := (hperm.trans hsplit).erase g
      rwa [List.map_cons, List.erase_cons_head] at hcons
    exact (unregister_perm_erase g parked).trans herase

/-! ### Signals that are waited with -/

variable [DecidableEq S]

theorem heeds_of_advance (hheeds : (s.stage t).Heeds) (h : s.advance t = some s') :
    (s'.stage t).Heeds := by
  cases hs : s.stage t
  all_goals
    rw [hs] at hheeds
    simp only [advance, hs, lock_eq_some_iff, lockList_eq_some_iff, Option.some.injEq,
      reduceCtorEq] at h
  case entering ask =>
    cases hsig : ask.signal with
    | none =>
      simp only [hsig, lock_eq_some_iff] at h
      obtain ⟨-, rfl⟩ := h
      rw [stage_goTo_self]
      exact hsig.symm
    | some sig =>
      simp only [hsig, lock_eq_some_iff] at h
      obtain ⟨-, rfl⟩ := h
      rw [stage_goTo_self]
      exact hsig
  case testing ask sig =>
    subst h
    rw [stage_goTo_self]
    split
    · exact hheeds
    · trivial
  case sampling =>
    subst h
    rw [stage_goTo_self]
    exact hheeds
  case parking | woken =>
    obtain ⟨-, rfl⟩ := h
    rw [stage_goTo_self]
    exact hheeds
  case registering =>
    subst h
    rw [stage_unlockList_self]
    exact hheeds.symm
  case looking ask registered =>
    subst h
    rw [stage_goTo_self]
    split
    · exact hheeds.symm
    · exact hheeds
    · trivial
    · trivial
  case checking ask sig before =>
    subst h
    split
    · rw [stage_goTo_self]
      trivial
    · rw [stage_goTo_self]
      exact hheeds.symm
  case dozing =>
    subst h
    rw [stage_unlock_self]
    exact hheeds
  case unregistering ask sig granted =>
    subst h
    rw [stage_unlockList_self]
    cases granted <;> trivial
  case unparking | returning | listing =>
    obtain ⟨-, rfl⟩ := h
    rw [stage_goTo_self]
    trivial
  case withdrawing | unlocking | leaving | quitting =>
    subst h
    rw [stage_unlock_self]
    trivial
  case opening | applying =>
    split at h
    · cases h
      rw [stage_goTo_self]
      trivial
    · cases h
  case inside =>
    split at h
    · cases h
      rw [stage_goTo_self]
      trivial
    · cases h
      rw [stage_assign_self]
      trivial
  case working g op seen last =>
    subst h
    rw [stage_apply_self]
    cases last <;> trivial
  case copying =>
    subst h
    rw [stage_unlockList_self]
    trivial
  case ringing sig guards =>
    cases guards with
    | nil =>
      cases h
      rw [stage_goTo_self]
      trivial
    | cons g rest =>
      obtain ⟨-, rfl⟩ := lock_eq_some_iff.mp h
      rw [stage_goTo_self]
      trivial
  case marking | closing | clearing | announcing | flagging | notifying | lowering =>
    subst h
    rw [stage_goTo_self]
    trivial

theorem heeds_of_next {move : Move G S σ ρ} (hheeds : (s.stage t).Heeds)
    (h : s.next t move = some s') : (s'.stage t).Heeds := by
  cases move with
  | advance => exact heeds_of_advance hheeds h
  | wake =>
    cases hs : s.stage t
    all_goals simp only [next, wake, hs, reduceCtorEq, Option.some.injEq] at h
    subst h
    rw [hs] at hheeds
    rw [stage_goTo_self]
    exact hheeds
  | call c =>
    cases hs : s.stage t
    all_goals simp only [next, State.call, hs, reduceCtorEq] at h
    cases c with
    | acquire | raise | lower =>
      cases h
      rw [stage_goTo_self]
      trivial
    | use g op =>
      simp only [Option.ite_none_right_eq_some, Option.some.injEq] at h
      obtain ⟨-, rfl⟩ := h
      rw [stage_goTo_self]
      trivial
    | drop g =>
      simp only [Option.ite_none_right_eq_some, Option.some.injEq] at h
      obtain ⟨-, rfl⟩ := h
      rw [stage_assign_self]
      trivial

end State

/-! ### The invariant -/

/-- Whoever sleeps, or is about to, will be told of what it waits for. -/
structure Wakeful [DecidableEq T] [DecidableEq G] [DecidableEq S] (s : State T G S σ ρ) :
    Prop where
  /-- The list of a signal has one entry for each thread that waits with it. -/
  listed : ∀ sig, s.Lists sig (s.flags sig).parked
  /-- Of a guard that is clear somebody is still to tell those that sleep there. -/
  announced : ∀ t g, (s.stage t).dozes = some g → (s.cells g).busy = false →
    ∃ u, (s.stage u).announces = some g
  /-- Of a signal that is raised somebody is still to tell those that wait with it. -/
  alarmed : ∀ t sig g, (s.stage t).dozes = some g → (s.stage t).registered = some (sig, g) →
    (s.flags sig).raised = true → ∃ u, (s.stage u).Rings sig g
  /-- Who asks for a guard with a signal waits with it. -/
  heeds : ∀ t, (s.stage t).Heeds

namespace Wakeful

variable [DecidableEq T] [DecidableEq G] [DecidableEq S] {s s' : State T G S σ ρ} {t : T}

theorem start (init : G → σ) : Wakeful (State.start init : State T G S σ ρ) where
  listed sig := ⟨[], List.nodup_nil, fun u g => by simp [State.start, State.stage,
    Stage.registered], .nil⟩
  announced t g h := by cases h
  alarmed t sig g h := by cases h
  heeds t := trivial

theorem lists_of_registered_eq (h : Wakeful s) (hstep : s.Step t s') {sig : S}
    (hparked : (s'.flags sig).parked = (s.flags sig).parked)
    (hregistered : ∀ g, (s'.stage t).registered = some (sig, g) ↔
      (s.stage t).registered = some (sig, g)) : s'.Lists sig (s'.flags sig).parked := by
  rw [hparked]
  refine (h.listed sig).congr fun u g => ?_
  by_cases hu : u = t
  · exact hu ▸ hregistered g
  · rw [(hstep.calm hu).registered]

theorem lists_step (h : Wakeful s) (hstep : s.Step t s') (hstir : s.Stir t s') (sig : S) :
    s'.Lists sig (s'.flags sig).parked := by
  have hothers : ∀ u, u ≠ t → (s'.stage u).registered = (s.stage u).registered :=
    fun u hu => (hstep.calm hu).registered
  cases hstir with
  | calm hcalm _ _ hparked =>
    exact h.lists_of_registered_eq hstep (hparked sig) fun g => by rw [hcalm.registered]
  | register ask own before hs =>
    by_cases hown : sig = own
    · subst hown
      rw [show (State.unlockList s t sig _ _).flags sig = _ from assign_self _ _ _]
      exact (h.listed sig).register (by rw [hs]; rfl) (by rw [State.stage_unlockList_self]; rfl)
        hothers
    · refine h.lists_of_registered_eq hstep
        (congrArg Flag.parked (assign_of_ne _ _ hown)) fun g => ?_
      rw [State.stage_unlockList_self, hs]
      simp [Stage.registered, Ne.symm hown]
  | unregister ask own granted hs =>
    have hgone : ((if granted then Stage.marking ask else .withdrawing ask :
        Stage G S σ ρ)).registered = none := by
      cases granted <;> rfl
    by_cases hown : sig = own
    · subst hown
      rw [show (State.unlockList s t sig _ _).flags sig = _ from assign_self _ _ _]
      exact (h.listed sig).unregister (by rw [hs]; rfl)
        (by rw [State.stage_unlockList_self]; exact hgone) hothers
    · refine h.lists_of_registered_eq hstep
        (congrArg Flag.parked (assign_of_ne _ _ hown)) fun g => ?_
      rw [State.stage_unlockList_self, hgone, hs]
      simp [Stage.registered, Ne.symm hown]
  | doze ask registered hregistered =>
    refine h.lists_of_registered_eq hstep rfl fun g => ?_
    rw [State.stage_goTo_self, hregistered]
  | notify g stage _ hregistered =>
    refine h.lists_of_registered_eq hstep rfl fun g => ?_
    rw [State.stage_goTo_self, hregistered]
  | raise own hs =>
    refine h.lists_of_registered_eq hstep (field_assign Flag.parked (by rfl) sig) fun g => ?_
    rw [State.stage_goTo_self, hs]
    exact Iff.rfl
  | copy own hs =>
    refine h.lists_of_registered_eq hstep (field_assign Flag.parked (by rfl) sig) fun g => ?_
    rw [State.stage_unlockList_self, hs]
    exact Iff.rfl
  | clear g hs =>
    refine h.lists_of_registered_eq hstep rfl fun g => ?_
    rw [State.stage_goTo_self, hs]
    exact Iff.rfl

omit [DecidableEq S] in
/-- Whoever is about to notify at a guard keeps all others from falling asleep there. -/
theorem not_dozes_of_notify (hsound : Sound s) {g : G} {stage : Stage G S σ ρ}
    (hmutex : (s.stage t).mutex = some g) (hawake : stage.dozes = none) (u : T) :
    (((s.notifyAll g).goTo t stage).stage u).dozes ≠ some g := by
  intro hu
  by_cases hut : u = t
  · subst hut
    rw [State.stage_goTo_self, hawake] at hu
    cases hu
  · have hstage : ((s.notifyAll g).goTo t stage).stage u = (s.stage u).notified g :=
      congrArg Thread.stage (assign_of_ne _ _ hut)
    rw [hstage] at hu
    exact hut (hsound.mutex.unique (Stage.mutex_of_dozes_notified hu) hmutex)

/-- Who is to tell of a guard still is, unless it was the thread that made the step. -/
theorem announces_step (hstep : s.Step t s') {g : G}
    (hold : ∃ v, (s.stage v).announces = some g)
    (hown : (s.stage t).announces = some g → (s'.stage t).announces = some g) :
    ∃ v, (s'.stage v).announces = some g := by
  obtain ⟨v, hv⟩ := hold
  by_cases hvt : v = t
  · exact ⟨t, hown (hvt ▸ hv)⟩
  · exact ⟨v, (hstep.calm hvt).announces g hv⟩

theorem rings_step (hstep : s.Step t s') {sig : S} {g : G} (hold : ∃ v, (s.stage v).Rings sig g)
    (hown : (s.stage t).Rings sig g → (s'.stage t).Rings sig g) :
    ∃ v, (s'.stage v).Rings sig g := by
  obtain ⟨v, hv⟩ := hold
  by_cases hvt : v = t
  · exact ⟨t, hown (hvt ▸ hv)⟩
  · exact ⟨v, (hstep.calm hvt).rings sig g hv⟩

theorem dozes_before (hstep : s.Step t s') {u : T} {g : G} (hu : (s'.stage u).dozes = some g)
    (hown : (s'.stage t).dozes = none) : u ≠ t ∧ (s.stage u).dozes = some g := by
  have hut : u ≠ t := by
    rintro rfl
    rw [hown] at hu
    cases hu
  exact ⟨hut, (hstep.calm hut).dozes g hu⟩

theorem announced_step (h : Wakeful s) (hsound : Sound s) (hstep : s.Step t s')
    (hstir : s.Stir t s') {u : T} {g : G} (hu : (s'.stage u).dozes = some g)
    (hbusy : (s'.cells g).busy = false) : ∃ v, (s'.stage v).announces = some g := by
  cases hstir with
  | calm hcalm hcells =>
    have hbefore : (s.stage u).dozes = some g := by
      by_cases hut : u = t
      · exact hut ▸ hcalm.dozes g (hut ▸ hu)
      · exact (hstep.calm hut).dozes g hu
    exact announces_step hstep (h.announced u g hbefore (hcells g hbusy)) (hcalm.announces g)
  | register ask sig before hs | copy sig hs =>
    obtain ⟨-, hbefore⟩ := dozes_before hstep hu (by rw [State.stage_unlockList_self]; rfl)
    exact announces_step hstep (h.announced u g hbefore hbusy) (by rw [hs]; intro e; cases e)
  | unregister ask sig granted hs =>
    obtain ⟨-, hbefore⟩ := dozes_before hstep hu
      (by rw [State.stage_unlockList_self]; cases granted <;> rfl)
    exact announces_step hstep (h.announced u g hbefore hbusy) (by rw [hs]; intro e; cases e)
  | doze ask registered _ hannounces _ htaken =>
    by_cases hut : u = t
    · -- whoever goes to sleep has just found the guard taken
      subst hut
      rw [State.stage_goTo_self] at hu
      cases hu
      exact absurd (htaken.symm.trans hbusy) (by decide)
    · have hbefore := (hstep.calm hut).dozes g hu
      exact announces_step hstep (h.announced u g hbefore hbusy) fun e => absurd e (hannounces g)
  | notify k stage hmutex _ hawake hannounces =>
    have hne : g ≠ k := by
      rintro rfl
      exact not_dozes_of_notify hsound hmutex hawake u hu
    obtain ⟨-, hbefore⟩ := dozes_before hstep hu (by rw [State.stage_goTo_self]; exact hawake)
    refine announces_step hstep (h.announced u g hbefore hbusy) fun e => ?_
    rw [State.stage_goTo_self]
    exact hannounces g hne e
  | raise sig hs =>
    obtain ⟨-, hbefore⟩ := dozes_before hstep hu (by rw [State.stage_goTo_self]; rfl)
    exact announces_step hstep (h.announced u g hbefore hbusy) (by rw [hs]; intro e; cases e)
  | clear k hs =>
    by_cases hk : g = k
    · exact ⟨t, by rw [State.stage_goTo_self, hk]; rfl⟩
    · obtain ⟨-, hbefore⟩ := dozes_before hstep hu (by rw [State.stage_goTo_self]; rfl)
      have hsame : (s.cells g).busy = false := by
        rw [← hbusy]
        exact (congrArg Cell.busy (assign_of_ne _ _ hk)).symm
      exact announces_step hstep (h.announced u g hbefore hsame) (by rw [hs]; intro e; cases e)

theorem alarmed_step (h : Wakeful s) (hsound : Sound s) (hstep : s.Step t s')
    (hstir : s.Stir t s') {u : T} {sig : S} {g : G} (hu : (s'.stage u).dozes = some g)
    (hregistered : (s'.stage u).registered = some (sig, g))
    (hraised : (s'.flags sig).raised = true) : ∃ v, (s'.stage v).Rings sig g := by
  have hothers : ∀ {v}, v ≠ t → (s'.stage v).registered = (s.stage v).registered :=
    fun hv => (hstep.calm hv).registered
  cases hstir with
  | calm hcalm _ hflags =>
    have hbefore : (s.stage u).dozes = some g ∧ (s.stage u).registered = some (sig, g) := by
      by_cases hut : u = t
      · subst hut
        exact ⟨hcalm.dozes g hu, hcalm.registered ▸ hregistered⟩
      · exact ⟨(hstep.calm hut).dozes g hu, hothers hut ▸ hregistered⟩
    exact rings_step hstep (h.alarmed u sig g hbefore.1 hbefore.2 (hflags sig hraised))
      (hcalm.rings sig g)
  | register ask own before hs =>
    obtain ⟨hut, hbefore⟩ := dozes_before hstep hu (by rw [State.stage_unlockList_self]; rfl)
    have hold : (s.flags sig).raised = true :=
      (field_assign Flag.raised (by rfl) sig).symm.trans hraised
    exact rings_step hstep (h.alarmed u sig g hbefore (hothers hut ▸ hregistered) hold)
      (by rw [hs]; exact False.elim)
  | unregister ask own granted hs =>
    obtain ⟨hut, hbefore⟩ := dozes_before hstep hu
      (by rw [State.stage_unlockList_self]; cases granted <;> rfl)
    have hold : (s.flags sig).raised = true :=
      (field_assign Flag.raised (by rfl) sig).symm.trans hraised
    exact rings_step hstep (h.alarmed u sig g hbefore (hothers hut ▸ hregistered) hold)
      (by rw [hs]; exact False.elim)
  | doze ask registered _ _ hrings _ hlow =>
    by_cases hut : u = t
    · -- whoever goes to sleep has just found its signal down
      subst hut
      rw [State.stage_goTo_self] at hregistered
      cases registered with
      | none => cases hregistered
      | some r =>
        cases hregistered
        exact absurd (hraised.symm.trans (hlow r.1 r.2 rfl)) (by decide)
    · have hbefore := (hstep.calm hut).dozes g hu
      exact rings_step hstep (h.alarmed u sig g hbefore (hothers hut ▸ hregistered) hraised)
        fun e => absurd e (hrings sig g)
  | notify k stage hmutex _ hawake _ hrings =>
    have hne : g ≠ k := by
      rintro rfl
      exact not_dozes_of_notify hsound hmutex hawake u hu
    obtain ⟨hut, hbefore⟩ := dozes_before hstep hu (by rw [State.stage_goTo_self]; exact hawake)
    refine rings_step hstep (h.alarmed u sig g hbefore (hothers hut ▸ hregistered) hraised)
      fun e => ?_
    rw [State.stage_goTo_self]
    exact hrings sig g hne e
  | raise own hs =>
    obtain ⟨hut, hbefore⟩ := dozes_before hstep hu (by rw [State.stage_goTo_self]; rfl)
    by_cases hown : sig = own
    · exact ⟨t, by rw [State.stage_goTo_self]; exact hown.symm⟩
    · have hold : (s.flags sig).raised = true := by
        rw [← hraised]
        exact (congrArg Flag.raised (assign_of_ne _ _ hown)).symm
      exact rings_step hstep (h.alarmed u sig g hbefore (hothers hut ▸ hregistered) hold)
        (by rw [hs]; exact False.elim)
  | copy own hs =>
    obtain ⟨hut, hbefore⟩ := dozes_before hstep hu (by rw [State.stage_unlockList_self]; rfl)
    by_cases hown : own = sig
    · -- the copy has an entry for everyone who waits with the signal
      refine ⟨t, ?_⟩
      rw [State.stage_unlockList_self]
      exact ⟨hown, hown ▸ (h.listed sig).mem (hothers hut ▸ hregistered)⟩
    · have hold : (s.flags sig).raised = true :=
        (field_assign Flag.raised (by rfl) sig).symm.trans hraised
      exact rings_step hstep (h.alarmed u sig g hbefore (hothers hut ▸ hregistered) hold)
        (by rw [hs]; exact fun e => absurd e hown)
  | clear k hs =>
    obtain ⟨hut, hbefore⟩ := dozes_before hstep hu (by rw [State.stage_goTo_self]; rfl)
    exact rings_step hstep (h.alarmed u sig g hbefore (hothers hut ▸ hregistered) hraised)
      (by rw [hs]; exact False.elim)

/-- **Every move keeps the invariant.** -/
theorem next {move : Move G S σ ρ} (h : Wakeful s) (hsound : Sound s)
    (hs : s.next t move = some s') : Wakeful s' where
  listed := h.lists_step (State.step_of_next hs) (State.stir_of_next hsound hs)
  announced _ _ hu hbusy :=
    h.announced_step hsound (State.step_of_next hs) (State.stir_of_next hsound hs) hu hbusy
  alarmed _ _ _ hu hregistered hraised :=
    h.alarmed_step hsound (State.step_of_next hs) (State.stir_of_next hsound hs) hu hregistered
      hraised
  heeds u := by
    by_cases hu : u = t
    · exact hu ▸ State.heeds_of_next (h.heeds t) hs
    · obtain ⟨-, hstage | ⟨g, hstage⟩⟩ := (State.step_of_next hs).stage_of_ne hu
      · rw [hstage]
        exact h.heeds u
      · rw [hstage]
        exact Stage.heeds_notified g (h.heeds u)

/-- **The invariant holds of every state that a machine comes to.** -/
theorem reaches (h : Wakeful s) (hsound : Sound s) (hs : s.Reaches s') : Wakeful s' := by
  induction hs with
  | refl => exact h
  | step hrun hstep ih => exact ih.next (hsound.reaches hrun) hstep

end Wakeful

/-! ### What it comes to -/

namespace State

variable [DecidableEq T] [DecidableEq G] [DecidableEq S]

/-- **Nobody who can go on is left asleep**, whatever the threads do and in whatever order:

- where a thread sleeps at a guard that is clear, another that has cleared it holds its mutex
  and is about to notify all that sleep there;
- where the signal is raised with which a sleeping thread waits, another that raises it has yet
  to copy its list, or has that thread's guard left among those to notify at;
- when nobody drops a guard or raises a signal, every sleeping thread sleeps at a guard that is
  taken, and no signal is raised with which one waits. -/
theorem wakes (init : G → σ) {s : State T G S σ ρ} (h : (start init).Reaches s) :
    (∀ t ask registered, s.stage t = .asleep ask registered →
      (s.cells ask.guard).busy = false →
        ∃ u, (s.stage u).announces = some ask.guard ∧ (s.cells ask.guard).owner = some u) ∧
    (∀ t ask registered sig, s.stage t = .asleep ask registered → ask.signal = some sig →
      (s.flags sig).raised = true → ∃ u, (s.stage u).Rings sig ask.guard) ∧
    ((∀ u, (s.stage u).isReleasing = false ∧ (s.stage u).isRaising = false) →
      ∀ t ask registered, s.stage t = .asleep ask registered →
        (s.cells ask.guard).busy = true ∧
          ∀ sig, ask.signal = some sig → (s.flags sig).raised = false) := by
  have hsound : Sound s := (Sound.start init).reaches h
  have hwakeful : Wakeful s := (Wakeful.start init).reaches (Sound.start init) h
  have htold : ∀ t ask registered, s.stage t = .asleep ask registered →
      (s.cells ask.guard).busy = false → ∃ u, (s.stage u).announces = some ask.guard :=
    fun t ask registered hs hbusy => hwakeful.announced t ask.guard (by rw [hs]; rfl) hbusy
  have hrung : ∀ t ask registered sig, s.stage t = .asleep ask registered →
      ask.signal = some sig → (s.flags sig).raised = true →
      ∃ u, (s.stage u).Rings sig ask.guard := by
    intro t ask registered sig hs hsig hraised
    refine hwakeful.alarmed t sig ask.guard (by rw [hs]; rfl) ?_ hraised
    have hheeds := hwakeful.heeds t
    rw [hs] at hheeds ⊢
    obtain ⟨⟨own, before⟩, rfl, rfl⟩ := Option.map_eq_some_iff.mp (hheeds.trans hsig)
    rfl
  refine ⟨fun t ask registered hs hbusy => ?_, hrung, fun hover t ask registered hs => ⟨?_, ?_⟩⟩
  · obtain ⟨u, hu⟩ := htold t ask registered hs hbusy
    exact ⟨u, hu, (hsound.mutex u ask.guard).mp (Stage.mutex_of_announces hu)⟩
  · by_contra hclear
    obtain ⟨u, hu⟩ := htold t ask registered hs (eq_false_of_ne_true hclear)
    exact Bool.noConfusion ((hover u).1.symm.trans (Stage.isReleasing_of_announces hu))
  · intro sig hsig
    by_contra hup
    obtain ⟨u, hu⟩ := hrung t ask registered sig hs hsig (eq_true_of_ne_false hup)
    exact Bool.noConfusion ((hover u).2.symm.trans (Stage.isRaising_of_rings hu))

/-- A thread holds the guard and another sleeps at it. The first has cleared the guard and is
about to tell of it; a third has raised the signal of the second and is about to take its
list. -/
theorem wakes_of_three_threads :
    let ask : Ask Unit Unit Nat Nat := ⟨(), some (), some fun n => (n, n + 1)⟩
    ∃ s : State (Fin 3) Unit Unit Nat Nat, (start fun _ => 0).Reaches s ∧
      s.stage 1 = .asleep ask (some ((), false)) ∧
      (s.cells ()).busy = false ∧ (s.flags ()).raised = true ∧
      (∃ u, (s.stage u).announces = some () ∧ (s.cells ()).owner = some u) ∧
      ∃ u, (s.stage u).Rings () () := by
  intro ask
  let holds : List (Fin 3 × Move Unit Unit Nat Nat) :=
    (0, .call (.acquire ⟨(), none, none⟩)) :: List.replicate 6 (0, .advance)
  let sleeps : List (Fin 3 × Move Unit Unit Nat Nat) :=
    (1, .call (.acquire ask)) :: List.replicate 8 (1, .advance)
  let raises : List (Fin 3 × Move Unit Unit Nat Nat) := [(2, .call (.raise ())), (2, .advance)]
  let drops : List (Fin 3 × Move Unit Unit Nat Nat) :=
    (0, .call (.drop ())) :: List.replicate 3 (0, .advance)
  have hrun : ((start fun _ => 0).run (holds ++ sleeps ++ raises ++ drops)).map
      (fun s => (s.stage 1, (s.cells ()).busy, (s.flags ()).raised)) =
        some (.asleep ask (some ((), false)), false, true) := rfl
  obtain ⟨s, hs, hseen⟩ := Option.map_eq_some_iff.mp hrun
  obtain ⟨hstage, hbusy, hraised⟩ : s.stage 1 = .asleep ask (some ((), false)) ∧
      (s.cells ()).busy = false ∧ (s.flags ()).raised = true := by
    simpa using hseen
  have h := reaches_of_run hs
  obtain ⟨htold, hrung, -⟩ := wakes (fun _ => 0) h
  exact ⟨s, h, hstage, hbusy, hraised, htold 1 ask _ hstage hbusy,
    hrung 1 ask _ () hstage rfl hraised⟩

end State

end Spool.Guard
