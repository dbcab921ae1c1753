import Mathlib.Logic.Relation
import Spool.Proofs.Custody

/-!
# Nobody waits in a circle

A machine has a mutex for each guard, a list for each signal and the guarded values, and each of
these is with one thread at a time. A thread that holds one may have to wait for another, so
threads might wait for one another in a circle and none of them ever go on.

They do not, since mutexes are taken in order: who holds the list of a signal waits for nothing,
who holds the mutex of a guard waits for a list at most, and nobody waits for a value, for who
is about to take one finds it free. In particular, whoever raises a signal has given the list
back before it takes the first mutex of a guard. So every wait leads down by `Stage.height`, and
it ends after two steps at the latest (`State.never_deadlocked`).
-/

namespace Spool.Guard

variable {T G S σ ρ : Type}

/-! ### What a thread waits for -/

/-- What one thread at a time can hold. -/
inductive Mutex (G S : Type) where
  /-- The mutex of a guard. -/
  | gate (g : G)
  /-- The list of a signal. -/
  | list (sig : S)
  /-- The value of a guard. -/
  | value (g : G)

namespace Stage

/-- What the thread takes with its next step, if it takes something. -/
def wants : Stage G S σ ρ → Option (Mutex G S)
  | entering ask | woken ask _ => some (.gate ask.guard)
  | returning g | ringing _ (g :: _) => some (.gate g)
  | parking _ sig _ | unparking _ sig _ | listing sig => some (.list sig)
  | opening ask => some (.value ask.guard)
  | _ => none

/-- The thread is in no call, or asleep. -/
def isAtRest : Stage G S σ ρ → Bool
  | idle | asleep _ _ => true
  | _ => false

/-- How long a chain of waits can be that begins at a thread which is here. -/
def height (stage : Stage G S σ ρ) : Nat :=
  match stage.wants with
  | some (.gate _) => 2
  | some (.list _) => 1
  | some (.value _) | none => 0

variable {stage : Stage G S σ ρ} {g : G} {sig : S}

/-- Who holds the mutex of a guard is on its way, and takes a list next if it takes something. -/
theorem wants_of_mutex (h : stage.mutex = some g) :
    stage.isAtRest = false ∧ (stage.wants = none ∨ ∃ sig, stage.wants = some (.list sig)) := by
  cases stage <;> simp_all [mutex, wants, isAtRest]

/-- Who holds the list of a signal is on its way, and takes nothing next. -/
theorem wants_of_list (h : stage.list = some sig) :
    stage.isAtRest = false ∧ stage.wants = none := by
  cases stage <;> simp_all [list, wants, isAtRest]

theorem eq_opening_of_wants (h : stage.wants = some (.value g)) :
    ∃ ask, stage = .opening ask ∧ ask.guard = g := by
  unfold wants at h
  split at h <;> simp_all

end Stage

namespace State

variable {s : State T G S σ ρ} {t u : T}

/-- The thread that holds it. -/
def holder (s : State T G S σ ρ) : Mutex G S → Option T
  | .gate g => (s.cells g).owner
  | .list sig => (s.flags sig).owner
  | .value g => (s.cells g).user

/-- The next step of the thread `t` takes what the thread `u` holds. -/
def WaitsFor (s : State T G S σ ρ) (t u : T) : Prop :=
  ∃ m, (s.stage t).wants = some m ∧ s.holder m = some u

/-! ### The order of waiting -/

theorem holder_of_wants_value (hsound : Sound s) {g : G}
    (h : (s.stage t).wants = some (.value g)) : s.holder (.value g) = none := by
  obtain ⟨ask, hs, rfl⟩ := Stage.eq_opening_of_wants h
  exact hsound.user_of_opening hs

/-- Who waits for another is higher up. -/
theorem WaitsFor.height_lt (hsound : Sound s) (h : s.WaitsFor t u) :
    (s.stage u).height < (s.stage t).height := by
  obtain ⟨m, hm, hu⟩ := h
  cases m with
  | gate g =>
    obtain ⟨-, hnext | ⟨sig, hnext⟩⟩ := Stage.wants_of_mutex ((hsound.mutex u g).mpr hu)
    all_goals simp [Stage.height, hm, hnext]
  | list sig =>
    obtain ⟨-, hnext⟩ := Stage.wants_of_list ((hsound.list u sig).mpr hu)
    simp [Stage.height, hm, hnext]
  | value g => cases hu.symm.trans (holder_of_wants_value hsound hm)

theorem height_lt_of_transGen (hsound : Sound s) (h : Relation.TransGen s.WaitsFor t u) :
    (s.stage u).height < (s.stage t).height := by
  induction h with
  | single h => exact h.height_lt hsound
  | tail _ h ih => exact Nat.lt_trans (h.height_lt hsound) ih

/-! ### Who can go on -/

variable [DecidableEq T] [DecidableEq G] [DecidableEq S]

omit [DecidableEq S] in
theorem isSome_lock_iff {g : G} {stage : Stage G S σ ρ} :
    (s.lock t g stage).isSome = true ↔ (s.cells g).owner = none := by
  unfold lock
  cases (s.cells g).owner <;> simp

omit [DecidableEq G] in
theorem isSome_lockList_iff {sig : S} {stage : Stage G S σ ρ} :
    (s.lockList t sig stage).isSome = true ↔ (s.flags sig).owner = none := by
  unfold lockList
  cases (s.flags sig).owner <;> simp

/-- Who is about to take something can go on just when nobody holds it. -/
theorem isSome_advance_of_wants {m : Mutex G S} (hm : (s.stage t).wants = some m) :
    (s.advance t).isSome = true ↔ s.holder m = none := by
  cases hs : s.stage t
  all_goals
    rw [hs] at hm
    simp only [advance, hs]
  case entering ask =>
    cases hm
    cases ask.signal <;> exact isSome_lock_iff
  case woken | returning =>
    cases hm
    exact isSome_lock_iff
  case ringing sig guards =>
    cases guards with
    | nil => cases hm
    | cons g rest =>
      cases hm
      exact isSome_lock_iff
  case parking | unparking | listing =>
    cases hm
    exact isSome_lockList_iff
  case opening ask =>
    cases hm
    cases huser : (s.cells ask.guard).user <;> simp [holder, huser]
  all_goals cases hm

theorem isSome_advance_of_wants_eq_none (hsound : Sound s) (hm : (s.stage t).wants = none)
    (hway : (s.stage t).isAtRest = false) : (s.advance t).isSome = true := by
  cases hs : s.stage t
  all_goals rw [hs] at hm hway
  case inside | applying | working => exact hsound.advance_of_touches (by rw [hs]; rfl)
  case ringing sig guards =>
    cases guards with
    | nil => simp [advance, hs]
    | cons => cases hm
  case idle | asleep => cases hway
  case entering | woken | returning | parking | unparking | listing | opening => cases hm
  all_goals simp [advance, hs]

/-- **A thread stands still only if it has nothing to do or waits for another.** -/
theorem advance_eq_none_iff (hsound : Sound s) :
    s.advance t = none ↔ (s.stage t).isAtRest = true ∨ ∃ u, s.WaitsFor t u := by
  constructor
  · intro hstill
    by_contra hneither
    obtain ⟨hway, hfree⟩ := not_or.mp hneither
    have hgoes : (s.advance t).isSome = true := by
      cases hm : (s.stage t).wants with
      | none => exact isSome_advance_of_wants_eq_none hsound hm (eq_false_of_ne_true hway)
      | some m =>
        refine (isSome_advance_of_wants hm).mpr (Option.eq_none_iff_forall_ne_some.mpr ?_)
        exact fun u hu => hfree ⟨u, m, hm, hu⟩
    rw [hstill] at hgoes
    cases hgoes
  · rintro (hrest | ⟨u, m, hm, hu⟩)
    · cases hs : s.stage t
      all_goals rw [hs] at hrest
      case idle | asleep => simp only [advance, hs]
      all_goals cases hrest
    · rw [← Option.not_isSome_iff_eq_none, isSome_advance_of_wants hm, hu]
      exact Option.some_ne_none u

theorem isSome_advance_of_list (hsound : Sound s) {sig : S}
    (h : s.holder (.list sig) = some t) : (s.advance t).isSome = true := by
  obtain ⟨hway, hm⟩ := Stage.wants_of_list ((hsound.list t sig).mpr h)
  exact isSome_advance_of_wants_eq_none hsound hm hway

/-- Who holds the mutex of a guard can go on, or waits for a list whose holder can. -/
theorem isSome_advance_of_gate (hsound : Sound s) {g : G} (h : s.holder (.gate g) = some t) :
    (s.advance t).isSome = true ∨ ∃ sig u, (s.stage t).wants = some (.list sig) ∧
      s.holder (.list sig) = some u ∧ (s.advance u).isSome = true := by
  obtain ⟨hway, hm | ⟨sig, hm⟩⟩ := Stage.wants_of_mutex ((hsound.mutex t g).mpr h)
  · exact .inl (isSome_advance_of_wants_eq_none hsound hm hway)
  · cases hu : s.holder (.list sig) with
    | none => exact .inl ((isSome_advance_of_wants hm).mpr hu)
    | some u => exact .inr ⟨sig, u, hm, hu, isSome_advance_of_list hsound hu⟩

/-! ### What it comes to -/

/-- **The threads are never deadlocked over what they hold**, whatever they do and in whatever
order:

- no thread waits for itself, be it through any number of others of which each waits for the
  next;
- who holds what another waits for can go on, or waits itself for the list of a signal, and the
  thread that holds this can go on;
- nobody waits for a value: who is about to take one finds it free, and goes on;
- there is no other reason to stand still: a thread that does is in no call, asleep, or waits
  for what another holds. -/
theorem never_deadlocked (init : G → σ) {s : State T G S σ ρ} (h : (start init).Reaches s) :
    (∀ t, ¬ Relation.TransGen s.WaitsFor t t) ∧
    (∀ t u, s.WaitsFor t u → (s.advance u).isSome = true ∨
      ∃ sig v, (s.stage u).wants = some (.list sig) ∧ s.holder (.list sig) = some v ∧
        (s.advance v).isSome = true) ∧
    (∀ t g, (s.stage t).wants = some (.value g) →
      s.holder (.value g) = none ∧ (s.advance t).isSome = true) ∧
    ∀ t, s.advance t = none ↔ (s.stage t).isAtRest = true ∨ ∃ u, s.WaitsFor t u := by
  have hsound : Sound s := (Sound.start init).reaches h
  refine ⟨fun t hcircle => ?_, fun t u hwaits => ?_, fun t g hm => ?_, fun t => ?_⟩
  · exact Nat.lt_irrefl _ (height_lt_of_transGen hsound hcircle)
  · obtain ⟨m, hm, hu⟩ := hwaits
    cases m with
    | gate g => exact isSome_advance_of_gate hsound hu
    | list sig => exact .inl (isSome_advance_of_list hsound hu)
    | value g => cases hu.symm.trans (holder_of_wants_value hsound hm)
  · have hfree := holder_of_wants_value hsound hm
    exact ⟨hfree, (isSome_advance_of_wants hm).mpr hfree⟩
  · exact advance_eq_none_iff hsound

/-- A thread keeps a guard. Another finds it taken and is about to register with a signal; a
third raises that signal and holds its list; a fourth asks for the guard. The fourth waits for
the second and that for the third, which can go on. -/
theorem never_deadlocked_of_four_threads :
    let ask : Ask Unit Unit Nat Nat := ⟨(), some (), none⟩
    ∃ s : State (Fin 4) Unit Unit Nat Nat, (start fun _ => 0).Reaches s ∧
      s.holder (.value ()) = some 0 ∧ s.stage 1 = .parking ask () false ∧
      s.WaitsFor 3 1 ∧ s.WaitsFor 1 2 ∧ s.advance 3 = none ∧ s.advance 1 = none ∧
      (∃ v, s.holder (.list ()) = some v ∧ (s.advance v).isSome = true) ∧
      ∀ t, ¬ Relation.TransGen s.WaitsFor t t := by
  intro ask
  let keeps : List (Fin 4 × Move Unit Unit Nat Nat) :=
    (0, .call (.acquire ⟨(), none, none⟩)) :: List.replicate 6 (0, .advance)
  let parks : List (Fin 4 × Move Unit Unit Nat Nat) :=
    (1, .call (.acquire ask)) :: List.replicate 3 (1, .advance)
  let raises : List (Fin 4 × Move Unit Unit Nat Nat) :=
    (2, .call (.raise ())) :: List.replicate 2 (2, .advance)
  let asks : List (Fin 4 × Move Unit Unit Nat Nat) := [(3, .call (.acquire ask))]
  have hrun : ((start fun _ => 0).run (keeps ++ parks ++ raises ++ asks)).map
      (fun s => (s.stage 1, s.stage 3, s.holder (.value ()), s.holder (.gate ()),
        s.holder (.list ()))) =
        some (.parking ask () false, .entering ask, some 0, some 1, some 2) := rfl
  obtain ⟨s, hs, hseen⟩ := Option.map_eq_some_iff.mp hrun
  obtain ⟨hsecond, hfourth, hvalue, hgate, hlist⟩ : s.stage 1 = .parking ask () false ∧
      s.stage 3 = .entering ask ∧ s.holder (.value ()) = some 0 ∧
      s.holder (.gate ()) = some 1 ∧ s.holder (.list ()) = some 2 := by
    simpa using hseen
  have h := reaches_of_run hs
  have hfourth_waits : s.WaitsFor 3 1 := ⟨.gate (), by rw [hfourth]; rfl, hgate⟩
  have hsecond_waits : s.WaitsFor 1 2 := ⟨.list (), by rw [hsecond]; rfl, hlist⟩
  obtain ⟨hcircles, hholders, -, hstill⟩ := never_deadlocked (fun _ => 0) h
  have hsecond_still : s.advance 1 = none := (hstill 1).mpr (.inr ⟨2, hsecond_waits⟩)
  refine ⟨s, h, hvalue, hsecond, hfourth_waits, hsecond_waits,
    (hstill 3).mpr (.inr ⟨1, hfourth_waits⟩), hsecond_still, ?_, hcircles⟩
  rcases hholders 3 1 hfourth_waits with hgoes | ⟨sig, v, -, hv, hgoes⟩
  · rw [hsecond_still] at hgoes
    cases hgoes
  · exact ⟨v, hv, hgoes⟩

end State

end Spool.Guard
