import Mathlib.Data.Set.Card
import Spool.Proofs.Pursuit
import Spool.Proofs.Waking

/-!
# One entry for each that waits

A thread that has to wait parks: it puts an entry for its guard on the list of its signal. When
it goes, admitted or interrupted, it unparks: it takes an entry for its guard off. Entries for
one guard cannot be told apart, so that a thread may take off the one that another has put on,
and every removal moves the last entry. What can be said of a list is how many entries it has
for a guard, and that is how many threads wait for the guard with the signal
(`State.waiters`).

A move changes this number only if its thread parks or unparks, and then by one (`State.Books`).
So nobody loses an entry to another's unparking, and whoever unparks finds one
(`State.entry_for_each_waiter`).
-/

namespace Spool.Guard

variable {T G S σ ρ : Type}

/-! ### Entries in a list -/

theorem perm_cons_unregister [DecidableEq G] {g : G} {l : List G} (h : g ∈ l) :
    l.Perm (g :: unregister g l) :=
  (List.perm_cons_erase h).trans ((unregister_perm_erase g l).symm.cons g)

/-- Among pairs that differ from one another, as many end with `g` as there are that begin such
a pair. -/
theorem count_snd_eq_encard [DecidableEq G] {w : List (T × G)} (h : w.Nodup) (g : G) :
    ((w.map Prod.snd).count g : ℕ∞) = {u | (u, g) ∈ w}.encard := by
  induction w with
  | nil => simp
  | cons p w ih =>
    obtain ⟨hp, hw⟩ := List.nodup_cons.mp h
    obtain ⟨v, k⟩ := p
    by_cases hk : k = g
    · subst hk
      have hset : {u | (u, k) ∈ (v, k) :: w} = insert v {u | (u, k) ∈ w} := by
        ext u
        simp
      have hv : v ∉ {u | (u, k) ∈ w} := hp
      rw [hset, Set.encard_insert_of_notMem hv, ← ih hw]
      simp
    · have hset : {u | (u, g) ∈ (v, k) :: w} = {u | (u, g) ∈ w} := by
        ext u
        simp [Ne.symm hk]
      rw [hset, ← ih hw]
      simp [hk]

theorem State.Lists.count_eq [DecidableEq G] {s : State T G S σ ρ} {sig : S} {parked : List G}
    (h : s.Lists sig parked) (g : G) :
    (parked.count g : ℕ∞) = {u | (s.stage u).registered = some (sig, g)}.encard := by
  obtain ⟨waiters, hnodup, hmem, hperm⟩ := h
  rw [hperm.count_eq, count_snd_eq_encard hnodup]
  simp only [hmem]

/-! ### Who waits -/

namespace Stage

/-- The thread asks for a guard, has parked for it and has not unparked. -/
def Waits (ask : Ask G S σ ρ) : Stage G S σ ρ → Prop
  | looking a (some _) | dozing a (some _) | asleep a (some _) | woken a (some _)
  | checking a _ _ | unparking a _ _ | unregistering a _ _ => a = ask
  | _ => False

/-- The thread unparks with the signal it asks with, if it unparks. -/
def Quits : Stage G S σ ρ → Prop
  | unparking ask sig _ | unregistering ask sig _ => ask.signal = some sig
  | _ => True

/-- Who has an entry waits for the guard and with the signal that it asked for. -/
theorem registered_iff_waits {stage : Stage G S σ ρ} (hheeds : stage.Heeds)
    (hquits : stage.Quits) (sig : S) (g : G) :
    stage.registered = some (sig, g) ↔
      ∃ ask, stage.Waits ask ∧ ask.signal = some sig ∧ ask.guard = g := by
  cases stage with
  | looking ask r | dozing ask r | asleep ask r | woken ask r =>
    cases r with
    | none => simp [registered, Waits]
    | some r => simp_all [registered, Waits, Heeds, eq_comm]
  | checking => simp_all [registered, Waits, Heeds, eq_comm]
  | unparking | unregistering => simp_all [registered, Waits, Quits, eq_comm]
  | _ => simp [registered, Waits]

theorem quits_notified [DecidableEq G] (g : G) {stage : Stage G S σ ρ} (h : stage.Quits) :
    (stage.notified g).Quits := by
  cases stage with
  | asleep ask registered =>
    rw [notified]
    split <;> trivial
  | _ => exact h

end Stage

namespace State

variable [DecidableEq T] [DecidableEq G] [DecidableEq S] {s s' : State T G S σ ρ} {t : T}

/-- The threads that are between parking and unparking in a call that asks for `g` with the
signal `sig`. -/
def waiters (s : State T G S σ ρ) (sig : S) (g : G) : Set T :=
  {t | ∃ ask, (s.stage t).Waits ask ∧ ask.signal = some sig ∧ ask.guard = g}

/-- A thread comes to unpark from where it looks at the flag and from where it looks at its
signal, and goes on unparking. -/
theorem quits_of_advance (hheeds : (s.stage t).Heeds) (hquits : (s.stage t).Quits)
    (h : s.advance t = some s') : (s'.stage t).Quits := by
  cases hs : s.stage t
  all_goals
    rw [hs] at hheeds hquits
    simp only [advance, hs, lock, lockList, reduceCtorEq] at h
    repeat' split at h
    all_goals cases h
    all_goals
      simp only [stage_goTo_self, stage_unlock_self, stage_unlockList_self, stage_apply_self,
        stage_assign_self, Stage.Quits]
  -- only `looking`, `checking` and `unparking` lead to where a thread unparks
  · exact hheeds.symm
  · exact hheeds
  · exact hquits

theorem quits_of_next {move : Move G S σ ρ} (hheeds : (s.stage t).Heeds)
    (hquits : (s.stage t).Quits) (h : s.next t move = some s') : (s'.stage t).Quits := by
  cases move with
  | advance => exact quits_of_advance hheeds hquits h
  | wake =>
    obtain ⟨ask, registered, -, rfl⟩ := stage_of_wake h
    rw [stage_goTo_self]
    trivial
  | call c =>
    simp only [next, State.call, stage_of_call h] at h
    cases c with
    | acquire | raise | lower =>
      cases h
      rw [stage_goTo_self]
      trivial
    | use g op =>
      simp only [Option.ite_none_right_eq_some, Option.some.injEq] at h
      obtain ⟨-, rfl⟩ := h
      rw [stage_goTo_self]
      trivial
    | drop g =>
      simp only [Option.ite_none_right_eq_some, Option.some.injEq] at h
      obtain ⟨-, rfl⟩ := h
      rw [stage_assign_self]
      trivial

theorem wakeful_of_reaches {init : G → σ} (h : (start init).Reaches s) : Wakeful s :=
  (Wakeful.start init).reaches (Sound.start init) h

/-- **All threads unpark with the signal they ask with**, in every state that a machine comes
to. -/
theorem quits_of_reaches {init : G → σ} (h : (start init).Reaches s) (t : T) :
    (s.stage t).Quits := by
  induction h with
  | refl => trivial
  | @step u v actor move hrun hstep ih =>
    by_cases ht : t = actor
    · subst ht
      exact quits_of_next ((wakeful_of_reaches hrun).heeds t) ih hstep
    · obtain ⟨-, hstage | ⟨g, hstage⟩⟩ := (step_of_next hstep).stage_of_ne ht
      · rwa [hstage]
      · rw [hstage]
        exact Stage.quits_notified g ih

theorem mem_waiters_iff {init : G → σ} (h : (start init).Reaches s) (sig : S) (g : G) (t : T) :
    t ∈ s.waiters sig g ↔ (s.stage t).registered = some (sig, g) :=
  (Stage.registered_iff_waits ((wakeful_of_reaches h).heeds t) (quits_of_reaches h t) sig g).symm

/-! ### How many wait -/

/-- What a move of the thread `t` does to those that wait for `g` with `sig`, and to the entries
for `g` in the list of `sig`. -/
inductive Books (s s' : State T G S σ ρ) (t : T) (sig : S) (g : G) : Prop where
  /-- Nothing. -/
  | leaves : (t ∈ s'.waiters sig g ↔ t ∈ s.waiters sig g) →
      (s'.flags sig).parked.count g = (s.flags sig).parked.count g → Books s s' t sig g
  /-- The thread parks: it waits from now on, and there is one entry more. -/
  | parks (ask : Ask G S σ ρ) (before : Bool) : s.stage t = .registering ask sig before →
      ask.guard = g → t ∉ s.waiters sig g → t ∈ s'.waiters sig g →
      (s'.flags sig).parked.count g = (s.flags sig).parked.count g + 1 → Books s s' t sig g
  /-- The thread unparks, whether it was admitted or not: it waits no longer, and there is one
  entry less. -/
  | unparks (ask : Ask G S σ ρ) (granted : Bool) : s.stage t = .unregistering ask sig granted →
      ask.guard = g → t ∈ s.waiters sig g → t ∉ s'.waiters sig g →
      (s'.flags sig).parked.count g + 1 = (s.flags sig).parked.count g → Books s s' t sig g

omit [DecidableEq G] in
@[simp] theorem parked_unlockList_self (s : State T G S σ ρ) (t : T) (sig : S) (parked : List G)
    (stage : Stage G S σ ρ) : ((s.unlockList t sig parked stage).flags sig).parked = parked :=
  congrArg Flag.parked (assign_self _ _ _)

theorem count_parked_unlockList {own sig : S} {k g : G} {parked : List G}
    {stage : Stage G S σ ρ} (hne : (own, k) ≠ (sig, g))
    (hsame : ∀ j, j ≠ k → parked.count j = (s.flags own).parked.count j) :
    ((s.unlockList t own parked stage).flags sig).parked.count g =
      (s.flags sig).parked.count g := by
  by_cases hown : sig = own
  · subst hown
    rw [parked_unlockList_self]
    exact hsame g fun hg => hne (by rw [hg])
  · exact congrArg (List.count g) (congrArg Flag.parked (assign_of_ne _ _ hown))

/-- **Only parking and unparking change a list**, and each is booked for the thread that does
it. -/
theorem books_of_next {init : G → σ} {move : Move G S σ ρ} (h : (start init).Reaches s)
    (hs : s.next t move = some s') (sig : S) (g : G) : s.Books s' t sig g := by
  have hsound : Sound s := (Sound.start init).reaches h
  have hlists := (wakeful_of_reaches h).listed sig
  have hbefore := mem_waiters_iff h sig g t
  have hafter := mem_waiters_iff (h.step hs) sig g t
  -- most moves leave both the list and what the thread is registered for
  have hleaves (hregistered : (s'.stage t).registered = some (sig, g) ↔
        (s.stage t).registered = some (sig, g))
      (hparked : (s'.flags sig).parked = (s.flags sig).parked) : s.Books s' t sig g :=
    .leaves (hafter.trans (hregistered.trans hbefore.symm)) (by rw [hparked])
  cases stir_of_next hsound hs with
  | calm hcalm _ _ hparked => exact hleaves (by rw [hcalm.registered]) (hparked sig)
  | register ask own before hstage =>
    have hnew : t ∉ s.waiters sig g := fun ht => by
      rw [hbefore, hstage] at ht
      cases ht
    rw [stage_unlockList_self] at hafter
    by_cases hown : (own, ask.guard) = (sig, g)
    · cases hown
      exact .parks ask before hstage rfl hnew (hafter.mpr rfl) (by simp)
    · refine .leaves (iff_of_false (fun ht => ?_) hnew)
        (count_parked_unlockList hown fun k hk => ?_)
      · exact hown (Option.some.inj (hafter.mp ht))
      · simp [Ne.symm hk]
  | unregister ask own granted hstage =>
    have hgone : t ∉ (s.unlockList t own (Guard.unregister ask.guard (s.flags own).parked)
        (if granted then .marking ask else .withdrawing ask)).waiters sig g := by
      rw [hafter, stage_unlockList_self]
      cases granted <;> exact fun e => by cases e
    rw [hstage] at hbefore
    by_cases hown : (own, ask.guard) = (sig, g)
    · cases hown
      -- the thread is registered still, so the list has an entry to take off
      have hentry : ask.guard ∈ (s.flags sig).parked := hlists.mem (by rw [hstage]; rfl)
      refine .unparks ask granted hstage rfl (hbefore.mpr rfl) hgone ?_
      rw [parked_unlockList_self, (perm_cons_unregister hentry).count_eq, List.count_cons_self]
    · refine .leaves (iff_of_false hgone fun ht => ?_) (count_parked_unlockList hown fun k hk => ?_)
      · exact hown (Option.some.inj (hbefore.mp ht))
      · rw [(unregister_perm_erase _ _).count_eq, List.count_erase_of_ne hk]
  | doze ask registered hregistered =>
    exact hleaves (by rw [stage_goTo_self, hregistered]) rfl
  | notify k stage _ hregistered => exact hleaves (by rw [stage_goTo_self, hregistered]) rfl
  | raise own hstage =>
    exact hleaves (by rw [stage_goTo_self, hstage]; exact Iff.rfl)
      (field_assign Flag.parked (by rfl) sig)
  | copy own hstage =>
    exact hleaves (by rw [stage_unlockList_self, hstage]; exact Iff.rfl)
      (field_assign Flag.parked (by rfl) sig)
  | clear k hstage => exact hleaves (by rw [stage_goTo_self, hstage]; exact Iff.rfl) rfl

theorem mem_waiters_of_ne {init : G → σ} {move : Move G S σ ρ} {u : T}
    (h : (start init).Reaches s) (hs : s.next t move = some s') (hu : u ≠ t) (sig : S) (g : G) :
    u ∈ s'.waiters sig g ↔ u ∈ s.waiters sig g := by
  rw [mem_waiters_iff (h.step hs), mem_waiters_iff h, ((step_of_next hs).calm hu).registered]

/-! ### What it comes to -/

/-- **A list has one entry for each thread that waits**, whatever the threads do and in whatever
order:

- the list of a signal has as many entries for a guard as there are threads that wait for the
  guard with the signal;
- a move changes this number only if its thread parks or unparks, and then for the guard and the
  signal of that thread alone, by one; all others go on waiting as they did;
- a thread that unparks, admitted or interrupted, finds an entry for its guard in the list of the
  signal that it asked with, and goes on; just this one entry is gone from the list then;
- the list of a signal is empty just when nobody waits with it. -/
theorem entry_for_each_waiter (init : G → σ) {s : State T G S σ ρ} (h : (start init).Reaches s) :
    (∀ sig g, ((s.flags sig).parked.count g : ℕ∞) = (s.waiters sig g).encard) ∧
    (∀ t move s', s.next t move = some s' → ∀ sig g,
      s.Books s' t sig g ∧ ∀ u, u ≠ t → (u ∈ s'.waiters sig g ↔ u ∈ s.waiters sig g)) ∧
    (∀ t ask sig granted, s.stage t = .unregistering ask sig granted →
      ask.signal = some sig ∧ ask.guard ∈ (s.flags sig).parked ∧
        ∃ s', s.advance t = some s' ∧
          (s.flags sig).parked.Perm (ask.guard :: (s'.flags sig).parked)) ∧
    ∀ sig, (s.flags sig).parked = [] ↔ ∀ g, s.waiters sig g = ∅ := by
  have hcount : ∀ sig g, ((s.flags sig).parked.count g : ℕ∞) = (s.waiters sig g).encard := by
    intro sig g
    rw [((wakeful_of_reaches h).listed sig).count_eq g]
    exact congrArg Set.encard (Set.ext fun t => (mem_waiters_iff h sig g t).symm)
  refine ⟨hcount, fun t move s' hs sig g => ?_, fun t ask sig granted hs => ?_, fun sig => ?_⟩
  · exact ⟨books_of_next h hs sig g, fun u hu => mem_waiters_of_ne h hs hu sig g⟩
  · have hsignal : ask.signal = some sig := by
      have := quits_of_reaches h t
      rwa [hs] at this
    have hentry : ask.guard ∈ (s.flags sig).parked := by
      refine ((wakeful_of_reaches h).listed sig).mem (u := t) ?_
      rw [hs]
      rfl
    refine ⟨hsignal, hentry, _, by simp only [advance, hs]; rfl, ?_⟩
    rw [parked_unlockList_self]
    exact perm_cons_unregister hentry
  · simp only [List.eq_nil_iff_forall_not_mem, ← List.count_eq_zero, ← Set.encard_eq_zero, ← hcount]
    simp

/-- A thread keeps two guards. Three others wait with one signal, the first and the last for the
same guard. When this is dropped, the first is admitted and takes its entry off: one is left for
the last, and the one for the other guard stays. -/
theorem entry_for_each_waiter_of_shared_signal :
    let ask : Bool → Ask Bool Unit Nat Nat := fun g => ⟨g, some (), none⟩
    ∃ s s' : State (Fin 4) Bool Unit Nat Nat, (start fun _ => 0).Reaches s ∧
      s.stage 1 = .unregistering (ask true) () true ∧
      (s.flags ()).parked = [true, false, true] ∧ (s.waiters () true).encard = 2 ∧
      s.advance 1 = some s' ∧ (s'.flags ()).parked = [true, false] ∧
      1 ∉ s'.waiters () true ∧ 2 ∈ s'.waiters () false ∧ 3 ∈ s'.waiters () true := by
  intro ask
  let keeps (g : Bool) : List (Fin 4 × Move Bool Unit Nat Nat) :=
    (0, .call (.acquire ⟨g, none, none⟩)) :: List.replicate 6 (0, .advance)
  let sleeps (t : Fin 4) (g : Bool) : List (Fin 4 × Move Bool Unit Nat Nat) :=
    (t, .call (.acquire (ask g))) :: List.replicate 8 (t, .advance)
  let drops : List (Fin 4 × Move Bool Unit Nat Nat) :=
    (0, .call (.drop true)) :: List.replicate 5 (0, .advance)
  let moves := keeps true ++ keeps false ++ sleeps 1 true ++ sleeps 2 false ++ sleeps 3 true ++
    drops ++ List.replicate 3 (1, .advance)
  have hrun : ((start fun _ => 0).run moves).map
      (fun s => (s.stage 1, s.stage 2, s.stage 3, (s.flags ()).parked)) =
        some (.unregistering (ask true) () true, .asleep (ask false) (some ((), false)),
          .woken (ask true) (some ((), false)), [true, false, true]) := rfl
  obtain ⟨s, hs, hseen⟩ := Option.map_eq_some_iff.mp hrun
  obtain ⟨hfirst, hsecond, hthird, hparked⟩ :
      s.stage 1 = .unregistering (ask true) () true ∧
        s.stage 2 = .asleep (ask false) (some ((), false)) ∧
        s.stage 3 = .woken (ask true) (some ((), false)) ∧
        (s.flags ()).parked = [true, false, true] := by
    simpa using hseen
  have h := reaches_of_run hs
  have hsecond_waits : (2 : Fin 4) ∈ s.waiters () false := by
    refine ⟨ask false, ?_, rfl, rfl⟩
    rw [hsecond]
    rfl
  have hthird_waits : (3 : Fin 4) ∈ s.waiters () true := by
    refine ⟨ask true, ?_, rfl, rfl⟩
    rw [hthird]
    rfl
  obtain ⟨hcount, hmoves, hunparks, -⟩ := entry_for_each_waiter (fun _ => 0) h
  obtain ⟨-, -, s', hs', -⟩ := hunparks 1 _ () true hfirst
  have hafter : (s'.flags ()).parked = [true, false] := by
    simp only [advance, hfirst, Option.some.injEq] at hs'
    rw [← hs', parked_unlockList_self, hparked]
    rfl
  obtain ⟨hbooks, hothers⟩ := hmoves 1 .advance s' hs' () true
  have hgone : (1 : Fin 4) ∉ s'.waiters () true := by
    cases hbooks with
    | leaves _ hsame | parks _ _ _ _ _ _ hsame =>
      rw [hparked, hafter] at hsame
      cases hsame
    | unparks _ _ _ _ _ hgone => exact hgone
  refine ⟨s, s', h, hfirst, hparked, ?_, hs', hafter, hgone, ?_, ?_⟩
  · rw [← hcount, hparked]
    rfl
  · exact ((hmoves 1 .advance s' hs' () false).2 2 (by decide)).mpr hsecond_waits
  · exact (hothers 3 (by decide)).mpr hthird_waits

end State

end Spool.Guard
