import Spool.Proofs.Steps
import Mathlib.Data.List.Nodup

/-!
# Exclusion

A guard's mutex and its flag together keep all threads but one from the guarded value. A
step does one of three things with the mutexes, and likewise with the lists of signals, the
values and the guards themselves: it leaves them, it takes one that is free, or it gives
back its own (`Turn`). So each of them belongs to the thread that is where it holds it
(`Owns`, `Marks`).

`Sound` says this of all four, and that what a thread knows of a flag or has seen of a value
is so. Every move keeps it (`Sound.next`), so it holds of every state that a machine comes
to (`Sound.reaches`).
-/

namespace Spool.Guard

/-! ### Turns -/

section Turns

variable {T K V β : Type} {free mine : V} {holds holds' : T → K → Prop} {t : T}

/-- What a step of one thread does with things of which each is `free` or `mine`: what is
shared goes from `o` to `o'`, and what the thread holds from `P` to `P'`. -/
inductive Turn (free mine : V) (o o' : K → V) (P P' : K → Prop) : Prop where
  /-- It leaves them. -/
  | same : (∀ k, o' k = o k) → (∀ k, P' k ↔ P k) → Turn free mine o o' P P'
  /-- It takes one that is free. -/
  | take (k : K) : o k = free → o' k = mine → (∀ j, j ≠ k → o' j = o j) →
      (∀ j, P' j ↔ P j ∨ j = k) → Turn free mine o o' P P'
  /-- It gives back its own. -/
  | give (k : K) : P k → o' k = free → (∀ j, j ≠ k → o' j = o j) →
      (∀ j, P' j ↔ P j ∧ j ≠ k) → Turn free mine o o' P P'

/-- Every thing belongs to the thread that holds it. -/
def Owns (holds : T → K → Prop) (owner : K → Option T) : Prop :=
  ∀ t k, holds t k ↔ owner k = some t

/-- Every thing is marked just when it belongs to a thread. -/
def Marks (holds : T → K → Prop) (mark : K → Bool) : Prop :=
  ∃ owner : K → Option T, Owns holds owner ∧ ∀ k, mark k = (owner k).isSome

theorem Owns.unique {o : K → Option T} (h : Owns holds o) {u : T} {k : K} (ht : holds t k)
    (hu : holds u k) : t = u :=
  Option.some.inj (((h t k).mp ht).symm.trans ((h u k).mp hu))

theorem Marks.unique {mark : K → Bool} (h : Marks holds mark) {u : T} {k : K} (ht : holds t k)
    (hu : holds u k) : t = u := by
  obtain ⟨owner, hown, -⟩ := h
  exact hown.unique ht hu

theorem Marks.eq_true_iff {mark : K → Bool} (h : Marks holds mark) (k : K) :
    mark k = true ↔ ∃ t, holds t k := by
  obtain ⟨owner, hown, hmark⟩ := h
  rw [hmark, Option.isSome_iff_exists]
  exact exists_congr fun t => (hown t k).symm

/-- A turn leaves every thing with the thread that holds it. -/
theorem Owns.turn {o o' : K → Option T} (h : Owns holds o)
    (mine : Turn none (some t) o o' (holds t) (holds' t))
    (others : ∀ u, u ≠ t → ∀ k, holds' u k ↔ holds u k) : Owns holds' o' := by
  intro u j
  by_cases hu : u = t
  · subst hu
    cases mine with
    | same ho hP => rw [ho, hP, h u j]
    | take k hfree hk ho hP =>
      by_cases hj : j = k
      · simp [hP, hj, hk]
      · rw [hP, ho j hj, h u j, or_iff_left hj]
    | give k hmine hk ho hP =>
      by_cases hj : j = k
      · simp [hP, hj, hk]
      · rw [hP, ho j hj, h u j, and_iff_left hj]
  · rw [others u hu, h u j]
    have hne : some t ≠ some u := fun e => hu (Option.some.inj e).symm
    cases mine with
    | same ho hP => rw [ho]
    | take k hfree hk ho hP =>
      by_cases hj : j = k
      · simp [hj, hfree, hk, hne]
      · rw [ho j hj]
    | give k hmine hk ho hP =>
      by_cases hj : j = k
      · simp [hj, (h t k).mp hmine, hk, hne]
      · rw [ho j hj]

theorem eq_some_iff_or {c c' : Option K} {k : K} (h : c = none) (h' : c' = some k) (j : K) :
    c' = some j ↔ c = some j ∨ j = k := by
  simp [h, h', eq_comm]

theorem eq_some_iff_and {c c' : Option K} {k : K} (h : c = some k) (h' : c' = none) (j : K) :
    c' = some j ↔ c = some j ∧ j ≠ k := by
  simp [h, h', eq_comm]

theorem eq_some_or_iff_or {c c' : Option K} {k : K} (P : K → Prop) (h : c = none)
    (h' : c' = some k) (j : K) : c' = some j ∨ P j ↔ (c = some j ∨ P j) ∨ j = k := by
  rw [eq_some_iff_or h h', or_right_comm]

theorem eq_some_or_iff_and {c c' : Option K} {k : K} {P : K → Prop} (h : c = some k)
    (h' : c' = none) (hk : ¬ P k) (j : K) : c' = some j ∨ P j ↔ (c = some j ∨ P j) ∧ j ≠ k := by
  have hP : P j → j ≠ k := fun hj e => hk (e ▸ hj)
  rw [eq_some_iff_and h h', or_and_right, and_iff_left_of_imp hP]

variable [DecidableEq K]

/-- A turn leaves just those things marked that belong to a thread. -/
theorem Marks.turn {o o' : K → Bool} (h : Marks holds o)
    (mine : Turn false true o o' (holds t) (holds' t))
    (others : ∀ u, u ≠ t → ∀ k, holds' u k ↔ holds u k) : Marks holds' o' := by
  obtain ⟨owner, hown, hmark⟩ := h
  cases mine with
  | same ho hP =>
    refine ⟨owner, hown.turn (.same (fun _ => rfl) hP) others, fun j => ?_⟩
    rw [ho, hmark]
  | take k hfree hk ho hP =>
    have hnone : owner k = none := by
      rw [← Option.isNone_iff_eq_none, ← Option.isSome_eq_false_iff, ← hmark, hfree]
    refine ⟨assign owner k (some t), hown.turn (.take k hnone (assign_self _ _ _)
      (fun j hj => assign_of_ne _ _ hj) hP) others, fun j => ?_⟩
    by_cases hj : j = k
    · simp [hj, hk]
    · rw [ho j hj, assign_of_ne _ _ hj, hmark]
  | give k hmine hk ho hP =>
    refine ⟨assign owner k none, hown.turn (.give k hmine (assign_self _ _ _)
      (fun j hj => assign_of_ne _ _ hj) hP) others, fun j => ?_⟩
    by_cases hj : j = k
    · simp [hj, hk]
    · rw [ho j hj, assign_of_ne _ _ hj, hmark]

theorem field_assign {m : K → β} {k : K} {b : β} (f : β → V) (hb : f b = f (m k)) (j : K) :
    f (assign m k b j) = f (m j) := by
  by_cases hj : j = k
  · rw [hj, assign_self, hb]
  · rw [assign_of_ne _ _ hj]

/-- What is shared may be one field `f` of something more. -/
theorem Turn.same_assign {m : K → β} {k : K} {b : β} {P P' : K → Prop} (f : β → V)
    (hb : f b = f (m k)) (hP : ∀ j, P' j ↔ P j) :
    Turn free mine (fun j => f (m j)) (fun j => f (assign m k b j)) P P' :=
  .same (field_assign f hb) hP

theorem Turn.take_assign {m : K → β} {k : K} {b : β} {P P' : K → Prop} (f : β → V)
    (hfree : f (m k) = free) (hb : f b = mine) (hP : ∀ j, P' j ↔ P j ∨ j = k) :
    Turn free mine (fun j => f (m j)) (fun j => f (assign m k b j)) P P' :=
  .take k hfree (by simp [hb]) (fun j hj => by simp [hj]) hP

theorem Turn.give_assign {m : K → β} {k : K} {b : β} {P P' : K → Prop} (f : β → V)
    (hk : P k) (hb : f b = free) (hP : ∀ j, P' j ↔ P j ∧ j ≠ k) :
    Turn free mine (fun j => f (m j)) (fun j => f (assign m k b j)) P P' :=
  .give k hk (by simp [hb]) (fun j hj => by simp [hj]) hP

end Turns

/-! ### What a thread holds -/

variable {T G S σ ρ : Type}

namespace Thread

/-- The guards that the thread holds, in its present call and from calls before. -/
def held (th : Thread G S σ ρ) : List G := th.stage.taken.toList ++ th.kept

/-- The guards whose values the thread has. -/
def opened (th : Thread G S σ ρ) : List G := th.stage.entered.toList ++ th.kept

end Thread

theorem State.mem_held {s : State T G S σ ρ} {t : T} {g : G} :
    g ∈ (s.threads t).held ↔ (s.stage t).taken = some g ∨ g ∈ (s.threads t).kept := by
  simp [Thread.held, State.stage]

theorem State.mem_opened {s : State T G S σ ρ} {t : T} {g : G} :
    g ∈ (s.threads t).opened ↔ (s.stage t).entered = some g ∨ g ∈ (s.threads t).kept := by
  simp [Thread.opened, State.stage]

theorem State.held_eq (s : State T G S σ ρ) (t : T) :
    (s.threads t).held = (s.stage t).taken.toList ++ (s.threads t).kept := rfl

theorem State.not_mem_kept_of_taken {s : State T G S σ ρ} {t : T} {g : G}
    (hnodup : (s.threads t).held.Nodup) (h : (s.stage t).taken = some g) : g ∉ (s.threads t).kept := by
  rw [Thread.held, show (s.threads t).stage.taken = some g from h, Option.toList_some,
    List.singleton_append] at hnodup
  exact (List.nodup_cons.mp hnodup).1

/-! ### The turns of a step -/

namespace State

variable [DecidableEq T] [DecidableEq G] [DecidableEq S] {s s' : State T G S σ ρ} {t : T}

theorem Step.turn_mutex (h : s.Step t s') :
    Turn none (some t) (fun g => (s.cells g).owner) (fun g => (s'.cells g).owner)
      (fun g => (s.stage t).mutex = some g) fun g => (s'.stage t).mutex = some g := by
  cases h with
  | lock g stage hfree hm hl =>
    refine .take_assign Cell.owner hfree rfl fun j => ?_
    rw [stage_goTo_self]
    exact eq_some_iff_or hm hl.mutex j
  | unlock g stage hm hl =>
    refine .give_assign Cell.owner hm rfl fun j => ?_
    rw [stage_unlock_self]
    exact eq_some_iff_and hm hl.mutex j
  | goTo stage hl | lockList _ stage _ _ hl | flag _ _ stage hl | notify _ stage hl =>
    refine .same (fun _ => rfl) fun j => ?_
    rw [stage_goTo_self]
    exact iff_of_eq (congrArg (· = some j) hl.mutex)
  | unlockList _ _ stage _ hl =>
    refine .same (fun _ => rfl) fun j => ?_
    rw [stage_unlockList_self]
    exact iff_of_eq (congrArg (· = some j) hl.mutex)
  | refuse _ _ _ hs | use _ _ hs =>
    refine .same (fun _ => rfl) fun j => ?_
    rw [stage_goTo_self, hs]
    rfl
  | keep _ hs | drop _ hs =>
    refine .same (fun _ => rfl) fun j => ?_
    rw [hs, stage_assign_self]
    rfl
  | mark _ hs | enter _ hs | close _ hs | clear _ hs =>
    refine .same_assign Cell.owner rfl fun j => ?_
    rw [stage_goTo_self, hs]
    rfl
  | apply g op seen last hs =>
    refine .same_assign Cell.owner rfl fun j => ?_
    rw [stage_apply_self, hs]
    cases last <;> rfl

theorem Step.turn_list (h : s.Step t s') :
    Turn none (some t) (fun sig => (s.flags sig).owner) (fun sig => (s'.flags sig).owner)
      (fun sig => (s.stage t).list = some sig) fun sig => (s'.stage t).list = some sig := by
  cases h with
  | lockList sig stage hfree hm hl =>
    refine .take_assign Flag.owner hfree rfl fun j => ?_
    rw [stage_goTo_self]
    exact eq_some_iff_or hm hl.list j
  | unlockList sig parked stage hm hl =>
    refine .give_assign Flag.owner hm rfl fun j => ?_
    rw [stage_unlockList_self]
    exact eq_some_iff_and hm hl.list j
  | goTo stage hl | lock _ stage _ _ hl | notify _ stage hl =>
    refine .same (fun _ => rfl) fun j => ?_
    rw [stage_goTo_self]
    exact iff_of_eq (congrArg (· = some j) hl.list)
  | flag _ _ stage hl =>
    refine .same_assign Flag.owner rfl fun j => ?_
    rw [stage_goTo_self]
    exact iff_of_eq (congrArg (· = some j) hl.list)
  | unlock _ stage _ hl =>
    refine .same (fun _ => rfl) fun j => ?_
    rw [stage_unlock_self]
    exact iff_of_eq (congrArg (· = some j) hl.list)
  | refuse _ _ _ hs | use _ _ hs | mark _ hs | enter _ hs | close _ hs | clear _ hs =>
    refine .same (fun _ => rfl) fun j => ?_
    rw [stage_goTo_self, hs]
    rfl
  | keep _ hs | drop _ hs =>
    refine .same (fun _ => rfl) fun j => ?_
    rw [hs, stage_assign_self]
    rfl
  | apply g op seen last hs =>
    refine .same (fun _ => rfl) fun j => ?_
    rw [stage_apply_self, hs]
    cases last <;> rfl

theorem eq_or_mem_erase_iff {l : List G} {g : G} (hg : g ∈ l) (j : G) :
    g = j ∨ j ∈ l.erase g ↔ j ∈ l := by
  by_cases hj : j = g
  · simp [hj, hg]
  · rw [List.mem_erase_of_ne hj, or_iff_right fun e => hj e.symm]

theorem Step.turn_opened (h : s.Step t s') (hnodup : (s.threads t).held.Nodup) :
    Turn none (some t) (fun g => (s.cells g).user) (fun g => (s'.cells g).user)
      (fun g => g ∈ (s.threads t).opened) fun g => g ∈ (s'.threads t).opened := by
  simp only [mem_opened]
  cases h with
  | enter ask hs hfree =>
    refine .take_assign Cell.user hfree rfl fun j => ?_
    rw [stage_goTo_self, kept_goTo_self, hs]
    exact eq_some_or_iff_or (· ∈ (s.threads t).kept) rfl rfl j
  | close g hs =>
    have hg : g ∉ (s.threads t).kept := not_mem_kept_of_taken hnodup (by rw [hs]; rfl)
    refine .give_assign Cell.user (.inl (by rw [hs]; rfl)) rfl fun j => ?_
    rw [stage_goTo_self, kept_goTo_self, hs]
    exact eq_some_or_iff_and rfl rfl hg j
  | goTo stage hl | lockList _ stage _ _ hl | flag _ _ stage hl | notify _ stage hl =>
    refine .same (fun _ => rfl) fun j => ?_
    rw [stage_goTo_self, kept_goTo_self]
    exact or_congr_left (iff_of_eq (congrArg (· = some j) hl.entered))
  | lock _ stage _ _ hl =>
    refine .same_assign Cell.user rfl fun j => ?_
    rw [stage_goTo_self, kept_goTo_self]
    exact or_congr_left (iff_of_eq (congrArg (· = some j) hl.entered))
  | unlock _ stage _ hl =>
    refine .same_assign Cell.user rfl fun j => ?_
    rw [stage_unlock_self, kept_unlock_self]
    exact or_congr_left (iff_of_eq (congrArg (· = some j) hl.entered))
  | unlockList _ _ stage _ hl =>
    refine .same (fun _ => rfl) fun j => ?_
    rw [stage_unlockList_self, kept_unlockList_self]
    exact or_congr_left (iff_of_eq (congrArg (· = some j) hl.entered))
  | refuse _ _ _ hs | use _ _ hs =>
    refine .same (fun _ => rfl) fun j => ?_
    rw [stage_goTo_self, kept_goTo_self, hs]
    exact Iff.rfl
  | mark _ hs | clear _ hs =>
    refine .same_assign Cell.user rfl fun j => ?_
    rw [stage_goTo_self, kept_goTo_self, hs]
    exact Iff.rfl
  | keep ask hs =>
    refine .same (fun _ => rfl) fun j => ?_
    rw [stage_assign_self, kept_assign_self, hs, List.mem_cons]
    simp [Stage.entered, eq_comm]
  | drop g hs hg =>
    refine .same (fun _ => rfl) fun j => ?_
    rw [stage_assign_self, kept_assign_self, hs]
    simpa [Stage.entered] using eq_or_mem_erase_iff hg j
  | apply g op seen last hs =>
    refine .same_assign Cell.user rfl fun j => ?_
    rw [stage_apply_self, kept_apply_self, hs]
    cases last <;> exact Iff.rfl

/-- The guards themselves. A guard is only taken by a thread that knows it to be free. -/
theorem Step.turn_held (h : s.Step t s') (hnodup : (s.threads t).held.Nodup)
    (hknows : ∀ g b, (s.stage t).knows = some (g, b) → (s.cells g).busy = b) :
    Turn false true (fun g => (s.cells g).busy) (fun g => (s'.cells g).busy)
      (fun g => g ∈ (s.threads t).held) fun g => g ∈ (s'.threads t).held := by
  simp only [mem_held]
  cases h with
  | mark ask hs =>
    have hfree : (s.cells ask.guard).busy = false := hknows _ _ (by rw [hs]; rfl)
    refine .take_assign Cell.busy hfree rfl fun j => ?_
    rw [stage_goTo_self, kept_goTo_self, hs]
    exact eq_some_or_iff_or (· ∈ (s.threads t).kept) rfl rfl j
  | clear g hs =>
    have hg : g ∉ (s.threads t).kept := not_mem_kept_of_taken hnodup (by rw [hs]; rfl)
    refine .give_assign Cell.busy (.inl (by rw [hs]; rfl)) rfl fun j => ?_
    rw [stage_goTo_self, kept_goTo_self, hs]
    exact eq_some_or_iff_and rfl rfl hg j
  | goTo stage hl | lockList _ stage _ _ hl | flag _ _ stage hl | notify _ stage hl =>
    refine .same (fun _ => rfl) fun j => ?_
    rw [stage_goTo_self, kept_goTo_self]
    exact or_congr_left (iff_of_eq (congrArg (· = some j) hl.taken))
  | lock _ stage _ _ hl =>
    refine .same_assign Cell.busy rfl fun j => ?_
    rw [stage_goTo_self, kept_goTo_self]
    exact or_congr_left (iff_of_eq (congrArg (· = some j) hl.taken))
  | unlock _ stage _ hl =>
    refine .same_assign Cell.busy rfl fun j => ?_
    rw [stage_unlock_self, kept_unlock_self]
    exact or_congr_left (iff_of_eq (congrArg (· = some j) hl.taken))
  | unlockList _ _ stage _ hl =>
    refine .same (fun _ => rfl) fun j => ?_
    rw [stage_unlockList_self, kept_unlockList_self]
    exact or_congr_left (iff_of_eq (congrArg (· = some j) hl.taken))
  | refuse _ _ _ hs | use _ _ hs =>
    refine .same (fun _ => rfl) fun j => ?_
    rw [stage_goTo_self, kept_goTo_self, hs]
    exact Iff.rfl
  | enter _ hs | close _ hs =>
    refine .same_assign Cell.busy rfl fun j => ?_
    rw [stage_goTo_self, kept_goTo_self, hs]
    exact Iff.rfl
  | keep ask hs =>
    refine .same (fun _ => rfl) fun j => ?_
    rw [stage_assign_self, kept_assign_self, hs, List.mem_cons]
    simp [Stage.taken, eq_comm]
  | drop g hs hg =>
    refine .same (fun _ => rfl) fun j => ?_
    rw [stage_assign_self, kept_assign_self, hs]
    simpa [Stage.taken] using eq_or_mem_erase_iff hg j
  | apply g op seen last hs =>
    refine .same_assign Cell.busy rfl fun j => ?_
    rw [stage_apply_self, kept_apply_self, hs]
    cases last <;> exact Iff.rfl

/-- Only who holds the mutex of a guard changes its flag. -/
theorem Step.busy_eq (h : s.Step t s') {g : G} (hm : (s.stage t).mutex ≠ some g) :
    (s'.cells g).busy = (s.cells g).busy := by
  cases h with
  | mark ask hs =>
    have hne : g ≠ ask.guard := fun e => hm (by rw [hs, e]; rfl)
    exact congrArg Cell.busy (assign_of_ne _ _ hne)
  | clear k hs =>
    have hne : g ≠ k := fun e => hm (by rw [hs, e]; rfl)
    exact congrArg Cell.busy (assign_of_ne _ _ hne)
  | lock | unlock | enter | close | apply => exact field_assign Cell.busy (by rfl) g
  | _ => rfl

/-- Only who has looked at a value changes it. -/
theorem Step.value_eq (h : s.Step t s') {g : G} (hv : ∀ v, (s.stage t).seen ≠ some (g, v)) :
    (s'.cells g).value = (s.cells g).value := by
  cases h with
  | apply k op seen last hs =>
    have hne : g ≠ k := fun e => hv seen (by rw [hs, e]; rfl)
    exact congrArg Cell.value (assign_of_ne _ _ hne)
  | lock | unlock | enter | close | mark | clear => exact field_assign Cell.value (by rfl) g
  | _ => rfl

/-- What is known after a step was known before it or was so then, and the step has not
changed it. -/
theorem Step.knows (h : s.Step t s') {g : G} {b : Bool} (hk : (s'.stage t).knows = some (g, b)) :
    ((s.stage t).knows = some (g, b) ∨ (s.cells g).busy = b) ∧
      (s'.cells g).busy = (s.cells g).busy := by
  cases h with
  | goTo stage hl | lockList _ stage _ _ hl | flag _ _ stage hl | notify _ stage hl =>
    rw [stage_goTo_self] at hk
    exact ⟨hl.knows g b hk, rfl⟩
  | lock _ stage _ _ hl =>
    rw [stage_goTo_self] at hk
    exact ⟨hl.knows g b hk, field_assign Cell.busy (by rfl) g⟩
  | unlock _ stage _ hl =>
    rw [stage_unlock_self] at hk
    exact ⟨hl.knows g b hk, field_assign Cell.busy (by rfl) g⟩
  | unlockList _ _ stage _ hl =>
    rw [stage_unlockList_self] at hk
    exact ⟨hl.knows g b hk, rfl⟩
  | refuse ask sig before hs =>
    rw [stage_goTo_self] at hk
    exact ⟨.inl (hs ▸ hk), rfl⟩
  | mark | enter | close | clear | use =>
    rw [stage_goTo_self] at hk
    cases hk
  | keep | drop =>
    rw [stage_assign_self] at hk
    cases hk
  | apply g op seen last =>
    rw [stage_apply_self] at hk
    cases last <;> cases hk

theorem Step.seen (h : s.Step t s') {g : G} {v : σ} (hv : (s'.stage t).seen = some (g, v)) :
    (s'.cells g).value = v := by
  cases h with
  | goTo stage hl | lockList _ stage _ _ hl | flag _ _ stage hl | notify _ stage hl =>
    rw [stage_goTo_self] at hv
    exact hl.seen g v hv
  | lock _ stage _ _ hl =>
    rw [stage_goTo_self] at hv
    exact (field_assign Cell.value (by rfl) g).trans (hl.seen g v hv)
  | unlock _ stage _ hl =>
    rw [stage_unlock_self] at hv
    exact (field_assign Cell.value (by rfl) g).trans (hl.seen g v hv)
  | unlockList _ _ stage _ hl =>
    rw [stage_unlockList_self] at hv
    exact hl.seen g v hv
  | refuse | mark | enter | close | clear | use =>
    rw [stage_goTo_self] at hv
    cases hv
  | keep | drop =>
    rw [stage_assign_self] at hv
    cases hv
  | apply g op seen last =>
    rw [stage_apply_self] at hv
    cases last <;> cases hv

theorem Step.uses (h : s.Step t s') {g : G} (hu : (s'.stage t).uses = some g)
    (hkept : (s.stage t).uses = some g → g ∈ (s.threads t).kept) : g ∈ (s'.threads t).kept := by
  cases h with
  | goTo stage hl | lockList _ stage _ _ hl | flag _ _ stage hl | notify _ stage hl
  | lock _ stage _ _ hl =>
    rw [stage_goTo_self] at hu
    rw [kept_goTo_self]
    exact hkept (hl.uses.symm.trans hu)
  | unlock _ stage _ hl =>
    rw [stage_unlock_self] at hu
    rw [kept_unlock_self]
    exact hkept (hl.uses.symm.trans hu)
  | unlockList _ _ stage _ hl =>
    rw [stage_unlockList_self] at hu
    rw [kept_unlockList_self]
    exact hkept (hl.uses.symm.trans hu)
  | use g op hs hg =>
    rw [stage_goTo_self] at hu
    rw [kept_goTo_self]
    cases hu
    exact hg
  | refuse | mark | enter | close | clear =>
    rw [stage_goTo_self] at hu
    cases hu
  | keep | drop =>
    rw [stage_assign_self] at hu
    cases hu
  | apply g op seen last =>
    rw [stage_apply_self] at hu
    cases last <;> cases hu

/-- A thread that holds no guard twice does not after a step either: it only takes a guard
that it knows to be free. -/
theorem Step.nodup (h : s.Step t s') (hnodup : (s.threads t).held.Nodup)
    (hfree : ∀ g, (s.stage t).knows = some (g, false) → g ∉ (s.threads t).kept) :
    (s'.threads t).held.Nodup := by
  have hkept : (s.threads t).kept.Nodup := (List.nodup_append.mp hnodup).2.1
  rw [held_eq] at hnodup ⊢
  cases h with
  | mark ask hs =>
    rw [stage_goTo_self, kept_goTo_self]
    exact List.nodup_cons.mpr ⟨hfree ask.guard (by rw [hs]; rfl), hkept⟩
  | clear =>
    rw [stage_goTo_self, kept_goTo_self]
    exact hkept
  | drop g hs hg =>
    rw [stage_assign_self, kept_assign_self]
    exact (List.perm_cons_erase hg).nodup_iff.mp hkept
  | goTo stage hl | lockList _ stage _ _ hl | flag _ _ stage hl | notify _ stage hl
  | lock _ stage _ _ hl =>
    rw [stage_goTo_self, kept_goTo_self, hl.taken]
    exact hnodup
  | unlock _ stage _ hl =>
    rw [stage_unlock_self, kept_unlock_self, hl.taken]
    exact hnodup
  | unlockList _ _ stage _ hl =>
    rw [stage_unlockList_self, kept_unlockList_self, hl.taken]
    exact hnodup
  | refuse _ _ _ hs | enter _ hs | close _ hs | use _ _ hs =>
    rw [stage_goTo_self, kept_goTo_self]
    rw [hs] at hnodup
    exact hnodup
  | keep _ hs =>
    rw [stage_assign_self, kept_assign_self]
    rw [hs] at hnodup
    exact hnodup
  | apply g op seen last hs =>
    rw [stage_apply_self, kept_apply_self]
    rw [hs] at hnodup
    cases last <;> exact hnodup

end State

/-! ### The invariant -/

/-- What the threads hold agrees with what they share, and no guard is held twice. -/
structure Sound (s : State T G S σ ρ) : Prop where
  /-- The mutex of a guard belongs to the thread that is where it holds it. -/
  mutex : Owns (fun t g => (s.stage t).mutex = some g) fun g => (s.cells g).owner
  /-- So does the list of a signal. -/
  list : Owns (fun t sig => (s.stage t).list = some sig) fun sig => (s.flags sig).owner
  /-- The value of a guard belongs to the thread that has it. -/
  opened : Owns (fun t g => g ∈ (s.threads t).opened) fun g => (s.cells g).user
  /-- The flag of a guard is set just when the guard belongs to a thread. -/
  held : Marks (fun t g => g ∈ (s.threads t).held) fun g => (s.cells g).busy
  /-- No thread holds a guard twice. -/
  nodup : ∀ t, (s.threads t).held.Nodup
  /-- A guard that is used without being asked for is kept. -/
  uses : ∀ t g, (s.stage t).uses = some g → g ∈ (s.threads t).kept
  /-- What a thread knows of a flag is so. -/
  knows : ∀ t g b, (s.stage t).knows = some (g, b) → (s.cells g).busy = b
  /-- A value that a thread has looked at is still there. -/
  seen : ∀ t g v, (s.stage t).seen = some (g, v) → (s.cells g).value = v

theorem Sound.start (init : G → σ) : Sound (State.start init : State T G S σ ρ) where
  mutex t g := by simp [State.start, State.stage, Stage.mutex]
  list t sig := by simp [State.start, State.stage, Stage.list]
  opened t g := by simp [State.start, Thread.opened, Stage.entered]
  held := ⟨fun _ => none, fun t g => by simp [State.start, Thread.held, Stage.taken], fun _ => rfl⟩
  nodup t := List.nodup_nil
  uses t g h := by cases h
  knows t g b h := by cases h
  seen t g v h := by cases h

namespace Sound

variable {s s' : State T G S σ ρ} {t : T}

theorem held_eq_of_rests {u : T} (h : s.Rests s' u) : (s'.threads u).held = (s.threads u).held := by
  have htaken : (s'.stage u).taken = (s.stage u).taken := congrArg Profile.taken h.profile
  rw [Thread.held, Thread.held, h.kept]
  exact congrArg (fun c => Option.toList c ++ _) htaken

theorem opened_eq_of_rests {u : T} (h : s.Rests s' u) :
    (s'.threads u).opened = (s.threads u).opened := by
  have hentered : (s'.stage u).entered = (s.stage u).entered := congrArg Profile.entered h.profile
  rw [Thread.opened, Thread.opened, h.kept]
  exact congrArg (fun c => Option.toList c ++ _) hentered

theorem not_mem_held (h : Sound s) {g : G} (hg : (s.cells g).busy = false) (u : T) :
    g ∉ (s.threads u).held := fun hu => by
  have := (h.held.eq_true_iff g).mpr ⟨u, hu⟩
  rw [hg] at this
  cases this

theorem opened_of_seen (h : Sound s) {g : G} {v : σ} (hv : (s.stage t).seen = some (g, v)) :
    g ∈ (s.threads t).opened :=
  State.mem_opened.mpr ((Stage.entered_or_uses_of_seen hv).imp_right (h.uses t g))

variable [DecidableEq T] [DecidableEq G] [DecidableEq S]

/-- **Every step keeps the invariant.** -/
theorem step (h : Sound s) (hstep : s.Step t s') : Sound s' where
  mutex := h.mutex.turn hstep.turn_mutex fun u hu g =>
    iff_of_eq (congrArg (·.mutex = some g) (hstep.rests hu).profile)
  list := h.list.turn hstep.turn_list fun u hu sig =>
    iff_of_eq (congrArg (·.list = some sig) (hstep.rests hu).profile)
  opened := h.opened.turn (hstep.turn_opened (h.nodup t)) fun u hu g => by
    rw [opened_eq_of_rests (hstep.rests hu)]
  held := h.held.turn (hstep.turn_held (h.nodup t) (h.knows t)) fun u hu g => by
    rw [held_eq_of_rests (hstep.rests hu)]
  nodup u := by
    by_cases hu : u = t
    · subst hu
      refine hstep.nodup (h.nodup u) fun g hg hkept => ?_
      exact h.not_mem_held (h.knows u g false hg) u (State.mem_held.mpr (.inr hkept))
    · rw [held_eq_of_rests (hstep.rests hu)]
      exact h.nodup u
  uses u g hg := by
    by_cases hu : u = t
    · subst hu
      exact hstep.uses hg (h.uses u g)
    · rw [(hstep.rests hu).kept]
      exact h.uses u g ((congrArg Profile.uses (hstep.rests hu).profile).symm.trans hg)
  knows u g b hg := by
    by_cases hu : u = t
    · subst hu
      obtain ⟨hold, hsame⟩ := hstep.knows hg
      rw [hsame]
      exact hold.elim (h.knows u g b) id
    · -- another thread holds the mutex, so that this one cannot change the flag
      rw [(hstep.rests hu).knows] at hg
      have hne : (s.stage t).mutex ≠ some g := fun ht =>
        hu (h.mutex.unique (Stage.mutex_of_knows hg) ht)
      rw [hstep.busy_eq hne]
      exact h.knows u g b hg
  seen u g v hg := by
    by_cases hu : u = t
    · subst hu
      exact hstep.seen hg
    · -- another thread has the value, so that this one cannot change it
      rw [(hstep.rests hu).seen] at hg
      have hne : ∀ w, (s.stage t).seen ≠ some (g, w) := fun w ht =>
        hu (h.opened.unique (h.opened_of_seen hg) (h.opened_of_seen ht))
      rw [hstep.value_eq hne]
      exact h.seen u g v hg

/-- **Every move keeps the invariant.** -/
theorem next {move : Move G S σ ρ} (h : Sound s) (hs : s.next t move = some s') : Sound s' :=
  h.step (State.step_of_next hs)

/-- **The invariant holds of every state that a machine comes to.** -/
theorem reaches (h : Sound s) (hs : s.Reaches s') : Sound s' := by
  induction hs with
  | refl => exact h
  | step _ hstep ih => exact ih.next hstep

end Sound

end Spool.Guard
