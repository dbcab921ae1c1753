import Spool.Crowd
import Spool.Proofs.Errands
import Spool.Proofs.Exclusion
import Spool.Proofs.Pursuit

/-!
# Traffic at a device

Any number of threads do errands on one device, while signals are raised and lowered. A
thread does by itself what an errand does before it asks for the guard; the rest is a call
on the machine of `Spool.Guard.Machine`, whose only guard has the store as its value.
`Traffic.next` makes one move of one thread, and `Traffic.Reaches` says what any threads can
come to, whatever they do and in whatever order.

A `Visit` is an errand whose fate is decided: it was over early, it was served under the
guard, or it was refused. Visits are noted when they are decided. `Orderly` is what holds of
the traffic at all times (`Orderly.reaches`): in particular, the visits that were served are
those that were admitted, in the order of their admissions, except for one that may still be
about it (`Orderly.order`), and to do their errands one after another comes to the same
(`Orderly.serial`).
-/

namespace Spool

open Guard (Ask Event Stage)

/-- What became of an errand. -/
inductive Fate where
  /-- It was over before the guard was asked for. -/
  | early
  /-- It was done under the guard. -/
  | served
  /-- It was turned away at the guard. -/
  | refused (raisedBefore : Bool)
  deriving DecidableEq

/-- An errand whose fate is decided. -/
structure Visit (T S : Type) where
  /-- Who did it. -/
  thread : T
  /-- The signal its caller waited with. -/
  signal : S
  /-- What was to be done. -/
  errand : Errand
  /-- What became of it. -/
  fate : Fate
  /-- What the caller got. -/
  receipt : Receipt

/-- Whether a visit was served under the guard. -/
def Visit.isServed {T S : Type} (v : Visit T S) : Bool := v.fate = .served

/-- Whether a visit was done, early or under the guard. -/
def Visit.isDone {T S : Type} (v : Visit T S) : Bool :=
  match v.fate with
  | .refused _ => false
  | _ => true

/-- Threads on errands. -/
structure Traffic (T S : Type) where
  /-- The device, as it was made. -/
  device : Device
  /-- The machine, whose only guard has the store as its value. -/
  machine : Guard.State T Unit S Store (Effect Store Receipt)
  /-- The errand that a thread is about at the guard, and the signal it goes by. -/
  current : T → Option (S × Errand)
  /-- The errands whose fates are decided, in the order in which they were. -/
  visits : List (Visit T S)

/-- What a thread can do. -/
inductive Traffic.Move (S : Type) where
  /-- Set out on an errand, with a signal. -/
  | begin (signal : S) (errand : Errand)
  /-- Raise a signal. -/
  | raise (signal : S)
  /-- Lower a signal. -/
  | lower (signal : S)
  /-- Make the next step of a call. -/
  | advance
  /-- Wake without having been notified. -/
  | wake

namespace Traffic

variable {T S : Type}

/-- Nobody is on an errand yet. -/
def start (d : Device) : Traffic T S := ⟨d, .start fun _ => d.store, fun _ => none, []⟩

/-- The policy of the device. -/
abbrev trailing (w : Traffic T S) : Trailing := w.device.config.trailing

/-- What is stored. -/
def store (w : Traffic T S) : Store := (w.machine.cells ()).value

/-- The device as it is now. -/
def now (w : Traffic T S) : Device := { w.device with store := w.store }

variable [DecidableEq T] [DecidableEq S]

/-- What a thread asks the machine for. -/
def ask (signal : S) (body : Store → Effect Store Receipt) :
    Ask Unit S Store (Effect Store Receipt) :=
  ⟨(), some signal, some (Plan.operation body)⟩

/-- The thread `t`, about its errand with the signal `signal`, has come to its end. -/
def settle (w : Traffic T S) (t : T) (signal : S) (errand : Errand) (fate : Fate)
    (receipt : Receipt) : Traffic T S :=
  { w with
    current := Guard.assign w.current t none
    visits := w.visits ++ [⟨t, signal, errand, fate, receipt⟩] }

/-- The thread `t` has moved the machine on: if its errand was decided by that, this is
noted. -/
def follow (w : Traffic T S) (t : T)
    (machine : Guard.State T Unit S Store (Effect Store Receipt)) : Traffic T S :=
  match w.current t, machine.history.drop w.machine.history.length with
  | some (signal, errand), [.used _ _ _ e] =>
    { w with machine }.settle t signal errand .served e.answer
  | some (signal, errand), [.refused _ _ before] =>
    { w with machine }.settle t signal errand (.refused before)
      ((errand.plan w.trailing).run (.refused before) w.store).answer
  | _, _ => { w with machine }

/-- Make a move with the thread `t`, if it is possible. -/
def next (w : Traffic T S) (t : T) : Move S → Option (Traffic T S)
  | .begin signal errand =>
    match errand.plan w.trailing with
    | .done receipt _ =>
      if w.machine.isIdle t then some (w.settle t signal errand .early receipt) else none
    | .guarded _ _ body =>
      (w.machine.call t (.acquire (ask signal body))).map fun machine =>
        { w with machine, current := Guard.assign w.current t (some (signal, errand)) }
  | .raise signal => (w.machine.call t (.raise signal)).map fun machine => { w with machine }
  | .lower signal => (w.machine.call t (.lower signal)).map fun machine => { w with machine }
  | .advance => (w.machine.advance t).map (w.follow t)
  | .wake => (w.machine.wake t).map fun machine => { w with machine }

/-- The traffic that can come of `w`, whatever its threads do and in whatever order. -/
inductive Reaches (w : Traffic T S) : Traffic T S → Prop where
  /-- Nothing has been done. -/
  | refl : Reaches w w
  /-- One more move. -/
  | step {u v : Traffic T S} {t : T} {move : Move S} :
      Reaches w u → u.next t move = some v → Reaches w v

/-- Make moves one after another, if they are possible. -/
def run (w : Traffic T S) : List (T × Move S) → Option (Traffic T S)
  | [] => some w
  | (t, move) :: rest => (w.next t move).bind (·.run rest)

theorem Reaches.trans {u v w : Traffic T S} (h : u.Reaches v) (h' : v.Reaches w) :
    u.Reaches w := by
  induction h' with
  | refl => exact h
  | step _ hstep ih => exact .step ih hstep

theorem reaches_of_run {w w' : Traffic T S} {moves : List (T × Move S)}
    (h : w.run moves = some w') : w.Reaches w' := by
  induction moves generalizing w with
  | nil =>
    cases h
    exact .refl
  | cons m rest ih =>
    obtain ⟨u, hu, h⟩ := Option.bind_eq_some_iff.mp h
    exact (Reaches.step .refl hu).trans (ih h)

/-! ### The invariant -/

/-- The threads that were admitted, in order. -/
def admissions (w : Traffic T S) : List T :=
  w.machine.history.filterMap fun event =>
    match event with
    | .admitted t _ => some t
    | _ => none

/-- The visits that were served, in order. -/
def served (w : Traffic T S) : List (Visit T S) := w.visits.filter Visit.isServed

/-- The thread is where its errand and the signal it goes by have led it: it is about it at
the guard, or it is about nothing. -/
def Follows (w : Traffic T S) (t : T) : Prop :=
  match w.current t with
  | some (signal, errand) => ∃ records refusal body,
      errand.plan w.trailing = .guarded records refusal body ∧
        (w.machine.stage t).Pursues (ask signal body)
  | none => (w.machine.stage t).isAimless = true

/-- The thread is admitted and about its errand. -/
def Serves (w : Traffic T S) (t : T) : Prop :=
  (w.current t).isSome = true ∧ (w.machine.stage t).taken = some ()

/-- The fate of a visit is one that its errand can have, and its receipt fits. -/
def Fits (w : Traffic T S) (v : Visit T S) : Prop :=
  match v.fate with
  | .early => ∃ records, v.errand.plan w.trailing = .done v.receipt records
  | .served => ∃ records refusal body store,
      v.errand.plan w.trailing = .guarded records refusal body ∧ v.receipt = (body store).answer
  | .refused _ => ∃ records body, v.errand.plan w.trailing = .guarded records v.receipt body

/-- Another thread holds the guard, and the signal is raised. -/
def Blocks (w : Traffic T S) (t : T) (signal : S) : Prop :=
  (∃ u, u ≠ t ∧ () ∈ (w.machine.threads u).held) ∧ (w.machine.flags signal).raised = true

/-- What holds of the traffic at all times. -/
structure Orderly (w : Traffic T S) : Prop where
  /-- The machine is sound. -/
  sound : Guard.Sound w.machine
  /-- No access is kept beyond a call. -/
  kept : ∀ t, (w.machine.threads t).kept = []
  /-- Every thread is where its errand has led it. -/
  follows : ∀ t, w.Follows t
  /-- Every visit has a fate that fits. -/
  fits : ∀ v ∈ w.visits, w.Fits v
  /-- The visits that were served are those that were admitted, in order, except for one
  that may still be about it. -/
  order : (∃ t, w.Serves t ∧ w.admissions = w.served.map Visit.thread ++ [t]) ∨
    (∀ t, ¬ w.Serves t) ∧ w.admissions = w.served.map Visit.thread
  /-- To do the errands that were served one after another comes to the same. -/
  serial : w.device.inTurn (w.served.map Visit.errand) = (w.served.map Visit.receipt, w.now)

/-! ### What a move changes -/

variable {w w' : Traffic T S} {t u : T} {signal : S} {errand : Errand}
  {machine : Guard.State T Unit S Store (Effect Store Receipt)}

/-- What a move of the thread `t` can do. -/
inductive Change (w : Traffic T S) (t : T) (w' : Traffic T S) : Prop where
  /-- Nothing is decided. -/
  | quiet : w'.visits = w.visits → w'.admissions = w.admissions → w'.store = w.store →
      (w'.Serves t ↔ w.Serves t) → Change w t w'
  /-- An errand is over and was not served: it was over early, or it was refused. -/
  | unserved (v : Visit T S) : w.Fits v → v.fate ≠ .served → v.thread = t →
      (∀ before, v.fate = .refused before → w.Blocks t v.signal) →
      w'.visits = w.visits ++ [v] → w'.admissions = w.admissions → w'.store = w.store →
      (w'.Serves t ↔ w.Serves t) → Change w t w'
  /-- The thread is admitted, and nobody else has the guard. -/
  | admitted : (w.machine.cells ()).busy = false → w'.visits = w.visits →
      w'.admissions = w.admissions ++ [t] → w'.store = w.store → w'.Serves t → Change w t w'
  /-- The errand of the thread is done. -/
  | served (v : Visit T S) : w.Fits v → v.fate = .served → v.thread = t →
      w'.visits = w.visits ++ [v] → w'.admissions = w.admissions → w.Serves t → ¬ w'.Serves t →
      w.now.serve v.errand = (v.receipt, w'.now) → Change w t w'

/-- What no move of the thread `t` changes. -/
structure Frame (w : Traffic T S) (t : T) (w' : Traffic T S) : Prop where
  /-- The device is the one that was made. -/
  device : w'.device = w.device
  /-- The others are on the errands they were on. -/
  current : ∀ u, u ≠ t → w'.current u = w.current u
  /-- The machine makes one step, or none. -/
  machine : w'.machine = w.machine ∨ w.machine.Step t w'.machine

namespace Frame

theorem stage (h : w.Frame t w') (hu : u ≠ t) :
    w'.machine.stage u = w.machine.stage u ∨
      ∃ g, w'.machine.stage u = (w.machine.stage u).notified g := by
  obtain hm | hm := h.machine
  · exact .inl (by rw [hm])
  · exact (hm.stage_of_ne hu).2

theorem follows (h : w.Frame t w') (hu : u ≠ t) (hw : w.Follows u) : w'.Follows u := by
  unfold Follows at hw ⊢
  rw [h.current u hu, trailing, h.device]
  obtain hs | ⟨g, hs⟩ := h.stage hu
  · rw [hs]
    exact hw
  · simpa only [hs, Stage.pursues_notified, Stage.isAimless_notified] using hw

theorem serves (h : w.Frame t w') (hu : u ≠ t) : w'.Serves u ↔ w.Serves u := by
  unfold Serves
  rw [h.current u hu]
  obtain hm | hm := h.machine
  · rw [hm]
  · have ht : (w'.machine.stage u).taken = (w.machine.stage u).taken :=
      congrArg Guard.Profile.taken (hm.rests hu).profile
    rw [ht]

theorem sound (h : w.Frame t w') (hw : Guard.Sound w.machine) : Guard.Sound w'.machine := by
  obtain hm | hm := h.machine
  · rwa [hm]
  · exact hw.step hm

theorem fits (h : w.Frame t w') {v : Visit T S} : w'.Fits v ↔ w.Fits v := by
  unfold Fits
  rw [trailing, h.device]

end Frame

/-! ### What follows a step -/

section

omit [DecidableEq S]

theorem follow_of_history_eq (h : machine.history = w.machine.history) :
    w.follow t machine = { w with machine } := by
  rw [follow, h, List.drop_length]
  cases w.current t <;> rfl

theorem follow_admitted (h : machine.history = w.machine.history ++ [.admitted u ()]) :
    w.follow t machine = { w with machine } := by
  rw [follow, h, List.drop_left]
  cases w.current t <;> rfl

theorem follow_used {op : Store → Effect Store Receipt × Store} {e : Effect Store Receipt}
    (hc : w.current t = some (signal, errand))
    (h : machine.history = w.machine.history ++ [.used u () op e]) :
    w.follow t machine = { w with machine }.settle t signal errand .served e.answer := by
  rw [follow, h, List.drop_left, hc]

theorem follow_refused {before : Bool} (hc : w.current t = some (signal, errand))
    (h : machine.history = w.machine.history ++ [.refused u () before]) :
    w.follow t machine =
      { w with machine }.settle t signal errand (.refused before)
        ((errand.plan w.trailing).run (.refused before) w.store).answer := by
  rw [follow, h, List.drop_left, hc]

end

theorem frame_follow (h : w.machine.Step t machine) : w.Frame t (w.follow t machine) := by
  unfold follow
  split
  · exact ⟨rfl, fun u hu => Guard.assign_of_ne _ _ hu, .inr h⟩
  · exact ⟨rfl, fun u hu => Guard.assign_of_ne _ _ hu, .inr h⟩
  · exact ⟨rfl, fun _ _ => rfl, .inr h⟩

/-- **A move of one thread leaves the others alone.** -/
theorem frame_of_next {move : Move S} (h : w.next t move = some w') : w.Frame t w' := by
  cases move with
  | begin signal errand =>
    rw [next] at h
    split at h
    · split at h
      · cases h
        exact ⟨rfl, fun u hu => Guard.assign_of_ne _ _ hu, .inl rfl⟩
      · cases h
    · obtain ⟨machine, hm, rfl⟩ := Option.map_eq_some_iff.mp h
      exact ⟨rfl, fun u hu => Guard.assign_of_ne _ _ hu, .inr (Guard.State.step_of_call hm)⟩
  | raise signal | lower signal =>
    obtain ⟨machine, hm, rfl⟩ := Option.map_eq_some_iff.mp h
    exact ⟨rfl, fun _ _ => rfl, .inr (Guard.State.step_of_call hm)⟩
  | advance =>
    obtain ⟨machine, hm, rfl⟩ := Option.map_eq_some_iff.mp h
    exact frame_follow (Guard.State.step_of_advance hm)
  | wake =>
    obtain ⟨machine, hm, rfl⟩ := Option.map_eq_some_iff.mp h
    exact ⟨rfl, fun _ _ => rfl, .inr (Guard.State.step_of_wake hm)⟩

theorem store_eq (h : w.machine.Step t machine) (hseen : (w.machine.stage t).seen = none) :
    (machine.cells ()).value = w.store :=
  h.value_eq fun v hv => by rw [hseen] at hv; cases hv

section

omit [DecidableEq T] [DecidableEq S]

theorem current_eq_none (h : w.Follows t) (hidle : w.machine.stage t = .idle) :
    w.current t = none := by
  cases hc : w.current t with
  | none => rfl
  | some x =>
    rw [Follows, hc] at h
    obtain ⟨records, refusal, body, -, hp⟩ := h
    rw [hidle] at hp
    cases hp

theorem not_serves_of_current (h : w.current t = none) : ¬ w.Serves t := by
  rintro ⟨hs, -⟩
  rw [h] at hs
  cases hs

theorem follows_of_current (hc : w.current t = some (signal, errand)) {records : List Record}
    {refusal : Receipt} {body : Store → Effect Store Receipt}
    (hplan : errand.plan w.trailing = .guarded records refusal body)
    (hp : (w.machine.stage t).Pursues (ask signal body)) : w.Follows t := by
  rw [Follows, hc]
  exact ⟨records, refusal, body, hplan, hp⟩

theorem follows_of_isAimless (hc : w.current t = none)
    (ha : (w.machine.stage t).isAimless = true) : w.Follows t := by
  rw [Follows, hc]
  exact ha

theorem admissions_eq (h : w'.machine.history = w.machine.history) :
    w'.admissions = w.admissions := by
  rw [admissions, h, admissions]

/-- Who finds the guard taken is blocked by somebody else. -/
theorem Orderly.blocks (h : Orderly w) (hk : (w.machine.stage t).knows = some ((), true))
    (hr : (w.machine.flags signal).raised = true) : w.Blocks t signal := by
  refine ⟨?_, hr⟩
  obtain ⟨u, hu⟩ := (h.sound.held.eq_true_iff ()).mp (h.sound.knows t () true hk)
  refine ⟨u, ?_, hu⟩
  rintro rfl
  rcases Guard.State.mem_held.mp hu with ht | hkept
  · rw [Stage.taken_of_knows hk] at ht
    cases ht
  · rw [h.kept u] at hkept
    cases hkept

end

/-- A step of a thread that is on an errand makes it go on, lets it in, or ends it. -/
theorem Orderly.change_of_current (h : Orderly w) (hc : w.current t = some (signal, errand))
    (hadv : w.machine.advance t = some machine) :
    w.Change t (w.follow t machine) ∧ (w.follow t machine).Follows t := by
  have hstep := Guard.State.step_of_advance hadv
  have hf := h.follows t
  rw [Follows, hc] at hf
  obtain ⟨records, refusal, body, hplan, hp⟩ := hf
  have hprogress := Guard.State.progress_of_advance hp hadv
  cases hprogress with
  | quiet hp' ht hv hh =>
    rw [follow_of_history_eq hh]
    constructor
    · exact .quiet rfl (admissions_eq hh) (store_eq hstep hv) (and_congr_right' (by rw [ht]))
    · exact follows_of_current hc hplan hp'
  | admitted hp' ht hk hh =>
    rw [follow_admitted hh]
    constructor
    · refine .admitted (h.sound.knows t () false hk) rfl ?_
        (store_eq hstep (Stage.seen_of_knows hk)) ⟨by rw [hc]; rfl, ht⟩
      simp [admissions, hh]
    · exact follows_of_current hc hplan hp'
  | refused sig before ha hsig hr hk hh =>
    obtain rfl : signal = sig := Option.some.inj hsig
    have hrun : ((errand.plan w.trailing).run (.refused before) w.store).answer = refusal := by
      rw [hplan]
      rfl
    rw [follow_refused hc hh, hrun]
    constructor
    · refine .unserved ⟨t, signal, errand, .refused before, refusal⟩ ⟨records, body, hplan⟩
        (fun e => by cases e) rfl (fun _ _ => h.blocks hk hr) rfl ?_
        (store_eq hstep (Stage.seen_of_knows hk)) ?_
      · simp [admissions, settle, hh]
      · refine iff_of_false (not_serves_of_current (Guard.assign_self _ _ _)) ?_
        rintro ⟨-, ht⟩
        rw [Stage.taken_of_knows hk] at ht
        cases ht
    · exact follows_of_isAimless (Guard.assign_self _ _ _) ha
  | kept hop => cases hop
  | used op seen hop ha ht hs hv hh =>
    obtain rfl : Plan.operation body = op := Option.some.inj hop
    obtain rfl : w.store = seen := h.sound.seen t () seen hs
    rw [follow_used hc hh]
    constructor
    · refine .served ⟨t, signal, errand, .served, (body w.store).answer⟩
        ⟨records, refusal, body, w.store, hplan, rfl⟩ rfl rfl rfl ?_ ⟨by rw [hc]; rfl, ht⟩
        (not_serves_of_current (Guard.assign_self _ _ _)) ?_
      · simp [admissions, settle, hh]
      · have hplan' : errand.plan w.now.config.trailing = .guarded records refusal body := hplan
        rw [Device.serve_eq_run, hplan']
        exact congrArg (fun store => ((body w.store).answer, { w.device with store })) hv.symm
    · exact follows_of_isAimless (Guard.assign_self _ _ _) ha

theorem Orderly.change_of_none (h : Orderly w) (hc : w.current t = none)
    (hadv : w.machine.advance t = some machine) :
    w.Change t (w.follow t machine) ∧ (w.follow t machine).Follows t := by
  have ha := h.follows t
  rw [Follows, hc] at ha
  obtain ⟨ha', hh⟩ := Guard.State.history_of_isAimless ha hadv
  have hv := store_eq (Guard.State.step_of_advance hadv) (Stage.seen_of_isAimless ha)
  rw [follow_of_history_eq hh]
  constructor
  · exact .quiet rfl (admissions_eq hh) hv
      (iff_of_false (not_serves_of_current hc) (not_serves_of_current hc))
  · exact follows_of_isAimless hc ha'

section

omit [DecidableEq S]

theorem Orderly.change_of_early (h : Orderly w) (hidle : w.machine.stage t = .idle)
    {receipt : Receipt} {records : List Record}
    (hplan : errand.plan w.trailing = .done receipt records) :
    w.Change t (w.settle t signal errand .early receipt) ∧
      (w.settle t signal errand .early receipt).Follows t := by
  have hc := current_eq_none (h.follows t) hidle
  have hc' : (w.settle t signal errand .early receipt).current t = none :=
    Guard.assign_self w.current t none
  constructor
  · exact .unserved ⟨t, signal, errand, .early, receipt⟩ ⟨records, hplan⟩ (fun e => by cases e)
      rfl (fun _ e => by cases e) rfl rfl rfl
      (iff_of_false (not_serves_of_current hc') (not_serves_of_current hc))
  · refine follows_of_isAimless hc' ?_
    rw [settle, hidle]
    rfl

theorem Orderly.change_of_begin (h : Orderly w) {records : List Record} {refusal : Receipt}
    {body : Store → Effect Store Receipt}
    (hplan : errand.plan w.trailing = .guarded records refusal body)
    (hm : w.machine.call t (.acquire (ask signal body)) = some machine) :
    let w' := { w with machine, current := Guard.assign w.current t (some (signal, errand)) }
    w.Change t w' ∧ w'.Follows t := by
  intro w'
  have hidle := Guard.State.stage_of_call hm
  have hc := current_eq_none (h.follows t) hidle
  simp only [Guard.State.call, hidle, Option.some.injEq] at hm
  subst hm
  constructor
  · refine .quiet rfl rfl rfl (iff_of_false ?_ (not_serves_of_current hc))
    rintro ⟨-, ht⟩
    rw [Guard.State.stage_goTo_self] at ht
    cases ht
  · refine follows_of_current (Guard.assign_self _ _ _) hplan ?_
    rw [Guard.State.stage_goTo_self]
    rfl

theorem Orderly.change_of_goTo (h : Orderly w) (hidle : w.machine.stage t = .idle)
    {stage : Stage Unit S Store (Effect Store Receipt)} (ha : stage.isAimless = true) :
    let w' := { w with machine := w.machine.goTo t stage }
    w.Change t w' ∧ w'.Follows t := by
  intro w'
  have hc := current_eq_none (h.follows t) hidle
  constructor
  · exact .quiet rfl rfl rfl
      (iff_of_false (not_serves_of_current hc) (not_serves_of_current hc))
  · refine follows_of_isAimless hc ?_
    rw [Guard.State.stage_goTo_self]
    exact ha

/-- Who wakes was waiting for the guard, and goes on to wait. -/
theorem Orderly.change_of_wake (h : Orderly w) (hm : w.machine.wake t = some machine) :
    w.Change t { w with machine } ∧ Follows { w with machine } t := by
  obtain ⟨asked, registered, hasleep, rfl⟩ := Guard.State.stage_of_wake hm
  have hf := h.follows t
  cases hc : w.current t with
  | none =>
    rw [Follows, hc, hasleep] at hf
    cases hf
  | some x =>
    rw [Follows, hc, hasleep] at hf
    obtain ⟨records, refusal, body, hplan, hp⟩ := hf
    constructor
    · refine .quiet rfl rfl rfl (and_congr_right' ?_)
      rw [Guard.State.stage_goTo_self, hasleep]
      exact Iff.rfl
    · refine follows_of_current hc hplan ?_
      rw [Guard.State.stage_goTo_self]
      exact hp

end

/-- **What a move can do.** -/
theorem Orderly.change (h : Orderly w) {move : Move S} (hs : w.next t move = some w') :
    w.Change t w' ∧ w'.Follows t := by
  cases move with
  | begin signal errand =>
    rw [next] at hs
    split at hs
    · rename_i receipt records hplan
      split at hs
      · rename_i hidle
        cases hs
        exact h.change_of_early (Guard.State.isIdle_iff.mp hidle) hplan
      · cases hs
    · rename_i records refusal body hplan
      obtain ⟨machine, hm, rfl⟩ := Option.map_eq_some_iff.mp hs
      exact h.change_of_begin hplan hm
  | raise signal | lower signal =>
    obtain ⟨machine, hm, rfl⟩ := Option.map_eq_some_iff.mp hs
    have hidle := Guard.State.stage_of_call hm
    simp only [Guard.State.call, hidle, Option.some.injEq] at hm
    subst hm
    exact h.change_of_goTo hidle rfl
  | advance =>
    obtain ⟨machine, hm, rfl⟩ := Option.map_eq_some_iff.mp hs
    cases hc : w.current t with
    | none => exact h.change_of_none hc hm
    | some x => exact h.change_of_current hc hm
  | wake =>
    obtain ⟨machine, hm, rfl⟩ := Option.map_eq_some_iff.mp hs
    exact h.change_of_wake hm

/-! ### The invariant is kept -/

section

omit [DecidableEq T] [DecidableEq S]

theorem Orderly.start (d : Device) : Orderly (start d : Traffic T S) where
  sound := .start _
  kept _ := rfl
  follows _ := rfl
  fits _ hv := by cases hv
  order := by
    refine .inr ⟨?_, rfl⟩
    rintro t ⟨hc, -⟩
    cases hc
  serial := rfl

theorem served_of_concat {v : Visit T S} (h : w'.visits = w.visits ++ [v])
    (hv : v.fate = .served) : w'.served = w.served ++ [v] := by
  simp [served, h, Visit.isServed, hv]

theorem served_of_concat_ne {v : Visit T S} (h : w'.visits = w.visits ++ [v])
    (hv : v.fate ≠ .served) : w'.served = w.served := by
  simp [served, h, Visit.isServed, hv]

theorem served_of_visits_eq (h : w'.visits = w.visits) : w'.served = w.served := by
  rw [served, h, served]

/-- Only one thread at a time is admitted and about its errand. -/
theorem Orderly.eq_of_serves (h : Orderly w) (ht : w.Serves t) (hu : w.Serves u) : t = u :=
  h.sound.held.unique (Guard.State.mem_held.mpr (.inl ht.2)) (Guard.State.mem_held.mpr (.inl hu.2))

theorem Orderly.not_serves (h : Orderly w) (hb : (w.machine.cells ()).busy = false) (u : T) :
    ¬ w.Serves u := by
  rintro ⟨-, hu⟩
  exact h.sound.not_mem_held hb u (Guard.State.mem_held.mpr (.inl hu))

theorem op_ne_none (h : w.Follows t) {asked : Guard.Ask Unit S Store (Effect Store Receipt)}
    (hs : w.machine.stage t = .inside asked) : asked.op ≠ none := by
  cases hc : w.current t with
  | none =>
    rw [Follows, hc, hs] at h
    cases h
  | some x =>
    rw [Follows, hc, hs] at h
    obtain ⟨records, refusal, body, -, rfl⟩ := h
    exact Option.some_ne_none _

end

theorem now_eq (hframe : w.Frame t w') (h : w'.store = w.store) : w'.now = w.now := by
  rw [now, h, hframe.device, now]

theorem Orderly.order_of_eq (h : Orderly w) (hframe : w.Frame t w')
    (hserved : w'.served = w.served) (hadmissions : w'.admissions = w.admissions)
    (ht : w'.Serves t ↔ w.Serves t) :
    (∃ u, w'.Serves u ∧ w'.admissions = w'.served.map Visit.thread ++ [u]) ∨
      (∀ u, ¬ w'.Serves u) ∧ w'.admissions = w'.served.map Visit.thread := by
  have hserves : ∀ u, w'.Serves u ↔ w.Serves u := by
    intro u
    by_cases hu : u = t
    · rw [hu]
      exact ht
    · exact hframe.serves hu
  simp only [hserves, hserved, hadmissions]
  exact h.order

theorem Orderly.order_of_change (h : Orderly w) (hframe : w.Frame t w') (hc : w.Change t w') :
    (∃ u, w'.Serves u ∧ w'.admissions = w'.served.map Visit.thread ++ [u]) ∨
      (∀ u, ¬ w'.Serves u) ∧ w'.admissions = w'.served.map Visit.thread := by
  cases hc with
  | quiet hv ha _ ht => exact h.order_of_eq hframe (served_of_visits_eq hv) ha ht
  | unserved v _ hfate _ _ hv ha _ ht =>
    exact h.order_of_eq hframe (served_of_concat_ne hv hfate) ha ht
  | admitted hb hv ha _ ht =>
    -- nobody was about an errand, and now the thread is
    rcases h.order with ⟨u, hu, -⟩ | ⟨-, horder⟩
    · exact absurd hu (h.not_serves hb u)
    · refine .inl ⟨t, ht, ?_⟩
      rw [ha, served_of_visits_eq hv, horder]
  | served v _ hfate hthread hv ha ht ht' _ =>
    -- the thread was about its errand, and now nobody is
    rcases h.order with ⟨u, hu, horder⟩ | ⟨hnone, -⟩
    · obtain rfl : t = u := h.eq_of_serves ht hu
      refine .inr ⟨?_, ?_⟩
      · intro u hu'
        by_cases hut : u = t
        · exact ht' (hut ▸ hu')
        · exact hut (h.eq_of_serves ((hframe.serves hut).mp hu') ht)
      · rw [ha, horder, served_of_concat hv hfate, List.map_append, List.map_singleton, hthread]
    · exact absurd ht (hnone t)

theorem Orderly.serial_of_change (h : Orderly w) (hframe : w.Frame t w') (hc : w.Change t w') :
    w'.device.inTurn (w'.served.map Visit.errand) = (w'.served.map Visit.receipt, w'.now) := by
  rw [hframe.device]
  cases hc with
  | quiet hv _ hs _ | admitted _ hv _ hs _ =>
    rw [served_of_visits_eq hv, now_eq hframe hs]
    exact h.serial
  | unserved v _ hfate _ _ hv _ hs _ =>
    rw [served_of_concat_ne hv hfate, now_eq hframe hs]
    exact h.serial
  | served v _ hfate _ hv _ _ _ hs =>
    rw [served_of_concat hv hfate, List.map_append, List.map_append, List.map_singleton,
      List.map_singleton, Device.inTurn_concat h.serial, hs]

theorem Orderly.kept_of_frame (h : Orderly w) (hframe : w.Frame t w') (u : T) :
    (w'.machine.threads u).kept = [] := by
  rcases hframe.machine with hm | hm
  · rw [hm]
    exact h.kept u
  · by_cases hu : u = t
    · subst hu
      exact hm.kept_eq_nil (h.kept u) fun asked => op_ne_none (h.follows u)
    · rw [(hm.stage_of_ne hu).1]
      exact h.kept u

/-- **Every move keeps the traffic orderly.** -/
theorem Orderly.next (h : Orderly w) {move : Move S} (hs : w.next t move = some w') :
    Orderly w' := by
  obtain ⟨hchange, hfollows⟩ := h.change hs
  have hframe := frame_of_next hs
  refine ⟨hframe.sound h.sound, h.kept_of_frame hframe, ?_, ?_, h.order_of_change hframe hchange,
    h.serial_of_change hframe hchange⟩
  · intro u
    by_cases hu : u = t
    · rw [hu]
      exact hfollows
    · exact hframe.follows hu (h.follows u)
  · intro v hv
    rw [hframe.fits]
    cases hchange with
    | quiet hvisits | admitted _ hvisits =>
      rw [hvisits] at hv
      exact h.fits v hv
    | unserved x hfits _ _ _ hvisits | served x hfits _ _ hvisits =>
      rw [hvisits, List.mem_append, List.mem_singleton] at hv
      rcases hv with hv | rfl
      · exact h.fits v hv
      · exact hfits

/-- **Traffic is orderly at all times.** -/
theorem Orderly.reaches (h : Orderly w) (hs : w.Reaches w') : Orderly w' := by
  induction hs with
  | refl => exact h
  | step _ hstep ih => exact ih.next hstep

end Traffic

end Spool
