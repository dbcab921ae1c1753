import Spool.Proofs.Exclusion
import Spool.Proofs.Pursuit

/-!
# One thread at a time

`Sound` says what the threads of a machine hold. This module says what it comes to for those
who call: a guard is taken just when one thread has it, whoever is let in finds the value free
and whoever works on a value has it (`State.held_alone`), a request that gives up has done
nothing (`State.Tells`), and all that has been done with a value was done in turn (`Serial`),
by one thread after another in the order in which they were admitted.

The history of a machine is kept for this. A step adds to it what has happened to the thread
that makes it, and nothing else (`State.Step.history`).
-/

namespace Spool.Guard

variable {T G S σ ρ : Type}

/-! ### Whose value it is -/

namespace Stage

/-- The guard whose value the thread is about to look at or to change. -/
def touches : Stage G S σ ρ → Option G
  | inside ask => some ask.guard
  | applying g _ | working g _ _ _ => some g
  | _ => none

theorem entered_or_uses_of_touches {stage : Stage G S σ ρ} {g : G} (h : stage.touches = some g) :
    stage.entered = some g ∨ stage.uses = some g := by
  unfold touches at h
  split at h
  · exact .inl h
  · exact .inr h
  · rename_i last
    cases last
    · exact .inr h
    · exact .inl h
  · cases h

end Stage

namespace Sound

variable {s : State T G S σ ρ} {t : T} {g : G}

theorem held_of_opened (h : g ∈ (s.threads t).opened) : g ∈ (s.threads t).held :=
  State.mem_held.mpr ((State.mem_opened.mp h).imp_left Stage.taken_of_entered)

theorem user_of_touches (h : Sound s) (ht : (s.stage t).touches = some g) :
    (s.cells g).user = some t :=
  (h.opened t g).mp
    (State.mem_opened.mpr ((Stage.entered_or_uses_of_touches ht).imp_right (h.uses t g)))

/-- Who is about to take a value finds it free: whoever has it holds the guard, and that is
this thread, which does not have it yet. -/
theorem user_of_opening (h : Sound s) {ask : Ask G S σ ρ} (ht : s.stage t = .opening ask) :
    (s.cells ask.guard).user = none := by
  have htaken : (s.stage t).taken = some ask.guard := by rw [ht]; rfl
  by_contra hne
  obtain ⟨u, hu⟩ := Option.ne_none_iff_exists'.mp hne
  have hopened : ask.guard ∈ (s.threads u).opened := (h.opened u ask.guard).mpr hu
  obtain rfl : t = u := h.held.unique (State.mem_held.mpr (.inl htaken)) (held_of_opened hopened)
  rcases State.mem_opened.mp hopened with hentered | hkept
  · rw [ht] at hentered
    cases hentered
  · exact State.not_mem_kept_of_taken (h.nodup t) htaken hkept

variable [DecidableEq T] [DecidableEq G] [DecidableEq S]

theorem advance_of_opening (h : Sound s) {ask : Ask G S σ ρ} (ht : s.stage t = .opening ask) :
    (s.advance t).isSome = true := by
  simp only [State.advance, ht, h.user_of_opening ht]
  rfl

theorem advance_of_touches (h : Sound s) (ht : (s.stage t).touches = some g) :
    (s.advance t).isSome = true := by
  have huser := h.user_of_touches ht
  cases hs : s.stage t
  all_goals
    rw [hs] at ht
    simp only [State.advance, hs]
  case inside ask => cases ask.op <;> rfl
  case applying k op =>
    cases ht
    rw [if_pos huser]
    rfl
  case working => rfl
  all_goals cases ht

end Sound

/-! ### What a step adds to the history -/

/-- The thread to which it happened. -/
def Event.thread : Event T G σ ρ → T
  | admitted t _ | refused t _ _ | used t _ _ _ => t

/-- A move that starts a call. -/
def Move.isCall : Move G S σ ρ → Bool
  | call _ => true
  | _ => false

namespace State

variable [DecidableEq T] [DecidableEq G] [DecidableEq S] {s s' : State T G S σ ρ} {t u : T}
  {ask : Ask G S σ ρ}

theorem Step.history (h : s.Step t s') :
    s'.history = s.history ∨ ∃ e, e.thread = t ∧ s'.history = s.history ++ [e] := by
  cases h with
  | refuse ask sig before => exact .inr ⟨.refused t ask.guard before, rfl, rfl⟩
  | mark ask => exact .inr ⟨.admitted t ask.guard, rfl, rfl⟩
  | apply g op seen last => exact .inr ⟨.used t g op (op seen).1, rfl, rfl⟩
  | _ => exact .inl rfl

theorem Step.thread_of_mem (h : s.Step t s') {more : List (Event T G σ ρ)}
    (hmore : s'.history = s.history ++ more) : ∀ e ∈ more, e.thread = t := by
  rcases h.history with hh | ⟨e, hthread, hh⟩
  · obtain rfl : more = [] := by simpa using hmore.symm.trans hh
    simp
  · obtain rfl : more = [e] := List.append_cancel_left (hmore.symm.trans hh)
    simpa using hthread

/-- A step of a thread that is about nothing takes no guard to keep and gives none away. -/
theorem kept_of_isAimless (ha : (s.stage t).isAimless = true) (h : s.advance t = some s') :
    (s'.threads t).kept = (s.threads t).kept := by
  cases step_of_advance h with
  | keep ask hs =>
    rw [hs] at ha
    cases ha
  | use g op hs | drop g hs =>
    simp only [advance, hs] at h
    cases h
  | unlock => exact kept_unlock_self _ _ _ _
  | unlockList => exact kept_unlockList_self _ _ _ _ _
  | apply => exact kept_apply_self _ _ _ _ _ _
  | goTo | lock | lockList | flag | notify | refuse | mark | enter | close | clear =>
    exact kept_goTo_self _ _ _

/-! ### What becomes of a call -/

/-- How a call of the thread `t` that asks for a guard has ended, told from what it has left in
the history. -/
inductive Ended (s : State T G S σ ρ) (t : T) (ask : Ask G S σ ρ) :
    List (Event T G σ ρ) → Prop where
  /-- It was interrupted, and that is all. -/
  | interrupted (sig : S) (before : Bool) : ask.signal = some sig →
      Ended s t ask [.refused t ask.guard before]
  /-- It was admitted and has done what it came for, once. -/
  | served (op : σ → ρ × σ) (seen : σ) : ask.op = some op →
      Ended s t ask [.admitted t ask.guard, .used t ask.guard op (op seen).1]
  /-- It was admitted, and the thread keeps the guard. -/
  | kept : ask.op = none → ask.guard ∈ (s.threads t).kept → Ended s t ask [.admitted t ask.guard]

/-- What a call of the thread `t` that asks for a guard has left in the history so far. -/
inductive Tells (s : State T G S σ ρ) (t : T) (ask : Ask G S σ ρ) :
    List (Event T G σ ρ) → Prop where
  /-- Nothing: it waits. -/
  | waiting : (s.stage t).Pursues ask → (s.stage t).taken = none → Tells s t ask []
  /-- It was admitted. -/
  | admitted : (s.stage t).Pursues ask → (s.stage t).taken = some ask.guard →
      Tells s t ask [.admitted t ask.guard]
  /-- It is over, except for what the thread has to give back. -/
  | past {events : List (Event T G σ ρ)} : (s.stage t).isAimless = true → s.Ended t ask events →
      Tells s t ask events

variable {events : List (Event T G σ ρ)}

section

omit [DecidableEq T] [DecidableEq G] [DecidableEq S]

theorem Ended.congr (h : s.Ended t ask events)
    (hkept : (s'.threads t).kept = (s.threads t).kept) : s'.Ended t ask events := by
  cases h with
  | interrupted sig before hsig => exact .interrupted sig before hsig
  | served op seen hop => exact .served op seen hop
  | kept hop hmem => exact .kept hop (hkept ▸ hmem)

theorem Tells.ended (h : s.Tells t ask events) (hidle : s.stage t = .idle) :
    s.Ended t ask events := by
  cases h with
  | waiting hp | admitted hp =>
    rw [hidle] at hp
    cases hp
  | past _ hended => exact hended

end

/-- The call goes on with a step of its thread, and adds to the history what it tells of. -/
theorem Tells.advance (h : s.Tells t ask events) (hs : s.advance t = some s') :
    ∃ more, s'.history = s.history ++ more ∧ s'.Tells t ask (events ++ more) := by
  cases h with
  | waiting hp ht =>
    cases progress_of_advance hp hs with
    | quiet hp' ht' _ hh => exact ⟨[], by simp [hh], .waiting hp' (ht'.trans ht)⟩
    | admitted hp' ht' _ hh => exact ⟨_, hh, .admitted hp' ht'⟩
    | refused sig before ha hsig _ _ hh => exact ⟨_, hh, .past ha (.interrupted sig before hsig)⟩
    | used _ _ _ _ ht' | kept _ _ ht' =>
      rw [ht] at ht'
      cases ht'
  | admitted hp ht =>
    cases progress_of_advance hp hs with
    | quiet hp' ht' _ hh => exact ⟨[], by simp [hh], .admitted hp' (ht'.trans ht)⟩
    | used op seen hop ha _ _ _ hh => exact ⟨_, hh, .past ha (.served op seen hop)⟩
    | kept hop ha _ hmem hh => exact ⟨[], by simp [hh], .past ha (.kept hop hmem)⟩
    | admitted _ _ hk | refused _ _ _ _ _ hk =>
      -- who looks at the flag has not taken the guard yet
      rw [Stage.taken_of_knows hk] at ht
      cases ht
  | past ha hended =>
    obtain ⟨ha', hh⟩ := history_of_isAimless ha hs
    exact ⟨[], by simp [hh], by simpa using .past ha' (hended.congr (kept_of_isAimless ha hs))⟩

/-- The call goes on as it was with the steps of other threads. -/
theorem Tells.of_ne (h : s.Tells t ask events) (hs : s.Step u s') (hu : t ≠ u) :
    s'.Tells t ask events := by
  obtain ⟨hkept, hstage⟩ := hs.stage_of_ne hu
  have htaken : (s'.stage t).taken = (s.stage t).taken :=
    congrArg Profile.taken (hs.rests hu).profile
  have hpursues : (s.stage t).Pursues ask → (s'.stage t).Pursues ask := by
    rcases hstage with hstage | ⟨g, hstage⟩ <;> simp [hstage]
  cases h with
  | waiting hp ht => exact .waiting (hpursues hp) (htaken.trans ht)
  | admitted hp ht => exact .admitted (hpursues hp) (htaken.trans ht)
  | past ha hended =>
    refine .past ?_ (hended.congr hkept)
    rcases hstage with hstage | ⟨g, hstage⟩ <;> simp [hstage, ha]

/-- **A move keeps with the call**, if it does not start another one of the same thread. -/
theorem Tells.next {move : Move G S σ ρ} (h : s.Tells t ask events)
    (hs : s.next u move = some s') (hcall : u = t → move.isCall = false) :
    ∃ more, s'.history = s.history ++ more ∧
      s'.Tells t ask (events ++ more.filter fun e => e.thread = t) := by
  by_cases hu : u = t
  · subst hu
    cases move with
    | call c => cases hcall rfl
    | advance =>
      obtain ⟨more, hmore, htells⟩ := h.advance hs
      have hown : (more.filter fun e => e.thread = u) = more :=
        List.filter_eq_self.mpr fun e he =>
          decide_eq_true ((step_of_advance hs).thread_of_mem hmore e he)
      exact ⟨more, hmore, by rwa [hown]⟩
    | wake =>
      obtain ⟨a, registered, hasleep, rfl⟩ := stage_of_wake hs
      refine ⟨[], by simp [goTo], ?_⟩
      cases h with
      | waiting hp ht =>
        rw [hasleep] at hp
        exact .waiting (by rw [stage_goTo_self]; exact hp) (by rw [stage_goTo_self]; rfl)
      | admitted _ ht =>
        rw [hasleep] at ht
        cases ht
      | past ha =>
        rw [hasleep] at ha
        cases ha
  · have hstep := step_of_next hs
    have htells := h.of_ne hstep (Ne.symm hu)
    rcases hstep.history with hh | ⟨e, hthread, hh⟩
    · exact ⟨[], by simp [hh], by simpa using htells⟩
    · exact ⟨[e], hh, by simpa [hthread, hu] using htells⟩

theorem Tells.run {moves : List (T × Move G S σ ρ)} (h : s.Tells t ask events)
    (hs : s.run moves = some s') (hcall : ∀ m ∈ moves, m.1 = t → m.2.isCall = false) :
    ∃ more, s'.history = s.history ++ more ∧
      s'.Tells t ask (events ++ more.filter fun e => e.thread = t) := by
  induction moves generalizing s events with
  | nil =>
    cases hs
    exact ⟨[], by simp, by simpa using h⟩
  | cons m rest ih =>
    obtain ⟨v, hv, hs⟩ := Option.bind_eq_some_iff.mp hs
    obtain ⟨first, hfirst, htells⟩ := h.next hv (hcall m List.mem_cons_self)
    obtain ⟨more, hmore, htells'⟩ := ih htells hs fun x hx => hcall x (List.mem_cons_of_mem m hx)
    refine ⟨first ++ more, by rw [hmore, hfirst, List.append_assoc], ?_⟩
    rwa [List.filter_append, ← List.append_assoc]

/-- **What a call has left in the history when it is over.** -/
theorem ended_of_run {moves : List (T × Move G S σ ρ)} {v : State T G S σ ρ}
    (hcall : s.call t (.acquire ask) = some v) (hs : v.run moves = some s')
    (hmoves : ∀ m ∈ moves, m.1 = t → m.2.isCall = false) (hidle : s'.stage t = .idle) :
    ∃ more, s'.history = s.history ++ more ∧
      s'.Ended t ask (more.filter fun e => e.thread = t) := by
  have hstart := stage_of_call hcall
  simp only [State.call, hstart, Option.some.injEq] at hcall
  subst hcall
  have htells : (s.goTo t (.entering ask)).Tells t ask [] :=
    .waiting (by rw [stage_goTo_self]; exact rfl) (by rw [stage_goTo_self]; rfl)
  obtain ⟨more, hmore, htells'⟩ := htells.run hs hmoves
  exact ⟨more, hmore, htells'.ended hidle⟩

end State

/-! ### Uses in turn -/

/-- The event is an admission to the guard `g` or a use of its value. -/
def Event.concerns [DecidableEq G] (g : G) : Event T G σ ρ → Bool
  | admitted _ k | used _ k _ _ => k = g
  | refused .. => false

/-- What was done with a value, if the event is a use of one. -/
def Event.change : Event T G σ ρ → Option (σ → ρ × σ)
  | used _ _ op _ => some op
  | _ => none

/-- A value that was `init` at first has been used in turn: every thread that was admitted had
it for itself until the next one was. Beside the events this says who was admitted last and
what the value has become. -/
inductive Serial (g : G) (init : σ) : List (Event T G σ ρ) → Option T → σ → Prop where
  /-- Nobody was admitted yet. -/
  | nil : Serial g init [] none init
  /-- The next thread is admitted. -/
  | admitted {events : List (Event T G σ ρ)} {last : Option T} {v : σ} (t : T) :
      Serial g init events last v → Serial g init (events ++ [.admitted t g]) (some t) v
  /-- The thread that was admitted last uses the value as it is. -/
  | use {events : List (Event T G σ ρ)} {t : T} {v : σ} (op : σ → ρ × σ) :
      Serial g init events (some t) v →
      Serial g init (events ++ [.used t g op (op v).1]) (some t) (op v).2

theorem Serial.value_eq {g : G} {init : σ} {events : List (Event T G σ ρ)} {last : Option T}
    {v : σ} (h : Serial g init events last v) :
    v = (events.filterMap Event.change).foldl (fun v op => (op v).2) init := by
  induction h with
  | nil => rfl
  | admitted t _ ih | use op _ ih =>
    rw [List.filterMap_append, List.foldl_append, ← ih]
    rfl

/-- The value of `g` was used in turn, and who holds the guard was admitted last. -/
def State.InTurn [DecidableEq G] (s : State T G S σ ρ) (g : G) (init : σ) : Prop :=
  ∃ last, Serial g init (s.history.filter (Event.concerns g)) last (s.cells g).value ∧
    ∀ t, g ∈ (s.threads t).held → last = some t

namespace State

variable [DecidableEq T] [DecidableEq G] [DecidableEq S] {s s' : State T G S σ ρ} {t : T} {g : G}
  {init : σ}

theorem Step.held_before (h : s.Step t s') (hsound : Sound s) {u : T}
    (hbusy : (s'.cells g).busy = true → (s.cells g).busy = true)
    (hu : g ∈ (s'.threads u).held) : g ∈ (s.threads u).held := by
  by_cases hut : u = t
  · subst hut
    cases h.turn_held (hsound.nodup u) (hsound.knows u) with
    | same _ hheld => exact (hheld g).mp hu
    | take k hfree hset _ hheld =>
      refine ((hheld g).mp hu).resolve_right ?_
      rintro rfl
      exact Bool.noConfusion (hfree.symm.trans (hbusy hset))
    | give k _ _ _ hheld => exact ((hheld g).mp hu).1
  · rwa [Sound.held_eq_of_rests (h.rests hut)] at hu

theorem InTurn.congr (h : s.InTurn g init) (hsound : Sound s) (hstep : s.Step t s')
    (hbusy : (s'.cells g).busy = true → (s.cells g).busy = true)
    (hvalue : (s'.cells g).value = (s.cells g).value)
    (hhistory : s'.history.filter (Event.concerns g) = s.history.filter (Event.concerns g)) :
    s'.InTurn g init := by
  obtain ⟨last, hserial, hlast⟩ := h
  refine ⟨last, ?_, fun u hu => hlast u (hstep.held_before hsound hbusy hu)⟩
  rw [hhistory, hvalue]
  exact hserial

/-- Who is admitted has the guard to itself from then on. -/
theorem InTurn.mark {ask : Ask G S σ ρ} (h : s.InTurn g init) (hsound : Sound s)
    (hs : s.stage t = .marking ask) :
    (((s.setCell ask.guard { s.cells ask.guard with busy := true }).note
      (.admitted t ask.guard)).goTo t (.unlocking ask)).InTurn g init := by
  have hstep := Step.mark ask hs
  have hvalue := hstep.value_eq (g := g) fun v hv => by rw [hs] at hv; cases hv
  by_cases hg : g = ask.guard
  · obtain ⟨last, hserial, -⟩ := h
    refine ⟨some t, ?_, fun u hu => ?_⟩
    · rw [hvalue]
      simpa [goTo, note, setCell, Event.concerns, hg] using hserial.admitted t
    · refine congrArg some ((hsound.step hstep).held.unique (mem_held.mpr (.inl ?_)) hu)
      rw [stage_goTo_self, hg]
      rfl
  · have hmutex : (s.stage t).mutex ≠ some g := by
      rw [hs]
      exact fun e => hg (Option.some.inj e).symm
    refine h.congr hsound hstep (fun hbusy => (hstep.busy_eq hmutex).symm.trans hbusy) hvalue ?_
    simp [goTo, note, setCell, Event.concerns, Ne.symm hg]

/-- Who uses a value has it, so that it was admitted last. -/
theorem InTurn.apply {k : G} {op : σ → ρ × σ} {seen : σ} {last : Bool} (h : s.InTurn g init)
    (hsound : Sound s) (hs : s.stage t = .working k op seen last) :
    (s.apply t k op seen (if last then .closing k else .idle)).InTurn g init := by
  have hstep := Step.apply k op seen last hs
  have hbusy : ((s.apply t k op seen (if last then .closing k else .idle)).cells g).busy =
      (s.cells g).busy := field_assign Cell.busy (by rfl) g
  by_cases hg : g = k
  · subst hg
    obtain ⟨before, hserial, hbefore⟩ := h
    have hseen : (s.stage t).seen = some (g, seen) := by rw [hs]; rfl
    obtain rfl := hsound.seen t g seen hseen
    obtain rfl := hbefore t (Sound.held_of_opened (hsound.opened_of_seen hseen))
    refine ⟨some t, ?_, fun u hu => hbefore u (hstep.held_before hsound (hbusy ▸ id) hu)⟩
    simpa [State.apply, goTo, note, setCell, Event.concerns] using hserial.use op
  · refine h.congr hsound hstep (hbusy ▸ id) (hstep.value_eq fun v hv => ?_) ?_
    · rw [hs] at hv
      exact hg (congrArg Prod.fst (Option.some.inj hv)).symm
    · simp [State.apply, goTo, note, setCell, Event.concerns, Ne.symm hg]

/-- **Every step keeps the turn.** -/
theorem InTurn.step (h : s.InTurn g init) (hsound : Sound s) (hstep : s.Step t s') :
    s'.InTurn g init := by
  cases id hstep with
  | mark ask hs => exact h.mark hsound hs
  | apply k op seen last hs => exact h.apply hsound hs
  | refuse ask sig before hs =>
    exact h.congr hsound hstep id rfl (by simp [goTo, note, Event.concerns])
  | clear k hs =>
    refine h.congr hsound hstep (fun hbusy => ?_) (field_assign Cell.value (by rfl) g) rfl
    by_cases hg : g = k
    · simp [goTo, setCell, hg] at hbusy
    · simpa [goTo, setCell, hg] using hbusy
  | lock | unlock | enter | close =>
    refine h.congr hsound hstep (fun hbusy => ?_) (field_assign Cell.value (by rfl) g) rfl
    exact (field_assign Cell.busy (by rfl) g).symm.trans hbusy
  | goTo | lockList | unlockList | flag | notify | keep | use | drop =>
    exact h.congr hsound hstep id rfl rfl

/-- **All values are used in turn at all times.** -/
theorem inTurn_of_reaches {init : G → σ} (h : (start init).Reaches s) (g : G) :
    s.InTurn g (init g) := by
  induction h with
  | refl => exact ⟨none, .nil, fun t ht => by simp [start, Thread.held, Stage.taken] at ht⟩
  | step hrun hstep ih =>
    exact ih.step ((Sound.start init).reaches hrun) (step_of_next hstep)

/-! ### What it comes to -/

/-- **One thread at a time has a guard**, whatever the threads do and in whatever order:

- a guard is taken just when exactly one thread holds it, and no thread holds it twice;
- a thread that is about to take a value finds it free, and goes on;
- a thread that is about to touch a value has it, and goes on; so does one that keeps a guard;
- a call that asks for a guard has, when it is over, either been interrupted and done nothing,
  or done what it came for once, after it was admitted, or kept the guard;
- a value is what has come of all uses, one after another: each is by the thread that was
  admitted last, and who holds the guard was admitted last. -/
theorem held_alone (init : G → σ) {s : State T G S σ ρ} (h : (start init).Reaches s) :
    (∀ g, (s.cells g).busy = true ↔ ∃! t, g ∈ (s.threads t).held) ∧
    (∀ t u g, g ∈ (s.threads t).held → g ∈ (s.threads u).held → t = u) ∧
    (∀ t, (s.threads t).held.Nodup) ∧
    (∀ t ask, s.stage t = .opening ask →
      (s.cells ask.guard).user = none ∧ (s.advance t).isSome = true) ∧
    (∀ t g, (s.stage t).touches = some g →
      (s.cells g).user = some t ∧ (s.advance t).isSome = true) ∧
    (∀ t g, g ∈ (s.threads t).kept → (s.cells g).user = some t) ∧
    (∀ t ask moves v w, s.call t (.acquire ask) = some v → v.run moves = some w →
      (∀ m ∈ moves, m.1 = t → m.2.isCall = false) → w.stage t = .idle →
        ∃ more, w.history = s.history ++ more ∧
          w.Ended t ask (more.filter fun e => e.thread = t)) ∧
    ∀ g, let events := s.history.filter (Event.concerns g)
      (∃ last, Serial g (init g) events last (s.cells g).value ∧
        ∀ t, g ∈ (s.threads t).held → last = some t) ∧
      (s.cells g).value =
        (events.filterMap Event.change).foldl (fun v op => (op v).2) (init g) := by
  have hsound : Sound s := (Sound.start init).reaches h
  refine ⟨fun g => ?_, fun t u g => hsound.held.unique, hsound.nodup, ?_, ?_, ?_, ?_, ?_⟩
  · rw [hsound.held.eq_true_iff g]
    constructor
    · rintro ⟨t, ht⟩
      exact ⟨t, ht, fun u hu => hsound.held.unique hu ht⟩
    · rintro ⟨t, ht, -⟩
      exact ⟨t, ht⟩
  · intro t ask ht
    exact ⟨hsound.user_of_opening ht, hsound.advance_of_opening ht⟩
  · intro t g ht
    exact ⟨hsound.user_of_touches ht, hsound.advance_of_touches ht⟩
  · intro t g hkept
    exact (hsound.opened t g).mp (mem_opened.mpr (.inr hkept))
  · intro t ask moves v w hcall hrun hmoves hidle
    exact ended_of_run hcall hrun hmoves hidle
  · intro g
    obtain ⟨last, hserial, hlast⟩ := inTurn_of_reaches h g
    exact ⟨⟨last, hserial, hlast⟩, hserial.value_eq⟩

/-- A thread keeps a guard. Another, whose signal is raised, asks for it and is interrupted
while the first uses the value. -/
theorem held_alone_of_two_threads :
    let ask : Ask Unit Unit Nat Nat := ⟨(), some (), some fun n => (n, n + 1)⟩
    let add : Nat → Nat × Nat := fun n => (n, n + 2)
    ∃ s v w : State Bool Unit Unit Nat Nat, (start fun _ => 0).Reaches s ∧
      s.call false (.acquire ask) = some v ∧ v.Reaches w ∧ w.stage false = .idle ∧
      w.history = [.admitted true (), .used true () add 0, .refused false () true] ∧
      w.Ended false ask [.refused false () true] ∧
      (∃! t, () ∈ (w.threads t).held) ∧ (w.cells ()).value = (add 0).2 := by
  intro ask add
  let holds : List (Bool × Move Unit Unit Nat Nat) :=
    (true, .call (.acquire ⟨(), none, none⟩)) :: List.replicate 6 (true, .advance)
  let raises : List (Bool × Move Unit Unit Nat Nat) :=
    (false, .call (.raise ())) :: List.replicate 4 (false, .advance)
  let uses : List (Bool × Move Unit Unit Nat Nat) :=
    [(true, .call (.use () add)), (true, .advance), (true, .advance)]
  let waits : List (Bool × Move Unit Unit Nat Nat) := List.replicate 10 (false, .advance)
  have hrun : (((start fun _ => 0).run (holds ++ raises)).bind fun s =>
      (s.call false (.acquire ask)).bind fun v =>
        (v.run (uses ++ waits)).map fun w =>
          (s.history, w.history, w.stage false, (w.cells ()).busy)) =
      some ([.admitted true ()], [.admitted true (), .used true () add 0, .refused false () true],
        .idle, true) := rfl
  obtain ⟨s, hs, hrun⟩ := Option.bind_eq_some_iff.mp hrun
  obtain ⟨v, hv, hrun⟩ := Option.bind_eq_some_iff.mp hrun
  obtain ⟨w, hw, hseen⟩ := Option.map_eq_some_iff.mp hrun
  obtain ⟨hbefore, hafter, hidle, hbusy⟩ : s.history = [.admitted true ()] ∧
      w.history = [.admitted true (), .used true () add 0, .refused false () true] ∧
        w.stage false = .idle ∧ (w.cells ()).busy = true := by
    simpa using hseen
  have h : (start fun _ => 0).Reaches s := reaches_of_run hs
  have hnext : s.next false (.call (.acquire ask)) = some v := hv
  have hvw : v.Reaches w := reaches_of_run hw
  have hmoves : ∀ m ∈ uses ++ waits, m.1 = false → m.2.isCall = false := by
    simp [uses, waits, Move.isCall]
  obtain ⟨-, -, -, -, -, -, hcalls, -⟩ := held_alone (fun _ => 0) h
  obtain ⟨hheld, -, -, -, -, -, -, hserial⟩ :=
    held_alone (fun _ => 0) ((Reaches.step h hnext).trans hvw)
  obtain ⟨more, hmore, hended⟩ := hcalls false ask _ v w hv hw hmoves hidle
  refine ⟨s, v, w, h, hv, hvw, hidle, hafter, ?_, (hheld ()).mp hbusy, ?_⟩
  · rw [hbefore, hafter] at hmore
    obtain rfl := List.cons.inj hmore |>.2
    exact hended
  · rw [(hserial ()).2, hafter]
    rfl

end State

end Spool.Guard
