import Spool.Proofs.Writing
import Spool.Session

/-!
# What any run of calls leaves

Of all the calls on a spool only writes change what it stores: the others leave the device
as it is, or count its files (`Session.serve_spec`). So a run is known by the bytes that its
writes reported taken, in order (`Session.taken`), whatever else happened in it and whatever
failed: the store is the one that has absorbed them (`Session.store_of_runs`), and what it
answers to a caller can be read off them.

A run is made of single calls (`Request.isSingle`). A submission, which is a loop of
writes, counts as the writes it makes.
-/

namespace Spool

/-! ### Calls that store nothing -/

namespace Device

@[simp] theorem state_inspect {α : Type} (d : Device) (look : Store → α) (admission : Admission) :
    (d.perform (inspectPlan look) admission).state = d := by
  cases admission <;> rfl

@[simp] theorem state_read (d : Device) (position : Nat) (sink : Sink) (count : Nat)
    (admission : Admission) : (d.read position sink count admission).state = d := by
  unfold read perform readPlan
  split
  · rfl
  · cases admission with
    | refused b => rfl
    | granted =>
      simp only [Plan.run]
      split
      · rfl
      · split <;> rfl

end Device

namespace File

variable {f : File} {d : Device} {admission : Admission}

@[simp] theorem state_read (f : File) (d : Device) (buffer : Bytes) (admission : Admission) :
    (f.read d buffer admission).state.2 = d :=
  d.state_read _ _ _ _

@[simp] theorem state_settle (f : File) (d : Device) (target : Option Nat)
    (records : Nat → List Record) : (f.settle d target records).state.2 = d := by
  cases target <;> rfl

@[simp] theorem state_seek (f : File) (d : Device) (target : Target) (admission : Admission) :
    (f.seek d target admission).state.2 = d := by
  unfold seek
  cases target with
  | start offset => rfl
  | current delta => exact f.state_settle d _ _
  | fromEnd delta =>
    simp only []
    split
    · exact d.state_inspect _ _
    · rw [state_settle]
      exact d.state_inspect _ _

@[simp] theorem state_seekToCommand (f : File) (d : Device) (index within : Nat)
    (admission : Admission) : (f.seekToCommand d index within admission).state.2 = d := by
  unfold seekToCommand
  simp only []
  split
  · exact d.state_inspect _ _
  · exact d.state_inspect _ _
  · rw [state_settle]
    exact d.state_inspect _ _

@[simp] theorem state_readExactly (f : File) (d : Device) (buffer : Bytes) (admission : Admission) :
    (f.readExactly d buffer admission).state.2 = d := by
  fun_induction readExactly f d buffer admission with
  | case1 => rfl
  | case2 => exact state_read _ _ _ _
  | case3 =>
    rename_i ih
    exact ih.trans (state_read _ _ _ _)
  | case4 => exact state_read _ _ _ _

@[simp] theorem state_drain (f : File) (d : Device) (size : Nat) (admission : Admission) :
    (f.drain d size admission).state.2 = d := by
  unfold drain
  generalize Stream.size d.store.live + 1 = reads
  fun_induction drainWithin reads f d size admission with
  | case1 => rfl
  | case2 => exact state_read _ _ _ _
  | case3 => exact state_read _ _ _ _
  | case4 =>
    rename_i ih
    exact ih.trans (state_read _ _ _ _)

end File

/-! ### Single calls -/

/-- Whether a request is one call. A submission makes several. -/
def Request.isSingle : Request → Bool
  | .onFile _ (.writeAll ..) => false
  | _ => true

/-- The number that an answer gives. A failure gives none, which counts as nothing. -/
def Answer.count : Answer → Nat
  | number n => n.toNat
  | _ => 0

/-- The bytes that a request has had taken: if it was a write that answered `n`, the first
`n` of those it was given. -/
def Session.taken : Request × Outcome → Bytes
  | (.write source _, .reply r) => source.contents.take r.answer.count
  | (.onFile _ (.write bytes _), .reply r) => bytes.take r.answer.count
  | _ => []

theorem Device.state_write (d : Device) (source : Source) (q : Quota) (admission : Admission) :
    (d.write source q admission).state =
      d.absorb (source.contents.take
        (Answer.ofResult (.number ·) (d.write source q admission).answer.result).count) := by
  obtain ⟨n, -, hres, hstate⟩ | ⟨⟨f, hres⟩, hstate⟩ := d.write_spec source q admission
  · rw [hstate, hres]
    rfl
  · rw [hstate, hres]
    rfl

namespace Session

variable {s s' : Session} {busy : Bool} {admission : Admission} {caller : Caller}
  {request : Request} {outcome : Outcome}

@[simp] theorem device_setSignal (s : Session) (signal : Signal) (owner : Owner) :
    (s.setSignal signal owner).device = s.device := by
  cases owner <;> rfl

/-- A call on a file leaves the device that has absorbed what was taken. -/
theorem device_callFile (s : Session) (admission : Admission) (index : Nat) (file : File)
    {call : FileCall} (hs : (Request.onFile index call).isSingle = true) :
    let e := s.callFile admission index file call
    e.2.device = s.device.absorb (taken (.onFile index call, .reply e.1)) := by
  cases call with
  | write bytes q => exact s.device.state_write (.memory bytes) q admission
  | writeAll bytes q => cases hs
  | read size => exact File.state_read _ _ _ _
  | seek target => exact File.state_seek _ _ _ _
  | seekToCommand i within => exact File.state_seekToCommand _ _ _ _ _
  | tell => rfl
  | handle => rfl
  | describe => rfl
  | readExactly size => exact File.state_readExactly _ _ _ _
  | flush => rfl
  | rewind => exact File.state_seek _ _ _ _
  | position => exact File.state_seek _ _ _ _
  | drain size => exact File.state_drain _ _ _ _

theorem spec_of_device_eq_absorb {bytes : Bytes} (h : s'.device = s.device.absorb bytes) :
    s'.device.config = s.device.config ∧ s'.device.store = s.device.store.absorb bytes := by
  rw [h]
  exact ⟨rfl, rfl⟩

/-- **One call**, whoever makes it and however its request for the guard ends: the device
absorbs what the call has had taken. Only the numbers of its files can change besides. -/
theorem serve_spec (hs : request.isSingle = true)
    (h : s.serve busy admission caller request = some (outcome, s')) :
    s'.device.config = s.device.config ∧
      s'.device.store = s.device.store.absorb (taken (request, outcome)) := by
  cases request with
  | write source q =>
    cases h
    refine spec_of_device_eq_absorb ?_
    exact s.device.state_write source q admission
  | read position count sink =>
    cases h
    refine spec_of_device_eq_absorb ?_
    exact s.device.state_read position sink count admission
  | logicalLength | pendingLength | liveCommands | commandOffset =>
    cases h
    refine spec_of_device_eq_absorb ?_
    exact s.device.state_inspect _ admission
  | config | describe | isRaised | describeSignal | openFile =>
    cases h
    exact ⟨rfl, rfl⟩
  | raise | lower =>
    cases h
    rw [device_setSignal]
    exact ⟨rfl, rfl⟩
  | release file =>
    obtain ⟨f, -, hf⟩ := Option.map_eq_some_iff.mp h
    cases hf
    exact ⟨rfl, rfl⟩
  | onFile file call =>
    obtain ⟨f, -, hf⟩ := Option.map_eq_some_iff.mp h
    cases hf
    refine spec_of_device_eq_absorb ?_
    exact s.device_callFile admission file f hs
  | heldRead | meaningless => cases h

/-! ### Runs of calls -/

/-- The session `s` comes by single calls to another, and `trace` are the calls with what
came of them. Each is made by any caller, finds the guard taken or not, and is admitted or
turned away. -/
inductive Runs (s : Session) : List (Request × Outcome) → Session → Prop where
  /-- No call yet. -/
  | refl : Runs s [] s
  /-- One more call. -/
  | serve {u v : Session} {trace : List (Request × Outcome)} {request : Request}
      {outcome : Outcome} (busy : Bool) (admission : Admission) (caller : Caller) :
      Runs s trace u → request.isSingle = true →
      u.serve busy admission caller request = some (outcome, v) →
      Runs s (trace ++ [(request, outcome)]) v

theorem Runs.write {u : Session} {trace : List (Request × Outcome)} (h : s.Runs trace u)
    {source : Source} {q : Quota} {n : Nat}
    (hw : (u.device.write source q .granted).answer.result = .ok n) :
    s.Runs (trace ++ [(.write source q, .reply (.bare (.number n)))])
      (u.after (u.device.write source q .granted)) := by
  refine .serve false .granted default h rfl ?_
  show some (Outcome.reply (.bare (.ofResult (.number ·) _)), _) = _
  rw [hw]
  rfl

/-- **A run is known by what its writes had taken**: the store has absorbed these bytes, one
after another, and nothing else. -/
theorem store_of_runs {trace : List (Request × Outcome)} (h : s.Runs trace s') :
    s'.device.config = s.device.config ∧
      s'.device.store = s.device.store.absorb (trace.flatMap taken) := by
  induction h with
  | refl => exact ⟨rfl, rfl⟩
  | serve _ _ _ _ hs hstep ih =>
    obtain ⟨hconfig, hstore⟩ := serve_spec hs hstep
    refine ⟨hconfig.trans ih.1, ?_⟩
    rw [hstore, ih.2, List.flatMap_append, Store.absorb_append, List.flatMap_singleton]

theorem device_of_create {config : Config} (h : create config = .ok s) :
    ∃ hv : config.Valid, s.device = .start config hv := by
  unfold create Device.create at h
  split at h
  · rename_i d hd
    split at hd
    · rename_i hv
      cases hd
      cases h
      exact ⟨hv, rfl⟩
    · cases hd
  · cases h

end Session

/-! ### What is seen after a run -/

namespace Store

variable {config : Config} {hv : config.Valid}

/-- A new store that has absorbed bytes retains the last of their finished segments. -/
theorem live_absorb_start (config : Config) (hv : config.Valid) (bytes : Bytes) :
    ((start config hv).absorb bytes).live.map Command.bytes =
      (finished config.delimiter bytes).rtake config.capacity := by
  have hcap : (start config hv).capacity = config.capacity := Ring.capacity_start _ hv
  have hlive : (start config hv).live = [] := Ring.live_start _ hv
  rw [live_absorb, hlive, hcap, List.nil_append, map_rtake]
  exact congrArg (·.rtake config.capacity) (map_bytes_completed config.delimiter bytes)

theorem pending_absorb_start (config : Config) (hv : config.Valid) (bytes : Bytes) :
    ((start config hv).absorb bytes).pending = unfinished config.delimiter bytes :=
  leftover_nil config.delimiter bytes

theorem size_live (s : Store) :
    Stream.size s.live = (s.live.map Command.bytes).flatten.length := by
  rw [← Stream.length_bytes, Stream.bytes, List.flatMap_def]

end Store

namespace Device

/-- No growth that a write of `source` needs is refused: neither that of its copy nor one
of those that feeding it comes to. -/
def Grants (d : Device) (source : Source) (q : Quota) : Prop :=
  ∀ chunk, source.chunk = some chunk → ∃ left, q.grow chunk.length = .ok left ∧
    (d.store.feed d.config.trailing chunk left).shortage = none

theorem grants_unlimited (d : Device) {source : Source} (h : source.size < sizeLimit) :
    d.Grants source .unlimited := by
  intro chunk hc
  have hlim : chunk.length < sizeLimit := (Source.eq_take_of_chunk hc).2 ▸ h
  refine ⟨.unlimited, Quota.grow_unlimited hlim, ?_⟩
  exact (d.store.accepted_feed d.config.trailing .unlimited hlim).2.2.mpr rfl

/-- **A write that is refused no growth takes all that the policy goes for**, if it
succeeds. -/
theorem eq_stretch_of_write (d : Device) {source : Source} {q : Quota} {admission : Admission}
    {chunk : Bytes} {n : Nat} (hc : source.chunk = some chunk) (hne : chunk ≠ [])
    (hg : d.Grants source q)
    (h : (d.write source q admission).answer.result = .ok n) :
    n = d.config.trailing.stretch d.store.delimiter chunk := by
  obtain ⟨left, hgrow, hshort⟩ := hg chunk hc
  rw [write, perform, writePlan_copied _ hc hne hgrow] at h
  cases admission with
  | refused b => cases h
  | granted =>
    have hres : (feeding d.config.trailing chunk left d.store).answer.result = .ok n := h
    rw [result_feeding, if_neg fun h => h.1 hshort] at hres
    rw [← Store.accepted_of_shortage_eq_none hshort]
    exact (Except.ok.inj hres).symm

end Device

namespace Session

theorem live_of_runs {config : Config} {s s' : Session} {trace : List (Request × Outcome)}
    (hs : create config = .ok s) (h : s.Runs trace s') :
    s'.device.store.live.map Command.bytes =
      (finished config.delimiter (trace.flatMap taken)).rtake config.capacity := by
  obtain ⟨hv, hstart⟩ := device_of_create hs
  obtain ⟨-, hstore⟩ := store_of_runs h
  rw [hstore, hstart]
  exact Store.live_absorb_start config hv _

/-- **What a session has seen of it after any run** of calls, whatever failed among them. Of
the bytes that its writes had taken the last finished segments are the live commands, as
many as are retained, and the unfinished one waits. A write that is refused no growth has
all taken that the policy goes for. -/
theorem seen_of_runs {config : Config} {s s' : Session} {trace : List (Request × Outcome)}
    (hs : create config = .ok s) (h : s.Runs trace s') :
    let bytes := trace.flatMap taken
    let live := (finished config.delimiter bytes).rtake config.capacity
    let waiting := unfinished config.delimiter bytes
    (s'.device.liveCommands .granted).answer = .ok live ∧
      s'.device.store.pending = waiting ∧
      (s'.device.logicalLength .granted).answer = .ok live.flatten.length ∧
      (s'.device.pendingLength .granted).answer = .ok waiting.length ∧
      ∀ (source : Source) (q : Quota) (admission : Admission) (chunk : Bytes) (n : Nat),
        source.chunk = some chunk → chunk ≠ [] → s'.device.Grants source q →
        (s'.device.write source q admission).answer.result = .ok n →
        n = config.trailing.stretch config.delimiter chunk := by
  intro bytes live waiting
  obtain ⟨hv, hstart⟩ := device_of_create hs
  obtain ⟨hconfig, hstore⟩ := store_of_runs h
  rw [hstart] at hconfig hstore
  have hlive : s'.device.store.live.map Command.bytes = live := by
    rw [hstore]
    exact Store.live_absorb_start config hv bytes
  have hpending : s'.device.store.pending = waiting := by
    rw [hstore]
    exact Store.pending_absorb_start config hv bytes
  refine ⟨congrArg Except.ok hlive, hpending, ?_, ?_, ?_⟩
  · rw [← hlive, ← Store.size_live]
    rfl
  · rw [← hpending]
    rfl
  · intro source q admission chunk n hc hne hg hres
    have hdel : s'.device.store.delimiter = config.delimiter := by
      rw [hstore]
      rfl
    rw [Device.eq_stretch_of_write s'.device hc hne hg hres, hdel, hconfig]
    rfl

/-- A write without memory, one of two commands and a byte more, of which only the last command
can be retained, and one more that is refused no growth. -/
theorem seen_of_two_writes :
    let config : Config := ⟨1, 10, .retain⟩
    let more : Bytes := [100, 10, 101]
    ∃ s s' trace, create config = .ok s ∧ s.Runs trace s' ∧
      trace.flatMap taken = [97, 10, 98, 10, 99] ∧
      (s'.device.liveCommands .granted).answer = .ok [[98, 10]] ∧ s'.device.store.pending = [99] ∧
      (s'.device.logicalLength .granted).answer = .ok 2 ∧
      (s'.device.pendingLength .granted).answer = .ok 1 ∧
      s'.device.Grants (.memory more) .unlimited ∧
      (s'.device.write (.memory more) .unlimited .granted).answer.result = .ok 3 ∧
      3 = config.trailing.stretch config.delimiter more := by
  intro config more
  let d := Device.start config (by decide)
  let s : Session := { resume d with log := [.made config] }
  let bytes : Bytes := [97, 10, 98, 10, 99]
  have hs : create config = .ok s := rfl
  have hw : (d.write (.memory bytes) .unlimited .granted).answer.result = .ok 5 :=
    (d.write_granted (Source.chunk_memory bytes) (by decide) (by decide) .unlimited).1
  let s₁ := s.after (d.write .missing .unlimited .granted)
  let s₂ := s₁.after (d.write (.memory bytes) .unlimited .granted)
  have h₁ : s.Runs [(.write .missing .unlimited, .reply (.bare (.fault .invalidArgument)))] s₁ :=
    .serve false .granted default .refl rfl rfl
  have h₂ : s.Runs [(.write .missing .unlimited, .reply (.bare (.fault .invalidArgument))),
      (.write (.memory bytes) .unlimited, .reply (.bare (.number 5)))] s₂ :=
    Runs.write h₁ hw
  obtain ⟨hlive, hpending, hlogical, hwaiting, hall⟩ := seen_of_runs hs h₂
  have hgrants : s₂.device.Grants (.memory more) .unlimited :=
    s₂.device.grants_unlimited (by decide)
  have hdelimiter : s₂.device.store.delimiter = 10 := by
    rw [(store_of_runs h₂).2]
    rfl
  have hmore : (s₂.device.write (.memory more) .unlimited .granted).answer.result = .ok 3 := by
    obtain ⟨hres, -, -⟩ :=
      s₂.device.write_granted (Source.chunk_memory more) (by decide) (by decide) .unlimited
    rw [hdelimiter] at hres
    exact hres
  exact ⟨s, s₂, _, hs, h₂, rfl, hlive, hpending, hlogical, hwaiting, hgrants, hmore,
    hall _ _ _ _ _ (Source.chunk_memory more) (by decide) hgrants hmore⟩

end Session

end Spool
