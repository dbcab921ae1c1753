import Spool.Proofs.Runs

/-!
# What calls report

Three kinds of records tell of bytes: those that a write has taken, those of a command that was
evicted, and those that a teardown has released. All others are quiet.

A call is a write, and logs what the write does, or it takes no bytes and logs only quiet
records (`Session.reports_of_serve`). What is to be said of a log over a run of calls has to be
said of writes, then, and of quiet records.
-/

namespace Spool

/-- The record tells of no bytes that were taken, evicted or released. -/
def Record.isQuiet : Record → Bool
  | .accepted .. | .evicted _ | .tornDown .. => false
  | _ => true

/-- No record tells of bytes that were taken, evicted or released. -/
def Quiet (records : List Record) : Prop := ∀ r ∈ records, r.isQuiet = true

namespace Quiet

variable {records more : List Record}

theorem nil : Quiet [] := by simp [Quiet]

theorem singleton {r : Record} (h : r.isQuiet = true) : Quiet [r] := by simpa [Quiet] using h

theorem append (h : Quiet records) (h' : Quiet more) : Quiet (records ++ more) := by
  intro r hr
  exact (List.mem_append.mp hr).elim (h r) (h' r)

end Quiet

theorem quiet_admission (admission : Admission) : Quiet admission.records := by
  cases admission with
  | granted => exact .nil
  | refused b => cases b <;> simp [Quiet, Admission.records, Record.isQuiet]

/-! ### Calls that store nothing -/

namespace Device

theorem quiet_of_done {trailing : Trailing} {source : Source} {q : Quota} {answer : Written}
    {records : List Record} (h : writePlan trailing source q = .done answer records) :
    Quiet records := by
  unfold writePlan at h
  split at h
  · cases h
    exact .nil
  · split at h
    · cases h
      exact .nil
    · split at h
      · cases h
        exact .singleton rfl
      · split at h
        · cases h
          exact .singleton rfl
        · cases h

theorem quiet_inspect {α : Type} (d : Device) (look : Store → α) (admission : Admission) :
    Quiet (d.perform (inspectPlan look) admission).records := by
  cases admission with
  | granted => exact .nil
  | refused b => exact quiet_admission (.refused b)

theorem quiet_read (d : Device) (position : Nat) (sink : Sink) (count : Nat)
    (admission : Admission) : Quiet (d.read position sink count admission).records := by
  unfold read perform readPlan
  split
  · exact .nil
  · cases admission with
    | refused b => exact .append (.singleton rfl) (quiet_admission (.refused b))
    | granted =>
      simp only [Plan.run]
      split
      · exact .singleton rfl
      · split <;> exact .singleton rfl

end Device

namespace File

variable {f : File} {d : Device} {admission : Admission}

theorem quiet_settle (f : File) (d : Device) (target : Option Nat) {records : Nat → List Record}
    (h : ∀ position, Quiet (records position)) : Quiet (f.settle d target records).records := by
  cases target with
  | none => exact .nil
  | some position => exact h position

theorem quiet_seek (f : File) (d : Device) (target : Target) (admission : Admission) :
    Quiet (f.seek d target admission).records := by
  have hlook : Quiet (d.logicalLength admission).records := d.quiet_inspect _ _
  unfold seek
  cases target with
  | start offset => exact .singleton rfl
  | current delta => exact f.quiet_settle d _ fun _ => .singleton rfl
  | fromEnd delta =>
    simp only []
    split
    · exact hlook
    · exact hlook.append (quiet_settle _ _ _ fun _ => .singleton rfl)

theorem quiet_seekToCommand (f : File) (d : Device) (index within : Nat)
    (admission : Admission) : Quiet (f.seekToCommand d index within admission).records := by
  have hlook : Quiet (d.commandOffset index within admission).records := d.quiet_inspect _ _
  unfold seekToCommand
  simp only []
  split
  · exact hlook
  · exact hlook
  · exact hlook.append (quiet_settle _ _ _ fun _ => .nil)

theorem quiet_read (f : File) (d : Device) (buffer : Bytes) (admission : Admission) :
    Quiet (f.read d buffer admission).records :=
  d.quiet_read _ _ _ _

theorem quiet_readExactly (f : File) (d : Device) (buffer : Bytes) (admission : Admission) :
    Quiet (f.readExactly d buffer admission).records := by
  fun_induction readExactly f d buffer admission with
  | case1 => exact .nil
  | case2 => exact quiet_read _ _ _ _
  | case3 =>
    rename_i ih
    exact (quiet_read _ _ _ _).append ih
  | case4 => exact quiet_read _ _ _ _

theorem quiet_drain (f : File) (d : Device) (size : Nat) (admission : Admission) :
    Quiet (f.drain d size admission).records := by
  unfold drain
  generalize Stream.size d.store.live + 1 = reads
  fun_induction drainWithin reads f d size admission with
  | case1 => exact .nil
  | case2 => exact quiet_read _ _ _ _
  | case3 => exact quiet_read _ _ _ _
  | case4 =>
    rename_i ih
    exact (quiet_read _ _ _ _).append ih

end File

/-! ### Writes -/

/-- How many bytes an answer to a write reports taken. -/
abbrev Written.count (w : Written) : Nat := (Answer.ofResult (.number ·) w.result).count

/-- **A write takes nothing and is quiet, or it feeds a chunk** and reports what comes of
that. -/
theorem Device.write_cases (d : Device) (source : Source) (q : Quota) (admission : Admission) :
    let e := d.write source q admission
    (Quiet e.records ∧ e.answer.count = 0 ∧ e.state = d) ∨
    ∃ chunk left, source.chunk = some chunk ∧
      e = ⟨(feeding d.config.trailing chunk left d.store).answer,
        { d with store := (d.store.feed d.config.trailing chunk left).store },
        [.writing chunk.length] ++ (feeding d.config.trailing chunk left d.store).records⟩ := by
  intro e
  rcases writePlan_cases d.config.trailing source q with
    ⟨answer, records, hplan, hres⟩ | ⟨chunk, left, hc, -, -, hplan⟩
  · have he : e = ⟨answer, d, records⟩ := by
      simp only [e, write, perform, hplan, Plan.run]
    rw [he]
    refine .inl ⟨quiet_of_done hplan, ?_, rfl⟩
    rcases hres with hres | ⟨f, hres, -⟩ <;> rw [Written.count, hres] <;> rfl
  · cases admission with
    | refused b =>
      have he : e = ⟨⟨.error .interrupted, left⟩, d,
          [.writing chunk.length] ++ (Admission.refused b).records⟩ := by
        simp only [e, write, perform, hplan, Plan.run]
      rw [he]
      exact .inl ⟨.append (.singleton rfl) (quiet_admission (.refused b)), rfl, rfl⟩
    | granted =>
      refine .inr ⟨chunk, left, hc, ?_⟩
      simp only [e, write, perform, hplan, Plan.run, state_feeding]

/-! ### Single calls -/

namespace Session

variable {s s' : Session} {busy : Bool} {admission : Admission} {caller : Caller}
  {request : Request} {outcome : Outcome}

/-- How many bytes a request reports taken: `n` if it was a write that answered `n`. -/
def written : Request × Outcome → Nat
  | (.write .., .reply r) | (.onFile _ (.write ..), .reply r) => r.answer.count
  | _ => 0

/-- What a call, whose request for the guard ends as `admission` says, leaves in the log. -/
inductive Reports (s s' : Session) (admission : Admission) (call : Request × Outcome) : Prop where
  /-- It is a write. -/
  | write (source : Source) (q : Quota) :
      s'.device = (s.device.write source q admission).state →
      s'.log = s.log ++ (s.device.write source q admission).records →
      taken call = source.contents.take (s.device.write source q admission).answer.count →
      written call = (s.device.write source q admission).answer.count →
      Reports s s' admission call
  /-- It takes nothing and tells of no bytes. -/
  | quiet (records : List Record) : s'.device.store = s.device.store →
      s'.log = s.log ++ records → Quiet records → taken call = [] → written call = 0 →
      Reports s s' admission call

theorem reports_callFile (s : Session) (admission : Admission) (index : Nat) (file : File)
    {call : FileCall} (hs : (Request.onFile index call).isSingle = true) :
    let e := s.callFile admission index file call
    s.Reports e.2 admission (.onFile index call, .reply e.1) := by
  have hidle : taken (.onFile index call, .reply (s.callFile admission index file call).1) = [] →
      (s.callFile admission index file call).2.device.store = s.device.store := by
    intro h
    rw [s.device_callFile admission index file hs, h]
    rfl
  cases call with
  | write bytes q => exact .write (.memory bytes) q rfl rfl rfl rfl
  | writeAll bytes q => cases hs
  | read size => exact .quiet _ (hidle rfl) rfl (file.quiet_read _ _ _) rfl rfl
  | seek target => exact .quiet _ (hidle rfl) rfl (file.quiet_seek _ _ _) rfl rfl
  | seekToCommand i within =>
    exact .quiet _ (hidle rfl) rfl (file.quiet_seekToCommand _ _ _ _) rfl rfl
  | tell | handle | describe | flush =>
    exact .quiet [] rfl (List.append_nil _).symm .nil rfl rfl
  | readExactly size => exact .quiet _ (hidle rfl) rfl (file.quiet_readExactly _ _ _) rfl rfl
  | rewind => exact .quiet _ (hidle rfl) rfl (file.quiet_seek _ _ _) rfl rfl
  | position => exact .quiet _ (hidle rfl) rfl (file.quiet_seek _ _ _) rfl rfl
  | drain size => exact .quiet _ (hidle rfl) rfl (file.quiet_drain _ _ _) rfl rfl

@[simp] theorem log_setSignal (s : Session) (signal : Signal) (owner : Owner) :
    (s.setSignal signal owner).log = s.log := by
  cases owner <;> rfl

/-- **A single call is a write or quiet**, whoever makes it. -/
theorem reports_of_serve (hs : request.isSingle = true)
    (h : s.serve busy admission caller request = some (outcome, s')) :
    s.Reports s' admission (request, outcome) := by
  cases request with
  | write source q =>
    cases h
    exact .write source q rfl rfl rfl rfl
  | read position count sink =>
    cases h
    exact .quiet _ (congrArg Device.store (s.device.state_read position sink count admission)) rfl
      (s.device.quiet_read position sink count admission) rfl rfl
  | logicalLength | pendingLength | liveCommands | commandOffset =>
    cases h
    exact .quiet _ (congrArg Device.store (s.device.state_inspect _ admission)) rfl
      (s.device.quiet_inspect _ admission) rfl rfl
  | config | describe | isRaised | describeSignal =>
    cases h
    exact .quiet [] rfl (List.append_nil _).symm .nil rfl rfl
  | openFile =>
    cases h
    exact .quiet _ rfl rfl (.singleton rfl) rfl rfl
  | raise | lower =>
    cases h
    refine .quiet [] ?_ ?_ .nil rfl rfl
    · rw [device_setSignal]
    · rw [log_setSignal, List.append_nil]
  | release file =>
    obtain ⟨f, -, hf⟩ := Option.map_eq_some_iff.mp h
    cases hf
    exact .quiet _ rfl rfl (.singleton rfl) rfl rfl
  | onFile file call =>
    obtain ⟨f, -, hf⟩ := Option.map_eq_some_iff.mp h
    cases hf
    exact s.reports_callFile admission file f hs
  | heldRead | meaningless => cases h

theorem Reports.length_taken {call : Request × Outcome} (h : s.Reports s' admission call) :
    (taken call).length = written call := by
  cases h with
  | quiet _ _ _ _ htaken hwritten => rw [htaken, hwritten, List.length_nil]
  | write source q _ _ htaken hwritten =>
    rw [htaken, hwritten, List.length_take]
    refine Nat.min_eq_left ?_
    obtain ⟨n, hn, hres, -⟩ | ⟨⟨f, hres⟩, -⟩ := s.device.write_spec source q admission
    · rw [Written.count, hres]
      exact hn
    · rw [Written.count, hres]
      exact Nat.zero_le _

end Session

end Spool
