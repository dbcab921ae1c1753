import Spool.Proofs.Eviction
import Spool.Proofs.Queue
import Mathlib.Algebra.Ring.Nat

/-!
# No byte is lost

A byte that a write reports taken waits for a delimiter, becomes part of a command, and leaves
when its command is evicted or when the device is torn down. Nothing else happens to it, so the
books balance at the end: what all writes have reported is what was evicted and what the
teardown releases (`Session.balanced_at_shutDown`).

The counts come from different places. Writes count what they took, also if memory ran out on
the way; a teardown counts what it finds in the slots; the log is told of all three. They are
brought together by the bytes that were taken: these complete commands and leave a rest
(`size_completed`), and of the commands some are given back by the ring and the others are
live (`Ring.evictedBy_append_live`).
-/

namespace Spool

/-! ### Writes and teardowns in a log -/

/-- How many bytes a record reports taken. -/
def Record.acceptedSize : Record → Nat
  | .accepted n .. => n
  | _ => 0

/-- How many bytes a log reports taken. -/
def acceptedBytes (log : List Record) : Nat := (log.map Record.acceptedSize).sum

/-- The record is of a teardown. -/
def Record.isTeardown : Record → Bool
  | .tornDown .. => true
  | _ => false

/-- The teardowns that a log tells of. -/
def teardowns (log : List Record) : List Record := log.filter Record.isTeardown

@[simp] theorem acceptedBytes_append (a b : List Record) :
    acceptedBytes (a ++ b) = acceptedBytes a + acceptedBytes b := by
  simp [acceptedBytes]

@[simp] theorem teardowns_append (a b : List Record) :
    teardowns (a ++ b) = teardowns a ++ teardowns b :=
  List.filter_append ..

/-- The record is neither of a write that has taken bytes nor of a teardown. -/
def Record.isInner : Record → Bool
  | .accepted .. | .tornDown .. => false
  | _ => true

theorem told_of_inner {records : List Record} (h : ∀ r ∈ records, r.isInner = true) :
    acceptedBytes records = 0 ∧ teardowns records = [] := by
  have hinner : ∀ r : Record, r.isInner = true → r.acceptedSize = 0 ∧ r.isTeardown = false := by
    intro r hr
    cases r with
    | accepted | tornDown => cases hr
    | _ => exact ⟨rfl, rfl⟩
  constructor
  · have hzero : ∀ n ∈ records.map Record.acceptedSize, n = 0 := by
      intro n hn
      obtain ⟨r, hr, rfl⟩ := List.mem_map.mp hn
      exact (hinner r (h r hr)).1
    rw [acceptedBytes, List.eq_replicate_of_mem hzero, List.sum_replicate_nat, Nat.mul_zero]
  · refine List.filter_eq_nil_iff.mpr fun r hr => ?_
    simp [(hinner r (h r hr)).2]

theorem told_of_quiet {records : List Record} (h : Quiet records) :
    acceptedBytes records = 0 ∧ teardowns records = [] := by
  refine told_of_inner fun r hr => ?_
  have hquiet := h r hr
  cases r with
  | accepted | tornDown => cases hquiet
  | _ => rfl

namespace Store

/-- A feeding itself tells neither of a write nor of a teardown. -/
theorem isInner_of_mem_feed (s : Store) (trailing : Trailing) (chunk : Bytes) (q : Quota) :
    ∀ r ∈ (s.feed trailing chunk q).records, r.isInner = true := by
  have hcut : ∀ (s : Store) head rest, ∀ r ∈ s.cutRecords head rest, r.isInner = true := by
    intro s head rest r hr
    rcases List.mem_append.mp hr with hdropped | hevicted
    · split at hdropped
      · cases hdropped
      · rw [List.mem_singleton.mp hdropped]
        rfl
    · obtain ⟨c, -, rfl⟩ := List.mem_map.mp hevicted
      rfl
  obtain ⟨d, hs⟩ : ∃ d, s.delimiter = d := ⟨_, rfl⟩
  induction chunk using cut_induction d generalizing s q with
  | uncut chunk hd =>
    subst hs
    by_cases hne : chunk = []
    · simp [hne, feed_nil]
    cases hq : q.grow chunk.length with
    | error e => simp [feed_refused (Assembler.append_uncut_refused hd hne hq)]
    | ok left => simp [feed_uncut hd hne hq, Record.isInner]
  | cut chunk head rest hb ih =>
    subst hs
    cases hq : q.grow head.size with
    | error e => simp [feed_refused (Assembler.append_cut_refused hb hq)]
    | ok left =>
      cases trailing with
      | discard =>
        rw [feed_discard hb hq]
        exact hcut s head rest
      | retain =>
        rw [feed_retain hb hq]
        intro r hr
        exact (List.mem_append.mp hr).elim (hcut s head rest r)
          (ih (s.absorb head.bytes) left rfl r)

end Store

/-- **A write that answers `n` logs that `n` bytes were taken**, and one that fails logs
nothing taken. -/
theorem Device.told_of_write (d : Device) (source : Source) (q : Quota) (admission : Admission) :
    let e := d.write source q admission
    acceptedBytes e.records = e.answer.count ∧ teardowns e.records = [] := by
  intro e
  rcases d.write_cases source q admission with ⟨hquiet, hcount, -⟩ | ⟨chunk, left, -, he⟩
  · obtain ⟨haccepted, hteardowns⟩ := told_of_quiet hquiet
    exact ⟨haccepted.trans hcount.symm, hteardowns⟩
  · obtain ⟨haccepted, hteardowns⟩ :=
      told_of_inner (d.store.isInner_of_mem_feed d.config.trailing chunk left)
    obtain ⟨hasked, hasked'⟩ := told_of_quiet (.singleton rfl : Quiet [.writing chunk.length])
    simp only [e, he, acceptedBytes_append, teardowns_append, hasked, hasked', Nat.zero_add,
      List.nil_append]
    rw [feeding]
    cases (d.store.feed d.config.trailing chunk left).result with
    | error shortage => exact ⟨haccepted, hteardowns⟩
    | ok n =>
      rw [acceptedBytes_append, teardowns_append, haccepted, hteardowns]
      exact ⟨Nat.zero_add n, rfl⟩

/-! ### Runs -/

namespace Session

variable {config : Config} {s s' : Session} {admission : Admission}
  {trace : List (Request × Outcome)}

/-- How many bytes the writes of a run report taken, together. -/
def writtenBytes (trace : List (Request × Outcome)) : Nat := (trace.map written).sum

theorem Reports.told {call : Request × Outcome} (h : s.Reports s' admission call) :
    acceptedBytes s'.log = acceptedBytes s.log + written call ∧
      teardowns s'.log = teardowns s.log := by
  cases h with
  | write source q _ hlog _ hwritten =>
    obtain ⟨haccepted, hteardowns⟩ := s.device.told_of_write source q admission
    rw [hlog, acceptedBytes_append, teardowns_append, haccepted, hteardowns, hwritten]
    exact ⟨rfl, List.append_nil _⟩
  | quiet records _ hlog hquiet _ hwritten =>
    obtain ⟨haccepted, hteardowns⟩ := told_of_quiet hquiet
    rw [hlog, acceptedBytes_append, teardowns_append, haccepted, hteardowns, hwritten]
    exact ⟨rfl, List.append_nil _⟩

/-- **A run logs what its writes report**, and no teardown. -/
theorem told_of_runs (h : s.Runs trace s') :
    acceptedBytes s'.log = acceptedBytes s.log + writtenBytes trace ∧
      teardowns s'.log = teardowns s.log ∧
      (trace.flatMap taken).length = writtenBytes trace := by
  induction h with
  | refl => exact ⟨rfl, rfl, rfl⟩
  | serve _ _ _ _ hs hstep ih =>
    have hreports := reports_of_serve hs hstep
    obtain ⟨haccepted, hteardowns⟩ := hreports.told
    obtain ⟨haccepted', hteardowns', hlength⟩ := ih
    simp only [writtenBytes, List.map_append, List.sum_append, List.flatMap_append,
      List.length_append, List.map_singleton, List.sum_singleton, List.flatMap_singleton] at *
    refine ⟨?_, hteardowns.trans hteardowns', ?_⟩
    · rw [haccepted, haccepted', Nat.add_assoc]
    · rw [hlength, hreports.length_taken]

end Session

/-! ### Where the bytes are -/

/-- **Bytes that follow others are in the commands they complete, or wait.** -/
theorem size_completed (d : UInt8) (waiting bytes : Bytes) :
    Stream.size (completed d waiting bytes) + (leftover d waiting bytes).length =
      waiting.length + bytes.length := by
  induction bytes generalizing waiting with
  | nil => simp [completed, leftover]
  | cons b rest ih =>
    rw [completed, leftover]
    split
    · have hrest := ih []
      simp only [Stream.size_cons, Command.size, Command.bytes_prepend, Command.bytes_single,
        List.length_append, List.length_cons, List.length_nil] at hrest ⊢
      omega
    · have hrest := ih (waiting ++ [b])
      simp only [List.length_append, List.length_cons, List.length_nil] at hrest ⊢
      omega

namespace Ring

/-- The commands that a ring gives back while it is given others, in order. -/
def evictedBy (r : Ring) : List Command → List Command
  | [] => []
  | c :: rest => (r.ingest c).2.toList ++ (r.ingest c).1.evictedBy rest

/-- **What comes in behind what is live is given back from the front**, or is live. -/
theorem evictedBy_append_live (r : Ring) (cs : List Command) :
    r.evictedBy cs ++ (r.ingestAll cs).live = r.live ++ cs := by
  induction cs generalizing r with
  | nil => simp [evictedBy]
  | cons c rest ih =>
    rw [evictedBy, ingestAll_cons, List.append_assoc, ih, ← List.append_assoc, live_ingest,
      List.append_assoc, List.singleton_append]

end Ring

/-! ### Teardowns -/

/-- **A teardown releases what is live and what waits**, and leaves a new store. -/
theorem Store.tearDown_eq (s : Store) :
    s.tearDown = (⟨s.live.length, Stream.size s.live, s.pending.length⟩,
      ⟨⟨s.delimiter, .empty⟩, .start s.capacity s.ring.capacity_pos⟩) := by
  rw [tearDown, Ring.releaseAll_eq]
  rfl

theorem Teardown.records_eq (live : List Command) (pending : Bytes) :
    Teardown.records ⟨live.length, Stream.size live, pending.length⟩ =
      if live = [] ∧ pending = [] then []
      else [.tornDown live.length (Stream.size live) pending.length] := by
  simp [Teardown.records, Teardown.isEmpty]

namespace Session

variable {config : Config} {s s' : Session} {trace : List (Request × Outcome)}

theorem shutDown_eq (s : Session) :
    let report : Teardown :=
      ⟨s.device.store.live.length, Stream.size s.device.store.live, s.device.store.pending.length⟩
    s.shutDown = (report,
      { s with
        device := { s.device with
          store := ⟨⟨s.device.store.delimiter, .empty⟩,
            .start s.device.store.capacity s.device.store.ring.capacity_pos⟩ }
        files := s.files.map fun _ => none
        log := s.log ++ report.records }) := by
  simp only [shutDown, Device.tearDown, Store.tearDown_eq]
  rfl

/-- **To tear a device down again releases nothing** and changes nothing. -/
theorem shutDown_shutDown (s : Session) :
    s.shutDown.2.shutDown = (⟨0, 0, 0⟩, s.shutDown.2) := by
  have hlive : (Ring.start s.device.store.capacity s.device.store.ring.capacity_pos).live = [] :=
    Ring.live_start _ _
  have hring : ∀ {a b : Nat} (ha : 0 < a) (hb : 0 < b), a = b → Ring.start a ha = .start b hb := by
    rintro a b ha hb rfl
    rfl
  rw [shutDown_eq s.shutDown.2, shutDown_eq s]
  simpa [Store.live, Store.pending, hlive, Pending.empty, Teardown.records, Teardown.isEmpty]
    using hring _ _ (Ring.capacity_start _ _)

/-! ### The whole -/

/-- The device is new, and nothing is logged, but perhaps that it was made. -/
structure IsNew (s : Session) (config : Config) : Prop where
  /-- Nothing is stored. -/
  device : ∃ hv : config.Valid, s.device = .start config hv
  /-- Nothing else has been logged. -/
  log : ∀ r ∈ s.log, r = .made config

theorem isNew_of_create (h : create config = .ok s) : s.IsNew config := by
  refine ⟨device_of_create h, ?_⟩
  unfold create at h
  split at h
  · cases h
    simp
  · cases h

theorem isNew_standard : (resume .standard).IsNew .standard :=
  ⟨⟨Config.valid_standard, rfl⟩, fun r hr => by cases hr⟩

theorem IsNew.quiet (h : s.IsNew config) : Quiet s.log := by
  intro r hr
  rw [h.log r hr]
  rfl

/-- The commands that were evicted in a run, as the ring has given them back. -/
def evictedIn (s : Session) (config : Config) (trace : List (Request × Outcome)) : List Command :=
  s.device.store.ring.evictedBy (completedBy config trace)

/-- **The commands completed in a run were evicted or are live**, in this order. -/
theorem IsNew.evictedIn_append_live (hs : s.IsNew config) (h : s.Runs trace s') :
    s.evictedIn config trace ++ s'.device.store.live = completedBy config trace := by
  obtain ⟨hv, hstart⟩ := hs.device
  obtain ⟨-, hstore⟩ := store_of_runs h
  have hall := (Ring.start config.capacity hv).evictedBy_append_live (completedBy config trace)
  rw [Ring.live_start config.capacity hv, List.nil_append] at hall
  rw [evictedIn, hstore, hstart]
  exact hall

theorem IsNew.evictedBytes_eq (hs : s.IsNew config) (h : s.Runs trace s') :
    evictedBytes s'.log = Stream.size (s.evictedIn config trace) := by
  have hbalance : s.Accounts s' (trace.flatMap taken) := accounts_of_runs h
  obtain ⟨hv, hstart⟩ := hs.device
  have hempty : Stream.size (Device.start config hv).store.live = 0 :=
    congrArg Stream.size (Ring.live_start config.capacity hv)
  have hcompleted := congrArg Stream.size (hs.evictedIn_append_live h)
  rw [Stream.size_append, completedBy] at hcompleted
  rw [Accounts, evictedBytes_of_quiet hs.quiet, hstart, hempty] at hbalance
  have hsame : evictedBytes s'.log + Stream.size s'.device.store.live =
      Stream.size (completed config.delimiter [] (trace.flatMap taken)) :=
    hbalance.trans (Nat.zero_add _)
  omega

/-- What was taken was evicted, is live, or waits. -/
theorem IsNew.writtenBytes_eq (hs : s.IsNew config) (h : s.Runs trace s') :
    writtenBytes trace = Stream.size (s.evictedIn config trace) +
      Stream.size s'.device.store.live + s'.device.store.pending.length := by
  obtain ⟨-, -, hlength⟩ := told_of_runs h
  obtain ⟨hv, hstart⟩ := hs.device
  obtain ⟨-, hstore⟩ := store_of_runs h
  have hpending : s'.device.store.pending = leftover config.delimiter [] (trace.flatMap taken) := by
    rw [hstore, hstart]
    rfl
  have hsize := size_completed config.delimiter [] (trace.flatMap taken)
  rw [List.length_nil, Nat.zero_add, hlength] at hsize
  rw [← Stream.size_append, hs.evictedIn_append_live h, hpending]
  exact hsize.symm

/-- **No byte is lost.** After any run on a new device, whatever failed in it, the device is
torn down, and again:

- the commands completed in the run are those that the ring has given back, and behind them
  those that are live;
- what the writes have reported is what was evicted and what is released, together;
- the teardown releases as many commands and bytes as callers are told just before;
- a second one releases nothing, logs nothing and changes nothing;
- the log tells of as many bytes taken as the writes have reported, of those that were evicted,
  and of one teardown, with what it has released, or of none if there was nothing to release. -/
theorem balanced_at_shutDown (hs : s.IsNew config) (h : s.Runs trace s') :
    let live := s'.device.store.live
    let pending := s'.device.store.pending
    let evicted := s.evictedIn config trace
    let report := s'.shutDown.1
    let after := s'.shutDown.2
    evicted ++ live = completedBy config trace ∧
    writtenBytes trace = Stream.size evicted + report.commandBytes + report.pendingBytes ∧
    ((∃ l, (s'.device.liveCommands .granted).answer = .ok l ∧ report.commands = l.length) ∧
      (s'.device.logicalLength .granted).answer = .ok report.commandBytes ∧
      (s'.device.pendingLength .granted).answer = .ok report.pendingBytes) ∧
    after.shutDown = (⟨0, 0, 0⟩, after) ∧
    acceptedBytes after.log = writtenBytes trace ∧
    evictedBytes after.log = Stream.size evicted ∧
    acceptedBytes after.log =
      evictedBytes after.log + report.commandBytes + report.pendingBytes ∧
    teardowns after.log =
      if live = [] ∧ pending = [] then []
      else [.tornDown report.commands report.commandBytes report.pendingBytes] := by
  intro live pending evicted report after
  obtain ⟨haccepted, hteardowns, -⟩ := told_of_runs h
  obtain ⟨hnone, hnone'⟩ := told_of_quiet hs.quiet
  have hwritten : writtenBytes trace = Stream.size evicted + Stream.size live + pending.length :=
    hs.writtenBytes_eq h
  have hreport : report = ⟨live.length, Stream.size live, pending.length⟩ :=
    congrArg Prod.fst s'.shutDown_eq
  have hlog : after.log = s'.log ++ report.records := by
    rw [hreport]
    exact congrArg (fun e => e.2.log) s'.shutDown_eq
  have hrecords := Teardown.records_eq live pending
  -- the teardown itself tells of nothing taken or evicted
  have hreleased : acceptedBytes report.records = 0 ∧ evictedBytes report.records = 0 := by
    rw [hreport, hrecords]
    split <;> exact ⟨rfl, rfl⟩
  have htaken : acceptedBytes after.log = writtenBytes trace := by
    rw [hlog, acceptedBytes_append, haccepted, hnone, hreleased.1, Nat.zero_add, Nat.add_zero]
  have hout : evictedBytes after.log = Stream.size evicted := by
    rw [hlog, evictedBytes_append, hs.evictedBytes_eq h, hreleased.2, Nat.add_zero]
  refine ⟨hs.evictedIn_append_live h, ?_, ⟨⟨_, rfl, ?_⟩, ?_, ?_⟩, s'.shutDown_shutDown, htaken,
    hout, ?_, ?_⟩
  · rw [hwritten, hreport]
  · rw [hreport, List.length_map]
  · rw [hreport]
    rfl
  · rw [hreport]
    rfl
  · rw [htaken, hout, hwritten, hreport]
  · rw [hlog, teardowns_append, hteardowns, hnone', List.nil_append, hreport, hrecords]
    split <;> rfl

/-- A ring of one command is given two, and a byte more. -/
theorem balanced_at_shutDown_of_one_eviction :
    let config : Config := ⟨1, 10, .retain⟩
    ∃ (s s' : Session) (trace : List (Request × Outcome)), s.IsNew config ∧ s.Runs trace s' ∧
      s.evictedIn config trace = [⟨[97, 98, 10], by decide⟩] ∧
      s'.shutDown.1 = ⟨1, 2, 1⟩ ∧ writtenBytes trace = 3 + 2 + 1 ∧
      acceptedBytes s'.shutDown.2.log = 3 + 2 + 1 ∧ evictedBytes s'.shutDown.2.log = 3 ∧
      teardowns s'.shutDown.2.log = [.tornDown 1 2 1] := by
  intro config
  let d := Device.start config (by decide)
  let bytes : Bytes := [97, 98, 10, 99, 10, 100]
  let write : Request × Outcome :=
    (.write (.memory bytes) .unlimited, .reply (.bare (.number (6 : Nat))))
  let after := (resume d).after (d.write (.memory bytes) .unlimited .granted)
  have hs : (resume d).IsNew config := ⟨⟨by decide, rfl⟩, fun r hr => by cases hr⟩
  have hc : (Source.memory bytes).chunk = some bytes := rfl
  have hw : (d.write (.memory bytes) .unlimited .granted).answer.result = .ok 6 :=
    (d.write_granted hc (by decide) (by decide) .unlimited).1
  have h : (resume d).Runs [write] after := Runs.write .refl hw
  obtain ⟨-, hwritten, -, -, htaken, hevicted, -, hteardowns⟩ := balanced_at_shutDown hs h
  have hgone : (resume d).evictedIn config [write] = [⟨[97, 98, 10], by decide⟩] := by decide
  have hstore : after.device.store = d.store.absorb bytes := (store_of_runs h).2
  have hreport : after.shutDown.1 = ⟨1, 2, 1⟩ := by
    rw [after.shutDown_eq, hstore]
    decide
  rw [hgone] at hwritten hevicted
  rw [hreport] at hwritten hteardowns
  refine ⟨resume d, after, [write], hs, h, hgone, hreport, hwritten, htaken.trans hwritten,
    hevicted, ?_⟩
  rw [hteardowns, hstore]
  decide

end Session

end Spool
