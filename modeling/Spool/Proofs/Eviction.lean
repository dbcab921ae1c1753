import Spool.Proofs.Offsets
import Spool.Proofs.Records

/-!
# What was evicted

Whatever happens to a device, each command that is evicted is logged with its size, and nothing
else is logged as evicted. So the log tells how many bytes the front of the stream has moved on
since the device was new (`evictedBytes`).

Evictions and completions balance. Of one command that goes into the ring, its size is what the
stream grows by and what is pushed out (`Ring.size_ingest`). A feeding cuts a chunk as often as
it likes (`Store.evicted_feed`); of the calls only writes come to feeding, and the others are
quiet (`Session.accounts_serve`). So after any run from the start, the commands completed
are those that are live and before them others, which are as many bytes as the log says
(`Session.completedBy_of_runs`).
-/

namespace Spool

/-! ### Evictions in a log -/

/-- How many bytes a record reports evicted. -/
def Record.evictedSize : Record → Nat
  | .evicted size => size
  | _ => 0

/-- How many bytes a log reports evicted. -/
def evictedBytes : List Record → Nat
  | [] => 0
  | record :: rest => record.evictedSize + evictedBytes rest

@[simp] theorem evictedBytes_nil : evictedBytes [] = 0 := rfl

@[simp] theorem evictedBytes_cons (record : Record) (rest : List Record) :
    evictedBytes (record :: rest) = record.evictedSize + evictedBytes rest := rfl

@[simp] theorem evictedBytes_append (a b : List Record) :
    evictedBytes (a ++ b) = evictedBytes a + evictedBytes b := by
  induction a with
  | nil => simp
  | cons record rest ih => simp [ih, Nat.add_assoc]

theorem evictedBytes_of_quiet {records : List Record} (h : Quiet records) :
    evictedBytes records = 0 := by
  induction records with
  | nil => rfl
  | cons record rest ih =>
    obtain ⟨hrecord, hrest⟩ := List.forall_mem_cons.mp h
    rw [evictedBytes_cons, ih hrest]
    cases record with
    | evicted => cases hrecord
    | _ => rfl

/-! ### Commands that go into the ring -/

/-- **A command that comes in pushes out as much as the stream does not grow by.** -/
theorem Ring.size_ingest (r : Ring) (c : Command) :
    evictedBytes ((r.ingest c).2.toList.map fun c => .evicted c.size) +
      Stream.size (r.ingest c).1.live = Stream.size r.live + c.size := by
  have hview := congrArg Stream.size (r.live_ingest c)
  rw [Stream.size_append, Stream.size_append] at hview
  have hevicted : evictedBytes ((r.ingest c).2.toList.map fun c => .evicted c.size) =
      Stream.size (r.ingest c).2.toList := by
    cases (r.ingest c).2 <;> rfl
  rw [hevicted, hview]
  rfl

namespace Store

variable {trailing : Trailing} {chunk rest : Bytes} {head : Command}

theorem evicted_cut (s : Store) (hb : breakAfter s.delimiter chunk = some (head, rest)) :
    evictedBytes (s.cutRecords head rest) + Stream.size (s.absorb head.bytes).live =
      Stream.size s.live + (head.prepend s.pending).size := by
  have hdropped : evictedBytes (if rest = [] then [] else [.dropped rest.length]) = 0 := by
    split <;> rfl
  rw [cutRecords, evictedBytes_append, hdropped, Nat.zero_add, absorb_of_breakAfter s hb]
  exact s.ring.size_ingest (head.prepend s.pending)

/-- **A feeding reports what it evicts**: that, and what is live afterwards, are what was live
before and the commands completed. -/
theorem evicted_feed (s : Store) (trailing : Trailing) (chunk : Bytes) (q : Quota) :
    evictedBytes (s.feed trailing chunk q).records +
        Stream.size (s.feed trailing chunk q).store.live =
      Stream.size s.live + Stream.size (completed s.delimiter s.pending
        (chunk.take (s.feed trailing chunk q).accepted)) := by
  obtain ⟨d, hs⟩ : ∃ d, s.delimiter = d := ⟨_, rfl⟩
  induction chunk using cut_induction d generalizing s q with
  | uncut chunk hd =>
    subst hs
    by_cases hne : chunk = []
    · rw [hne, feed_nil]
      exact Nat.zero_add _
    cases hq : q.grow chunk.length with
    | error e =>
      rw [feed_refused (Assembler.append_uncut_refused hd hne hq)]
      exact Nat.zero_add _
    | ok left =>
      rw [feed_uncut hd hne hq, List.take_length, completed_of_notMem _ hd, absorb_of_notMem s hd]
      exact Nat.zero_add _
  | cut chunk head rest hb ih =>
    subst hs
    have hcut := s.evicted_cut hb
    have hhead := completed_of_breakAfter s.pending (breakAfter_append hb [])
    have hleft := leftover_of_breakAfter s.pending (breakAfter_append hb [])
    rw [List.append_nil] at hhead hleft
    cases hq : q.grow head.size with
    | error e =>
      rw [feed_refused (Assembler.append_cut_refused hb hq)]
      exact Nat.zero_add _
    | ok left =>
      cases trailing with
      | discard =>
        rw [feed_discard hb hq]
        show _ = _ + Stream.size (completed s.delimiter s.pending (chunk.take head.bytes.length))
        rw [← append_of_breakAfter hb, List.take_left, hhead, hcut]
        rfl
      | retain =>
        -- the rest is fed to the store that has absorbed the head, where nothing waits any more
        have hmore := ih (s.absorb head.bytes) left rfl
        rw [feed_retain hb hq]
        show evictedBytes (_ ++ _) + _ = _ + Stream.size (completed s.delimiter s.pending
          (chunk.take (head.bytes.length + _)))
        rw [← append_of_breakAfter hb, List.take_length_add_append, completed_append, hhead, hleft,
          evictedBytes_append, Stream.size_append]
        rw [pending_absorb, delimiter_absorb, hleft] at hmore
        simp only [completed, Stream.size_cons, Stream.size_nil] at hmore ⊢
        omega

end Store

/-! ### Calls -/

theorem evictedBytes_feeding (trailing : Trailing) (chunk : Bytes) (q : Quota) (s : Store) :
    evictedBytes (feeding trailing chunk q s).records =
      evictedBytes (s.feed trailing chunk q).records := by
  rw [feeding]
  cases (s.feed trailing chunk q).result with
  | error e => rfl
  | ok n => simp [Record.evictedSize]

namespace Device

/-- **A write reports what it evicts.** -/
theorem evicted_write (d : Device) (source : Source) (q : Quota) (admission : Admission) :
    let e := d.write source q admission
    evictedBytes e.records + Stream.size e.state.store.live =
      Stream.size d.store.live + Stream.size (completed d.store.delimiter d.store.pending
        (source.contents.take e.answer.count)) := by
  intro e
  rcases d.write_cases source q admission with ⟨hquiet, hcount, hstate⟩ | ⟨chunk, left, hc, he⟩
  · rw [evictedBytes_of_quiet hquiet, hcount, hstate]
    exact Nat.zero_add _
  · have hfed := d.store.evicted_feed d.config.trailing chunk left
    obtain ⟨htake, hsize⟩ := Source.eq_take_of_chunk hc
    have hle := (d.store.store_feed d.config.trailing chunk left).1
    have hrecords : evictedBytes e.records =
        evictedBytes (d.store.feed d.config.trailing chunk left).records := by
      simp [e, he, evictedBytes_feeding, Record.evictedSize]
    have hfront : chunk.take (d.store.feed d.config.trailing chunk left).accepted =
        source.contents.take (d.store.feed d.config.trailing chunk left).accepted := by
      rw [htake, List.take_take, ← htake, Nat.min_eq_left (hle.trans hsize.le)]
    have hcount : e.answer.count = (d.store.feed d.config.trailing chunk left).accepted := by
      simp only [e, he, Written.count, result_feeding]
      split
      · rename_i hnone
        exact hnone.2.symm
      · rfl
    rw [hrecords, hcount, ← hfront, ← hfed]
    simp only [e, he]

end Device

/-! ### Runs -/

namespace Session

variable {config : Config} {s s' : Session} {busy : Bool} {admission : Admission} {caller : Caller}
  {request : Request} {outcome : Outcome} {trace : List (Request × Outcome)}

/-- The account between two sessions, with `bytes` taken between them: what was evicted and
what is live have grown by the commands completed. -/
def Accounts (s s' : Session) (bytes : Bytes) : Prop :=
  evictedBytes s'.log + Stream.size s'.device.store.live =
    evictedBytes s.log + Stream.size s.device.store.live +
      Stream.size (completed s.device.store.delimiter s.device.store.pending bytes)

theorem accounts_idle {records : List Record} (hstore : s'.device.store = s.device.store)
    (hlog : s'.log = s.log ++ records) (hrecords : evictedBytes records = 0) :
    s.Accounts s' [] := by
  rw [Accounts, hstore, hlog, evictedBytes_append, hrecords]
  rfl

theorem accounts_write (s : Session) (source : Source) (q : Quota) (admission : Admission)
    {s' : Session} (hdevice : s'.device = (s.device.write source q admission).state)
    (hlog : s'.log = s.log ++ (s.device.write source q admission).records) :
    s.Accounts s' (source.contents.take (s.device.write source q admission).answer.count) := by
  have hwrite := s.device.evicted_write source q admission
  rw [Accounts, hdevice, hlog, evictedBytes_append]
  omega

/-- **One call balances the account**, whoever makes it. -/
theorem accounts_serve (hs : request.isSingle = true)
    (h : s.serve busy admission caller request = some (outcome, s')) :
    s.Accounts s' (taken (request, outcome)) := by
  cases reports_of_serve hs h with
  | write source q hdevice hlog htaken =>
    rw [htaken]
    exact s.accounts_write source q admission hdevice hlog
  | quiet records hstore hlog hquiet htaken =>
    rw [htaken]
    exact accounts_idle hstore hlog (evictedBytes_of_quiet hquiet)

/-- **A run balances the account.** -/
theorem accounts_of_runs (h : s.Runs trace s') : s.Accounts s' (trace.flatMap taken) := by
  induction h with
  | refl => exact accounts_idle rfl (List.append_nil _).symm rfl
  | serve _ _ _ hrun hs hstep ih =>
    obtain ⟨-, hstore⟩ := store_of_runs hrun
    -- the last call finds what the calls before it left, also of a command that is not whole
    have hlast := accounts_serve hs hstep
    rw [Accounts] at ih hlast ⊢
    rw [List.flatMap_append, List.flatMap_singleton, completed_append, Stream.size_append]
    rw [hstore, Store.delimiter_absorb, Store.pending_absorb] at hlast
    rw [hstore] at ih
    omega

theorem evicted_of_create (hs : create config = .ok s) : evictedBytes s.log = 0 := by
  unfold create at hs
  split at hs
  · cases hs
    rfl
  · cases hs

/-- The commands that were completed in a run, oldest first. -/
def completedBy (config : Config) (trace : List (Request × Outcome)) : List Command :=
  completed config.delimiter [] (trace.flatMap taken)

/-- **From the start on, what was evicted and what is live is what was completed.** -/
theorem evictedBytes_of_runs (hs : create config = .ok s) (h : s.Runs trace s') :
    evictedBytes s'.log + Stream.size s'.device.store.live =
      Stream.size (completedBy config trace) := by
  obtain ⟨hv, hstart⟩ := device_of_create hs
  have hempty : s.device.store.live = [] := by
    rw [hstart]
    exact Ring.live_start config.capacity hv
  have hbalance : s.Accounts s' _ := accounts_of_runs h
  rw [Accounts, evicted_of_create hs, hempty, hstart] at hbalance
  exact hbalance.trans (Nat.zero_add _)

/-- **How much was evicted can be told from the bytes taken**: what they complete, less what of it
is retained. -/
theorem evictedBytes_eq_sub (hs : create config = .ok s) (h : s.Runs trace s') :
    evictedBytes s'.log = Stream.size (completedBy config trace) -
      ((finished config.delimiter (trace.flatMap taken)).rtake config.capacity).flatten.length := by
  rw [← live_of_runs hs h, ← Store.size_live, ← evictedBytes_of_runs hs h, Nat.add_sub_cancel]

/-- **Of the commands completed, some at the front were evicted and the others are live**, and
the log tells how many bytes were evicted. -/
theorem completedBy_of_runs (hs : create config = .ok s) (h : s.Runs trace s') :
    ∃ gone, completedBy config trace = gone ++ s'.device.store.live ∧
      Stream.size gone = evictedBytes s'.log := by
  obtain ⟨hv, hstart⟩ := device_of_create hs
  obtain ⟨-, hstore⟩ := store_of_runs h
  have hlive : s'.device.store.live <:+ completedBy config trace := by
    have hempty : (Device.start config hv).store.live = [] := Ring.live_start config.capacity hv
    rw [hstore, hstart, Store.live_absorb, hempty]
    exact List.drop_suffix _ _
  have hbalance := evictedBytes_of_runs hs h
  obtain ⟨gone, hgone⟩ := hlive
  rw [← hgone, Stream.size_append] at hbalance
  exact ⟨gone, hgone.symm, by omega⟩

end Session

end Spool
