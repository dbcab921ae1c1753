import Spool.Proofs.Reading
import Spool.Proofs.Runs

/-!
# How calls end

Several things can keep a call from succeeding at once. Which of them its caller is told of
does not depend on what else is the case: the causes have a fixed order, and the first that
holds decides (`Device.writeOutcome`, `Device.readOutcome`). Each cause is a question of its own
about what the caller passed, the memory, the guard or the store, so that all combinations are
covered (`Device.result_write`, `Device.result_read`).

Whatever the fault, a call that fails leaves the device, the file and the memory of its caller
as they were (`Device.fault_changes_nothing`).
-/

namespace Spool

/-! ### The first growths of a write -/

namespace Quota

variable {q left : Quota} {n : Nat}

theorem granted_one_of_grow (hn : 0 < n) (h : q.grow n = .ok left) : q.granted 1 = 1 := by
  obtain hq | hq := q.granted_one
  · rw [grow_eq_error hn hq] at h
    cases h
  · exact hq

theorem granted_eq_zero_iff (hn : 0 < n) : q.granted n = 0 ↔ q.granted 1 = 0 := by
  cases q with
  | unlimited => simp [granted, Nat.ne_of_gt hn]
  | atMost g => simp only [granted]; omega

end Quota

/-- **An assembler takes nothing of a chunk just when no growth is left.** -/
theorem Assembler.append_refused_iff {a : Assembler} {chunk : Bytes} {q : Quota} (hne : chunk ≠ [])
    (hlim : chunk.length < sizeLimit) :
    (a.append chunk q).isOk = false ↔ q.granted 1 = 0 := by
  cases hb : breakAfter a.delimiter chunk with
  | none =>
    have hd := breakAfter_eq_none_iff.mp hb
    have hpos := List.length_pos_iff.mpr hne
    obtain hq | hq := q.granted_one
    · rw [append_uncut_refused hd hne (Quota.grow_eq_error hpos hq)]
      simp [hq, Except.isOk, Except.toBool]
    · rw [append_uncut hd hne (Quota.grow_eq_ok hpos hlim hq)]
      simp [hq, Except.isOk, Except.toBool]
  | some halves =>
    obtain ⟨head, rest⟩ := halves
    have hlen : head.size ≤ chunk.length := by
      rw [← append_of_breakAfter hb, List.length_append, Command.size]
      exact Nat.le_add_right _ _
    obtain hq | hq := q.granted_one
    · rw [append_cut_refused hb (Quota.grow_eq_error head.size_pos hq)]
      simp [hq, Except.isOk, Except.toBool]
    · rw [append_cut hb (Quota.grow_eq_ok head.size_pos (hlen.trans_lt hlim) hq)]
      simp [hq, Except.isOk, Except.toBool]

instance : (sink : Sink) → (n : Nat) → Decidable (sink.Refuses n)
  | .missing, _ => inferInstanceAs (Decidable True)
  | .memory bytes, n => inferInstanceAs (Decidable (bytes.length < n))
  | .faulty, _ => inferInstanceAs (Decidable True)

namespace Device

/-! ### Writes -/

/-- The chunk that a write goes to feed: as much of the caller's memory as it is said to be
long. -/
def fodder (source : Source) : Bytes := source.contents.take source.size

/-- How a write ends. The causes are, in this order: no memory was passed; there is nothing to
write; the copy is refused its growth; the memory cannot be read; the caller is turned away; no
growth is left after that of the copy. If none of them holds, the write takes the segments that
the policy goes for, as many as there are growths left. -/
def writeOutcome (d : Device) (source : Source) (q : Quota) (admission : Admission) :
    Except Fault Nat :=
  let left := q.spend 1
  let goal := d.config.trailing.reach (segments d.store.delimiter (fodder source)).length
  if source.isMissing = true then .error .invalidArgument
  else if source.size = 0 then .ok 0
  else if (q.grow source.size).isOk = false then .error .outOfMemory
  else if source.chunk = none then .error .transferFault
  else if admission ≠ .granted then .error .interrupted
  else if left.granted 1 = 0 then .error .outOfMemory
  else .ok (leading d.store.delimiter (fodder source) (left.granted goal)).length

/-- **The first cause that holds decides how a write ends**, and one that gets as far as the
guard is one that none of the causes before it keeps from it. -/
theorem result_write (d : Device) (source : Source) (q : Quota) (admission : Admission) :
    (d.write source q admission).answer.result = d.writeOutcome source q admission ∧
      ((writePlan d.config.trailing source q).asksGuard = true ↔
        source.isMissing = false ∧ source.size ≠ 0 ∧ (q.grow source.size).isOk = true ∧
          source.chunk ≠ none) := by
  rw [writeOutcome]
  by_cases hm : source.isMissing = true
  · rw [write, perform, writePlan, if_pos hm, if_pos hm]
    simp [Plan.run, Plan.asksGuard, hm]
  rw [if_neg hm]
  by_cases hz : source.size = 0
  · rw [write, perform, writePlan, if_neg hm, if_pos hz, if_pos hz]
    simp [Plan.run, Plan.asksGuard, hz]
  rw [if_neg hz]
  cases hq : q.grow source.size with
  | error e =>
    simp [write, perform, writePlan, hm, hz, hq, Plan.run, Plan.asksGuard, Cause.fault,
      Except.isOk, Except.toBool]
  | ok left =>
    cases hc : source.chunk with
    | none =>
      have hcopy : source.copy source.size = none := hc
      simp [write, perform, writePlan, hm, hz, hq, hcopy, Plan.run, Plan.asksGuard, Cause.fault,
        Except.isOk, Except.toBool]
    | some chunk =>
      obtain ⟨hchunk, hlen⟩ := Source.eq_take_of_chunk hc
      have hne : chunk ≠ [] := fun he => hz (by rw [← hlen, he, List.length_nil])
      have hfodder : fodder source = chunk := hchunk.symm
      have hone := Quota.granted_one_of_grow (Nat.pos_of_ne_zero hz) hq
      -- from here on the guard and the growths that are left decide
      refine ⟨?_, ?_⟩
      · cases admission with
        | refused b =>
          rw [write, perform, writePlan_copied d.config.trailing hc hne (hlen ▸ hq)]
          simp [Plan.run, Except.isOk, Except.toBool]
        | granted =>
          have hlim : chunk.length < sizeLimit := hlen ▸ Quota.lt_of_grow_eq_ok hq
          have hgoal : 0 < d.config.trailing.reach (segments d.store.delimiter chunk).length :=
            Trailing.reach_pos _ (List.length_pos_iff.mpr fun h => hne (segments_eq_nil_iff.mp h))
          obtain ⟨hres, -, -⟩ := d.write_granted hc hne hlim q
          rw [Quota.granted_succ hone, Nat.add_sub_cancel] at hres
          rw [hres, hfodder]
          simp [Quota.granted_eq_zero_iff hgoal, Except.isOk, Except.toBool]
      · rw [writePlan_copied d.config.trailing hc hne (hlen ▸ hq)]
        simp [Plan.asksGuard, hm, hz, Except.isOk, Except.toBool]

theorem quota_write_of_size_eq_zero (d : Device) {source : Source} (h : source.size = 0)
    (q : Quota) (admission : Admission) : (d.write source q admission).answer.quota = q := by
  by_cases hm : source.isMissing = true
  · simp [write, perform, writePlan, hm, Plan.run]
  · simp [write, perform, writePlan, hm, h, Plan.run]

/-- **A write that fails changes nothing.** -/
theorem state_write_of_fault {d : Device} {source : Source} {q : Quota} {admission : Admission}
    {fault : Fault} (h : (d.write source q admission).answer.result = .error fault) :
    (d.write source q admission).state = d := by
  rcases d.write_spec source q admission with ⟨n, -, hres, -⟩ | ⟨-, hstate⟩
  · cases hres.symm.trans h
  · exact hstate

/-! ### Reads -/

/-- How a read ends. The causes are, in this order: no memory was passed; the caller is turned
away; the stream has ended; what is to be delivered cannot be put. -/
def readOutcome (d : Device) (position : Nat) (sink : Sink) (count : Nat) (admission : Admission) :
    Except Fault Nat :=
  let n := min count (Stream.room d.store.live position)
  if sink.isMissing = true then .error .invalidArgument
  else if admission ≠ .granted then .error .interrupted
  else if Stream.size d.store.live ≤ position then .ok 0
  else if sink.Refuses n then .error .transferFault
  else .ok n

/-- **The first cause that holds decides how a read ends.** If it fails, its caller gets back
what it passed. -/
theorem answer_read (d : Device) (position : Nat) (sink : Sink) (count : Nat)
    (admission : Admission) :
    (d.read position sink count admission).answer.result =
        d.readOutcome position sink count admission ∧
      ∀ fault, (d.read position sink count admission).answer.result = .error fault →
        (d.read position sink count admission).answer = ⟨.error fault, position, sink⟩ := by
  rw [readOutcome]
  by_cases hm : sink.isMissing = true
  · cases sink with
    | missing =>
      rw [read_missing]
      exact ⟨rfl, fun fault h => by cases h; rfl⟩
    | memory | faulty => cases hm
  rw [if_neg hm]
  have hm' : sink.isMissing = false := by simpa using hm
  cases admission with
  | refused b =>
    rw [answer_read_refused d position count hm', if_pos (by simp)]
    exact ⟨rfl, fun fault h => by cases h; rfl⟩
  | granted =>
    rw [answer_read_granted d position count hm', if_neg (not_not_intro rfl)]
    by_cases hend : Stream.size d.store.live ≤ position
    · rw [if_pos hend, if_pos hend]
      exact ⟨rfl, fun fault h => by cases h⟩
    · rw [if_neg hend, if_neg hend]
      have hlen := Stream.length_portion d.store.live position count
      cases hput : sink.put (Stream.portion d.store.live position count) with
      | none =>
        rw [if_pos (hlen ▸ Sink.put_eq_none_iff.mp hput)]
        simp only [hput]
        exact ⟨trivial, fun fault h => by cases h; rfl⟩
      | some after =>
        have hrefuses : ¬ sink.Refuses (min count (Stream.room d.store.live position)) := by
          rw [← hlen, ← Sink.put_eq_none_iff, hput]
          simp
        rw [if_neg hrefuses]
        simp only [hput]
        exact ⟨congrArg Except.ok hlen, fun fault h => by cases h⟩

end Device

/-! ### Calls on files -/

namespace File

variable {f : File} {d : Device} {admission : Admission} {fault : Fault}

theorem state_settle_of_fault {target : Option Nat} {records : Nat → List Record}
    (h : (f.settle d target records).answer = .error fault) :
    (f.settle d target records).state = (f, d) := by
  cases target with
  | none => rfl
  | some position => cases h

theorem state_seek_of_fault {target : Target}
    (h : (f.seek d target admission).answer = .error fault) :
    (f.seek d target admission).state = (f, d) := by
  cases target with
  | start offset => cases h
  | current delta => exact state_settle_of_fault h
  | fromEnd delta =>
    have hstate : (d.logicalLength admission).state = d := d.state_inspect _ admission
    rw [seek] at h ⊢
    simp only [hstate] at h ⊢
    split at h
    · rfl
    · exact state_settle_of_fault h

theorem state_seekToCommand_of_fault {index within : Nat}
    (h : (f.seekToCommand d index within admission).answer = .ok (.error fault)) :
    (f.seekToCommand d index within admission).state = (f, d) := by
  have hstate : (d.commandOffset index within admission).state = d := d.state_inspect _ admission
  rw [seekToCommand] at h ⊢
  simp only [hstate] at h ⊢
  split at h
  · rfl
  · cases h
  · exact state_settle_of_fault (Except.ok.inj h)

theorem state_read_of_fault {buffer : Bytes}
    (h : (f.read d buffer admission).answer.1 = .error fault) :
    (f.read d buffer admission).state = (f, d) ∧ (f.read d buffer admission).answer.2 = buffer := by
  obtain ⟨-, hfault⟩ := d.answer_read f.position (.memory buffer) buffer.length admission
  have hanswer := hfault fault h
  have hdevice := f.state_read d buffer admission
  constructor
  · refine Prod.ext ?_ hdevice
    simp only [read, hanswer]
  · simp only [read, hanswer]
    rfl

end File

/-! ### The whole -/

namespace Device

/-- **A call that fails changes nothing**, and which fault it reports is settled in a fixed
order. A write and a read end as the first of their causes has it; that no growth is left after
the copy is to say that the assembler is refused its first one. A write of nothing takes no
memory and does not ask for the guard. A write that fails leaves the device as it was, a read
that fails leaves the device, the position and the caller's memory, and a file that fails to
move stays where it is. -/
theorem fault_changes_nothing (d : Device) :
    (∀ (source : Source) (q : Quota) (admission : Admission),
      let e := d.write source q admission
      let plan := writePlan d.config.trailing source q
      e.answer.result = d.writeOutcome source q admission ∧
      (plan.asksGuard = true ↔ source.isMissing = false ∧ source.size ≠ 0 ∧
        (q.grow source.size).isOk = true ∧ source.chunk ≠ none) ∧
      (∀ chunk, source.chunk = some chunk → chunk ≠ [] → chunk.length < sizeLimit →
        ((d.store.assembler.append chunk (q.spend 1)).isOk = false ↔ (q.spend 1).granted 1 = 0)) ∧
      (source.size = 0 → plan.asksGuard = false ∧ e.answer.quota = q) ∧
      ∀ fault, e.answer.result = .error fault → e.state = d) ∧
    (∀ (position : Nat) (sink : Sink) (count : Nat) (admission : Admission),
      let e := d.read position sink count admission
      e.answer.result = d.readOutcome position sink count admission ∧
      ∀ fault, e.answer.result = .error fault →
        e.state = d ∧ e.answer.position = position ∧ e.answer.sink = sink) ∧
    (∀ (f : File) (admission : Admission) (fault : Fault),
      (∀ bytes q, (f.write d bytes q admission).answer.result = .error fault →
        (f.write d bytes q admission).state = (f, d)) ∧
      (∀ buffer, (f.read d buffer admission).answer.1 = .error fault →
        (f.read d buffer admission).state = (f, d) ∧
          (f.read d buffer admission).answer.2 = buffer) ∧
      (∀ target, (f.seek d target admission).answer = .error fault →
        (f.seek d target admission).state = (f, d)) ∧
      ∀ index within, (f.seekToCommand d index within admission).answer = .ok (.error fault) →
        (f.seekToCommand d index within admission).state = (f, d)) := by
  refine ⟨?_, ?_, ?_⟩
  · intro source q admission e plan
    obtain ⟨hres, hguard⟩ := d.result_write source q admission
    refine ⟨hres, hguard, ?_, ?_, fun fault h => state_write_of_fault h⟩
    · intro chunk _ hne hlim
      exact Assembler.append_refused_iff hne hlim
    intro hz
    refine ⟨?_, d.quota_write_of_size_eq_zero hz q admission⟩
    rw [← Bool.not_eq_true, hguard]
    exact fun h => h.2.1 hz
  · intro position sink count admission e
    obtain ⟨hres, hfault⟩ := d.answer_read position sink count admission
    refine ⟨hres, fun fault h => ?_⟩
    have hanswer : e.answer = _ := hfault fault h
    rw [hanswer]
    exact ⟨d.state_read position sink count admission, rfl, rfl⟩
  · intro f admission fault
    refine ⟨?_, ?_, ?_, ?_⟩
    · intro bytes q h
      exact Prod.ext rfl (state_write_of_fault h)
    · intro buffer h
      exact File.state_read_of_fault h
    · intro target h
      exact File.state_seek_of_fault h
    · intro index within h
      exact File.state_seekToCommand_of_fault h

/-- Memory that cannot be read, no memory for the copy and a caller that is turned away: the
write runs out of memory. With memory for the copy it comes upon the address, and from an address
that can be read it runs out of memory again. -/
theorem fault_changes_nothing_of_three_causes :
    let d := standard
    let source : Source := .claimed 5 [97, 98]
    (d.write source (.atMost 0) (.refused true)).answer.result = .error .outOfMemory ∧
      (d.write source (.atMost 1) (.refused true)).answer.result = .error .transferFault ∧
      (d.write source (.atMost 1) (.refused true)).state = d ∧
      (d.write (.memory [97, 98]) (.atMost 1) .granted).answer.result = .error .outOfMemory ∧
      (d.read 0 .faulty 5 .granted).answer.result = .ok 0 := by
  intro d source
  obtain ⟨hwrite, hread, -⟩ := fault_changes_nothing d
  obtain ⟨hfirst, -⟩ := hwrite source (.atMost 0) (.refused true)
  obtain ⟨hsecond, -, -, -, hstate⟩ := hwrite source (.atMost 1) (.refused true)
  obtain ⟨hthird, -⟩ := hwrite (.memory [97, 98]) (.atMost 1) .granted
  obtain ⟨hend, -⟩ := hread 0 .faulty 5 .granted
  have hfault : (d.write source (.atMost 1) (.refused true)).answer.result =
      .error .transferFault := by
    rw [hsecond]
    rfl
  refine ⟨?_, hfault, hstate .transferFault hfault, ?_, ?_⟩
  · rw [hfirst]
    rfl
  · rw [hthird]
    rfl
  · rw [hend]
    rfl

end Device

end Spool
