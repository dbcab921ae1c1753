import Spool.Proofs.Checked.Store
import Spool.Proofs.Runs

/-!
# Calls that check every step

The calls on a device, and those on a file, on plain data and with each step checked. As long as
the bytes that are live and those that wait can be counted by a word (`Device.Fits`), no
step of a write, a read, a move or a look at what is guarded fails, and each comes to what it
comes to on a device: `Device.write_plain`, `Device.read_plain`, `Device.inspect_plain`,
`File.seek_plain`. The exception is the search for a byte of a command. It fails where it
`Overshoots`: its caller is admitted, there is such a command, and the offset of the byte is no
word, whether or not the command has that byte (`Device.commandOffset_plain`,
`File.seekToCommand_plain`).
-/

namespace Spool

namespace Checked

/-- Feed a chunk that was copied, and work out the length of the stream, to be logged. -/
def feeding (s : Store) (trailing : Trailing) (chunk : Bytes) (q : Quota) :
    Except Mishap (Except Fault Nat × Store) := do
  let fed ← feed s trailing chunk 0 q
  match fed.result with
  | .error _ => return (.error .outOfMemory, fed.store)
  | .ok n =>
    let _ ← fed.store.ring.totalLength
    return (.ok n, fed.store)

/-- Write the bytes of `source`. -/
def write (s : Store) (trailing : Trailing) (source : Source) (q : Quota)
    (admission : Admission) : Except Mishap (Except Fault Nat × Store) :=
  if source.isMissing then return (.error .invalidArgument, s)
  else if source.size = 0 then return (.ok 0, s)
  else match q.grow source.size with
    | .error _ => return (.error .outOfMemory, s)
    | .ok left =>
      match source.copy source.size, admission with
      | none, _ => return (.error .transferFault, s)
      | some _, .refused _ => return (.error .interrupted, s)
      | some chunk, .granted => feeding s trailing chunk left

/-- Read at most `count` bytes at `position` into `sink`. -/
def read (r : Ring) (position : Nat) (sink : Sink) (count : Nat) (admission : Admission) :
    Except Mishap Delivered :=
  if sink.isMissing then return ⟨.error .invalidArgument, position, sink⟩
  else match admission with
    | .refused _ => return ⟨.error .interrupted, position, sink⟩
    | .granted => do
      match ← r.locate position with
      | none => return ⟨.ok 0, position, sink⟩
      | some (command, within) =>
        let n := min count (← sub command.length within)
        let data ← slice command within (← add within n)
        match sink.put data with
        | none => return ⟨.error .transferFault, position, sink⟩
        | some sink => return ⟨.ok n, ← add position n, sink⟩

/-- Look at what is guarded, if the request for the guard is granted. -/
def inspect {α : Type} (admission : Admission) (look : Except Mishap α) :
    Except Mishap (Except Fault α) :=
  match admission with
  | .refused _ => return .error .interrupted
  | .granted => do return .ok (← look)

/-- A position that was worked out, if it was. -/
def settle : Option Nat → Except Fault Nat
  | some position => .ok position
  | none => .error .invalidArgument

/-- Where a file at `position` that is sent to a target goes. -/
def seek (r : Ring) (position : Nat) (target : Target) (admission : Admission) :
    Except Mishap (Except Fault Nat) :=
  match target with
  | .start offset => return .ok offset
  | .current delta => return settle (moveBy position delta)
  | .fromEnd delta => do
    return (← inspect admission r.totalLength).bind fun length => settle (moveBy length delta)

/-- Where a file that is sent to a byte of a live command goes. -/
def seekToCommand (r : Ring) (index within : Nat) (admission : Admission) :
    Except Mishap (Except Fault Nat) := do
  return (← inspect admission (r.offsetOf index within)).bind settle

end Checked

open Checked

/-! ### Calls on the device -/

/-- **Feeding a chunk has no mishap**, and the length of the stream can be worked out then. -/
theorem Store.feeding_plain {s : Store} {trailing : Trailing} {chunk : Bytes} {q : Quota}
    (hl : s.ring.Laid) (hlen : chunk.length < wordLimit)
    (hsize : Stream.size (feeding trailing chunk q s).state.live < wordLimit) :
    Checked.feeding s.plain trailing chunk q =
      .ok ((feeding trailing chunk q s).answer.result,
        (feeding trailing chunk q s).state.plain) := by
  have hfed : Checked.feed s.plain trailing chunk 0 q = .ok ((s.feed trailing chunk q).plain 0) :=
    Store.feed_plain hl hlen (Nat.zero_le _)
  have hafter : (s.feed trailing chunk q).store.ring.Laid := by
    rw [(s.store_feed trailing chunk q).2]
    exact hl.absorb _
  rw [state_feeding] at hsize ⊢
  rw [Checked.feeding, hfed, ok_bind, Fed.plain_zero, feeding]
  cases (s.feed trailing chunk q).result with
  | error e => rfl
  | ok n =>
    have htotal : (s.feed trailing chunk q).store.plain.ring.totalLength =
        .ok (Stream.size (s.feed trailing chunk q).store.live) :=
      Ring.totalLength_plain _ hafter hsize
    simp only [htotal, ok_bind]
    rfl

namespace Device

/-- The bytes that are live and those that wait can be counted by a word. -/
def Fits (d : Device) : Prop := Stream.size d.store.live + d.store.pending.length < wordLimit

instance (d : Device) : Decidable d.Fits := inferInstanceAs (Decidable (_ < _))

variable {d : Device} {admission : Admission}

theorem Fits.size_lt (h : d.Fits) : Stream.size d.store.ring.live < wordLimit :=
  Nat.lt_of_le_of_lt (Nat.le_add_right _ _) h

/-- **A write has no mishap**, however it ends. -/
theorem write_plain (hl : d.store.ring.Laid) (source : Source) (q : Quota)
    (hv : (d.write source q admission).state.Fits) :
    Checked.write d.store.plain d.config.trailing source q admission =
      .ok ((d.write source q admission).answer.result,
        (d.write source q admission).state.store.plain) := by
  rw [Checked.write]
  by_cases hm : source.isMissing = true
  · rw [if_pos hm, write, perform, writePlan, if_pos hm]
    rfl
  rw [if_neg hm]
  by_cases hz : source.size = 0
  · rw [if_pos hz, write, perform, writePlan, if_neg hm, if_pos hz]
    rfl
  rw [if_neg hz]
  cases hq : q.grow source.size with
  | error e => simp [write, perform, writePlan, hm, hz, hq, Plan.run, Cause.fault]
  | ok left =>
    cases hc : source.copy source.size with
    | none => simp [write, perform, writePlan, hm, hz, hq, hc, Plan.run, Cause.fault]
    | some chunk =>
      have hlen := Source.length_copy hc
      have hne : chunk ≠ [] := fun he => hz (by rw [← hlen, he, List.length_nil])
      have hplan := writePlan_copied d.config.trailing hc hne (hlen ▸ hq)
      have hshort := Quota.lt_of_grow_eq_ok hq
      rw [← hlen] at hshort
      cases admission with
      | refused b =>
        rw [write, perform, hplan]
        rfl
      | granted =>
        rw [write, perform, hplan] at hv ⊢
        exact Store.feeding_plain hl (hshort.trans (by decide)) (Fits.size_lt hv)

/-- **A read has no mishap**, wherever it is. -/
theorem read_plain (hl : d.store.ring.Laid) (hf : d.Fits) (position : Nat) (sink : Sink)
    (count : Nat) :
    Checked.read d.store.ring.plain position sink count admission =
      .ok (d.read position sink count admission).answer := by
  unfold Checked.read read perform readPlan
  by_cases hm : sink.isMissing = true
  · simp only [if_pos hm]
    rfl
  simp only [if_neg hm]
  cases admission with
  | refused b => rfl
  | granted =>
    simp only [Plan.run, Store.excerpt]
    rw [d.store.ring.locate_plain hl hf.size_lt, ok_bind, Store.live]
    cases hloc : Stream.locate d.store.ring.live position with
    | none => rfl
    | some found =>
      obtain ⟨c, within⟩ := found
      obtain ⟨index, hs⟩ := Stream.locate_eq_some_iff.mp hloc
      obtain ⟨n, hn⟩ : ∃ n, n = min count (c.bytes.length - within) := ⟨_, rfl⟩
      have hwithin : within < c.bytes.length := hs.within_lt
      have hend : position + n < wordLimit := by
        have hroom := Stream.room_le d.store.ring.live position
        have hpos : position < Stream.size d.store.ring.live := hs.lt_size
        have hsize := hf.size_lt
        rw [hs.room_eq, Command.size] at hroom
        omega
      have hle : within ≤ position := by
        rw [hs.offset_eq]
        exact Nat.le_add_left _ _
      have hdata : (c.bytes.take (within + n)).drop within = (c.bytes.drop within).take count := by
        rw [List.drop_take, Nat.add_sub_cancel_left, List.take_eq_take_iff, List.length_drop, hn]
        omega
      have hlen : ((c.bytes.drop within).take count).length = n := by
        rw [List.length_take, List.length_drop, hn]
      simp only [Option.map_some, sub_eq hwithin.le, ok_bind, ← hn,
        add_eq (show within + n < wordLimit by omega),
        slice_eq (show within ≤ within + n by omega) (show within + n ≤ c.bytes.length by omega),
        hdata, add_eq hend, hlen]
      cases sink.put ((c.bytes.drop within).take count) <;> rfl

/-- **To look at what is guarded has no mishap** if what is looked for has none. -/
theorem inspect_plain {α : Type} {look : Store → α} {checked : Except Mishap α}
    (h : checked = .ok (look d.store)) :
    Checked.inspect admission checked =
      .ok (d.perform (inspectPlan look) admission).answer := by
  cases admission with
  | refused b => rfl
  | granted =>
    rw [h]
    rfl

theorem logicalLength_plain (hl : d.store.ring.Laid) (hf : d.Fits) :
    Checked.inspect admission d.store.ring.plain.totalLength =
      .ok (d.logicalLength admission).answer :=
  inspect_plain (d.store.ring.totalLength_plain hl hf.size_lt)

theorem pendingLength_plain (d : Device) (admission : Admission) :
    Checked.inspect admission (return d.store.assembler.pending.size) =
      .ok (d.pendingLength admission).answer :=
  inspect_plain rfl

theorem liveCommands_plain (hl : d.store.ring.Laid) :
    Checked.inspect admission d.store.ring.plain.walk = .ok (d.liveCommands admission).answer :=
  inspect_plain (d.store.ring.walk_plain hl)

/-- **The search for a byte of a command has a mishap just where it overflows.** -/
theorem commandOffset_plain (hl : d.store.ring.Laid) (hf : d.Fits) (index within : Nat) :
    Checked.inspect admission (d.store.ring.plain.offsetOf index within) =
      match (d.commandOffset index within admission).answer with
      | .error f => .ok (.error f)
      | .ok (.ok offset) => .ok (.ok offset)
      | .ok (.error o) => .error (.overflow o) := by
  cases admission with
  | refused b => rfl
  | granted =>
    rw [d.store.ring.offsetOf_plain hl hf.size_lt]
    have hanswer : (d.commandOffset index within .granted).answer =
        .ok (Stream.offsetOf d.store.ring.live index within) := rfl
    rw [hanswer]
    cases Stream.offsetOf d.store.ring.live index within <;> rfl

/-- A caller is admitted and asks, of a live command there is, for a byte so far on that its
offset is no word. -/
def Overshoots (d : Device) (admission : Admission) (index within : Nat) : Prop :=
  admission = .granted ∧ index < d.store.live.length ∧
    wordLimit ≤ Stream.size (d.store.live.take index) + within

instance (d : Device) (admission : Admission) (index within : Nat) :
    Decidable (d.Overshoots admission index within) :=
  inferInstanceAs (Decidable (_ ∧ _ ∧ _))

/-- **A search overflows just where it overshoots.** -/
theorem commandOffset_eq_error_iff {index within : Nat} {o : Overflow} :
    (d.commandOffset index within admission).answer = .ok (.error o) ↔
      d.Overshoots admission index within := by
  cases admission with
  | refused b =>
    constructor
    · intro h
      cases h
    · rintro ⟨h, -⟩
      cases h
  | granted =>
    have hanswer : (d.commandOffset index within .granted).answer =
        .ok (Stream.offsetOf d.store.live index within) := rfl
    rw [hanswer, Except.ok.injEq, Stream.offsetOf_eq_error_iff, Overshoots]
    exact ⟨fun h => ⟨rfl, h⟩, And.right⟩

end Device

/-! ### Calls on files -/

namespace File

variable {f : File} {d : Device} {admission : Admission}

theorem answer_settle (f : File) (d : Device) (target : Option Nat)
    (records : Nat → List Record) : (f.settle d target records).answer = Checked.settle target := by
  cases target <;> rfl

theorem position_settle (f : File) (d : Device) (target : Option Nat)
    (records : Nat → List Record) :
    (f.settle d target records).state.1.position =
      (Checked.settle target).toOption.getD f.position := by
  cases target <;> rfl

/-- **A move has no mishap**, wherever it goes. -/
theorem seek_plain (hl : d.store.ring.Laid) (hf : d.Fits) (f : File) (target : Target) :
    Checked.seek d.store.ring.plain f.position target admission =
      .ok (f.seek d target admission).answer := by
  cases target with
  | start offset => rfl
  | current delta => exact congrArg Except.ok (f.answer_settle d _ _).symm
  | fromEnd delta =>
    rw [Checked.seek, Device.logicalLength_plain hl hf, seek]
    cases (d.logicalLength admission).answer with
    | error fault => rfl
    | ok length =>
      simp only [answer_settle]
      rfl

theorem position_seek (f : File) (d : Device) (target : Target) (admission : Admission) :
    (f.seek d target admission).state.1.position =
      (f.seek d target admission).answer.toOption.getD f.position := by
  cases target with
  | start offset => rfl
  | current delta =>
    rw [seek, position_settle, answer_settle]
  | fromEnd delta =>
    rw [seek]
    cases (d.logicalLength admission).answer with
    | error fault => rfl
    | ok length => simp only [answer_settle, position_settle]

/-- **A move to a byte of a command has a mishap just where it overflows.** -/
theorem seekToCommand_plain (hl : d.store.ring.Laid) (hf : d.Fits) (f : File)
    (index within : Nat) :
    Checked.seekToCommand d.store.ring.plain index within admission =
      (f.seekToCommand d index within admission).answer.mapError .overflow := by
  rw [Checked.seekToCommand, Device.commandOffset_plain hl hf index within, seekToCommand]
  cases (d.commandOffset index within admission).answer with
  | error fault => rfl
  | ok found =>
    cases found with
    | error o => rfl
    | ok target =>
      simp only [answer_settle]
      rfl

theorem position_seekToCommand {index within : Nat} {result : Except Fault Nat}
    (h : (f.seekToCommand d index within admission).answer = .ok result) :
    (f.seekToCommand d index within admission).state.1.position =
      result.toOption.getD f.position := by
  rw [seekToCommand] at h ⊢
  cases hc : (d.commandOffset index within admission).answer with
  | error fault =>
    rw [hc] at h
    cases h
    rfl
  | ok found =>
    cases found with
    | error o =>
      rw [hc] at h
      cases h
    | ok target =>
      rw [hc] at h
      cases h
      simp only [answer_settle, position_settle]

/-- A move to a byte overflows just where the search for it overshoots. -/
theorem seekToCommand_eq_error_iff {index within : Nat} {o : Overflow} :
    (f.seekToCommand d index within admission).answer = .error o ↔
      d.Overshoots admission index within := by
  rw [← Device.commandOffset_eq_error_iff (o := o), seekToCommand]
  cases (d.commandOffset index within admission).answer with
  | error fault => simp
  | ok found => cases found <;> simp

end File

end Spool
