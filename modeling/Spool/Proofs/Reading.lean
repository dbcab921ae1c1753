import Spool.Proofs.Offsets
import Spool.File

/-!
# Single reads

A read delivers the next bytes of the stream from its position on, at most as many as are
asked for and none beyond the end of a command: this is the `portion` of the stream that it
comes to. What the caller finds afterwards depends on nothing else. If the portion fits into
the caller's memory it has replaced the first bytes there, and the position has moved on by
its length (`Device.answer_read_memory`); otherwise the read fails. At the end of the stream the
portion is empty, and a read of it succeeds even where nothing could be put
(`Device.answer_read_faulty`). So whatever a caller passes, a read that succeeds has delivered
the portion (`Device.read_ok`).
-/

namespace Spool

/-! ### What a read comes to -/

/-- What a read of `count` bytes at `position` delivers: the next bytes of the stream, up to
the end of a command. -/
def Stream.portion (commands : List Command) (position count : Nat) : Bytes :=
  ((bytes commands).drop position).take (min count (room commands position))

theorem Stream.length_portion (commands : List Command) (position count : Nat) :
    (portion commands position count).length = min count (room commands position) := by
  have h := room_le commands position
  rw [portion, List.length_take, List.length_drop, length_bytes]
  omega

theorem Stream.portion_of_size_le {commands : List Command} {position : Nat}
    (h : size commands ≤ position) (count : Nat) : portion commands position count = [] := by
  rw [portion, room_eq_zero_iff.mpr h, Nat.min_zero, List.take_zero]

theorem Stream.Stands.portion_eq {commands : List Command} {index within position : Nat}
    {c : Command} (h : Stands commands index within c position) (count : Nat) :
    portion commands position count = (c.bytes.drop within).take count :=
  (h.take_drop_bytes count).symm

/-- **A store hands out the portion**, unless the stream has ended. -/
theorem Store.excerpt_eq (s : Store) (position count : Nat) :
    s.excerpt position count =
      if Stream.size s.live ≤ position then none
      else some (Stream.portion s.live position count) := by
  rw [excerpt]
  split
  · rename_i h
    rw [Stream.locate_eq_none_iff.mpr h]
    rfl
  · rename_i h
    obtain ⟨index, within, c, hs⟩ := Stream.exists_stands (Nat.lt_of_not_le h)
    rw [Stream.locate_eq_some_iff.mpr ⟨index, hs⟩, hs.portion_eq]
    rfl

namespace Sink

/-- Whether `n` bytes cannot be put into a caller's memory. -/
def Refuses : Sink → Nat → Prop
  | memory bytes, n => bytes.length < n
  | _, _ => True

theorem put_eq_none_iff {sink : Sink} {data : Bytes} :
    sink.put data = none ↔ sink.Refuses data.length := by
  cases sink with
  | missing => simp [put, Refuses]
  | faulty => simp [put, Refuses]
  | memory bytes => simp [put, Refuses]

end Sink

/-! ### What the caller finds -/

namespace Device

variable {d : Device} {position count n : Nat} {sink : Sink} {admission : Admission}

theorem read_missing (d : Device) (position count : Nat) (admission : Admission) :
    d.read position .missing count admission =
      ⟨⟨.error .invalidArgument, position, .missing⟩, d, []⟩ := by
  cases admission <;> rfl

theorem answer_read_refused (d : Device) (position count : Nat) (hm : sink.isMissing = false)
    (b : Bool) :
    (d.read position sink count (.refused b)).answer = ⟨.error .interrupted, position, sink⟩ := by
  rw [read, perform, readPlan, if_neg (by simp [hm])]
  rfl

/-- Who is admitted gets the portion if it can be put. -/
theorem answer_read_granted (d : Device) (position count : Nat) (hm : sink.isMissing = false) :
    (d.read position sink count .granted).answer =
      if Stream.size d.store.live ≤ position then ⟨.ok 0, position, sink⟩
      else
        let data := Stream.portion d.store.live position count
        match sink.put data with
        | none => ⟨.error .transferFault, position, sink⟩
        | some after => ⟨.ok data.length, position + data.length, after⟩ := by
  have hx := d.store.excerpt_eq position count
  rw [read, perform, readPlan, if_neg (by simp [hm])]
  by_cases h : Stream.size d.store.live ≤ position
  · rw [if_pos h] at hx ⊢
    simp only [Plan.run, hx]
  · rw [if_neg h] at hx ⊢
    simp only [Plan.run, hx]
    cases sink.put (Stream.portion d.store.live position count) <;> rfl

/-- **A read into memory** delivers the portion if it fits. -/
theorem answer_read_memory (d : Device) (position count : Nat) (bytes : Bytes) :
    let data := Stream.portion d.store.live position count
    (d.read position (.memory bytes) count .granted).answer =
      if data.length ≤ bytes.length then
        ⟨.ok data.length, position + data.length, .memory (data ++ bytes.drop data.length)⟩
      else ⟨.error .transferFault, position, .memory bytes⟩ := by
  intro data
  rw [answer_read_granted d position count rfl]
  split
  · rename_i h
    have hdata : data = [] := Stream.portion_of_size_le h count
    simp [hdata]
  · by_cases hle : data.length ≤ bytes.length
    · rw [if_pos hle]
      simp only [Sink.put, data, if_pos hle]
    · rw [if_neg hle]
      simp only [Sink.put, data, if_neg hle]

/-- **A read into memory that cannot be written** succeeds just at the end of the stream. -/
theorem answer_read_faulty (d : Device) (position count : Nat) :
    (d.read position .faulty count .granted).answer =
      if Stream.size d.store.live ≤ position then ⟨.ok 0, position, .faulty⟩
      else ⟨.error .transferFault, position, .faulty⟩ :=
  answer_read_granted d position count rfl

/-- **A read that succeeds has delivered the portion**: its length is the answer, the position
has moved on by it, and in the caller's memory only the first bytes have changed. -/
theorem read_ok (h : (d.read position sink count admission).answer.result = .ok n) :
    let data := Stream.portion d.store.live position count
    n = data.length ∧ (d.read position sink count admission).answer.position = position + n ∧
      (d.read position sink count admission).answer.sink.contents =
        data ++ sink.contents.drop n := by
  intro data
  cases admission with
  | refused b =>
    cases hm : sink.isMissing with
    | false => simp [answer_read_refused d position count hm b] at h
    | true =>
      rw [read, perform, readPlan, if_pos hm] at h
      cases h
  | granted =>
    cases sink with
    | missing => simp [read_missing] at h
    | memory bytes =>
      rw [answer_read_memory] at h ⊢
      split at h
      · rename_i hle
        cases h
        rw [if_pos hle]
        exact ⟨rfl, rfl, rfl⟩
      · cases h
    | faulty =>
      rw [answer_read_faulty] at h ⊢
      split at h
      · rename_i hle
        cases h
        have hdata : data = [] := Stream.portion_of_size_le hle count
        rw [if_pos hle, hdata]
        exact ⟨rfl, rfl, rfl⟩
      · cases h

end Device

/-- **A read of a file** that is admitted always succeeds. -/
theorem File.read_granted (f : File) (d : Device) (buffer : Bytes) :
    let data := Stream.portion d.store.live f.position buffer.length
    (f.read d buffer .granted).answer = (.ok data.length, data ++ buffer.drop data.length) ∧
      (f.read d buffer .granted).state.1.position = f.position + data.length := by
  intro data
  have hle : data.length ≤ buffer.length := by
    rw [Stream.length_portion]
    exact Nat.min_le_left _ _
  have h : (d.read f.position (.memory buffer) buffer.length .granted).answer = _ :=
    (d.answer_read_memory f.position buffer.length buffer).trans (if_pos hle)
  simp only [File.read, h]
  exact ⟨rfl, rfl⟩

end Spool
