import Spool.Proofs.Feeding
import Spool.Device

/-!
# Single writes

A write is over before it asks for the guard, or it has copied a chunk that is not empty
and feeds it to the store (`writePlan_cases`). Either way it stores exactly what it
reports: a write that answers `n` has had the first `n` bytes of the caller's memory
absorbed, and one that fails has changed nothing (`Device.write_spec`). Under a quota the
answer is known in advance: `Device.write_granted` counts the segments that the quota pays
for, one growth having gone to the copy.
-/

namespace Spool

/-- The bytes that a source can give. -/
def Source.contents : Source → Bytes
  | missing => []
  | memory bytes => bytes
  | claimed _ bytes => bytes

/-- The chunk that a write copies from a source, if the copy does not fault. -/
def Source.chunk (source : Source) : Option Bytes := source.copy source.size

theorem Source.chunk_memory (bytes : Bytes) : (memory bytes).chunk = some bytes := by
  simp [chunk, copy, size]

theorem Source.eq_take_of_chunk {source : Source} {chunk : Bytes} (h : source.chunk = some chunk) :
    chunk = source.contents.take source.size ∧ chunk.length = source.size := by
  refine ⟨?_, length_copy h⟩
  cases source with
  | missing => cases h
  | memory bytes =>
    rw [Source.chunk, copy, if_pos (show (memory bytes).size ≤ bytes.length from le_rfl)] at h
    exact (Option.some.inj h).symm
  | claimed size bytes =>
    rw [Source.chunk, copy] at h
    split at h
    · exact (Option.some.inj h).symm
    · cases h

theorem Source.not_isMissing_of_chunk {source : Source} {chunk : Bytes}
    (h : source.chunk = some chunk) : source.isMissing = false := by
  cases source with
  | missing => cases h
  | memory bytes => rfl
  | claimed size bytes => rfl

/-- The critical section of a write that has copied `chunk`. -/
def feeding (trailing : Trailing) (chunk : Bytes) (q : Quota) (store : Store) :
    Effect Store Written :=
  let fed := store.feed trailing chunk q
  match fed.result with
  | .error s => ⟨⟨.error (Cause.shortage s).fault, fed.quota⟩, fed.store, fed.records⟩
  | .ok n =>
    ⟨⟨.ok n, fed.quota⟩, fed.store, fed.records ++ [.accepted n chunk.length fed.store.describe]⟩

variable {trailing : Trailing} {source : Source} {chunk : Bytes} {q left : Quota}

theorem writePlan_copied (trailing : Trailing) (hc : source.chunk = some chunk) (hne : chunk ≠ [])
    (hq : q.grow chunk.length = .ok left) :
    writePlan trailing source q =
      .guarded [.writing chunk.length] ⟨.error .interrupted, left⟩
        (feeding trailing chunk left) := by
  have hlen := (Source.eq_take_of_chunk hc).2
  have hz : source.size ≠ 0 := hlen ▸ Nat.ne_of_gt (List.length_pos_iff.mpr hne)
  have hcopy : source.copy source.size = some chunk := hc
  rw [hlen] at hq ⊢
  simp only [writePlan, Source.not_isMissing_of_chunk hc, hz, hq, hcopy, Bool.false_eq_true,
    ↓reduceIte, Cause.fault]
  congr 1
  funext store
  rw [feeding, hlen]
  rfl

theorem writePlan_refused {e : Shortage} (hc : source.chunk = some chunk) (hne : chunk ≠ [])
    (hq : q.grow chunk.length = .error e) :
    writePlan trailing source q = .done ⟨.error .outOfMemory, q⟩ [.writing chunk.length] := by
  have hlen := (Source.eq_take_of_chunk hc).2
  have hz : source.size ≠ 0 := hlen ▸ Nat.ne_of_gt (List.length_pos_iff.mpr hne)
  rw [hlen] at hq ⊢
  simp [writePlan, Source.not_isMissing_of_chunk hc, hz, hq, Cause.fault]

/-- **A write is over early or feeds a chunk.** One that is over early stores nothing and
reports nothing stored. -/
theorem writePlan_cases (trailing : Trailing) (source : Source) (q : Quota) :
    (∃ answer records, writePlan trailing source q = .done answer records ∧
      (answer.result = .ok 0 ∨ ∃ f, answer.result = .error f ∧ f ≠ .interrupted)) ∨
    ∃ chunk left, source.chunk = some chunk ∧ chunk ≠ [] ∧ q.grow chunk.length = .ok left ∧
      writePlan trailing source q =
        .guarded [.writing chunk.length] ⟨.error .interrupted, left⟩
          (feeding trailing chunk left) := by
  by_cases hm : source.isMissing = true
  · exact .inl ⟨_, _, by rw [writePlan, if_pos hm], .inr ⟨_, rfl, by decide⟩⟩
  by_cases hz : source.size = 0
  · exact .inl ⟨_, _, by rw [writePlan, if_neg hm, if_pos hz], .inl rfl⟩
  cases hq : q.grow source.size with
  | error e =>
    refine .inl ⟨⟨.error .outOfMemory, q⟩, [.writing source.size], ?_, .inr ⟨_, rfl, by decide⟩⟩
    simp [writePlan, hm, hz, hq, Cause.fault]
  | ok left =>
    cases hc : source.chunk with
    | none =>
      have hcopy : source.copy source.size = none := hc
      refine .inl ⟨⟨.error .transferFault, left⟩, [.writing source.size], ?_,
        .inr ⟨_, rfl, by decide⟩⟩
      simp [writePlan, hm, hz, hq, hcopy, Cause.fault]
    | some chunk =>
      have hlen := (Source.eq_take_of_chunk hc).2
      rw [← hlen] at hq hz
      have hne : chunk ≠ [] := fun he => hz (by rw [he, List.length_nil])
      exact .inr ⟨chunk, left, rfl, hne, hq, writePlan_copied trailing hc hne hq⟩

@[simp] theorem state_feeding (trailing : Trailing) (chunk : Bytes) (q : Quota) (s : Store) :
    (feeding trailing chunk q s).state = (s.feed trailing chunk q).store := by
  rw [feeding]
  cases (s.feed trailing chunk q).result <;> rfl

@[simp] theorem quota_feeding (trailing : Trailing) (chunk : Bytes) (q : Quota) (s : Store) :
    (feeding trailing chunk q s).answer.quota = (s.feed trailing chunk q).quota := by
  rw [feeding]
  cases (s.feed trailing chunk q).result <;> rfl

/-- A feeding that is refused its first growth fails; any other reports what it took. -/
theorem result_feeding (trailing : Trailing) (chunk : Bytes) (q : Quota) (s : Store) :
    (feeding trailing chunk q s).answer.result =
      if (s.feed trailing chunk q).shortage ≠ none ∧ (s.feed trailing chunk q).accepted = 0 then
        .error .outOfMemory
      else .ok (s.feed trailing chunk q).accepted := by
  rw [feeding, Fed.result]
  cases hs : (s.feed trailing chunk q).shortage with
  | none => simp
  | some e =>
    by_cases ha : (s.feed trailing chunk q).accepted = 0
    · simp [ha, Cause.fault]
    · simp [ha]

/-- **A feeding stores what it reports**, and nothing if it fails. -/
theorem feeding_spec (trailing : Trailing) (chunk : Bytes) (q : Quota) (s : Store) :
    (∃ n ≤ chunk.length, (feeding trailing chunk q s).answer.result = .ok n ∧
      n = (s.feed trailing chunk q).accepted ∧
      (feeding trailing chunk q s).state = s.absorb (chunk.take n)) ∨
    (feeding trailing chunk q s).answer.result = .error .outOfMemory ∧
      (feeding trailing chunk q s).state = s := by
  obtain ⟨hle, hstore⟩ := s.store_feed trailing chunk q
  rw [result_feeding, state_feeding]
  split
  · rename_i h
    exact .inr ⟨rfl, by rw [hstore, h.2]; rfl⟩
  · exact .inl ⟨_, hle, rfl, rfl, hstore⟩

namespace Device

/-- The device after it has taken `bytes`, with all the memory it needs. -/
def absorb (d : Device) (bytes : Bytes) : Device := { d with store := d.store.absorb bytes }

@[simp] theorem absorb_nil (d : Device) : d.absorb [] = d := rfl

@[simp] theorem store_absorb (d : Device) (bytes : Bytes) :
    (d.absorb bytes).store = d.store.absorb bytes := rfl

theorem absorb_append (d : Device) (a b : Bytes) : d.absorb (a ++ b) = (d.absorb a).absorb b := by
  rw [absorb, Store.absorb_append]
  rfl

/-- **A write stores what it reports**: the first `n` bytes of the memory it was given if
it answers `n`, and nothing if it fails. -/
theorem write_spec (d : Device) (source : Source) (q : Quota) (admission : Admission) :
    (∃ n ≤ source.contents.length, (d.write source q admission).answer.result = .ok n ∧
      (d.write source q admission).state = d.absorb (source.contents.take n)) ∨
    (∃ f, (d.write source q admission).answer.result = .error f) ∧
      (d.write source q admission).state = d := by
  unfold write perform
  obtain ⟨answer, records, hplan, hres⟩ | ⟨chunk, left, hc, -, -, hplan⟩ :=
    writePlan_cases d.config.trailing source q
  · rw [hplan]
    obtain hres | ⟨f, hres, -⟩ := hres
    · exact .inl ⟨0, Nat.zero_le _, hres, rfl⟩
    · exact .inr ⟨⟨f, hres⟩, rfl⟩
  · rw [hplan]
    cases admission with
    | refused b => exact .inr ⟨⟨_, rfl⟩, rfl⟩
    | granted =>
      obtain ⟨htake, hsize⟩ := Source.eq_take_of_chunk hc
      have hlen : chunk.length ≤ source.contents.length := by
        rw [htake, List.length_take]
        exact Nat.min_le_right _ _
      obtain ⟨n, hn, hres, -, hstate⟩ | ⟨hres, hstate⟩ :=
        feeding_spec d.config.trailing chunk left d.store
      · have hprefix : chunk.take n = source.contents.take n := by
          rw [htake, List.take_take, Nat.min_eq_left (hn.trans hsize.le)]
        refine .inl ⟨n, hn.trans hlen, hres, ?_⟩
        rw [absorb, ← hprefix, ← hstate]
        rfl
      · refine .inr ⟨⟨_, hres⟩, ?_⟩
        show { d with store := (feeding d.config.trailing chunk left d.store).state } = d
        rw [hstate]

/-- **A write under a quota**: one growth goes to the copy, and each of the others gets a
segment stored. A write that gets no segment stored fails. -/
theorem write_granted (d : Device) (hc : source.chunk = some chunk) (hne : chunk ≠ [])
    (hlim : chunk.length < sizeLimit) (q : Quota) :
    let goal := d.config.trailing.reach (segments d.store.delimiter chunk).length
    let k := q.granted (goal + 1) - 1
    let e := d.write source q .granted
    e.answer.result =
        (if k = 0 then .error .outOfMemory else .ok (leading d.store.delimiter chunk k).length) ∧
      e.state = d.absorb (leading d.store.delimiter chunk k) ∧
      (0 < k → e.answer.quota = q.spend (k + 1)) := by
  intro goal k e
  have hpos : 0 < chunk.length := List.length_pos_iff.mpr hne
  obtain hq | hq := q.granted_one
  · -- the copy is refused
    have hk : k = 0 := by simp only [k, Quota.granted_eq_zero hq, Nat.zero_sub]
    have he : e = ⟨⟨.error .outOfMemory, q⟩, d, [.writing chunk.length]⟩ := by
      simp only [e, write, perform, writePlan_refused hc hne (Quota.grow_eq_error hpos hq)]
      rfl
    rw [he, hk]
    exact ⟨rfl, rfl, fun h => absurd h (Nat.lt_irrefl 0)⟩
  · have hk : k = (q.spend 1).granted goal := by
      simp only [k, Quota.granted_succ hq, Nat.add_sub_cancel]
    obtain ⟨hacc, hleft, hshort⟩ := d.store.accepted_feed d.config.trailing (q.spend 1) hlim
    obtain ⟨-, hstore⟩ := d.store.store_feed d.config.trailing chunk (q.spend 1)
    rw [← hk] at hacc hleft hshort
    have hplan := writePlan_copied d.config.trailing hc hne
      (Quota.grow_eq_ok hpos hlim hq)
    have hres : e.answer.result =
        (feeding d.config.trailing chunk (q.spend 1) d.store).answer.result := by
      simp only [e, write, perform, hplan]
      rfl
    have hstate : e.state =
        { d with store := (d.store.feed d.config.trailing chunk (q.spend 1)).store } := by
      simp only [e, write, perform, hplan, ← state_feeding]
      rfl
    have hquota : e.answer.quota = (d.store.feed d.config.trailing chunk (q.spend 1)).quota := by
      simp only [e, write, perform, hplan, ← quota_feeding]
      rfl
    refine ⟨?_, ?_, fun _ => ?_⟩
    · rw [hres, result_feeding, hacc]
      by_cases h0 : k = 0
      · have hgoal : 0 < goal := d.config.trailing.reach_pos
          (List.length_pos_iff.mpr fun h => hne (segments_eq_nil_iff.mp h))
        have hsome := fun h => Nat.ne_of_lt hgoal (h0.symm.trans (hshort.mp h))
        rw [if_pos ⟨hsome, by rw [h0]; rfl⟩, if_pos h0]
      · have htaken := length_leading_pos d.store.delimiter (Nat.pos_of_ne_zero h0) hne
        rw [if_neg fun h => Nat.ne_of_gt htaken h.2, if_neg h0]
    · rw [hstate, hstore, hacc, take_length_leading, absorb]
    · rw [hquota, hleft, Quota.spend_spend, Nat.add_comm]

end Device

end Spool
