import Spool.Proofs.Writing
import Spool.File

/-!
# Submitting all bytes

A caller who writes what was not taken again, until all is taken, gets the same stored
under both policies: the bytes as far as the memory goes, segment by segment
(`File.writeAll_granted`). Under `retain` one write does it; under `discard` every segment
has a write of its own (`Trailing.rounds`), and with it a copy of its own to pay for
(`Trailing.affordable`).

With all the memory it needs, neither the policy nor the cuts that a caller makes can be
seen in what is stored. With a budget it is known how far a write and a submission come
(`Trailing.paidOnce`, `Trailing.paid`), and that they leave the store as if the bytes they
did not store had never been there.
-/

namespace Spool

/-! ### Segments and growths -/

namespace Trailing

/-- How many of `n` segments a submission gets stored under a quota. A write has its copy
and its segments to pay for, and under `discard` every segment is written by itself. -/
def affordable (q : Quota) (n : Nat) : Trailing → Nat
  | discard => q.granted (2 * n) / 2
  | retain => q.granted (n + 1) - 1

/-- How many writes it takes to get `n` segments stored. -/
def rounds (n : Nat) : Trailing → Nat
  | discard => n
  | retain => min n 1

end Trailing

namespace Quota

theorem granted_add_two {q : Quota} (h : q.granted 2 = 2) (k : Nat) :
    q.granted (k + 2) = (q.spend 2).granted k + 2 := by
  cases q with
  | unlimited => rfl
  | atMost n => simp only [granted, spend] at h ⊢; omega

theorem granted_spend_eq_zero {q : Quota} {k n : Nat} (h : q.granted n = k) (hk : k < n) (m : Nat) :
    (q.spend k).granted m = 0 := by
  cases q with
  | unlimited => simp only [granted] at h; omega
  | atMost g => simp only [granted, spend] at h ⊢; omega

end Quota

namespace File

variable {f : File} {d : Device} {bytes : Bytes} {q : Quota} {n : Nat} {admission : Admission}

/-! ### One round -/

theorem writeAll_nil (f : File) (d : Device) (q : Quota) (admission : Admission) :
    f.writeAll d [] q admission = ⟨⟨.complete, 0, q⟩, (f, d), []⟩ := by
  rw [writeAll, if_pos rfl]

theorem writeAll_failed {fault : Fault} (hne : bytes ≠ [])
    (h : (f.write d bytes q admission).answer.result = .error fault) :
    (f.writeAll d bytes q admission).answer.outcome = .failed fault ∧
      (f.writeAll d bytes q admission).state = (f.write d bytes q admission).state := by
  rw [writeAll, if_neg hne]
  simp only [h, and_self]

/-- A write that takes bytes is followed by the submission of the others. -/
theorem writeAll_ok (hne : bytes ≠ [])
    (h : (f.write d bytes q admission).answer.result = .ok n) (hn : 0 < n) :
    let e := f.write d bytes q admission
    let more := e.state.1.writeAll e.state.2 (bytes.drop n) e.answer.quota admission
    (f.writeAll d bytes q admission).answer.outcome = more.answer.outcome ∧
      (f.writeAll d bytes q admission).answer.writes = more.answer.writes + 1 ∧
      (f.writeAll d bytes q admission).state = more.state := by
  intro e more
  rw [writeAll, if_neg hne]
  simp only [h, hn, if_true]
  exact ⟨rfl, rfl, rfl⟩

theorem write_granted (f : File) (d : Device) (hne : bytes ≠ []) (hlim : bytes.length < sizeLimit)
    (q : Quota) :
    let goal := d.config.trailing.reach (segments d.store.delimiter bytes).length
    let k := q.granted (goal + 1) - 1
    let e := f.write d bytes q .granted
    e.answer.result =
        (if k = 0 then .error .outOfMemory else .ok (leading d.store.delimiter bytes k).length) ∧
      e.state = (f, d.absorb (leading d.store.delimiter bytes k)) ∧
      (0 < k → e.answer.quota = q.spend (k + 1)) := by
  intro goal k e
  obtain ⟨hres, hstate, hquota⟩ := d.write_granted (Source.chunk_memory bytes) hne hlim q
  exact ⟨hres, congrArg (Prod.mk f) hstate, hquota⟩

/-- **One round of a submission**: if memory gets `k` segments stored, the others are
submitted with what is left of it. -/
theorem writeAll_round (f : File) (d : Device) (hne : bytes ≠ []) (hlim : bytes.length < sizeLimit)
    (q : Quota) :
    let goal := d.config.trailing.reach (segments d.store.delimiter bytes).length
    let k := q.granted (goal + 1) - 1
    let e := f.writeAll d bytes q .granted
    let more := f.writeAll (d.absorb (leading d.store.delimiter bytes k))
      (remaining d.store.delimiter bytes k) (q.spend (k + 1)) .granted
    (k = 0 → e.answer.outcome = .failed .outOfMemory ∧ e.state = (f, d)) ∧
      (0 < k → e.answer.outcome = more.answer.outcome ∧
        e.answer.writes = more.answer.writes + 1 ∧ e.state = more.state) := by
  intro goal k e more
  obtain ⟨hres, hstate, hquota⟩ := f.write_granted d hne hlim q
  refine ⟨fun hk => ?_, fun hk => ?_⟩
  · rw [if_pos hk] at hres
    obtain ⟨hout, hfinal⟩ := writeAll_failed hne hres
    exact ⟨hout, by rw [show e.state = _ from hfinal, hstate, show q.granted _ - 1 = 0 from hk,
      leading_zero, Device.absorb_nil]⟩
  · rw [if_neg (Nat.ne_of_gt hk)] at hres
    obtain ⟨hout, hwrites, hfinal⟩ := writeAll_ok hne hres (length_leading_pos _ hk hne)
    rw [hstate, hquota hk, drop_length_leading] at hout hwrites hfinal
    exact ⟨hout, hwrites, hfinal⟩

/-! ### All rounds -/

/-- What a submission under `discard` gets stored: one segment in a round. -/
theorem writeAll_discard {s : Nat} (f : File) (d : Device) (hd : d.config.trailing = .discard)
    (hlim : bytes.length < sizeLimit) (q : Quota)
    (hs : (segments d.store.delimiter bytes).length = s) :
    let m := Trailing.discard.affordable q s
    let e := f.writeAll d bytes q .granted
    e.answer.outcome = (if m = s then .complete else .failed .outOfMemory) ∧
      (m = s → e.answer.writes = s) ∧
      e.state = (f, d.absorb (leading d.store.delimiter bytes m)) := by
  induction s generalizing d bytes q with
  | zero =>
    have hnil : bytes = [] := segments_eq_nil_iff.mp (List.length_eq_zero_iff.mp hs)
    subst hnil
    rw [writeAll_nil]
    simp [Trailing.affordable]
  | succ s ih =>
    intro m e
    have hne : bytes ≠ [] := fun h => by simp [h, segments] at hs
    obtain ⟨hstop, hgo⟩ := f.writeAll_round d hne hlim q
    have hgoal : d.config.trailing.reach (segments d.store.delimiter bytes).length + 1 = 2 := by
      rw [hd, hs, Trailing.reach, Nat.min_eq_right (Nat.le_add_left 1 s)]
    rw [hgoal] at hstop hgo
    have hle := q.granted_le 2
    by_cases h2 : q.granted 2 = 2
    · -- this segment is stored, and the others by the rounds to come
      rw [h2] at hgo
      obtain ⟨hout, hwrites, hfinal⟩ := hgo Nat.one_pos
      have hshort : (remaining d.store.delimiter bytes 1).length < sizeLimit :=
        (length_remaining_le _ _ _).trans_lt hlim
      obtain ⟨hout', hwrites', hfinal'⟩ := ih
        (d.absorb (leading d.store.delimiter bytes 1)) hd hshort (q.spend 2) (by
          rw [Device.store_absorb, Store.delimiter_absorb, segments_remaining, List.length_drop,
            hs, Nat.add_sub_cancel])
      have hm : m = Trailing.discard.affordable (q.spend 2) s + 1 := by
        simp only [m, Trailing.affordable, Nat.mul_succ, Quota.granted_add_two h2]
        omega
      rw [hm]
      refine ⟨?_, fun h => ?_, ?_⟩
      · rw [show e.answer.outcome = _ from hout.trans hout']
        simp
      · rw [show e.answer.writes = _ from hwrites, hwrites' (Nat.succ_injective h)]
      · rw [show e.state = _ from hfinal.trans hfinal', Nat.add_comm, leading_add,
          Device.absorb_append]
        rfl
    · obtain ⟨hout, hfinal⟩ := hstop (by omega)
      have hm : m = 0 := by
        cases q with
        | unlimited => exact absurd rfl h2
        | atMost g => simp only [m, Trailing.affordable, Quota.granted] at h2 ⊢; omega
      rw [hm]
      exact ⟨hout, fun h => absurd h (Nat.succ_ne_zero s).symm, hfinal⟩

/-- What a submission under `retain` gets stored: all that memory is there for in the first
round, so that a second one finds none. -/
theorem writeAll_retain {s : Nat} (f : File) (d : Device) (hd : d.config.trailing = .retain)
    (hlim : bytes.length < sizeLimit) (q : Quota)
    (hs : (segments d.store.delimiter bytes).length = s) :
    let m := Trailing.retain.affordable q s
    let e := f.writeAll d bytes q .granted
    e.answer.outcome = (if m = s then .complete else .failed .outOfMemory) ∧
      (m = s → e.answer.writes = min s 1) ∧
      e.state = (f, d.absorb (leading d.store.delimiter bytes m)) := by
  intro m e
  by_cases hne : bytes = []
  · have hzero : s = 0 := by rw [← hs, hne, segments, List.length_nil]
    have hm : m = 0 := by
      have := q.granted_le (0 + 1)
      simp only [m, hzero, Trailing.affordable]
      omega
    rw [show e = _ by simp only [e, hne]; exact f.writeAll_nil d q .granted, hm, hzero]
    exact ⟨rfl, fun _ => rfl, rfl⟩
  have hpos : 0 < s := hs ▸ List.length_pos_iff.mpr fun h => hne (segments_eq_nil_iff.mp h)
  have hle := q.granted_le (s + 1)
  obtain ⟨hstop, hgo⟩ := f.writeAll_round d hne hlim q
  rw [hd, show Trailing.retain.reach _ = s from hs] at hstop hgo
  obtain hm | hm := Nat.eq_zero_or_pos m
  · obtain ⟨hout, hfinal⟩ := hstop hm
    rw [hm, if_neg (Nat.ne_of_lt hpos)]
    exact ⟨hout, fun h => absurd h (Nat.ne_of_lt hpos), hfinal⟩
  obtain ⟨hout, hwrites, hfinal⟩ := hgo hm
  by_cases hall : m = s
  · -- nothing is left for a second round
    have hrest : remaining d.store.delimiter bytes m = [] := by
      rw [remaining, List.drop_of_length_le (hs.trans hall.symm).le, List.flatten_nil]
    rw [show q.granted (s + 1) - 1 = m from rfl, hrest, writeAll_nil] at hout hwrites hfinal
    rw [if_pos hall]
    exact ⟨hout, fun _ => hwrites.trans (Nat.min_eq_right hpos).symm, hfinal⟩
  · -- nothing is left to pay for a second round
    have hpaid : m = q.granted (s + 1) - 1 := rfl
    have hgranted : q.granted (s + 1) = m + 1 := by omega
    have hlt : m + 1 < s + 1 := by omega
    have hrest : remaining d.store.delimiter bytes m ≠ [] := fun h => by
      have := congrArg List.length (segments_remaining d.store.delimiter bytes m)
      rw [h, List.length_drop, hs, segments, List.length_nil] at this
      omega
    obtain ⟨hstop', -⟩ := f.writeAll_round (d.absorb (leading d.store.delimiter bytes m)) hrest
      ((length_remaining_le _ _ _).trans_lt hlim) (q.spend (m + 1))
    obtain ⟨hout', hfinal'⟩ := hstop' (by
      rw [Quota.granted_spend_eq_zero hgranted hlt])
    rw [if_neg hall]
    exact ⟨hout.trans hout', fun h => absurd h hall, hfinal.trans hfinal'⟩

/-- **A submission under a quota** stores the segments that it can pay for. It is complete
if these are all, and fails for want of memory if they are not. -/
theorem writeAll_granted (f : File) (d : Device) (hlim : bytes.length < sizeLimit) (q : Quota) :
    let s := (segments d.store.delimiter bytes).length
    let m := d.config.trailing.affordable q s
    let e := f.writeAll d bytes q .granted
    e.answer.outcome = (if m = s then .complete else .failed .outOfMemory) ∧
      (m = s → e.answer.writes = d.config.trailing.rounds s) ∧
      e.state = (f, d.absorb (leading d.store.delimiter bytes m)) := by
  cases hd : d.config.trailing with
  | discard => exact f.writeAll_discard d hd hlim q rfl
  | retain => exact f.writeAll_retain d hd hlim q rfl

end File

/-! ### With all the memory -/

theorem Trailing.affordable_unlimited (trailing : Trailing) (n : Nat) :
    trailing.affordable .unlimited n = n := by
  cases trailing with
  | discard => exact Nat.mul_div_cancel_left n Nat.two_pos
  | retain => rfl

theorem File.writeAll_unlimited (f : File) (d : Device) {bytes : Bytes}
    (hlim : bytes.length < sizeLimit) :
    let e := f.writeAll d bytes .unlimited .granted
    e.answer.outcome = .complete ∧
      e.answer.writes = d.config.trailing.rounds (segments d.store.delimiter bytes).length ∧
      e.state = (f, d.absorb bytes) := by
  intro e
  obtain ⟨hout, hwrites, hstate⟩ := f.writeAll_granted d hlim .unlimited
  rw [Trailing.affordable_unlimited] at hout hwrites hstate
  rw [if_pos rfl] at hout
  rw [leading_of_length_le le_rfl] at hstate
  exact ⟨hout, hwrites rfl, hstate⟩

namespace Device

theorem write_unlimited (d : Device) {bytes : Bytes} (hlim : bytes.length < sizeLimit) :
    let goal := d.config.trailing.reach (segments d.store.delimiter bytes).length
    (d.write (.memory bytes) .unlimited .granted).state =
      d.absorb (leading d.store.delimiter bytes goal) := by
  intro goal
  by_cases hne : bytes = []
  · subst hne
    rw [leading_nil]
    rfl
  · exact (d.write_granted (Source.chunk_memory bytes) hne hlim .unlimited).2.1

theorem write_retain (d : Device) (hd : d.config.trailing = .retain) {bytes : Bytes}
    (hlim : bytes.length < sizeLimit) :
    (d.write (.memory bytes) .unlimited .granted).state = d.absorb bytes := by
  rw [d.write_unlimited hlim, hd, Trailing.reach, leading_of_length_le le_rfl]

/-- The device after chunks were written one after another, with all the memory they need. -/
def writeEach (d : Device) (chunks : List Bytes) : Device :=
  chunks.foldl (fun d chunk => (d.write (.memory chunk) .unlimited .granted).state) d

/-- **Where a caller cuts makes no difference** under `retain`. -/
theorem writeEach_retain (d : Device) (hd : d.config.trailing = .retain) {chunks : List Bytes}
    (hlim : chunks.flatten.length < sizeLimit) : d.writeEach chunks = d.absorb chunks.flatten := by
  induction chunks generalizing d with
  | nil => rfl
  | cons chunk chunks ih =>
    rw [List.flatten_cons, List.length_append] at hlim
    rw [writeEach, List.foldl_cons, d.write_retain hd (by omega), List.flatten_cons, absorb_append]
    exact ih (d.absorb chunk) hd (by omega)

/-- **Neither the policy nor the cuts make a difference** to what is stored in the end: one
write under `retain`, a write for every chunk under `retain`, a submission under `discard`
and one under `retain` leave the same, if they found the same and memory does not run out.
Both submissions are complete; it takes a write for every segment under `discard`, and one
write under `retain`. -/
theorem write_eq_writeEach_eq_writeAll {d₁ d₂ d₃ d₄ : Device} (h₁ : d₁.config.trailing = .retain)
    (h₂ : d₂.config.trailing = .retain) (h₃ : d₃.config.trailing = .discard)
    (h₄ : d₄.config.trailing = .retain) (h₁₂ : d₁.store.Agrees d₂.store)
    (h₁₃ : d₁.store.Agrees d₃.store) (h₁₄ : d₁.store.Agrees d₄.store) (f g : File)
    {bytes : Bytes} {chunks : List Bytes} (hcut : chunks.flatten = bytes)
    (hlim : bytes.length < sizeLimit) :
    let one := d₁.write (.memory bytes) .unlimited .granted
    let each := d₂.writeEach chunks
    let parts := f.writeAll d₃ bytes .unlimited .granted
    let whole := g.writeAll d₄ bytes .unlimited .granted
    one.state.store.Agrees each.store ∧ one.state.store.Agrees parts.state.2.store ∧
      one.state.store.Agrees whole.state.2.store ∧
      parts.answer.outcome = .complete ∧ whole.answer.outcome = .complete ∧
      parts.answer.writes = bytes.count d₁.store.delimiter +
        (if unfinished d₁.store.delimiter bytes = [] then 0 else 1) ∧
      whole.answer.writes = if bytes = [] then 0 else 1 := by
  intro one each parts whole
  have hone : one.state = d₁.absorb bytes := d₁.write_retain h₁ hlim
  have heach : each = d₂.absorb bytes := by
    rw [← hcut]
    exact d₂.writeEach_retain h₂ (hcut ▸ hlim)
  obtain ⟨hparts, hrounds₃, hstate₃⟩ := f.writeAll_unlimited d₃ hlim
  obtain ⟨hwhole, hrounds₄, hstate₄⟩ := g.writeAll_unlimited d₄ hlim
  refine ⟨?_, ?_, ?_, hparts, hwhole, ?_, ?_⟩
  · rw [hone, heach]
    exact h₁₂.absorb bytes
  · rw [hone, show parts.state = _ from hstate₃]
    exact h₁₃.absorb bytes
  · rw [hone, show whole.state = _ from hstate₄]
    exact h₁₄.absorb bytes
  · rw [show parts.answer.writes = _ from hrounds₃, h₃, h₁₃.delimiter, Trailing.rounds,
      length_segments]
  · rw [show whole.answer.writes = _ from hrounds₄, h₄, Trailing.rounds]
    split
    · rename_i h
      rw [h]
      rfl
    · rename_i h
      exact Nat.min_eq_right (List.length_pos_iff.mpr fun e => h (segments_eq_nil_iff.mp e))

/-- A command cut in two, and a byte that waits, written to devices that retain one command. -/
theorem write_eq_writeEach_eq_writeAll_two_chunks :
    let r := start ⟨1, 10, .retain⟩ (by decide)
    let d := start ⟨1, 10, .discard⟩ (by decide)
    let f : File := ⟨⟨1⟩, 0, .lowered⟩
    (r.store.Agrees r.store ∧ r.store.Agrees d.store) ∧
      (f.writeAll d [97, 10, 98] .unlimited .granted).answer.outcome = .complete ∧
      (f.writeAll d [97, 10, 98] .unlimited .granted).answer.writes = 2 := by
  intro r d f
  have hr : r.store.Agrees r.store := ⟨rfl, rfl, rfl, rfl⟩
  have hd : r.store.Agrees d.store := ⟨rfl, rfl, rfl, rfl⟩
  obtain ⟨-, -, -, hout, -, hwrites, -⟩ :=
    write_eq_writeEach_eq_writeAll rfl rfl rfl rfl hr hd hr f f
      (show [[97], [10, 98]].flatten = [97, 10, 98] from rfl) (by decide)
  exact ⟨⟨hr, hd⟩, hout, hwrites⟩

end Device

/-! ### With a budget -/

namespace Trailing

/-- How many of `n` segments a write gets stored for `g` growths, if it gets any. -/
def paidOnce (g n : Nat) : Trailing → Nat
  | discard => 1
  | retain => min (g - 1) n

/-- How many of `n` segments a submission gets stored for `g` growths. -/
def paid (g n : Nat) : Trailing → Nat
  | discard => min (g / 2) n
  | retain => min (g - 1) n

theorem affordable_atMost (trailing : Trailing) (g n : Nat) :
    trailing.affordable (.atMost g) n = trailing.paid g n := by
  cases trailing with
  | discard => simp only [affordable, paid, Quota.granted]; omega
  | retain => simp only [affordable, paid, Quota.granted]; omega

/-- The copy takes one growth, so that two are needed for a segment. -/
theorem granted_atMost_eq_zero_iff (trailing : Trailing) {n : Nat} (hn : 0 < n) (g : Nat) :
    (Quota.atMost g).granted (trailing.reach n + 1) - 1 = 0 ↔ g < 2 := by
  have := trailing.reach_pos hn
  simp only [Quota.granted]
  omega

theorem granted_atMost (trailing : Trailing) {n g : Nat} (hn : 0 < n) (hg : 2 ≤ g) :
    (Quota.atMost g).granted (trailing.reach n + 1) - 1 = trailing.paidOnce g n := by
  cases trailing with
  | discard => simp only [Quota.granted, reach, paidOnce]; omega
  | retain => simp only [Quota.granted, reach, paidOnce]; omega

end Trailing

namespace Device

/-- What a write can take at once it takes as a whole, if memory does not run out. -/
theorem write_leading (d : Device) {bytes : Bytes} (hlim : bytes.length < sizeLimit) (g : Nat) :
    let front := leading d.store.delimiter bytes
      (d.config.trailing.paidOnce g (segments d.store.delimiter bytes).length)
    (d.write (.memory front) .unlimited .granted).state = d.absorb front := by
  intro front
  have hfront : front.length < sizeLimit := (length_leading_le _ _ _).trans_lt hlim
  rw [d.write_unlimited hfront, leading_of_length_le]
  cases hd : d.config.trailing with
  | retain => exact le_rfl
  | discard =>
    have hone : front = leading d.store.delimiter bytes 1 := by
      simp only [front, hd]
      rfl
    rw [Trailing.reach, hone, segments_leading, List.length_take]
    omega

/-- **Writes and submissions under a budget** of `g` growths. A write of bytes that can be
copied fails for want of memory, and changes nothing, just when `g` is less than two; else
it reports the first segment under `discard`, and as many as are paid for under `retain`.
A submission stores the segments that are paid for; it is complete if these are all of them
and fails for want of memory if not. Both leave the device as if the bytes they stored had
been all, with memory that does not run out. -/
theorem write_writeAll_atMost (d : Device) (f : File) {source : Source} {bytes : Bytes}
    (hc : source.chunk = some bytes) (hne : bytes ≠ []) (hlim : bytes.length < sizeLimit)
    (g : Nat) :
    let n := (segments d.store.delimiter bytes).length
    let k := d.config.trailing.paidOnce g n
    let m := d.config.trailing.paid g n
    let front := leading d.store.delimiter bytes
    let one := d.write source (.atMost g) .granted
    let all := f.writeAll d bytes (.atMost g) .granted
    ((one.answer.result = .error .outOfMemory ∧ one.state = d) ↔ g < 2) ∧
      (2 ≤ g → one.answer.result = .ok (front k).length ∧ one.state = d.absorb (front k) ∧
        one.state = (d.write (.memory (front k)) .unlimited .granted).state) ∧
      all.answer.outcome = (if m = n then .complete else .failed .outOfMemory) ∧
      all.state = (f, d.absorb (front m)) ∧
      all.state = (f.writeAll d (front m) .unlimited .granted).state := by
  intro n k m front one all
  have hn : 0 < n := List.length_pos_iff.mpr fun h => hne (segments_eq_nil_iff.mp h)
  obtain ⟨hres, hstate, -⟩ := d.write_granted hc hne hlim (.atMost g)
  obtain ⟨hout, -, hall⟩ := f.writeAll_granted d hlim (.atMost g)
  rw [Trailing.affordable_atMost] at hout hall
  have hfront : (front m).length < sizeLimit := (length_leading_le _ _ _).trans_lt hlim
  refine ⟨⟨fun h => ?_, fun hg => ?_⟩, fun hg => ?_, hout, hall,
    hall.trans (f.writeAll_unlimited d hfront).2.2.symm⟩
  · rw [h.1] at hres
    split at hres
    · rename_i h0
      exact (d.config.trailing.granted_atMost_eq_zero_iff hn g).mp h0
    · cases hres
  · have h0 := (d.config.trailing.granted_atMost_eq_zero_iff hn g).mpr hg
    rw [if_pos h0] at hres
    rw [h0, leading_zero, absorb_nil] at hstate
    exact ⟨hres, hstate⟩
  · have hk := d.config.trailing.granted_atMost hn hg
    have h0 : k ≠ 0 := fun h =>
      Nat.not_lt.mpr hg ((d.config.trailing.granted_atMost_eq_zero_iff hn g).mp (hk.trans h))
    rw [hk] at hres hstate
    rw [if_neg h0] at hres
    exact ⟨hres, hstate, hstate.trans (d.write_leading hlim g).symm⟩

/-- Three growths pay for the copy and two commands of a chunk. -/
theorem write_writeAll_three_growths :
    let d := start ⟨2, 10, .retain⟩ (by decide)
    let f : File := ⟨⟨1⟩, 0, .lowered⟩
    let bytes : Bytes := [97, 10, 98, 10, 99]
    (Source.memory bytes).chunk = some bytes ∧ bytes ≠ [] ∧ bytes.length < sizeLimit ∧
      (d.write (.memory bytes) (.atMost 3) .granted).answer.result = .ok 4 ∧
      (f.writeAll d bytes (.atMost 3) .granted).answer.outcome = .failed .outOfMemory := by
  intro d f bytes
  have hc : (Source.memory bytes).chunk = some bytes := rfl
  have hlim : bytes.length < sizeLimit := by decide
  obtain ⟨-, hone, hall, -⟩ := d.write_writeAll_atMost f hc (by decide) hlim 3
  exact ⟨hc, by decide, hlim, (hone (by decide)).1, hall⟩

end Device

end Spool
