import Spool.Assembler
import Spool.Segments

/-!
# What bytes come to

A spool gets its bytes in chunks, but what it makes of them depends only on the bytes.
This module says what that is without chunks, memory and policies. `completed` are the
commands that get finished when bytes follow those that wait already, and `leftover` are
the bytes that wait then; both go byte by byte, so they do not see where a caller cuts
(`completed_append`, `leftover_append`).

The same is said of a whole byte string: of its segments the `finished` ones end in the
delimiter, and the one that may be left is `unfinished`. With nothing waiting before, the
commands are the finished segments (`map_bytes_completed`) and the unfinished one waits
(`leftover_nil`).

All of it is proved along the cuts of the byte string, by `cut_induction`.
-/

namespace Spool

variable {d : UInt8} {chunk rest : Bytes} {head : Command}

/-! ### Cutting once -/

theorem breakAfter_eq_none_iff : breakAfter d chunk = none ↔ d ∉ chunk := by
  induction chunk with
  | nil => simp [breakAfter]
  | cons b chunk ih =>
    unfold breakAfter
    by_cases hb : b = d
    · simp [hb]
    · have hd : d ≠ b := fun h => hb h.symm
      rw [if_neg hb]
      cases h : breakAfter d chunk with
      | none => simpa [h, hd] using ih
      | some cut => simpa [h, hd] using ih

theorem bytes_of_breakAfter (h : breakAfter d chunk = some (head, rest)) :
    ∃ body, head.bytes = body ++ [d] ∧ d ∉ body := by
  fun_induction breakAfter d chunk generalizing head rest with
  | case1 => cases h
  | case2 r =>
    cases h
    exact ⟨[], rfl, List.not_mem_nil⟩
  | case3 b r hb front tail e ih =>
    obtain ⟨body, hf, hm⟩ := ih e
    cases h
    refine ⟨b :: body, by simp [hf], ?_⟩
    simpa [hm] using fun h => hb h.symm
  | case4 => cases h

/-- What follows the first delimiter makes no difference to the first half. -/
theorem breakAfter_append (h : breakAfter d chunk = some (head, rest)) (more : Bytes) :
    breakAfter d (head.bytes ++ more) = some (head, more) := by
  fun_induction breakAfter d chunk generalizing head rest with
  | case1 => cases h
  | case2 r =>
    cases h
    simp [breakAfter]
  | case3 b r hb front tail e ih =>
    have := ih e
    cases h
    simp [breakAfter, hb, this]
  | case4 => cases h

theorem size_of_breakAfter (h : breakAfter d chunk = some (head, rest)) :
    head.size = chunk.idxOf d + 1 := by
  obtain ⟨body, hb, hm⟩ := bytes_of_breakAfter h
  rw [← append_of_breakAfter h, Command.size, hb, List.append_assoc, List.idxOf_append, if_neg hm]
  simp

/-- **Induction along the cuts**: a property holds of every byte string if it holds of
those without the delimiter, and of one that is cut if it holds of the second half. -/
@[elab_as_elim]
theorem cut_induction {motive : Bytes → Prop} (d : UInt8)
    (uncut : ∀ chunk, d ∉ chunk → motive chunk)
    (cut : ∀ chunk head rest, breakAfter d chunk = some (head, rest) → motive rest →
      motive chunk) (chunk : Bytes) : motive chunk := by
  induction hn : chunk.length using Nat.strongRecOn generalizing chunk with
  | ind n ih =>
    cases h : breakAfter d chunk with
    | none => exact uncut chunk (breakAfter_eq_none_iff.mp h)
    | some halves =>
      obtain ⟨head, rest⟩ := halves
      have hlen := congrArg List.length (append_of_breakAfter h)
      have hpos := head.size_pos
      rw [List.length_append] at hlen
      exact cut chunk head rest h (ih rest.length (by unfold Command.size at hpos; omega) rest rfl)

/-! ### Cutting throughout -/

theorem segments_of_notMem (h : d ∉ chunk) :
    segments d chunk = if chunk = [] then [] else [chunk] := by
  induction chunk with
  | nil => rfl
  | cons b chunk ih =>
    obtain ⟨hb, hc⟩ := List.ne_and_not_mem_of_not_mem_cons h
    have hb' : b ≠ d := fun e => hb e.symm
    rw [segments, if_neg hb', ih hc]
    by_cases he : chunk = [] <;> simp [he]

theorem segments_of_breakAfter (h : breakAfter d chunk = some (head, rest)) :
    segments d chunk = head.bytes :: segments d rest := by
  fun_induction breakAfter d chunk generalizing head rest with
  | case1 => cases h
  | case2 r =>
    cases h
    simp [segments]
  | case3 b r hb front tail e ih =>
    have := ih e
    cases h
    rw [segments, if_neg hb, this]
    rfl
  | case4 => cases h

theorem segments_eq_nil_iff : segments d chunk = [] ↔ chunk = [] := by
  refine ⟨fun h => ?_, fun h => by rw [h]; rfl⟩
  rw [← flatten_segments d chunk, h]
  rfl

/-! ### The first segments and the others -/

/-- The bytes of the first `k` segments. -/
def leading (d : UInt8) (bytes : Bytes) (k : Nat) : Bytes := ((segments d bytes).take k).flatten

/-- The bytes of the segments after the first `k`. -/
def remaining (d : UInt8) (bytes : Bytes) (k : Nat) : Bytes := ((segments d bytes).drop k).flatten

@[simp] theorem leading_zero (d : UInt8) (bytes : Bytes) : leading d bytes 0 = [] := rfl

@[simp] theorem leading_nil (d : UInt8) (k : Nat) : leading d [] k = [] := by
  simp [leading, segments]

@[simp] theorem remaining_zero (d : UInt8) (bytes : Bytes) : remaining d bytes 0 = bytes :=
  flatten_segments d bytes

theorem leading_append_remaining (d : UInt8) (bytes : Bytes) (k : Nat) :
    leading d bytes k ++ remaining d bytes k = bytes := by
  rw [leading, remaining, ← List.flatten_append, List.take_append_drop, flatten_segments]

theorem length_leading_le (d : UInt8) (bytes : Bytes) (k : Nat) :
    (leading d bytes k).length ≤ bytes.length := by
  have h := congrArg List.length (leading_append_remaining d bytes k)
  rw [List.length_append] at h
  omega

theorem length_remaining_le (d : UInt8) (bytes : Bytes) (k : Nat) :
    (remaining d bytes k).length ≤ bytes.length := by
  have h := congrArg List.length (leading_append_remaining d bytes k)
  rw [List.length_append] at h
  omega

theorem leading_succ_of_breakAfter (h : breakAfter d chunk = some (head, rest)) (k : Nat) :
    leading d chunk (k + 1) = head.bytes ++ leading d rest k := by
  rw [leading, segments_of_breakAfter h, List.take_succ_cons, List.flatten_cons, leading]

theorem leading_of_length_le {k : Nat} (h : (segments d chunk).length ≤ k) :
    leading d chunk k = chunk := by
  rw [leading, List.take_of_length_le h, flatten_segments]

theorem take_length_leading (d : UInt8) (bytes : Bytes) (k : Nat) :
    bytes.take (leading d bytes k).length = leading d bytes k := by
  have h := leading_append_remaining d bytes k
  generalize leading d bytes k = front at h ⊢
  rw [← h, List.take_left]

theorem drop_length_leading (d : UInt8) (bytes : Bytes) (k : Nat) :
    bytes.drop (leading d bytes k).length = remaining d bytes k := by
  have h := leading_append_remaining d bytes k
  generalize leading d bytes k = front at h ⊢
  generalize remaining d bytes k = back at h ⊢
  rw [← h, List.drop_left]

theorem segments_remaining (d : UInt8) (bytes : Bytes) (k : Nat) :
    segments d (remaining d bytes k) = (segments d bytes).drop k := by
  induction bytes using cut_induction d generalizing k with
  | uncut chunk hd =>
    cases k with
    | zero => rw [remaining_zero, List.drop_zero]
    | succ k =>
      rw [remaining, segments_of_notMem hd]
      by_cases he : chunk = [] <;> simp [he, segments]
  | cut chunk head rest h ih =>
    cases k with
    | zero => rw [remaining_zero, List.drop_zero]
    | succ k =>
      rw [remaining, segments_of_breakAfter h, List.drop_succ_cons]
      exact ih k

theorem segments_leading (d : UInt8) (bytes : Bytes) (k : Nat) :
    segments d (leading d bytes k) = (segments d bytes).take k := by
  induction bytes using cut_induction d generalizing k with
  | uncut chunk hd =>
    cases k with
    | zero => rfl
    | succ k =>
      have hlen : (segments d chunk).length ≤ k + 1 := by
        rw [segments_of_notMem hd]
        split <;> simp
      rw [leading_of_length_le hlen, List.take_of_length_le hlen]
  | cut chunk head rest h ih =>
    cases k with
    | zero => rfl
    | succ k =>
      rw [leading_succ_of_breakAfter h, segments_of_breakAfter (breakAfter_append h _), ih,
        segments_of_breakAfter h, List.take_succ_cons]

theorem leading_add (d : UInt8) (bytes : Bytes) (j k : Nat) :
    leading d bytes (j + k) = leading d bytes j ++ leading d (remaining d bytes j) k := by
  rw [leading, leading, leading, segments_remaining, List.take_add, List.flatten_append]

theorem length_leading_pos (d : UInt8) {k : Nat} (hk : 0 < k) (hne : chunk ≠ []) :
    0 < (leading d chunk k).length := by
  refine List.length_pos_iff.mpr fun h => hne ?_
  have htake := congrArg List.length (segments_leading d chunk k)
  rw [h, List.length_take] at htake
  have hlen : (segments d chunk).length = 0 := by
    simp only [segments, List.length_nil] at htake
    omega
  exact segments_eq_nil_iff.mp (List.length_eq_zero_iff.mp hlen)

/-! ### Finished and unfinished segments -/

/-- The segments that end in the delimiter. -/
def finished (d : UInt8) (bytes : Bytes) : List Bytes :=
  (segments d bytes).filter fun piece => piece.getLast? = some d

/-- The bytes of the segment that does not end in the delimiter; none if all do. -/
def unfinished (d : UInt8) (bytes : Bytes) : Bytes :=
  ((segments d bytes).filter fun piece => piece.getLast? ≠ some d).flatten

theorem finished_of_notMem (h : d ∉ chunk) : finished d chunk = [] := by
  rw [finished, segments_of_notMem h]
  split
  · rfl
  · have : chunk.getLast? ≠ some d := fun e => h (List.mem_of_getLast? e)
    simp [this]

theorem unfinished_of_notMem (h : d ∉ chunk) : unfinished d chunk = chunk := by
  rw [unfinished, segments_of_notMem h]
  split
  · rename_i he; rw [he]; rfl
  · have : chunk.getLast? ≠ some d := fun e => h (List.mem_of_getLast? e)
    simp [this]

theorem finished_of_breakAfter (h : breakAfter d chunk = some (head, rest)) :
    finished d chunk = head.bytes :: finished d rest := by
  obtain ⟨body, hb, -⟩ := bytes_of_breakAfter h
  simp [finished, segments_of_breakAfter h, hb]

theorem unfinished_of_breakAfter (h : breakAfter d chunk = some (head, rest)) :
    unfinished d chunk = unfinished d rest := by
  obtain ⟨body, hb, -⟩ := bytes_of_breakAfter h
  simp [unfinished, segments_of_breakAfter h, hb]

/-- **Only the last segment can be unfinished.** -/
theorem segments_eq_finished_append (d : UInt8) (bytes : Bytes) :
    segments d bytes =
      finished d bytes ++ if unfinished d bytes = [] then [] else [unfinished d bytes] := by
  induction bytes using cut_induction d with
  | uncut chunk hd =>
    rw [finished_of_notMem hd, unfinished_of_notMem hd, segments_of_notMem hd, List.nil_append]
  | cut chunk head rest h ih =>
    rw [segments_of_breakAfter h, finished_of_breakAfter h, unfinished_of_breakAfter h, ih,
      List.cons_append]

theorem length_finished (d : UInt8) (bytes : Bytes) :
    (finished d bytes).length = bytes.count d := by
  induction bytes using cut_induction d with
  | uncut chunk hd => rw [finished_of_notMem hd, List.count_eq_zero.mpr hd, List.length_nil]
  | cut chunk head rest h ih =>
    obtain ⟨body, hb, hm⟩ := bytes_of_breakAfter h
    rw [finished_of_breakAfter h, List.length_cons, ih, ← append_of_breakAfter h, hb,
      List.count_append, List.count_append, List.count_eq_zero.mpr hm, List.count_singleton_self]
    omega

theorem length_segments (d : UInt8) (bytes : Bytes) :
    (segments d bytes).length = bytes.count d + if unfinished d bytes = [] then 0 else 1 := by
  rw [segments_eq_finished_append, List.length_append, length_finished]
  split <;> rfl

/-! ### Byte by byte -/

/-- The commands that get finished when `bytes` follow the bytes `waiting`. -/
def completed (d : UInt8) (waiting : Bytes) : Bytes → List Command
  | [] => []
  | b :: rest =>
    if b = d then (Command.single b).prepend waiting :: completed d [] rest
    else completed d (waiting ++ [b]) rest

/-- The bytes that wait when `bytes` have followed the bytes `waiting`. -/
def leftover (d : UInt8) (waiting : Bytes) : Bytes → Bytes
  | [] => waiting
  | b :: rest => if b = d then leftover d [] rest else leftover d (waiting ++ [b]) rest

/-- **Bytes can come in two parts**: the second part meets what the first one left. -/
theorem completed_append (d : UInt8) (waiting a b : Bytes) :
    completed d waiting (a ++ b) =
      completed d waiting a ++ completed d (leftover d waiting a) b := by
  induction a generalizing waiting with
  | nil => rfl
  | cons x a ih =>
    rw [List.cons_append, completed, completed, leftover]
    split
    · rw [ih, List.cons_append]
    · exact ih _

theorem leftover_append (d : UInt8) (waiting a b : Bytes) :
    leftover d waiting (a ++ b) = leftover d (leftover d waiting a) b := by
  induction a generalizing waiting with
  | nil => rfl
  | cons x a ih =>
    rw [List.cons_append, leftover, leftover]
    split
    · exact ih _
    · exact ih _

theorem completed_of_notMem (waiting : Bytes) (h : d ∉ chunk) : completed d waiting chunk = [] := by
  induction chunk generalizing waiting with
  | nil => rfl
  | cons b chunk ih =>
    obtain ⟨hb, hc⟩ := List.ne_and_not_mem_of_not_mem_cons h
    rw [completed, if_neg fun e => hb e.symm, ih _ hc]

theorem leftover_of_notMem (waiting : Bytes) (h : d ∉ chunk) :
    leftover d waiting chunk = waiting ++ chunk := by
  induction chunk generalizing waiting with
  | nil => rw [leftover, List.append_nil]
  | cons b chunk ih =>
    obtain ⟨hb, hc⟩ := List.ne_and_not_mem_of_not_mem_cons h
    rw [leftover, if_neg fun e => hb e.symm, ih _ hc, List.append_assoc, List.singleton_append]

theorem completed_of_breakAfter (waiting : Bytes) (h : breakAfter d chunk = some (head, rest)) :
    completed d waiting chunk = head.prepend waiting :: completed d [] rest := by
  obtain ⟨body, hb, hm⟩ := bytes_of_breakAfter h
  rw [← append_of_breakAfter h, hb, List.append_assoc, completed_append,
    completed_of_notMem _ hm, leftover_of_notMem _ hm, List.nil_append, List.singleton_append,
    completed, if_pos rfl]
  congr 1
  ext1
  simp [hb]

theorem leftover_of_breakAfter (waiting : Bytes) (h : breakAfter d chunk = some (head, rest)) :
    leftover d waiting chunk = leftover d [] rest := by
  obtain ⟨body, hb, hm⟩ := bytes_of_breakAfter h
  rw [← append_of_breakAfter h, hb, List.append_assoc, leftover_append, leftover_of_notMem _ hm,
    List.singleton_append, leftover, if_pos rfl]

/-- **The commands are the finished segments**, if nothing waits before. -/
theorem map_bytes_completed (d : UInt8) (bytes : Bytes) :
    (completed d [] bytes).map Command.bytes = finished d bytes := by
  induction bytes using cut_induction d with
  | uncut chunk hd => rw [completed_of_notMem _ hd, finished_of_notMem hd, List.map_nil]
  | cut chunk head rest h ih =>
    rw [completed_of_breakAfter _ h, finished_of_breakAfter h, List.map_cons, ih]
    rfl

/-- **The unfinished segment waits**, if nothing waits before. -/
theorem leftover_nil (d : UInt8) (bytes : Bytes) : leftover d [] bytes = unfinished d bytes := by
  induction bytes using cut_induction d with
  | uncut chunk hd => rw [leftover_of_notMem _ hd, unfinished_of_notMem hd, List.nil_append]
  | cut chunk head rest h ih =>
    rw [leftover_of_breakAfter _ h, unfinished_of_breakAfter h, ih]

end Spool
