import Spool.Guard.Machine
import Spool.Proofs.Writing

/-!
# Commands that come whole

A chunk is one command if it has a single delimiter, at its end (`IsCommand`). A write of
such a chunk takes all of it or nothing (`Device.length_eq_of_write`), and of chunks that
come one after another each completes one command (`completed_flatten`). Where several
threads write, what they write gets shuffled: `Shuffle` says that a list is made of several
others, each in its own order.
-/

namespace Spool

/-! ### Shuffles -/

section Shuffle

variable {T α β : Type} [DecidableEq T]

/-- The list `whole` is made of the lists `parts`, each in order: one takes the first of any
of them until none has any. -/
inductive Shuffle : (T → List α) → List α → Prop where
  /-- There is nothing left. -/
  | done {parts : T → List α} : (∀ t, parts t = []) → Shuffle parts []
  /-- The first of the list of `t` is taken. -/
  | take {parts : T → List α} {rest whole : List α} (t : T) (a : α) : parts t = a :: rest →
      Shuffle (Guard.assign parts t rest) whole → Shuffle parts (a :: whole)

/-- **A list is a shuffle of the parts that it is sorted into.** -/
theorem shuffle_filterMap (key : β → T) (f : β → Option α) (l : List β) :
    Shuffle (fun t => (l.filter fun b => key b = t).filterMap f) (l.filterMap f) := by
  induction l with
  | nil => exact .done fun _ => rfl
  | cons b l ih =>
    cases hb : f b with
    | none =>
      have hparts : (fun t => ((b :: l).filter fun b => key b = t).filterMap f) =
          fun t => (l.filter fun b => key b = t).filterMap f := by
        funext t
        by_cases ht : key b = t <;> simp [ht, hb]
      rw [hparts, List.filterMap_cons_none hb]
      exact ih
    | some a =>
      have hfirst : ((b :: l).filter fun c => key c = key b).filterMap f =
          a :: (l.filter fun c => key c = key b).filterMap f := by
        simp [hb]
      rw [List.filterMap_cons_some hb]
      refine .take (key b) a hfirst ?_
      convert ih using 1
      funext t
      by_cases ht : t = key b
      · rw [ht, Guard.assign_self]
      · rw [Guard.assign_of_ne _ _ ht, List.filter_cons_of_neg (by simpa [eq_comm] using ht)]

end Shuffle

/-! ### Chunks that are one command -/

/-- The chunk is one command: it has a single delimiter, at its end. -/
def IsCommand (d : UInt8) (chunk : Bytes) : Prop := ∃ body, chunk = body ++ [d] ∧ d ∉ body

variable {d : UInt8} {chunk : Bytes} {chunks : List Bytes}

theorem IsCommand.ne_nil (h : IsCommand d chunk) : chunk ≠ [] := by
  obtain ⟨body, rfl, -⟩ := h
  exact List.append_ne_nil_of_right_ne_nil _ (List.cons_ne_nil _ _)

theorem IsCommand.breakAfter (h : IsCommand d chunk) :
    ∃ head, breakAfter d chunk = some (head, []) ∧ head.bytes = chunk := by
  obtain ⟨body, rfl, hm⟩ := h
  cases hb : Spool.breakAfter d (body ++ [d]) with
  | none =>
    have hd : d ∈ body ++ [d] := List.mem_append_right _ (List.mem_singleton_self d)
    exact absurd hd (breakAfter_eq_none_iff.mp hb)
  | some cut =>
    obtain ⟨head, rest⟩ := cut
    have hsize := size_of_breakAfter hb
    have happend := append_of_breakAfter hb
    rw [List.idxOf_append, if_neg hm, List.idxOf_cons_self, Nat.add_zero] at hsize
    have hlen := congrArg List.length happend
    rw [List.length_append, List.length_append, List.length_singleton] at hlen
    have hrest : rest = [] := List.length_eq_zero_iff.mp (by rw [Command.size] at hsize; omega)
    subst hrest
    exact ⟨head, rfl, by rw [← happend, List.append_nil]⟩

theorem IsCommand.length_segments (h : IsCommand d chunk) : (segments d chunk).length = 1 := by
  obtain ⟨head, hb, -⟩ := h.breakAfter
  rw [segments_of_breakAfter hb]
  rfl

/-- **Chunks that are one command each complete just these commands**, and nothing waits. -/
theorem completed_flatten (h : ∀ chunk ∈ chunks, IsCommand d chunk) :
    (completed d [] chunks.flatten).map Command.bytes = chunks ∧
      leftover d [] chunks.flatten = [] := by
  induction chunks with
  | nil => exact ⟨rfl, rfl⟩
  | cons chunk rest ih =>
    obtain ⟨hcompleted, hleftover⟩ := ih fun c hc => h c (List.mem_cons_of_mem _ hc)
    obtain ⟨head, hb, hbytes⟩ := (h chunk List.mem_cons_self).breakAfter
    have hcut := breakAfter_append hb rest.flatten
    rw [hbytes] at hcut
    constructor
    · rw [List.flatten_cons, completed_of_breakAfter _ hcut, List.map_cons, hcompleted,
        Command.bytes_prepend, hbytes, List.nil_append]
    · rw [List.flatten_cons, leftover_of_breakAfter _ hcut, hleftover]

/-- **Chunks that are one command each are the segments of all of them.** -/
theorem segments_flatten (h : ∀ chunk ∈ chunks, IsCommand d chunk) :
    segments d chunks.flatten = chunks := by
  induction chunks with
  | nil => rfl
  | cons chunk rest ih =>
    obtain ⟨head, hb, hbytes⟩ := (h chunk List.mem_cons_self).breakAfter
    have hcut := breakAfter_append hb rest.flatten
    rw [hbytes] at hcut
    rw [List.flatten_cons, segments_of_breakAfter hcut, hbytes,
      ih fun c hc => h c (List.mem_cons_of_mem _ hc)]

theorem isCommand_of_mem_finished {bytes : Bytes} (h : chunk ∈ finished d bytes) :
    IsCommand d chunk := by
  induction bytes using cut_induction d with
  | uncut bytes hd =>
    rw [finished_of_notMem hd] at h
    cases h
  | cut bytes head rest hb ih =>
    rw [finished_of_breakAfter hb] at h
    rcases List.mem_cons.mp h with rfl | h
    · exact bytes_of_breakAfter hb
    · exact ih h

namespace Device

/-- **A write of one command takes all of it**, if it succeeds. -/
theorem length_eq_of_write (d : Device) {source : Source} {q : Quota} {n : Nat}
    (hc : source.chunk = some chunk) (hcommand : IsCommand d.store.delimiter chunk)
    (h : (d.write source q .granted).answer.result = .ok n) : n = chunk.length := by
  by_cases hlim : chunk.length < sizeLimit
  · obtain ⟨hres, -, -⟩ := d.write_granted hc hcommand.ne_nil hlim q
    rw [hres] at h
    split at h
    · cases h
    · rename_i hk
      rw [leading_of_length_le
        (hcommand.length_segments.trans_le (Nat.one_le_iff_ne_zero.mpr hk))] at h
      exact (Except.ok.inj h).symm
  · have hpos : chunk.length ≠ 0 := fun hz => hlim (hz ▸ by decide)
    have hq : q.grow chunk.length = .error ⟨chunk.length⟩ := by
      simp [Quota.grow, hpos, Nat.le_of_not_lt hlim]
    rw [write, perform, writePlan_refused hc hcommand.ne_nil hq] at h
    cases h

end Device

end Spool
