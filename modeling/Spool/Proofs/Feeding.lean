import Spool.Proofs.Retention

/-!
# Feeding chunks under a quota

Whatever the policy and the memory, feeding a chunk takes a part of it from the front, and
leaves the store that has absorbed just this part (`Store.store_feed`). How long the part
is, is a matter of segments: each segment needs one growth, the policy says for how many
segments a feeding goes (`Trailing.reach`), and the quota how many it gets
(`Quota.granted`); what is taken are the segments up to the smaller of the two
(`Store.accepted_feed`). If no growth is refused, this is the chunk up to its first
delimiter, or all of it (`Store.accepted_of_shortage_eq_none`).
-/

namespace Spool

/-! ### Quotas -/

namespace Quota

/-- How many of the next `k` growths are granted. -/
def granted : Quota → Nat → Nat
  | unlimited, k => k
  | atMost n, k => min n k

/-- The quota that is left when `k` growths have been granted. -/
def spend : Quota → Nat → Quota
  | unlimited, _ => unlimited
  | atMost n, k => atMost (n - k)

variable {q left : Quota} {k n : Nat}

@[simp] theorem granted_zero (q : Quota) : q.granted 0 = 0 := by
  cases q <;> simp [granted]

@[simp] theorem spend_zero (q : Quota) : q.spend 0 = q := by
  cases q <;> simp [spend]

theorem granted_le (q : Quota) (k : Nat) : q.granted k ≤ k := by
  cases q with
  | unlimited => exact le_rfl
  | atMost n => exact Nat.min_le_right n k

theorem spend_spend (q : Quota) (a b : Nat) : (q.spend a).spend b = q.spend (a + b) := by
  cases q <;> simp [spend, Nat.sub_sub]

theorem granted_one (q : Quota) : q.granted 1 = 0 ∨ q.granted 1 = 1 := by
  have := q.granted_le 1
  omega

theorem granted_succ (h : q.granted 1 = 1) (k : Nat) :
    q.granted (k + 1) = (q.spend 1).granted k + 1 := by
  cases q with
  | unlimited => rfl
  | atMost n => simp only [granted, spend] at h ⊢; omega

theorem granted_eq_zero (h : q.granted 1 = 0) (k : Nat) : q.granted k = 0 := by
  cases q with
  | unlimited => cases h
  | atMost n => simp only [granted] at h ⊢; omega

theorem grow_eq_ok (hn : 0 < n) (hlim : n < sizeLimit) (h : q.granted 1 = 1) :
    q.grow n = .ok (q.spend 1) := by
  match q with
  | unlimited => exact grow_unlimited hlim
  | atMost 0 => simp [granted] at h
  | atMost (m + 1) => simp [grow, spend, Nat.ne_of_gt hn, Nat.not_le.mpr hlim]

theorem grow_eq_error (hn : 0 < n) (h : q.granted 1 = 0) : q.grow n = .error ⟨n⟩ := by
  match q with
  | unlimited => simp [granted] at h
  | atMost 0 => simp [grow, Nat.ne_of_gt hn]
  | atMost (m + 1) => simp [granted] at h

theorem lt_of_grow_eq_ok (h : q.grow n = .ok left) : n < sizeLimit := by
  by_cases hn : n = 0
  · rw [hn]
    decide
  · unfold grow at h
    rw [if_neg hn] at h
    split at h
    · cases h
    · rename_i hlt
      exact Nat.lt_of_not_le hlt

end Quota

/-! ### One step of the assembler -/

namespace Assembler

variable {a : Assembler} {chunk rest : Bytes} {head : Command} {q left : Quota} {e : Shortage}

theorem append_cut (hb : breakAfter a.delimiter chunk = some (head, rest))
    (hq : q.grow head.size = .ok left) :
    a.append chunk q = .ok
      { assembler := ⟨a.delimiter, .empty⟩
        accepted := head.size
        rest, command := some (head.prepend a.pending.bytes), quota := left
        records := if rest = [] then [] else [.dropped rest.length] } := by
  simp [append, hb, Pending.complete, hq]

theorem append_cut_refused (hb : breakAfter a.delimiter chunk = some (head, rest))
    (hq : q.grow head.size = .error e) : a.append chunk q = .error e := by
  simp [append, hb, Pending.complete, hq]

theorem append_uncut (hd : a.delimiter ∉ chunk) (hne : chunk ≠ [])
    (hq : q.grow chunk.length = .ok left) :
    a.append chunk q = .ok
      { assembler := ⟨a.delimiter, ⟨a.pending.bytes ++ chunk⟩⟩
        accepted := chunk.length
        rest := [], command := none, quota := left
        records := [.absorbed chunk.length (a.pending.bytes ++ chunk).length] } := by
  simp [append, breakAfter_eq_none_iff.mpr hd, hne, Pending.append, hq, Pending.size]

theorem append_uncut_refused (hd : a.delimiter ∉ chunk) (hne : chunk ≠ [])
    (hq : q.grow chunk.length = .error e) : a.append chunk q = .error e := by
  simp [append, breakAfter_eq_none_iff.mpr hd, hne, Pending.append, hq]

end Assembler

/-! ### One step of a feeding -/

/-- For how many of `n` segments a feeding goes. -/
def Trailing.reach : Trailing → Nat → Nat
  | .discard, n => min n 1
  | .retain, n => n

theorem Trailing.reach_pos (trailing : Trailing) {n : Nat} (h : 0 < n) : 0 < trailing.reach n := by
  cases trailing with
  | discard => exact Nat.lt_min.mpr ⟨h, Nat.one_pos⟩
  | retain => exact h

/-- For how many bytes of a chunk a feeding goes: all of them, or those up to the first
delimiter, which are all if there is none. -/
def Trailing.stretch (d : UInt8) (chunk : Bytes) : Trailing → Nat
  | .discard => min (chunk.idxOf d + 1) chunk.length
  | .retain => chunk.length

namespace Store

variable {s : Store} {trailing : Trailing} {chunk rest : Bytes} {head : Command} {q left : Quota}
  {e : Shortage}

/-- What is logged when a chunk is cut into `head` and `rest`. -/
def cutRecords (s : Store) (head : Command) (rest : Bytes) : List Record :=
  (if rest = [] then [] else [.dropped rest.length]) ++
    (s.ring.ingest (head.prepend s.pending)).2.toList.map fun c => .evicted c.size

theorem feed_nil (s : Store) (trailing : Trailing) (q : Quota) :
    s.feed trailing [] q = ⟨s, 0, none, q, []⟩ := by
  have h : s.assembler.append [] q = .ok
      { assembler := s.assembler, accepted := 0, rest := [], command := none, quota := q
        records := [] } := by
    simp [Assembler.append, breakAfter]
  rw [feed]
  split <;> rename_i heq <;> rw [h] at heq
  · cases heq
  · cases heq
    rfl

theorem feed_refused (h : s.assembler.append chunk q = .error e) :
    s.feed trailing chunk q = ⟨s, 0, some e, q, []⟩ := by
  rw [feed]
  split <;> rename_i heq <;> rw [h] at heq <;> cases heq
  rfl

theorem feed_uncut (hd : s.delimiter ∉ chunk) (hne : chunk ≠ [])
    (hq : q.grow chunk.length = .ok left) :
    s.feed trailing chunk q =
      ⟨s.absorb chunk, chunk.length, none, left,
        [.absorbed chunk.length (s.pending ++ chunk).length]⟩ := by
  have h := Assembler.append_uncut hd hne hq
  rw [feed, absorb_of_notMem s hd]
  split <;> rename_i heq <;> rw [h] at heq <;> cases heq
  rfl

theorem feed_discard (hb : breakAfter s.delimiter chunk = some (head, rest))
    (hq : q.grow head.size = .ok left) :
    s.feed .discard chunk q =
      ⟨s.absorb head.bytes, head.size, none, left, s.cutRecords head rest⟩ := by
  have h := Assembler.append_cut hb hq
  rw [feed, absorb_of_breakAfter s hb]
  split <;> rename_i heq <;> rw [h] at heq <;> cases heq
  rfl

theorem feed_retain (hb : breakAfter s.delimiter chunk = some (head, rest))
    (hq : q.grow head.size = .ok left) :
    s.feed .retain chunk q =
      let more := (s.absorb head.bytes).feed .retain rest left
      ⟨more.store, head.size + more.accepted, more.shortage, more.quota,
        s.cutRecords head rest ++ more.records⟩ := by
  have h := Assembler.append_cut hb hq
  rw [feed, absorb_of_breakAfter s hb]
  split <;> rename_i heq <;> rw [h] at heq <;> cases heq
  rfl

theorem feed_of_granted_eq_zero (s : Store) (trailing : Trailing) (hne : chunk ≠ [])
    (hq : q.granted 1 = 0) : ∃ e, s.feed trailing chunk q = ⟨s, 0, some e, q, []⟩ := by
  cases hb : breakAfter s.delimiter chunk with
  | none =>
    have hgrow := Quota.grow_eq_error (List.length_pos_iff.mpr hne) hq
    exact ⟨_, feed_refused
      (Assembler.append_uncut_refused (breakAfter_eq_none_iff.mp hb) hne hgrow)⟩
  | some halves =>
    obtain ⟨head, rest⟩ := halves
    have hgrow := Quota.grow_eq_error head.size_pos hq
    exact ⟨_, feed_refused (Assembler.append_cut_refused hb hgrow)⟩

/-! ### What a feeding leaves -/

/-- **A feeding takes a part from the front and absorbs it**, whatever the policy and the
memory. -/
theorem store_feed (s : Store) (trailing : Trailing) (chunk : Bytes) (q : Quota) :
    (s.feed trailing chunk q).accepted ≤ chunk.length ∧
      (s.feed trailing chunk q).store =
        s.absorb (chunk.take (s.feed trailing chunk q).accepted) := by
  obtain ⟨d, hs⟩ : ∃ d, s.delimiter = d := ⟨_, rfl⟩
  induction chunk using cut_induction d generalizing s q with
  | uncut chunk hd =>
    subst hs
    by_cases hne : chunk = []
    · rw [hne, feed_nil]
      exact ⟨le_rfl, rfl⟩
    cases hq : q.grow chunk.length with
    | error e =>
      rw [feed_refused (Assembler.append_uncut_refused hd hne hq)]
      exact ⟨Nat.zero_le _, rfl⟩
    | ok left =>
      rw [feed_uncut hd hne hq]
      exact ⟨le_rfl, by rw [List.take_length]⟩
  | cut chunk head rest hb ih =>
    subst hs
    have hchunk := append_of_breakAfter hb
    have hlen : head.bytes.length + rest.length = chunk.length := by
      rw [← hchunk, List.length_append]
    cases hq : q.grow head.size with
    | error e =>
      rw [feed_refused (Assembler.append_cut_refused hb hq)]
      exact ⟨Nat.zero_le _, rfl⟩
    | ok left =>
      cases trailing with
      | discard =>
        rw [feed_discard hb hq]
        refine ⟨hlen ▸ Nat.le_add_right _ _, ?_⟩
        show s.absorb head.bytes = s.absorb (chunk.take head.bytes.length)
        rw [← hchunk, List.take_left]
      | retain =>
        obtain ⟨hle, hstore⟩ := ih (s.absorb head.bytes) left rfl
        rw [feed_retain hb hq]
        refine ⟨hlen ▸ Nat.add_le_add_left hle _, ?_⟩
        show _ = s.absorb (chunk.take (head.bytes.length + _))
        rw [← hchunk, List.take_length_add_append, absorb_append]
        exact hstore

/-- **If no growth is refused, a feeding takes all it goes for.** -/
theorem accepted_of_shortage_eq_none (h : (s.feed trailing chunk q).shortage = none) :
    (s.feed trailing chunk q).accepted = trailing.stretch s.delimiter chunk := by
  obtain ⟨d, hs⟩ : ∃ d, s.delimiter = d := ⟨_, rfl⟩
  induction chunk using cut_induction d generalizing s q with
  | uncut chunk hd =>
    subst hs
    by_cases hne : chunk = []
    · rw [hne, feed_nil]
      cases trailing <;> rfl
    cases hq : q.grow chunk.length with
    | error e =>
      rw [feed_refused (Assembler.append_uncut_refused hd hne hq)] at h
      cases h
    | ok left =>
      rw [feed_uncut hd hne hq]
      cases trailing with
      | retain => rfl
      | discard =>
        rw [Trailing.stretch, List.idxOf_eq_length hd]
        exact (Nat.min_eq_right (Nat.le_succ _)).symm
  | cut chunk head rest hb ih =>
    subst hs
    have hlen : head.size + rest.length = chunk.length := by
      rw [← append_of_breakAfter hb, List.length_append, Command.size]
    cases hq : q.grow head.size with
    | error e =>
      rw [feed_refused (Assembler.append_cut_refused hb hq)] at h
      cases h
    | ok left =>
      cases trailing with
      | discard =>
        rw [feed_discard hb hq]
        show head.size = min (chunk.idxOf s.delimiter + 1) chunk.length
        rw [← size_of_breakAfter hb, Nat.min_eq_left (by omega)]
      | retain =>
        rw [feed_retain hb hq] at h ⊢
        show head.size + _ = chunk.length
        rw [ih h rfl]
        exact hlen

/-- **The segments up to the quota are taken**: of those the policy goes for as many as
there are growths, and a growth is refused just when some of them are not taken. -/
theorem accepted_feed (s : Store) (trailing : Trailing) {chunk : Bytes} (q : Quota)
    (hlim : chunk.length < sizeLimit) :
    let goal := trailing.reach (segments s.delimiter chunk).length
    let k := q.granted goal
    (s.feed trailing chunk q).accepted = (leading s.delimiter chunk k).length ∧
      (s.feed trailing chunk q).quota = q.spend k ∧
      ((s.feed trailing chunk q).shortage = none ↔ k = goal) := by
  obtain ⟨d, hs⟩ : ∃ d, s.delimiter = d := ⟨_, rfl⟩
  induction chunk using cut_induction d generalizing s q with
  | uncut chunk hd =>
    subst hs
    by_cases hne : chunk = []
    · subst hne
      cases trailing <;> simp [feed_nil, segments, Trailing.reach]
    have hone : (segments s.delimiter chunk).length = 1 := by
      rw [segments_of_notMem hd, if_neg hne, List.length_singleton]
    have hgoal : trailing.reach 1 = 1 := by cases trailing <;> rfl
    rw [hone, hgoal]
    intro goal k
    obtain hq | hq := q.granted_one
    · obtain ⟨e, hfeed⟩ := s.feed_of_granted_eq_zero trailing hne hq
      simp [k, goal, hfeed, hq]
    · have hall : leading s.delimiter chunk 1 = chunk := leading_of_length_le hone.le
      rw [feed_uncut hd hne (Quota.grow_eq_ok (List.length_pos_iff.mpr hne) hlim hq)]
      simp [k, goal, hq, hall]
  | cut chunk head rest hb ih =>
    subst hs
    intro goal k
    have hlen : head.size + rest.length = chunk.length := by
      rw [← append_of_breakAfter hb, List.length_append, Command.size]
    have hcount : (segments s.delimiter chunk).length = (segments s.delimiter rest).length + 1 := by
      rw [segments_of_breakAfter hb, List.length_cons]
    have hne : chunk ≠ [] := fun he => by simp [he, breakAfter] at hb
    obtain hq | hq := q.granted_one
    · have hk : k = 0 := Quota.granted_eq_zero hq _
      have hgoal : 0 < goal := trailing.reach_pos (by omega)
      obtain ⟨e, hfeed⟩ := s.feed_of_granted_eq_zero trailing hne hq
      simp [hfeed, hk, Nat.ne_of_lt hgoal]
    have hgrow := Quota.grow_eq_ok head.size_pos (by omega) hq
    cases trailing with
    | discard =>
      have hgoal : goal = 1 := Nat.min_eq_right (by omega)
      have hk : k = 1 := by rw [show k = q.granted goal from rfl, hgoal, hq]
      rw [feed_discard hb hgrow, hk, hgoal, leading_succ_of_breakAfter hb]
      simp [Command.size]
    | retain =>
      have hgoal : goal = (segments s.delimiter rest).length + 1 := hcount
      have hk : k = (q.spend 1).granted (segments s.delimiter rest).length + 1 := by
        rw [show k = q.granted goal from rfl, hgoal, Quota.granted_succ hq]
      obtain ⟨hacc, hleft, hshort⟩ := ih (s.absorb head.bytes) (q.spend 1) (by omega) rfl
      rw [feed_retain hb hgrow, hk, hgoal, leading_succ_of_breakAfter hb]
      refine ⟨?_, ?_, ?_⟩
      · rw [List.length_append]
        exact congrArg (head.bytes.length + ·) hacc
      · rw [Nat.add_comm, ← Quota.spend_spend]
        exact hleft
      · rw [Nat.add_right_cancel_iff]
        exact hshort

end Store

end Spool
