import Spool.Proofs.Checked.Ring
import Spool.Proofs.Feeding

/-!
# Stores that check every step

What `Spool.Proofs.Checked.Ring` does for rings is done here for stores. A chunk is taken by
going through it with an index, which is a word: the bytes from the index on are cut out and
given to the assembler, the assembler looks for the delimiter and cuts out the bytes up to it,
and the index moves on by what was taken. Each time round finishes one command, except for the
last (`Checked.round`).

A chunk of which there is a copy is short enough for the index to be a word. Then all cuts
lie in the chunk, a command is finished with its delimiter at least, and there is a slot for it:
`Store.feed_plain` says that feeding plain data does the same as `Store.feed`, without a mishap.
-/

namespace Spool

namespace Checked

theorem bind_eq_ok_iff {α β : Type} {x : Except Mishap α} {f : α → Except Mishap β} {b : β} :
    x >>= f = .ok b ↔ ∃ a, x = .ok a ∧ f a = .ok b := by
  cases x with
  | error m => simp
  | ok a => simp

theorem eq_of_add {a b sum : Nat} (h : add a b = .ok sum) : sum = a + b := by
  cases hs : addWord a b with
  | error o =>
    rw [add, hs] at h
    cases h
  | ok n =>
    rw [add, hs] at h
    cases h
    exact (addWord_eq_ok_iff.mp hs).1

/-! ### The assembler -/

/-- What came of a chunk. -/
structure Appended where
  /-- The assembler afterwards. -/
  assembler : Assembler
  /-- How many bytes of the chunk were taken. -/
  accepted : Nat
  /-- How many bytes follow its first delimiter. -/
  dropped : Nat
  /-- The command the chunk finished, if it held a delimiter. -/
  command : Option Bytes
  /-- The memory left. -/
  quota : Quota

/-- Finish the command that waits with `tail`. -/
def complete (a : Assembler) (tail : Bytes) (q : Quota) :
    Except Mishap (Except Shortage (Bytes × Quota)) := do
  require (tail ≠ []) .emptyTail
  return (q.grow tail.length).map fun left => (a.pending.bytes ++ tail, left)

/-- How many bytes of a chunk follow the byte number `d`. -/
def dropped (chunk : Bytes) (d : Nat) : Except Mishap Nat := do
  if (← add d 1) < chunk.length then sub (← sub chunk.length d) 1 else return 0

/-- Take one chunk. -/
def append (a : Assembler) (chunk : Bytes) (q : Quota) :
    Except Mishap (Except Shortage Appended) :=
  if chunk = [] then return .ok ⟨a, 0, 0, none, q⟩
  else match chunk.idxOf? a.delimiter with
    | none =>
      return (q.grow chunk.length).map fun left =>
        ⟨⟨a.delimiter, ⟨a.pending.bytes ++ chunk⟩⟩, chunk.length, 0, none, left⟩
    | some d => do
      let head ← slice chunk 0 (← add d 1)
      match ← complete a head q with
      | .error shortage => return .error shortage
      | .ok (command, left) =>
        let dropped ← dropped chunk d
        let accepted ← add d 1
        return .ok ⟨⟨a.delimiter, .empty⟩, accepted, dropped, some command, left⟩

theorem accepted_pos_of_append {a : Assembler} {chunk : Bytes} {q : Quota} {out : Appended}
    {command : Bytes} (h : append a chunk q = .ok (.ok out)) (hc : out.command = some command) :
    0 < out.accepted := by
  unfold append at h
  split at h
  · cases h
    cases hc
  · split at h
    · cases hq : q.grow chunk.length with
      | error e =>
        rw [hq] at h
        cases h
      | ok left =>
        rw [hq] at h
        cases h
        cases hc
    · rename_i d hd
      obtain ⟨stop, -, h⟩ := bind_eq_ok_iff.mp h
      obtain ⟨head, -, h⟩ := bind_eq_ok_iff.mp h
      obtain ⟨finished, -, h⟩ := bind_eq_ok_iff.mp h
      cases finished with
      | error shortage => cases h
      | ok finished =>
        obtain ⟨dropped, -, h⟩ := bind_eq_ok_iff.mp h
        obtain ⟨accepted, haccepted, h⟩ := bind_eq_ok_iff.mp h
        cases h
        exact eq_of_add haccepted ▸ Nat.succ_pos d

/-! ### Feeding -/

/-- The plain data of a store. -/
structure Store where
  /-- Puts commands together. -/
  assembler : Assembler
  /-- The commands that are retained. -/
  ring : Ring

/-- What came of feeding a chunk. -/
structure Fed where
  /-- The store afterwards. -/
  store : Store
  /-- How many bytes of the chunk were taken. -/
  result : Except Shortage Nat
  /-- The memory left. -/
  quota : Quota

/-- What came of one time round. -/
inductive Round where
  /-- The feeding is over. -/
  | last (fed : Fed)
  /-- It goes on with the byte number `accepted`. -/
  | more (store : Store) (accepted : Nat) (quota : Quota)

/-- Take the bytes of a chunk from number `accepted` on, up to the first delimiter. -/
def round (s : Store) (trailing : Trailing) (chunk : Bytes) (accepted : Nat) (q : Quota) :
    Except Mishap Round :=
  if accepted < chunk.length then do
    let rest ← slice chunk accepted chunk.length
    match ← append s.assembler rest q with
    | .error shortage =>
      return .last ⟨s, if 0 < accepted then .ok accepted else .error shortage, q⟩
    | .ok out =>
      let accepted ← add accepted out.accepted
      match out.command with
      | none => return .last ⟨⟨out.assembler, s.ring⟩, .ok accepted, out.quota⟩
      | some command =>
        let (ring, _) ← s.ring.ingest command
        match trailing with
        | .discard => return .last ⟨⟨out.assembler, ring⟩, .ok accepted, out.quota⟩
        | .retain => return .more ⟨out.assembler, ring⟩ accepted out.quota
  else return .last ⟨s, .ok accepted, q⟩

/-- Where a feeding goes on there was still something to take, and some of it was taken. -/
theorem lt_of_round {s s' : Store} {trailing : Trailing} {chunk : Bytes} {accepted next : Nat}
    {q left : Quota} (h : round s trailing chunk accepted q = .ok (.more s' next left)) :
    accepted < next ∧ accepted < chunk.length := by
  unfold round at h
  split at h
  · rename_i hlt
    obtain ⟨rest, -, h⟩ := bind_eq_ok_iff.mp h
    obtain ⟨appended, happended, h⟩ := bind_eq_ok_iff.mp h
    cases appended with
    | error shortage => cases h
    | ok out =>
      obtain ⟨sum, hsum, h⟩ := bind_eq_ok_iff.mp h
      cases hc : out.command with
      | none =>
        rw [hc] at h
        cases h
      | some command =>
        rw [hc] at h
        obtain ⟨stored, -, h⟩ := bind_eq_ok_iff.mp h
        cases trailing with
        | discard => cases h
        | retain =>
          cases h
          have := accepted_pos_of_append happended hc
          have := eq_of_add hsum
          omega
  · cases h

/-- Take the bytes of a chunk from number `accepted` on, as far as the policy and the memory
go. -/
def feed (s : Store) (trailing : Trailing) (chunk : Bytes) (accepted : Nat) (q : Quota) :
    Except Mishap Fed :=
  match _h : round s trailing chunk accepted q with
  | .error m => .error m
  | .ok (.last fed) => .ok fed
  | .ok (.more s accepted q) => feed s trailing chunk accepted q
termination_by chunk.length - accepted
decreasing_by
  have := lt_of_round _h
  omega

theorem feed_of_last {s : Store} {trailing : Trailing} {chunk : Bytes} {accepted : Nat} {q : Quota}
    {fed : Fed} (h : round s trailing chunk accepted q = .ok (.last fed)) :
    feed s trailing chunk accepted q = .ok fed := by
  rw [feed]
  split <;> rename_i heq <;> rw [h] at heq <;> cases heq
  rfl

theorem feed_of_more {s s' : Store} {trailing : Trailing} {chunk : Bytes} {accepted next : Nat}
    {q left : Quota} (h : round s trailing chunk accepted q = .ok (.more s' next left)) :
    feed s trailing chunk accepted q = feed s' trailing chunk next left := by
  rw [feed]
  split <;> rename_i heq <;> rw [h] at heq <;> cases heq
  rfl

/-- Release everything. -/
def Store.tearDown (s : Store) : Except Mishap (Teardown × Store) := do
  let ((commands, commandBytes), ring) ← s.ring.releaseAll
  return (⟨commands, commandBytes, s.assembler.pending.size⟩,
    ⟨⟨s.assembler.delimiter, .empty⟩, ring⟩)

end Checked

/-! ### The assembler on plain data -/

theorem idxOf?_of_breakAfter {d : UInt8} {chunk rest : Bytes} {head : Command}
    (h : breakAfter d chunk = some (head, rest)) :
    ∃ i, chunk.idxOf? d = some i ∧ head.size = i + 1 := by
  obtain ⟨body, hb, hm⟩ := bytes_of_breakAfter h
  have hchunk : chunk = body ++ d :: rest := by
    rw [← append_of_breakAfter h, hb, List.append_assoc, List.singleton_append]
  refine ⟨body.length, ?_, by rw [Command.size, hb, List.length_append, List.length_singleton]⟩
  rw [hchunk, List.idxOf?_eq_some_iff]
  refine ⟨by simp, by simp, ?_⟩
  intro j hj he
  rw [List.getElem_append_left hj] at he
  exact hm (he ▸ List.getElem_mem hj)

/-- The plain data of what came of a chunk. -/
def Appended.plain (out : Appended) : Checked.Appended :=
  ⟨out.assembler, out.accepted, out.rest.length, out.command.map Command.bytes, out.quota⟩

namespace Assembler

open Checked

variable {a : Assembler} {chunk rest : Bytes} {head : Command} {q : Quota}

theorem complete_plain (a : Assembler) (tail : Command) (q : Quota) :
    complete a tail.bytes q =
      .ok ((a.pending.complete tail q).map fun (command, left) => (command.bytes, left)) := by
  rw [complete, require_eq tail.bytes_ne_nil, ok_bind, Pending.complete, Command.size]
  cases q.grow tail.bytes.length <;> rfl

/-- **A chunk can always be taken**: the delimiter lies in it, and is a command's last byte. -/
theorem append_plain (a : Assembler) (hlen : chunk.length < wordLimit) (q : Quota) :
    Checked.append a chunk q = .ok ((a.append chunk q).map Appended.plain) := by
  rw [Checked.append, append]
  by_cases hne : chunk = []
  · subst hne
    rfl
  rw [if_neg hne]
  cases hb : breakAfter a.delimiter chunk with
  | none =>
    rw [List.idxOf?_eq_none_iff.mpr (breakAfter_eq_none_iff.mp hb)]
    simp only [if_neg hne, Pending.append]
    cases q.grow chunk.length <;> rfl
  | some halves =>
    obtain ⟨head, rest⟩ := halves
    obtain ⟨i, hi, hsize⟩ := idxOf?_of_breakAfter hb
    have hchunk := append_of_breakAfter hb
    have hcount : chunk.length = i + 1 + rest.length := by
      rw [← hchunk, List.length_append, ← hsize, Command.size]
    have hhead : (chunk.take (i + 1)).drop 0 = head.bytes := by
      rw [List.drop_zero, ← hsize, ← hchunk, Command.size, List.take_left]
    have hdropped : dropped chunk i = .ok rest.length := by
      rw [dropped, add_eq (by omega), ok_bind]
      split
      · rw [sub_eq (by omega), ok_bind, sub_eq (by omega)]
        congr 1
        omega
      · rw [pure_eq_ok]
        congr 1
        omega
    rw [hi]
    simp only [add_eq (show i + 1 < wordLimit by omega), ok_bind,
      slice_eq (Nat.zero_le _) (show i + 1 ≤ chunk.length by omega), hhead, complete_plain,
      hdropped]
    cases a.pending.complete head q with
    | error e => rfl
    | ok finished =>
      simp only [Except.map, pure_eq_ok, Appended.plain, hsize, Option.map_some]

end Assembler

theorem Assembler.drop_accepted {a : Assembler} {chunk : Bytes} {q : Quota} {out : Appended}
    (h : a.append chunk q = .ok out) : chunk.drop out.accepted = out.rest := by
  unfold append at h
  split at h
  · rename_i head rest hb
    split at h
    · cases h
      rw [← append_of_breakAfter hb, Command.size, List.drop_left]
    · cases h
  · split at h
    · rename_i hne
      cases h
      rw [hne, List.drop_nil]
    · split at h
      · cases h
        rw [List.drop_length]
      · cases h

/-! ### Stores on plain data -/

/-- The plain data of a store. -/
def Store.plain (s : Store) : Checked.Store := ⟨s.assembler, s.ring.plain⟩

/-- The plain data of what came of feeding the bytes of a chunk from number `before` on. -/
def Fed.plain (before : Nat) (fed : Fed) : Checked.Fed :=
  ⟨fed.store.plain, { fed with accepted := before + fed.accepted }.result, fed.quota⟩

theorem Fed.plain_zero (fed : Fed) : fed.plain 0 = ⟨fed.store.plain, fed.result, fed.quota⟩ := by
  rw [plain, Nat.zero_add]

theorem Ring.Laid.absorb {s : Store} (h : s.ring.Laid) (bytes : Bytes) :
    (s.absorb bytes).ring.Laid :=
  (s.capacity_absorb bytes).trans_lt h

namespace Store

open Checked

variable {s : Store} {trailing : Trailing} {chunk : Bytes} {before : Nat} {q : Quota}

/-- One time round on plain data. -/
theorem round_plain (trailing : Trailing) (q : Quota) (hr : s.ring.Laid)
    (hlen : chunk.length < wordLimit) (hle : before ≤ chunk.length) :
    Checked.round s.plain trailing chunk before q =
      .ok (match s.assembler.append (chunk.drop before) q with
        | .error e => .last (Fed.plain before ⟨s, 0, some e, q, []⟩)
        | .ok out =>
          match out.command with
          | none =>
            .last (Fed.plain before
              ⟨{ s with assembler := out.assembler }, out.accepted, none, out.quota, []⟩)
          | some command =>
            let stored := (s.ingest out.assembler command).1
            match trailing with
            | .discard => .last (Fed.plain before ⟨stored, out.accepted, none, out.quota, []⟩)
            | .retain => .more stored.plain (before + out.accepted) out.quota) := by
  rw [Checked.round]
  by_cases hlt : before < chunk.length
  · have hrest : (chunk.take chunk.length).drop before = chunk.drop before := by
      rw [List.take_length]
    have hshort : (chunk.drop before).length < wordLimit := by
      rw [List.length_drop]
      omega
    rw [if_pos hlt, slice_eq hle le_rfl, ok_bind, hrest]
    show Checked.append s.assembler (chunk.drop before) q >>= _ = _
    rw [s.assembler.append_plain hshort, ok_bind]
    cases h : s.assembler.append (chunk.drop before) q with
    | error e => cases before <;> rfl
    | ok out =>
      have hsum : before + out.accepted < wordLimit := by
        have := Assembler.accepted_add_rest h
        rw [List.length_drop] at this
        omega
      simp only [Except.map, Appended.plain, add_eq hsum, ok_bind]
      cases out.command with
      | none => rfl
      | some command =>
        show s.ring.plain.ingest command.bytes >>= _ = _
        rw [s.ring.ingest_plain hr, ok_bind]
        cases trailing <;> rfl
  · rw [if_neg hlt, List.drop_eq_nil_of_le (Nat.le_of_not_lt hlt)]
    rfl

/-- **A chunk can always be fed**, whatever the policy and the memory, and feeding plain data
does the same as feeding a store. -/
theorem feed_plain (hr : s.ring.Laid) (hlen : chunk.length < wordLimit)
    (hle : before ≤ chunk.length) :
    Checked.feed s.plain trailing chunk before q =
      .ok ((s.feed trailing (chunk.drop before) q).plain before) := by
  generalize hrest : chunk.drop before = rest
  have hround := round_plain trailing q hr hlen hle
  rw [hrest] at hround
  fun_induction feed s trailing rest q generalizing before with
  | case1 s trailing rest q e happend =>
    rw [happend] at hround
    exact feed_of_last hround
  | case2 s trailing rest q out happend hc =>
    rw [happend] at hround
    simp only [hc] at hround
    exact feed_of_last hround
  | case3 s rest q out happend command hc stored evictions hstored =>
    rw [happend] at hround
    simp only [hc, hstored] at hround
    exact feed_of_last hround
  | case4 s rest q out happend command hc stored evictions hstored =>
    rename_i ih
    have hlength := Assembler.accepted_add_rest happend
    have hdrop := Assembler.drop_accepted happend
    rw [← hrest, List.length_drop] at hlength
    rw [← hrest, List.drop_drop] at hdrop
    rw [happend] at hround
    simp only [hc, hstored] at hround
    have hlaid : stored.ring.Laid := by
      have hring : stored.ring = (s.ring.ingest command).1 := congrArg (·.1.ring) hstored.symm
      exact hring ▸ hr.ingest command
    have hle' : before + out.accepted ≤ chunk.length := by omega
    have hmore := round_plain .retain out.quota hlaid hlen hle'
    rw [hdrop] at hmore
    rw [feed_of_more hround, ih hlaid hle' hdrop hmore, Fed.plain, Nat.add_assoc]
    rfl

/-- **All that is stored can be counted when it is torn down.** -/
theorem tearDown_plain (hr : s.ring.Laid) (h : Stream.size s.live < wordLimit) :
    s.plain.tearDown = .ok (s.tearDown.1, s.tearDown.2.plain) := by
  show s.ring.plain.releaseAll >>= _ = _
  rw [s.ring.releaseAll_plain hr h, ok_bind]
  rfl

end Store

end Spool
