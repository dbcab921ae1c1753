import Spool.Proofs.Feeding

/-!
# Runs of an assembler

A caller appends chunks to an assembler, some of which are refused for want of memory, and now and
then has the pending bytes discarded. This module says what comes of any number of such calls.

All that an append does is said by one equation (`serve_append`): there is a part of the chunk that
it is to take (`part`), this part asks for memory once, and if it gets it the part goes to the
pending bytes or ends a command. So nothing but this part makes any difference, and one that is
refused makes none. Of a whole run (`assembles_in_order`) this says that the bytes taken are those
that leave in commands or are discarded and those that still wait, in the same order.
-/

namespace Spool.Assembler

/-! ### Calls -/

/-- What a caller has an assembler do. -/
inductive Call where
  /-- Take a chunk, with so much memory. -/
  | append (chunk : Bytes) (quota : Quota)
  /-- Release the pending bytes. -/
  | discard
  deriving DecidableEq

/-- What the caller is told. -/
inductive Reply where
  /-- So many bytes of the chunk were taken, and this command was finished. -/
  | appended (accepted : Nat) (command : Option Command)
  /-- No memory was left. -/
  | refused (shortage : Shortage)
  /-- So many bytes were released. -/
  | discarded (count : Nat)
  deriving DecidableEq

/-- Whether nothing was done. -/
def Reply.isRefused : Reply → Bool
  | refused _ => true
  | _ => false

/-- What comes of a call, and the assembler afterwards. -/
def serve (a : Assembler) : Call → Reply × Assembler
  | .append chunk q =>
    match a.append chunk q with
    | .ok out => (.appended out.accepted out.command, out.assembler)
    | .error s => (.refused s, a)
  | .discard => (.discarded a.discardPending.1, a.discardPending.2)

/-- The assembler after successive calls. -/
def after (a : Assembler) (calls : List Call) : Assembler :=
  calls.foldl (fun a call => (a.serve call).2) a

/-- A call, and what came of it. -/
structure Moment where
  /-- The assembler before the call. -/
  before : Assembler
  /-- The call. -/
  call : Call
  /-- What the caller is told. -/
  reply : Reply
  /-- The assembler after the call. -/
  next : Assembler
  deriving DecidableEq

/-- The moment of one call. -/
def moment (a : Assembler) (call : Call) : Moment :=
  ⟨a, call, (a.serve call).1, (a.serve call).2⟩

/-- The moments of successive calls, in order. -/
def along (a : Assembler) : List Call → List Moment
  | [] => []
  | call :: calls => a.moment call :: along (a.moment call).next calls

namespace Moment

/-- The bytes that are taken from the caller. -/
def taken : Moment → Bytes
  | ⟨_, .append chunk _, .appended accepted _, _⟩ => chunk.take accepted
  | _ => []

/-- The bytes that leave: those of a command, or those that wait when they are discarded. -/
def left : Moment → Bytes
  | ⟨_, _, .appended _ (some command), _⟩ => command.bytes
  | ⟨before, _, .discarded _, _⟩ => before.pending.bytes
  | _ => []

end Moment

/-! ### One append -/

variable {d : UInt8} {chunk : Bytes}

/-- The part of a chunk that an append is to take: up to its first delimiter, or all of it. -/
def part (d : UInt8) (chunk : Bytes) : Bytes := chunk.take (chunk.idxOf d + 1)

theorem part_of_notMem (h : d ∉ chunk) : part d chunk = chunk := by
  rw [part, List.idxOf_eq_length h]
  exact List.take_of_length_le (Nat.le_succ _)

theorem part_of_breakAfter {head : Command} {rest : Bytes}
    (h : breakAfter d chunk = some (head, rest)) : part d chunk = head.bytes := by
  rw [part, ← size_of_breakAfter h]
  conv_lhs => rw [← append_of_breakAfter h]
  exact List.take_left

theorem part_append_cons (front back : Bytes) :
    part d (front ++ d :: back) = part d (front ++ [d]) := by
  rw [part, part, List.idxOf_append, List.idxOf_append]
  split
  · rename_i hmem
    have := List.idxOf_lt_length_iff.mpr hmem
    rw [List.take_append_of_le_length (by omega), List.take_append_of_le_length (by omega)]
  · rw [List.idxOf_cons_self, List.idxOf_cons_self, Nat.zero_add,
      List.take_length_add_append, List.take_length_add_append]
    rfl

/-- **What an append does.** The part of the chunk that it is to take asks for memory once. -/
theorem serve_append (a : Assembler) (chunk : Bytes) (q : Quota) :
    a.serve (.append chunk q) =
      match q.grow (part a.delimiter chunk).length with
      | .ok _ =>
        if a.delimiter ∈ chunk then
          (.appended (part a.delimiter chunk).length
            (Command.ofBytes? (a.pending.bytes ++ part a.delimiter chunk)), start a.delimiter)
        else (.appended chunk.length none, ⟨a.delimiter, ⟨a.pending.bytes ++ chunk⟩⟩)
      | .error s => (.refused s, a) := by
  cases hb : breakAfter a.delimiter chunk with
  | none =>
    have hd := breakAfter_eq_none_iff.mp hb
    rw [part_of_notMem hd]
    by_cases hne : chunk = []
    · simp [hne, serve, append, breakAfter]
    · cases hq : q.grow chunk.length with
      | error s => rw [serve, append_uncut_refused hd hne hq]
      | ok left => rw [serve, append_uncut hd hne hq, if_neg hd]
  | some halves =>
    obtain ⟨head, rest⟩ := halves
    have hd : a.delimiter ∈ chunk := by
      by_contra hnot
      rw [breakAfter_eq_none_iff.mpr hnot] at hb
      cases hb
    rw [part_of_breakAfter hb]
    cases hq : q.grow head.bytes.length with
    | error s => rw [serve, append_cut_refused hb hq]
    | ok left =>
      have hcommand : Command.ofBytes? (a.pending.bytes ++ head.bytes) =
          some (head.prepend a.pending.bytes) := dif_pos (head.prepend _).bytes_ne_nil
      rw [serve, append_cut hb hq, if_pos hd, hcommand]
      rfl

/-! ### One call -/

/-- A call that says nothing but what matters of it: the part of a chunk that is to be taken. -/
def Call.trim (d : UInt8) : Call → Call
  | append chunk q => append (part d chunk) q
  | discard => discard

theorem mem_part (h : d ∈ chunk) : ∃ body, part d chunk = body ++ [d] ∧ d ∉ body := by
  cases hb : breakAfter d chunk with
  | none => exact absurd h (breakAfter_eq_none_iff.mp hb)
  | some halves =>
    obtain ⟨head, rest⟩ := halves
    rw [part_of_breakAfter hb]
    exact bytes_of_breakAfter hb

theorem part_part (d : UInt8) (chunk : Bytes) : part d (part d chunk) = part d chunk := by
  by_cases h : d ∈ chunk
  · obtain ⟨body, hpart, hbody⟩ := mem_part h
    rw [hpart, part, List.idxOf_append, if_neg hbody, List.idxOf_cons_self, Nat.zero_add]
    exact List.take_of_length_le (by simp)
  · rw [part_of_notMem h, part_of_notMem h]

/-- **Nothing but the part matters.** -/
theorem serve_trim (a : Assembler) (call : Call) :
    a.serve (call.trim a.delimiter) = a.serve call := by
  cases call with
  | discard => rfl
  | append chunk q =>
    by_cases h : a.delimiter ∈ chunk
    · obtain ⟨body, hpart, -⟩ := mem_part h
      rw [Call.trim, serve_append, serve_append, part_part, if_pos h, if_pos (by simp [hpart])]
    · rw [Call.trim, part_of_notMem h]

/-- What can come of a call: the assembler is left as it is, the chunk waits, or what waits leaves
with the part of the chunk or without. -/
inductive Serves (a : Assembler) : Call → Reply × Assembler → Prop where
  | refused {chunk : Bytes} {q : Quota} :
    Serves a (.append chunk q) (.refused ⟨(part a.delimiter chunk).length⟩, a)
  | waits {chunk : Bytes} {q : Quota} (hd : a.delimiter ∉ chunk) :
    Serves a (.append chunk q)
      (.appended chunk.length none, ⟨a.delimiter, ⟨a.pending.bytes ++ chunk⟩⟩)
  | finishes {chunk body : Bytes} {q : Quota} {command : Command}
    (hpart : part a.delimiter chunk = body ++ [a.delimiter]) (hbody : a.delimiter ∉ body)
    (hcommand : command.bytes = a.pending.bytes ++ part a.delimiter chunk) :
    Serves a (.append chunk q)
      (.appended (part a.delimiter chunk).length (some command), start a.delimiter)
  | discards : Serves a .discard (.discarded a.pending.size, start a.delimiter)

theorem serves (a : Assembler) (call : Call) : Serves a call (a.serve call) := by
  cases call with
  | discard => exact .discards
  | append chunk q =>
    rw [serve_append]
    cases hq : q.grow (part a.delimiter chunk).length with
    | error s =>
      rw [Quota.eq_of_grow_eq_error hq]
      exact .refused
    | ok left =>
      dsimp only
      split_ifs with hd
      · obtain ⟨body, hpart, hbody⟩ := mem_part hd
        have hne : a.pending.bytes ++ part a.delimiter chunk ≠ [] := by simp [hpart]
        rw [Command.ofBytes?, dif_pos hne]
        exact .finishes hpart hbody rfl
      · exact .waits hd

theorem delimiter_next (a : Assembler) (call : Call) :
    (a.moment call).next.delimiter = a.delimiter := by
  have hserves := serves a call
  rw [moment]
  generalize a.serve call = result at hserves ⊢
  cases hserves <;> rfl

theorem next_of_isRefused {a : Assembler} {call : Call}
    (h : (a.moment call).reply.isRefused = true) : (a.moment call).next = a := by
  have hserves := serves a call
  rw [moment] at h ⊢
  generalize a.serve call = result at hserves h ⊢
  cases hserves with
  | refused => rfl
  | waits | finishes | discards => cases h

/-- What one call does to the bytes. -/
structure Moment.Orderly (d : UInt8) (m : Moment) : Prop where
  /-- The delimiter is not among the bytes that wait. -/
  waits : d ∉ m.next.pending.bytes
  /-- What leaves and what still waits is what waited and what was taken. -/
  balance : m.left ++ m.next.pending.bytes = m.before.pending.bytes ++ m.taken
  /-- A command ends with the delimiter and has it nowhere else. -/
  single : ∀ accepted command, m.reply = .appended accepted (some command) →
    ∃ body, command.bytes = body ++ [d] ∧ d ∉ body
  /-- What is discarded is counted, and nothing waits. -/
  discarded : ∀ count, m.reply = .discarded count → count = m.left.length ∧ m.next = start d
  /-- What is refused names the part that was to be taken, and changes nothing. -/
  refused : ∀ s, m.reply = .refused s → m.next = m.before ∧
    ∃ chunk q, m.call = .append chunk q ∧ s.requested = (part d chunk).length

/-- **One call keeps the bytes in order.** -/
theorem orderly_moment {a : Assembler} (h : a.delimiter ∉ a.pending.bytes) (call : Call) :
    (a.moment call).Orderly a.delimiter := by
  rw [moment]
  have hserves := serves a call
  generalize a.serve call = result at hserves
  cases hserves with
  | refused =>
    refine ⟨h, (List.append_nil _).symm, nofun, nofun, ?_⟩
    rintro _ ⟨⟩
    exact ⟨rfl, _, _, rfl, rfl⟩
  | @waits chunk q hd =>
    refine ⟨fun hmem => (List.mem_append.mp hmem).elim h hd, ?_, nofun, nofun, nofun⟩
    simp [Moment.left, Moment.taken]
  | @finishes chunk body q command hpart hbody hcommand =>
    refine ⟨List.not_mem_nil, ?_, ?_, nofun, nofun⟩
    · have htaken : chunk.take (part a.delimiter chunk).length = part a.delimiter chunk := by
        rw [part, List.length_take, ← List.take_take, List.take_length]
      simp [Moment.left, Moment.taken, start, Pending.empty, htaken, hcommand]
    · rintro _ _ ⟨⟩
      refine ⟨a.pending.bytes ++ body, by rw [hcommand, hpart, List.append_assoc], fun hmem => ?_⟩
      exact (List.mem_append.mp hmem).elim h hbody
  | discards =>
    refine ⟨List.not_mem_nil, rfl, nofun, ?_, nofun⟩
    rintro _ ⟨⟩
    exact ⟨rfl, rfl⟩

/-! ### Runs -/

variable {a : Assembler}

/-- **A run keeps the bytes in order**, as each of its calls does. -/
theorem orderly_along (h : a.delimiter ∉ a.pending.bytes) (calls : List Call) :
    a.delimiter ∉ (a.after calls).pending.bytes ∧ (∀ m ∈ a.along calls, m.Orderly a.delimiter) ∧
    (a.along calls).flatMap Moment.left ++ (a.after calls).pending.bytes =
      a.pending.bytes ++ (a.along calls).flatMap Moment.taken := by
  induction calls generalizing a with
  | nil => exact ⟨h, by simp [along], by simp [along, after]⟩
  | cons call calls ih =>
    have hmoment := orderly_moment h call
    have hnext : (a.moment call).next.delimiter ∉ (a.moment call).next.pending.bytes := by
      rw [delimiter_next]
      exact hmoment.waits
    obtain ⟨hwaits, hall, hbalance⟩ := ih hnext
    rw [delimiter_next] at hwaits hall
    refine ⟨hwaits, List.forall_mem_cons.mpr ⟨hmoment, hall⟩, ?_⟩
    calc (a.moment call :: (a.moment call).next.along calls).flatMap Moment.left ++
          ((a.moment call).next.after calls).pending.bytes
        = (a.moment call).left ++ ((a.moment call).next.pending.bytes ++
            ((a.moment call).next.along calls).flatMap Moment.taken) := by
          rw [List.flatMap_cons, List.append_assoc, hbalance]
      _ = a.pending.bytes ++ ((a.moment call).taken ++
            ((a.moment call).next.along calls).flatMap Moment.taken) := by
          rw [← List.append_assoc, hmoment.balance, List.append_assoc]
          rfl

/-- **Calls that are refused can be left out.** -/
theorem along_kept (a : Assembler) (calls : List Call) :
    let kept := (a.along calls).filter fun m => !m.reply.isRefused
    a.along (kept.map Moment.call) = kept ∧ a.after (kept.map Moment.call) = a.after calls := by
  induction calls generalizing a with
  | nil => exact ⟨rfl, rfl⟩
  | cons call calls ih =>
    obtain ⟨halong, hafter⟩ := ih (a.moment call).next
    dsimp only at halong hafter ⊢
    rw [along, List.filter_cons]
    split
    · exact ⟨congrArg (a.moment call :: ·) halong, hafter⟩
    · rename_i hrefused
      rw [Bool.not_eq_true, Bool.not_eq_false'] at hrefused
      rw [next_of_isRefused hrefused] at halong hafter ⊢
      refine ⟨halong, hafter.trans ?_⟩
      show _ = (a.moment call).next.after calls
      rw [next_of_isRefused hrefused]

/-- **Nothing but what is to be taken matters**, to no later call either. -/
theorem replies_trim (a : Assembler) (calls : List Call) :
    (a.along (calls.map (Call.trim a.delimiter))).map Moment.reply =
        (a.along calls).map Moment.reply ∧
      a.after (calls.map (Call.trim a.delimiter)) = a.after calls := by
  induction calls generalizing a with
  | nil => exact ⟨rfl, rfl⟩
  | cons call calls ih =>
    have hreply : (a.moment (call.trim a.delimiter)).reply = (a.moment call).reply :=
      congrArg Prod.fst (serve_trim a call)
    have hnext : (a.moment (call.trim a.delimiter)).next = (a.moment call).next :=
      congrArg Prod.snd (serve_trim a call)
    obtain ⟨hreplies, hafter⟩ := ih (a.moment call).next
    rw [delimiter_next] at hreplies hafter
    constructor
    · rw [List.map_cons, along, List.map_cons, hreply, hnext, hreplies, along, List.map_cons]
    · show (a.moment (call.trim a.delimiter)).next.after _ = (a.moment call).next.after calls
      rw [hnext, hafter]

/-- Two calls that differ at most in bytes after a delimiter. -/
inductive Call.Alike (d : UInt8) : Call → Call → Prop where
  /-- They do not differ. -/
  | same (call : Call) : Alike d call call
  /-- They differ behind the delimiter. -/
  | behind (front back back' : Bytes) (q : Quota) :
    Alike d (.append (front ++ d :: back) q) (.append (front ++ d :: back') q)

theorem Call.Alike.trim_eq {call call' : Call} (h : call.Alike d call') :
    call.trim d = call'.trim d := by
  cases h with
  | same => rfl
  | behind front back back' q =>
    rw [Call.trim, Call.trim, part_append_cons, part_append_cons front back']

/-- **Runs that differ only behind delimiters come to the same.** -/
theorem replies_of_alike {calls calls' : List Call}
    (h : List.Forall₂ (Call.Alike a.delimiter) calls calls') :
    (a.along calls').map Moment.reply = (a.along calls).map Moment.reply ∧
      a.after calls' = a.after calls := by
  have htrim : calls.map (Call.trim a.delimiter) = calls'.map (Call.trim a.delimiter) := by
    induction h with
    | nil => rfl
    | cons h _ ih => rw [List.map_cons, List.map_cons, h.trim_eq, ih]
  obtain ⟨hreplies, hafter⟩ := replies_trim a calls
  rw [htrim] at hreplies hafter
  obtain ⟨hreplies', hafter'⟩ := replies_trim a calls'
  exact ⟨hreplies'.symm.trans hreplies, hafter'.symm.trans hafter⟩

/-- **An assembler puts bytes together in order**, whatever chunks come and whatever memory is
refused. The delimiter never waits and every command has it only at its end. The bytes that leave,
in commands or when they are discarded, and those that wait in the end are the bytes that were
taken, in the same order. An append that is refused names the size of what it was to take, and the
run is the same without it. What comes behind the first delimiter of a chunk makes no
difference. -/
theorem assembles_in_order (d : UInt8) (calls : List Call) :
    let run := (start d).along calls
    let last := (start d).after calls
    let kept := run.filter fun m => !m.reply.isRefused
    d ∉ last.pending.bytes ∧ (∀ m ∈ run, m.Orderly d) ∧
    run.flatMap Moment.left ++ last.pending.bytes = run.flatMap Moment.taken ∧
    (start d).along (kept.map Moment.call) = kept ∧
    (start d).after (kept.map Moment.call) = last ∧
    ∀ calls', List.Forall₂ (Call.Alike d) calls calls' →
      ((start d).along calls').map Moment.reply = run.map Moment.reply ∧
        (start d).after calls' = last := by
  intro run last kept
  obtain ⟨hwaits, horderly, hbalance⟩ :=
    orderly_along (a := start d) List.not_mem_nil calls
  obtain ⟨halong, hafter⟩ := along_kept (start d) calls
  exact ⟨hwaits, horderly, hbalance, halong, hafter, fun _ halike => replies_of_alike halike⟩

/-- A chunk with a rest behind its delimiter, one that is refused, and one that is discarded. -/
theorem assembles_in_order_of_refusal :
    let calls : List Call := [.append [97, 98] .unlimited, .append [99, 10, 100, 10] .unlimited,
      .append [101] (.atMost 0), .append [102, 103] (.atMost 1), .discard, .append [104] .unlimited]
    let calls' : List Call := calls.set 1 (.append [99, 10] .unlimited)
    let run := (start 10).along calls
    run.map Moment.reply = [.appended 2 none, .appended 2 (Command.ofBytes? [97, 98, 99, 10]),
      .refused ⟨1⟩, .appended 2 none, .discarded 2, .appended 1 none] ∧
    run.flatMap Moment.taken = [97, 98, 99, 10, 102, 103, 104] ∧
    run.flatMap Moment.left ++ [104] = run.flatMap Moment.taken ∧
    ((start 10).along calls').map Moment.reply = run.map Moment.reply := by
  intro calls calls' run
  obtain ⟨-, -, hbalance, -, -, halike⟩ := assembles_in_order 10 calls
  have h : List.Forall₂ (Call.Alike 10) calls calls' :=
    .cons (.same _) (.cons (.behind [99] [100, 10] [] _) (.cons (.same _) (.cons (.same _)
      (.cons (.same _) (.cons (.same _) .nil)))))
  exact ⟨by decide, by decide, hbalance, (halike calls' h).1⟩

end Spool.Assembler
