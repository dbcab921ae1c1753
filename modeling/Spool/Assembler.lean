import Spool.Command
import Spool.Record

/-!
# Assembling commands

Callers write chunks that are cut anywhere. An `Assembler` puts them together
again: bytes wait in its pending buffer until a chunk holds the delimiter, and
then the pending bytes and the chunk up to its first delimiter become one
command. The rest of that chunk is not touched; it is handed back to the caller
as `Appended.rest`, who can append it in turn.
-/

namespace Spool

/-- Cut `chunk` after its first delimiter: the bytes up to it and the bytes that
follow, or nothing if it holds no delimiter. -/
def breakAfter (delimiter : UInt8) : Bytes → Option (Command × Bytes)
  | [] => none
  | b :: rest =>
    if b = delimiter then some (.single b, rest)
    else match breakAfter delimiter rest with
      | some (head, tail) => some (head.prepend [b], tail)
      | none => none

/-- What `breakAfter` cuts are the two halves of the chunk. -/
theorem append_of_breakAfter {d : UInt8} {chunk : Bytes} {head : Command} {rest : Bytes}
    (h : breakAfter d chunk = some (head, rest)) : head.bytes ++ rest = chunk := by
  fun_induction breakAfter d chunk generalizing head rest with
  | case1 => simp at h
  | case2 =>
    simp only [Option.some.injEq, Prod.mk.injEq] at h
    obtain ⟨rfl, rfl⟩ := h
    rfl
  | case3 b r hb front tail e ih =>
    simp only [Option.some.injEq, Prod.mk.injEq] at h
    obtain ⟨rfl, rfl⟩ := h
    simp [ih e]
  | case4 => simp at h

/-- Puts the bytes of successive chunks together into commands. -/
structure Assembler where
  /-- The byte that ends a command. -/
  delimiter : UInt8
  /-- The bytes of the command that is not finished. -/
  pending : Pending
  deriving DecidableEq

/-- What came of a chunk. -/
structure Appended where
  /-- The assembler afterwards. -/
  assembler : Assembler
  /-- How many bytes of the chunk were taken. -/
  accepted : Nat
  /-- The bytes that were not taken. -/
  rest : Bytes
  /-- The command the chunk finished, if it held a delimiter. -/
  command : Option Command
  /-- The memory left. -/
  quota : Quota
  /-- What was logged. -/
  records : List Record

namespace Assembler

/-- An assembler without pending bytes. -/
def start (delimiter : UInt8) : Assembler := ⟨delimiter, .empty⟩

/-- Take one chunk. An empty chunk changes nothing; a chunk without a delimiter
becomes pending as a whole; a chunk with one finishes a command and is taken up to
its first delimiter. If memory is refused, nothing is taken. -/
def append (a : Assembler) (chunk : Bytes) (q : Quota) : Except Shortage Appended :=
  match breakAfter a.delimiter chunk with
  | some (head, rest) =>
    match a.pending.complete head q with
    | .ok (command, quota) => .ok
        { assembler := { a with pending := .empty }
          accepted := head.size
          rest, command := some command, quota
          records := if rest = [] then [] else [.dropped rest.length] }
    | .error s => .error s
  | none =>
    if chunk = [] then .ok
      { assembler := a, accepted := 0, rest := [], command := none, quota := q, records := [] }
    else match a.pending.append chunk q with
      | .ok (pending, quota) => .ok
          { assembler := { a with pending }
            accepted := chunk.length
            rest := [], command := none, quota
            records := [.absorbed chunk.length pending.size] }
      | .error s => .error s

/-- Release the pending bytes: how many there were. -/
def discardPending (a : Assembler) : Nat × Assembler :=
  let (count, pending) := a.pending.clear
  (count, { a with pending })

/-- One line about an assembler. -/
def describe (a : Assembler) : String :=
  "CommandAssembler(delimiter=" ++ Text.quotedChar (Char.ofNat a.delimiter.toNat) ++
    ", pending=" ++ toString a.pending.size ++ ")"

/-- What is taken and what is left over make up the chunk. -/
theorem accepted_add_rest {a : Assembler} {chunk : Bytes} {q : Quota} {out : Appended}
    (h : a.append chunk q = .ok out) : out.accepted + out.rest.length = chunk.length := by
  unfold append at h
  split at h
  · rename_i head rest hb
    split at h
    · cases h
      simp [← append_of_breakAfter hb, Command.size]
    · cases h
  · split at h
    · cases h; simp_all
    · split at h
      · cases h; simp
      · cases h

/-- A chunk that finishes a command is taken at least in part. -/
theorem rest_lt_of_command {a : Assembler} {chunk : Bytes} {q : Quota} {out : Appended}
    {c : Command} (h : a.append chunk q = .ok out) (hc : out.command = some c) :
    out.rest.length < chunk.length := by
  unfold append at h
  split at h
  · rename_i head rest hb
    split at h
    · cases h
      have := head.size_pos
      simp only [← append_of_breakAfter hb, List.length_append]
      simp only [Command.size] at this
      omega
    · cases h
  · split at h
    · cases h; simp at hc
    · split at h
      · cases h; simp at hc
      · cases h

end Assembler

end Spool
