import Spool.Proofs.Offsets
import Spool.Proofs.Retention
import Mathlib.Data.List.Rotate

/-!
# The ring is a bounded queue

What a ring does over any number of calls is that of a queue of bounded length. A `Ledger`
keeps, beside a ring, what a queue would be asked about: the commands that were ingested since
the ring was last emptied, and all that ever came in, were evicted or were released. The books
balance (`Ledger.Balanced`): the ring holds the last of the commands since, as many as it has
slots, and every command that came in has either left, once, or is live. The balance is kept
by every call (`Ledger.Balanced.call`), so it holds after any number of them
(`Ledger.balanced_after`).

The live commands are met by going through the slots from the oldest one on, index by index
modulo the number of slots (`Ring.walk_eq_live`). To release them the slots are emptied in the
order in which they lie, which in a ring that has gone round is another; this shows in no
count (`Ring.held_perm_live`).
-/

namespace Spool

namespace Ring

/-! ### Slots in a circle -/

/-- The slot that holds the oldest live command. -/
def oldestIndex (r : Ring) : Nat := if r.full then r.writeIndex else 0

/-- The commands that are met on the way from the oldest slot round the ring. -/
def walk (r : Ring) : List Command :=
  (List.range r.size).filterMap fun i => (r.slots[(r.oldestIndex + i) % r.capacity]?).join

/-- The commands in the slots, in the order of the slots. -/
def held (r : Ring) : List Command := r.slots.toList.filterMap id

/-- The slots from the write index on, and then those before it. -/
theorem live_eq_rotate (r : Ring) :
    r.live = (r.slots.toList.rotate r.writeIndex).filterMap id := by
  have hw : r.writeIndex ≤ r.slots.toList.length := by
    simpa using Nat.le_of_lt r.writeIndex_lt
  rw [live, List.rotate_eq_drop_append_take hw]

/-- As long as a ring is not full, its commands are in the slots before the write index. -/
theorem live_of_not_full (r : Ring) (h : r.full = false) :
    r.live = (r.slots.toList.take r.writeIndex).filterMap id := by
  have hempty : (r.slots.toList.drop r.writeIndex).filterMap id = [] := by
    refine List.filterMap_eq_nil_iff.mpr fun x hx => ?_
    obtain ⟨i, hi, rfl⟩ := List.mem_iff_getElem.mp hx
    have hlt : r.writeIndex + i < r.slots.size := by simp at hi; omega
    have hslot : r.slots[r.writeIndex + i].isSome = false := by
      rw [r.isSome_slots _ hlt, h]
      simp
    simpa using hslot
  rw [live, List.filterMap_append, hempty, List.nil_append]

/-- **Going round the ring from the oldest slot** one meets the live commands, oldest first. -/
theorem walk_eq_live (r : Ring) : r.walk = r.live := by
  have hw := r.writeIndex_lt
  have hpos := r.capacity_pos
  cases hfull : r.full with
  | true =>
    -- the oldest command is where the next one goes, and all slots are met from there on
    rw [walk, live_eq_rotate, size, oldestIndex, if_pos hfull, if_pos hfull]
    have hslots : r.slots.toList.rotate r.writeIndex =
        (List.range r.capacity).map fun i => (r.slots[(r.writeIndex + i) % r.capacity]?).join := by
      refine List.ext_getElem (by simp [capacity]) fun i hi _ => ?_
      have hlt : (r.writeIndex + i) % r.slots.size < r.slots.size := Nat.mod_lt _ hpos
      simp [List.getElem_rotate, capacity, Nat.add_comm i, hlt]
    rw [hslots, List.filterMap_map]
    rfl
  | false =>
    -- the oldest command is in the first slot, and the walk ends before it comes round
    rw [walk, live_of_not_full r hfull, size, oldestIndex, hfull]
    have hslots : r.slots.toList.take r.writeIndex =
        (List.range r.writeIndex).map fun i => (r.slots[(0 + i) % r.capacity]?).join := by
      refine List.ext_getElem (by simp; omega) fun i hi _ => ?_
      have hlt : i < r.writeIndex := by simp at hi; omega
      have hmod : i % r.capacity = i := Nat.mod_eq_of_lt (Nat.lt_trans hlt hw)
      have hsize : i < r.slots.size := Nat.lt_trans hlt hw
      simp [hmod, hsize]
    rw [hslots, List.filterMap_map]
    rfl

theorem isEmpty_iff (r : Ring) : r.isEmpty = true ↔ r.live = [] := by
  have hpos := r.capacity_pos
  rw [← List.length_eq_zero_iff, length_live, size, isEmpty]
  cases hfull : r.full with
  | true => simp; omega
  | false => simp

/-- **The slots hold the live commands**, in some order. -/
theorem held_perm_live (r : Ring) : r.held.Perm r.live := by
  have hsplit : r.held = (r.slots.toList.take r.writeIndex ++
      r.slots.toList.drop r.writeIndex).filterMap id := by
    rw [List.take_append_drop, held]
  rw [hsplit, live]
  exact List.perm_append_comm.filterMap id

theorem size_eq_of_perm {a b : List Command} (h : a.Perm b) : Stream.size a = Stream.size b := by
  rw [← Stream.length_bytes, ← Stream.length_bytes]
  exact (h.flatMap_right Command.bytes).length_eq

/-- **A release is of the live commands**, and leaves a new ring. -/
theorem releaseAll_eq (r : Ring) :
    r.releaseAll = ((r.live.length, Stream.size r.live), start r.capacity r.capacity_pos) := by
  have hperm := r.held_perm_live
  rw [← hperm.length_eq, ← size_eq_of_perm hperm]
  rfl

end Ring

/-! ### The books -/

/-- What can be done to a ring. -/
inductive RingCall where
  /-- Put a command in. -/
  | ingest (command : Command)
  /-- Take all commands out. -/
  | releaseAll

/-- A ring and what went in and out of it. -/
structure Ledger where
  /-- The ring. -/
  ring : Ring
  /-- The commands ingested since the ring was last emptied, oldest first. -/
  since : List Command
  /-- All commands that came in, in order. -/
  ingested : List Command
  /-- The commands that made room for others, in order. -/
  evicted : List Command
  /-- The commands that were released, in order. -/
  released : List Command

namespace Ledger

/-- The books of a new ring. -/
def start (capacity : Nat) (h : 0 < capacity) : Ledger := ⟨.start capacity h, [], [], [], []⟩

/-- Do one call and enter it. What is evicted is what `Ring.ingest` gives back; what is
released is what the slots held. -/
def call (l : Ledger) : RingCall → Ledger
  | .ingest c =>
    let (ring, oldest) := l.ring.ingest c
    { ring
      since := l.since ++ [c]
      ingested := l.ingested ++ [c]
      evicted := l.evicted ++ oldest.toList
      released := l.released }
  | .releaseAll =>
    { ring := l.ring.releaseAll.2
      since := []
      ingested := l.ingested
      evicted := l.evicted
      released := l.released ++ l.ring.held }

/-- Do calls one after another. -/
def after (l : Ledger) (calls : List RingCall) : Ledger := calls.foldl call l

/-- The books of a ring of `capacity` slots balance. -/
structure Balanced (capacity : Nat) (l : Ledger) : Prop where
  /-- The ring has as many slots as ever. -/
  capacity_eq : l.ring.capacity = capacity
  /-- The last of the commands since are live. -/
  live_eq : l.ring.live = l.since.rtake capacity
  /-- What came in has left once or is live. -/
  perm : (l.evicted ++ l.released ++ l.ring.live).Perm l.ingested
  /-- What was evicted came in before what is live, and in this order. -/
  sublist : (l.evicted ++ l.ring.live).Sublist l.ingested

theorem balanced_start (capacity : Nat) (h : 0 < capacity) :
    Balanced capacity (start capacity h) where
  capacity_eq := Ring.capacity_start capacity h
  live_eq := by simp [start]
  perm := by simp [start]
  sublist := by simp [start]

variable {capacity : Nat} {l : Ledger}

/-- Putting a command in keeps the balance: what is evicted leaves from the front. -/
theorem Balanced.ingest (h : Balanced capacity l) (c : Command) :
    Balanced capacity (l.call (.ingest c)) := by
  have hview := l.ring.live_ingest c
  refine ⟨?_, ?_, ?_, ?_⟩
  · show (l.ring.ingest c).1.capacity = capacity
    rw [Ring.capacity_ingest, h.capacity_eq]
  · show (l.ring.ingest c).1.live = (l.since ++ [c]).rtake capacity
    rw [Ring.live_ingest_eq_rtake, h.live_eq, h.capacity_eq, rtake_append_rtake]
  · show (l.evicted ++ (l.ring.ingest c).2.toList ++ l.released ++ (l.ring.ingest c).1.live).Perm
      (l.ingested ++ [c])
    calc l.evicted ++ (l.ring.ingest c).2.toList ++ l.released ++ (l.ring.ingest c).1.live
      _ = l.evicted ++ ((l.ring.ingest c).2.toList ++ l.released) ++ (l.ring.ingest c).1.live := by
          rw [List.append_assoc l.evicted]
      List.Perm _ (l.evicted ++ (l.released ++ (l.ring.ingest c).2.toList) ++
          (l.ring.ingest c).1.live) :=
          (List.perm_append_comm.append_left l.evicted).append_right _
      _ = l.evicted ++ l.released ++ l.ring.live ++ [c] := by
          rw [← List.append_assoc, List.append_assoc _ (l.ring.ingest c).2.toList, hview,
            ← List.append_assoc]
      List.Perm _ (l.ingested ++ [c]) := h.perm.append_right [c]
  · show (l.evicted ++ (l.ring.ingest c).2.toList ++ (l.ring.ingest c).1.live).Sublist
      (l.ingested ++ [c])
    rw [List.append_assoc, hview, ← List.append_assoc]
    exact h.sublist.append (List.Sublist.refl [c])

/-- Taking all commands out keeps it: the slots held what was live. -/
theorem Balanced.releaseAll (h : Balanced capacity l) :
    Balanced capacity (l.call .releaseAll) := by
  have hempty : (l.call .releaseAll).ring.live = [] := Ring.live_start _ l.ring.capacity_pos
  refine ⟨?_, ?_, ?_, ?_⟩
  · exact (Ring.capacity_start _ l.ring.capacity_pos).trans h.capacity_eq
  · rw [hempty]
    exact (List.rtake_nil capacity).symm
  · rw [hempty, List.append_nil]
    show (l.evicted ++ (l.released ++ l.ring.held)).Perm l.ingested
    rw [← List.append_assoc]
    exact (l.ring.held_perm_live.append_left _).trans h.perm
  · rw [hempty, List.append_nil]
    exact (List.sublist_append_left l.evicted l.ring.live).trans h.sublist

theorem Balanced.call (h : Balanced capacity l) (next : RingCall) :
    Balanced capacity (l.call next) := by
  cases next with
  | ingest c => exact h.ingest c
  | releaseAll => exact h.releaseAll

/-- **The books balance after any number of calls.** -/
theorem Balanced.after (h : Balanced capacity l) (calls : List RingCall) :
    Balanced capacity (l.after calls) := by
  induction calls generalizing l with
  | nil => exact h
  | cons next rest ih => exact ih (h.call next)

theorem Balanced.full_iff (h : Balanced capacity l) :
    l.ring.full = true ↔ capacity ≤ l.since.length := by
  have hlen := l.ring.length_live
  have hw := l.ring.writeIndex_lt
  have hcap := h.capacity_eq
  rw [h.live_eq, List.rtake, List.length_drop, Ring.size] at hlen
  unfold Ring.capacity at hlen hcap
  cases hfull : l.ring.full with
  | true => simp [hfull] at hlen ⊢; omega
  | false => simp [hfull] at hlen ⊢; omega

/-- A ring that is not full evicts nothing, and a full one its oldest command. -/
theorem Balanced.evicted_eq (h : Balanced capacity l) (c : Command) :
    (l.ring.ingest c).2 =
      if l.since.length < capacity then none else (l.since.rtake capacity).head? := by
  have hsome := l.ring.isSome_evicted c
  have hview := l.ring.live_ingest c
  have hpos := l.ring.capacity_pos
  rw [h.capacity_eq] at hpos
  split
  · rename_i hlt
    have hfull : l.ring.full = false := by
      rw [← Bool.not_eq_true, h.full_iff]
      omega
    rwa [hfull, Option.isSome_eq_false_iff, Option.isNone_iff_eq_none] at hsome
  · rename_i hlt
    have hfull : l.ring.full = true := h.full_iff.mpr (Nat.le_of_not_lt hlt)
    rw [hfull] at hsome
    obtain ⟨oldest, hold⟩ := Option.isSome_iff_exists.mp hsome
    have hne : l.since.rtake capacity ≠ [] := by
      intro he
      have := congrArg List.length he
      rw [List.rtake, List.length_drop, List.length_nil] at this
      omega
    rw [hold, Option.toList_some, h.live_eq] at hview
    rw [hold, ← List.head?_append_of_ne_nil _ hne, ← hview]
    rfl

end Ledger

/-! ### The whole -/

namespace Ring

/-- **A ring is a bounded queue.** After any calls on a new ring, `live` being the last of the
commands that were ingested since it was emptied: these are what is met going round the ring,
and all that is asked about the ring is answered as it is for this list. A new command evicts
nothing as long as there is a slot for it, and the oldest live command then. A release counts
the live commands and their bytes, and leaves a new ring. Every command that came in has left
once or is live, and they are evicted in the order in which they came.

Where a byte of a command stands is worked out before it is asked whether the command has that
byte. If the sum is no word there is no answer, not even that there is no such byte. -/
theorem refines_queue (capacity : Nat) (h : 0 < capacity) (calls : List RingCall) :
    let l := (Ledger.start capacity h).after calls
    let r := l.ring
    let live := l.since.rtake capacity
    (r.walk = live ∧ r.live = live) ∧
    (r.size = live.length ∧ (r.isEmpty = true ↔ live = []) ∧
      (r.full = true ↔ capacity ≤ l.since.length) ∧
      Stream.size r.live = (live.map Command.bytes).flatten.length) ∧
    (∀ offset, (∀ c within, Stream.locate r.live offset = some (c, within) ↔
        ∃ index, Stream.Stands live index within c offset) ∧
      (Stream.locate r.live offset = none ↔ Stream.size live ≤ offset)) ∧
    (∀ index within, (∀ offset, Stream.offsetOf r.live index within = .ok (some offset) ↔
        (∃ c, Stream.Stands live index within c offset) ∧ offset < wordLimit) ∧
      (Stream.offsetOf r.live index within = .ok none ↔
        ∀ c, live[index]? = some c →
          c.size ≤ within ∧ Stream.size (live.take index) + within < wordLimit)) ∧
    (∀ c, (r.ingest c).2 = if l.since.length < capacity then none else live.head?) ∧
    r.releaseAll =
      ((live.length, (live.map Command.bytes).flatten.length), start capacity h) ∧
    (l.evicted ++ l.released ++ live).Perm l.ingested ∧
    (l.evicted ++ live).Sublist l.ingested := by
  intro l r live
  have hb : Ledger.Balanced capacity l := (Ledger.balanced_start capacity h).after calls
  have hlive : r.live = live := hb.live_eq
  have hsize : Stream.size r.live = (live.map Command.bytes).flatten.length := by
    rw [hlive, ← Stream.bytes_eq_flatten, Stream.length_bytes]
  refine ⟨⟨?_, hlive⟩, ⟨?_, ?_, hb.full_iff, hsize⟩, ?_, ?_, ?_, ?_, ?_, ?_⟩
  · rw [walk_eq_live, hlive]
  · rw [← length_live, hlive]
  · rw [isEmpty_iff, hlive]
  · intro offset
    rw [hlive]
    exact ⟨fun c within => Stream.locate_eq_some_iff, Stream.locate_eq_none_iff⟩
  · intro index within
    rw [hlive]
    exact ⟨fun offset => Stream.offsetOf_eq_some_iff, Stream.offsetOf_eq_none_iff⟩
  · intro c
    exact hb.evicted_eq c
  · have hcap : r.capacity = capacity := hb.capacity_eq
    rw [releaseAll_eq, hsize, hlive]
    simp only [hcap]
  · rw [← hlive]
    exact hb.perm
  · rw [← hlive]
    exact hb.sublist

/-- A ring of two slots is given three commands, emptied, and given one more. -/
theorem refines_queue_of_four_commands :
    let c (b : UInt8) : Command := .single b
    let l := (Ledger.start 2 (by decide)).after
      [.ingest (c 1), .ingest (c 2), .ingest (c 3), .releaseAll, .ingest (c 4)]
    0 < 2 ∧ l.ring.walk = [c 4] ∧ l.evicted = [c 1] ∧ l.released = [c 3, c 2] ∧
      (l.evicted ++ l.released ++ [c 4]).Perm [c 1, c 2, c 3, c 4] := by
  intro c l
  obtain ⟨⟨hwalk, -⟩, -, -, -, -, -, hperm, -⟩ := refines_queue 2 (by decide)
    [.ingest (c 1), .ingest (c 2), .ingest (c 3), .releaseAll, .ingest (c 4)]
  exact ⟨by decide, hwalk, by decide, by decide, hperm⟩

/-- **A byte that is not there can bring about an overflow.** The second of two commands has
no byte of this number, but the ring does not answer that it has none. -/
theorem offsetOf_missing_overflows :
    let a : Command := ⟨[97, 98], by decide⟩
    let b : Command := ⟨[99], by decide⟩
    let l := (Ledger.start 3 (by decide)).after [.ingest a, .ingest b]
    let within := wordLimit - 1
    l.since.rtake 3 = [a, b] ∧ (¬ ∃ c offset, Stream.Stands [a, b] 1 within c offset) ∧
      Stream.offsetOf l.ring.live 1 within ≠ .ok none ∧
      Stream.offsetOf l.ring.live 1 within = .error .addition := by
  intro a b l within
  have hlive : l.ring.live = [a, b] := by decide
  have hover : Stream.offsetOf l.ring.live 1 within = .error .addition := by
    rw [hlive, Stream.offsetOf_eq_error_iff]
    decide
  refine ⟨by decide, ?_, by simp [hover], hover⟩
  rintro ⟨c, offset, hc, hw, -⟩
  cases hc
  exact absurd hw (by decide)

end Ring

end Spool
