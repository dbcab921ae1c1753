import Spool.Stream

/-!
# The ring of retained commands

A ring has a fixed number of slots. `writeIndex` is the slot that is filled next,
going round; once it has gone round, the ring is full and every new command
takes the place of the oldest one. Fullness is kept as a flag, since the write
index of a full ring is also that of a ring that is not.

`Ring.live` is the view on a ring: its commands, oldest first. Read in a circle
from the write index, the slots hold them in just this order, with the empty slots
(all of them in front) left out. What each operation does to this view:

* `live_start`: a new ring holds nothing.
* `live_ingest`: a new command goes to the end, and the command that is evicted,
  if there is one, leaves from the front.
* `length_live`: `Ring.size` counts the commands.
-/

namespace Spool

/-- How many slots are too many: those of a ring lie in one piece of memory, each takes 16
bytes, and no piece has as many as 16 times this number. -/
def slotLimit : Nat := 0x800000000000000

/-- A fixed number of slots that are filled in turn. -/
structure Ring where
  /-- The slots. -/
  slots : Array (Option Command)
  /-- The slot that is filled next. -/
  writeIndex : Nat
  /-- Whether every slot is filled. -/
  full : Bool
  /-- The slot that is filled next exists, so there is at least one. -/
  writeIndex_lt : writeIndex < slots.size
  /-- The filled slots are those before the write index, or all of them. -/
  isSome_slots : ∀ (i : Nat) (h : i < slots.size),
    slots[i].isSome = (full || decide (i < writeIndex))

namespace Ring

/-- A ring with empty slots. -/
def start (capacity : Nat) (h : 0 < capacity) : Ring where
  slots := Array.replicate capacity none
  writeIndex := 0
  full := false
  writeIndex_lt := by simpa using h
  isSome_slots := by simp

/-- The number of slots. -/
def capacity (r : Ring) : Nat := r.slots.size

/-- A ring has at least one slot. -/
theorem capacity_pos (r : Ring) : 0 < r.capacity :=
  Nat.lt_of_le_of_lt (Nat.zero_le _) r.writeIndex_lt

/-- The number of live commands. -/
def size (r : Ring) : Nat := if r.full then r.capacity else r.writeIndex

/-- Whether no command is live. -/
def isEmpty (r : Ring) : Bool := !r.full && r.writeIndex == 0

/-- The live commands, oldest first. -/
def live (r : Ring) : List Command :=
  (r.slots.toList.drop r.writeIndex ++ r.slots.toList.take r.writeIndex).filterMap id

/-- Store a command in the next slot; the command it held before is evicted. -/
def ingest (r : Ring) (command : Command) : Ring × Option Command :=
  ({ slots := r.slots.set r.writeIndex (some command) r.writeIndex_lt
     writeIndex := (r.writeIndex + 1) % r.capacity
     full := r.full || (r.writeIndex + 1) % r.capacity == 0
     writeIndex_lt := by simpa [capacity] using Nat.mod_lt (r.writeIndex + 1) r.capacity_pos
     isSome_slots := by
      intro i h
      have hw := r.writeIndex_lt
      have hi : i < r.slots.size := by simpa using h
      have hs := r.isSome_slots i hi
      rw [Array.getElem_set]
      unfold capacity
      by_cases hlast : r.writeIndex + 1 = r.slots.size
      · rw [hlast, Nat.mod_self]
        split
        · simp
        · rw [hs]; simp; omega
      · rw [Nat.mod_eq_of_lt (by omega)]
        split
        · simp [← ‹r.writeIndex = i›]
        · rw [hs]; cases r.full <;> simp; omega },
   have := r.writeIndex_lt; r.slots[r.writeIndex])

/-- Empty every slot: how many commands were released, and how many bytes. -/
def releaseAll (r : Ring) : (Nat × Nat) × Ring :=
  let held := r.slots.toList.filterMap id
  ((held.length, Stream.size held), start r.capacity r.capacity_pos)

/-- One line about a ring. -/
def describe (r : Ring) : String :=
  "RingLog(capacity=" ++ toString r.capacity ++ ", len=" ++ toString r.size ++
    ", write_index=" ++ toString r.writeIndex ++ ", full=" ++ toString r.full ++
    ", bytes=" ++ toString (Stream.size r.live) ++ ")"

/-! ### The view -/

/-- A new ring holds nothing. -/
@[simp] theorem live_start (capacity : Nat) (h : 0 < capacity) : (start capacity h).live = [] := by
  simp [live, start]

/-- **A new command goes to the end**, and what is evicted leaves from the front. -/
theorem live_ingest (r : Ring) (c : Command) :
    (r.ingest c).2.toList ++ (r.ingest c).1.live = r.live ++ [c] := by
  have hw := r.writeIndex_lt
  have hsplit : r.slots.toList = r.slots.toList.take r.writeIndex ++
      r.slots[r.writeIndex] :: r.slots.toList.drop (r.writeIndex + 1) := by
    rw [← Array.getElem_toList, List.getElem_cons_drop, List.take_append_drop]
  generalize hx : r.slots[r.writeIndex] = x at hsplit
  generalize ha : r.slots.toList.take r.writeIndex = a at hsplit
  generalize hb : r.slots.toList.drop (r.writeIndex + 1) = b at hsplit
  have hlen : a.length = r.writeIndex := by simp [← ha]; omega
  have hold : r.live = (x :: b ++ a).filterMap id := by
    simp [live, hsplit, ← hlen]
  have hset : r.slots.toList.set r.writeIndex (some c) = a ++ some c :: b := by
    simp [hsplit, ← hlen]
  have hnew : (r.ingest c).1.live = (b ++ a ++ [some c]).filterMap id := by
    have hn : r.capacity = a.length + b.length + 1 := by
      simp [capacity, ← Array.length_toList, hsplit]; omega
    simp only [live, ingest, Array.toList_set, hset, hn]
    by_cases hlast : b = []
    · simp [hlast, ← hlen]
    · have : 0 < b.length := List.length_pos_iff.mpr hlast
      rw [← hlen, Nat.mod_eq_of_lt (by omega)]
      simp [List.drop_append, List.take_append, List.drop_eq_nil_of_le, List.take_of_length_le]
  have hev : (r.ingest c).2 = x := hx
  rw [hev, hnew, hold]
  cases x <;> simp

/-- The live commands are counted right. -/
theorem length_live (r : Ring) : r.live.length = r.size := by
  have hw := r.writeIndex_lt
  have hs : ∀ i (h : i < r.slots.toList.length),
      (r.slots.toList[i]).isSome = (r.full || decide (i < r.writeIndex)) := by
    intro i h
    simpa using r.isSome_slots i (by simpa using h)
  have count : ∀ l : List (Option Command), (∀ x ∈ l, x.isSome = true) →
      (l.filterMap id).length = l.length := by
    intro l h
    induction l with
    | nil => rfl
    | cons x l ih => cases x <;> simp_all
  have none : ∀ l : List (Option Command), (∀ x ∈ l, x.isSome = false) → l.filterMap id = [] := by
    intro l h
    refine List.filterMap_eq_nil_iff.mpr fun x hx => ?_
    have := h x hx
    cases x <;> simp_all
  have front : ((r.slots.toList.take r.writeIndex).filterMap id).length = r.writeIndex := by
    rw [count]
    · simp; omega
    · intro x hx
      obtain ⟨i, hi, rfl⟩ := List.mem_iff_getElem.mp hx
      simp only [List.length_take] at hi
      rw [List.getElem_take, hs]
      simp; omega
  rw [live, List.filterMap_append, List.length_append, front, size]
  by_cases hfull : r.full = true
  · rw [count]
    · simp [hfull, capacity]; omega
    · intro x hx
      obtain ⟨i, hi, rfl⟩ := List.mem_iff_getElem.mp hx
      rw [List.getElem_drop, hs, hfull]; rfl
  · rw [none]
    · simp [hfull]
    · intro x hx
      obtain ⟨i, hi, rfl⟩ := List.mem_iff_getElem.mp hx
      rw [List.getElem_drop, hs]
      simp [hfull]

end Ring

end Spool
