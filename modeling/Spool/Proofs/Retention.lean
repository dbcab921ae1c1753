import Spool.Proofs.Assembly
import Spool.Store
import Mathlib.Data.List.DropRight

/-!
# What a store retains

A ring retains the last of the commands it was given, as many as it has slots
(`Ring.live_ingest_eq_rtake`, `Ring.live_ingestAll`). `Store.absorb` is the store after it
has taken bytes with all the memory it needs: what gets completed goes to the ring in
order, and the rest waits. It is the reference that feeding is compared with: it knows
nothing of chunks (`Store.absorb_append`), and what it leaves to be seen depends on the
store only through its live commands, its pending bytes, its delimiter and its capacity
(`Store.live_absorb`, `Store.pending_absorb`).
-/

namespace Spool

/-! ### The last of a list -/

theorem rtake_append_rtake {α : Type} (l m : List α) (n : Nat) :
    (l.rtake n ++ m).rtake n = (l ++ m).rtake n := by
  simp only [List.rtake_eq_reverse_take_reverse, List.reverse_append, List.reverse_reverse]
  rw [List.take_append, List.take_append, List.take_take, Nat.min_eq_left (Nat.sub_le _ _)]

theorem rtake_of_length_le {α : Type} {l : List α} {n : Nat} (h : l.length ≤ n) :
    l.rtake n = l := by
  rw [List.rtake, Nat.sub_eq_zero_of_le h, List.drop_zero]

theorem map_rtake {α β : Type} (f : α → β) (l : List α) (n : Nat) :
    (l.rtake n).map f = (l.map f).rtake n := by
  rw [List.rtake, List.rtake, List.map_drop, List.length_map]

namespace Ring

@[simp] theorem capacity_start (capacity : Nat) (h : 0 < capacity) :
    (start capacity h).capacity = capacity := by
  simp [start, Ring.capacity]

@[simp] theorem capacity_ingest (r : Ring) (c : Command) :
    (r.ingest c).1.capacity = r.capacity := by
  simp [ingest, capacity]

theorem length_live_le (r : Ring) : r.live.length ≤ r.capacity := by
  rw [length_live, size]
  split
  · exact le_rfl
  · exact Nat.le_of_lt r.writeIndex_lt

/-- A full ring has a live command in every slot, and evicts one for every new one. -/
theorem isSome_evicted (r : Ring) (c : Command) : (r.ingest c).2.isSome = r.full := by
  have := r.isSome_slots r.writeIndex r.writeIndex_lt
  simpa [ingest] using this

/-- **A ring retains the last commands**, as many as it has slots. -/
theorem live_ingest_eq_rtake (r : Ring) (c : Command) :
    (r.ingest c).1.live = (r.live ++ [c]).rtake r.capacity := by
  have hview := live_ingest r c
  have hsome := isSome_evicted r c
  cases hev : (r.ingest c).2 with
  | none =>
    rw [hev, Option.toList_none, List.nil_append] at hview
    have hle := length_live_le (r.ingest c).1
    rw [hview, capacity_ingest] at hle
    rw [hview, rtake_of_length_le hle]
  | some oldest =>
    rw [hev, Option.toList_some] at hview
    rw [hev, Option.isSome_some] at hsome
    have hlen : (r.live ++ [c]).length = r.capacity + 1 := by
      rw [List.length_append, length_live, size, if_pos hsome.symm, List.length_singleton]
    rw [List.rtake, hlen, Nat.add_sub_cancel_left, ← hview]
    rfl

/-- The ring after it has been given `commands` one after another. -/
def ingestAll (r : Ring) (commands : List Command) : Ring :=
  commands.foldl (fun ring c => (ring.ingest c).1) r

@[simp] theorem ingestAll_nil (r : Ring) : r.ingestAll [] = r := rfl

@[simp] theorem ingestAll_cons (r : Ring) (c : Command) (cs : List Command) :
    r.ingestAll (c :: cs) = (r.ingest c).1.ingestAll cs := rfl

theorem ingestAll_append (r : Ring) (a b : List Command) :
    r.ingestAll (a ++ b) = (r.ingestAll a).ingestAll b :=
  List.foldl_append

@[simp] theorem capacity_ingestAll (r : Ring) (cs : List Command) :
    (r.ingestAll cs).capacity = r.capacity := by
  induction cs generalizing r with
  | nil => rfl
  | cons c cs ih => rw [ingestAll_cons, ih, capacity_ingest]

/-- **Of any number of commands the last ones are retained.** -/
theorem live_ingestAll (r : Ring) (cs : List Command) :
    (r.ingestAll cs).live = (r.live ++ cs).rtake r.capacity := by
  induction cs generalizing r with
  | nil => rw [ingestAll_nil, List.append_nil, rtake_of_length_le r.length_live_le]
  | cons c cs ih =>
    rw [ingestAll_cons, ih, capacity_ingest, live_ingest_eq_rtake, rtake_append_rtake,
      List.append_assoc, List.singleton_append]

end Ring

namespace Store

/-- The byte that ends a command. -/
abbrev delimiter (s : Store) : UInt8 := s.assembler.delimiter

/-- The number of commands that are retained. -/
abbrev capacity (s : Store) : Nat := s.ring.capacity

/-- The store after it has taken `bytes`, with all the memory it needs. -/
def absorb (s : Store) (bytes : Bytes) : Store where
  assembler := ⟨s.delimiter, ⟨leftover s.delimiter s.pending bytes⟩⟩
  ring := s.ring.ingestAll (completed s.delimiter s.pending bytes)

@[simp] theorem absorb_nil (s : Store) : s.absorb [] = s := rfl

@[simp] theorem delimiter_absorb (s : Store) (bytes : Bytes) :
    (s.absorb bytes).delimiter = s.delimiter := rfl

@[simp] theorem capacity_absorb (s : Store) (bytes : Bytes) :
    (s.absorb bytes).capacity = s.capacity :=
  Ring.capacity_ingestAll _ _

/-- **Bytes can be taken in two parts.** -/
theorem absorb_append (s : Store) (a b : Bytes) : s.absorb (a ++ b) = (s.absorb a).absorb b := by
  simp only [absorb, pending, completed_append, leftover_append, Ring.ingestAll_append]

theorem pending_absorb (s : Store) (bytes : Bytes) :
    (s.absorb bytes).pending = leftover s.delimiter s.pending bytes := rfl

theorem live_absorb (s : Store) (bytes : Bytes) :
    (s.absorb bytes).live =
      (s.live ++ completed s.delimiter s.pending bytes).rtake s.capacity :=
  Ring.live_ingestAll _ _

theorem absorb_of_notMem (s : Store) {chunk : Bytes} (h : s.delimiter ∉ chunk) :
    s.absorb chunk = { s with assembler := ⟨s.delimiter, ⟨s.pending ++ chunk⟩⟩ } := by
  rw [absorb, completed_of_notMem _ h, leftover_of_notMem _ h, Ring.ingestAll_nil]

theorem absorb_of_breakAfter (s : Store) {chunk rest : Bytes} {head : Command}
    (h : breakAfter s.delimiter chunk = some (head, rest)) :
    s.absorb head.bytes =
      ⟨⟨s.delimiter, .empty⟩, (s.ring.ingest (head.prepend s.pending)).1⟩ := by
  have hh := breakAfter_append h []
  rw [List.append_nil] at hh
  rw [absorb, completed_of_breakAfter _ hh, leftover_of_breakAfter _ hh]
  rfl

/-- Two stores hold the same, as far as anyone can see who looks at them. -/
structure Agrees (s t : Store) : Prop where
  /-- They end commands alike. -/
  delimiter : s.delimiter = t.delimiter
  /-- They retain as many commands. -/
  capacity : s.capacity = t.capacity
  /-- They have the same live commands. -/
  live : s.live = t.live
  /-- The same bytes wait. -/
  pending : s.pending = t.pending

/-- **What is seen of a store does not depend on anything else**, whatever it takes. -/
theorem Agrees.absorb {s t : Store} (h : s.Agrees t) (bytes : Bytes) :
    (s.absorb bytes).Agrees (t.absorb bytes) where
  delimiter := h.delimiter
  capacity := by rw [capacity_absorb, capacity_absorb, h.capacity]
  live := by rw [live_absorb, live_absorb, h.delimiter, h.capacity, h.live, h.pending]
  pending := by rw [pending_absorb, pending_absorb, h.delimiter, h.pending]

end Store

end Spool
