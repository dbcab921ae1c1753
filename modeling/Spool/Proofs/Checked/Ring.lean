import Spool.Proofs.Queue

/-!
# Rings that check every step

A `Ring` cannot lack the slot that is filled next, nor can its flag be wrong: its type sees
to that, and the numbers in it are as large as they need to be. Here nothing is taken for
granted. A `Checked.Ring` is plain data, its numbers are words, and each operation asks before
every step whether the step can be done: whether a sum is a word, whether a difference is not
negative, whether a divisor is not zero, whether there is a slot, whether the bytes that are
stored are some. Where it cannot be done the operation ends in a `Mishap`.

`Ring.plain` forgets what the type of a ring sees to. The operations on plain data are proved to
do the same as those on rings, without a mishap: `ingest_plain`, `walk_plain`, `totalLength_plain`,
`locate_plain`, `releaseAll_plain`. Two things are needed. The slots have found room in memory
when the ring was made, which bounds their number (`Ring.Laid`), and the length of the stream is
a word. Only the search for a byte of a command needs more: it can overflow even then, and does
just where `Stream.offsetOf` says so (`offsetOf_plain`).
-/

namespace Spool

namespace Checked

/-! ### Steps that can fail -/

/-- Why a step cannot be done. -/
inductive Mishap where
  /-- A ring was to have no slots. -/
  | noSlots
  /-- A ring was to have more slots than there is room for in any memory. -/
  | noRoom
  /-- A command was to be finished with no byte, not even its delimiter. -/
  | emptyTail
  /-- A command without bytes was to be stored. -/
  | emptyCommand
  /-- There was no slot for a command. -/
  | lostCommand
  /-- A ring that was not full evicted a command, or a full one did not. -/
  | flagDisagrees
  /-- A part was to be cut out of bytes that do not reach as far. -/
  | outOfBounds
  /-- A difference was negative. -/
  | negative
  /-- A divisor was zero. -/
  | divisionByZero
  /-- A result was no word. -/
  | overflow (o : Overflow)
  deriving DecidableEq

/-- Go on if `p` holds. -/
def require (p : Prop) [Decidable p] (m : Mishap) : Except Mishap Unit :=
  if p then .ok () else .error m

/-- The sum of two words. -/
def add (a b : Nat) : Except Mishap Nat := (addWord a b).mapError .overflow

/-- The difference of two words. -/
def sub (a b : Nat) : Except Mishap Nat := if b ≤ a then .ok (a - b) else .error .negative

/-- The remainder of a word. -/
def modulo (a n : Nat) : Except Mishap Nat :=
  if n = 0 then .error .divisionByZero else .ok (a % n)

/-- The bytes from number `first` on and before number `last`. -/
def slice (bytes : Bytes) (first last : Nat) : Except Mishap Bytes :=
  if first ≤ last ∧ last ≤ bytes.length then .ok ((bytes.take last).drop first)
  else .error .outOfBounds

section

variable {α β : Type} {a b n : Nat} {bytes : Bytes}

@[simp] theorem ok_bind (x : α) (f : α → Except Mishap β) : Except.ok x >>= f = f x := rfl

@[simp] theorem error_bind (m : Mishap) (f : α → Except Mishap β) :
    Except.error m >>= f = .error m := rfl

@[simp] theorem pure_eq_ok (x : α) : (pure x : Except Mishap α) = .ok x := rfl

theorem require_eq {p : Prop} [Decidable p] (h : p) (m : Mishap) : require p m = .ok () :=
  if_pos h

theorem add_eq (h : a + b < wordLimit) : add a b = .ok (a + b) := by
  rw [add, addWord_eq_ok_iff.mpr ⟨rfl, h⟩]
  rfl

theorem sub_eq (h : b ≤ a) : sub a b = .ok (a - b) := if_pos h

theorem modulo_eq (h : 0 < n) (a : Nat) : modulo a n = .ok (a % n) := if_neg (Nat.ne_of_gt h)

theorem slice_eq {first last : Nat} (h : first ≤ last) (h' : last ≤ bytes.length) :
    slice bytes first last = .ok ((bytes.take last).drop first) := if_pos ⟨h, h'⟩

theorem mapM_eq_ok {f : α → Except Mishap β} {g : α → β} {l : List α}
    (h : ∀ x ∈ l, f x = .ok (g x)) : l.mapM f = .ok (l.map g) := by
  induction l with
  | nil => rfl
  | cons x l ih =>
    have hrest := ih fun y hy => h y (List.mem_cons_of_mem x hy)
    rw [List.mapM_cons, h x List.mem_cons_self, ok_bind, hrest]
    rfl

end

/-! ### The ring -/

/-- The plain data of a ring. -/
structure Ring where
  /-- The slots. -/
  slots : Array (Option Bytes)
  /-- The slot that is filled next. -/
  writeIndex : Nat
  /-- Whether every slot is filled. -/
  full : Bool
  deriving DecidableEq

namespace Ring

/-- A ring with empty slots. -/
def start (capacity : Nat) : Except Mishap Ring := do
  require (0 < capacity) .noSlots
  require (capacity < slotLimit) .noRoom
  return ⟨Array.replicate capacity none, 0, false⟩

/-- The number of live commands. -/
def size (r : Ring) : Nat := if r.full then r.slots.size else r.writeIndex

/-- The slot that holds the oldest live command. -/
def oldestIndex (r : Ring) : Nat := if r.full then r.writeIndex else 0

/-- Store a command in the next slot; the command it held before is evicted. -/
def ingest (r : Ring) (command : Bytes) : Except Mishap (Ring × Option Bytes) := do
  require (command ≠ []) .emptyCommand
  if h : r.writeIndex < r.slots.size then
    require (r.slots[r.writeIndex].isSome = r.full) .flagDisagrees
    let next ← modulo (← add r.writeIndex 1) r.slots.size
    return (⟨r.slots.set r.writeIndex (some command), next, r.full || next == 0⟩,
      r.slots[r.writeIndex])
  else .error .lostCommand

/-- The commands that are met on the way from the oldest slot round the ring. All of it is gone
before a search along them begins, so that no step which a search could make is left out. -/
def walk (r : Ring) : Except Mishap (List Bytes) := do
  let met ← (List.range r.size).mapM fun i => do
    let slot ← modulo (← add r.oldestIndex i) r.slots.size
    return (r.slots[slot]?).join
  return met.filterMap id

/-- Count commands and their bytes, from `commands` and `bytes` on. -/
def tally (commands bytes : Nat) : List (Option Bytes) → Except Mishap (Nat × Nat)
  | [] => return (commands, bytes)
  | none :: rest => tally commands bytes rest
  | some command :: rest => do
    tally (← add commands 1) (← add bytes command.length) rest

/-- Empty every slot: how many commands were released, and how many bytes. -/
def releaseAll (r : Ring) : Except Mishap ((Nat × Nat) × Ring) := do
  let released ← tally 0 0 r.slots.toList
  return (released, ⟨Array.replicate r.slots.size none, 0, false⟩)

end Ring

/-! ### Along the live commands -/

/-- The length of commands that come after `before` bytes, and of these bytes. -/
def measure (before : Nat) : List Bytes → Except Mishap Nat
  | [] => return before
  | command :: rest => do measure (← add before command.length) rest

/-- The command that holds the byte at `offset`, and where in it, if `before` bytes come
before the commands. -/
def resolve (before offset : Nat) : List Bytes → Except Mishap (Option (Bytes × Nat))
  | [] => return none
  | command :: rest => do
    let after ← add before command.length
    if offset < after then return some (command, ← sub offset before)
    else resolve after offset rest

/-- The offset of byte `within` of command number `index`, if `before` bytes come before the
commands. -/
def startOffset (before index within : Nat) : List Bytes → Except Mishap (Option Nat)
  | [] => return none
  | command :: rest =>
    match index with
    | 0 => do
      let offset ← add before within
      return if within < command.length then some offset else none
    | index + 1 => do startOffset (← add before command.length) index within rest

namespace Ring

/-- The length of the stream. -/
def totalLength (r : Ring) : Except Mishap Nat := do measure 0 (← r.walk)

/-- The command that holds the byte at `offset` of the stream, and where in it. -/
def locate (r : Ring) (offset : Nat) : Except Mishap (Option (Bytes × Nat)) := do
  resolve 0 offset (← r.walk)

/-- The offset of byte `within` of live command number `index`. -/
def offsetOf (r : Ring) (index within : Nat) : Except Mishap (Option Nat) := do
  startOffset 0 index within (← r.walk)

end Ring

variable {before offset index within : Nat} {live : List Command}

/-- **The length of a stream can be worked out** if it is a word. -/
theorem measure_map (h : before + Stream.size live < wordLimit) :
    measure before (live.map Command.bytes) = .ok (before + Stream.size live) := by
  induction live generalizing before with
  | nil => rfl
  | cons c rest ih =>
    rw [Stream.size_cons, Command.size, ← Nat.add_assoc] at h ⊢
    rw [List.map_cons, measure, add_eq (by omega), ok_bind, ih h]

/-- **Every offset can be searched for** in a stream whose length is a word. -/
theorem resolve_map (h : before + Stream.size live < wordLimit) (hb : before ≤ offset) :
    resolve before offset (live.map Command.bytes) =
      .ok ((Stream.locate live (offset - before)).map fun (c, within) => (c.bytes, within)) := by
  induction live generalizing before with
  | nil => rfl
  | cons c rest ih =>
    rw [Stream.size_cons, Command.size, ← Nat.add_assoc] at h
    rw [List.map_cons, resolve, add_eq (by omega), ok_bind, Stream.locate, Command.size]
    by_cases hin : offset < before + c.bytes.length
    · rw [if_pos hin, if_pos (by omega), sub_eq hb]
      rfl
    · rw [if_neg hin, if_neg (by omega), ih h (Nat.le_of_not_lt hin), Nat.sub_sub]

/-- **The offset of a byte is worked out just as far as it is a word.** -/
theorem startOffset_map (h : before + Stream.size live < wordLimit) :
    startOffset before index within (live.map Command.bytes) =
      match live[index]? with
      | none => .ok none
      | some c =>
        (add (before + Stream.size (live.take index)) within).map fun offset =>
          if within < c.size then some offset else none := by
  induction live generalizing before index with
  | nil => simp [startOffset]
  | cons c rest ih =>
    rw [Stream.size_cons, Command.size, ← Nat.add_assoc] at h
    cases index with
    | zero =>
      rw [List.map_cons, startOffset]
      rfl
    | succ index =>
      rw [List.map_cons, startOffset, add_eq (by omega), ok_bind, ih h,
        List.getElem?_cons_succ, List.take_succ_cons, Stream.size_cons, Command.size,
        Nat.add_assoc]

end Checked

/-! ### Rings as plain data -/

namespace Ring

open Checked

/-- The plain data of a ring. -/
def plain (r : Ring) : Checked.Ring where
  slots := r.slots.map (Option.map Command.bytes)
  writeIndex := r.writeIndex
  full := r.full

/-- The slots have found room in memory. -/
def Laid (r : Ring) : Prop := r.capacity < slotLimit

theorem Laid.ingest {r : Ring} (hr : r.Laid) (c : Command) : (r.ingest c).1.Laid := by
  rw [Laid, capacity_ingest]
  exact hr

@[simp] theorem size_slots_plain (r : Ring) : r.plain.slots.size = r.capacity := by
  simp [plain, capacity]

/-- **A ring is made if there is room for its slots**, and not otherwise. -/
theorem start_plain (capacity : Nat) (h : 0 < capacity) :
    Checked.Ring.start capacity =
      if capacity < slotLimit then .ok (start capacity h).plain else .error .noRoom := by
  rw [Checked.Ring.start, require_eq h, ok_bind]
  by_cases hroom : capacity < slotLimit
  · rw [if_pos hroom, require_eq hroom, ok_bind]
    simp [start, plain]
  · rw [if_neg hroom, require, if_neg hroom]
    rfl

/-- **There is always a slot for a command**, and it was filled before just if the ring is
full. -/
theorem ingest_plain (r : Ring) (hr : r.Laid) (c : Command) :
    r.plain.ingest c.bytes =
      .ok ((r.ingest c).1.plain, (r.ingest c).2.map Command.bytes) := by
  have hw := r.writeIndex_lt
  have hslot : r.plain.writeIndex < r.plain.slots.size := by
    rw [size_slots_plain]
    exact hw
  have hfull : (r.plain.slots[r.plain.writeIndex]).isSome = r.plain.full := by
    simpa [plain] using r.isSome_slots r.writeIndex hw
  have hsum : r.plain.writeIndex + 1 < wordLimit := by
    have : r.writeIndex < r.capacity := hw
    simp only [plain, Laid, slotLimit, wordLimit] at hr ⊢
    omega
  rw [Checked.Ring.ingest, require_eq c.bytes_ne_nil, ok_bind, dif_pos hslot, require_eq hfull,
    ok_bind, add_eq hsum, ok_bind, size_slots_plain, modulo_eq r.capacity_pos, ok_bind]
  simp [plain, ingest]

/-- **Going round a ring finds the live commands.** -/
theorem walk_plain (r : Ring) (hr : r.Laid) : r.plain.walk = .ok (r.live.map Command.bytes) := by
  have hw : r.writeIndex < r.capacity := r.writeIndex_lt
  have hsize : r.plain.size = r.size := by
    rw [Checked.Ring.size, size_slots_plain]
    rfl
  have hstep : ∀ i ∈ List.range r.size,
      (do
        let slot ← modulo (← add r.plain.oldestIndex i) r.plain.slots.size
        return (r.plain.slots[slot]?).join : Except Mishap (Option Bytes)) =
      .ok (((r.slots[(r.oldestIndex + i) % r.capacity]?).join).map Command.bytes) := by
    intro i hi
    have hsum : r.plain.oldestIndex + i < wordLimit := by
      have hle : r.plain.oldestIndex ≤ r.writeIndex := by
        rw [Checked.Ring.oldestIndex]
        split
        · exact le_rfl
        · exact Nat.zero_le _
      have hi' : i < r.capacity := by
        have := List.mem_range.mp hi
        rw [size] at this
        split at this <;> omega
      simp only [Laid, slotLimit, wordLimit] at hr ⊢
      omega
    rw [add_eq hsum, ok_bind, size_slots_plain, modulo_eq r.capacity_pos, ok_bind]
    show Except.ok _ = _
    rw [plain, Array.getElem?_map, Option.join_map_eq_map_join]
    rfl
  rw [Checked.Ring.walk, hsize, mapM_eq_ok hstep, ok_bind, ← walk_eq_live, walk,
    List.map_filterMap, List.filterMap_map]
  rfl

section Stream

variable {offset index within : Nat}

/-- **The length of the stream can be worked out** if it is a word. -/
theorem totalLength_plain (r : Ring) (hr : r.Laid) (h : Stream.size r.live < wordLimit) :
    r.plain.totalLength = .ok (Stream.size r.live) := by
  rw [Checked.Ring.totalLength, r.walk_plain hr, ok_bind, measure_map (by rwa [Nat.zero_add]),
    Nat.zero_add]

/-- **Every offset can be searched for**, also one far beyond the stream. -/
theorem locate_plain (r : Ring) (hr : r.Laid) (h : Stream.size r.live < wordLimit) :
    r.plain.locate offset =
      .ok ((Stream.locate r.live offset).map fun (c, within) => (c.bytes, within)) := by
  rw [Checked.Ring.locate, r.walk_plain hr, ok_bind,
    resolve_map (by rwa [Nat.zero_add]) (Nat.zero_le offset), Nat.sub_zero]

/-- **The search for a byte of a command ends as `Stream.offsetOf` does**: an overflow is a
mishap. -/
theorem offsetOf_plain (r : Ring) (hr : r.Laid) (h : Stream.size r.live < wordLimit) :
    r.plain.offsetOf index within =
      (Stream.offsetOf r.live index within).mapError .overflow := by
  rw [Checked.Ring.offsetOf, r.walk_plain hr, ok_bind, startOffset_map (by rwa [Nat.zero_add]),
    Stream.offsetOf]
  cases r.live[index]? with
  | none => rfl
  | some c =>
    simp only [Nat.zero_add, add]
    cases addWord (Stream.size (r.live.take index)) within <;> rfl

end Stream

theorem tally_map {commands bytes : Nat} {slots : List (Option Command)}
    (hc : commands + (slots.filterMap id).length < wordLimit)
    (hb : bytes + Stream.size (slots.filterMap id) < wordLimit) :
    Checked.Ring.tally commands bytes (slots.map (Option.map Command.bytes)) =
      .ok (commands + (slots.filterMap id).length,
        bytes + Stream.size (slots.filterMap id)) := by
  induction slots generalizing commands bytes with
  | nil => rfl
  | cons slot rest ih =>
    cases slot with
    | none => exact ih hc hb
    | some c =>
      have hcons : (some c :: rest).filterMap id = c :: rest.filterMap id := rfl
      rw [hcons, List.length_cons] at hc ⊢
      rw [hcons, Stream.size_cons, Command.size] at hb
      rw [Stream.size_cons, Command.size]
      rw [List.map_cons, Option.map_some, Checked.Ring.tally, add_eq (by omega), ok_bind,
        add_eq (by omega), ok_bind, ih (by omega) (by omega)]
      congr 2 <;> omega

/-- **All that is stored can be counted when it is released.** -/
theorem releaseAll_plain (r : Ring) (hr : r.Laid) (h : Stream.size r.live < wordLimit) :
    r.plain.releaseAll = .ok (r.releaseAll.1, r.releaseAll.2.plain) := by
  have hperm := r.held_perm_live
  have hcount : 0 + (r.slots.toList.filterMap id).length < wordLimit := by
    have hlen : r.held.length ≤ r.capacity := hperm.length_eq ▸ r.length_live_le
    rw [held] at hlen
    simp only [Laid, slotLimit, wordLimit] at hr ⊢
    omega
  have hbytes : 0 + Stream.size (r.slots.toList.filterMap id) < wordLimit := by
    rw [Nat.zero_add]
    exact (size_eq_of_perm hperm).trans_lt h
  have hslots : r.plain.slots.toList = r.slots.toList.map (Option.map Command.bytes) := by
    simp [plain]
  rw [Checked.Ring.releaseAll, hslots, tally_map hcount hbytes, ok_bind]
  simp [releaseAll, start, plain, capacity]

end Ring

end Spool
