import Spool.Stream

/-!
# Where the bytes of a stream stand

A byte of a stream has two addresses: its offset, and the number of a command with a place
in it. `Stream.Stands` relates the two. `locate` goes from the first to the second and finds
just what stands at an offset (`locate_eq_some_iff`); `offsetOf` goes back, as far as offsets
are words (`offsetOf_eq_some_iff`, `offsetOf_eq_none_iff`, `offsetOf_eq_error_iff`).

From an offset on, a stream has what is left of one command, and after it the commands that
follow (`Stands.drop_bytes`). How much is left of the one is its `room`. It bounds what one
read delivers, and there is none just when the stream has ended (`room_eq_zero_iff`).
-/

namespace Spool.Stream

variable {commands : List Command} {first c : Command} {index within offset : Nat}

/-! ### Bytes of several commands -/

@[simp] theorem bytes_nil : bytes [] = [] := rfl

@[simp] theorem bytes_cons (c : Command) (rest : List Command) :
    bytes (c :: rest) = c.bytes ++ bytes rest := rfl

@[simp] theorem bytes_append (a b : List Command) : bytes (a ++ b) = bytes a ++ bytes b :=
  List.flatMap_append

theorem bytes_eq_flatten (commands : List Command) :
    bytes commands = (commands.map Command.bytes).flatten :=
  List.flatMap_def

/-! ### Both addresses of a byte -/

/-- The byte at `offset` is byte `within` of command number `index`, which is `c`. -/
structure Stands (commands : List Command) (index within : Nat) (c : Command) (offset : Nat) :
    Prop where
  /-- There is such a command. -/
  command : commands[index]? = some c
  /-- It has such a byte. -/
  within_lt : within < c.size
  /-- The commands before it come first. -/
  offset_eq : offset = size (commands.take index) + within

theorem stands_cons_zero_iff {rest : List Command} :
    Stands (first :: rest) 0 within c offset ↔
      first = c ∧ offset = within ∧ offset < first.size := by
  constructor
  · rintro ⟨hc, hw, ho⟩
    simp at hc ho
    subst hc
    exact ⟨rfl, ho, ho ▸ hw⟩
  · rintro ⟨rfl, rfl, hw⟩
    exact ⟨rfl, hw, by simp⟩

theorem stands_cons_succ_iff {rest : List Command} :
    Stands (first :: rest) (index + 1) within c offset ↔
      first.size ≤ offset ∧ Stands rest index within c (offset - first.size) := by
  constructor
  · rintro ⟨hc, hw, ho⟩
    rw [List.take_succ_cons, size_cons] at ho
    exact ⟨by omega, hc, hw, by omega⟩
  · rintro ⟨hle, hc, hw, ho⟩
    refine ⟨hc, hw, ?_⟩
    rw [List.take_succ_cons, size_cons]
    omega

/-- **What is located is what stands there.** -/
theorem locate_eq_some_iff :
    locate commands offset = some (c, within) ↔ ∃ index, Stands commands index within c offset := by
  induction commands generalizing offset with
  | nil =>
    constructor
    · intro h
      cases h
    · rintro ⟨index, h⟩
      simpa using h.command
  | cons first rest ih =>
    rw [locate]
    split
    · rename_i hlt
      constructor
      · intro h
        cases h
        exact ⟨0, stands_cons_zero_iff.mpr ⟨rfl, rfl, hlt⟩⟩
      · rintro ⟨index, h⟩
        cases index with
        | zero =>
          obtain ⟨rfl, rfl, -⟩ := stands_cons_zero_iff.mp h
          rfl
        | succ index => exact absurd (stands_cons_succ_iff.mp h).1 (Nat.not_le.mpr hlt)
    · rename_i hlt
      rw [ih]
      constructor
      · rintro ⟨index, h⟩
        exact ⟨index + 1, stands_cons_succ_iff.mpr ⟨Nat.le_of_not_lt hlt, h⟩⟩
      · rintro ⟨index, h⟩
        cases index with
        | zero => exact absurd (stands_cons_zero_iff.mp h).2.2 hlt
        | succ index => exact ⟨index, (stands_cons_succ_iff.mp h).2⟩

/-- **Nothing is located at the end of the stream and past it**, and only there. -/
theorem locate_eq_none_iff : locate commands offset = none ↔ size commands ≤ offset := by
  induction commands generalizing offset with
  | nil => simp [locate]
  | cons first rest ih =>
    rw [locate, size_cons]
    split
    · simp
      omega
    · rw [ih]
      omega

theorem exists_stands (h : offset < size commands) :
    ∃ index within c, Stands commands index within c offset := by
  cases hl : locate commands offset with
  | none => exact absurd (locate_eq_none_iff.mp hl) (Nat.not_le.mpr h)
  | some found =>
    obtain ⟨index, hs⟩ := locate_eq_some_iff.mp hl
    exact ⟨index, found.2, found.1, hs⟩

theorem Stands.lt_size (h : Stands commands index within c offset) : offset < size commands := by
  refine Nat.lt_of_not_le fun hle => ?_
  rw [← locate_eq_none_iff, locate_eq_some_iff.mpr ⟨index, h⟩] at hle
  cases hle

/-- **The stream goes on with the rest of the command** and the commands that follow. -/
theorem Stands.drop_bytes (h : Stands commands index within c offset) :
    (bytes commands).drop offset = c.bytes.drop within ++ bytes (commands.drop (index + 1)) := by
  obtain ⟨hi, rfl⟩ := List.getElem?_eq_some_iff.mp h.command
  have hw : within ≤ commands[index].bytes.length := Nat.le_of_lt h.within_lt
  have hsplit : bytes commands = bytes (commands.take index) ++
      (commands[index].bytes ++ bytes (commands.drop (index + 1))) := by
    rw [← bytes_cons, ← bytes_append, List.getElem_cons_drop, List.take_append_drop]
  rw [hsplit, h.offset_eq, ← length_bytes, List.drop_length_add_append,
    List.drop_append_of_le_length hw]

/-! ### The room up to the next command -/

/-- How many bytes there are from `offset` on up to the end of a command. -/
def room (commands : List Command) (offset : Nat) : Nat :=
  match locate commands offset with
  | some (c, within) => c.size - within
  | none => 0

theorem Stands.room_eq (h : Stands commands index within c offset) :
    room commands offset = c.size - within := by
  rw [room, locate_eq_some_iff.mpr ⟨index, h⟩]

/-- **There is no room just at the end of the stream and past it.** -/
theorem room_eq_zero_iff : room commands offset = 0 ↔ size commands ≤ offset := by
  rw [← locate_eq_none_iff, room]
  cases h : locate commands offset with
  | none => simp
  | some found =>
    obtain ⟨index, hs⟩ := locate_eq_some_iff.mp h
    have := hs.within_lt
    simp
    omega

theorem room_le (commands : List Command) (offset : Nat) :
    room commands offset ≤ size commands - offset := by
  by_cases h : offset < size commands
  · obtain ⟨index, within, c, hs⟩ := exists_stands h
    have hlen := congrArg List.length hs.drop_bytes
    rw [List.length_drop, length_bytes, List.length_append, List.length_drop] at hlen
    rw [hs.room_eq, Command.size]
    omega
  · rw [room_eq_zero_iff.mpr (Nat.le_of_not_lt h)]
    exact Nat.zero_le _

theorem Stands.take_drop_bytes (h : Stands commands index within c offset) (count : Nat) :
    (c.bytes.drop within).take count =
      ((bytes commands).drop offset).take (min count (room commands offset)) := by
  have hlen : (c.bytes.drop within).length = room commands offset := by
    rw [h.room_eq, List.length_drop, Command.size]
  rw [h.drop_bytes, List.take_append_of_le_length (hlen ▸ Nat.min_le_right _ _), ← hlen,
    ← List.take_take, List.take_length]

/-! ### Back to the offset -/

/-- Of a command there is, a byte has an offset if the sum is a word and the byte is there. -/
theorem offsetOf_of_command (hc : commands[index]? = some c) :
    offsetOf commands index within =
      if size (commands.take index) + within < wordLimit then
        .ok (if within < c.size then some (size (commands.take index) + within) else none)
      else .error .addition := by
  rw [offsetOf, hc]
  by_cases h : size (commands.take index) + within < wordLimit
  · simp only [addWord, if_pos h]
    rfl
  · simp only [addWord, if_neg h]
    rfl

theorem offsetOf_of_length_le (h : commands.length ≤ index) :
    offsetOf commands index within = .ok none := by
  rw [offsetOf, List.getElem?_eq_none h]

/-- **The offset of a byte is where it stands**, if that is a word. -/
theorem offsetOf_eq_some_iff :
    offsetOf commands index within = .ok (some offset) ↔
      (∃ c, Stands commands index within c offset) ∧ offset < wordLimit := by
  constructor
  · intro h
    cases hc : commands[index]? with
    | none =>
      rw [offsetOf_of_length_le (List.getElem?_eq_none_iff.mp hc)] at h
      cases h
    | some c =>
      rw [offsetOf_of_command hc] at h
      split at h
      · rename_i hlt
        split at h
        · rename_i hw
          cases h
          exact ⟨⟨c, hc, hw, rfl⟩, hlt⟩
        · cases h
      · cases h
  · rintro ⟨⟨c, hs⟩, hlt⟩
    rw [hs.offset_eq] at hlt ⊢
    rw [offsetOf_of_command hs.command, if_pos hlt, if_pos hs.within_lt]

/-- **A byte has no offset if it is not there**, and the sum that is worked out for it is a
word. -/
theorem offsetOf_eq_none_iff :
    offsetOf commands index within = .ok none ↔
      ∀ c, commands[index]? = some c →
        c.size ≤ within ∧ size (commands.take index) + within < wordLimit := by
  cases hc : commands[index]? with
  | none => simp [offsetOf_of_length_le (List.getElem?_eq_none_iff.mp hc)]
  | some c =>
    rw [offsetOf_of_command hc]
    split
    · split <;> simp <;> omega
    · simp
      omega

/-- **The sum is too large** just when there is such a command and the sum is no word, whether
or not the command has such a byte. -/
theorem offsetOf_eq_error_iff {overflow : Overflow} :
    offsetOf commands index within = .error overflow ↔
      index < commands.length ∧ wordLimit ≤ size (commands.take index) + within := by
  cases hc : commands[index]? with
  | none =>
    have hlen := List.getElem?_eq_none_iff.mp hc
    rw [offsetOf_of_length_le hlen]
    simp
    omega
  | some c =>
    obtain ⟨hlen, -⟩ := List.getElem?_eq_some_iff.mp hc
    cases overflow
    rw [offsetOf_of_command hc]
    split
    · simp
      omega
    · simp
      omega

end Spool.Stream
