import Spool.Proofs.Reading
import Spool.Proofs.Runs

/-!
# The two addresses of a byte name the same byte

`Stream.locate` goes from the offset of a byte to its command and its place there,
`Stream.offsetOf` from the number of a command and a place to the offset. Each undoes the other
(`Stream.locate_of_offsetOf`, `Stream.exists_offsetOf_of_locate`), because the byte at an offset
has one address only (`Stream.Stands.address_eq`), and the addresses go up with the offsets
(`Stream.Stands.lt_iff`). So a caller who has moved a file to a byte of a command reads that
command from there on (`File.read_of_seekToCommand`).

All of it is subject to offsets being words. A search works out its sum before it looks whether
there is such a byte, so that for a byte that is not there it can find no word and no answer
(`Device.offsetOf_far_overflows`).
-/

namespace Spool

namespace Stream

variable {commands : List Command} {c e : Command} {i j within place offset other : Nat}

/-! ### One address for each offset -/

theorem size_take_add_le (hc : commands[i]? = some c) (h : i < j) :
    size (commands.take i) + c.size ≤ size (commands.take j) := by
  obtain ⟨hi, rfl⟩ := List.getElem?_eq_some_iff.mp hc
  have hfirst : size (commands.take (i + 1)) = size (commands.take i) + commands[i].size := by
    rw [List.take_succ_eq_append_getElem hi, size_append, size_cons, size_nil, Nat.add_zero]
  have hsplit : commands.take j = commands.take (i + 1) ++ (commands.take j).drop (i + 1) := by
    conv_lhs => rw [← List.take_append_drop (i + 1) (commands.take j)]
    rw [List.take_take, Nat.min_eq_left h]
  rw [hsplit, size_append, hfirst]
  exact Nat.le_add_right _ _

theorem Stands.lt_of_lt (h : Stands commands i within c offset)
    (h' : Stands commands j place e other) (hij : i < j) : offset < other := by
  have hle := size_take_add_le h.command hij
  have hw := h.within_lt
  rw [h.offset_eq, h'.offset_eq]
  omega

/-- **Offsets are in the order of the commands**, and within a command in the order of its
bytes. -/
theorem Stands.lt_iff (h : Stands commands i within c offset)
    (h' : Stands commands j place e other) :
    offset < other ↔ i < j ∨ i = j ∧ within < place := by
  rcases Nat.lt_trichotomy i j with hlt | rfl | hgt
  · have := h.lt_of_lt h' hlt
    omega
  · have ho := h.offset_eq
    have ho' := h'.offset_eq
    omega
  · have := h'.lt_of_lt h hgt
    omega

/-- **What stands at an offset has one address.** -/
theorem Stands.address_eq (h : Stands commands i within c offset)
    (h' : Stands commands j place e offset) : i = j ∧ within = place ∧ c = e := by
  have hlt := h.lt_iff h'
  have hgt := h'.lt_iff h
  have hij : i = j := by omega
  subst hij
  refine ⟨rfl, by omega, ?_⟩
  exact Option.some.inj (h.command.symm.trans h'.command)

/-! ### There and back -/

/-- **From an address to the offset and back.** -/
theorem locate_of_offsetOf (h : offsetOf commands i within = .ok (some offset)) :
    ∃ c, commands[i]? = some c ∧ locate commands offset = some (c, within) := by
  obtain ⟨⟨c, hs⟩, -⟩ := offsetOf_eq_some_iff.mp h
  exact ⟨c, hs.command, locate_eq_some_iff.mpr ⟨i, hs⟩⟩

/-- **From an offset to the address and back**, if the offset is a word. -/
theorem exists_offsetOf_of_locate (hlt : offset < size commands) (hword : offset < wordLimit) :
    ∃ c within, locate commands offset = some (c, within) ∧
      ∃ i, offsetOf commands i within = .ok (some offset) ∧ commands[i]? = some c ∧
        ∀ j, offsetOf commands j within = .ok (some offset) → j = i := by
  obtain ⟨i, within, c, hs⟩ := exists_stands hlt
  refine ⟨c, within, locate_eq_some_iff.mpr ⟨i, hs⟩, i,
    offsetOf_eq_some_iff.mpr ⟨⟨c, hs⟩, hword⟩, hs.command, fun j hj => ?_⟩
  obtain ⟨⟨e, hs'⟩, -⟩ := offsetOf_eq_some_iff.mp hj
  exact (hs'.address_eq hs).1

theorem exists_offsetOf (hc : commands[i]? = some c) (hw : within < c.size)
    (hfit : size commands ≤ wordLimit) :
    ∃ offset, offsetOf commands i within = .ok (some offset) ∧ offset < size commands := by
  have hs : Stands commands i within c (size (commands.take i) + within) := ⟨hc, hw, rfl⟩
  exact ⟨_, offsetOf_eq_some_iff.mpr ⟨⟨c, hs⟩, hs.lt_size.trans_le hfit⟩, hs.lt_size⟩

/-- **Addresses go up with offsets.** -/
theorem offsetOf_lt_iff (h : offsetOf commands i within = .ok (some offset))
    (h' : offsetOf commands j place = .ok (some other)) :
    offset < other ↔ i < j ∨ i = j ∧ within < place := by
  obtain ⟨⟨c, hs⟩, -⟩ := offsetOf_eq_some_iff.mp h
  obtain ⟨⟨e, hs'⟩, -⟩ := offsetOf_eq_some_iff.mp h'
  exact hs.lt_iff hs'

end Stream

/-! ### Reading after a search -/

namespace File

variable {f : File} {d : Device} {i within offset : Nat} {admission : Admission}

/-- A search that succeeds has found the offset, and leaves the file there. -/
theorem seekToCommand_ok
    (h : (f.seekToCommand d i within admission).answer = .ok (.ok offset)) :
    Stream.offsetOf d.store.live i within = .ok (some offset) ∧
      (f.seekToCommand d i within admission).state = ({ f with position := offset }, d) := by
  cases admission with
  | refused b => cases h
  | granted =>
    have hsearch : (d.commandOffset i within .granted).answer =
        .ok (Stream.offsetOf d.store.live i within) := rfl
    have hdevice : (d.commandOffset i within .granted).state = d := d.state_inspect _ _
    unfold seekToCommand at h ⊢
    simp only [hsearch, hdevice] at h ⊢
    cases hfound : Stream.offsetOf d.store.live i within with
    | error overflow =>
      rw [hfound] at h
      cases h
    | ok target =>
      rw [hfound] at h
      cases target with
      | none => cases h
      | some position =>
        cases h
        exact ⟨rfl, rfl⟩

/-- **After a search a read delivers the command from the byte on**, as much as fits. -/
theorem read_of_seekToCommand
    (h : (f.seekToCommand d i within admission).answer = .ok (.ok offset)) (buffer : Bytes) :
    let s := (f.seekToCommand d i within admission).state
    ∃ c, d.store.live[i]? = some c ∧
      let data := (c.bytes.drop within).take buffer.length
      (s.1.read s.2 buffer .granted).answer =
        (.ok data.length, data ++ buffer.drop data.length) := by
  obtain ⟨hfound, hstate⟩ := seekToCommand_ok h
  obtain ⟨⟨c, hs⟩, -⟩ := Stream.offsetOf_eq_some_iff.mp hfound
  refine ⟨c, hs.command, ?_⟩
  rw [hstate, ← hs.portion_eq]
  exact (File.read_granted { f with position := offset } d buffer).1

end File

/-! ### The whole -/

namespace Device

/-- **Both addresses of a byte name the same byte**, in every device and so in every ring. An
offset that was found for a byte locates that byte. At every offset of the stream that is a word
a byte is located, and of the commands there is one in which this place has the offset; past the
end nothing is located. A byte has an offset just when it is there and the sum is a word; a byte
that is not there has none, unless the sum is no word, which is worked out first: there is no
answer then. Offsets go up with the commands and the places in them. And after a search that
succeeds, a read delivers the bytes of the command from the byte on, as many as fit. -/
theorem addresses_agree (d : Device) :
    let live := d.store.live
    (∀ i within offset, Stream.offsetOf live i within = .ok (some offset) →
      ∃ c, live[i]? = some c ∧ Stream.locate live offset = some (c, within)) ∧
    (∀ offset, offset < Stream.size live → offset < wordLimit →
      ∃ c within, Stream.locate live offset = some (c, within) ∧
        ∃ i, Stream.offsetOf live i within = .ok (some offset) ∧ live[i]? = some c ∧
          ∀ j, Stream.offsetOf live j within = .ok (some offset) → j = i) ∧
    (∀ offset, Stream.locate live offset = none ↔ Stream.size live ≤ offset) ∧
    (∀ i within c, live[i]? = some c → within < c.size → Stream.size live ≤ wordLimit →
      ∃ offset, Stream.offsetOf live i within = .ok (some offset) ∧ offset < Stream.size live) ∧
    (∀ i within, (∀ c, live[i]? = some c → c.size ≤ within) →
      Stream.offsetOf live i within =
        if i < live.length ∧ wordLimit ≤ Stream.size (live.take i) + within
        then .error .addition else .ok none) ∧
    (∀ i within offset j place other, Stream.offsetOf live i within = .ok (some offset) →
      Stream.offsetOf live j place = .ok (some other) →
      (offset < other ↔ i < j ∨ i = j ∧ within < place)) ∧
    (∀ (f : File) (i within offset : Nat) (admission : Admission) (buffer : Bytes),
      (f.seekToCommand d i within admission).answer = .ok (.ok offset) → buffer ≠ [] →
      let s := (f.seekToCommand d i within admission).state
      ∃ c, live[i]? = some c ∧
        let data := (c.bytes.drop within).take buffer.length
        (s.1.read s.2 buffer .granted).answer =
          (.ok data.length, data ++ buffer.drop data.length)) := by
  intro live
  refine ⟨fun i within offset => Stream.locate_of_offsetOf,
    fun offset => Stream.exists_offsetOf_of_locate, fun offset => Stream.locate_eq_none_iff,
    fun i within c => Stream.exists_offsetOf, ?_,
    fun i within offset j place other => Stream.offsetOf_lt_iff,
    fun f i within offset admission buffer h _ => File.read_of_seekToCommand h buffer⟩
  intro i within hout
  split
  · rename_i h
    exact Stream.offsetOf_eq_error_iff.mpr h
  · rename_i h
    refine Stream.offsetOf_eq_none_iff.mpr fun c hc => ⟨hout c hc, ?_⟩
    have hi : i < live.length := (List.getElem?_eq_some_iff.mp hc).1
    omega

/-- Of two commands that have gone round a ring, the second byte of the second one. -/
theorem addresses_agree_of_second_command :
    let d := (start ⟨2, 10, .retain⟩ (by decide)).absorb [97, 10, 98, 99, 10, 100, 101, 10]
    let f : File := ⟨⟨1⟩, 0, .lowered⟩
    Stream.offsetOf d.store.live 1 1 = .ok (some 4) ∧
      (∃ c, d.store.live[1]? = some c ∧ Stream.locate d.store.live 4 = some (c, 1)) ∧
      (f.seekToCommand d 1 1 .granted).answer = .ok (.ok 4) ∧
      let s := (f.seekToCommand d 1 1 .granted).state
      (s.1.read s.2 [0, 0, 0] .granted).answer = (.ok 2, [101, 10, 0]) := by
  intro d f
  obtain ⟨hthere, -, -, -, -, -, hread⟩ := addresses_agree d
  have hfound : Stream.offsetOf d.store.live 1 1 = .ok (some 4) := by decide
  have hseek : (f.seekToCommand d 1 1 .granted).answer = .ok (.ok 4) := by decide
  obtain ⟨c, hc, hdata⟩ := hread f 1 1 4 .granted [0, 0, 0] hseek (by decide)
  have hsecond : d.store.live[1]? = some ⟨[100, 101, 10], by decide⟩ := by decide
  cases hsecond.symm.trans hc
  exact ⟨hfound, hthere 1 1 4 hfound, hseek, hdata⟩

/-- **A search for a byte that is not there can overflow.** The second of two commands of two
bytes has no byte of this number. There is no answer to a search for it, not even that it is not
there. -/
theorem offsetOf_far_overflows :
    let d := (start ⟨2, 10, .discard⟩ (by decide)).absorb [97, 10, 98, 10]
    let f : File := ⟨⟨1⟩, 0, .lowered⟩
    let within := wordLimit - 2
    (∀ c, d.store.live[1]? = some c → c.size ≤ within) ∧
      Stream.offsetOf d.store.live 1 within ≠ .ok none ∧
      Stream.offsetOf d.store.live 1 within = .error .addition ∧
      (f.seekToCommand d 1 within .granted).answer = .error .addition := by
  intro d f within
  have hlive : d.store.live = [⟨[97, 10], by decide⟩, ⟨[98, 10], by decide⟩] := by decide
  have hover : Stream.offsetOf d.store.live 1 within = .error .addition := by
    rw [hlive, Stream.offsetOf_eq_error_iff]
    decide
  refine ⟨?_, by simp [hover], hover, ?_⟩
  · intro c hc
    rw [hlive] at hc
    cases hc
    decide
  · have hsearch : (d.commandOffset 1 within .granted).answer =
        .ok (Stream.offsetOf d.store.live 1 within) := rfl
    simp only [File.seekToCommand, hsearch, hover]

end Device

end Spool
