import Spool.Proofs.Reading
import Spool.Proofs.Runs
import Spool.Proofs.Shuffles
import Mathlib.Data.Nat.Find

/-!
# Reading to the end

A caller reads a file again and again, each time into a buffer of any size, and nobody writes
meanwhile (`File.afterReads`). What is read is the stream from the position on, piece by piece
(`File.flatMap_got`), and no piece is of two commands. As long as the stream has not ended, a
read into a buffer that can take a byte does take one, so after finitely many the end is
reached (`File.exists_end`): commands are never empty, and a byte of the stream is always a byte
of one of them.

From the beginning of the stream and with buffers that are large enough, the pieces are the
commands. With any other buffers the pieces put together can be cut into the commands again,
because a command of a store that has only been written to has its delimiter at its end and
nowhere else.
-/

namespace Spool

namespace File

variable {f : File} {d : Device} {buffers : Nat → Bytes} {i k : Nat}

/-- The file and the device after `k` reads, one into each of `buffers`. -/
def afterReads (f : File) (d : Device) (buffers : Nat → Bytes) : Nat → File × Device
  | 0 => (f, d)
  | k + 1 =>
    let s := f.afterReads d buffers k
    (s.1.read s.2 (buffers k) .granted).state

/-- What read number `k` answers: how many bytes it read, and its buffer afterwards. -/
def readAnswer (f : File) (d : Device) (buffers : Nat → Bytes) (k : Nat) :
    Except Fault Nat × Bytes :=
  let s := f.afterReads d buffers k
  (s.1.read s.2 (buffers k) .granted).answer

/-- The position before read number `k`. -/
def place (f : File) (d : Device) (buffers : Nat → Bytes) (k : Nat) : Nat :=
  (f.afterReads d buffers k).1.position

/-- The bytes that read number `k` has read. -/
def got (f : File) (d : Device) (buffers : Nat → Bytes) (k : Nat) : Bytes :=
  match f.readAnswer d buffers k with
  | (.ok n, buffer) => buffer.take n
  | (.error _, _) => []

/-! ### One read after another -/

@[simp] theorem afterReads_snd (f : File) (d : Device) (buffers : Nat → Bytes) (k : Nat) :
    (f.afterReads d buffers k).2 = d := by
  induction k with
  | zero => rfl
  | succ k ih => rw [afterReads, state_read, ih]

/-- **Each read gets the portion at its place**, and leaves the rest of its buffer alone. -/
theorem readAnswer_eq (f : File) (d : Device) (buffers : Nat → Bytes) (k : Nat) :
    let data := Stream.portion d.store.live (f.place d buffers k) (buffers k).length
    f.readAnswer d buffers k = (.ok data.length, data ++ (buffers k).drop data.length) ∧
      f.got d buffers k = data ∧ f.place d buffers (k + 1) = f.place d buffers k + data.length := by
  intro data
  have hread := (f.afterReads d buffers k).1.read_granted d (buffers k)
  have hanswer : f.readAnswer d buffers k =
      (.ok data.length, data ++ (buffers k).drop data.length) := by
    rw [readAnswer, afterReads_snd]
    exact hread.1
  refine ⟨hanswer, ?_, ?_⟩
  · rw [got, hanswer]
    exact List.take_left
  · rw [place, afterReads, afterReads_snd]
    exact hread.2

theorem got_eq (f : File) (d : Device) (buffers : Nat → Bytes) (k : Nat) :
    f.got d buffers k =
      Stream.portion d.store.live (f.place d buffers k) (buffers k).length :=
  (f.readAnswer_eq d buffers k).2.1

theorem place_succ (f : File) (d : Device) (buffers : Nat → Bytes) (k : Nat) :
    f.place d buffers (k + 1) = f.place d buffers k + (f.got d buffers k).length := by
  rw [got_eq]
  exact (f.readAnswer_eq d buffers k).2.2

theorem length_got (f : File) (d : Device) (buffers : Nat → Bytes) (k : Nat) :
    (f.got d buffers k).length =
      min (buffers k).length (Stream.room d.store.live (f.place d buffers k)) := by
  rw [got_eq, Stream.length_portion]

theorem le_place (f : File) (d : Device) (buffers : Nat → Bytes) (k : Nat) :
    f.position ≤ f.place d buffers k := by
  induction k with
  | zero => exact Nat.le_refl _
  | succ k ih =>
    rw [place_succ]
    omega

theorem place_le (f : File) (d : Device) (buffers : Nat → Bytes) (k : Nat) :
    f.place d buffers k ≤ max f.position (Stream.size d.store.live) := by
  induction k with
  | zero => exact Nat.le_max_left _ _
  | succ k ih =>
    have hlen := f.length_got d buffers k
    have hroom := Stream.room_le d.store.live (f.place d buffers k)
    rw [place_succ]
    omega

/-- **What was read is the stream from the first place to the last.** -/
theorem flatMap_got (f : File) (d : Device) (buffers : Nat → Bytes) (k : Nat) :
    (List.range k).flatMap (f.got d buffers) =
      ((Stream.bytes d.store.live).drop f.position).take (f.place d buffers k - f.position) := by
  induction k with
  | zero =>
    show [] = List.take (f.position - f.position) _
    rw [Nat.sub_self, List.take_zero]
  | succ k ih =>
    have hle := f.le_place d buffers k
    have hgot : f.got d buffers k = ((Stream.bytes d.store.live).drop (f.place d buffers k)).take
        (f.got d buffers k).length := by
      rw [length_got, got_eq, Stream.portion]
    have hplace : f.place d buffers (k + 1) - f.position =
        (f.place d buffers k - f.position) + (f.got d buffers k).length := by
      rw [place_succ]
      omega
    rw [List.range_succ, List.flatMap_append, ih, List.flatMap_singleton, hplace, List.take_add,
      List.drop_drop, Nat.add_sub_cancel' hle, ← hgot]

theorem got_eq_nil_iff (hb : buffers k ≠ []) :
    f.got d buffers k = [] ↔ Stream.size d.store.live ≤ f.place d buffers k := by
  have hpos : 0 < (buffers k).length := List.length_pos_iff.mpr hb
  rw [← List.length_eq_zero_iff, length_got, ← Stream.room_eq_zero_iff]
  omega

/-- **A read gets bytes of one command only.** -/
theorem got_of_one_command (h : f.got d buffers k ≠ []) :
    ∃ index within c, Stream.Stands d.store.live index within c (f.place d buffers k) ∧
      f.got d buffers k <+: c.bytes.drop within := by
  have hlt : f.place d buffers k < Stream.size d.store.live := by
    by_contra hle
    exact h (by rw [got_eq, Stream.portion_of_size_le (Nat.le_of_not_lt hle)])
  obtain ⟨index, within, c, hs⟩ := Stream.exists_stands hlt
  refine ⟨index, within, c, hs, ?_⟩
  rw [got_eq, hs.portion_eq]
  exact List.take_prefix _ _

/-! ### The end -/

/-- **The end is reached**: some read gets nothing and all before it get something. -/
theorem exists_end (f : File) (d : Device) (buffers : Nat → Bytes) :
    ∃ last, f.got d buffers last = [] ∧ ∀ i < last, f.got d buffers i ≠ [] := by
  have hend : ∃ k, f.got d buffers k = [] := by
    -- else each read moves the position on, and past the end of the stream at last
    by_contra hnone
    have hgrow : ∀ k, f.position + k ≤ f.place d buffers k := by
      intro k
      induction k with
      | zero => exact Nat.le_refl _
      | succ k ih =>
        have hpos := List.length_pos_iff.mpr fun h => hnone ⟨k, h⟩
        rw [place_succ]
        omega
    have := hgrow (Stream.size d.store.live + 1)
    have := f.place_le d buffers (Stream.size d.store.live + 1)
    omega
  exact ⟨Nat.find hend, Nat.find_spec hend, fun i hi => Nat.find_min hend hi⟩

theorem place_of_end (hb : buffers k ≠ []) (h : f.got d buffers k = []) :
    f.place d buffers k = max f.position (Stream.size d.store.live) := by
  have hend := (got_eq_nil_iff hb).mp h
  have hle := f.place_le d buffers k
  have hge := f.le_place d buffers k
  omega

/-- **All that was left of the stream has been read by then.** -/
theorem flatMap_got_of_end (hb : buffers k ≠ []) (h : f.got d buffers k = []) :
    (List.range k).flatMap (f.got d buffers) = (Stream.bytes d.store.live).drop f.position := by
  rw [flatMap_got, place_of_end hb h, List.take_of_length_le]
  rw [List.length_drop, Stream.length_bytes]
  omega

/-! ### Whole commands -/

/-- **Into buffers that are large enough one reads command after command.** -/
theorem place_of_large (hzero : f.position = 0)
    (hlarge : ∀ k, ∀ c ∈ d.store.live, c.size ≤ (buffers k).length)
    (hi : i ≤ d.store.live.length) :
    f.place d buffers i = Stream.size (d.store.live.take i) ∧
      ∀ c, d.store.live[i]? = some c → f.got d buffers i = c.bytes := by
  have hgot : ∀ j c, f.place d buffers j = Stream.size (d.store.live.take j) →
      d.store.live[j]? = some c → f.got d buffers j = c.bytes := by
    intro j c hplace hc
    have hs : Stream.Stands d.store.live j 0 c (f.place d buffers j) := ⟨hc, c.size_pos, hplace⟩
    rw [got_eq, hs.portion_eq, List.drop_zero, List.take_of_length_le]
    exact hlarge j c (List.mem_of_getElem? hc)
  have hplace : ∀ j ≤ d.store.live.length,
      f.place d buffers j = Stream.size (d.store.live.take j) := by
    intro j
    induction j with
    | zero => exact fun _ => hzero
    | succ j ih =>
      intro hj
      have hprev := ih (Nat.le_of_succ_le hj)
      have hc : d.store.live[j]? = some d.store.live[j] := List.getElem?_eq_getElem hj
      rw [place_succ, hgot j _ hprev hc, hprev, List.take_succ_eq_append_getElem hj,
        Stream.size_append]
      simp [Command.size]
  exact ⟨hplace i hi, fun c => hgot i c (hplace i hi)⟩

theorem end_of_large (hb : ∀ k, buffers k ≠ []) (hzero : f.position = 0)
    (hlarge : ∀ k, ∀ c ∈ d.store.live, c.size ≤ (buffers k).length)
    (hend : f.got d buffers k = []) (hbefore : ∀ i < k, f.got d buffers i ≠ []) :
    k = d.store.live.length := by
  have hlast : f.got d buffers d.store.live.length = [] := by
    rw [got_eq_nil_iff (hb _), (place_of_large hzero hlarge (Nat.le_refl _)).1, List.take_length]
  rcases Nat.lt_trichotomy k d.store.live.length with hlt | heq | hgt
  · have hc : d.store.live[k]? = some d.store.live[k] := List.getElem?_eq_getElem hlt
    rw [(place_of_large hzero hlarge (Nat.le_of_lt hlt)).2 _ hc] at hend
    exact absurd hend d.store.live[k].bytes_ne_nil
  · exact heq
  · exact absurd hlast (hbefore _ hgt)

end File

namespace Session

variable {config : Config} {s s' : Session} {trace : List (Request × Outcome)}

/-- **A live command has its delimiter at its end** and nowhere else, whatever was written. -/
theorem isCommand_of_mem_live (hs : create config = .ok s) (h : s.Runs trace s') {c : Command}
    (hc : c ∈ s'.device.store.live) : IsCommand config.delimiter c.bytes := by
  have hmem := List.mem_map_of_mem (f := Command.bytes) hc
  rw [live_of_runs hs h] at hmem
  exact isCommand_of_mem_finished (List.mem_of_mem_drop hmem)

/-- **Reading to the end of the stream**, from any position and into buffers of any sizes but
nothing, while nobody writes. Every read succeeds and changes only the first bytes of its
buffer, as many as it answers. After finitely many a read gets nothing. What the others have
read is the stream from the position on, and each of them has read bytes of one command, from
its place on. The position is then at the end of the stream, or where it was if that is further.
From the beginning of the stream, what is read can be cut into the live commands; and reads into
buffers as large as any command get one command after another. -/
theorem drain_of_runs (hs : create config = .ok s) (h : s.Runs trace s') (f : File)
    {buffers : Nat → Bytes} (hb : ∀ k, buffers k ≠ []) :
    let d := s'.device
    let stream := Stream.bytes d.store.live
    let got := f.got d buffers
    (∀ i, (f.readAnswer d buffers i).1 = .ok (got i).length ∧
      (f.readAnswer d buffers i).2 = got i ++ (buffers i).drop (got i).length) ∧
    ∃ last, got last = [] ∧ (∀ i < last, got i ≠ []) ∧
      (List.range last).flatMap got = stream.drop f.position ∧
      (f.afterReads d buffers (last + 1)).1.position = max f.position stream.length ∧
      (f.afterReads d buffers (last + 1)).2 = d ∧
      (∀ i < last, ∃ index within c,
        Stream.Stands d.store.live index within c (f.place d buffers i) ∧
          got i <+: c.bytes.drop within) ∧
      (f.position = 0 →
        (d.liveCommands .granted).answer =
            .ok (segments config.delimiter ((List.range last).flatMap got)) ∧
          ((∀ k, ∀ c ∈ d.store.live, c.size ≤ (buffers k).length) →
            (List.range last).map got = d.store.live.map Command.bytes)) := by
  intro d stream got
  constructor
  · intro i
    obtain ⟨hanswer, hgot, -⟩ := f.readAnswer_eq d buffers i
    simp only [got, hgot]
    rw [hanswer]
    exact ⟨rfl, rfl⟩
  · obtain ⟨last, hend, hbefore⟩ := f.exists_end d buffers
    have hall := File.flatMap_got_of_end (hb last) hend
    refine ⟨last, hend, hbefore, hall, ?_, f.afterReads_snd d buffers _, ?_, ?_⟩
    · have hplace := f.place_succ d buffers last
      rw [hend, File.place_of_end (hb last) hend, ← Stream.length_bytes] at hplace
      exact hplace
    · intro i hi
      exact File.got_of_one_command (hbefore i hi)
    · intro hzero
      constructor
      · have hcut : segments config.delimiter (d.store.live.map Command.bytes).flatten =
            d.store.live.map Command.bytes := by
          refine segments_flatten fun chunk hchunk => ?_
          obtain ⟨c, hc, rfl⟩ := List.mem_map.mp hchunk
          exact isCommand_of_mem_live hs h hc
        rw [hall, hzero, List.drop_zero, Stream.bytes_eq_flatten, hcut]
        rfl
      · intro hlarge
        -- the reads are as many as the commands, so it is enough to compare them one by one
        have hlast : last = d.store.live.length :=
          File.end_of_large hb hzero hlarge hend hbefore
        refine List.ext_getElem (by simp [hlast]) fun i hi hi' => ?_
        have hlt : i < d.store.live.length := by simpa using hi'
        have hgot := (File.place_of_large hzero hlarge (Nat.le_of_lt hlt)).2 _
          (List.getElem?_eq_getElem hlt)
        simpa using hgot

/-- Two commands, of three bytes and of two, are read two bytes at a time, from the second
byte on. -/
theorem drain_of_two_commands :
    let config : Config := ⟨2, 10, .retain⟩
    let f : File := ⟨⟨1⟩, 1, .lowered⟩
    let buffers : Nat → Bytes := fun _ => [0, 0]
    ∃ s s' trace, create config = .ok s ∧ s.Runs trace s' ∧ (∀ k, buffers k ≠ []) ∧
      ∃ last, (List.range last).flatMap (f.got s'.device buffers) = [98, 10, 99, 10] ∧
        (f.afterReads s'.device buffers (last + 1)).1.position = 5 := by
  intro config f buffers
  let d := Device.start config (by decide)
  let s : Session := { resume d with log := [.made config] }
  let bytes : Bytes := [97, 98, 10, 99, 10]
  have hs : create config = .ok s := rfl
  have hc : (Source.memory bytes).chunk = some bytes := rfl
  have hw : (s.device.write (.memory bytes) .unlimited .granted).answer.result = .ok 5 :=
    (d.write_granted hc (by decide) (by decide) .unlimited).1
  have hrun := Runs.refl.write hw
  have hb : ∀ k, buffers k ≠ [] := fun k => List.cons_ne_nil _ _
  obtain ⟨-, last, -, -, hall, hplace, -⟩ := drain_of_runs hs hrun f hb
  have hlive := live_of_runs hs hrun
  refine ⟨s, _, _, hs, hrun, hb, last, ?_, ?_⟩
  · rw [hall, Stream.bytes_eq_flatten, hlive]
    rfl
  · rw [hplace, Stream.bytes_eq_flatten, hlive]
    rfl

end Session

end Spool
