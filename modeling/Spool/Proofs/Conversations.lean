import Spool.Console
import Spool.Proofs.Resubmission
import Spool.Proofs.Runs
import Spool.Proofs.Reading

/-!
# What a conversation comes to

A user types and is then shown the last of what was typed. This module says what that is by
looking at the input as a whole: its `lines`, those before the first blank one (`said`), and the
bytes that are stored for them (`typed`). `converse_eq` is the statement: nothing of how the lines
are stored, by files, writes and a policy, nor of how the log is read, sixteen bytes at a time,
is left in it.

Two facts carry it. Storing a line is to have its bytes and a delimiter absorbed (`store_enter`),
so that the conversation is a fold over lines (`foldl_hear`). And reading a file to its end gives
the rest of the stream, whatever the size of the buffer (`File.flatten_drain`), so that a
character which a read has cut in two is whole again before it is shown.
-/

namespace Spool

/-! ### Reading to the end -/

namespace File

/-- Enough reads into a buffer that can take a byte read the rest of the stream. -/
theorem flatten_drainWithin {reads size : Nat} (f : File) (d : Device) (hsize : 0 < size)
    (hreads : Stream.size d.store.live - f.position < reads) :
    ∃ pieces, (f.drainWithin reads d size .granted).answer = .ok pieces ∧
      pieces.flatten = (Stream.bytes d.store.live).drop f.position := by
  induction reads generalizing f with
  | zero => exact absurd hreads (Nat.not_lt_zero _)
  | succ reads ih =>
    have hlen := Stream.length_portion d.store.live f.position size
    have hdata : Stream.portion d.store.live f.position size =
        ((Stream.bytes d.store.live).drop f.position).take
          (Stream.portion d.store.live f.position size).length := by
      rw [hlen]
      rfl
    obtain ⟨hanswer, hposition⟩ := f.read_granted d (List.replicate size filler)
    rw [List.length_replicate] at hanswer hposition
    generalize Stream.portion d.store.live f.position size = data at hlen hdata hanswer hposition
    have hdevice := f.state_read d (List.replicate size filler) .granted
    unfold drainWithin
    simp only [hanswer, hdevice]
    by_cases hzero : data.length = 0
    · -- no room means that the stream has ended
      have hend : Stream.size d.store.live ≤ f.position :=
        Stream.room_eq_zero_iff.mp (by omega)
      rw [if_pos hzero]
      refine ⟨[], rfl, ?_⟩
      rw [List.drop_of_length_le (by rw [Stream.length_bytes]; exact hend), List.flatten_nil]
    · rw [if_neg hzero]
      have hroom := Stream.room_le d.store.live f.position
      obtain ⟨pieces, hpieces, hflat⟩ :=
        ih (f.read d (List.replicate size filler) .granted).state.1 (by rw [hposition]; omega)
      refine ⟨data :: pieces, ?_, ?_⟩
      · rw [hpieces]
        exact congrArg (fun piece => Except.ok (piece :: pieces)) List.take_left
      · rw [List.flatten_cons, hflat, hposition, ← List.drop_drop]
        conv_lhs => enter [1]; rw [hdata]
        exact List.take_append_drop _ _

/-- **Reading to the end gives the rest of the stream**, whatever the size of the buffer. -/
theorem flatten_drain (f : File) (d : Device) {size : Nat} (hsize : 0 < size) :
    ∃ pieces, (f.drain d size .granted).answer = .ok pieces ∧
      pieces.flatten = (Stream.bytes d.store.live).drop f.position :=
  f.flatten_drainWithin d hsize (by omega)

end File

namespace Console

theorem stored_eq (d : Device) : stored d = .ok (Stream.bytes d.store.live) := by
  obtain ⟨pieces, hpieces, hflat⟩ :=
    (File.openOn d).answer.flatten_drain (File.openOn d).state (by decide : 0 < readSize)
  rw [stored, hpieces]
  exact congrArg Except.ok hflat

/-! ### Lines -/

/-- A line without the carriage return at its end, if it has one. -/
def withoutReturn (line : Bytes) : Bytes :=
  if line.getLast? = some carriageReturn then line.dropLast else line

/-- The lines of an input: what stands before each line feed, less one carriage return, and
what follows the last line feed, if anything does. -/
def lines (input : Bytes) : List Bytes :=
  let parts := input.splitOn lineFeed
  parts.dropLast.map withoutReturn ++ parts.getLast?.toList.filter (· ≠ [])

/-- Whether a line has nothing but white space in it. -/
def isBlankLine (line : Bytes) : Bool := (Text.ofBytes? line).any (·.all Text.isBlank)

/-- The lines before the first blank one. -/
def said (input : Bytes) : List Bytes := (lines input).takeWhile (!isBlankLine ·)

/-- The bytes that are stored for an input: its lines, each with a delimiter after it. -/
def typed (delimiter : UInt8) (input : Bytes) : Bytes := (said input).flatMap (· ++ [delimiter])

theorem lines_of_notMem {line : Bytes} (h : lineFeed ∉ line) :
    lines line = if line = [] then [] else [line] := by
  rw [lines, List.splitOn_eq_singleton h]
  by_cases he : line = [] <;> simp [he]

theorem lines_append {line : Bytes} (h : lineFeed ∉ line) (rest : Bytes) :
    lines (line ++ lineFeed :: rest) = withoutReturn line :: lines rest := by
  have hne := List.splitOn_ne_nil lineFeed rest
  rw [lines, lines, List.splitOn_append_cons_self_of_not_mem h, List.dropLast_cons_of_ne_nil hne,
    List.map_cons, List.cons_append, List.getLast?_cons, List.getLast?_eq_some_getLast hne,
    Option.getD_some]

theorem content_of_notMem {line : Bytes} (h : lineFeed ∉ line) : content line = line := by
  have hlast : line.getLast? ≠ some lineFeed := fun e => h (List.mem_of_getLast? e)
  rw [content, chop, if_neg hlast]

theorem content_append (line : Bytes) : content (line ++ [lineFeed]) = withoutReturn line := by
  simp only [content, chop, List.getLast?_concat, List.dropLast_concat, if_pos, withoutReturn]
  split <;> rfl

/-- **A conversation goes line by line.** -/
theorem map_content_segments (input : Bytes) :
    (segments lineFeed input).map content = lines input := by
  induction input using cut_induction lineFeed with
  | uncut line h =>
    rw [segments_of_notMem h, lines_of_notMem h]
    by_cases he : line = [] <;> simp [he, content_of_notMem h]
  | cut line head rest h ih =>
    obtain ⟨body, hbody, hm⟩ := bytes_of_breakAfter h
    rw [segments_of_breakAfter h, List.map_cons, ih, hbody, content_append,
      ← append_of_breakAfter h, hbody, List.append_assoc, List.singleton_append, lines_append hm]

/-! ### Storing lines -/

/-- **To store a line** is to have it absorbed with a delimiter after it. -/
theorem store_enter (d : Device) {line : Bytes} (h : line.length + 1 < sizeLimit) :
    (enter d line).config = d.config ∧
      (enter d line).store = d.store.absorb (line ++ [d.config.delimiter]) := by
  have hlim : (line ++ [d.config.delimiter]).length < sizeLimit := by
    rwa [List.length_append, List.length_singleton]
  obtain ⟨-, -, hstate⟩ := (File.openOn d).answer.writeAll_unlimited (File.openOn d).state hlim
  have hdevice : enter d line = (File.openOn d).state.absorb (line ++ [d.config.delimiter]) :=
    congrArg Prod.snd hstate
  rw [hdevice]
  exact ⟨rfl, rfl⟩

theorem store_foldl_enter (d : Device) {ls : List Bytes}
    (h : ∀ line ∈ ls, line.length + 1 < sizeLimit) :
    (ls.foldl enter d).store = d.store.absorb (ls.flatMap (· ++ [d.config.delimiter])) := by
  induction ls generalizing d with
  | nil => rfl
  | cons line ls ih =>
    obtain ⟨hconfig, hstore⟩ := store_enter d (h line List.mem_cons_self)
    rw [List.foldl_cons, ih _ fun l hl => h l (List.mem_cons_of_mem _ hl), hconfig, hstore,
      ← Store.absorb_append, List.flatMap_cons]

/-! ### Hearing lines -/

theorem hear_typing (d : Device) (line : Bytes) :
    (Conversation.typing d).hear line =
      if isBlankLine (content line) then .ended d
      else if Text.ofBytes? (content line) = none then .broken
      else .typing (enter d (content line)) := by
  rw [Conversation.hear, Line.read, isBlankLine]
  cases Text.ofBytes? (content line) with
  | none => rfl
  | some text => by_cases h : text.all Text.isBlank = true <;> simp [h]

theorem foldl_hear_broken (more : List Bytes) :
    more.foldl Conversation.hear .broken = .broken := by
  induction more with
  | nil => rfl
  | cons line more ih => exact ih

/-- **A conversation is over at the first blank line**, and breaks off at a line before it that
is not UTF-8; else all lines before it have been stored. -/
theorem foldl_hear (d : Device) (ls : List Bytes) :
    let heard := (ls.map content).takeWhile (!isBlankLine ·)
    let final := ls.foldl Conversation.hear (.typing d)
    if ∃ line ∈ heard, Text.ofBytes? line = none then final = .broken
    else final = .typing (heard.foldl enter d) ∨ final = .ended (heard.foldl enter d) := by
  induction ls generalizing d with
  | nil => simp
  | cons line ls ih =>
    simp only [List.map_cons, List.foldl_cons, hear_typing]
    by_cases hblank : isBlankLine (content line) = true
    · simp [hblank, foldl_hear_ended]
    · by_cases hbad : Text.ofBytes? (content line) = none
      · simp [hblank, hbad, foldl_hear_broken]
      · simpa [hblank, hbad] using ih (enter d (content line))

theorem close_of_store {final : Conversation} {d : Device}
    (h : final = .typing d ∨ final = .ended d) :
    final.close = ⟨0, String.ofList (Text.lossy (Stream.bytes d.store.live))⟩ := by
  rcases h with rfl | rfl
  · rw [Conversation.close, stored_eq]
  · rw [Conversation.close, stored_eq]

/-! ### The whole -/

/-- The setup gives this configuration. -/
inductive Setup.Gives : Setup → Config → Prop where
  /-- Without a file it is the standard one. -/
  | standard : Gives .standard .standard
  /-- A file gives the one that is loaded from its text. -/
  | file {bytes : Bytes} {text : List Char} {config : Config} :
    Text.ofBytes? bytes = some text → Config.loadText text = .ok config →
      Gives (.file bytes) config

/-- The setup is a file that gives no configuration. -/
inductive Setup.Refused : Setup → Prop where
  /-- It cannot be read. -/
  | unreadable : Refused .unreadable
  /-- It is no text. -/
  | garbled {bytes : Bytes} : Text.ofBytes? bytes = none → Refused (.file bytes)
  /-- Its text is rejected. -/
  | rejected {bytes : Bytes} {text : List Char} {e : Config.LoadError} :
    Text.ofBytes? bytes = some text → Config.loadText text = .error e → Refused (.file bytes)

namespace Setup

variable {setup : Setup} {config : Config}

theorem refused_or_gives (setup : Setup) : setup.Refused ∨ ∃ config, setup.Gives config := by
  cases setup with
  | standard => exact .inr ⟨_, .standard⟩
  | unreadable => exact .inl .unreadable
  | file bytes =>
    cases htext : Text.ofBytes? bytes with
    | none => exact .inl (.garbled htext)
    | some text =>
      cases hload : Config.loadText text with
      | error e => exact .inl (.rejected htext hload)
      | ok config => exact .inr ⟨config, .file htext hload⟩

theorem config_file {bytes : Bytes} {text : List Char} (h : Text.ofBytes? bytes = some text) :
    (file bytes).config = Config.loadText text := by
  rw [Setup.config, h]

theorem Refused.device (h : setup.Refused) : ∃ e, setup.device = .error (.refused e) := by
  cases h with
  | unreadable => exact ⟨_, rfl⟩
  | garbled hnone => exact ⟨_, by rw [device, Setup.config, hnone]⟩
  | rejected htext hload => exact ⟨_, by rw [device, config_file htext, hload]⟩

theorem Gives.config_eq (h : setup.Gives config) : setup.config = .ok config := by
  cases h with
  | standard => rfl
  | file htext hload => rw [config_file htext, hload]

theorem Gives.valid (h : setup.Gives config) : config.Valid := by
  cases h with
  | standard => exact Config.valid_standard
  | file htext hload => exact (Config.accept_eq_ok_iff.mp hload).2

/-- What is given is valid, so that there is a device if there is room for its slots. -/
theorem Gives.device_eq (h : setup.Gives config) (hroom : config.capacity < slotLimit) :
    setup.device = .ok (.start config h.valid) := by
  simp only [device, h.config_eq, if_pos hroom, Device.create, dif_pos h.valid, Except.mapError]

theorem Gives.device_eq_noRoom (h : setup.Gives config) (hroom : slotLimit ≤ config.capacity) :
    setup.device = .error .noRoom := by
  simp only [device, h.config_eq, if_neg (Nat.not_lt.mpr hroom)]

end Setup

theorem segments_typed (d : UInt8) (input : Bytes) :
    segments d (typed d input) = finished d (typed d input) := by
  have hfinished : ∀ ls : List Bytes, unfinished d (ls.flatMap (· ++ [d])) = [] := by
    intro ls
    induction ls with
    | nil => rfl
    | cons line ls ih =>
      rw [← leftover_nil, List.flatMap_cons, leftover_append, leftover_append, leftover,
        if_pos rfl, leftover, leftover_nil, ih]
  rw [segments_eq_finished_append, typed, hfinished, if_pos rfl, List.append_nil]

/-- **What is stored in the end are the last pieces** of what was typed. -/
theorem bytes_foldl_enter {config : Config} (hv : config.Valid) {input : Bytes}
    (hlines : ∀ line ∈ said input, line.length + 1 < sizeLimit) :
    Stream.bytes ((said input).foldl enter (.start config hv)).store.live =
      ((segments config.delimiter (typed config.delimiter input)).rtake
        config.capacity).flatten := by
  have hstore := store_foldl_enter (.start config hv) hlines
  have hlive := Store.live_absorb_start config hv (typed config.delimiter input)
  rw [← segments_typed] at hlive
  rw [Stream.bytes_eq_flatten, hstore]
  exact congrArg List.flatten hlive

/-- **A conversation as a whole.** A file that gives no configuration ends it with status 1, and
nothing is said. Nothing is said either if the ring of the configuration has no room in any
memory: the status is 101 then. With a device, a line that is not UTF-8 and comes before the first
blank one ends it with status 1, after the prompt; if there is none, the status is 0, and after
the prompt is shown what is retained of the lines before the first blank one: each is taken with a
delimiter after it, they are cut after every delimiter, wherever it came from, and of the pieces
the last ones, as many as the device retains, are decoded as one byte string. Memory is taken to
be there for whatever it can be asked for at all: for a ring that has fewer slots than `slotLimit`,
and for lines that a buffer can hold. -/
theorem converse_eq (setup : Setup) (input : Bytes) :
    (setup.Refused ∨ ∃ config, setup.Gives config) ∧
    (setup.Refused → converse setup input = ⟨1, ""⟩) ∧
    (∀ config, setup.Gives config → slotLimit ≤ config.capacity →
      converse setup input = ⟨101, ""⟩) ∧
    ∀ config, setup.Gives config → config.capacity < slotLimit →
      (∀ line ∈ said input, line.length + 1 < sizeLimit) →
      converse setup input =
        if ∃ line ∈ said input, Text.ofBytes? line = none then ⟨1, prompt⟩
        else
          let pieces := segments config.delimiter (typed config.delimiter input)
          ⟨0, prompt ++ String.ofList (Text.lossy (pieces.rtake config.capacity).flatten)⟩ := by
  refine ⟨setup.refused_or_gives, ?_, ?_, ?_⟩
  · intro h
    obtain ⟨e, hdevice⟩ := h.device
    rw [converse, hdevice]
    rfl
  · intro config h hroom
    rw [converse, h.device_eq_noRoom hroom]
    rfl
  · intro config h hroom hlines
    have hfinal := foldl_hear (.start config h.valid) (segments lineFeed input)
    rw [map_content_segments] at hfinal
    rw [converse, h.device_eq hroom]
    dsimp only
    split
    · rename_i hbad
      rw [show (segments lineFeed input).foldl _ _ = _ from (if_pos hbad).mp hfinal]
      rfl
    · rename_i hgood
      rw [close_of_store ((if_neg hgood).mp hfinal)]
      exact congrArg (fun bytes => Closing.mk 0 (prompt ++ String.ofList (Text.lossy bytes)))
        (bytes_foldl_enter h.valid hlines)

/-- A device that retains one command and ends commands at the first byte of a character of two:
what is retained of it starts inside the character. -/
theorem converse_eq_of_broken_character :
    let file : Bytes := [91, 49, 44, 49, 57, 53, 93]
    let input : Bytes := [0xc3, 0xa9, 0x0d, 0x0a, 0x20, 0x0a, 0xff]
    Setup.Gives (.file file) ⟨1, 0xc3, .discard⟩ ∧ said input = [[0xc3, 0xa9]] ∧
      converse (.file file) input = ⟨0, prompt ++ "\ufffd\ufffd"⟩ := by
  intro file input
  have hgives : Setup.Gives (.file file) ⟨1, 0xc3, .discard⟩ :=
    .file (by decide : Text.ofBytes? file = some ['[', '1', ',', '1', '9', '5', ']']) (by decide)
  have hsaid : said input = [[0xc3, 0xa9]] := by decide
  have hlines : ∀ line ∈ said input, line.length + 1 < sizeLimit := by
    rw [hsaid]
    decide
  have h := (converse_eq (.file file) input).2.2.2 _ hgives (by decide) hlines
  rw [typed, hsaid, if_neg (by decide)] at h
  refine ⟨hgives, hsaid, h.trans ?_⟩
  rfl

/-- A valid configuration with more slots than there is room for: nobody says a word, and yet the
program does not end well. -/
theorem converse_ne_of_too_many_slots :
    let file : Bytes := [123, 34, 99, 97, 112, 97, 99, 105, 116, 121, 34, 58, 53, 55, 54, 52, 54,
      48, 55, 53, 50, 51, 48, 51, 52, 50, 51, 52, 56, 56, 125]
    let config : Config := ⟨576460752303423488, 10, .discard⟩
    Setup.Gives (.file file) config ∧ config.Valid ∧ said [] = [] ∧
      converse (.file file) [] = ⟨101, ""⟩ ∧ converse (.file file) [] ≠ ⟨0, prompt⟩ := by
  intro file config
  have hgives : Setup.Gives (.file file) config :=
    .file (by decide : Text.ofBytes? file = some (file.map fun b => Char.ofNat b.toNat))
      (by decide +kernel)
  have hclosing : converse (.file file) [] = ⟨101, ""⟩ := by
    rw [converse, hgives.device_eq_noRoom (by decide)]
    rfl
  refine ⟨hgives, hgives.valid, rfl, hclosing, ?_⟩
  rw [hclosing]
  decide

end Console

end Spool
