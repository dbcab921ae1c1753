import Spool.Proofs.Checked.Device

/-!
# Sessions that check every step

A session on plain data: the store, what a write does with the bytes after the first delimiter,
and the positions of the files. Its calls are those of `Spool.Session`, of which they carry out
the part that works with words, indices and slots, each step checked. A reply is worked out
where this part has one to give; a call that only names or describes has none.

`Session.serve_plain` says of one call that the checked session comes to the same as the session,
reply and state, and has a mishap just where the session reports an overflow. From it follows what
any run of calls on a new device does (`Session.safe_of_works`): as long as the bytes that are
live and those that wait can be counted by a word, no step fails, but for the search for a byte
of a command, which fails if the offset that it works out is no word. It works it out before
it looks whether the command has that byte, so this can happen although the stream is short
(`Session.search_overflows_of_short_stream`).

A loop over calls, such as one that fills a buffer, counts as the calls it makes (`Works.loop`).
-/

namespace Spool

namespace Checked

/-! ### Sessions -/

/-- The plain data of a session. -/
structure Session where
  /-- What is guarded. -/
  store : Store
  /-- What a write does with the bytes after the first delimiter. -/
  trailing : Trailing
  /-- The positions of the files opened so far; those of files that were released are gone. -/
  positions : List (Option Nat)

namespace Session

/-- A session with a new device. -/
def start (config : Config) : Except Mishap Session := do
  return ⟨⟨.start config.delimiter, ← Ring.start config.capacity⟩, config.trailing, []⟩

/-- The session after the file `index` has moved to `position`. -/
def moved (s : Session) (index position : Nat) : Session :=
  { s with positions := s.positions.set index (some position) }

/-- The reply to a move of the file `index`, which stays at `position` if it failed. -/
def sought (s : Session) (index position : Nat) (result : Except Fault Nat) (answer : Answer) :
    Option Reply × Session :=
  let position := result.toOption.getD position
  (some ⟨answer, none, none, some position⟩, s.moved index position)

/-- Send the file `index`, which is at `position`, to a target. -/
def move (s : Session) (admission : Admission) (index position : Nat) (target : Target)
    (answer : Except Fault Nat → Answer) : Except Mishap (Option Reply × Session) := do
  let result ← seek s.store.ring position target admission
  return s.sought index position result (answer result)

/-- Make a call on the file `index`, which is at `position`. -/
def callFile (s : Session) (admission : Admission) (index position : Nat) :
    FileCall → Except Mishap (Option Reply × Session)
  | .read size => do
    let e ← read s.store.ring position (.memory (List.replicate size filler)) size admission
    return (some ⟨.ofResult (.number ·) e.result, none, some e.sink.contents, some e.position⟩,
      s.moved index e.position)
  | .write bytes q => do
    let (result, store) ← write s.store s.trailing (.memory bytes) q admission
    return (some ⟨.ofResult (.number ·) result, none, none, some position⟩,
      { s with store }.moved index position)
  | .seek target => s.move admission index position target fun result =>
    .ofResult (.number ·) result
  | .seekToCommand i within => do
    let result ← seekToCommand s.store.ring i within admission
    return s.sought index position result (.ofResult (fun n : Nat => .number n) result)
  | .rewind => s.move admission index position (.start 0) (.ofResult fun _ => .done)
  | .position => s.move admission index position (.current 0) fun result =>
    .ofResult (.number ·) result
  | .tell => return (some ⟨.number position, none, none, some position⟩, s)
  | .flush => return (some ⟨.done, none, none, some position⟩, s)
  | _ => return (none, s)

/-- Make a call, given how its request for the guard ends. -/
def serve (s : Session) (admission : Admission) : Request → Except Mishap (Option Reply × Session)
  | .write source q => do
    let (result, store) ← write s.store s.trailing source q admission
    return (some (.bare (.ofResult (.number ·) result)), { s with store })
  | .read position count sink => do
    let e ← read s.store.ring position sink count admission
    return (some ⟨.ofResult (.number ·) e.result, some e.position, some e.sink.contents, none⟩, s)
  | .logicalLength => do
    let length ← inspect admission s.store.ring.totalLength
    return (some (.bare (.ofResult (.number ·) length)), s)
  | .pendingLength => do
    let length ← inspect admission (return s.store.assembler.pending.size)
    return (some (.bare (.ofResult (.number ·) length)), s)
  | .liveCommands => do
    let live ← inspect admission s.store.ring.walk
    return (some (.bare (.ofResult .pieces live)), s)
  | .commandOffset index within => do
    let offset ← inspect admission (s.store.ring.offsetOf index within)
    return (some (.bare (.ofResult .offset offset)), s)
  | .openFile => return (none, { s with positions := s.positions ++ [some 0] })
  | .release index => return (none, { s with positions := s.positions.set index none })
  | .onFile index call =>
    match (s.positions[index]?).join with
    | some position => s.callFile admission index position call
    | none => return (none, s)
  | _ => return (none, s)

/-- Make calls one after another. -/
def run (s : Session) (calls : List (Admission × Request)) : Except Mishap Session :=
  calls.foldlM (fun s call => do return (← s.serve call.1 call.2).2) s

end Session

end Checked

open Checked

/-! ### Single calls -/

/-- Whether a request is one call. A loop over reads or writes makes several. -/
def Request.isCall : Request → Bool
  | .onFile _ (.readExactly _) | .onFile _ (.writeAll ..) | .onFile _ (.drain _) => false
  | _ => true

/-- The bytes that a loop submits. -/
def Request.submits : Request → Bytes
  | .onFile _ (.writeAll bytes _) => bytes
  | _ => []

/-- What was worked out for a reply, if anything was, is the outcome. -/
def Replies (reply : Option Reply) (outcome : Outcome) : Prop :=
  ∀ r, reply = some r → outcome = .reply r

theorem Replies.some (r : Reply) : Replies (some r) (.reply r) := by
  intro r' h
  cases h
  rfl

theorem Replies.none (outcome : Outcome) : Replies none outcome := fun r h => by cases h

namespace Session

/-- The plain data of a session. -/
def plain (s : Session) : Checked.Session where
  store := s.device.store.plain
  trailing := s.device.config.trailing
  positions := s.files.map (Option.map File.position)

/-- The bytes that are live and those that wait can be counted by a word. -/
def Fits (s : Session) : Prop := s.device.Fits

/-- A request is a search that overshoots. -/
def Overshoots (s : Session) (admission : Admission) : Request → Prop
  | .commandOffset index within | .onFile _ (.seekToCommand index within) =>
    s.device.Overshoots admission index within
  | _ => False

variable {s v : Session} {busy : Bool} {admission : Admission} {caller : Caller}
  {request : Request} {outcome : Outcome}

theorem plain_afterFile {ρ : Type} (s : Session) (index : Nat) {e : Effect (File × Device) ρ}
    (h : e.state.2.config = s.device.config) :
    (s.afterFile index e).plain =
      { s.plain with store := e.state.2.store.plain }.moved index e.state.1.position := by
  simp [plain, afterFile, Checked.Session.moved, List.map_set, h]

theorem plain_setSignal (s : Session) (signal : Signal) (owner : Owner) :
    (s.setSignal signal owner).plain = s.plain := by
  cases owner with
  | file index =>
    simp only [plain, setSignal, Checked.Session.mk.injEq, true_and]
    refine List.ext_getElem? fun i => ?_
    rw [List.getElem?_map, List.getElem?_map, List.getElem?_modify]
    cases s.files[i]? with
    | none => rfl
    | some file =>
      by_cases h : index = i
      · cases file <;> simp [h]
      · simp [h]
  | name n => rfl
  | caller => rfl

theorem positions_plain {index : Nat} {file : File} (h : s.file? index = some file) :
    (s.plain.positions[index]?).join = some file.position := by
  rw [plain, List.getElem?_map, Option.join_map_eq_map_join]
  exact congrArg (Option.map File.position) h

theorem sought_plain {ρ : Type} (s : Session) (index : Nat) {file : File}
    {e : Effect (File × Device) ρ} {result : Except Fault Nat} (answer : Answer)
    (hd : e.state.2 = s.device)
    (hp : e.state.1.position = result.toOption.getD file.position) :
    s.plain.sought index file.position result answer =
      (some ⟨answer, none, none, some e.state.1.position⟩, (s.afterFile index e).plain) := by
  rw [s.plain_afterFile index (congrArg Device.config hd), Checked.Session.sought, ← hp, hd]
  rfl

theorem move_plain (hl : s.device.store.ring.Laid) (hf : s.Fits) (index : Nat) (file : File)
    (target : Target) (answer : Except Fault Nat → Answer) :
    let e := file.seek s.device target admission
    s.plain.move admission index file.position target answer =
      .ok (some ⟨answer e.answer, none, none, some e.state.1.position⟩,
        (s.afterFile index e).plain) := by
  intro e
  show (Checked.seek s.device.store.ring.plain file.position target admission >>= _) = _
  rw [File.seek_plain hl hf, ok_bind, pure_eq_ok,
    s.sought_plain index _ (file.state_seek _ _ _) (file.position_seek _ _ _)]

/-- **A call on a file comes to the same on plain data**, unless it is a search that
overshoots. -/
theorem callFile_plain (hl : s.device.store.ring.Laid) (hf : s.Fits) {index : Nat} {file : File}
    {call : FileCall} (hcall : (Request.onFile index call).isCall = true)
    (hv : (s.callFile admission index file call).2.Fits)
    (hover : ¬ s.Overshoots admission (.onFile index call)) :
    ∃ reply, s.plain.callFile admission index file.position call =
        .ok (reply, (s.callFile admission index file call).2.plain) ∧
      Replies reply (.reply (s.callFile admission index file call).1) := by
  cases call with
  | read size =>
    refine ⟨_, ?_, .some _⟩
    let buffer := List.replicate size filler
    have hread : Checked.read s.device.store.ring.plain file.position (.memory buffer) size
        admission = .ok (s.device.read file.position (.memory buffer) buffer.length
          admission).answer := by
      rw [List.length_replicate]
      exact s.device.read_plain hl hf file.position (.memory buffer) size
    have hstate := file.state_read s.device buffer admission
    show (Checked.read s.device.store.ring.plain file.position (.memory buffer) size admission
      >>= _) = Except.ok (_, (s.afterFile index (file.read s.device buffer admission)).plain)
    rw [hread, ok_bind, s.plain_afterFile index (congrArg Device.config hstate), hstate]
    rfl
  | write bytes q =>
    refine ⟨_, ?_, .some _⟩
    show (Checked.write s.device.store.plain s.device.config.trailing (.memory bytes) q admission
      >>= _) = _
    rw [s.device.write_plain hl (.memory bytes) q hv, ok_bind]
    show _ = Except.ok (_, (s.afterFile index (file.write s.device bytes q admission)).plain)
    rw [s.plain_afterFile index rfl]
    rfl
  | seekToCommand i within =>
    refine ⟨_, ?_, .some _⟩
    show (Checked.seekToCommand s.device.store.ring.plain i within admission >>= _) = _
    rw [File.seekToCommand_plain hl hf file]
    cases hc : (file.seekToCommand s.device i within admission).answer with
    | error o => exact absurd (File.seekToCommand_eq_error_iff.mp hc) hover
    | ok result =>
      show Except.ok (s.plain.sought index file.position result _) = _
      rw [s.sought_plain index _ (file.state_seekToCommand _ _ _ _)
        (File.position_seekToCommand hc)]
      simp only [callFile, hc]
      rfl
  | seek target => exact ⟨_, s.move_plain hl hf index file target _, .some _⟩
  | rewind => exact ⟨_, s.move_plain hl hf index file (.start 0) _, .some _⟩
  | position => exact ⟨_, s.move_plain hl hf index file (.current 0) _, .some _⟩
  | tell | flush => exact ⟨_, rfl, .some _⟩
  | handle | describe => exact ⟨_, rfl, .none _⟩
  | readExactly | writeAll | drain => cases hcall

/-- **A call comes to the same on plain data**, unless it is a search that overshoots. -/
theorem serve_plain (hl : s.device.store.ring.Laid) (hf : s.Fits) (hv : v.Fits)
    (hcall : request.isCall = true)
    (h : s.serve busy admission caller request = some (outcome, v))
    (hover : ¬ s.Overshoots admission request) :
    ∃ reply, s.plain.serve admission request = .ok (reply, v.plain) ∧ Replies reply outcome := by
  -- To look at what is guarded leaves the plain data as they are.
  have hinspect : ∀ {α : Type} (look : Store → α) (reply : Option Reply),
      (.ok (reply, s.plain) : Except Mishap (Option Reply × Checked.Session)) =
        .ok (reply, (s.after (s.device.perform (inspectPlan look) admission)).plain) := by
    intro α look reply
    rw [plain, plain, after, Device.state_inspect]
  cases request with
  | write source q =>
    cases h
    refine ⟨_, ?_, .some _⟩
    show (Checked.write s.device.store.plain s.device.config.trailing source q admission >>= _) = _
    rw [s.device.write_plain hl source q hv, ok_bind]
    rfl
  | read position count sink =>
    cases h
    refine ⟨_, ?_, .some _⟩
    show (Checked.read s.device.store.ring.plain position sink count admission >>= _) = _
    rw [s.device.read_plain hl hf position sink count, ok_bind]
    simp only [plain, after, Device.state_read]
    rfl
  | logicalLength =>
    cases h
    refine ⟨_, ?_, .some _⟩
    show (Checked.inspect admission s.device.store.ring.plain.totalLength >>= _) = _
    rw [Device.logicalLength_plain hl hf, ok_bind]
    exact hinspect _ _
  | pendingLength =>
    cases h
    refine ⟨_, ?_, .some _⟩
    show (Checked.inspect admission (return s.device.store.assembler.pending.size) >>= _) = _
    rw [s.device.pendingLength_plain admission, ok_bind]
    exact hinspect _ _
  | liveCommands =>
    cases h
    refine ⟨_, ?_, .some _⟩
    show (Checked.inspect admission s.device.store.ring.plain.walk >>= _) = _
    rw [Device.liveCommands_plain hl, ok_bind]
    exact hinspect _ _
  | commandOffset index within =>
    cases h
    refine ⟨_, ?_, .some _⟩
    show (Checked.inspect admission (s.device.store.ring.plain.offsetOf index within) >>= _) = _
    rw [Device.commandOffset_plain hl hf]
    cases hc : (s.device.commandOffset index within admission).answer with
    | error fault => exact hinspect _ _
    | ok found =>
      cases found with
      | error o => exact absurd (Device.commandOffset_eq_error_iff.mp hc) hover
      | ok offset => exact hinspect _ _
  | config | describe | isRaised | describeSignal =>
    cases h
    exact ⟨none, rfl, .none _⟩
  | raise | lower =>
    cases h
    exact ⟨none, congrArg (fun p => Except.ok (none, p)) (s.plain_setSignal _ _).symm, .none _⟩
  | openFile =>
    cases h
    refine ⟨none, congrArg (fun p => Except.ok (none, p)) ?_, .none _⟩
    simp [plain, after, File.openOn, Counter.takeHandle]
  | release index =>
    obtain ⟨f, -, he⟩ := Option.map_eq_some_iff.mp h
    cases he
    refine ⟨none, congrArg (fun p => Except.ok (none, p)) ?_, .none _⟩
    simp [plain, List.map_set]
  | onFile index call =>
    obtain ⟨f, hfile, he⟩ := Option.map_eq_some_iff.mp h
    cases he
    obtain ⟨reply, hcallFile, hreply⟩ := s.callFile_plain hl hf hcall hv hover
    refine ⟨reply, ?_, hreply⟩
    rw [Checked.Session.serve, positions_plain hfile]
    exact hcallFile
  | heldRead | meaningless => cases h

/-- **A search that overshoots cannot be carried out**, and the session says so. -/
theorem serve_plain_of_overshoots (hl : s.device.store.ring.Laid) (hf : s.Fits)
    (h : s.serve busy admission caller request = some (outcome, v))
    (hover : s.Overshoots admission request) :
    s.plain.serve admission request = .error (.overflow .addition) ∧
      outcome.overflow? = some .addition := by
  cases request with
  | commandOffset index within =>
    have hanswer := Device.commandOffset_eq_error_iff (o := .addition).mpr hover
    cases h
    constructor
    · show (Checked.inspect admission (s.device.store.ring.plain.offsetOf index within) >>= _) = _
      rw [Device.commandOffset_plain hl hf, hanswer]
      rfl
    · simp only [hanswer]
      rfl
  | onFile file call =>
    cases call with
    | seekToCommand index within =>
      obtain ⟨f, hfile, he⟩ := Option.map_eq_some_iff.mp h
      have hanswer : (f.seekToCommand s.device index within admission).answer =
          .error .addition := File.seekToCommand_eq_error_iff.mpr hover
      cases he
      constructor
      · rw [Checked.Session.serve, positions_plain hfile]
        show (Checked.seekToCommand s.device.store.ring.plain index within admission >>= _) = _
        rw [File.seekToCommand_plain hl hf f, hanswer]
        rfl
      · simp only [hanswer]
        rfl
    | _ => exact hover.elim
  | _ => exact hover.elim

/-! ### Runs of calls -/

/-- The session `s` comes to another by single calls, made by any callers, who find the guard
taken or not and are admitted or turned away. After each call the bytes that are live and those
that wait can be counted by a word, and no call is a search that overshoots. -/
inductive Works (s : Session) : List (Admission × Request) → Session → Prop where
  /-- No call yet. -/
  | refl : Works s [] s
  /-- One more call. -/
  | serve {u v : Session} {calls : List (Admission × Request)} {request : Request}
      {outcome : Outcome} (busy : Bool) (admission : Admission) (caller : Caller) :
      Works s calls u → request.isCall = true →
      u.serve busy admission caller request = some (outcome, v) → v.Fits →
      ¬ u.Overshoots admission request → Works s (calls ++ [(admission, request)]) v

variable {config : Config} {s' : Session} {calls : List (Admission × Request)}

theorem fits_of_create (h : create config = .ok s) : s.Fits := by
  obtain ⟨hv, hd⟩ := device_of_create h
  have hlive : (Store.start config hv).live = [] := Ring.live_start _ hv
  rw [Fits, hd, Device.Fits, Device.start, hlive]
  exact (by decide : 0 + 0 < wordLimit)

/-- **A session with a new device is made if there is room for its slots.** -/
theorem start_plain (h : create config = .ok s) :
    Checked.Session.start config =
      if config.capacity < slotLimit then .ok s.plain else .error .noRoom := by
  obtain ⟨hv, hd⟩ := device_of_create h
  have hfiles : s.files = [] := by
    rw [create, Device.create, dif_pos hv] at h
    cases h
    rfl
  rw [Checked.Session.start, Ring.start_plain config.capacity hv]
  by_cases hroom : config.capacity < slotLimit
  · rw [if_pos hroom, if_pos hroom, ok_bind, plain, hd, hfiles]
    rfl
  · rw [if_neg hroom, if_neg hroom]
    rfl

theorem isSingle_of_isCall (h : request.isCall = true) : request.isSingle = true := by
  cases request with
  | onFile file call =>
    cases call with
    | writeAll => cases h
    | _ => rfl
  | _ => rfl

theorem Works.fits (h : s.Works calls s') (hf : s.Fits) : s'.Fits := by
  cases h with
  | refl => exact hf
  | serve _ _ _ _ _ _ hv => exact hv

theorem Works.laid (h : s.Works calls s') (hl : s.device.store.ring.Laid) :
    s'.device.store.ring.Laid := by
  induction h with
  | refl => exact hl
  | serve busy admission caller _ hcall hserve _ _ ih =>
    obtain ⟨-, hstore⟩ := serve_spec (isSingle_of_isCall hcall) hserve
    rw [hstore]
    exact ih.absorb _

/-- **A run comes to the same on plain data.** -/
theorem run_plain (hl : s.device.store.ring.Laid) (hf : s.Fits) (h : s.Works calls s') :
    s.plain.run calls = .ok s'.plain := by
  induction h with
  | refl => rfl
  | serve busy admission caller hworks hcall hserve hv hover ih =>
    obtain ⟨reply, hnext, -⟩ :=
      serve_plain (hworks.laid hl) (hworks.fits hf) hv hcall hserve hover
    rw [Checked.Session.run, List.foldlM_append]
    show s.plain.run _ >>= _ = _
    rw [ih, ok_bind, List.foldlM_cons, hnext]
    rfl

theorem Works.write {u : Session} (h : s.Works calls u) (source : Source) (q : Quota)
    (hv : (u.after (u.device.write source q .granted)).Fits) :
    s.Works (calls ++ [(.granted, .write source q)])
      (u.after (u.device.write source q .granted)) :=
  .serve false .granted default h rfl rfl hv id

/-! ### Loops -/

section

variable {u v : Session} {index : Nat} {file : File}

theorem afterFile_self {ρ : Type} (h : s.file? index = some file) (answer : ρ) :
    s.afterFile index ⟨answer, (file, s.device), []⟩ = s := by
  obtain ⟨hindex, hfile⟩ := List.getElem?_eq_some_iff.mp (Option.join_eq_some_iff.mp h)
  have hfiles : s.files.set index (some file) = s.files := by
    rw [← hfile, List.set_getElem_self]
  rw [afterFile, hfiles, List.append_nil]

theorem afterFile_afterFile {ρ σ : Type} (s : Session) (index : Nat) (e : Effect (File × Device) ρ)
    (e' : Effect (File × Device) σ) :
    (s.afterFile index e).afterFile index e' =
      s.afterFile index ⟨e'.answer, e'.state, e.records ++ e'.records⟩ := by
  simp [afterFile, List.set_set, List.append_assoc]

theorem file?_afterFile {ρ : Type} (h : s.file? index = some file)
    (e : Effect (File × Device) ρ) : (s.afterFile index e).file? index = some e.state.1 := by
  obtain ⟨hindex, -⟩ := List.getElem?_eq_some_iff.mp (Option.join_eq_some_iff.mp h)
  simp [file?, afterFile, hindex]

theorem Works.onFile (h : s.Works calls u) (hfile : u.file? index = some file) (call : FileCall)
    (hcall : (Request.onFile index call).isCall = true)
    (hv : (u.callFile admission index file call).2.Fits)
    (hover : ¬ u.Overshoots admission (.onFile index call)) :
    s.Works (calls ++ [(admission, .onFile index call)])
      (u.callFile admission index file call).2 := by
  have hserve : u.serve false admission default (.onFile index call) =
      some (.reply (u.callFile admission index file call).1,
        (u.callFile admission index file call).2) := by
    rw [Session.serve, hfile]
    rfl
  exact .serve false admission default h hcall hserve hv hover

theorem Works.readFile (h : s.Works calls u) (hf : u.Fits) (hfile : u.file? index = some file)
    (size : Nat) (admission : Admission) :
    let next := u.afterFile index (file.read u.device (List.replicate size filler) admission)
    s.Works (calls ++ [(admission, .onFile index (.read size))]) next ∧ next.Fits ∧
      next.device = u.device := by
  intro next
  have hdevice : next.device = u.device := file.state_read _ _ _
  have hv : next.Fits := by
    rw [Fits, hdevice]
    exact hf
  exact ⟨h.onFile hfile (.read size) rfl hv id, hv, hdevice⟩

/-- To fill a buffer is to read until it is full. -/
theorem Works.readExactly (h : s.Works calls u) (hf : u.Fits)
    (hfile : u.file? index = some file) (size : Nat) (admission : Admission) :
    ∃ more, s.Works (calls ++ more) (u.afterFile index
      (file.readExactly u.device (List.replicate size filler) admission)) := by
  induction size using Nat.strong_induction_on generalizing calls u file with
  | _ size ih =>
    obtain ⟨hread, hfits, hdevice⟩ := h.readFile hf hfile size admission
    rw [File.readExactly]
    split
    · refine ⟨[], ?_⟩
      rw [List.append_nil, afterFile_self hfile]
      exact h
    · rename_i hne
      simp only
      split
      · exact ⟨_, hread⟩
      · rename_i n hresult
        split
        · rename_i hn
          have hsize : 0 < size := Nat.pos_of_ne_zero fun h0 => hne (by rw [h0]; rfl)
          obtain ⟨more, hmore⟩ :=
            ih (size - n) (by omega) hread hfits (file?_afterFile hfile _)
          rw [List.append_assoc, hdevice, afterFile_afterFile] at hmore
          rw [List.drop_replicate, file.state_read]
          exact ⟨_, hmore⟩
        · exact ⟨_, hread⟩

/-- To read to the end is to read until there is nothing. -/
theorem Works.drainWithin (h : s.Works calls u) (hf : u.Fits)
    (hfile : u.file? index = some file) (reads size : Nat) (admission : Admission) :
    ∃ more, s.Works (calls ++ more) (u.afterFile index
      (file.drainWithin reads u.device size admission)) := by
  induction reads generalizing calls u file with
  | zero =>
    refine ⟨[], ?_⟩
    rw [List.append_nil, File.drainWithin, afterFile_self hfile]
    exact h
  | succ reads ih =>
    obtain ⟨hread, hfits, hdevice⟩ := h.readFile hf hfile size admission
    rw [File.drainWithin]
    simp only
    split
    · exact ⟨_, hread⟩
    · split
      · exact ⟨_, hread⟩
      · obtain ⟨more, hmore⟩ := ih hread hfits (file?_afterFile hfile _)
        rw [List.append_assoc, hdevice, afterFile_afterFile] at hmore
        rw [file.state_read]
        exact ⟨_, hmore⟩

/-- To write all bytes is to write until all are taken. -/
theorem Works.writeAll {bytes : Bytes} (h : s.Works calls u) (hfile : u.file? index = some file)
    (hparts : ∀ n, (u.device.absorb (bytes.take n)).Fits) (q : Quota) (admission : Admission) :
    ∃ more, s.Works (calls ++ more)
      (u.afterFile index (file.writeAll u.device bytes q admission)) := by
  induction hlen : bytes.length using Nat.strong_induction_on
    generalizing calls u file bytes q with
  | _ length ih =>
    subst hlen
    have hwrite : s.Works (calls ++ [(admission, .onFile index (.write bytes q))])
        (u.afterFile index (file.write u.device bytes q admission)) := by
      refine h.onFile hfile (.write bytes q) rfl ?_ id
      show (u.device.write (.memory bytes) q admission).state.Fits
      rw [u.device.state_write]
      exact hparts _
    rw [File.writeAll]
    split
    · refine ⟨[], ?_⟩
      rw [List.append_nil, afterFile_self hfile]
      exact h
    · rename_i hne
      simp only
      split
      · exact ⟨_, hwrite⟩
      · rename_i n hresult
        split
        · rename_i hn
          have hpos : 0 < bytes.length := List.length_pos_iff.mpr hne
          have hdevice : (file.write u.device bytes q admission).state.2 =
              u.device.absorb (bytes.take n) := by
            have hstate := u.device.state_write (.memory bytes) q admission
            have hcount : (u.device.write (.memory bytes) q admission).answer.result = .ok n :=
              hresult
            rw [hcount] at hstate
            exact hstate
          have hrest : ∀ k, ((u.afterFile index
              (file.write u.device bytes q admission)).device.absorb
                ((bytes.drop n).take k)).Fits := by
            intro k
            show ((file.write u.device bytes q admission).state.2.absorb _).Fits
            rw [hdevice, ← Device.absorb_append, ← List.take_add]
            exact hparts _
          obtain ⟨more, hmore⟩ := ih (bytes.drop n).length
            (by rw [List.length_drop]; omega) hwrite (file?_afterFile hfile _) hrest
            (file.write u.device bytes q admission).answer.quota rfl
          rw [List.append_assoc, afterFile_afterFile] at hmore
          exact ⟨_, hmore⟩
        · exact ⟨_, hwrite⟩

/-- **A loop makes calls**, and so goes on with a run, if the bytes that are live and those that
wait can be counted by a word whatever part of what it submits is taken. -/
theorem Works.loop (h : s.Works calls u) (hloop : request.isCall = false)
    (hserve : u.serve busy admission caller request = some (outcome, v))
    (hparts : ∀ n, (u.device.absorb (request.submits.take n)).Fits) :
    ∃ more, s.Works (calls ++ more) v := by
  have hf : u.Fits := hparts 0
  cases request with
  | onFile index call =>
    obtain ⟨file, hfile, he⟩ := Option.map_eq_some_iff.mp hserve
    cases he
    cases call with
    | readExactly size => exact h.readExactly hf hfile size admission
    | drain size => exact h.drainWithin hf hfile _ size admission
    | writeAll bytes q => exact h.writeAll hfile hparts q admission
    | _ => cases hloop
  | _ => cases hloop

end

/-! ### No mishap -/

/-- **No step fails but a search that overshoots.** A device that can be made at all, for whose
slots there is room, is run through any calls whatever, as long as the bytes that are live and
those that wait can be counted by a word, and no search overshoots. Then:

- the run comes to the same where each of its steps is checked, so that none of them fails, and
  the slot that is filled next is there;
- so does the next call, reply and state;
- but if this is a search for a byte of a live command so far on that its offset is no word,
  the sum overflows, and there is no reply;
- a loop over calls goes on with the run, by the calls it makes, if the bytes can be counted
  whatever part of what it submits is taken;
- a teardown comes to the same, whenever it comes, and so does another one after it. -/
theorem safe_of_works (hs : create config = .ok s) (h : s.Works calls s') :
    Checked.Session.start config =
      (if config.capacity < slotLimit then .ok s.plain else .error .noRoom) ∧
    (config.capacity < slotLimit →
      s.plain.run calls = .ok s'.plain ∧
      s'.plain.store.ring.writeIndex < s'.plain.store.ring.slots.size ∧
      (∀ (busy : Bool) (admission : Admission) (caller : Caller) (request : Request)
        (outcome : Outcome) (v : Session), request.isCall = true →
        s'.serve busy admission caller request = some (outcome, v) → v.Fits →
        (¬ s'.Overshoots admission request → ∃ reply,
          s'.plain.serve admission request = .ok (reply, v.plain) ∧ Replies reply outcome) ∧
        (s'.Overshoots admission request →
          s'.plain.serve admission request = .error (.overflow .addition) ∧
          outcome.overflow? = some .addition)) ∧
      (∀ (busy : Bool) (admission : Admission) (caller : Caller) (request : Request)
        (outcome : Outcome) (v : Session), request.isCall = false →
        s'.serve busy admission caller request = some (outcome, v) →
        (∀ n, (s'.device.absorb (request.submits.take n)).Fits) →
        ∃ more, s.Works (calls ++ more) v) ∧
      s'.plain.store.tearDown = .ok (s'.shutDown.1, s'.shutDown.2.plain.store) ∧
      s'.shutDown.2.plain.store.tearDown =
        .ok (s'.shutDown.2.shutDown.1, s'.shutDown.2.shutDown.2.plain.store)) := by
  refine ⟨start_plain hs, fun hroom => ?_⟩
  obtain ⟨hvalid, hd⟩ := device_of_create hs
  have hlaid : s.device.store.ring.Laid := by
    rw [hd]
    exact (Ring.capacity_start config.capacity hvalid).trans_lt hroom
  have hfits : s.Fits := fits_of_create hs
  have hlaid' := h.laid hlaid
  have hfits' := h.fits hfits
  refine ⟨run_plain hlaid hfits h, ?_, ?_, ?_, ?_, ?_⟩
  · show s'.device.store.ring.writeIndex < s'.device.store.ring.plain.slots.size
    rw [Ring.size_slots_plain]
    exact s'.device.store.ring.writeIndex_lt
  · intro busy admission caller request outcome v hcall hserve hv
    exact ⟨serve_plain hlaid' hfits' hv hcall hserve,
      serve_plain_of_overshoots hlaid' hfits' hserve⟩
  · intro busy admission caller request outcome v hloop hserve hparts
    exact h.loop hloop hserve hparts
  · exact Store.tearDown_plain hlaid' (Device.Fits.size_lt hfits')
  · have hempty : s'.shutDown.2.device.store.live = [] :=
      Ring.live_start _ s'.device.store.ring.capacity_pos
    refine Store.tearDown_plain ?_ ?_
    · exact (Ring.capacity_start _ s'.device.store.ring.capacity_pos).trans_lt hlaid'
    · rw [hempty]
      decide

/-- A ring of one command is given two and a byte more, and torn down. -/
theorem safe_of_works_of_one_eviction :
    let config : Config := ⟨1, 10, .retain⟩
    ∃ (s s' : Session) (calls : List (Admission × Request)), create config = .ok s ∧
      s.Works calls s' ∧ config.capacity < slotLimit ∧ s.plain.run calls = .ok s'.plain ∧
      s'.device.store.live = [⟨[99, 10], by decide⟩] ∧
      s'.plain.store.tearDown = .ok (⟨1, 2, 1⟩, s'.shutDown.2.plain.store) := by
  intro config
  let d := Device.start config (by decide)
  let s : Session := { resume d with log := [.made config] }
  let bytes : Bytes := [97, 98, 10, 99, 10, 100]
  let after := s.after (d.write (.memory bytes) .unlimited .granted)
  have hs : create config = .ok s := rfl
  have hc : (Source.memory bytes).chunk = some bytes := rfl
  have hdevice : after.device = d.absorb bytes :=
    (d.write_granted hc (by decide) (by decide) .unlimited).2.1
  have hfits : after.Fits := by
    show after.device.Fits
    rw [hdevice]
    decide
  have hworks : s.Works [(.granted, .write (.memory bytes) .unlimited)] after :=
    Works.write .refl _ _ hfits
  obtain ⟨hrun, -, -, -, hdown, -⟩ := (safe_of_works hs hworks).2 (by decide)
  have hreport : after.shutDown.1 = ⟨1, 2, 1⟩ := by
    rw [shutDown, hdevice]
    decide
  refine ⟨s, after, _, hs, hworks, by decide, hrun, ?_, hreport ▸ hdown⟩
  rw [hdevice]
  decide

/-- **A search for a byte that is not there can overflow** although the stream is short: the
second of two commands has no byte of this number, and asking for it is no step that can be
carried out. -/
theorem search_overflows_of_short_stream :
    let config : Config := ⟨3, 10, .discard⟩
    let within := wordLimit - 1
    ∃ (s s' v : Session) (calls : List (Admission × Request)) (outcome : Outcome),
      create config = .ok s ∧ s.Works calls s' ∧ config.capacity < slotLimit ∧
      s'.device.store.live = [⟨[97, 10], by decide⟩, ⟨[98, 10], by decide⟩] ∧
      s'.serve false .granted default (.commandOffset 1 within) = some (outcome, v) ∧ v.Fits ∧
      s'.plain.serve .granted (.commandOffset 1 within) = .error (.overflow .addition) := by
  intro config within
  let d := Device.start config (by decide)
  let s : Session := { resume d with log := [.made config] }
  let u := s.after (d.write (.memory [97, 10]) .unlimited .granted)
  let s' := u.after (u.device.write (.memory [98, 10]) .unlimited .granted)
  have hs : create config = .ok s := rfl
  have hdevice : u.device = d.absorb [97, 10] :=
    (d.write_granted (rfl : (Source.memory [97, 10]).chunk = some [97, 10]) (by decide)
      (by decide) .unlimited).2.1
  have hdevice' : s'.device = u.device.absorb [98, 10] := by
    have hdelimiter : u.device.store.delimiter = 10 := by
      rw [hdevice]
      decide
    have hconfig : u.device.config = config := by
      rw [hdevice]
      rfl
    have hstate := (u.device.write_granted
      (rfl : (Source.memory [98, 10]).chunk = some [98, 10]) (by decide) (by decide) .unlimited).2.1
    rw [hdelimiter, hconfig] at hstate
    exact hstate
  rw [hdevice] at hdevice'
  have hfits : u.Fits := by
    show u.device.Fits
    rw [hdevice]
    decide
  have hfits' : s'.Fits := by
    show s'.device.Fits
    rw [hdevice']
    decide
  have hworks : s.Works _ s' := Works.write (Works.write .refl _ _ hfits) _ _ hfits'
  have hlaid : s.device.store.ring.Laid := (by decide : 3 < slotLimit)
  have hover : s'.Overshoots .granted (.commandOffset 1 within) := by
    show s'.device.Overshoots _ _ _
    rw [hdevice']
    decide
  let v := s'.after (s'.device.commandOffset 1 within .granted)
  have hserve : s'.serve false .granted default (.commandOffset 1 within) =
      some (.reply (.bare (.ofResult (.ofWord .offset)
        (s'.device.commandOffset 1 within .granted).answer)), v) := rfl
  refine ⟨s, s', v, _, _, hs, hworks, by decide, ?_, hserve, hfits',
    (serve_plain_of_overshoots (hworks.laid hlaid) hfits' hserve hover).1⟩
  rw [hdevice']
  decide

end Session

end Spool
