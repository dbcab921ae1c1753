import Spool.Proofs.Eviction
import Spool.Proofs.Reading
import Mathlib.Data.List.Infix

/-!
# Readers of a stream that moves

A file keeps its position while the stream moves under it: what is evicted at the front takes
every later byte to a smaller offset. Seen from the first command that was ever completed,
nothing moves. There the byte at offset `p` of the stream is the byte at offset `E + p` of
all commands completed (`Session.completedBy`), if `E` bytes were evicted, and a read at `p` is
one at `E + p` (`Session.portion_of_runs`).

So what the reads of one file deliver can be told from these offsets. A file moves on by what
it is delivered, as long as nobody sends it elsewhere (`Session.place_of_runs`), and by the bytes
evicted meanwhile. No byte comes twice (`Session.reads_continue`); and where nothing was evicted
none is missing (`Session.delivered_of_runs`).
-/

namespace Spool

/-! ### A stream and what came before it -/

namespace Stream

variable {live : List Command} {index within offset : Nat} {c : Command}

theorem Stands.append_left (gone : List Command) (h : Stands live index within c offset) :
    Stands (gone ++ live) (gone.length + index) within c (size gone + offset) where
  command := by rw [List.getElem?_append_right (Nat.le_add_right _ _), Nat.add_sub_cancel_left,
    h.command]
  within_lt := h.within_lt
  offset_eq := by rw [List.take_length_add_append, size_append, h.offset_eq, Nat.add_assoc]

theorem size_le_of_append {gone commands : List Command} (h : gone ++ live = commands) :
    size live ≤ size commands := by
  rw [← h, size_append]
  omega

theorem room_append_left (gone live : List Command) (offset : Nat) :
    room (gone ++ live) (size gone + offset) = room live offset := by
  by_cases h : offset < size live
  · obtain ⟨index, within, c, hs⟩ := exists_stands h
    rw [(hs.append_left gone).room_eq, hs.room_eq]
  · have hend := Nat.le_of_not_lt h
    rw [room_eq_zero_iff.mpr hend, room_eq_zero_iff.mpr]
    rw [size_append]
    omega

/-- **A portion of a stream is one of the stream with commands in front**, further on. -/
theorem portion_append_left (gone live : List Command) (position count : Nat) :
    portion (gone ++ live) (size gone + position) count = portion live position count := by
  rw [portion, room_append_left, bytes_append, ← length_bytes, List.drop_length_add_append, portion]

end Stream

/-! ### What one read of a file delivers -/

/-- **A read of a file delivers the stream from its position on**, and moves it by as much. One
that fails delivers nothing. -/
theorem File.read_spec (f : File) (d : Device) (buffer : Bytes) (admission : Admission) :
    let e := f.read d buffer admission
    let got := e.answer.2.take (Answer.ofResult (.number ·) e.answer.1).count
    got <+: (Stream.bytes d.store.live).drop f.position ∧
      e.state.1.position = f.position + got.length := by
  intro e got
  cases admission with
  | refused b =>
    have hanswer : (d.read f.position (.memory buffer) buffer.length (.refused b)).answer = _ :=
      d.answer_read_refused f.position buffer.length rfl b
    have hgot : got = [] := by
      simp only [got, e, File.read, hanswer]
      rfl
    rw [hgot]
    constructor
    · exact List.nil_prefix
    · simp only [e, File.read, hanswer]
      rfl
  | granted =>
    obtain ⟨hanswer, hposition⟩ := f.read_granted d buffer
    have hgot : got = Stream.portion d.store.live f.position buffer.length := by
      simp only [got, e, hanswer]
      exact List.take_left
    rw [hgot]
    constructor
    · exact List.take_prefix _ _
    · exact hposition

theorem File.position_seek_nowhere (f : File) (d : Device) (admission : Admission) :
    (f.seek d (.current 0) admission).state.1.position = f.position := by
  show (f.settle d (moveBy f.position 0) _).state.1.position = f.position
  cases h : moveBy f.position 0 with
  | none => rfl
  | some target =>
    have hsum := (moveBy_eq_some_iff.mp h).1
    show target = f.position
    omega

/-! ### Where files are -/

/-- Whether a call moves its file by anything but one read. -/
def FileCall.isMove : FileCall → Bool
  | .seek _ | .seekToCommand .. | .rewind | .readExactly _ | .drain _ => true
  | _ => false

/-- Whether a request moves the file `index` by anything but one read. A loop over reads is not
one read either; what it does is told by the reads it makes. -/
def Request.moves (index : Nat) : Request → Bool
  | .onFile file call => file == index && call.isMove
  | _ => false

namespace Session

variable {config : Config} {s s' u v w x : Session} {busy : Bool} {admission : Admission}
  {caller : Caller} {request : Request} {outcome : Outcome}
  {trace past between : List (Request × Outcome)} {index : Nat}

/-- The bytes that a read of the file `index` has delivered. -/
def delivered (index : Nat) : Request × Outcome → Bytes
  | (.onFile file (.read _), .reply r) =>
    if file = index then (r.buffer.getD []).take r.answer.count else []
  | _ => []

/-- The position of the file `index`, if it is open. -/
def place (s : Session) (index : Nat) : Option Nat := (s.file? index).map File.position

theorem place_eq_of_files (h : s'.files[index]? = s.files[index]?) :
    s'.place index = s.place index := by
  rw [place, file?, h]
  rfl

@[simp] theorem place_setSignal (s : Session) (signal : Signal) (owner : Owner) (index : Nat) :
    (s.setSignal signal owner).place index = s.place index := by
  cases owner with
  | file i =>
    simp only [place, file?, setSignal, List.getElem?_modify]
    cases s.files[index]? with
    | none => rfl
    | some file =>
      by_cases h : i = index
      · cases file <;> simp [h]
      · cases file <;> simp [h]
  | name n => rfl
  | caller => rfl

theorem place_afterFile {ρ : Type} (s : Session) {file : Nat} (hfile : file < s.files.length)
    (e : Effect (File × Device) ρ) (index : Nat) :
    (s.afterFile file e).place index =
      if file = index then some e.state.1.position else s.place index := by
  simp only [place, file?, afterFile, List.getElem?_set]
  split <;> rfl

theorem lt_of_file? {file : File} (h : s.file? index = some file) : index < s.files.length := by
  by_contra hle
  rw [file?, List.getElem?_eq_none (Nat.le_of_not_lt hle)] at h
  cases h

theorem lt_of_place {p : Nat} (h : s.place index = some p) : index < s.files.length := by
  obtain ⟨f, hf, -⟩ := Option.map_eq_some_iff.mp h
  exact lt_of_file? hf

/-- A call that is no move takes its file on by what it was delivered. -/
theorem place_callFile (s : Session) (admission : Admission) {file : Nat} {f : File}
    (hf : s.file? file = some f) {call : FileCall} (hmove : call.isMove = false)
    (hs : (Request.onFile file call).isSingle = true) :
    let e := s.callFile admission file f call
    e.2.place file =
      some (f.position + (delivered file (.onFile file call, .reply e.1)).length) := by
  have hfile := lt_of_file? hf
  have hstay : s.place file = some f.position := by rw [place, hf, Option.map_some]
  cases call with
  | read size =>
    have hread := (f.read_spec s.device (List.replicate size filler) admission).2
    simp only [callFile, delivered, ↓reduceIte, Option.getD_some]
    rw [s.place_afterFile hfile, if_pos rfl, hread]
  | write bytes q => exact (s.place_afterFile hfile _ file).trans (if_pos rfl)
  | writeAll bytes q => cases hs
  | position =>
    have hnowhere := f.position_seek_nowhere s.device admission
    simp only [callFile]
    rw [s.place_afterFile hfile, if_pos rfl, hnowhere]
    rfl
  | tell | handle | describe | flush => exact hstay
  | seek | seekToCommand | readExactly | rewind | drain => cases hmove

theorem place_callFile_of_ne (s : Session) (admission : Admission) {file : Nat} {f : File}
    (hf : s.file? file = some f) (call : FileCall) (hne : file ≠ index) :
    (s.callFile admission file f call).2.place index = s.place index := by
  have hfile := lt_of_file? hf
  cases call with
  | tell | handle | describe | flush => rfl
  | read | write | writeAll | seek | seekToCommand | readExactly | rewind | position | drain =>
    exact (s.place_afterFile hfile _ index).trans (if_neg hne)

theorem delivered_of_ne {file : Nat} (hne : file ≠ index) (call : FileCall) (outcome : Outcome) :
    delivered index (.onFile file call, outcome) = [] := by
  cases call with
  | read size =>
    cases outcome with
    | reply r => exact if_neg hne
    | held => rfl
  | _ => rfl

theorem delivered_granted (s : Session) (index : Nat) (f : File) (size : Nat) :
    delivered index
        (.onFile index (.read size), .reply (s.callFile .granted index f (.read size)).1) =
      Stream.portion s.device.store.live f.position size := by
  have hread := (f.read_granted s.device (List.replicate size filler)).1
  rw [List.length_replicate] at hread
  simp only [delivered, callFile, hread, ↓reduceIte]
  exact List.take_left

theorem callFile_of_serve {file : Nat} {call : FileCall}
    (h : s.serve busy admission caller (.onFile file call) = some (outcome, s')) :
    ∃ f, s.file? file = some f ∧ outcome = .reply (s.callFile admission file f call).1 ∧
      s' = (s.callFile admission file f call).2 := by
  obtain ⟨f, hf, hcall⟩ := Option.map_eq_some_iff.mp h
  obtain ⟨hreply, hstate⟩ := Prod.mk.inj hcall
  exact ⟨f, hf, hreply.symm, hstate.symm⟩

theorem length_files_serve (h : s.serve busy admission caller request = some (outcome, s')) :
    s.files.length ≤ s'.files.length := by
  cases request with
  | write | read | logicalLength | pendingLength | liveCommands | commandOffset =>
    cases h
    exact Nat.le_refl _
  | config | describe | isRaised | describeSignal =>
    cases h
    exact Nat.le_refl _
  | raise | lower =>
    cases h
    cases s.ownerOf caller <;> simp [setSignal]
  | openFile =>
    cases h
    simp
  | release file =>
    obtain ⟨f, -, hf⟩ := Option.map_eq_some_iff.mp h
    cases hf
    simp
  | onFile file call =>
    obtain ⟨f, -, -, rfl⟩ := callFile_of_serve h
    cases call <;> simp [callFile, afterFile]
  | heldRead | meaningless => cases h

/-- **One call takes a file on by what it was delivered**, if it does not send the file
elsewhere. -/
theorem place_serve (hs : request.isSingle = true)
    (h : s.serve busy admission caller request = some (outcome, s'))
    (hmoves : request.moves index = false) (hlt : index < s.files.length) {q : Nat}
    (hq : s'.place index = some q) :
    ∃ p, s.place index = some p ∧ q = p + (delivered index (request, outcome)).length := by
  cases request with
  | write | read | logicalLength | pendingLength | liveCommands | commandOffset =>
    cases h
    exact ⟨q, hq, rfl⟩
  | config | describe | isRaised | describeSignal =>
    cases h
    exact ⟨q, hq, rfl⟩
  | raise | lower =>
    cases h
    rw [place_setSignal] at hq
    exact ⟨q, hq, rfl⟩
  | openFile =>
    cases h
    refine ⟨q, ?_, rfl⟩
    rw [← hq]
    refine (place_eq_of_files ?_).symm
    exact List.getElem?_append_left hlt
  | release file =>
    obtain ⟨f, -, hf⟩ := Option.map_eq_some_iff.mp h
    cases hf
    -- a file that was released has no position afterwards
    have hne : file ≠ index := by
      rintro rfl
      simp [place, file?, hlt] at hq
    refine ⟨q, ?_, rfl⟩
    rw [← hq]
    refine (place_eq_of_files ?_).symm
    exact List.getElem?_set_ne hne
  | onFile file call =>
    obtain ⟨f, hf, rfl, rfl⟩ := callFile_of_serve h
    by_cases heq : file = index
    · subst heq
      have hmove : call.isMove = false := by simpa [Request.moves] using hmoves
      rw [s.place_callFile admission hf hmove hs] at hq
      refine ⟨f.position, ?_, (Option.some.inj hq).symm⟩
      rw [place, hf, Option.map_some]
    · rw [s.place_callFile_of_ne admission hf call heq] at hq
      refine ⟨q, hq, ?_⟩
      rw [delivered_of_ne heq]
      rfl
  | heldRead | meaningless => cases h

/-! ### Runs -/

theorem Runs.trans {more : List (Request × Outcome)} (h : s.Runs trace u) (hmore : u.Runs more v) :
    s.Runs (trace ++ more) v := by
  induction hmore with
  | refl => rwa [List.append_nil]
  | serve busy admission caller _ hs hstep ih =>
    rw [← List.append_assoc]
    exact .serve busy admission caller ih hs hstep

theorem Runs.length_files (h : s.Runs trace s') : s.files.length ≤ s'.files.length := by
  induction h with
  | refl => exact Nat.le_refl _
  | serve _ _ _ _ _ hstep ih => exact ih.trans (length_files_serve hstep)

/-- **A run takes a file on by what its reads were delivered**, if nobody sends it elsewhere. -/
theorem place_of_runs (h : s.Runs trace s') (hstay : ∀ call ∈ trace, call.1.moves index = false)
    (hlt : index < s.files.length) {q : Nat} (hq : s'.place index = some q) :
    ∃ p, s.place index = some p ∧ q = p + (trace.flatMap (delivered index)).length := by
  induction h generalizing q with
  | refl => exact ⟨q, hq, rfl⟩
  | serve _ _ _ hrun hs hstep ih =>
    have hlast := hstay _ (List.mem_append_right _ (List.mem_singleton_self _))
    obtain ⟨p, hp, rfl⟩ := place_serve hs hstep hlast (hlt.trans_le hrun.length_files) hq
    obtain ⟨o, ho, rfl⟩ := ih (fun call hc => hstay call (List.mem_append_left _ hc)) hp
    refine ⟨o, ho, ?_⟩
    rw [List.flatMap_append, List.flatMap_singleton, List.length_append, Nat.add_assoc]

/-! ### Seen from the first command -/

theorem completedBy_mono (config : Config) (trace more : List (Request × Outcome)) :
    Stream.bytes (completedBy config trace) <+:
      Stream.bytes (completedBy config (trace ++ more)) := by
  rw [completedBy, completedBy, List.flatMap_append, completed_append, Stream.bytes_append]
  exact List.prefix_append _ _

theorem evictedBytes_le_of_runs (h : s.Runs trace s') :
    evictedBytes s.log ≤ evictedBytes s'.log := by
  have hbalance := accounts_of_runs h
  obtain ⟨-, hstore⟩ := store_of_runs h
  have hle : Stream.size s'.device.store.live ≤ Stream.size (s.device.store.live ++
      completed s.device.store.delimiter s.device.store.pending (trace.flatMap taken)) := by
    rw [hstore, Store.live_absorb]
    obtain ⟨gone, hgone⟩ := List.drop_suffix _ _
    exact Stream.size_le_of_append hgone
  rw [Stream.size_append] at hle
  rw [Accounts] at hbalance
  omega

/-- **The stream is what is left of all commands completed**, after the bytes evicted. -/
theorem drop_of_runs (hs : create config = .ok s) (h : s.Runs trace s') (position : Nat) :
    (Stream.bytes s'.device.store.live).drop position =
      (Stream.bytes (completedBy config trace)).drop (evictedBytes s'.log + position) := by
  obtain ⟨gone, hgone, hsize⟩ := completedBy_of_runs hs h
  rw [hgone, ← hsize, ← Stream.length_bytes, Stream.bytes_append, List.drop_length_add_append]

/-- **A read at a position is one of all commands completed**, further on by the bytes evicted. -/
theorem portion_of_runs (hs : create config = .ok s) (h : s.Runs trace s') (position count : Nat) :
    Stream.portion s'.device.store.live position count =
      Stream.portion (completedBy config trace) (evictedBytes s'.log + position) count := by
  obtain ⟨gone, hgone, hsize⟩ := completedBy_of_runs hs h
  rw [hgone, ← hsize, Stream.portion_append_left]

/-- What a file is delivered are the next bytes of the stream from its position on. -/
theorem delivered_front (h : s.serve busy admission caller request = some (outcome, s')) {p : Nat}
    (hp : s.place index = some p) :
    delivered index (request, outcome) <+: (Stream.bytes s.device.store.live).drop p := by
  cases request with
  | onFile file call =>
    by_cases heq : file = index
    · subst heq
      obtain ⟨f, hf, rfl, rfl⟩ := callFile_of_serve h
      cases call with
      | read size =>
        have hread := (f.read_spec s.device (List.replicate size filler) admission).1
        rw [place, hf] at hp
        cases hp
        simp only [callFile, delivered, ↓reduceIte, Option.getD_some]
        exact hread
      | _ => exact List.nil_prefix
    · rw [delivered_of_ne heq]
      exact List.nil_prefix
  | _ => exact List.nil_prefix

/-- The same, seen from the first command. -/
theorem delivered_serve (hs : create config = .ok s) (hpast : s.Runs past u)
    (h : u.serve busy admission caller request = some (outcome, v)) {p : Nat}
    (hp : u.place index = some p) :
    delivered index (request, outcome) <+:
      (Stream.bytes (completedBy config past)).drop (evictedBytes u.log + p) := by
  rw [← drop_of_runs hs hpast]
  exact delivered_front h hp

/-- **A read that succeeds has delivered bytes of one of all commands completed**, the one that
the position comes to behind those evicted. -/
theorem read_of_runs (hs : create config = .ok s) (h : s.Runs trace s') {position count n : Nat}
    {sink : Sink} (hn : (s'.device.read position sink count admission).answer.result = .ok n) :
    let after := (s'.device.read position sink count admission).answer
    let commands := completedBy config trace
    let start := evictedBytes s'.log + position
    let got := ((Stream.bytes commands).drop start).take n
    (n = 0 ↔ count = 0 ∨ (Stream.bytes commands).length ≤ start) ∧
      (start < (Stream.bytes commands).length → ∃ index within c,
        Stream.Stands commands index within c start ∧ n = min count (c.size - within)) ∧
      got.length = n ∧ after.sink.contents = got ++ sink.contents.drop n ∧
      after.position = position + n := by
  intro after commands start got
  obtain ⟨hlen, hposition, hcontents⟩ := Device.read_ok hn
  rw [portion_of_runs hs h] at hlen hcontents
  have hmin : n = min count (Stream.room commands start) := by rw [hlen, Stream.length_portion]
  have hgot : got = Stream.portion commands start count := by
    simp only [got, Stream.portion]
    rw [← hmin]
  rw [Stream.length_bytes]
  refine ⟨?_, ?_, ?_, ?_, hposition⟩
  · have hroom : Stream.room commands start = 0 ↔ Stream.size commands ≤ start :=
      Stream.room_eq_zero_iff
    omega
  · intro hlt
    obtain ⟨index, within, c, hstands⟩ := Stream.exists_stands hlt
    refine ⟨index, within, c, hstands, ?_⟩
    rw [hmin, hstands.room_eq]
  · rw [hgot, hlen]
  · rw [hgot]
    exact hcontents

/-- **The next read goes on where the last one stopped**, or further on by the bytes that were
evicted meanwhile. -/
theorem reads_continue (hs : create config = .ok s) (hpast : s.Runs past u) {p size size' : Nat}
    {r r' : Reply} {busy' : Bool} {admission' : Admission} {caller' : Caller}
    (hp : u.place index = some p)
    (hfirst : u.serve busy admission caller (.onFile index (.read size)) = some (.reply r, v))
    (hbetween : v.Runs between w) (hstay : ∀ call ∈ between, call.1.moves index = false)
    (hsecond : w.serve busy' admission' caller' (.onFile index (.read size')) =
      some (.reply r', x)) :
    let first := delivered index (.onFile index (.read size), .reply r)
    let meanwhile := between.flatMap (delivered index)
    let second := delivered index (.onFile index (.read size'), .reply r')
    let stream := Stream.bytes (completedBy config
      (past ++ [(.onFile index (.read size), .reply r)] ++ between))
    let start := evictedBytes u.log + p
    evictedBytes u.log ≤ evictedBytes w.log ∧ first <+: stream.drop start ∧
      second <+: stream.drop (start + first.length + meanwhile.length +
        (evictedBytes w.log - evictedBytes u.log)) := by
  intro first meanwhile second stream start
  let call : Request × Outcome := (.onFile index (.read size), .reply r)
  have hread : u.Runs [call] v := .serve busy admission caller .refl rfl hfirst
  have hrun : u.Runs ([call] ++ between) w := hread.trans hbetween
  have hw : s.Runs (past ++ [call] ++ between) w := (hpast.trans hread).trans hbetween
  have hle := evictedBytes_le_of_runs hrun
  refine ⟨hle, ?_, ?_⟩
  · have hlong : Stream.bytes (completedBy config past) <+: stream := by
      simp only [stream, List.append_assoc]
      exact completedBy_mono config past _
    exact (delivered_serve hs hpast hfirst hp).trans (hlong.drop _)
  · obtain ⟨g, hg, -, -⟩ := callFile_of_serve hsecond
    have hq : w.place index = some g.position := by rw [place, hg, Option.map_some]
    have hnever : ∀ c ∈ [call] ++ between, c.1.moves index = false := by
      intro c hc
      rcases List.mem_append.mp hc with hfirst | hlater
      · rw [List.mem_singleton.mp hfirst]
        simp [call, Request.moves, FileCall.isMove]
      · exact hstay c hlater
    -- both sides are what was evicted by now and where the file is now
    obtain ⟨o, ho, hsum⟩ := place_of_runs hrun hnever (lt_of_place hp) hq
    have hstart : start + first.length + meanwhile.length +
        (evictedBytes w.log - evictedBytes u.log) = evictedBytes w.log + g.position := by
      rw [List.flatMap_append, List.flatMap_singleton, List.length_append] at hsum
      simp only [start, first, meanwhile, call] at hsum ⊢
      cases hp.symm.trans ho
      omega
    rw [hstart]
    exact delivered_serve hs hw hsecond hq

theorem isPrefix_append_of_drop {α : Type} {l a b : List α} (ha : a <+: l)
    (hb : b <+: l.drop a.length) : a ++ b <+: l := by
  have hsplit : l = a ++ l.drop a.length := by
    conv_lhs => rw [← List.take_append_drop a.length l, ← List.prefix_iff_eq_take.mp ha]
  rw [hsplit]
  exact (List.prefix_append_right_inj a).mpr hb

/-- **Where nothing was evicted nothing is missing**: what a file has been delivered since it was
at the beginning of the stream are the first bytes that were ever completed. -/
theorem delivered_of_runs (hs : create config = .ok s) (hpast : s.Runs past u)
    (hrun : u.Runs trace w) (hzero : u.place index = some 0)
    (hstay : ∀ call ∈ trace, call.1.moves index = false) (hnone : evictedBytes w.log = 0) {p : Nat}
    (hp : w.place index = some p) :
    trace.flatMap (delivered index) <+: Stream.bytes (completedBy config (past ++ trace)) ∧
      (trace.flatMap (delivered index)).length = p := by
  have hlt := lt_of_place hzero
  induction hrun generalizing p with
  | refl =>
    cases hzero.symm.trans hp
    constructor
    · exact List.nil_prefix
    · rfl
  | @serve v w trace request outcome busy admission caller hrun hsingle hstep ih =>
    have hlast := hstay _ (List.mem_append_right _ (List.mem_singleton_self _))
    -- nothing evicted in the end is nothing evicted at any time, so the hypothesis goes down
    have hbefore : evictedBytes v.log = 0 := by
      have hle := evictedBytes_le_of_runs (.serve busy admission caller .refl hsingle hstep)
      omega
    obtain ⟨o, ho, rfl⟩ := place_serve hsingle hstep hlast (hlt.trans_le hrun.length_files) hp
    obtain ⟨hfront, hlen⟩ := ih (fun call hc => hstay call (List.mem_append_left _ hc)) hbefore ho
    have hnext := delivered_serve hs (hpast.trans hrun) hstep ho
    rw [hbefore, Nat.zero_add, ← hlen] at hnext
    rw [List.flatMap_append, List.flatMap_singleton, List.length_append, hlen, ← List.append_assoc]
    exact ⟨(isPrefix_append_of_drop hfront hnext).trans (completedBy_mono _ _ _), rfl⟩

/-! ### The whole -/

/-- **What readers get of a stream whose front is evicted**, in any run. Take all commands that
were completed so far; those at the front that were evicted are as many bytes as were logged,
and the others are live. A read that succeeds delivers the next bytes of these commands from its
position on, counted from the last byte evicted: none just if it asks for none or there are
none left, and else as many as it asks for or the command still has. Into memory that can hold
what it asks for it does succeed, and so an admitted read of a file always delivers.

So the next read of a file goes on where the one before stopped, further on by the bytes that
were delivered and evicted meanwhile, if nobody moves the file. And as long as nothing has been
evicted, a file that was at the beginning and was not moved has been delivered the stream up to
its position. -/
theorem reads_follow_stream (hs : create config = .ok s) (hpast : s.Runs past u) :
    let commands := completedBy config past
    let stream := Stream.bytes commands
    let evicted := evictedBytes u.log
    (∃ front, commands = front ++ u.device.store.live ∧ Stream.size front = evicted) ∧
    (∀ (position count n : Nat) (sink : Sink) (admission : Admission),
      let after := (u.device.read position sink count admission).answer
      let got := (stream.drop (evicted + position)).take n
      after.result = .ok n →
        (n = 0 ↔ count = 0 ∨ stream.length ≤ evicted + position) ∧
        (evicted + position < stream.length → ∃ index within c,
          Stream.Stands commands index within c (evicted + position) ∧
            n = min count (c.size - within)) ∧
        got.length = n ∧ after.sink.contents = got ++ sink.contents.drop n ∧
        after.position = position + n) ∧
    (∀ (position count : Nat) (buffer : Bytes), count ≤ buffer.length →
      ∃ n, (u.device.read position (.memory buffer) count .granted).answer.result = .ok n) ∧
    (∀ (index size : Nat) (f : File),
      delivered index
          (.onFile index (.read size), .reply (u.callFile .granted index f (.read size)).1) =
        Stream.portion commands (evicted + f.position) size) ∧
    (∀ (index p size size' : Nat) (r r' : Reply) (v w x : Session)
      (between : List (Request × Outcome)) (busy busy' : Bool) (admission admission' : Admission)
      (caller caller' : Caller),
      u.place index = some p →
      u.serve busy admission caller (.onFile index (.read size)) = some (.reply r, v) →
      v.Runs between w → (∀ call ∈ between, call.1.moves index = false) →
      w.serve busy' admission' caller' (.onFile index (.read size')) = some (.reply r', x) →
        let first := delivered index (.onFile index (.read size), .reply r)
        let meanwhile := between.flatMap (delivered index)
        let second := delivered index (.onFile index (.read size'), .reply r')
        let later := Stream.bytes (completedBy config
          (past ++ [(.onFile index (.read size), .reply r)] ++ between))
        evicted ≤ evictedBytes w.log ∧ first <+: later.drop (evicted + p) ∧
          second <+: later.drop (evicted + p + first.length + meanwhile.length +
            (evictedBytes w.log - evicted))) ∧
    ∀ (index p : Nat) (w : Session) (trace : List (Request × Outcome)),
      u.Runs trace w → u.place index = some 0 → (∀ call ∈ trace, call.1.moves index = false) →
      evictedBytes w.log = 0 → w.place index = some p →
        (trace.flatMap (delivered index)).length = p ∧
          trace.flatMap (delivered index) = (Stream.bytes w.device.store.live).take p := by
  intro commands stream evicted
  refine ⟨completedBy_of_runs hs hpast, ?_, ?_, ?_, ?_, ?_⟩
  · intro position count n sink admission after got hn
    exact read_of_runs hs hpast hn
  · intro position count buffer hle
    have hread := u.device.answer_read_memory position count buffer
    have hlen := Stream.length_portion u.device.store.live position count
    rw [hread, if_pos (by omega)]
    exact ⟨_, rfl⟩
  · intro index size f
    rw [u.delivered_granted index f size]
    exact portion_of_runs hs hpast f.position size
  · intro index p size size' r r' v w x between busy busy' admission admission' caller caller'
      hp hfirst hbetween hstay hsecond
    exact reads_continue hs hpast hp hfirst hbetween hstay hsecond
  · intro index p w trace hrun hzero hstay hnone hp
    obtain ⟨hfront, hlen⟩ := delivered_of_runs hs hpast hrun hzero hstay hnone hp
    have hlive := drop_of_runs hs (hpast.trans hrun) 0
    rw [hnone] at hlive
    have hall : Stream.bytes w.device.store.live =
        Stream.bytes (completedBy config (past ++ trace)) := hlive
    refine ⟨hlen, ?_⟩
    rw [hall, ← hlen]
    exact List.prefix_iff_eq_take.mp hfront

/-- A file is read twice, two bytes each time, and between the reads a command of four bytes
takes the place of one of three. The second read starts at the third byte of the stream again, which
is the sixth of all bytes completed. -/
theorem reads_follow_stream_of_one_eviction :
    let config : Config := ⟨1, 10, .discard⟩
    let read : Request := .onFile 0 (.read 2)
    ∃ s u v w x past between r r', create config = .ok s ∧ s.Runs past u ∧ u.place 0 = some 0 ∧
      u.serve false .granted default read = some (.reply r, v) ∧ v.Runs between w ∧
      w.serve false .granted default read = some (.reply r', x) ∧
      evictedBytes u.log = 0 ∧ evictedBytes w.log = 3 ∧
      delivered 0 (read, .reply r) = [97, 98] ∧ delivered 0 (read, .reply r') = [101, 10] := by
  intro config read
  let d := Device.start config (by decide)
  let s : Session := { resume d with log := [.made config] }
  let old : Bytes := [97, 98, 10]
  let new : Bytes := [99, 100, 101, 10]
  have hs : create config = .ok s := rfl
  have hold : (s.device.write (.memory old) .unlimited .granted).answer.result = .ok 3 :=
    (d.write_granted (Source.chunk_memory old) (by decide) (by decide) .unlimited).1
  let t := s.after (s.device.write (.memory old) .unlimited .granted)
  have hstate : t.device = d.absorb old :=
    (d.write_granted (Source.chunk_memory old) (by decide) (by decide) .unlimited).2.1
  let opened := File.openOn t.device
  let u : Session := { t.after opened with files := [some opened.answer] }
  have hpast : s.Runs (_ ++ [(.openFile, _)]) u :=
    .serve false .granted default (Runs.refl.write hold) rfl rfl
  let e := u.callFile .granted 0 opened.answer (.read 2)
  have hfirst : u.serve false .granted default read = some (.reply e.1, e.2) := rfl
  have hread := hpast.trans (.serve false .granted default .refl rfl hfirst)
  have hdevice : e.2.device = (File.openOn (d.absorb old)).state := by
    refine (opened.answer.state_read _ _ _).trans ?_
    exact congrArg (fun d => (File.openOn d).state) hstate
  have hnew : (e.2.device.write (.memory new) .unlimited .granted).answer.result = .ok 4 := by
    rw [hdevice]
    exact ((File.openOn (d.absorb old)).state.write_granted (Source.chunk_memory new) (by decide)
      (by decide) .unlimited).1
  have hbetween := Runs.refl.write hnew
  have hlast := hread.trans hbetween
  let w := e.2.after (e.2.device.write (.memory new) .unlimited .granted)
  let f := (opened.answer.read u.device (List.replicate 2 filler) .granted).state.1
  let e' := w.callFile .granted 0 f (.read 2)
  have hsecond : w.serve false .granted default read = some (.reply e'.1, e'.2) := rfl
  obtain ⟨-, -, -, -, htwo, -⟩ := reads_follow_stream hs hpast
  obtain ⟨-, -, hnext⟩ := htwo 0 0 2 2 e.1 e'.1 e.2 w e'.2 _ false false .granted .granted default
    default rfl hfirst hbetween (fun call hc => by rw [List.mem_singleton.mp hc]; rfl) hsecond
  have hu : evictedBytes u.log = 0 := evictedBytes_eq_sub hs hpast
  have hw : evictedBytes w.log = 3 := evictedBytes_eq_sub hs hlast
  have hgot : delivered 0 (read, .reply e.1) = [97, 98] := by
    obtain ⟨c, hc, hbytes⟩ := List.map_eq_singleton_iff.mp (live_of_runs hs hpast)
    have hstands : Stream.Stands u.device.store.live 0 0 c 0 := by
      rw [hc]
      exact ⟨rfl, c.size_pos, rfl⟩
    refine (u.delivered_granted 0 opened.answer 2).trans ((hstands.portion_eq 2).trans ?_)
    rw [hbytes]
    rfl
  have hposition : f.position = 2 := by
    obtain ⟨g, hg, hsum⟩ := place_serve rfl hfirst rfl (Nat.zero_lt_one) rfl
    cases hg
    rw [hgot] at hsum
    exact hsum
  have hlength : (delivered 0 (read, .reply e'.1)).length = 2 := by
    obtain ⟨c, hc, hbytes⟩ := List.map_eq_singleton_iff.mp (live_of_runs hs hlast)
    have hsize : c.size = 4 := congrArg List.length hbytes
    have hstands : Stream.Stands w.device.store.live 0 2 c 2 := by
      rw [hc]
      exact ⟨rfl, by omega, rfl⟩
    have hall : delivered 0 (read, .reply e'.1) = _ := w.delivered_granted 0 f 2
    rw [hall, hposition, Stream.length_portion, hstands.room_eq, hsize]
    rfl
  rw [hu, hw, hgot] at hnext
  exact ⟨s, u, e.2, w, e'.2, _, _, e.1, e'.1, hs, hpast, rfl, hfirst, hbetween, hsecond, hu, hw,
    hgot, List.IsPrefix.eq_of_length hnext hlength⟩

/-- A read that asks for no bytes is delivered none, though there are bytes left. -/
theorem read_of_no_bytes_before_end :
    let config : Config := ⟨1, 10, .discard⟩
    ∃ s u past, create config = .ok s ∧ s.Runs past u ∧
      (u.device.read 0 (.memory [170, 170, 170]) 0 .granted).answer.result = .ok 0 ∧
      ¬ (Stream.bytes (completedBy config past)).length ≤ evictedBytes u.log + 0 := by
  intro config
  let d := Device.start config (by decide)
  let s : Session := { resume d with log := [.made config] }
  let bytes : Bytes := [97, 98, 10]
  have hs : create config = .ok s := rfl
  have hw : (s.device.write (.memory bytes) .unlimited .granted).answer.result = .ok 3 :=
    (d.write_granted (Source.chunk_memory bytes) (by decide) (by decide) .unlimited).1
  have hpast := Runs.refl.write hw
  refine ⟨s, _, _, hs, hpast, ?_, ?_⟩
  · have hlen := Stream.length_portion
      (s.after (s.device.write (.memory bytes) .unlimited .granted)).device.store.live 0 0
    rw [Nat.zero_min] at hlen
    rw [Device.answer_read_memory, hlen]
    rfl
  · rw [evictedBytes_eq_sub hs hpast, Stream.length_bytes]
    decide

end Session

end Spool
