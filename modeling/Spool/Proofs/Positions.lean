import Spool.Proofs.Checked.Session
import Spool.Proofs.Following

/-!
# Positions of files

A file starts at the beginning of the stream, and three things move it: a read by what it
delivers, a move to where it was sent, and a search to the byte that it found. What has come of
these calls, in the order in which they came, gives the position, whatever else has been done with
the device and with other files (`Session.place_eq_foldl`). A loop over reads, which does not
answer how far it came, is spelt out as the reads it makes (`Session.exists_spells`).

Positions are words, and the sums they come from are those of integers. A move by a distance goes
exactly there if that is a word, and otherwise the file stays where it is (`Session.Arrives`). A
read cannot go too far: what it delivers is in the stream, so it ends there at the latest, and the
file can be moved back by as much. Where nothing has been evicted meanwhile, the same bytes are
found there again (`Session.Exact`).
-/

namespace Spool

/-! ### Single calls on files -/

/-- A distance is moved exactly, or not at all. -/
theorem moveBy_eq (base : Nat) (delta : Int) :
    moveBy base delta =
      if 0 ≤ base + delta ∧ base + delta < wordLimit then some (base + delta).toNat else none := by
  split
  · rename_i h
    rw [moveBy_eq_some_iff]
    omega
  · rename_i h
    cases hmove : moveBy base delta with
    | none => rfl
    | some target =>
      obtain ⟨hsum, hlt⟩ := moveBy_eq_some_iff.mp hmove
      exact absurd ⟨by omega, by omega⟩ h

/-- A read moves a file by the number it answers; one that fails leaves it where it is. -/
theorem File.position_read (f : File) (d : Device) (buffer : Bytes) (admission : Admission) :
    (f.read d buffer admission).state.1.position =
      f.position + (f.read d buffer admission).answer.1.toOption.getD 0 := by
  cases admission with
  | granted =>
    obtain ⟨hanswer, hposition⟩ := f.read_granted d buffer
    rw [hanswer, hposition]
    rfl
  | refused b =>
    have hanswer : (d.read f.position (.memory buffer) buffer.length (.refused b)).answer = _ :=
      d.answer_read_refused f.position buffer.length rfl b
    simp only [File.read, hanswer]
    rfl

theorem Stream.Stands.append_right {commands : List Command} {index within offset : Nat}
    {c : Command} (h : Stands commands index within c offset) (more : List Command) :
    Stands (commands ++ more) index within c offset := by
  have hlt : index < commands.length := (List.getElem?_eq_some_iff.mp h.command).1
  exact ⟨by rw [List.getElem?_append_left hlt, h.command], h.within_lt,
    by rw [List.take_append_of_le_length hlt.le, h.offset_eq]⟩

/-- **What was delivered once is delivered again** to who asks for as much, also when the stream
has grown. -/
theorem Stream.portion_append_right (commands more : List Command) (position count : Nat) :
    portion (commands ++ more) position (portion commands position count).length =
      portion commands position count := by
  by_cases h : position < size commands
  · obtain ⟨index, within, c, hs⟩ := exists_stands h
    rw [(hs.append_right more).portion_eq, hs.portion_eq, List.length_take, ← List.take_take,
      List.take_length]
  · rw [portion_of_size_le (Nat.le_of_not_lt h), List.length_nil, portion, Nat.zero_min,
      List.take_zero]

/-- A search that overflows moves nothing. -/
theorem File.state_of_overflow {f : File} {d : Device} {index within : Nat}
    {admission : Admission} {o : Overflow}
    (h : (f.seekToCommand d index within admission).answer = .error o) :
    (f.seekToCommand d index within admission).state.1 = f := by
  rw [seekToCommand] at h ⊢
  cases hc : (d.commandOffset index within admission).answer with
  | error fault => rfl
  | ok found =>
    cases found with
    | error o => rfl
    | ok target =>
      rw [hc] at h
      cases h

/-- Where a call takes its file from `position`, given the answer. -/
def FileCall.target (position : Nat) : FileCall → Answer → Nat
  | .read _, .number n => position + n.toNat
  | .seek _, .number n | .seekToCommand .., .number n | .position, .number n => n.toNat
  | .rewind, .done => 0
  | _, _ => position

/-- Whether a request is a loop over reads of the file `index`. -/
def Request.loops (index : Nat) : Request → Bool
  | .onFile file (.readExactly _) | .onFile file (.drain _) => file == index
  | _ => false

namespace Session

variable {config : Config} {s s' u v w : Session} {busy : Bool} {admission : Admission}
  {caller : Caller} {request : Request} {outcome : Outcome}
  {trace past : List (Request × Outcome)} {index p q : Nat}

/-- Where a call takes the file `index` from `position`, given what came of it. -/
def goes (index position : Nat) : Request × Outcome → Nat
  | (.onFile file call, .reply r) =>
    if file = index then call.target position r.answer else position
  | _ => position

/-- **A call takes its file where the answer says**, unless it is a loop. -/
theorem place_callFile_eq_target (s : Session) (admission : Admission) {f : File}
    (hf : s.file? index = some f) {call : FileCall}
    (hloop : (Request.onFile index call).loops index = false)
    (hs : (Request.onFile index call).isSingle = true) :
    let e := s.callFile admission index f call
    e.2.place index = some (call.target f.position e.1.answer) := by
  have hfile := lt_of_file? hf
  have hstay : s.place index = some f.position := by rw [place, hf, Option.map_some]
  cases call with
  | read size =>
    have hread := f.position_read s.device (List.replicate size filler) admission
    simp only [callFile]
    rw [s.place_afterFile hfile, if_pos rfl, hread]
    cases (f.read s.device (List.replicate size filler) admission).answer.1 <;> rfl
  | seek target =>
    have hseek := f.position_seek s.device target admission
    simp only [callFile]
    rw [s.place_afterFile hfile, if_pos rfl, hseek]
    cases (f.seek s.device target admission).answer <;> rfl
  | position =>
    have hseek := f.position_seek s.device (.current 0) admission
    simp only [callFile]
    rw [s.place_afterFile hfile, if_pos rfl, hseek]
    cases (f.seek s.device (.current 0) admission).answer <;> rfl
  | seekToCommand i within =>
    simp only [callFile]
    rw [s.place_afterFile hfile, if_pos rfl]
    cases hanswer : (f.seekToCommand s.device i within admission).answer with
    | error o =>
      rw [File.state_of_overflow hanswer]
      rfl
    | ok result =>
      rw [File.position_seekToCommand hanswer]
      cases result <;> rfl
  | write bytes q => exact (s.place_afterFile hfile _ index).trans (if_pos rfl)
  | rewind => exact (s.place_afterFile hfile _ index).trans (if_pos rfl)
  | tell | handle | describe | flush => exact hstay
  | writeAll => cases hs
  | readExactly | drain => simp [Request.loops] at hloop

theorem goes_of_ne {file : Nat} (hne : file ≠ index) (call : FileCall) (outcome : Outcome)
    (position : Nat) : goes index position (.onFile file call, outcome) = position := by
  cases outcome with
  | reply r => exact if_neg hne
  | held => rfl

/-- **One call takes a file where its answer says.** -/
theorem place_serve_eq_goes (hs : request.isSingle = true) (hloop : request.loops index = false)
    (h : s.serve busy admission caller request = some (outcome, s'))
    (hlt : index < s.files.length) (hq : s'.place index = some q) :
    ∃ p, s.place index = some p ∧ q = goes index p (request, outcome) := by
  cases request with
  | onFile file call =>
    by_cases heq : file = index
    · subst heq
      obtain ⟨f, hf, rfl, rfl⟩ := callFile_of_serve h
      rw [s.place_callFile_eq_target admission hf hloop hs] at hq
      refine ⟨f.position, by rw [place, hf, Option.map_some], ?_⟩
      rw [goes, if_pos rfl]
      exact (Option.some.inj hq).symm
    · have hmoves : (Request.onFile file call).moves index = false := by
        simp [Request.moves, heq]
      obtain ⟨p, hp, hsum⟩ := place_serve hs h hmoves hlt hq
      rw [delivered_of_ne heq] at hsum
      exact ⟨p, hp, by rw [goes_of_ne heq, hsum]; rfl⟩
  | _ =>
    obtain ⟨p, hp, hsum⟩ := place_serve hs h rfl hlt hq
    exact ⟨p, hp, hsum⟩

/-- **A run takes a file where its answers say**, one after another. -/
theorem place_eq_foldl (h : s.Runs trace s')
    (hloops : ∀ call ∈ trace, call.1.loops index = false) (hlt : index < s.files.length)
    (hq : s'.place index = some q) :
    ∃ p, s.place index = some p ∧ q = trace.foldl (goes index) p := by
  induction h generalizing q with
  | refl => exact ⟨q, hq, rfl⟩
  | serve _ _ _ hrun hs hstep ih =>
    have hlast := hloops _ (List.mem_append_right _ (List.mem_singleton_self _))
    obtain ⟨o, ho, rfl⟩ := place_serve_eq_goes hs hlast hstep (hlt.trans_le hrun.length_files) hq
    obtain ⟨p, hp, rfl⟩ := ih (fun call hc => hloops call (List.mem_append_left _ hc)) ho
    exact ⟨p, hp, by rw [List.foldl_append]; rfl⟩

theorem place_openFile (h : s.serve busy admission caller .openFile = some (outcome, s')) :
    s'.place s.files.length = some 0 := by
  cases h
  simp [place, file?, File.openOn]

/-! ### Loops over reads -/

/-- A read of the file `index`, to which there was a reply. -/
def IsRead (index : Nat) (call : Request × Outcome) : Prop :=
  ∃ size r, call = (.onFile index (.read size), .reply r)

/-- The second trace is the first one with the reads of the file `index` that a loop makes in the
place of the loop. -/
inductive Spells (index : Nat) : List (Request × Outcome) → List (Request × Outcome) → Prop where
  /-- Nothing is spelt out. -/
  | nil : Spells index [] []
  /-- What is no loop stays. -/
  | call {trace calls : List (Request × Outcome)} {call : Request × Outcome} :
    Spells index trace calls → call.1.loops index = false →
    Spells index (trace ++ [call]) (calls ++ [call])
  /-- A loop is the reads it makes. -/
  | loop {trace calls reads : List (Request × Outcome)} {call : Request × Outcome} :
    Spells index trace calls → call.1.loops index = true →
    (∀ read ∈ reads, IsRead index read) →
    Spells index (trace ++ [call]) (calls ++ reads)

theorem Spells.loops_eq_false {calls : List (Request × Outcome)} (h : Spells index trace calls) :
    ∀ call ∈ calls, call.1.loops index = false := by
  induction h with
  | nil => exact List.forall_mem_nil _
  | call _ hcall ih => exact List.forall_mem_append.mpr ⟨ih, List.forall_mem_singleton.mpr hcall⟩
  | loop _ _ hreads ih =>
    refine List.forall_mem_append.mpr ⟨ih, fun read hread => ?_⟩
    obtain ⟨size, r, rfl⟩ := hreads read hread
    rfl

/-- A run that goes on to `v` by reads of the file `index`. -/
def ReadsTo (s : Session) (trace : List (Request × Outcome)) (index : Nat) (v : Session) : Prop :=
  ∃ reads, (∀ read ∈ reads, IsRead index read) ∧ s.Runs (trace ++ reads) v

theorem ReadsTo.refl (h : s.Runs trace u) : s.ReadsTo trace index u :=
  ⟨[], List.forall_mem_nil _, by rwa [List.append_nil]⟩

theorem Runs.readFile (h : s.Runs trace u) {f : File} (hf : u.file? index = some f) (size : Nat)
    (admission : Admission) :
    ∃ r, s.Runs (trace ++ [(.onFile index (.read size), .reply r)])
      (u.afterFile index (f.read u.device (List.replicate size filler) admission)) := by
  have hserve : u.serve false admission default (.onFile index (.read size)) =
      some (.reply (u.callFile admission index f (.read size)).1,
        (u.callFile admission index f (.read size)).2) := by
    rw [Session.serve, hf]
    rfl
  exact ⟨_, .serve false admission default h rfl hserve⟩

theorem ReadsTo.readFile (h : s.Runs trace u) {f : File} (hf : u.file? index = some f)
    (size : Nat) (admission : Admission) :
    s.ReadsTo trace index
      (u.afterFile index (f.read u.device (List.replicate size filler) admission)) := by
  obtain ⟨r, hread⟩ := h.readFile hf size admission
  exact ⟨_, List.forall_mem_singleton.mpr ⟨size, r, rfl⟩, hread⟩

theorem ReadsTo.cons {size : Nat} {r : Reply}
    (h : s.ReadsTo (trace ++ [(.onFile index (.read size), .reply r)]) index v) :
    s.ReadsTo trace index v := by
  obtain ⟨reads, hreads, hrun⟩ := h
  exact ⟨_, List.forall_mem_cons.mpr ⟨⟨size, r, rfl⟩, hreads⟩, by simpa using hrun⟩

/-- To fill a buffer is to read until it is full. -/
theorem Runs.readExactly (h : s.Runs trace u) {f : File} (hf : u.file? index = some f)
    (size : Nat) (admission : Admission) :
    s.ReadsTo trace index
      (u.afterFile index (f.readExactly u.device (List.replicate size filler) admission)) := by
  induction size using Nat.strong_induction_on generalizing trace u f with
  | _ size ih =>
    have hone := ReadsTo.readFile h hf size admission
    rw [File.readExactly]
    split
    · rw [afterFile_self hf]
      exact .refl h
    · rename_i hne
      simp only
      split
      · exact hone
      · rename_i n hresult
        split
        · rename_i hn
          have hsize : 0 < size := Nat.pos_of_ne_zero fun h0 => hne (by rw [h0]; rfl)
          obtain ⟨r, hread⟩ := h.readFile hf size admission
          have hmore := ih (size - n) (by omega) hread (file?_afterFile hf _)
          rw [afterFile_afterFile] at hmore
          rw [List.drop_replicate]
          exact hmore.cons
        · exact hone

/-- To read to the end is to read until there is nothing. -/
theorem Runs.drainWithin (h : s.Runs trace u) {f : File} (hf : u.file? index = some f)
    (reads size : Nat) (admission : Admission) :
    s.ReadsTo trace index
      (u.afterFile index (f.drainWithin reads u.device size admission)) := by
  induction reads generalizing trace u f with
  | zero =>
    rw [File.drainWithin, afterFile_self hf]
    exact .refl h
  | succ reads ih =>
    have hone := ReadsTo.readFile h hf size admission
    rw [File.drainWithin]
    simp only
    split
    · exact hone
    · split
      · exact hone
      · obtain ⟨r, hread⟩ := h.readFile hf size admission
        have hmore := ih hread (file?_afterFile hf _)
        rw [afterFile_afterFile] at hmore
        exact hmore.cons

/-- **A loop is the reads it makes**, to which the run comes as well. -/
theorem Runs.loop (h : s.Runs trace u) (hloop : request.loops index = true)
    (hserve : u.serve busy admission caller request = some (outcome, v)) :
    s.ReadsTo trace index v := by
  cases request with
  | onFile file call =>
    obtain ⟨f, hf, he⟩ := Option.map_eq_some_iff.mp hserve
    cases he
    cases call with
    | readExactly size =>
      obtain rfl := eq_of_beq hloop
      exact h.readExactly hf size admission
    | drain size =>
      obtain rfl := eq_of_beq hloop
      exact h.drainWithin hf _ size admission
    | _ => cases hloop
  | _ => cases hloop

/-- **Every run is one without loops**, too. -/
theorem exists_spells (h : s.Runs trace s') (index : Nat) :
    ∃ calls, Spells index trace calls ∧ s.Runs calls s' := by
  induction h with
  | refl => exact ⟨[], .nil, .refl⟩
  | @serve u v trace request outcome busy admission caller _ hs hstep ih =>
    obtain ⟨calls, hspells, hrun⟩ := ih
    cases hloop : request.loops index with
    | false => exact ⟨_, hspells.call hloop, hrun.serve busy admission caller hs hstep⟩
    | true =>
      obtain ⟨reads, hreads, hmore⟩ := hrun.loop hloop hstep
      exact ⟨_, hspells.loop hloop hreads, hmore⟩

/-- **The positions of a run**, loops spelt out. -/
theorem exists_place_eq_foldl (h : s.Runs trace s') (hp : s.place index = some p)
    (hq : s'.place index = some q) :
    ∃ calls, Spells index trace calls ∧ s.Runs calls s' ∧ q = calls.foldl (goes index) p := by
  obtain ⟨calls, hspells, hrun⟩ := exists_spells h index
  obtain ⟨p', hp', hfold⟩ := place_eq_foldl hrun hspells.loops_eq_false (lt_of_place hp) hq
  rw [hp] at hp'
  cases hp'
  exact ⟨calls, hspells, hrun, hfold⟩

/-! ### Moves -/

/-- What comes of a move of the file `index`, which was at `position`, by `delta` away from `base`:
it goes exactly there if that is a word, and otherwise the move fails and the file stays. -/
def Arrives (s' : Session) (index : Nat) (answer : Answer) (base : Nat) (delta : Int)
    (position : Nat) : Prop :=
  if 0 ≤ base + delta ∧ base + delta < wordLimit then
    answer = .number (base + delta) ∧ s'.place index = some (base + delta).toNat
  else answer = .fault .invalidArgument ∧ s'.place index = some position

theorem exists_reply (hp : s.place index = some p) :
    ∃ f, s.file? index = some f ∧ f.position = p ∧ ∀ busy admission caller call,
      let e := s.callFile admission index f call
      s.serve busy admission caller (.onFile index call) = some (.reply e.1, e.2) := by
  obtain ⟨f, hf, hposition⟩ := Option.map_eq_some_iff.mp hp
  refine ⟨f, hf, hposition, fun busy admission caller call => ?_⟩
  rw [serve, hf]
  rfl

theorem arrives_of_answer {f : File} (hf : s.file? index = some f) {target : Target} {base : Nat}
    {delta : Int}
    (h : (f.seek s.device target admission).answer = Checked.settle (moveBy base delta)) :
    let e := s.callFile admission index f (.seek target)
    e.2.Arrives index e.1.answer base delta f.position := by
  have hposition := f.position_seek s.device target admission
  simp only [callFile, Arrives]
  rw [s.place_afterFile (lt_of_file? hf), if_pos rfl, hposition, h, moveBy_eq]
  split
  · rename_i hword
    have hsum : ((base + delta).toNat : Int) = base + delta := Int.toNat_of_nonneg hword.1
    exact ⟨congrArg Answer.number hsum, rfl⟩
  · exact ⟨rfl, rfl⟩

/-- **A move from the present position is exact.** -/
theorem seek_current (hp : s.place index = some p) (delta : Int) (busy : Bool)
    (admission : Admission) (caller : Caller) :
    ∃ r s', s.serve busy admission caller (.onFile index (.seek (.current delta))) =
        some (.reply r, s') ∧ s'.Arrives index r.answer p delta p := by
  obtain ⟨f, hf, rfl, hserve⟩ := exists_reply hp
  exact ⟨_, _, hserve .., arrives_of_answer hf (f.answer_settle s.device _ _)⟩

/-- **A move from the end of the stream is exact**, unless it is turned away. -/
theorem seek_fromEnd (hp : s.place index = some p) (delta : Int) (busy : Bool) (caller : Caller) :
    (∃ r s', s.serve busy .granted caller (.onFile index (.seek (.fromEnd delta))) =
        some (.reply r, s') ∧
      s'.Arrives index r.answer (Stream.size s.device.store.live) delta p) ∧
    ∀ raised, ∃ r s', s.serve busy (.refused raised) caller
        (.onFile index (.seek (.fromEnd delta))) = some (.reply r, s') ∧
      r.answer = .fault .interrupted ∧ s'.place index = some p := by
  obtain ⟨f, hf, rfl, hserve⟩ := exists_reply hp
  constructor
  · refine ⟨_, _, hserve .., arrives_of_answer hf ?_⟩
    exact f.answer_settle s.device (moveBy (Stream.size s.device.store.live) delta) _
  · intro raised
    exact ⟨_, _, hserve .., rfl, (s.place_afterFile (lt_of_file? hf) _ index).trans (if_pos rfl)⟩

theorem seek_start (hp : s.place index = some p) (offset : Nat) (busy : Bool)
    (admission : Admission) (caller : Caller) :
    ∃ r s', s.serve busy admission caller (.onFile index (.seek (.start offset))) =
        some (.reply r, s') ∧ r.answer = .number offset ∧ s'.place index = some offset := by
  obtain ⟨f, hf, -, hserve⟩ := exists_reply hp
  exact ⟨_, _, hserve .., rfl, (s.place_afterFile (lt_of_file? hf) _ index).trans (if_pos rfl)⟩

/-! ### Reads -/

theorem read_admitted (hp : s.place index = some p) (size : Nat) (busy : Bool) (caller : Caller) :
    let data := Stream.portion s.device.store.live p size
    ∃ r s', s.serve busy .granted caller (.onFile index (.read size)) = some (.reply r, s') ∧
      r.answer = .number data.length ∧
      delivered index (.onFile index (.read size), .reply r) = data ∧
      s'.place index = some (p + data.length) := by
  obtain ⟨f, hf, rfl, hserve⟩ := exists_reply hp
  obtain ⟨hanswer, hposition⟩ := f.read_granted s.device (List.replicate size filler)
  rw [List.length_replicate] at hanswer hposition
  refine ⟨_, _, hserve .., ?_, s.delivered_granted index f size, ?_⟩
  · simp only [callFile, hanswer]
    rfl
  · simp only [callFile]
    rw [s.place_afterFile (lt_of_file? hf), if_pos rfl, hposition]

theorem read_refused (hp : s.place index = some p) (size : Nat) (busy raised : Bool)
    (caller : Caller) :
    ∃ r s', s.serve busy (.refused raised) caller (.onFile index (.read size)) =
        some (.reply r, s') ∧ r.answer = .fault .interrupted ∧ s'.place index = some p := by
  obtain ⟨f, hf, rfl, hserve⟩ := exists_reply hp
  have hanswer : (s.device.read f.position (.memory (List.replicate size filler))
      (List.replicate size filler).length (.refused raised)).answer = _ :=
    s.device.answer_read_refused f.position _ rfl raised
  refine ⟨_, _, hserve .., ?_, ?_⟩
  · simp only [callFile, File.read, hanswer]
    rfl
  · simp only [callFile]
    rw [s.place_afterFile (lt_of_file? hf), if_pos rfl]
    simp only [File.read, hanswer]

theorem device_of_read {size : Nat}
    (h : s.serve busy admission caller (.onFile index (.read size)) = some (outcome, s')) :
    s'.device = s.device := by
  obtain ⟨f, -, -, rfl⟩ := callFile_of_serve h
  exact f.state_read _ _ _

/-- **A read ends in the stream**, if it delivers anything at all. -/
theorem add_le_of_read (hp : s.place index = some p) {size n : Nat} {r : Reply}
    (h : s.serve busy admission caller (.onFile index (.read size)) = some (.reply r, s'))
    (hn : r.answer = .number n) :
    admission = .granted ∧ n = (Stream.portion s.device.store.live p size).length ∧
      delivered index (.onFile index (.read size), .reply r) =
        Stream.portion s.device.store.live p size ∧
      s'.place index = some (p + n) ∧ (n = 0 ∨ p + n ≤ Stream.size s.device.store.live) := by
  cases admission with
  | refused raised =>
    obtain ⟨r', s'', h', hr', -⟩ := read_refused hp size busy raised caller
    rw [h] at h'
    cases h'
    rw [hn] at hr'
    cases hr'
  | granted =>
    obtain ⟨r', s'', h', hr', hdelivered, hplace⟩ := read_admitted hp size busy caller
    rw [h] at h'
    cases h'
    rw [hn] at hr'
    have hlength : n = (Stream.portion s.device.store.live p size).length :=
      Int.ofNat.inj (Answer.number.inj hr')
    refine ⟨rfl, hlength, hdelivered, by rw [hplace, hlength], ?_⟩
    have hroom := Stream.room_le s.device.store.live p
    rw [hlength, Stream.length_portion]
    omega

theorem completedBy_append (config : Config) (trace more : List (Request × Outcome)) :
    ∃ later, completedBy config (trace ++ more) = completedBy config trace ++ later := by
  rw [completedBy, completedBy, List.flatMap_append, completed_append]
  exact ⟨_, rfl⟩

/-- What was delivered is delivered again as long as nothing is evicted. -/
theorem portion_of_kept {more : List (Request × Outcome)} (hs : create config = .ok s)
    (hpast : s.Runs past u) (hmore : u.Runs more w)
    (hkept : evictedBytes w.log = evictedBytes u.log) (position count : Nat) :
    Stream.portion w.device.store.live position
        (Stream.portion u.device.store.live position count).length =
      Stream.portion u.device.store.live position count := by
  -- seen from the first command, both are at the same offset
  obtain ⟨later, hlater⟩ := completedBy_append config past more
  rw [portion_of_runs hs (hpast.trans hmore), portion_of_runs hs hpast, hkept, hlater]
  exact Stream.portion_append_right _ later _ count

/-- **What was read can be read again** where nothing was evicted meanwhile, with a buffer that is
just as long as what was read. -/
theorem read_again (hs : create config = .ok s) (hpast : s.Runs past u)
    (hp : u.place index = some p) {size n : Nat} {r : Reply}
    (hfirst : u.serve busy admission caller (.onFile index (.read size)) = some (.reply r, v))
    (hn : r.answer = .number n) (hrun : v.Runs trace w) (hq : w.place index = some p)
    (hkept : evictedBytes w.log = evictedBytes u.log) (busy' : Bool) (caller' : Caller) :
    ∃ r' x, w.serve busy' .granted caller' (.onFile index (.read n)) = some (.reply r', x) ∧
      r'.answer = .number n ∧
      delivered index (.onFile index (.read n), .reply r') =
        delivered index (.onFile index (.read size), .reply r) := by
  obtain ⟨-, hlength, hdelivered, -⟩ := add_le_of_read hp hfirst hn
  obtain ⟨r', x, hserve, hanswer, hagain, -⟩ := read_admitted hq n busy' caller'
  have hmore := (Runs.serve busy admission caller .refl rfl hfirst).trans hrun
  have hsame := portion_of_kept hs hpast hmore hkept p size
  rw [← hlength] at hsame
  rw [hsame, ← hlength] at hanswer
  exact ⟨r', x, hserve, hanswer, by rw [hagain, hdelivered, hsame]⟩

/-- **The way back is open**: a file that has read and has not been moved since can go back by what
it read. -/
theorem seek_back (hp : u.place index = some p) (hword : p < wordLimit) {size n : Nat} {r : Reply}
    (hfirst : u.serve busy admission caller (.onFile index (.read size)) = some (.reply r, v))
    (hn : r.answer = .number n) (hstay : w.place index = v.place index) (busy' : Bool)
    (admission' : Admission) (caller' : Caller) :
    ∃ r' x, w.serve busy' admission' caller' (.onFile index (.seek (.current (-n)))) =
        some (.reply r', x) ∧ r'.answer = .number p ∧ x.place index = some p := by
  obtain ⟨-, -, -, hplace, -⟩ := add_le_of_read hp hfirst hn
  obtain ⟨r', x, hserve, harrives⟩ :=
    seek_current (hstay.trans hplace) (-n) busy' admission' caller'
  have hback : ((p + n : Nat) : Int) + -n = p := by omega
  rw [Arrives, hback, if_pos ⟨by omega, by omega⟩] at harrives
  exact ⟨r', x, hserve, harrives⟩

/-! ### The whole -/

/-- What comes of the calls on the file `index`, which is at the position `p`: of those that move
it, and of a read and what is done after it. -/
structure Exact (u : Session) (index p : Nat) : Prop where
  /-- `tell` answers the position. -/
  tells : ∀ busy admission caller, ∃ r,
    u.serve busy admission caller (.onFile index .tell) = some (.reply r, u) ∧
      r.answer = .number p
  /-- The file can be moved to any offset. -/
  start : ∀ busy admission caller offset, ∃ r v,
    u.serve busy admission caller (.onFile index (.seek (.start offset))) = some (.reply r, v) ∧
      r.answer = .number offset ∧ v.place index = some offset
  /-- A move away from the position is exact. -/
  current : ∀ busy admission caller delta, ∃ r v,
    u.serve busy admission caller (.onFile index (.seek (.current delta))) = some (.reply r, v) ∧
      v.Arrives index r.answer p delta p
  /-- So is one away from the end of the stream, unless it is turned away. -/
  fromEnd : ∀ busy admission caller delta, ∃ r v,
    u.serve busy admission caller (.onFile index (.seek (.fromEnd delta))) = some (.reply r, v) ∧
      if admission = .granted then
        v.Arrives index r.answer (Stream.size u.device.store.live) delta p
      else r.answer = .fault .interrupted ∧ v.place index = some p
  /-- A read moves the file by what it delivers, which does not take it beyond the end of the
  stream, so that the sum is a word. -/
  reads : ∀ busy admission caller size (n : Nat) r v,
    u.serve busy admission caller (.onFile index (.read size)) = some (.reply r, v) →
      r.answer = .number n →
      v.place index = some (p + n) ∧ (n = 0 ∨ p + n ≤ Stream.size u.device.store.live) ∧
      (p < wordLimit → Stream.size u.device.store.live < wordLimit → addWord p n = .ok (p + n))
  /-- Where a read has left it, the file can go back by what was delivered, whatever is done
  elsewhere meanwhile. -/
  back : ∀ busy admission caller size (n : Nat) r v,
    u.serve busy admission caller (.onFile index (.read size)) = some (.reply r, v) →
      r.answer = .number n → p < wordLimit →
      ∀ trace w, v.Runs trace w → w.place index = v.place index →
        ∀ busy' admission' caller', ∃ r' x,
          w.serve busy' admission' caller' (.onFile index (.seek (.current (-n)))) =
            some (.reply r', x) ∧ r'.answer = .number p ∧ x.place index = some p
  /-- Where it is back and nothing was evicted, the same bytes are delivered again. -/
  again : ∀ busy admission caller size (n : Nat) r v,
    u.serve busy admission caller (.onFile index (.read size)) = some (.reply r, v) →
      r.answer = .number n →
      ∀ trace w, v.Runs trace w → w.place index = some p →
        evictedBytes w.log = evictedBytes u.log →
        ∀ busy' caller', ∃ r' x,
          w.serve busy' .granted caller' (.onFile index (.read n)) = some (.reply r', x) ∧
            r'.answer = .number n ∧
            delivered index (.onFile index (.read n), .reply r') =
              delivered index (.onFile index (.read size), .reply r)

/-- **The calls on a file are exact** in any state that a run comes to. -/
theorem exact_of_runs (hs : create config = .ok s) (hpast : s.Runs past u)
    (hp : u.place index = some p) : u.Exact index p where
  tells busy admission caller := by
    obtain ⟨f, hf, rfl, hserve⟩ := exists_reply hp
    exact ⟨_, hserve .., rfl⟩
  start busy admission caller offset := seek_start hp offset busy admission caller
  current busy admission caller delta := seek_current hp delta busy admission caller
  fromEnd busy admission caller delta := by
    obtain ⟨hgranted, hrefused⟩ := seek_fromEnd hp delta busy caller
    cases admission with
    | granted => exact hgranted
    | refused raised => exact hrefused raised
  reads busy admission caller size n r v hread hn := by
    obtain ⟨-, -, -, hplace, hle⟩ := add_le_of_read hp hread hn
    refine ⟨hplace, hle, fun hword hlength => ?_⟩
    exact addWord_eq_ok_iff.mpr ⟨rfl, by omega⟩
  back busy admission caller size n r v hread hn hword trace w _ hstay busy' admission' caller' :=
    seek_back hp hword hread hn hstay busy' admission' caller'
  again busy admission caller size n r v hread hn trace w hrun hback hkept busy' caller' :=
    read_again hs hpast hp hread hn hrun hback hkept busy' caller'

/-- **Positions are exact**, in any run and whatever is done with other files. A file that is opened
is at the beginning, its calls, loops over reads spelt out, take it just where their answers say,
and these answers are those of integers (`Exact`). -/
theorem positions_are_exact (hs : create config = .ok s) (hpast : s.Runs past u) :
    (u.device.logicalLength .granted).answer = .ok (Stream.size u.device.store.live) ∧
    (∀ busy admission caller outcome v,
      u.serve busy admission caller .openFile = some (outcome, v) →
        v.place u.files.length = some 0) ∧
    (∀ index p q trace w, u.place index = some p → u.Runs trace w → w.place index = some q →
      ∃ calls, Spells index trace calls ∧ u.Runs calls w ∧ q = calls.foldl (goes index) p) ∧
    ∀ index p, u.place index = some p → u.Exact index p := by
  refine ⟨rfl, ?_, ?_, ?_⟩
  · intro busy admission caller outcome v hopen
    exact place_openFile hopen
  · intro index p q trace w hp hrun hq
    exact exists_place_eq_foldl hrun hp hq
  · intro index p hp
    exact exact_of_runs hs hpast hp

/-- A file that reads a command goes back by its three bytes and reads it again, another command
having been written meanwhile. It cannot go back from the beginning. -/
theorem positions_are_exact_of_way_back :
    let config : Config := ⟨3, 10, .discard⟩
    ∃ s past u r v w r' x r'' z, create config = .ok s ∧ s.Runs past u ∧ u.place 0 = some 0 ∧
      u.serve false .granted default (.onFile 0 (.read 5)) = some (.reply r, v) ∧
      r.answer = .number 3 ∧
      v.Runs [(.write (.memory [99, 10]) .unlimited, .reply (.bare (.number 2)))] w ∧
      w.serve false .granted default (.onFile 0 (.seek (.current (-3)))) = some (.reply r', x) ∧
      r'.answer = .number 0 ∧
      x.serve false .granted default (.onFile 0 (.read 3)) = some (.reply r'', z) ∧
      delivered 0 (.onFile 0 (.read 3), .reply r'') = [97, 98, 10] ∧
      ∃ r₀ u', u.serve false .granted default (.onFile 0 (.seek (.current (-1)))) =
        some (.reply r₀, u') ∧ r₀.answer = .fault .invalidArgument := by
  intro config
  let d := Device.start config (by decide)
  let s : Session := { resume d with log := [.made config] }
  let old : Bytes := [97, 98, 10]
  have hs : create config = .ok s := rfl
  obtain ⟨hold, hstate, -⟩ :=
    d.write_granted (Source.chunk_memory old) (by decide) (by decide) .unlimited
  let t := s.after (d.write (.memory old) .unlimited .granted)
  let opened := File.openOn t.device
  let u : Session := { t.after opened with files := [some opened.answer] }
  have hpast : s.Runs (_ ++ [(.openFile, _)]) u :=
    .serve false .granted default (Runs.refl.write hold) rfl rfl
  have hp : u.place 0 = some 0 := rfl
  obtain ⟨-, -, -, hfile⟩ := positions_are_exact hs hpast
  have hexact := hfile 0 0 hp
  -- the first read gets the whole command
  have hdata : Stream.portion u.device.store.live 0 5 = old := by
    have hlive : u.device.store.live.map Command.bytes = (finished 10 old).rtake 3 :=
      live_of_runs hs hpast
    have hone : (finished 10 old).rtake 3 = [old] := by decide
    obtain ⟨c, hc, hbytes⟩ := List.map_eq_singleton_iff.mp (hlive.trans hone)
    have hstands : Stream.Stands u.device.store.live 0 0 c 0 := by
      rw [hc]
      exact ⟨rfl, c.size_pos, rfl⟩
    rw [hstands.portion_eq, hbytes]
    rfl
  obtain ⟨r, v, hfirst, hanswer, hdelivered, -⟩ := read_admitted hp 5 false default
  rw [hdata] at hanswer hdelivered
  -- another command is written; the file stays where it is
  let new : Bytes := [99, 10]
  have hdevice : v.device = (File.openOn (d.absorb old)).state :=
    (device_of_read hfirst).trans (congrArg (fun d => (File.openOn d).state) hstate)
  have hnew : (v.device.write (.memory new) .unlimited .granted).answer.result = .ok 2 := by
    rw [hdevice]
    exact ((File.openOn (d.absorb old)).state.write_granted (Source.chunk_memory new) (by decide)
      (by decide) .unlimited).1
  have hbetween := Runs.refl.write hnew
  obtain ⟨r', x, hway, hthere, hzero⟩ := hexact.back _ _ _ 5 3 r v hfirst hanswer (by decide) _ _
    hbetween rfl false .granted default
  -- with three slots nothing is evicted
  have hsince := hbetween.trans (.serve false .granted default .refl rfl hway)
  have hlast := (hpast.trans (.serve false .granted default .refl rfl hfirst)).trans hsince
  have hu : evictedBytes u.log = 0 := by
    refine (evictedBytes_eq_sub hs hpast).trans ?_
    show Stream.size (completed 10 [] old) - ((finished 10 old).rtake 3).flatten.length = 0
    decide
  have hx : evictedBytes x.log = 0 := by
    refine (evictedBytes_eq_sub hs hlast).trans ?_
    show Stream.size (completed 10 [] (old ++ new)) -
      ((finished 10 (old ++ new)).rtake 3).flatten.length = 0
    decide
  obtain ⟨r'', z, hsecond, -, hsame⟩ := hexact.again _ _ _ 5 3 r v hfirst hanswer _ _ hsince hzero
    (hx.trans hu.symm) false default
  obtain ⟨r₀, u', hbefore, harrives⟩ := hexact.current false .granted default (-1)
  rw [Arrives, if_neg (by decide)] at harrives
  exact ⟨s, _, u, r, v, _, r', x, r'', z, hs, hpast, hp, hfirst, hanswer, hbetween, hway, hthere,
    hsecond, hsame.trans hdelivered, r₀, u', hbefore, harrives.1⟩

end Session

end Spool
