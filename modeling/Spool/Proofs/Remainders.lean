import Spool.Proofs.Eviction

/-!
# What the log says was dropped

An assembler takes a chunk up to its first delimiter, and logs how many bytes of it follow as
dropped. It cannot know what becomes of them. If they are discarded, what a write logs as dropped
is what it did not take. If they are retained, they are fed to the assembler again and are taken
after all, but the log has called them dropped, and those behind several delimiters several times.

So the log has to be read by the delimiters of what a write took. With each of them it counts the
bytes of the chunk that follow (`following`), and this is so for both policies and also when
memory runs out on the way (`Store.dropped_feed`). It is the number of bytes not taken if they are
discarded, and otherwise only if no byte follows a delimiter
(`Session.dropped_of_runs`).
-/

namespace Spool

/-! ### Drops in a log -/

/-- How many bytes a record reports dropped. -/
def Record.droppedSize : Record → Nat
  | .dropped count => count
  | _ => 0

/-- How many bytes a log reports dropped. -/
def droppedBytes : List Record → Nat
  | [] => 0
  | record :: rest => record.droppedSize + droppedBytes rest

@[simp] theorem droppedBytes_append (a b : List Record) :
    droppedBytes (a ++ b) = droppedBytes a + droppedBytes b := by
  induction a with
  | nil => simp [droppedBytes]
  | cons record rest ih => simp [droppedBytes, ih, Nat.add_assoc]

/-! ### Bytes that follow delimiters -/

/-- How many bytes follow the delimiters in `front` when `back` comes behind it: those behind the
first, those behind the second, and so on, together. -/
def following (d : UInt8) : Bytes → Bytes → Nat
  | [], _ => 0
  | b :: front, back =>
    (if b = d then (front ++ back).length else 0) + following d front back

variable {d : UInt8}

theorem following_of_notMem {front : Bytes} (h : d ∉ front) (back : Bytes) :
    following d front back = 0 := by
  induction front with
  | nil => rfl
  | cons b front ih =>
    obtain ⟨hb, hfront⟩ := List.ne_and_not_mem_of_not_mem_cons h
    rw [following, if_neg fun e => hb e.symm, ih hfront]

theorem following_append (d : UInt8) (a b back : Bytes) :
    following d (a ++ b) back = following d a (b ++ back) + following d b back := by
  induction a with
  | nil => simp [following]
  | cons x a ih => simp only [List.cons_append, following, ih, List.append_assoc, Nat.add_assoc]

theorem following_of_breakAfter {chunk rest : Bytes} {head : Command}
    (h : breakAfter d chunk = some (head, rest)) (back : Bytes) :
    following d head.bytes back = back.length := by
  obtain ⟨body, hbody, hnot⟩ := bytes_of_breakAfter h
  rw [hbody, following_append, following_of_notMem hnot]
  simp [following]

/-- Nothing follows just if the delimiter is nowhere but at the end. -/
theorem following_eq_zero_iff {chunk : Bytes} :
    following d chunk [] = 0 ↔ ∀ front back, chunk = front ++ d :: back → back = [] := by
  induction chunk with
  | nil => simp [following]
  | cons b chunk ih =>
    rw [following, List.append_nil, Nat.add_eq_zero_iff, ih]
    constructor
    · rintro ⟨hb, hchunk⟩ front back heq
      cases front with
      | nil =>
        obtain ⟨rfl, rfl⟩ := List.cons_eq_cons.mp heq
        simpa using hb
      | cons c front => exact hchunk front back (List.cons_eq_cons.mp heq).2
    · intro h
      constructor
      · split
        · rename_i hb
          rw [h [] chunk (by rw [hb]; rfl), List.length_nil]
        · rfl
      · exact fun front back heq => h (b :: front) back (by rw [heq]; rfl)

/-! ### Feeding -/

namespace Store

variable {trailing : Trailing} {chunk rest : Bytes} {head : Command}

theorem dropped_cut (s : Store) (head : Command) (rest : Bytes) :
    droppedBytes (s.cutRecords head rest) = rest.length := by
  have hevicted : droppedBytes
      ((s.ring.ingest (head.prepend s.pending)).2.toList.map fun c => .evicted c.size) = 0 := by
    cases (s.ring.ingest (head.prepend s.pending)).2 <;> rfl
  rw [cutRecords, droppedBytes_append, hevicted]
  split
  · rename_i hrest
    rw [hrest]
    rfl
  · rfl

/-- **A feeding logs as dropped what follows each delimiter that it took**, whatever the policy and
the memory. -/
theorem dropped_feed (s : Store) (trailing : Trailing) (chunk : Bytes) (q : Quota) :
    let n := (s.feed trailing chunk q).accepted
    droppedBytes (s.feed trailing chunk q).records =
      following s.delimiter (chunk.take n) (chunk.drop n) := by
  obtain ⟨d, hs⟩ : ∃ d, s.delimiter = d := ⟨_, rfl⟩
  induction chunk using cut_induction d generalizing s q with
  | uncut chunk hd =>
    subst hs
    by_cases hne : chunk = []
    · rw [hne, feed_nil]
      rfl
    cases hq : q.grow chunk.length with
    | error e =>
      rw [feed_refused (Assembler.append_uncut_refused hd hne hq)]
      rfl
    | ok left =>
      rw [feed_uncut hd hne hq]
      dsimp only
      rw [List.take_length, following_of_notMem hd]
      rfl
  | cut chunk head rest hb ih =>
    subst hs
    have hchunk := append_of_breakAfter hb
    cases hq : q.grow head.size with
    | error e =>
      rw [feed_refused (Assembler.append_cut_refused hb hq)]
      rfl
    | ok left =>
      cases trailing with
      | discard =>
        rw [feed_discard hb hq]
        show droppedBytes (s.cutRecords head rest) =
          following s.delimiter (chunk.take head.bytes.length) (chunk.drop head.bytes.length)
        rw [← hchunk, List.take_left, List.drop_left, following_of_breakAfter hb, dropped_cut]
      | retain =>
        have hmore := ih (s.absorb head.bytes) left rfl
        rw [delimiter_absorb] at hmore
        rw [feed_retain hb hq]
        show droppedBytes (s.cutRecords head rest ++ _) =
          following s.delimiter (chunk.take (head.bytes.length + _))
            (chunk.drop (head.bytes.length + _))
        rw [← hchunk, List.take_length_add_append, List.drop_length_add_append, following_append,
          following_of_breakAfter hb, List.take_append_drop, droppedBytes_append, dropped_cut,
          hmore]

end Store

/-! ### Writes -/

theorem droppedBytes_feeding (trailing : Trailing) (chunk : Bytes) (q : Quota) (s : Store) :
    droppedBytes (feeding trailing chunk q s).records =
      droppedBytes (s.feed trailing chunk q).records := by
  rw [feeding]
  cases (s.feed trailing chunk q).result with
  | error e => rfl
  | ok n => simp [droppedBytes, Record.droppedSize]

namespace Device

theorem write_of_chunk_nil (d : Device) {source : Source} (q : Quota) (admission : Admission)
    (hc : source.chunk = some []) : d.write source q admission = ⟨⟨.ok 0, q⟩, d, []⟩ := by
  have hsize : source.size = 0 := (Source.eq_take_of_chunk hc).2.symm
  have hplan : writePlan d.config.trailing source q = .done ⟨.ok 0, q⟩ [] := by
    simp [writePlan, Source.not_isMissing_of_chunk hc, hsize]
  rw [write, perform, hplan]
  rfl

/-- **A write that succeeds logs as dropped what follows each delimiter that it took.** -/
theorem dropped_write (d : Device) {source : Source} {q : Quota} {admission : Admission}
    {chunk : Bytes} {n : Nat} (hc : source.chunk = some chunk)
    (h : (d.write source q admission).answer.result = .ok n) :
    droppedBytes (d.write source q admission).records =
      following d.store.delimiter (chunk.take n) (chunk.drop n) := by
  by_cases hne : chunk = []
  · subst hne
    rw [d.write_of_chunk_nil q admission hc]
    simp [droppedBytes, following]
  cases hgrow : q.grow chunk.length with
  | error e =>
    rw [write, perform, writePlan_refused hc hne hgrow] at h
    cases h
  | ok left =>
    rw [write, perform, writePlan_copied _ hc hne hgrow] at h ⊢
    cases admission with
    | refused b => cases h
    | granted =>
      have hresult : (feeding d.config.trailing chunk left d.store).answer.result = .ok n := h
      have hcount : (d.store.feed d.config.trailing chunk left).accepted = n := by
        rw [result_feeding] at hresult
        split at hresult
        · cases hresult
        · exact Except.ok.inj hresult
      have hfed := d.store.dropped_feed d.config.trailing chunk left
      rw [hcount] at hfed
      show droppedBytes ([.writing chunk.length] ++
        (feeding d.config.trailing chunk left d.store).records) = _
      rw [droppedBytes_append, droppedBytes_feeding, hfed]
      exact Nat.zero_add _

theorem eq_stretch_of_ok (d : Device) {source : Source} {q : Quota} {admission : Admission}
    {chunk : Bytes} {n : Nat} (hc : source.chunk = some chunk) (hg : d.Grants source q)
    (h : (d.write source q admission).answer.result = .ok n) :
    n = d.config.trailing.stretch d.store.delimiter chunk := by
  by_cases hne : chunk = []
  · subst hne
    rw [d.write_of_chunk_nil q admission hc] at h
    cases h
    cases d.config.trailing <;> rfl
  · exact d.eq_stretch_of_write hc hne hg h

end Device

/-- Of a chunk that is taken up to its first delimiter, what follows there is what is not taken. -/
theorem following_stretch_discard (d : UInt8) (chunk : Bytes) :
    let n := Trailing.stretch d chunk .discard
    following d (chunk.take n) (chunk.drop n) = chunk.length - n := by
  cases hb : breakAfter d chunk with
  | none =>
    have hd := breakAfter_eq_none_iff.mp hb
    have hall : Trailing.stretch d chunk .discard = chunk.length := by
      rw [Trailing.stretch, List.idxOf_eq_length hd]
      exact Nat.min_eq_right (Nat.le_succ _)
    rw [hall]
    simp [following_of_notMem hd]
  | some halves =>
    obtain ⟨head, rest⟩ := halves
    have hchunk := append_of_breakAfter hb
    have hhead : Trailing.stretch d chunk .discard = head.bytes.length := by
      have hsize := size_of_breakAfter hb
      have hlength := congrArg List.length hchunk
      rw [Command.size] at hsize
      rw [List.length_append] at hlength
      rw [Trailing.stretch, ← hsize]
      omega
    rw [hhead, ← hchunk]
    simp [following_of_breakAfter hb]

/-! ### Runs -/

namespace Session

/-- **What a write logs as dropped**, whatever has gone before it: if bytes are discarded, as many
as it did not take. If they are retained it takes them all, and yet logs as dropped what follows
each delimiter; this is nothing only if no delimiter is followed by anything. -/
theorem dropped_of_runs {config : Config} {s s' : Session} {trace : List (Request × Outcome)}
    (hs : create config = .ok s) (h : s.Runs trace s') {source : Source} {q : Quota}
    {admission : Admission} {chunk : Bytes} {n : Nat} (hc : source.chunk = some chunk)
    (hg : s'.device.Grants source q)
    (hn : (s'.device.write source q admission).answer.result = .ok n) :
    let logged := droppedBytes (s'.device.write source q admission).records
    logged = following config.delimiter (chunk.take n) (chunk.drop n) ∧
    (config.trailing = .discard → logged = chunk.length - n) ∧
    (config.trailing = .retain → n = chunk.length ∧
      logged = following config.delimiter chunk [] ∧
      (logged = chunk.length - n ↔
        ∀ front back, chunk = front ++ config.delimiter :: back → back = [])) := by
  intro logged
  obtain ⟨hv, hstart⟩ := device_of_create hs
  obtain ⟨hconfig, hstore⟩ := store_of_runs h
  have hdelimiter : s'.device.store.delimiter = config.delimiter := by
    rw [hstore, hstart]
    rfl
  have htrailing : s'.device.config.trailing = config.trailing := by
    rw [hconfig, hstart]
    rfl
  have hlogged : logged = following config.delimiter (chunk.take n) (chunk.drop n) :=
    hdelimiter ▸ s'.device.dropped_write hc hn
  have hstretch : n = config.trailing.stretch config.delimiter chunk := by
    rw [← hdelimiter, ← htrailing]
    exact s'.device.eq_stretch_of_ok hc hg hn
  refine ⟨hlogged, fun hdiscard => ?_, fun hretain => ?_⟩
  · rw [hlogged, hstretch, hdiscard]
    exact following_stretch_discard config.delimiter chunk
  · have hall : n = chunk.length := by rw [hstretch, hretain]; rfl
    have hfollowing : logged = following config.delimiter chunk [] := by
      rw [hlogged, hall, List.take_length, List.drop_length]
    refine ⟨hall, hfollowing, ?_⟩
    rw [hfollowing, hall, Nat.sub_self]
    exact following_eq_zero_iff

/-- A chunk of two commands: the second is stored, and is logged as dropped. -/
theorem stored_bytes_logged_as_dropped :
    let config : Config := ⟨3, 10, .retain⟩
    let source : Source := .memory [97, 10, 98, 10]
    ∃ s, create config = .ok s ∧ s.Runs [] s ∧ s.device.Grants source .unlimited ∧
      let e := s.device.write source .unlimited .granted
      e.answer.result = .ok 4 ∧ (e.state.liveCommands .granted).answer = .ok [[97, 10], [98, 10]] ∧
      droppedBytes e.records = 2 ∧ droppedBytes e.records ≠ 4 - 4 := by
  intro config source
  have hv : config.Valid := by decide
  let d := Device.start config hv
  let s : Session := { resume d with log := [.made config] }
  have hc : source.chunk = some [97, 10, 98, 10] := rfl
  obtain ⟨hresult, hstate, -⟩ := d.write_granted hc (by decide) (by decide) .unlimited
  have hn : (d.write source .unlimited .granted).answer.result = .ok 4 := hresult
  have hlive : ((d.write source .unlimited .granted).state.liveCommands .granted).answer =
      .ok [[97, 10], [98, 10]] := by
    rw [hstate]
    exact congrArg Except.ok (Store.live_absorb_start config hv _)
  have hdropped : droppedBytes (d.write source .unlimited .granted).records = 2 :=
    d.dropped_write hc hn
  refine ⟨s, rfl, .refl, d.grants_unlimited (by decide), hn, hlive, hdropped, ?_⟩
  exact fun hzero => absurd (hdropped.symm.trans hzero) (by decide)

/-- A write that discards two bytes, after one that left a byte waiting. -/
theorem dropped_of_runs_of_discarded_byte :
    let config : Config := ⟨3, 10, .discard⟩
    let source : Source := .memory [10, 98, 99]
    ∃ s s', create config = .ok s ∧
      s.Runs [(.write (.memory [97]) .unlimited, .reply (.bare (.number 1)))] s' ∧
      s'.device.Grants source .unlimited ∧
      (s'.device.write source .unlimited .granted).answer.result = .ok 1 ∧
      droppedBytes (s'.device.write source .unlimited .granted).records = 2 := by
  intro config source
  let d := Device.start config (by decide)
  let s : Session := { resume d with log := [.made config] }
  have hs : create config = .ok s := rfl
  obtain ⟨hresult, hstate, -⟩ :=
    d.write_granted (Source.chunk_memory [97]) (by decide) (by decide) .unlimited
  let s' := s.after (d.write (.memory [97]) .unlimited .granted)
  have h : s.Runs [(.write (.memory [97]) .unlimited, .reply (.bare (.number 1)))] s' :=
    Runs.write .refl hresult
  have hc : source.chunk = some [10, 98, 99] := rfl
  have hg : s'.device.Grants source .unlimited := s'.device.grants_unlimited (by decide)
  have hn : (s'.device.write source .unlimited .granted).answer.result = .ok 1 := by
    show ((d.write (.memory [97]) .unlimited .granted).state.write source _ _).answer.result = _
    rw [hstate]
    exact ((d.absorb [97]).write_granted hc (by decide) (by decide) .unlimited).1
  exact ⟨s, s', hs, h, hg, hn, (dropped_of_runs hs h hc hg hn).2.1 rfl⟩

end Session

end Spool
