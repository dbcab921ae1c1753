import Spool.Proofs.Traffic

/-!
# Concurrent calls come one after another

What any threads do on one device comes to the same as if they had done it one after
another, in the order in which they were admitted at the guard. Errands that are over early
can be put anywhere in this order, since they neither look at the store nor change it
(`Traffic.inTurn_of_filter`). Those that are refused are left out: they have no effect, and
their callers get back what they came with (`Traffic.Orderly.interrupted`,
`Traffic.Orderly.refused`).
-/

namespace Spool

variable {T S : Type}

/-- The bytes that a visit has had taken. -/
def Visit.taken (v : Visit T S) : Bytes := v.errand.taken v.receipt

/-- The chunk that a visit has written, if it is a write that succeeded. -/
def Visit.wrote (v : Visit T S) : Option Bytes := v.errand.wrote v.receipt

namespace Traffic

variable {d d' : Device} {w w' : Traffic T S} {t : T} {visits : List (Visit T S)}

/-! ### One order for all -/

/-- **Errands that are over early can be done at any time.** -/
theorem inTurn_of_filter
    (hearly : ∀ v ∈ visits, v.isServed = false →
      ∃ records, v.errand.plan d.config.trailing = .done v.receipt records)
    (h : d.inTurn ((visits.filter Visit.isServed).map Visit.errand) =
      ((visits.filter Visit.isServed).map Visit.receipt, d')) :
    d.inTurn (visits.map Visit.errand) = (visits.map Visit.receipt, d') := by
  induction visits generalizing d with
  | nil => exact h
  | cons v rest ih =>
    have hrest := fun x hx => hearly x (List.mem_cons_of_mem v hx)
    rw [List.map_cons, List.map_cons, Device.inTurn_cons_iff]
    cases hv : v.isServed with
    | true =>
      rw [List.filter_cons_of_pos hv, List.map_cons, List.map_cons, Device.inTurn_cons_iff] at h
      obtain ⟨hfirst, h⟩ := h
      refine ⟨hfirst, ih ?_ h⟩
      rw [Errand.state_serve]
      exact hrest
    | false =>
      rw [List.filter_cons_of_neg (by rw [hv]; decide)] at h
      obtain ⟨records, hplan⟩ := hearly v List.mem_cons_self hv
      have hserve : d.serve v.errand = (v.receipt, d) := by
        rw [Device.serve_eq_run, hplan]
        rfl
      rw [hserve]
      exact ⟨rfl, ih hrest h⟩

theorem filter_isServed_filter_isDone (visits : List (Visit T S)) :
    (visits.filter Visit.isDone).filter Visit.isServed = visits.filter Visit.isServed := by
  rw [List.filter_filter]
  refine List.filter_congr fun v _ => ?_
  cases hfate : v.fate with
  | early | served => simp [Visit.isServed, Visit.isDone, hfate]
  | refused before => simp [Visit.isServed, Visit.isDone, hfate]

/-- The calls that were not refused, in the order of their admissions, with those that were
over early placed anywhere. -/
theorem Orderly.inTurn (h : Orderly w) {order : List (Visit T S)}
    (hserved : order.filter Visit.isServed = w.served)
    (hdone : order.Perm (w.visits.filter Visit.isDone)) :
    w.device.inTurn (order.map Visit.errand) = (order.map Visit.receipt, w.now) := by
  refine inTurn_of_filter ?_ (by rw [hserved]; exact h.serial)
  intro v hv hearly
  obtain ⟨hmem, hvdone⟩ := List.mem_filter.mp (hdone.mem_iff.mp hv)
  have hfits := h.fits v hmem
  cases hfate : v.fate with
  | early =>
    rw [Fits, hfate] at hfits
    exact hfits
  | served => simp [Visit.isServed, hfate] at hearly
  | refused before => simp [Visit.isDone, hfate] at hvdone

/-! ### Interruption -/

/-- **The calls that return that they were interrupted are those that were refused**, and
they give back what they came with. -/
theorem Orderly.interrupted (h : Orderly w) {v : Visit T S} (hv : v ∈ w.visits) :
    (v.receipt.fault = some .interrupted ↔ v.isDone = false) ∧
      (v.isDone = false → v.errand.Interrupted v.receipt) := by
  have hfits := h.fits v hv
  cases hfate : v.fate with
  | early =>
    rw [Fits, hfate] at hfits
    obtain ⟨records, hplan⟩ := hfits
    have hdone : v.isDone ≠ false := by simp [Visit.isDone, hfate]
    exact ⟨iff_of_false (Errand.fault_of_done hplan) hdone, fun e => absurd e hdone⟩
  | served =>
    rw [Fits, hfate] at hfits
    obtain ⟨records, refusal, body, store, hplan, hreceipt⟩ := hfits
    have hdone : v.isDone ≠ false := by simp [Visit.isDone, hfate]
    have hfault := Errand.fault_of_body hplan store
    rw [← hreceipt] at hfault
    exact ⟨iff_of_false hfault hdone, fun e => absurd e hdone⟩
  | refused before =>
    rw [Fits, hfate] at hfits
    obtain ⟨records, body, hplan⟩ := hfits
    have hinterrupted := Errand.interrupted_of_refused hplan
    exact ⟨iff_of_true hinterrupted.1 (by simp [Visit.isDone, hfate]), fun _ => hinterrupted⟩

/-! ### Commands that come whole -/

/-- The bytes that the visits have had taken, in the order of their admissions. -/
def stream (w : Traffic T S) : Bytes := w.served.flatMap Visit.taken

/-- The commands that have been completed, in order. -/
def commands (w : Traffic T S) : List Command :=
  completed w.device.store.delimiter w.device.store.pending w.stream

theorem absorb_of_inTurn
    (h : d.inTurn (visits.map Visit.errand) = (visits.map Visit.receipt, d')) :
    d' = d.absorb (visits.flatMap Visit.taken) := by
  induction visits generalizing d with
  | nil =>
    cases h
    rfl
  | cons v rest ih =>
    obtain ⟨hfirst, hrest⟩ := Device.inTurn_cons_iff.mp h
    rw [Errand.state_serve, hfirst] at hrest
    rw [ih hrest, List.flatMap_cons, Device.absorb_append]
    rfl

/-- **The store has absorbed what was taken**, and nothing else. -/
theorem Orderly.store_eq_absorb (h : Orderly w) :
    w.store = w.device.store.absorb w.stream :=
  congrArg Device.store (absorb_of_inTurn h.serial)

/-- Where every write brings a command, what is taken is what is written. -/
theorem flatMap_taken
    (hcommand : ∀ v ∈ visits, v.errand.BringsCommand d.store.delimiter)
    (h : d.inTurn (visits.map Visit.errand) = (visits.map Visit.receipt, d')) :
    visits.flatMap Visit.taken = (visits.filterMap Visit.wrote).flatten := by
  induction visits generalizing d with
  | nil => rfl
  | cons v rest ih =>
    obtain ⟨hfirst, hrest⟩ := Device.inTurn_cons_iff.mp h
    have htaken : v.taken = v.wrote.getD [] := by
      have := Errand.taken_serve d (hcommand v List.mem_cons_self)
      rwa [hfirst] at this
    rw [Errand.state_serve] at hrest
    have htail := ih (d := d.absorb _) (fun x hx => hcommand x (List.mem_cons_of_mem v hx)) hrest
    rw [List.flatMap_cons, htail, htaken]
    cases hw : v.wrote with
    | none => rw [List.filterMap_cons_none hw, Option.getD_none, List.nil_append]
    | some chunk => rw [List.filterMap_cons_some hw, Option.getD_some, List.flatten_cons]

theorem Orderly.filterMap_wrote (h : Orderly w) {δ : UInt8}
    (hcommand : ∀ v ∈ w.visits, v.errand.BringsCommand δ) :
    w.served.filterMap Visit.wrote = w.visits.filterMap Visit.wrote := by
  rw [served, List.filterMap_filter]
  refine List.filterMap_congr fun v hv => ?_
  have hfits := h.fits v hv
  cases hfate : v.fate with
  | early =>
    rw [Fits, hfate] at hfits
    obtain ⟨records, hplan⟩ := hfits
    have hwrote : v.wrote = none := Errand.wrote_of_done (hcommand v hv) hplan
    simp [Visit.isServed, hfate, hwrote]
  | served => simp [Visit.isServed, hfate]
  | refused before =>
    have hdone : v.isDone = false := by simp [Visit.isDone, hfate]
    have hwrote : v.wrote = none := Errand.wrote_of_fault ((h.interrupted hv).1.mpr hdone)
    simp [Visit.isServed, hfate, hwrote]

/-- **Where every write brings a command**, the commands completed are those that were
written, and nothing waits. -/
theorem Orderly.commands_eq (h : Orderly w) (hempty : w.device.store.pending = [])
    (hcommand : ∀ v ∈ w.visits, v.errand.BringsCommand w.device.store.delimiter) :
    w.commands.map Command.bytes = w.visits.filterMap Visit.wrote ∧ w.store.pending = [] := by
  have hserved : ∀ v ∈ w.served, v.errand.BringsCommand w.device.store.delimiter :=
    fun v hv => hcommand v (List.mem_of_mem_filter hv)
  have hwhole : ∀ chunk ∈ w.visits.filterMap Visit.wrote,
      IsCommand w.device.store.delimiter chunk := by
    intro chunk hchunk
    obtain ⟨v, hv, hwrote⟩ := List.mem_filterMap.mp hchunk
    exact hcommand v hv chunk (Errand.chunk_of_wrote hwrote)
  have hstream : w.stream = (w.visits.filterMap Visit.wrote).flatten := by
    rw [stream, flatMap_taken hserved h.serial, h.filterMap_wrote hcommand]
  obtain ⟨hcompleted, hleftover⟩ := completed_flatten hwhole
  constructor
  · rw [commands, hempty, hstream, hcompleted]
  · rw [h.store_eq_absorb, Store.pending_absorb, hempty, hstream, hleftover]

/-! ### Moves -/

variable [DecidableEq T] [DecidableEq S]

theorem device_of_reaches (h : w.Reaches w') : w'.device = w.device := by
  induction h with
  | refl => rfl
  | step _ hstep ih => rw [(frame_of_next hstep).device, ih]

/-- **A call is refused only while another has the guard and its signal is raised**, and
nothing is changed by that. -/
theorem Orderly.refused (h : Orderly w) {move : Move S} (hs : w.next t move = some w')
    {v : Visit T S} (hvisits : w'.visits = w.visits ++ [v]) (hv : v.isDone = false) :
    v.thread = t ∧ w'.store = w.store ∧ w.Blocks t v.signal := by
  obtain ⟨hchange, -⟩ := h.change hs
  cases hchange with
  | quiet hsame | admitted _ hsame =>
    rw [hvisits] at hsame
    simp at hsame
  | unserved x _ hfate hthread hblocks hx _ hstore _ =>
    obtain rfl : v = x := by simpa [hvisits] using hx
    refine ⟨hthread, hstore, ?_⟩
    cases hf : v.fate with
    | refused before => exact hblocks before hf
    | early | served => simp [Visit.isDone, hf] at hv
  | served x _ hfate _ hx =>
    obtain rfl : v = x := by simpa [hvisits] using hx
    simp [Visit.isDone, hfate] at hv

/-- **Only an errand that is served changes the store.** -/
theorem Orderly.served_of_store_ne (h : Orderly w) {move : Move S} (hs : w.next t move = some w')
    (hne : w'.store ≠ w.store) :
    ∃ v, v.thread = t ∧ v.isServed = true ∧ w'.visits = w.visits ++ [v] := by
  obtain ⟨hchange, -⟩ := h.change hs
  cases hchange with
  | quiet _ _ hstore | admitted _ _ _ hstore | unserved _ _ _ _ _ _ _ hstore =>
    exact absurd hstore hne
  | served v _ hfate hthread hv => exact ⟨v, hthread, by simp [Visit.isServed, hfate], hv⟩

/-! ### The whole -/

/-- **Concurrent calls come one after another.** Whatever any threads have done on a device,
in whatever order of their steps: every call that was not refused got what it would have got
had these calls been made one after another in the order of their admissions, and the store
is what it would be then; those that were over before they asked for the guard can be put
anywhere. The calls that were refused are those that were interrupted. They got back what
they came with, while another had the guard and their signal was raised, and changed
nothing. If every chunk written is one command and nothing waited at first, the commands
completed are a shuffle of what each thread has written. -/
theorem serializable (d : Device) {w : Traffic T S} (h : (start d : Traffic T S).Reaches w) :
    (∀ order : List (Visit T S), order.filter Visit.isServed = w.served →
      order.Perm (w.visits.filter Visit.isDone) →
      d.inTurn (order.map Visit.errand) =
        (order.map Visit.receipt, { d with store := w.store })) ∧
    (w.admissions = w.served.map Visit.thread ∨
      ∃ t, () ∈ (w.machine.threads t).held ∧
        w.admissions = w.served.map Visit.thread ++ [t]) ∧
    (∀ v ∈ w.visits, (v.receipt.fault = some .interrupted ↔ v.isDone = false) ∧
      (v.isDone = false → v.errand.Interrupted v.receipt)) ∧
    (∀ (t : T) (move : Move S) (w' : Traffic T S), w.next t move = some w' →
      (∀ v, w'.visits = w.visits ++ [v] → v.isDone = false →
        v.thread = t ∧ w'.store = w.store ∧ w.Blocks t v.signal) ∧
      (w'.store ≠ w.store →
        ∃ v, v.thread = t ∧ v.isServed = true ∧ w'.visits = w.visits ++ [v])) ∧
    (d.store.pending = [] → (∀ v ∈ w.visits, v.errand.BringsCommand d.store.delimiter) →
      w.store.pending = [] ∧ w.store.ring = d.store.ring.ingestAll w.commands ∧
      Shuffle (fun t => (w.visits.filter fun v => v.thread = t).filterMap Visit.wrote)
        (w.commands.map Command.bytes)) := by
  have ho : Orderly w := (Orderly.start d).reaches h
  obtain rfl : w.device = d := device_of_reaches h
  refine ⟨?_, ?_, ?_, ?_, ?_⟩
  · intro order hserved hdone
    exact ho.inTurn hserved hdone
  · rcases ho.order with ⟨t, ht, horder⟩ | ⟨-, horder⟩
    · exact .inr ⟨t, Guard.State.mem_held.mpr (.inl ht.2), horder⟩
    · exact .inl horder
  · intro v hv
    exact ho.interrupted hv
  · intro t move w' hs
    constructor
    · intro v hvisits hv
      exact ho.refused hs hvisits hv
    · exact ho.served_of_store_ne hs
  · intro hempty hcommand
    obtain ⟨hcommands, hpending⟩ := ho.commands_eq hempty hcommand
    refine ⟨hpending, ?_, ?_⟩
    · rw [ho.store_eq_absorb]
      rfl
    · rw [hcommands]
      exact shuffle_filterMap Visit.thread Visit.wrote w.visits

/-- One thread has raised its own signal and asks how much waits, while another, which was
admitted before, writes a command. -/
theorem serializable_of_two_threads :
    let d := Device.start ⟨1, 10, .discard⟩ (by decide)
    ∃ w : Traffic Bool Unit, (start d).Reaches w ∧
      w.visits.map (fun v => (v.thread, v.errand.chunk, v.fate)) =
        [(true, none, .refused true), (false, some [97, 10], .served)] ∧
      d.inTurn ((w.visits.filter Visit.isDone).map Visit.errand) =
        ((w.visits.filter Visit.isDone).map Visit.receipt, { d with store := w.store }) ∧
      (∀ v ∈ w.visits, v.isDone = false → v.errand.Interrupted v.receipt) ∧
      Shuffle (fun t => (w.visits.filter fun v => v.thread = t).filterMap Visit.wrote)
        (w.commands.map Command.bytes) := by
  intro d
  let raises : List (Bool × Move Unit) := (true, .raise ()) :: List.replicate 4 (true, .advance)
  let enters : List (Bool × Move Unit) :=
    (false, .begin () (.write (.memory [97, 10]) .unlimited)) ::
      List.replicate 4 (false, .advance)
  let asks : List (Bool × Move Unit) :=
    (true, .begin () .pendingLength) :: List.replicate 7 (true, .advance)
  let writes : List (Bool × Move Unit) := List.replicate 3 (false, .advance)
  have hrun : ((start d).run (raises ++ enters ++ asks ++ writes)).map
      (fun w => w.visits.map fun v => (v.thread, v.errand.chunk, v.fate)) =
        some [(true, none, .refused true), (false, some [97, 10], .served)] := by
    decide +kernel
  obtain ⟨w, hw, hvisits⟩ := Option.map_eq_some_iff.mp hrun
  have h := reaches_of_run hw
  obtain ⟨horder, -, hinterrupted, -, hshuffle⟩ := serializable d h
  have hcommand : ∀ v ∈ w.visits, v.errand.BringsCommand 10 := by
    intro v hv bytes hbytes
    have hmem := List.mem_map_of_mem (f := fun v => (v.thread, v.errand.chunk, v.fate)) hv
    rw [hvisits, Option.mem_def.mp hbytes] at hmem
    simp at hmem
    exact ⟨[97], by rw [hmem.2.1]; rfl, by decide⟩
  refine ⟨w, h, hvisits, ?_, fun v hv => (hinterrupted v hv).2, (hshuffle rfl hcommand).2.2⟩
  exact horder _ (filter_isServed_filter_isDone w.visits) (List.Perm.refl _)

end Traffic

end Spool
