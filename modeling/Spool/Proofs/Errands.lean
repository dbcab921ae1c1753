import Spool.Proofs.Runs
import Spool.Proofs.Shuffles

/-!
# Errands

An `Errand` is a call on a device as its caller sees it: a write, a read, or one of the
questions that can be asked. As a `Plan` it has a part that is done before the guard is
asked for and one that is done under the guard (`Errand.plan`); done alone, it is a call of
the device (`Device.serve`, `Device.serve_eq_run`). It leaves the device that has absorbed
what it had taken (`Errand.state_serve`), and that is all or nothing of a command
(`Errand.taken_serve`). Only an errand that is turned away at the guard is answered that it
was interrupted, and it gets back what it came with (`Errand.interrupted_of_refused`,
`Errand.fault_of_done`, `Errand.fault_of_body`).
-/

namespace Spool

/-- A call on a device. -/
inductive Errand where
  /-- Write the bytes of `source`. -/
  | write (source : Source) (quota : Quota)
  /-- Read at most `count` bytes at `position` into `sink`. -/
  | read (position : Nat) (sink : Sink) (count : Nat)
  /-- Ask for the length of the stream. -/
  | logicalLength
  /-- Ask for the number of bytes that wait for a delimiter. -/
  | pendingLength
  /-- Ask for the live commands. -/
  | liveCommands
  /-- Ask for the offset of a byte of a live command. -/
  | commandOffset (index within : Nat)

/-- What a caller gets. -/
inductive Receipt where
  /-- The answer to a write. -/
  | written (w : Written)
  /-- The answer to a read, with the position and the caller's memory afterwards. -/
  | delivered (d : Delivered)
  /-- A number. -/
  | number (r : Except Fault Nat)
  /-- Byte strings, in order. -/
  | pieces (r : Except Fault (List Bytes))
  /-- An offset, if there is one and it is a word. -/
  | offset (r : Except Fault (Except Overflow (Option Nat)))

/-- The fault of a result, if it is one. -/
def faultOf {α : Type} : Except Fault α → Option Fault
  | .ok _ => none
  | .error f => some f

/-- The fault that a caller is told of, if there is one. -/
def Receipt.fault : Receipt → Option Fault
  | written w => faultOf w.result
  | delivered d => faultOf d.result
  | number r => faultOf r
  | pieces r => faultOf r
  | offset r => faultOf r

namespace Plan

variable {σ ρ τ : Type}

/-- The plan with its answers changed by `f`. -/
def map (f : ρ → τ) : Plan σ ρ → Plan σ τ
  | done answer records => .done (f answer) records
  | guarded records refusal body =>
    .guarded records (f refusal) fun s =>
      let e := body s
      ⟨f e.answer, e.state, e.records⟩

theorem run_map (f : ρ → τ) (plan : Plan σ ρ) (admission : Admission) (s : σ) :
    (plan.map f).run admission s =
      ⟨f (plan.run admission s).answer, (plan.run admission s).state,
        (plan.run admission s).records⟩ := by
  cases plan with
  | done => rfl
  | guarded => cases admission <;> rfl

end Plan

namespace Errand

/-- What an errand does before it asks for the guard, and what it does then. -/
def plan (trailing : Trailing) : Errand → Plan Store Receipt
  | write source q => (writePlan trailing source q).map .written
  | read position sink count => (readPlan position sink count).map .delivered
  | logicalLength => (inspectPlan fun s => Stream.size s.live).map .number
  | pendingLength => (inspectPlan fun s => s.pending.length).map .number
  | liveCommands => (inspectPlan fun s => s.live.map Command.bytes).map .pieces
  | commandOffset index within =>
    (inspectPlan fun s => Stream.offsetOf s.live index within).map .offset

end Errand

namespace Device

/-- Do an errand while nobody else does one: the receipt, and the device afterwards. -/
def serve (d : Device) : Errand → Receipt × Device
  | .write source q =>
    let e := d.write source q .granted
    (.written e.answer, e.state)
  | .read position sink count =>
    let e := d.read position sink count .granted
    (.delivered e.answer, e.state)
  | .logicalLength => (.number (d.logicalLength .granted).answer, (d.logicalLength .granted).state)
  | .pendingLength => (.number (d.pendingLength .granted).answer, (d.pendingLength .granted).state)
  | .liveCommands => (.pieces (d.liveCommands .granted).answer, (d.liveCommands .granted).state)
  | .commandOffset index within =>
    let e := d.commandOffset index within .granted
    (.offset e.answer, e.state)

/-- An errand done alone is its plan carried out by a caller who is admitted. -/
theorem serve_eq_run (d : Device) (errand : Errand) :
    d.serve errand =
      let e := (errand.plan d.config.trailing).run .granted d.store
      (e.answer, { d with store := e.state }) := by
  cases errand with
  | write source q =>
    simp only [Errand.plan, Plan.run_map]
    rfl
  | read position sink count =>
    simp only [Errand.plan, Plan.run_map]
    rfl
  | logicalLength | pendingLength | liveCommands | commandOffset => rfl

/-- Do errands one after another: the receipts, and the device in the end. -/
def inTurn (d : Device) : List Errand → List Receipt × Device
  | [] => ([], d)
  | errand :: rest =>
    let (receipt, d) := d.serve errand
    let (receipts, d) := inTurn d rest
    (receipt :: receipts, d)

theorem inTurn_cons_iff {d d' : Device} {errand : Errand} {rest : List Errand} {receipt : Receipt}
    {receipts : List Receipt} :
    d.inTurn (errand :: rest) = (receipt :: receipts, d') ↔
      (d.serve errand).1 = receipt ∧ (d.serve errand).2.inTurn rest = (receipts, d') := by
  rw [inTurn, Prod.mk.injEq, List.cons.injEq, Prod.ext_iff, and_assoc]

theorem inTurn_concat {d d' : Device} {errands : List Errand} {receipts : List Receipt}
    (h : d.inTurn errands = (receipts, d')) (errand : Errand) :
    d.inTurn (errands ++ [errand]) = (receipts ++ [(d'.serve errand).1], (d'.serve errand).2) := by
  induction errands generalizing d receipts with
  | nil =>
    cases h
    rfl
  | cons first rest ih =>
    cases receipts with
    | nil => cases h
    | cons receipt receipts =>
      obtain ⟨hfirst, hrest⟩ := inTurn_cons_iff.mp h
      exact inTurn_cons_iff.mpr ⟨hfirst, ih hrest⟩

end Device

/-! ### What an errand leaves in the store -/

namespace Errand

/-- The bytes that an errand has had taken, given what its caller got. -/
def taken : Errand → Receipt → Bytes
  | write source _, .written w =>
    match w.result with
    | .ok n => source.contents.take n
    | .error _ => []
  | _, _ => []

/-- The chunk that an errand brings, if it is a write whose copy does not fault. -/
def chunk : Errand → Option Bytes
  | write source _ => source.chunk
  | _ => none

/-- The chunk that an errand has written, if it is a write that succeeded. -/
def wrote (errand : Errand) : Receipt → Option Bytes
  | .written w =>
    match w.result with
    | .ok _ => errand.chunk
    | .error _ => none
  | _ => none

/-- The chunk that an errand brings is one command, if it brings one. -/
def BringsCommand (d : UInt8) (errand : Errand) : Prop :=
  ∀ chunk ∈ errand.chunk, IsCommand d chunk

/-- **An errand leaves the device that has absorbed what was taken.** -/
theorem state_serve (d : Device) (errand : Errand) :
    (d.serve errand).2 = d.absorb (errand.taken (d.serve errand).1) := by
  cases errand with
  | write source q =>
    rw [Device.serve, taken]
    obtain ⟨n, -, hres, hstate⟩ | ⟨⟨f, hres⟩, hstate⟩ := d.write_spec source q .granted
    · rw [hres]
      exact hstate
    · rw [hres]
      exact hstate
  | read position sink count => exact d.state_read position sink count .granted
  | logicalLength | pendingLength | liveCommands | commandOffset => exact d.state_inspect _ .granted

theorem eq_zero_of_write (d : Device) {source : Source} {q : Quota} {n : Nat}
    (hc : source.chunk = none) (h : (d.write source q .granted).answer.result = .ok n) :
    n = 0 := by
  obtain ⟨answer, records, hplan, hres⟩ | ⟨chunk, left, hchunk, -⟩ :=
    writePlan_cases d.config.trailing source q
  · rw [Device.write, Device.perform, hplan] at h
    obtain hres | ⟨f, hres, -⟩ := hres
    · exact (Except.ok.inj (hres.symm.trans h)).symm
    · cases hres.symm.trans h
  · rw [hc] at hchunk
    cases hchunk

/-- **A write of a command has all of it taken**, or nothing. -/
theorem taken_serve (d : Device) {errand : Errand} (h : errand.BringsCommand d.store.delimiter) :
    errand.taken (d.serve errand).1 = (errand.wrote (d.serve errand).1).getD [] := by
  cases errand with
  | write source q =>
    rw [Device.serve, taken, wrote, chunk]
    cases hres : (d.write source q .granted).answer.result with
    | error f => rfl
    | ok n =>
      cases hc : source.chunk with
      | none =>
        rw [eq_zero_of_write d hc hres]
        rfl
      | some chunk =>
        obtain ⟨htake, hsize⟩ := Source.eq_take_of_chunk hc
        rw [d.length_eq_of_write hc (h chunk hc) hres, hsize]
        exact htake.symm
  | read | logicalLength | pendingLength | liveCommands | commandOffset => rfl

theorem chunk_of_wrote {errand : Errand} {receipt : Receipt} {bytes : Bytes}
    (h : errand.wrote receipt = some bytes) : errand.chunk = some bytes := by
  unfold wrote at h
  split at h
  · split at h
    · exact h
    · cases h
  · cases h

theorem wrote_of_chunk_eq_none {errand : Errand} (receipt : Receipt) (h : errand.chunk = none) :
    errand.wrote receipt = none := by
  cases hw : errand.wrote receipt with
  | none => rfl
  | some bytes =>
    rw [chunk_of_wrote hw] at h
    cases h

theorem wrote_of_done {trailing : Trailing} {errand : Errand} {receipt : Receipt}
    {records : List Record} {d : UInt8} (h : errand.BringsCommand d)
    (hplan : errand.plan trailing = .done receipt records) : errand.wrote receipt = none := by
  cases hc : errand.chunk with
  | none => exact wrote_of_chunk_eq_none receipt hc
  | some bytes =>
    have hne := (h bytes hc).ne_nil
    cases errand with
    | write source q =>
      cases hq : q.grow bytes.length with
      | ok left =>
        rw [plan, writePlan_copied trailing hc hne hq] at hplan
        cases hplan
      | error e =>
        rw [plan, writePlan_refused hc hne hq] at hplan
        cases hplan
        rfl
    | _ => cases hc

theorem wrote_of_fault {errand : Errand} {receipt : Receipt} {f : Fault}
    (h : receipt.fault = some f) : errand.wrote receipt = none := by
  cases receipt with
  | written w =>
    rw [Receipt.fault] at h
    rw [wrote]
    cases hres : w.result with
    | ok n =>
      rw [hres] at h
      cases h
    | error e => rfl
  | _ => rfl

end Errand

/-! ### Interruption -/

namespace Errand

variable {trailing : Trailing} {errand : Errand} {receipt : Receipt} {records : List Record}
  {body : Store → Effect Store Receipt}

/-- The receipt tells of an interruption and gives back what the errand came with: a read
has its position and its memory as they were. -/
def Interrupted (errand : Errand) (receipt : Receipt) : Prop :=
  receipt.fault = some .interrupted ∧
    ∀ position sink count, errand = .read position sink count →
      receipt = .delivered ⟨.error .interrupted, position, sink⟩

/-- **An errand that is turned away at the guard is interrupted.** -/
theorem interrupted_of_refused (h : errand.plan trailing = .guarded records receipt body) :
    errand.Interrupted receipt := by
  cases errand with
  | write source q =>
    obtain ⟨answer, _, hplan, -⟩ | ⟨chunk, left, -, -, -, hplan⟩ :=
      writePlan_cases trailing source q
    · rw [plan, hplan] at h
      cases h
    · rw [plan, hplan] at h
      cases h
      exact ⟨rfl, fun _ _ _ e => by cases e⟩
  | read position sink count =>
    rw [plan, readPlan] at h
    split at h
    · cases h
    · cases h
      exact ⟨rfl, fun _ _ _ e => by cases e; rfl⟩
  | logicalLength | pendingLength | liveCommands | commandOffset =>
    cases h
    exact ⟨rfl, fun _ _ _ e => by cases e⟩

theorem fault_of_done (h : errand.plan trailing = .done receipt records) :
    receipt.fault ≠ some .interrupted := by
  cases errand with
  | write source q =>
    obtain ⟨answer, _, hplan, hres⟩ | ⟨chunk, left, -, -, -, hplan⟩ :=
      writePlan_cases trailing source q
    · rw [plan, hplan] at h
      cases h
      obtain hres | ⟨f, hres, hne⟩ := hres
      · simp [Receipt.fault, hres, faultOf]
      · simpa [Receipt.fault, hres, faultOf] using hne
    · rw [plan, hplan] at h
      cases h
  | read position sink count =>
    rw [plan, readPlan] at h
    split at h
    · cases h
      exact fun e => by cases e
    · cases h
  | logicalLength | pendingLength | liveCommands | commandOffset => cases h

theorem fault_of_body (h : errand.plan trailing = .guarded records receipt body) (s : Store) :
    (body s).answer.fault ≠ some .interrupted := by
  cases errand with
  | write source q =>
    obtain ⟨answer, _, hplan, -⟩ | ⟨chunk, left, -, -, -, hplan⟩ :=
      writePlan_cases trailing source q
    · rw [plan, hplan] at h
      cases h
    · rw [plan, hplan] at h
      cases h
      obtain ⟨n, -, hres, -⟩ | ⟨hres, -⟩ := feeding_spec trailing chunk left s
      · simp [Receipt.fault, hres, faultOf]
      · simp [Receipt.fault, hres, faultOf]
  | read position sink count =>
    rw [plan, readPlan] at h
    split at h
    · cases h
    · cases h
      simp only [Receipt.fault]
      split
      · simp [faultOf]
      · split <;> simp [faultOf, Cause.fault]
  | logicalLength | pendingLength | liveCommands | commandOffset =>
    cases h
    simp [Receipt.fault, faultOf]

end Errand

end Spool
