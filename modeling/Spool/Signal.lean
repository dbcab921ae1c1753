import Spool.Record

/-!
# Signals and admission

A spool serves one caller at a time. A caller that finds it busy waits, and a
`Signal` raised for that caller ends the wait. `Admission` is how a request to be
served ended: a spool that is free admits a caller whatever its signal says; only
a caller that has to wait can be turned away. `Spool.Guard.Machine` describes the
waiting itself.
-/

namespace Spool

/-- What tells a waiting caller to give up. -/
structure Signal where
  /-- Whether it is raised. -/
  raised : Bool
  deriving DecidableEq

namespace Signal

/-- A signal that is down. -/
def lowered : Signal := ⟨false⟩

/-- One line about a signal. -/
def describe (s : Signal) : String := "Signal(raised=" ++ toString s.raised ++ ")"

end Signal

/-- How a request to be served ended. -/
inductive Admission where
  /-- The caller is served. -/
  | granted
  /-- The caller gave up waiting; its signal may have been up before it came. -/
  | refused (raisedBefore : Bool)
  deriving DecidableEq

/-- What is logged when a caller is turned away. -/
def Admission.records : Admission → List Record
  | granted => []
  | refused true => [.waitedRaised, .interrupted]
  | refused false => [.interrupted]

end Spool
