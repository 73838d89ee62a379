import DiagnosticLog.Script.Flat
import DiagnosticLog.Session

/-! Runs in which units take turns: in its turn a unit makes one call on the engine, or runs a whole
program of logger calls. -/

namespace DiagnosticLog

inductive Turn where
  | step (step : Step)
  | program (worker : Nat) (kind : LoggerKind) (script : Script)

/-- The engine calls of a turn at a verbosity. -/
def Turn.steps (verbosity : Int) : Turn → List Step
  | .step st => [st]
  | .program worker kind script =>
    (script.flatten kind verbosity).2.map fun timed => ⟨worker, timed⟩

/-- The receipts of the calls that an event tells of. -/
def Event.receipts : Event → List Receipt
  | .made _ receipts _ => receipts
  | _ => []

namespace Session

/-- Let a unit take its turn. -/
def turn (s : Session) : Turn → List Receipt × Session
  | .step st =>
    let (receipt, s) := s.step st
    ([receipt], s)
  | .program worker kind script =>
    let (events, s) := s.act worker [] (script.runUnit kind)
    (events.flatMap Event.receipts, s)

/-- Turns one after the other. -/
def turns (s : Session) (ts : List Turn) : List Receipt × Session :=
  let (receipts, s) := inTurn turn s ts
  (receipts.flatten, s)

end Session

end DiagnosticLog
