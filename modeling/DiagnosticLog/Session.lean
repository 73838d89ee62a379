import DiagnosticLog.Bench

/-! Runs of a program: the calls of all its units, in the order in which they reach the engine. -/

namespace DiagnosticLog

/-- A call of one of the units, which are numbered from zero. -/
structure Step where
  worker : Nat
  timed : Timed EngineCall
  deriving DecidableEq

structure Session where
  engine : Engine
  workers : List Worker

namespace Session

/-- Let a unit do something at the engine; a unit that does not exist does nothing. -/
def act {α : Type} (s : Session) (worker : Nat) (idle : α) (deed : Bench → α × Bench) :
    α × Session :=
  match s.workers[worker]? with
  | none => (idle, s)
  | some w =>
    let (answer, bench) := deed ⟨s.engine, w⟩
    (answer, { engine := bench.engine, workers := s.workers.set worker bench.worker })

/-- Make one call. -/
def step (s : Session) (step : Step) : Receipt × Session :=
  s.act step.worker .done fun b => b.perform step.timed.now step.timed.call

/-- Make calls one after the other. -/
def run (s : Session) (steps : List Step) : List Receipt × Session :=
  inTurn step s steps

end Session

end DiagnosticLog
