import DiagnosticLog.Logger

/-! Programs of one unit of work: calls of its logger, bodies that run inside a frame, and bodies
that stop what is thrown inside them. A body ends by itself, by a return, or because something
was thrown; its frame is taken off on each of the three ways. -/

namespace DiagnosticLog

inductive Script where
  | done
  /-- A run of calls. -/
  | calls (calls : List (Timed LoggerCall)) (rest : Script)
  /-- Look at the unit. -/
  | look (rest : Script)
  /-- Run a body with a frame on the trail. -/
  | within (frame : Frame) (body rest : Script)
  /-- Run a body and stop what it throws. -/
  | guarded (body rest : Script)
  /-- End the innermost body. -/
  | leave
  /-- End every body up to the innermost guard. -/
  | bail
  deriving DecidableEq

/-- How a body ended. -/
inductive Exit where
  | finished | left | bailed
  deriving DecidableEq

/-- What can be seen of a run, in the order in which it happens. Depths are those of the trail. -/
inductive Event where
  | made (calls : List (Timed LoggerCall)) (receipts : List Receipt) (after : Bench)
  | looked (worker : Worker)
  | entered (depth : Nat)
  | exited (depth : Nat)
  | bailed
  | caught (depth : Nat)

structure ScriptRun where
  exit : Exit
  events : List Event
  bench : Bench

namespace ScriptRun

/-- A run that follows on some events. -/
def after (r : ScriptRun) (events : List Event) : ScriptRun :=
  { r with events := events ++ r.events }

end ScriptRun

namespace Script

def run (kind : LoggerKind) : Script → Bench → ScriptRun
  | .done, b => ⟨.finished, [], b⟩
  | .calls cs rest, b =>
    let (receipts, b) := kind.performAll b cs
    (rest.run kind b).after [.made cs receipts b]
  | .look rest, b => (rest.run kind b).after [.looked b.worker]
  | .within frame body rest, b =>
    let b := b.enter frame
    let inner := body.run kind b
    let outside := inner.bench.leave
    let events := .entered b.depth :: inner.events
    match inner.exit with
    | .bailed => ⟨.bailed, events, outside⟩
    | .finished | .left => (rest.run kind outside).after (events ++ [.exited outside.depth])
  | .guarded body rest, b =>
    let inner := body.run kind b
    let stopped := match inner.exit with
      | .bailed => [Event.bailed]
      | .finished | .left => []
    (rest.run kind inner.bench).after (inner.events ++ stopped ++ [.caught inner.bench.depth])
  | .leave, b => ⟨.left, [], b⟩
  | .bail, b => ⟨.bailed, [], b⟩

/-- Run the program of a unit to its end, where nothing that is thrown goes further. -/
def runUnit (kind : LoggerKind) (s : Script) (b : Bench) : List Event × Bench :=
  let whole := s.run kind b
  let stopped := match whole.exit with
    | .bailed => [Event.bailed]
    | .finished | .left => []
  (whole.events ++ stopped, whole.bench)

end Script

end DiagnosticLog
