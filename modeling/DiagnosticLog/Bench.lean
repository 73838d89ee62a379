import DiagnosticLog.Engine
import DiagnosticLog.Trap.Calls

/-! The calls that one unit of work makes on the engine it shares with others. A unit has its own
trap writer and its own state. -/

namespace DiagnosticLog

/-- Where the location of a report comes from. -/
inductive Place where
  /-- The unknown location of the unit's trap writer. -/
  | unknown
  /-- A fresh label of the unit's trap writer. -/
  | fresh
  /-- Whatever the one who is asked answers, after any calls on the unit's trap writer. -/
  | provided (calls : List TrapCall) (answer : Except Failure Label)
  deriving DecidableEq

/-- The place of an element, from the one who knows the element. -/
def Place.resolved (answer : Except Failure Label) : Place := .provided [] answer

def Place.locate : Place → Locator
  | .unknown => TrapWriter.unknownLocation
  | .fresh => fun trap =>
    let (label, trap) := trap.freshLabel
    (.ok label, trap)
  | .provided calls answer => fun trap => (answer, (trap.run calls).2)

/-- A call on the engine, or on the unit's own trap writer and state. -/
inductive EngineCall where
  | diagnostic (report : Report) (place : Place) (withState : Bool)
  | log (level : Level) (text : String)
  | enter (frame : Frame)
  | leave
  | flushTrap
  | flushLog
  /-- Flush the trap writer and then, if that went well, the log. -/
  | flush
  deriving DecidableEq

/-- A call and the time at which it is made. -/
structure Timed (α : Type) where
  now : String
  call : α
  deriving DecidableEq

/-- A unit of work. -/
structure Worker where
  trap : TrapWriter
  state : UnitState
  /-- How often someone else was asked for a location. -/
  resolved : Nat := 0

/-- An engine and the unit whose turn it is. -/
structure Bench where
  engine : Engine
  worker : Worker

/-- The receipt of a call that has nothing to write. -/
def Receipt.done : Receipt := { result := .ok () }

namespace Bench

/-- Whether the engine writes calls of a level. -/
def allows (b : Bench) (level : Level) : Bool := b.engine.settings.allows level

def depth (b : Bench) : Nat := b.worker.state.trail.length

def log (b : Bench) (now : String) (level : Level) (text : String) : Receipt × Bench :=
  let o := b.engine.log now level text b.worker.trap
  (o.receipt, { engine := o.engine, worker := { b.worker with trap := o.trap } })

/-- The state of the unit, for a call that passes it. -/
def stateIf (b : Bench) (withState : Bool) : Option UnitState :=
  if withState then some b.worker.state else none

/-- Take over what a diagnostic left behind. -/
def settle (b : Bench) (place : Place) (o : Outcome) : Receipt × Bench :=
  let resolved := match place with
    | .provided _ _ => b.worker.resolved + o.receipt.located.toNat
    | _ => b.worker.resolved
  (o.receipt,
    { engine := o.engine,
      worker := { trap := o.trap, state := o.state.getD b.worker.state, resolved } })

def diagnostic (b : Bench) (now : String) (report : Report) (place : Place) (withState : Bool) :
    Receipt × Bench :=
  b.settle place
    (b.engine.diagnostic now report place.locate b.worker.trap (b.stateIf withState))

def enter (b : Bench) (frame : Frame) : Bench :=
  { b with worker := { b.worker with state := b.worker.state.enter frame } }

def leave (b : Bench) : Bench :=
  { b with worker := { b.worker with state := b.worker.state.leave.2 } }

def flushTrap (b : Bench) : Receipt × Bench :=
  let (result, trap) := b.worker.trap.flush
  ({ result := result.mapError .trap }, { b with worker := { b.worker with trap } })

def flushLog (b : Bench) : Receipt × Bench :=
  let (result, engine) := b.engine.flush
  ({ result }, { b with engine })

def flush (b : Bench) : Receipt × Bench :=
  let (receipt, b) := b.flushTrap
  match receipt.result with
  | .ok () => b.flushLog
  | .error _ => (receipt, b)

def perform (b : Bench) (now : String) : EngineCall → Receipt × Bench
  | .diagnostic report place withState => b.diagnostic now report place withState
  | .log level text => b.log now level text
  | .enter frame => (.done, b.enter frame)
  | .leave => (.done, b.leave)
  | .flushTrap => b.flushTrap
  | .flushLog => b.flushLog
  | .flush => b.flush

/-- Calls one after the other. -/
def performAll (b : Bench) (calls : List (Timed EngineCall)) : List Receipt × Bench :=
  inTurn (fun b c => b.perform c.now c.call) b calls

end Bench

end DiagnosticLog
