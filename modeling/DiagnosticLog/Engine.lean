import DiagnosticLog.Context
import DiagnosticLog.LogStream
import DiagnosticLog.Message
import DiagnosticLog.Report
import DiagnosticLog.Tally
import DiagnosticLog.Trap.Writer

/-! The engine that all units of a run share: it owns the counts of the call sites and the log
stream. A report goes through five stages: it is counted and may be held back; its body is put
together; its location is looked up; its records are stored; its line is written to the log. A
stage that fails ends the call, and what the stages before it did stays done. -/

namespace DiagnosticLog

structure Engine where
  settings : Settings
  tally : Tally
  stream : LogStream

/-- A way to find the location of a report, which may store records while it looks. -/
abbrev Locator := TrapWriter → Except Failure Label × TrapWriter

/-- Whether a report goes out, and with which notice. -/
inductive Admission where
  | heldBack
  | goesOut (notice : Option String)
  deriving DecidableEq

/-- What one call did, as its caller can tell. -/
structure Receipt where
  result : Except LogError Unit
  /-- Whether the location was asked for. -/
  located : Bool := false
  /-- The message whose line the log has taken. -/
  line : Option Message := none
  deriving DecidableEq

/-- A receipt, and all that the call may have changed. -/
structure Outcome where
  receipt : Receipt
  engine : Engine
  trap : TrapWriter
  state : Option UnitState

namespace Engine

def ofStream (settings : Settings) (stream : LogStream) : Engine :=
  { settings, tally := { limit := settings.limit }, stream }

/-- The engine that settings ask for, when their directory is as given. -/
def ofSettings (settings : Settings) (directory : Directory)
    (names : LogStream.NamePicker := .counting) : Except LogError Engine :=
  match LogStream.ofSettings settings directory names with
  | .error e => .error e
  | .ok stream => .ok (ofStream settings stream)

/-- How often a call site was counted, held back reports among them. -/
def occurrences (e : Engine) (key : Tally.Key) : Nat := e.tally.count key

/-! ### The log stream -/

/-- Write the line of a message to the log. -/
def writeLine (e : Engine) (message : Message) : Except LogError Unit × Engine :=
  let (result, stream) := e.stream.write (Utf8.encode (message.jsonLine e.settings.origin))
  (result.mapError .stream, { e with stream })

def flush (e : Engine) : Except LogError Unit × Engine :=
  let (result, stream) := e.stream.flush
  (result.mapError .stream, { e with stream })

/-- Flush the log and give it up. -/
def close (e : Engine) : Except LogError Unit × Engine :=
  let (result, e) := e.flush
  (result, { e with stream := e.stream.release })

/-- Give the log up without a flush of its own. -/
def release (e : Engine) : Engine := { e with stream := e.stream.release }

/-- The last stage of every call: the line of a message. -/
def finish (e : Engine) (message : Message) (located : Bool) (trap : TrapWriter)
    (state : Option UnitState) : Outcome :=
  match e.writeLine message with
  | (.ok (), e) => ⟨{ result := .ok (), located, line := some message }, e, trap, state⟩
  | (.error cause, e) => ⟨{ result := .error cause, located }, e, trap, state⟩

/-! ### Plain messages -/

/-- Store a message as a comment and write its line. Neither verbosity nor limit applies. -/
def log (e : Engine) (now : String) (level : Level) (text : String) (trap : TrapWriter) : Outcome :=
  let message : Message := ⟨level.kind, text, now⟩
  match trap.writeComment message.plain with
  | (.error cause, trap) => ⟨{ result := .error (.trap cause) }, e, trap, none⟩
  | (.ok (), trap) => e.finish message false trap none

/-! ### Diagnostics -/

/-- Count a report and decide about it; a report without a call site is not counted. -/
def screen (e : Engine) (r : Report) : Admission × Engine :=
  match r.origin with
  | none => (.goesOut (some Report.missingCallerNotice), e)
  | some origin =>
    let (verdict, tally) := e.tally.record ⟨origin, r.severity⟩
    let admission : Admission := match verdict with
      | .normal => .goesOut none
      | .limitReached => .goesOut (some (Report.limitNotice origin))
      | .suppressed => .heldBack
    (admission, { e with tally })

/-- Number a stored diagnostic among those of its unit. The number is used up even if it could not
be stored. -/
def associate (trap : TrapWriter) (state : UnitState) (diagnostic : Label) :
    Except Failure Unit × TrapWriter × UnitState :=
  let (sequence, state) := state.nextNumber
  let (result, trap) := trap.writeAssociation
    ⟨diagnostic, AssociationRow.compilation, state.fileNumber, sequence⟩
  (result, trap, state)

/-- The record of a report. -/
def row (e : Engine) (now : String) (r : Report) (body : String) (id location : Label) :
    DiagnosticRow :=
  { id, origin := e.settings.origin, rank := r.severity.rank, category := "",
    message := r.message, full := now ++ " " ++ body, location }

/-- Store the records of a report under a fresh label. -/
def store (e : Engine) (now : String) (r : Report) (body : String) (location : Label)
    (trap : TrapWriter) (state : Option UnitState) :
    Except Failure Unit × TrapWriter × Option UnitState :=
  let (id, trap) := trap.freshLabel
  match trap.writeDiagnostic (e.row now r body id location) with
  | (.error cause, trap) => (.error cause, trap, state)
  | (.ok (), trap) =>
    match state with
    | none => (.ok (), trap, none)
    | some state =>
      let (result, trap, state) := associate trap state id
      (result, trap, some state)

/-- The stages of a report that goes out, once its body is put together: its location, its records
and its line. -/
def emit (e : Engine) (now : String) (r : Report) (body : String) (locate : Locator)
    (trap : TrapWriter) (state : Option UnitState) : Outcome :=
  match locate trap with
  | (.error cause, trap) =>
    ⟨{ result := .error (.trap cause), located := true }, e, trap, state⟩
  | (.ok location, trap) =>
    match e.store now r body location trap state with
    | (.error cause, trap, state) =>
      ⟨{ result := .error (.trap cause), located := true }, e, trap, state⟩
    | (.ok (), trap, state) =>
      e.finish ⟨r.severity.tag, r.heading ++ body, now⟩ true trap state

/-- Raise a diagnostic, unless its call site has had its share. With a state the diagnostic shows
the trail of the unit and is associated with it. -/
def diagnostic (e : Engine) (now : String) (r : Report) (locate : Locator) (trap : TrapWriter)
    (state : Option UnitState) : Outcome :=
  match e.screen r with
  | (.heldBack, e) => ⟨{ result := .ok () }, e, trap, state⟩
  | (.goesOut notice, e) =>
    e.emit now r (r.body (UnitState.trailLines state) notice) locate trap state

end Engine

end DiagnosticLog
