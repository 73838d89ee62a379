import DiagnosticLog.Script

/-! The engine calls that a program of logger calls stands for, in one row: calls below the
verbosity are left out, and a body is its calls between the taking up and the taking off of its
frame. -/

namespace DiagnosticLog

namespace LoggerCall

/-- The level on which a call is let through; a flush is always made. -/
def level : LoggerCall → Option Level
  | .trace _ | .traceCause _ _ => some .trace
  | .debug _ => some .debug
  | .info _ => some .info
  | .warn _ _ | .warnCause _ _ _ | .warnAbout _ _ _ => some .warn
  | .error _ _ | .errorCause _ _ _ | .errorAbout _ _ _ => some .error
  | .report severity _ _ _ => some severity.level
  | .flush => none

/-- The engine call that a call makes when it is let through. -/
def engineCall (kind : LoggerKind) : LoggerCall → EngineCall
  | .trace text => .log .trace text
  | .debug text => .log .debug text
  | .info text => .log .info text
  | .traceCause text cause => .log .trace (text ++ "\n" ++ cause.text)
  | .warn text site => raise .warn text none site
  | .error text site => raise .error text none site
  | .warnCause text cause site => raise .warn text (some cause.text) site
  | .errorCause text cause site => raise .error text (some cause.text) site
  | .report severity text extra site => raise severity text extra site
  | .warnAbout text element site => raiseAbout .warn text element site
  | .errorAbout text element site => raiseAbout .error text element site
  | .flush => .flush
where
  raise (severity : Severity) (text : String) (extra : Option String) (site : Origin) :
      EngineCall :=
    .diagnostic ⟨severity, text, extra, some site, none⟩ .unknown (kind == .file)
  raiseAbout (severity : Severity) (text : String) (element : Element) (site : Origin) :
      EngineCall :=
    .diagnostic ⟨severity, text, none, some site, some element.place⟩ (.resolved element.location)
      (kind == .file)

/-- The engine calls, one or none, that a call makes at a verbosity. -/
def engineCalls (kind : LoggerKind) (verbosity : Int) (c : Timed LoggerCall) :
    List (Timed EngineCall) :=
  if c.call.level.all fun level => level.allowedAt verbosity then [⟨c.now, c.call.engineCall kind⟩]
  else []

end LoggerCall

namespace Script

/-- How a program ends, and the engine calls it makes until then. -/
def flatten (kind : LoggerKind) (verbosity : Int) : Script → Exit × List (Timed EngineCall)
  | .done => (.finished, [])
  | .calls cs rest =>
    let (exit, later) := rest.flatten kind verbosity
    (exit, cs.flatMap (LoggerCall.engineCalls kind verbosity) ++ later)
  | .look rest => rest.flatten kind verbosity
  | .within frame body rest =>
    let (inner, row) := body.flatten kind verbosity
    let whole := ⟨"", .enter frame⟩ :: row ++ [⟨"", .leave⟩]
    match inner with
    | .bailed => (.bailed, whole)
    | .finished | .left =>
      let (exit, later) := rest.flatten kind verbosity
      (exit, whole ++ later)
  | .guarded body rest =>
    let (_, row) := body.flatten kind verbosity
    let (exit, later) := rest.flatten kind verbosity
    (exit, row ++ later)
  | .leave => (.left, [])
  | .bail => (.bailed, [])

end Script

end DiagnosticLog
