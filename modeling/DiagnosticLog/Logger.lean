import DiagnosticLog.Bench

/-! Loggers, which is what the code at work holds. A call below the verbosity does nothing at
all. The logger of a file also shows the trail of its unit and associates its diagnostics with
it. -/

namespace DiagnosticLog

/-- A logger for work that belongs to no file, or the logger of one file. -/
inductive LoggerKind where
  | plain | file
  deriving DecidableEq

/-- An element a diagnostic can be about: where it is, in words and as a stored location. -/
structure Element where
  place : String
  location : Except Failure Label
  deriving DecidableEq

/-- The calls of a logger; those that raise a diagnostic know the site from which they are made.
-/
inductive LoggerCall where
  | trace (text : String)
  | debug (text : String)
  | info (text : String)
  | warn (text : String) (site : Origin)
  | error (text : String) (site : Origin)
  | traceCause (text : String) (cause : ErrorChain)
  | warnCause (text : String) (cause : ErrorChain) (site : Origin)
  | errorCause (text : String) (cause : ErrorChain) (site : Origin)
  | report (severity : Severity) (text : String) (extra : Option String) (site : Origin)
  | warnAbout (text : String) (element : Element) (site : Origin)
  | errorAbout (text : String) (element : Element) (site : Origin)
  | flush
  deriving DecidableEq

/-- Write a message if its level is let through. -/
def Bench.note (b : Bench) (now : String) (level : Level) (text : String) : Receipt × Bench :=
  if b.allows level then b.log now level text else (.done, b)

namespace LoggerKind

/-- Whether diagnostics are raised with the state of the unit. -/
def hasState : LoggerKind → Bool
  | .plain => false
  | .file => true

/-- Raise a diagnostic about no element in particular. -/
def emit (kind : LoggerKind) (b : Bench) (now : String) (severity : Severity) (text : String)
    (extra : Option String) (site : Origin) : Receipt × Bench :=
  if b.allows severity.level then
    b.diagnostic now { severity, message := text, extra, origin := some site } .unknown
      kind.hasState
  else (.done, b)

/-- Raise a diagnostic about an element; the element is not looked at below the verbosity. -/
def emitAbout (kind : LoggerKind) (b : Bench) (now : String) (severity : Severity) (text : String)
    (element : Element) (site : Origin) : Receipt × Bench :=
  if b.allows severity.level then
    b.diagnostic now
      { severity, message := text, origin := some site, place := some element.place }
      (.resolved element.location) kind.hasState
  else (.done, b)

def perform (kind : LoggerKind) (b : Bench) (now : String) : LoggerCall → Receipt × Bench
  | .trace text => b.note now .trace text
  | .debug text => b.note now .debug text
  | .info text => b.note now .info text
  | .warn text site => kind.emit b now .warn text none site
  | .error text site => kind.emit b now .error text none site
  | .traceCause text cause => b.note now .trace (text ++ "\n" ++ cause.text)
  | .warnCause text cause site => kind.emit b now .warn text (some cause.text) site
  | .errorCause text cause site => kind.emit b now .error text (some cause.text) site
  | .report severity text extra site => kind.emit b now severity text extra site
  | .warnAbout text element site => kind.emitAbout b now .warn text element site
  | .errorAbout text element site => kind.emitAbout b now .error text element site
  | .flush => b.flush

/-- Calls one after the other. -/
def performAll (kind : LoggerKind) (b : Bench) (calls : List (Timed LoggerCall)) :
    List Receipt × Bench :=
  inTurn (fun b c => kind.perform b c.now c.call) b calls

end LoggerKind

end DiagnosticLog
