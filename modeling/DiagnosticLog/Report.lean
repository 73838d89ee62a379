import DiagnosticLog.Origin
import DiagnosticLog.Severity
import DiagnosticLog.Text.Lines

/-! A diagnostic to be raised, and the texts made of it. -/

namespace DiagnosticLog

structure Report where
  severity : Severity
  /-- The short message, which is also stored on its own. -/
  message : String
  /-- Added to the body on a line of its own. -/
  extra : Option String := none
  /-- The call site; a report without one is never held back. -/
  origin : Option Origin := none
  /-- Where the element is that the report is about. -/
  place : Option String := none
  deriving DecidableEq

namespace Report

def missingCallerNotice : String := "    Missing caller information."

/-- Said by the last report that a call site may raise. -/
def limitNotice (origin : Origin) : String :=
  "    Limit reached for diagnostics from " ++ origin.text ++ "."

/-- The message and, below it, the extra text, the trail and the notice. -/
def body (r : Report) (trail : List String) (notice : Option String) : String :=
  Lines.join (r.message :: (r.extra.toList ++ trail ++ notice.toList))

/-- What a log line says before the body. -/
def heading (r : Report) : String :=
  "Diagnostic(" ++ Origin.shown r.origin ++ "): " ++
    match r.place with
    | none => ""
    | some place => "At " ++ place ++ ": "

end Report

end DiagnosticLog
