import DiagnosticLog.Text.JsonString

/-! A log message and its two written forms: a plain line for people and a line of JSON for
tools. -/

namespace DiagnosticLog

structure Message where
  kind : String
  text : String
  /-- When the message was made. -/
  stamp : String
  deriving DecidableEq

namespace Message

/-- The form written as a comment. -/
def plain (m : Message) : String :=
  "[" ++ m.stamp ++ " K] [" ++ m.kind ++ "] " ++ m.text

/-- A member of a JSON object. -/
def member (key value : String) : String :=
  "\"" ++ key ++ "\": \"" ++ JsonString.escape value ++ "\""

/-- The form written to the log, without the newline that ends it. -/
def json (m : Message) (origin : String) : String :=
  "\x7b " ++ member "origin" origin ++ ", " ++ member "timestamp" m.stamp ++ ", " ++
    member "kind" m.kind ++ ", " ++ member "message" m.text ++ " \x7d"

/-- The line written to the log. -/
def jsonLine (m : Message) (origin : String) : String :=
  m.json origin ++ "\n"

end Message

end DiagnosticLog
