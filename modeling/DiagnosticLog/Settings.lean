import DiagnosticLog.Severity
import DiagnosticLog.Text.Blank
import DiagnosticLog.Text.Numeral

/-! The settings of a log, read once from named variables. A number that cannot be read leaves its
default in place; it is never an error. -/

namespace DiagnosticLog

structure Settings where
  verbosity : Int := 3
  /-- How many diagnostics one call site may raise; zero and less mean no limit. -/
  limit : Int := 100
  /-- Where a log file is made; without it the log goes to the standard output. -/
  logDirectory : Option String := none
  /-- Written into every log line and every diagnostic record. -/
  origin : String := "Extractor"
  deriving DecidableEq

namespace Settings

/-! ### Variables -/

def verbosityVariable : String := "EXLOG_VERBOSITY"
def limitVariable : String := "EXLOG_DIAGNOSTIC_LIMIT"
def directoryVariable : String := "EXLOG_LOG_DIR"

/-- Asks for a tree of traces, which is no part of the log. -/
def traceTreeVariable : String := "EXLOG_TRACE_TREE"

/-- Every variable a log knows of. -/
def variableNames : List String :=
  [verbosityVariable, limitVariable, directoryVariable, traceTreeVariable]

/-! ### Reading -/

/-- The number in the value of a variable, blanks around it allowed. -/
def number? (value : String) : Option Int :=
  Numeral.int64? (Blank.trim value.toList)

/-- The settings given by the values of the variables. An empty name of a directory counts as
unset. -/
def ofLookup (lookup : String → Option String) : Settings :=
  let defaults : Settings := {}
  { defaults with
    verbosity := ((lookup verbosityVariable).bind number?).getD defaults.verbosity
    limit := ((lookup limitVariable).bind number?).getD defaults.limit
    logDirectory := (lookup directoryVariable).filter fun directory => decide (directory ≠ "") }

/-- The settings given by an environment, whose values need not be text; a value that is not
counts as unset. -/
def ofEnvironment (environment : String → Option ByteArray) : Settings :=
  ofLookup fun name => (environment name).bind String.fromUTF8?

def withOrigin (s : Settings) (origin : String) : Settings :=
  { s with origin }

/-- Whether calls of a level are written. -/
def allows (s : Settings) (level : Level) : Bool :=
  level.allowedAt s.verbosity

end Settings

end DiagnosticLog
