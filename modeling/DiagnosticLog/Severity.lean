/-! How bad a diagnostic is, on a scale of eight ranks, and the verbosity a log must have before a
call is let through. The three lowest ranks are warnings, the other five are errors. -/

namespace DiagnosticLog

/-- The levels of log calls, from the one that passes most easily to the chattiest. -/
inductive Level where
  | error | warn | info | debug | trace
  deriving DecidableEq

namespace Level

/-- Every level, the most urgent first. -/
def all : List Level := [.error, .warn, .info, .debug, .trace]

def name : Level → String
  | .error => "Error"
  | .warn => "Warn"
  | .info => "Info"
  | .debug => "Debug"
  | .trace => "Trace"

/-- The kind written into the lines of this level. -/
def kind : Level → String
  | .error => "ERROR"
  | .warn => "WARN"
  | .info => "INFO"
  | .debug => "DEBUG"
  | .trace => "TRACE"

/-- The least verbosity at which calls of this level are written. -/
def requiredVerbosity : Level → Int
  | .error => 1
  | .warn => 2
  | .info => 3
  | .debug | .trace => 4

/-- Whether a log of the given verbosity writes calls of this level. -/
def allowedAt (level : Level) (verbosity : Int) : Bool :=
  decide (level.requiredVerbosity ≤ verbosity)

end Level

/-- How severe a diagnostic is. -/
inductive Severity where
  | warnLow | warn | warnHigh | errorLow | error | errorHigh | errorSevere | errorGlobal
  deriving DecidableEq, Hashable

namespace Severity

/-- Every severity in the order of the ranks. -/
def all : List Severity :=
  [.warnLow, .warn, .warnHigh, .errorLow, .error, .errorHigh, .errorSevere, .errorGlobal]

/-- The rank stored in diagnostic records. -/
def rank : Severity → Nat
  | .warnLow => 1
  | .warn => 2
  | .warnHigh => 3
  | .errorLow => 4
  | .error => 5
  | .errorHigh => 6
  | .errorSevere => 7
  | .errorGlobal => 8

def ofRank? (rank : Nat) : Option Severity :=
  all.find? fun s => s.rank == rank

/-- Severities are ordered by rank. -/
instance : LE Severity := ⟨fun s t => s.rank ≤ t.rank⟩

instance : DecidableLE Severity := fun s t => inferInstanceAs (Decidable (s.rank ≤ t.rank))

instance : Min Severity := minOfLe

instance : Max Severity := maxOfLe

/-- The severities in ascending order. -/
def sort (severities : List Severity) : List Severity :=
  severities.mergeSort fun s t => decide (s ≤ t)

def name : Severity → String
  | .warnLow => "WarnLow"
  | .warn => "Warn"
  | .warnHigh => "WarnHigh"
  | .errorLow => "ErrorLow"
  | .error => "Error"
  | .errorHigh => "ErrorHigh"
  | .errorSevere => "ErrorSevere"
  | .errorGlobal => "ErrorGlobal"

/-- A severity as shown to a reader: its name and its rank. -/
def text (s : Severity) : String :=
  s.name ++ "(" ++ toString s.rank ++ ")"

def isWarning (s : Severity) : Bool :=
  decide (s.rank ≤ Severity.warnHigh.rank)

/-- The level a diagnostic of this severity is gated on. -/
def level (s : Severity) : Level :=
  if s.isWarning then .warn else .error

/-- The kind of the log lines of this severity. -/
def tag (s : Severity) : String :=
  s.level.kind

end Severity

end DiagnosticLog
