/-! What can go wrong while writing the two outputs, and the texts of the failures. -/

namespace DiagnosticLog

/-- The calls of a trap writer that can be refused before they do anything. -/
inductive RefusableCall where
  | unknownLocation | diagnostic | association | comment | flush
  deriving DecidableEq

/-- The name of a call in the text of its refusal. -/
def RefusableCall.name : RefusableCall → String
  | .unknownLocation => "unknown_location"
  | .diagnostic => "write_diagnostic"
  | .association => "write_diagnostic_for"
  | .comment => "write_comment"
  | .flush => "flush"

/-- Why a write, a flush or the search for a location failed. -/
inductive Failure where
  | diskFull
  | sinkClosed
  | flushRefused
  | refused (call : RefusableCall)
  | reported (text : String)
  deriving DecidableEq

def Failure.text : Failure → String
  | .diskFull => "disk full"
  | .sinkClosed => "sink closed"
  | .flushRefused => "flush refused"
  | .refused call => call.name ++ " refused"
  | .reported text => text

/-- An error with the errors that caused it, the outermost first. -/
structure ErrorChain where
  error : String
  causes : List String := []
  deriving DecidableEq

/-- Each cause stands on a line of its own. -/
def ErrorChain.text (e : ErrorChain) : String :=
  e.causes.foldl (fun text cause => text ++ "\ncaused by: " ++ cause) e.error

/-- Why no log file could be made in a directory. -/
inductive DirectoryFault where
  | missing | notDirectory
  deriving DecidableEq

/-- The failures a caller of the log sees. -/
inductive LogError where
  | stream (cause : Failure)
  | trap (cause : Failure)
  | createLogFile (directory : String) (cause : DirectoryFault)
  deriving DecidableEq

namespace LogError

/-- The text of an error without its cause. -/
def text : LogError → String
  | .stream _ => "failed to write to the log stream"
  | .trap _ => "failed to write a trap record"
  | .createLogFile directory _ => "failed to create a log file in `" ++ directory ++ "`"

/-- An error and its cause. -/
def chain : LogError → ErrorChain
  | .stream cause => ⟨text (.stream cause), [cause.text]⟩
  | .trap cause => ⟨text (.trap cause), [cause.text]⟩
  | .createLogFile directory cause => ⟨text (.createLogFile directory cause), []⟩

end LogError

/-- Results are compared case by case. -/
instance decidableEqExcept {α β : Type} [DecidableEq α] [DecidableEq β] : DecidableEq (Except α β)
  | .error _, .error _ => decidable_of_iff _ ⟨congrArg Except.error, Except.error.inj⟩
  | .ok _, .ok _ => decidable_of_iff _ ⟨congrArg Except.ok, Except.ok.inj⟩
  | .error _, .ok _ => isFalse nofun
  | .ok _, .error _ => isFalse nofun

end DiagnosticLog
