/-! The place in a program that raised a diagnostic. -/

namespace DiagnosticLog

/-- A call site: file, line and column. -/
structure Origin where
  file : String
  line : Nat
  column : Nat
  deriving DecidableEq, Hashable

namespace Origin

/-- An origin as shown to a reader. -/
def text (o : Origin) : String :=
  o.file ++ ":" ++ toString o.line ++ ":" ++ toString o.column

/-- What is shown for a diagnostic that has no origin. -/
def placeholder : String := "<unknown location>"

/-- An origin that may be missing, as shown to a reader. -/
def shown : Option Origin → String
  | none => placeholder
  | some o => o.text

end Origin

end DiagnosticLog
