/-! What a unit of work stores about its diagnostics: records that refer to each other by labels.
-/

namespace DiagnosticLog

/-- The identity of a stored entity. -/
structure Label where
  number : Nat
  deriving DecidableEq

def Label.text (l : Label) : String := "#" ++ toString l.number

/-- A diagnostic as it is stored. -/
structure DiagnosticRow where
  id : Label
  origin : String
  rank : Nat
  category : String
  message : String
  /-- The message with its stamp and all that was added to it. -/
  full : String
  location : Label
  deriving DecidableEq

/-- The place of a diagnostic among those of its unit. -/
structure AssociationRow where
  diagnostic : Label
  unit : String
  unitNumber : Nat
  sequence : Nat
  deriving DecidableEq

/-- The kind of unit a diagnostic is associated with. -/
def AssociationRow.compilation : String := "compilation"

inductive TrapRecord where
  /-- The one location of everything whose place is not known. -/
  | unknownLocation (label : Label)
  | diagnostic (row : DiagnosticRow)
  | association (row : AssociationRow)
  | comment (text : String)
  deriving DecidableEq

namespace TrapRecord

/-- The diagnostics among some records. -/
def diagnostics (records : List TrapRecord) : List DiagnosticRow :=
  records.filterMap fun
    | .diagnostic row => some row
    | _ => none

/-- The associations among some records. -/
def associations (records : List TrapRecord) : List AssociationRow :=
  records.filterMap fun
    | .association row => some row
    | _ => none

/-- The texts of the comments among some records. -/
def comments (records : List TrapRecord) : List String :=
  records.filterMap fun
    | .comment text => some text
    | _ => none

end TrapRecord

end DiagnosticLog
