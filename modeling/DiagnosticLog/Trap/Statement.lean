import DiagnosticLog.Text.Quoted
import DiagnosticLog.Trap.Record

/-! The text form of the stored records: one statement for each fact, each ended by a newline. -/

namespace DiagnosticLog

inductive Statement where
  /-- A label for a new entity. -/
  | fresh (label : Label)
  /-- A label for the entity that has a key. -/
  | keyed (label : Label) (key : String)
  | diagnostic (row : DiagnosticRow)
  | association (row : AssociationRow)
  | comment (text : String)
  deriving DecidableEq

namespace Statement

/-- A comment has one line, so its line breaks become blanks. -/
def oneLine (text : String) : String :=
  String.ofList (text.toList.map fun c => if c = '\r' ∨ c = '\n' then ' ' else c)

/-- The values of a tuple. -/
def arguments : List String → String
  | [] => ""
  | [value] => value
  | value :: rest => value ++ "," ++ arguments rest

def tuple (relation : String) (values : List String) : String :=
  relation ++ "(" ++ arguments values ++ ")"

/-- A statement without the newline that ends it. -/
def body : Statement → String
  | .fresh label => label.text ++ "=*"
  | .keyed label key => label.text ++ "=@" ++ Quoted.quote key
  | .diagnostic row =>
    tuple "diagnostics"
      [row.id.text, Quoted.quote row.origin, toString row.rank, Quoted.quote row.category,
        Quoted.quote row.message, Quoted.quote row.full, row.location.text]
  | .association row =>
    tuple "diagnostic_for"
      [row.diagnostic.text, "@" ++ Quoted.quote row.unit, toString row.unitNumber,
        toString row.sequence]
  | .comment text => "// " ++ oneLine text

def text (s : Statement) : String := s.body ++ "\n"

/-- Statements one after the other. -/
def textAll : List Statement → String
  | [] => ""
  | s :: rest => s.text ++ textAll rest

/-- The key of the location of everything whose place is not known. -/
def unknownKey : String := "loc,\x7bunknown\x7d"

/-- The statements that say what a record says. -/
def ofRecord : TrapRecord → List Statement
  | .unknownLocation label => [.keyed label unknownKey]
  | .diagnostic row => [.fresh row.id, .diagnostic row]
  | .association row => [.association row]
  | .comment text => [.comment text]

end Statement

/-- The text form of a record. -/
def TrapRecord.text (r : TrapRecord) : String :=
  Statement.textAll (Statement.ofRecord r)

end DiagnosticLog
