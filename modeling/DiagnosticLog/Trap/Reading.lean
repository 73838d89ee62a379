import DiagnosticLog.Text.Scan
import DiagnosticLog.Trap.Statement

/-! Reading the text form of stored records back. Inside quotes a doubled quote is one quote and
every other character is itself, newlines among them; outside quotes a newline ends a statement.
-/

namespace DiagnosticLog

namespace Quoted

/-- The inside of a quoted string, up to the quote that closes it. -/
def readInside : List Char → Option (List Char × List Char)
  | [] => none
  | c :: rest =>
    if c = '"' then
      match rest with
      | [] => some ([], [])
      | d :: rest' =>
        if d = '"' then (readInside rest').map fun (s, text) => ('"' :: s, text)
        else some ([], d :: rest')
    else (readInside rest).map fun (s, text) => (c :: s, text)

def read? (text : List Char) : Option (String × List Char) := do
  let text ← Scan.after? ['"'] text
  let (s, text) ← readInside text
  return (String.ofList s, text)

end Quoted

/-- A label at the front of a text. -/
def Label.read? (text : List Char) : Option (Label × List Char) := do
  let text ← Scan.after? ['#'] text
  let (n, text) ← Scan.natural? text
  return (⟨n⟩, text)

namespace Statement

/-- A statement that gives a label. -/
def readDefinition (text : List Char) : Option (Statement × List Char) := do
  let (label, text) ← Label.read? text
  match ← Scan.after? ['='] text with
  | '*' :: text => return (.fresh label, text)
  | '@' :: text =>
    let (key, text) ← Quoted.read? text
    return (.keyed label key, text)
  | _ => none

def readDiagnostic (text : List Char) : Option (Statement × List Char) := do
  let text ← Scan.after? "diagnostics(".toList text
  let (id, text) ← Label.read? text
  let text ← Scan.after? [','] text
  let (origin, text) ← Quoted.read? text
  let text ← Scan.after? [','] text
  let (rank, text) ← Scan.natural? text
  let text ← Scan.after? [','] text
  let (category, text) ← Quoted.read? text
  let text ← Scan.after? [','] text
  let (message, text) ← Quoted.read? text
  let text ← Scan.after? [','] text
  let (full, text) ← Quoted.read? text
  let text ← Scan.after? [','] text
  let (location, text) ← Label.read? text
  let text ← Scan.after? [')'] text
  return (.diagnostic { id, origin, rank, category, message, full, location }, text)

def readAssociation (text : List Char) : Option (Statement × List Char) := do
  let text ← Scan.after? "diagnostic_for(".toList text
  let (id, text) ← Label.read? text
  let text ← Scan.after? [',', '@'] text
  let (unit, text) ← Quoted.read? text
  let text ← Scan.after? [','] text
  let (unitNumber, text) ← Scan.natural? text
  let text ← Scan.after? [','] text
  let (sequence, text) ← Scan.natural? text
  let text ← Scan.after? [')'] text
  return (.association { diagnostic := id, unit, unitNumber, sequence }, text)

/-- A comment goes to the end of its line. -/
def readComment (text : List Char) : Option (Statement × List Char) := do
  let text ← Scan.after? ['/', '/', ' '] text
  return (.comment (String.ofList (text.takeWhile (· ≠ '\n'))), text.dropWhile (· ≠ '\n'))

/-- One statement and its newline. -/
def read? (text : List Char) : Option (Statement × List Char) := do
  let (s, text) ← readDefinition text <|> readDiagnostic text <|> readAssociation text <|>
    readComment text
  let text ← Scan.after? ['\n'] text
  return (s, text)

/-- Nothing but statements, and no more than so many. -/
def readUpTo : Nat → List Char → Option (List Statement)
  | _, [] => some []
  | 0, _ :: _ => none
  | n + 1, c :: text => do
    let (s, text) ← read? (c :: text)
    let rest ← readUpTo n text
    return s :: rest

/-- The statements of a text. A text has no more statements than characters. -/
def ofText? (text : String) : Option (List Statement) :=
  readUpTo text.toList.length text.toList

end Statement

end DiagnosticLog
