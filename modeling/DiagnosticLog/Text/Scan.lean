import DiagnosticLog.Text.Numeral

/-! Reading a text from its front: each function gives what it read and the rest of the text. -/

namespace DiagnosticLog.Scan

/-- What follows a fixed beginning. -/
def after? : List Char → List Char → Option (List Char)
  | [], text => some text
  | c :: expected, d :: text => if c = d then after? expected text else none
  | _ :: _, [] => none

/-- The digits at the front, at least one, and the number they denote. -/
def natural? (text : List Char) : Option (Nat × List Char) :=
  (Numeral.natural? (text.takeWhile Char.isDigit)).map fun n => (n, text.dropWhile Char.isDigit)

end DiagnosticLog.Scan
