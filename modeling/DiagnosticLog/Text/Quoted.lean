/-! Strings of the trap text: a quote inside the string is written twice, all other characters
stand for themselves. -/

namespace DiagnosticLog.Quoted

/-- A character as it is written inside a string. -/
def double (c : Char) : List Char := if c = '"' then ['"', '"'] else [c]

/-- The inside of a string. -/
def inside (s : List Char) : List Char := s.flatMap double

def quote (s : String) : String :=
  String.ofList ('"' :: inside s.toList ++ ['"'])

end DiagnosticLog.Quoted
