import DiagnosticLog.InTurn

/-! Lines of a text, over any alphabet: a line ends at the newline mark, one carriage return
before the mark belongs to the mark, and what follows the last mark is a line only if it is not
empty. -/

namespace DiagnosticLog.Lines

variable {α : Type} [DecidableEq α]

/-- A line without the carriage return before its newline; the line is given last symbol first. -/
def finish (cr : α) : List α → List α
  | [] => []
  | x :: rest => if x = cr then rest.reverse else (x :: rest).reverse

/-- The line that a symbol ends, if it does, and the beginning of the line after that symbol. -/
def step (cr nl : α) (begun : List α) (x : α) : List (List α) × List α :=
  if x = nl then ([finish cr begun], []) else ([], x :: begun)

/-- What is left of a text after its last newline. -/
def last (begun : List α) : List (List α) :=
  if begun = [] then [] else [begun.reverse]

/-- The lines of a text whose first line has begun; the beginning is given last symbol first. -/
def splitFrom (cr nl : α) (begun text : List α) : List (List α) :=
  transduce (step cr nl) last begun text

theorem splitFrom_cons (cr nl : α) (begun : List α) (x : α) (rest : List α) :
    splitFrom cr nl begun (x :: rest) =
      if x = nl then finish cr begun :: splitFrom cr nl [] rest
      else splitFrom cr nl (x :: begun) rest := by
  by_cases h : x = nl <;> simp [splitFrom, step, h]

/-- The lines of a text without their ends. -/
def split (cr nl : α) (text : List α) : List (List α) :=
  splitFrom cr nl [] text

/-- The lines of a string. -/
def ofString (s : String) : List String :=
  (split '\r' '\n' s.toList).map String.ofList

/-- Lines put one below the other, with no newline after the last. -/
def join : List String → String
  | [] => ""
  | line :: rest => rest.foldl (fun text next => text ++ "\n" ++ next) line

end DiagnosticLog.Lines
