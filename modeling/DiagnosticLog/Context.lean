/-! What a unit of work is extracting, and the count of its diagnostics. -/

namespace DiagnosticLog

/-- An element under extraction. -/
structure Frame where
  kind : String
  name : String
  location : String
  deriving DecidableEq

/-- The line a frame adds to the trail. -/
def Frame.line (f : Frame) : String :=
  "  ...while extracting a " ++ f.kind ++ " (" ++ f.name ++ ") at " ++ f.location

/-- The elements under extraction, the innermost first. -/
abbrev Trail := List Frame

namespace Trail

def enter (t : Trail) (frame : Frame) : Trail := frame :: t

/-- The innermost frame, if any, and the trail without it. -/
def leave : Trail → Option Frame × Trail
  | [] => (none, [])
  | frame :: outer => (some frame, outer)

/-- The lines of the trail, the innermost frame first. -/
def lines (t : Trail) : List String := t.map Frame.line

end Trail

/-- The state of one unit of work, such as a source file. -/
structure UnitState where
  fileNumber : Nat
  trail : Trail := []
  /-- How many diagnostics were numbered for this unit. -/
  count : Nat := 0
  deriving DecidableEq

namespace UnitState

/-- The number of the next diagnostic, and the state in which it is taken. -/
def nextNumber (s : UnitState) : Nat × UnitState :=
  (s.count, { s with count := s.count + 1 })

/-- The lines of the trail a diagnostic shows; without a state it shows none. -/
def trailLines : Option UnitState → List String
  | none => []
  | some s => s.trail.lines

def enter (s : UnitState) (frame : Frame) : UnitState :=
  { s with trail := s.trail.enter frame }

def leave (s : UnitState) : Option Frame × UnitState :=
  let (frame, trail) := s.trail.leave
  (frame, { s with trail })

end UnitState

end DiagnosticLog
