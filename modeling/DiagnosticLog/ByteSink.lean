import DiagnosticLog.Failure
import DiagnosticLog.Journal

/-! A place that takes bytes, may be full, and may refuse some of the calls made on it. -/

namespace DiagnosticLog

structure ByteSink where
  /-- The bytes taken so far. -/
  taken : Journal UInt8 := .empty
  /-- How many bytes are taken in all; without it there is no bound. -/
  capacity : Option Nat := none
  /-- Which writes are refused, by the number of writes before. -/
  refusesWrite : Nat → Bool := fun _ => false
  /-- Which flushes are refused, by the number of flushes before. -/
  refusesFlush : Nat → Bool := fun _ => false
  /-- Writes so far, refused ones among them. -/
  writes : Nat := 0
  /-- Flushes so far, refused ones among them. -/
  flushes : Nat := 0

namespace ByteSink

def contents (s : ByteSink) : List UInt8 := s.taken.toList

/-- The part of some bytes that still fits. -/
def fitting (s : ByteSink) (bytes : List UInt8) : List UInt8 :=
  match s.capacity with
  | none => bytes
  | some capacity => bytes.take (capacity - s.taken.size)

/-- Write some bytes. Nothing at all is always written; a refused write takes nothing, and of
bytes that do not fit the sink takes those that do. -/
def write (s : ByteSink) (bytes : List UInt8) : Except Failure Unit × ByteSink :=
  if bytes = [] then (.ok (), s)
  else
    let counted := { s with writes := s.writes + 1 }
    if s.refusesWrite s.writes then (.error .sinkClosed, counted)
    else
      let fitting := s.fitting bytes
      (if fitting.length < bytes.length then .error .diskFull else .ok (),
        { counted with taken := s.taken.append fitting })

def flush (s : ByteSink) : Except Failure Unit × ByteSink :=
  (if s.refusesFlush s.flushes then .error .flushRefused else .ok (),
    { s with flushes := s.flushes + 1 })

/-- Make room for more bytes; a sink that had no bound gets one, counted from zero. -/
def grow (s : ByteSink) (bytes : Nat) : ByteSink :=
  { s with capacity := some (s.capacity.getD 0 + bytes) }

end ByteSink

end DiagnosticLog
