import Std.Data.HashMap
import DiagnosticLog.Origin
import DiagnosticLog.Severity

/-! Counting diagnostics by call site and severity. The diagnostic that meets the limit is the
last one to go out; those after it are counted and held back. -/

namespace DiagnosticLog

/-- What is counted together: one call site at one severity. -/
structure Tally.Key where
  origin : Origin
  severity : Severity
  deriving DecidableEq, Hashable

/-- What is to be done with a diagnostic that was just counted. -/
inductive Tally.Verdict where
  | normal
  | limitReached
  | suppressed
  deriving DecidableEq

/-- A limit and the counts so far; a key that is not there was never counted. -/
structure Tally where
  limit : Int
  counts : Std.HashMap Tally.Key Nat := ∅

namespace Tally

def count (t : Tally) (key : Key) : Nat :=
  t.counts.getD key 0

/-- The verdict on the diagnostic that brings a count to the given number. -/
def verdict (limit : Int) (count : Nat) : Verdict :=
  if limit ≤ 0 ∨ (count : Int) < limit then .normal
  else if (count : Int) = limit then .limitReached
  else .suppressed

/-- Count one more diagnostic. -/
def record (t : Tally) (key : Key) : Verdict × Tally :=
  let count := t.count key + 1
  (verdict t.limit count, { t with counts := t.counts.insert key count })

/-- Recording a key counts that key and no other. -/
theorem count_record (t : Tally) (key k : Key) :
    (t.record key).2.count k = if key = k then t.count key + 1 else t.count k := by
  simp only [record, count, Std.HashMap.getD_insert, beq_iff_eq]

/-- A diagnostic is held back when a positive limit is passed. -/
theorem verdict_eq_suppressed_iff {limit : Int} {count : Nat} :
    verdict limit count = .suppressed ↔ 0 < limit ∧ limit < count := by
  grind [verdict]

/-- The notice goes with the diagnostic that meets a positive limit. -/
theorem verdict_eq_limitReached_iff {limit : Int} {count : Nat} :
    verdict limit count = .limitReached ↔ 0 < limit ∧ (count : Int) = limit := by
  grind [verdict]

end Tally

end DiagnosticLog
