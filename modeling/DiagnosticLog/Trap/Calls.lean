import DiagnosticLog.InTurn
import DiagnosticLog.Trap.Writer

/-! Sequences of calls on a trap writer, and what each of them answers. -/

namespace DiagnosticLog

inductive TrapCall where
  | freshLabel
  | unknownLocation
  | keyedLabel (key : String)
  | diagnostic (row : DiagnosticRow)
  | association (row : AssociationRow)
  | comment (text : String)
  | flush
  /-- Make room for more bytes of text. -/
  | grow (bytes : Nat)
  deriving DecidableEq

inductive TrapAnswer where
  | done
  | label (taken : Label)
  | capacity (bytes : Nat)
  | failed (cause : Failure)
  deriving DecidableEq

namespace TrapAnswer

def ofUnit : Except Failure Unit → TrapAnswer
  | .ok () => .done
  | .error cause => .failed cause

def ofLabel : Except Failure Label → TrapAnswer
  | .ok l => .label l
  | .error cause => .failed cause

end TrapAnswer

namespace TrapWriter

def perform (w : TrapWriter) : TrapCall → TrapAnswer × TrapWriter
  | .freshLabel => w.freshLabel.map .label id
  | .unknownLocation => w.unknownLocation.map .ofLabel id
  | .keyedLabel key => (w.keyedLabel key).map .ofLabel id
  | .diagnostic row => (w.writeDiagnostic row).map .ofUnit id
  | .association row => (w.writeAssociation row).map .ofUnit id
  | .comment text => (w.writeComment text).map .ofUnit id
  | .flush => w.flush.map .ofUnit id
  | .grow bytes => (w.grow bytes).map (fun | some n => .capacity n | none => .done) id

/-- Calls one after the other. -/
def run (w : TrapWriter) (calls : List TrapCall) : List TrapAnswer × TrapWriter :=
  inTurn perform w calls

end TrapWriter

end DiagnosticLog
