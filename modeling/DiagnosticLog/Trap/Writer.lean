import DiagnosticLog.ByteSink
import DiagnosticLog.Text.Utf8
import DiagnosticLog.Trap.Statement

/-! A writer of records for one unit of work. It hands out labels, counted up from one, and keeps
its records either as they are or as text in a sink of bytes. Some of its calls may be refused
before they do anything; a label that was handed out is never taken back. -/

namespace DiagnosticLog

/-- Where the records go. -/
inductive TrapStore where
  | records (kept : Journal TrapRecord := .empty) (flushes : Nat := 0)
  | text (sink : ByteSink := {})

/-- How often each call was made on a writer, refused calls among them. -/
structure TrapAttempts where
  unknownLocation : Nat := 0
  diagnostic : Nat := 0
  association : Nat := 0
  comment : Nat := 0
  flush : Nat := 0
  deriving DecidableEq

namespace TrapAttempts

def of (a : TrapAttempts) : RefusableCall → Nat
  | .unknownLocation => a.unknownLocation
  | .diagnostic => a.diagnostic
  | .association => a.association
  | .comment => a.comment
  | .flush => a.flush

def add (a : TrapAttempts) : RefusableCall → TrapAttempts
  | .unknownLocation => { a with unknownLocation := a.unknownLocation + 1 }
  | .diagnostic => { a with diagnostic := a.diagnostic + 1 }
  | .association => { a with association := a.association + 1 }
  | .comment => { a with comment := a.comment + 1 }
  | .flush => { a with flush := a.flush + 1 }

end TrapAttempts

structure TrapWriter where
  store : TrapStore
  /-- The number of the last label handed out. -/
  lastLabel : Nat := 0
  /-- The label of the unknown location, once it is stored. -/
  unknown : Option Label := none
  /-- Which calls are refused, by the number of such calls before. -/
  refuses : RefusableCall → Nat → Bool := fun _ _ => false
  attempts : TrapAttempts := {}

namespace TrapWriter

/-- A writer that keeps its records as they are. -/
def recording (refuses : RefusableCall → Nat → Bool) : TrapWriter :=
  { store := .records, refuses }

/-- A writer that keeps its records as text. -/
def textual (sink : ByteSink) (refuses : RefusableCall → Nat → Bool) : TrapWriter :=
  { store := .text sink, refuses }

/-! ### What a writer has stored -/

/-- The records kept as they are. -/
def records (w : TrapWriter) : List TrapRecord :=
  match w.store with
  | .records kept _ => kept.toList
  | .text _ => []

/-- The bytes of the records kept as text. -/
def bytes (w : TrapWriter) : List UInt8 :=
  match w.store with
  | .records .. => []
  | .text sink => sink.contents

/-- How many flushes were passed on to where the records go. -/
def flushes (w : TrapWriter) : Nat :=
  match w.store with
  | .records _ flushes => flushes
  | .text sink => sink.flushes

/-! ### Calls -/

/-- Count a call and decide whether it is refused. -/
def attempt (w : TrapWriter) (call : RefusableCall) : Except Failure Unit × TrapWriter :=
  (if w.refuses call (w.attempts.of call) then .error (.refused call) else .ok (),
    { w with attempts := w.attempts.add call })

/-- A label that was not handed out before. -/
def freshLabel (w : TrapWriter) : Label × TrapWriter :=
  (⟨w.lastLabel + 1⟩, { w with lastLabel := w.lastLabel + 1 })

/-- Put text at the end of the sink; records kept as they are have no text. -/
def putText (w : TrapWriter) (text : String) : Except Failure Unit × TrapWriter :=
  match w.store with
  | .records .. => (.ok (), w)
  | .text sink =>
    let (result, sink) := sink.write (Utf8.encode text)
    (result, { w with store := .text sink })

/-- Put a record after those that are stored. -/
def put (w : TrapWriter) (record : TrapRecord) : Except Failure Unit × TrapWriter :=
  match w.store with
  | .records kept flushes => (.ok (), { w with store := .records (kept.push record) flushes })
  | .text _ => w.putText record.text

/-- Put a record unless the call that brings it is refused. -/
def write (w : TrapWriter) (call : RefusableCall) (record : TrapRecord) :
    Except Failure Unit × TrapWriter :=
  match w.attempt call with
  | (.error cause, w) => (.error cause, w)
  | (.ok (), w) => w.put record

def writeDiagnostic (w : TrapWriter) (row : DiagnosticRow) : Except Failure Unit × TrapWriter :=
  w.write .diagnostic (.diagnostic row)

def writeAssociation (w : TrapWriter) (row : AssociationRow) : Except Failure Unit × TrapWriter :=
  w.write .association (.association row)

def writeComment (w : TrapWriter) (text : String) : Except Failure Unit × TrapWriter :=
  w.write .comment (.comment text)

/-- Store the unknown location under a fresh label. A label whose record could not be stored is
lost. -/
def storeUnknown (w : TrapWriter) : Except Failure Label × TrapWriter :=
  let (label, w) := w.freshLabel
  match w.put (.unknownLocation label) with
  | (.error cause, w) => (.error cause, w)
  | (.ok (), w) => (.ok label, { w with unknown := some label })

/-- The label of the unknown location, which is stored when it is first asked for. If it could not
be stored, the next call tries again. -/
def unknownLocation (w : TrapWriter) : Except Failure Label × TrapWriter :=
  match w.attempt .unknownLocation with
  | (.error cause, w) => (.error cause, w)
  | (.ok (), w) =>
    match w.unknown with
    | some label => (.ok label, w)
    | none => w.storeUnknown

/-- A fresh label for the entity that has a key, said in the text. -/
def keyedLabel (w : TrapWriter) (key : String) : Except Failure Label × TrapWriter :=
  let (label, w) := w.freshLabel
  match w.putText (Statement.keyed label key).text with
  | (.error cause, w) => (.error cause, w)
  | (.ok (), w) => (.ok label, w)

/-- Flush where the records go. -/
def flushStore (w : TrapWriter) : Except Failure Unit × TrapWriter :=
  match w.store with
  | .records kept flushes => (.ok (), { w with store := .records kept (flushes + 1) })
  | .text sink =>
    let (result, sink) := sink.flush
    (result, { w with store := .text sink })

def flush (w : TrapWriter) : Except Failure Unit × TrapWriter :=
  match w.attempt .flush with
  | (.error cause, w) => (.error cause, w)
  | (.ok (), w) => w.flushStore

/-- Make room in the sink; the new capacity, if there is a sink. -/
def grow (w : TrapWriter) (bytes : Nat) : Option Nat × TrapWriter :=
  match w.store with
  | .records .. => (none, w)
  | .text sink =>
    let sink := sink.grow bytes
    (sink.capacity, { w with store := .text sink })

/-- Flush the sink and hand back its bytes. -/
def intoBytes (w : TrapWriter) : Except Failure (List UInt8) × TrapWriter :=
  match w.flushStore with
  | (.error cause, w) => (.error cause, w)
  | (.ok (), w) => (.ok w.bytes, w)

end TrapWriter

end DiagnosticLog
