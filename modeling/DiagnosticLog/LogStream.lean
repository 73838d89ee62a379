import DiagnosticLog.ByteSink
import DiagnosticLog.Directory
import DiagnosticLog.Settings
import DiagnosticLog.TextBuffer

/-! Where the log lines go: the standard output, a file of their own, a buffer in memory or any
other sink of bytes. The first two hold bytes back until a flush. -/

namespace DiagnosticLog

/-- Bytes that have arrived, and bytes held back. -/
structure HeldOutput where
  arrived : Journal UInt8 := .empty
  held : Journal UInt8 := .empty
  /-- For how many bytes there is room; without it there is no bound. -/
  room : Option Nat := none
  deriving DecidableEq

namespace HeldOutput

/-- Let everything held back arrive. -/
def flush (o : HeldOutput) : HeldOutput :=
  { o with arrived := o.arrived.append o.held.toList, held := .empty }

/-- Hold some bytes back. Where there is no room for them beside those held back, these arrive
first; and bytes that would fill all the room arrive at once. -/
def write (o : HeldOutput) (bytes : List UInt8) : HeldOutput :=
  match o.room with
  | none => { o with held := o.held.append bytes }
  | some room =>
    let o := if room < o.held.size + bytes.length then o.flush else o
    if bytes.length < room then { o with held := o.held.append bytes }
    else { o with arrived := o.arrived.append bytes }

end HeldOutput

inductive LogStream where
  | stdout (output : HeldOutput := {})
  | file (path : String) (output : HeldOutput := {})
  | memory (buffer : TextBuffer := {})
  | custom (sink : ByteSink)

namespace LogStream

/-! ### Opening -/

def fileNameStart : String := "extractor."
def fileNameEnd : String := ".log"

/-- The name of a log file with some text in its middle. -/
def fileName (middle : String) : String := fileNameStart ++ middle ++ fileNameEnd

/-- How the names of new log files are picked. What stands in the middle of a name is up to whoever
makes the file, so long as no entry of its directory has the name. -/
structure NamePicker where
  middle : List String → String
  fresh : ∀ entries, fileName (middle entries) ∉ entries

namespace NamePicker

/-- Among one number more than there are entries, one is free. -/
theorem exists_free (entries : List String) :
    ∃ n ∈ List.range (entries.length + 1), fileName (toString n) ∉ entries := by
  apply Classical.byContradiction
  intro hnone
  -- these names differ, so they are too many to be entries, all of them
  let names := (List.range (entries.length + 1)).map fun n => fileName (toString n)
  have hnodup : names.Nodup := by
    refine List.pairwise_map.mpr (List.nodup_range.imp fun hne he => hne ?_)
    rw [fileName, fileName, String.append_left_inj, String.append_right_inj] at he
    exact Numeral.toString_inj.mp he
  have htaken : names ⊆ entries := by
    intro name hm
    obtain ⟨n, hn, rfl⟩ := List.mem_map.mp hm
    exact Classical.byContradiction fun hfree => hnone ⟨n, hn, hfree⟩
  have hle := hnodup.length_le_of_subset htaken
  rw [List.length_map, List.length_range] at hle
  omega

/-- Names with the first number that is free. -/
def counting : NamePicker where
  middle entries :=
    toString (((List.range (entries.length + 1)).find? fun n =>
      decide (fileName (toString n) ∉ entries)).getD entries.length)
  fresh entries := by
    obtain ⟨n, hn, hfree⟩ := exists_free entries
    cases hf : (List.range (entries.length + 1)).find? fun n =>
        decide (fileName (toString n) ∉ entries) with
    | none => exact absurd (decide_eq_true hfree) (List.find?_eq_none.mp hf n hn)
    | some m =>
      have hm := List.find?_some hf
      exact of_decide_eq_true hm

end NamePicker

/-- A log file in a directory; a file that is there already is never used again. -/
def createIn (path : String) (directory : Directory) (names : NamePicker := .counting) :
    Except LogError LogStream :=
  match directory with
  | .absent fault => .error (.createLogFile path fault)
  | .present entries => .ok (.file (path ++ "/" ++ fileName (names.middle entries)))

/-- The stream that settings ask for, when their directory is as given. -/
def ofSettings (settings : Settings) (directory : Directory) (names : NamePicker := .counting) :
    Except LogError LogStream :=
  match settings.logDirectory with
  | none => .ok .stdout
  | some path => createIn path directory names

/-! ### Writing -/

def write (s : LogStream) (bytes : List UInt8) : Except Failure Unit × LogStream :=
  match s with
  | .stdout output => (.ok (), .stdout (output.write bytes))
  | .file path output => (.ok (), .file path (output.write bytes))
  | .memory buffer => (.ok (), .memory (buffer.write bytes))
  | .custom sink =>
    let (result, sink) := sink.write bytes
    (result, .custom sink)

def flush (s : LogStream) : Except Failure Unit × LogStream :=
  match s with
  | .stdout output => (.ok (), .stdout output.flush)
  | .file path output => (.ok (), .file path output.flush)
  | .memory buffer => (.ok (), .memory buffer)
  | .custom sink =>
    let (result, sink) := sink.flush
    (result, .custom sink)

/-- Give the stream up: bytes still held back arrive. -/
def release : LogStream → LogStream
  | .stdout output => .stdout output.flush
  | .file path output => .file path output.flush
  | .memory buffer => .memory buffer
  | .custom sink => .custom sink

/-! ### Reading -/

/-- What has arrived, as it grew. -/
def taken : LogStream → Journal UInt8
  | .stdout output => output.arrived
  | .file _ output => output.arrived
  | .memory buffer => buffer.written
  | .custom sink => sink.taken

/-- The bytes that have arrived. -/
def arrived (s : LogStream) : List UInt8 := s.taken.toList

/-- The path of the log file, if the log goes to a file. -/
def path? : LogStream → Option String
  | .file path _ => some path
  | _ => none

end LogStream

end DiagnosticLog
