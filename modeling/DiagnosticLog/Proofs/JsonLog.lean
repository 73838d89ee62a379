import DiagnosticLog.Proofs.LogLines
import DiagnosticLog.Proofs.Text.Json
import DiagnosticLog.Proofs.Text.Lines

/-! The log is read back as the messages that were written to it. No message has a newline in its
JSON, so the lines come apart, and each line is an object whose members are the strings of its
message. -/

namespace DiagnosticLog

namespace Message

/-- The members of the object that stands for a message. -/
def members (origin : String) (m : Message) : List (String × JsonValue) :=
  [("origin", .string origin), ("timestamp", .string m.stamp), ("kind", .string m.kind),
    ("message", .string m.text)]

/-- A text has one line for each message and nothing after the last newline, and every line is the
JSON of its message. -/
structure ReadsBack (text : String) (entries : List (String × Message)) : Prop where
  pieces : text.toList.splitOn '\n' =
    (entries.map fun (origin, m) => (m.json origin).toList) ++ [[]]
  lines : Lines.ofString text = entries.map fun (origin, m) => m.json origin
  values : (Lines.ofString text).map JsonValue.ofText? =
    entries.map fun (origin, m) => some (.object (m.members origin))

theorem newline_not_mem_json (m : Message) (origin : String) :
    '\n' ∉ (m.json origin).toList := by
  intro h
  have hp := List.all_eq_true.mp (printable_json origin m) '\n' h
  exact absurd hp (by decide)

theorem getLast?_json (m : Message) (origin : String) :
    (m.json origin).toList.getLast? = some '\x7d' := by
  have he : " \x7d".toList.getLast? = some '\x7d' := by decide
  rw [json, String.toList_append, List.getLast?_append, he]
  rfl

/-- The text of the lines of some messages. -/
def logText (entries : List (String × Message)) : String :=
  String.ofList (Lines.terminated '\n' (entries.map fun (origin, m) => (m.json origin).toList))

theorem logBytes_eq (entries : List (String × Message)) :
    logBytes entries = Utf8.encode (logText entries) := by
  induction entries with
  | nil => rfl
  | cons entry rest ih =>
    obtain ⟨origin, m⟩ := entry
    have hl : logText ((origin, m) :: rest) = m.jsonLine origin ++ logText rest := by
      simp only [logText, List.map_cons, Lines.terminated_cons, jsonLine]
      apply String.toList_inj.mp
      simp
    rw [hl, Utf8.encode_append, ← ih]
    rfl

/-- The lines of messages are read back. -/
theorem readsBack_logText (entries : List (String × Message)) :
    ReadsBack (logText entries) entries := by
  have hn : ∀ line ∈ entries.map fun (origin, m) => (m.json origin).toList, '\n' ∉ line := by
    intro line hl
    obtain ⟨⟨origin, m⟩, _, rfl⟩ := List.mem_map.mp hl
    exact m.newline_not_mem_json origin
  have hc : ∀ line ∈ entries.map fun (origin, m) => (m.json origin).toList,
      line.getLast? ≠ some '\r' := by
    intro line hl
    obtain ⟨⟨origin, m⟩, _, rfl⟩ := List.mem_map.mp hl
    rw [m.getLast?_json origin]
    decide
  have hl : Lines.ofString (logText entries) = entries.map fun (origin, m) => m.json origin := by
    rw [Lines.ofString, logText, String.toList_ofList, Lines.split_terminated hn hc, List.map_map]
    simp [Function.comp_def]
  refine ⟨?_, hl, ?_⟩
  · rw [logText, String.toList_ofList, Lines.splitOn_terminated hn]
  · rw [hl, List.map_map]
    apply List.map_congr_left
    intro entry _
    exact JsonValue.ofText?_json entry.1 entry.2

theorem readsBack_logBytes (entries : List (String × Message)) :
    ReadsBack (Utf8.decode (logBytes entries)) entries := by
  rw [logBytes_eq, Utf8.decode_encode]
  exact readsBack_logText entries

end Message

namespace LogStream

/-- Write the lines of some messages, each with its origin. -/
def writeLines (s : LogStream) (entries : List (String × Message)) : LogStream :=
  entries.foldl (fun s (origin, m) => (s.write (Utf8.encode (m.jsonLine origin))).2) s

theorem content_writeLines {s : LogStream} (h : s.Unfailing) (entries : List (String × Message)) :
    (s.writeLines entries).content = s.content ++ Message.logBytes entries := by
  induction entries generalizing s with
  | nil => exact (List.append_nil _).symm
  | cons entry rest ih =>
    obtain ⟨origin, m⟩ := entry
    have hc := h.content_write (Utf8.encode (m.jsonLine origin))
    have hr := ih (h.write (Utf8.encode (m.jsonLine origin)))
    rw [hc, List.append_assoc] at hr
    exact hr

end LogStream

/-- The log is read back as its messages, with all four strings of each, in their order. This holds
of messages written to a stream that takes everything, and the lines of a buffer in memory are
their lines; and it holds of the log of any run, whose messages are those that the calls wrote. -/
theorem log_reads_back :
    (∀ (s : LogStream) (entries : List (String × Message)), s.Unfailing → s.content = [] →
      Message.ReadsBack (Utf8.decode (s.writeLines entries).content) entries ∧
      ∀ b, s.writeLines entries = .memory b →
        b.lines = entries.map fun (origin, m) => m.json origin) ∧
    ∀ (s : Session) (ts : List Turn), s.engine.stream.Unbounded → s.engine.stream.content = [] →
      Message.ReadsBack (Utf8.decode (s.turns ts).2.engine.stream.content)
        ((Receipt.lines (s.turns ts).1).map fun m => (s.engine.settings.origin, m)) := by
  refine ⟨?_, ?_⟩
  · intro s entries h he
    have hc := LogStream.content_writeLines h entries
    rw [he, List.nil_append] at hc
    have hr := Message.readsBack_logBytes entries
    rw [← hc] at hr
    refine ⟨hr, ?_⟩
    intro b hb
    rw [hb] at hr
    exact hr.lines
  · intro s ts h he
    have hg := (Session.grows_turns h ts).content
    rw [he, List.nil_append] at hg
    rw [hg]
    exact Message.readsBack_logBytes _

/-- A message full of characters that need escapes, written directly and by a logger. -/
theorem log_reads_back_escapes :
    let m : Message := ⟨"INFO", "say \"\\\x01\"\n", "t"⟩
    let w : Worker := ⟨.recording fun _ _ => false, ⟨0, [], 0⟩, 0⟩
    let s : Session := ⟨.ofStream {} (.memory {}), [w]⟩
    let program : Turn := .program 0 .plain (.calls [⟨"t", .info m.text⟩] .done)
    Message.ReadsBack (Utf8.decode ((LogStream.memory {}).writeLines [("E", m)]).content)
      [("E", m)] ∧
    Message.ReadsBack (Utf8.decode (s.turns [program]).2.engine.stream.content)
      [("Extractor", m)] := by
  intro m w s program
  refine ⟨(log_reads_back.1 (.memory {}) [("E", m)] trivial rfl).1, ?_⟩
  have hl : Receipt.lines (s.turns [program]).1 = [m] := by decide
  have h := log_reads_back.2 s [program] trivial rfl
  rw [hl] at h
  exact h

end DiagnosticLog
