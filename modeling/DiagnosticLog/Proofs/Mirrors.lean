import DiagnosticLog.Proofs.Lockstep
import DiagnosticLog.Proofs.Sinks
import DiagnosticLog.Proofs.Text.Utf8

/-! A writer of text says what a writer of records keeps. Over a sink that never fails the two give
the same answer to every call, whatever is refused, and the text is at every moment that of the
records. So no program can tell which of the two it writes to. -/

namespace DiagnosticLog

/-! ### The text of a record -/

namespace TrapRecord

/-- The text that stands for a record. -/
def rendering : TrapRecord → String
  | .unknownLocation label => label.text ++ "=@\"loc,\x7bunknown\x7d\"\n"
  | .diagnostic row =>
    row.id.text ++ "=*\n" ++ "diagnostics(" ++ ",".intercalate
      [row.id.text, Quoted.quote row.origin, toString row.rank, Quoted.quote row.category,
        Quoted.quote row.message, Quoted.quote row.full, row.location.text] ++ ")\n"
  | .association row =>
    "diagnostic_for(" ++ ",".intercalate
      [row.diagnostic.text, "@" ++ Quoted.quote row.unit, toString row.unitNumber,
        toString row.sequence] ++ ")\n"
  | .comment text => "// " ++ Statement.oneLine text ++ "\n"

theorem arguments_eq_intercalate (values : List String) :
    Statement.arguments values = ",".intercalate values := by
  induction values with
  | nil => rfl
  | cons value rest ih =>
    cases rest with
    | nil => simp [Statement.arguments]
    | cons next rest =>
      rw [Statement.arguments, ih, String.intercalate_cons_cons]
      exact List.cons_ne_nil next rest

theorem text_eq_rendering (r : TrapRecord) : r.text = r.rendering := by
  unfold TrapRecord.text rendering
  cases r with
  | unknownLocation label =>
    have hq : "=@" ++ (Quoted.quote Statement.unknownKey ++ "\n") =
        "=@\"loc,\x7bunknown\x7d\"\n" := by
      decide
    simp only [Statement.ofRecord, Statement.textAll, Statement.text, Statement.body,
      String.append_assoc, String.append_empty]
    rw [hq]
  | diagnostic row =>
    simp only [Statement.ofRecord, Statement.textAll, Statement.text, Statement.body,
      Statement.tuple, arguments_eq_intercalate, String.append_assoc, String.append_empty]
    rfl
  | association row =>
    simp only [Statement.ofRecord, Statement.textAll, Statement.text, Statement.body,
      Statement.tuple, arguments_eq_intercalate, String.append_assoc, String.append_empty]
    rfl
  | comment text =>
    simp only [Statement.ofRecord, Statement.textAll, Statement.text, Statement.body,
      String.append_empty]

/-- The text that stands for records, one after the other. -/
def rendered : List TrapRecord → String
  | [] => ""
  | r :: rest => r.rendering ++ rendered rest

theorem rendered_append (records more : List TrapRecord) :
    rendered (records ++ more) = rendered records ++ rendered more := by
  induction records with
  | nil => simp [rendered]
  | cons r rest ih => rw [List.cons_append, rendered, rendered, ih, String.append_assoc]

end TrapRecord

namespace TrapWriter

/-- A writer of text that says all that a writer of records keeps, and that goes on in the same
way. -/
structure Mirrors (w w' : TrapWriter) : Prop where
  same : w.SameButStore w'
  keeps : w.keeps = true
  sink : ∃ sink, w'.store = .text sink ∧ sink.Faultless
  text : w'.bytes = Utf8.encode (TrapRecord.rendered w.records)

/-- New writers, where the text goes to an empty sink that never fails. -/
theorem mirrors_new {sink : ByteSink} (hs : sink.Faultless) (he : sink.contents = [])
    (refuses : RefusableCall → Nat → Bool) :
    (recording refuses).Mirrors (textual sink refuses) :=
  ⟨⟨rfl, rfl, rfl, rfl⟩, rfl, ⟨sink, rfl, hs⟩, he⟩

namespace Mirrors

variable {w w' : TrapWriter}

theorem tried (h : w.Mirrors w') (call : RefusableCall) : (w.tried call).Mirrors (w'.tried call) :=
  ⟨⟨h.same.lastLabel, h.same.unknown, h.same.refuses, congrArg (·.add call) h.same.attempts⟩,
    h.keeps, h.sink, h.text⟩

theorem freshLabel (h : w.Mirrors w') : InStep Mirrors w.freshLabel w'.freshLabel := by
  have hl := congrArg (· + 1) h.same.lastLabel
  exact ⟨congrArg Label.mk hl,
    ⟨hl, h.same.unknown, h.same.refuses, h.same.attempts⟩, h.keeps, h.sink, h.text⟩

/-- A record is kept on one side and said on the other. -/
theorem put (h : w.Mirrors w') (record : TrapRecord) :
    InStep Mirrors (w.put record) (w'.put record) := by
  obtain ⟨sink, hstore, hs⟩ := h.sink
  have hput : w'.put record =
      ((sink.write (Utf8.encode record.text)).1,
        { w' with store := .text (sink.write (Utf8.encode record.text)).2 }) := by
    simp only [TrapWriter.put, putText, hstore]
  have hr := hs.toUnfailing.result_write (Utf8.encode record.text)
  have hc := ByteSink.contents_write hs.unbounded (Utf8.encode record.text)
  have ht := h.text
  simp only [bytes, hstore] at ht
  rw [if_pos hr, ht, record.text_eq_rendering, ← Utf8.encode_append] at hc
  have hrec := w.records_put record
  rw [if_pos h.keeps] at hrec
  have hsame := w.sameButStore_put record
  rw [hput]
  refine ⟨?_, ⟨?_, ?_, ?_, ?_⟩, ?_, ⟨_, rfl, hs.write _⟩, ?_⟩
  · rw [w.result_put h.keeps record, hr]
  · rw [hsame.lastLabel, h.same.lastLabel]
  · rw [hsame.unknown, h.same.unknown]
  · rw [hsame.refuses, h.same.refuses]
  · rw [hsame.attempts, h.same.attempts]
  · rw [keeps_put, h.keeps]
  · rw [hrec, TrapRecord.rendered_append, record.text_eq_rendering]
    simpa [bytes, TrapRecord.rendered] using hc

theorem write (h : w.Mirrors w') (call : RefusableCall) (record : TrapRecord) :
    InStep Mirrors (w.write call record) (w'.write call record) := by
  rw [write_eq, write_eq, h.same.refuses, h.same.attempts]
  split
  · exact ⟨rfl, h.tried call⟩
  · exact (h.tried call).put record

theorem finding : Finding Mirrors where
  gate h := by rw [h.same.refuses, h.same.attempts]
  known h := h.same.unknown
  tried h := h.tried .unknownLocation
  freshLabel h := h.freshLabel
  put h label := h.put (.unknownLocation label)
  learn h _ := ⟨⟨h.same.lastLabel, rfl, h.same.refuses, h.same.attempts⟩, h.keeps, h.sink, h.text⟩

theorem unknownLocation (h : w.Mirrors w') :
    InStep Mirrors w.unknownLocation w'.unknownLocation :=
  finding.unknownLocation h

theorem flush (h : w.Mirrors w') : InStep Mirrors w.flush w'.flush := by
  obtain ⟨sink, hstore, hs⟩ := h.sink
  obtain ⟨kept, flushes, hw⟩ := store_of_keeps h.keeps
  have ht := h.text
  simp only [bytes, records, hw, hstore] at ht
  obtain ⟨hl, hu, hr, ha⟩ := h.same
  rw [flush_eq, flush_eq, hr, ha]
  split
  · exact ⟨rfl, h.tried .flush⟩
  · simp only [flushStore, store_tried, hstore, hw]
    exact ⟨hs.result_flush, ⟨hl, hu, hr, congrArg (·.add .flush) ha⟩, rfl, ⟨_, rfl, hs.flush⟩, ht⟩

end Mirrors

end TrapWriter

/-! ### Calls -/

/-- Whether every trap writer has the call, whatever it does with its records. -/
def TrapCall.isCommon : TrapCall → Bool
  | .keyedLabel _ | .grow _ => false
  | _ => true

namespace TrapWriter.Mirrors

variable {w w' : TrapWriter}

theorem perform (h : w.Mirrors w') {call : TrapCall} (hc : call.isCommon = true) :
    InStep Mirrors (w.perform call) (w'.perform call) := by
  cases call with
  | freshLabel => exact h.freshLabel.map _
  | unknownLocation => exact h.unknownLocation.map _
  | diagnostic row => exact (h.write .diagnostic (.diagnostic row)).map _
  | association row => exact (h.write .association (.association row)).map _
  | comment text => exact (h.write .comment (.comment text)).map _
  | flush => exact h.flush.map _
  | keyedLabel key | grow bytes => contradiction

theorem run (h : w.Mirrors w') {calls : List TrapCall} (hc : ∀ c ∈ calls, c.isCommon = true) :
    InStep Mirrors (w.run calls) (w'.run calls) :=
  .inTurn (fun _ _ h c hm => h.perform (hc c hm)) h

end TrapWriter.Mirrors

/-! ### Programs -/

/-- The same writer, or one that says all that it keeps. -/
def TrapWriter.SameOrMirrors (w w' : TrapWriter) : Prop := w = w' ∨ w.Mirrors w'

theorem TrapWriter.lockstep_mirrors : Lockstep Mirrors :=
  ⟨Mirrors.freshLabel, Mirrors.write, Mirrors.unknownLocation, Mirrors.flush⟩

theorem TrapWriter.lockstep_sameOrMirrors : Lockstep SameOrMirrors :=
  lockstep_eq.or lockstep_mirrors

/-- Whether a location is looked for with calls that every trap writer has. -/
def Place.isCommon : Place → Bool
  | .provided calls _ => calls.all TrapCall.isCommon
  | _ => true

theorem Place.lockstep_of_isCommon {place : Place} (h : place.isCommon = true) :
    Locator.Lockstep TrapWriter.SameOrMirrors place.locate := by
  intro w w' hw
  cases place with
  | unknown => exact TrapWriter.lockstep_sameOrMirrors.unknownLocation hw
  | fresh => exact (TrapWriter.lockstep_sameOrMirrors.freshLabel hw).map _
  | provided calls answer =>
    rcases hw with rfl | hw
    · exact ⟨rfl, .inl rfl⟩
    · exact ⟨rfl, .inr (hw.run (List.all_eq_true.mp h)).state⟩

/-- Whether the locations of a turn are looked for with calls that every trap writer has. -/
def Turn.isCommon : Turn → Bool
  | .step ⟨_, _, .diagnostic _ place _⟩ => place.isCommon
  | _ => true

theorem Turn.lockstep_of_isCommon {t : Turn} (h : t.isCommon = true) :
    t.Lockstep TrapWriter.SameOrMirrors := by
  cases t with
  | program worker kind script => trivial
  | step st =>
    obtain ⟨worker, now, call⟩ := st
    cases call with
    | diagnostic report place withState => exact Place.lockstep_of_isCommon h
    | _ => trivial

/-- The same engine and the same units, but that some of the writers of records became writers of
text which say all that was kept. -/
abbrev Session.Retold (s s' : Session) : Prop :=
  s.Related Eq TrapWriter.SameOrMirrors s'

/-- Text or records make no difference. Over a sink that never fails a new writer of text answers
all calls as a new writer of records does, and its text is that of the records. In a run, any units
may write text instead of keeping records: every call is told the same, the engine with its log and
its counts ends up the same, and so does every unit, but that its text is that of its records. -/
theorem text_mirrors_records :
    (∀ (sink : ByteSink) (refuses : RefusableCall → Nat → Bool) (calls : List TrapCall),
      sink.Faultless → sink.contents = [] → (∀ call ∈ calls, call.isCommon = true) →
      let kept := (TrapWriter.recording refuses).run calls
      let said := (TrapWriter.textual sink refuses).run calls
      said.1 = kept.1 ∧ said.2.bytes = Utf8.encode (TrapRecord.rendered kept.2.records)) ∧
    ∀ (s s' : Session) (ts : List Turn), s.Retold s' → (∀ t ∈ ts, t.isCommon = true) →
      (s'.turns ts).1 = (s.turns ts).1 ∧ (s'.turns ts).2.engine = (s.turns ts).2.engine ∧
        (s.turns ts).2.Retold (s'.turns ts).2 := by
  refine ⟨?_, ?_⟩
  · intro sink refuses calls hs he hc kept said
    have h := (TrapWriter.mirrors_new hs he refuses).run hc
    exact ⟨h.answer, h.state.text⟩
  · intro s s' ts h hc
    have ht := h.turns Engine.lockstep_eq Engine.admitsAlike_eq TrapWriter.lockstep_sameOrMirrors
      fun t hm => Turn.lockstep_of_isCommon (hc t hm)
    exact ⟨ht.answer, ht.state.engine.symm, ht.state⟩

/-- A writer whose first comment is refused says the second on one line; and of two units the second
may write text. -/
theorem text_mirrors_records_one_of_two :
    let refuses : RefusableCall → Nat → Bool := fun call n => call == .comment && n == 0
    let calls : List TrapCall := [.unknownLocation, .comment "lost", .comment "a\r\nb"]
    let unit (trap : TrapWriter) : Worker := ⟨trap, ⟨7, [], 0⟩, 0⟩
    let session (trap : TrapWriter) : Session :=
      ⟨.ofStream {} (.memory {}), [unit (.recording refuses), unit trap]⟩
    let warning : Timed LoggerCall := ⟨"t", .warn "odd" ⟨"a.rs", 7, 3⟩⟩
    let ts : List Turn := [.step ⟨0, "t", .log .info "first"⟩,
      .program 1 .file (.within ⟨"function", "f", "1:1"⟩ (.calls [warning] .bail) .done)]
    ((TrapWriter.textual {} refuses).run calls).2.bytes =
        Utf8.encode "#1=@\"loc,\x7bunknown\x7d\"\n// a  b\n" ∧
      ((session (.textual {} refuses)).turns ts).1 = ((session (.recording refuses)).turns ts).1 ∧
      ((session (.recording refuses)).turns ts).2.Retold
        ((session (.textual {} refuses)).turns ts).2 := by
  intro refuses calls unit session warning ts
  have hs : ByteSink.Faultless {} := ⟨⟨rfl, fun _ => rfl⟩, fun _ => rfl⟩
  have hw : (TrapWriter.recording refuses).Mirrors (.textual {} refuses) :=
    TrapWriter.mirrors_new hs rfl refuses
  have hr : (session (.recording refuses)).Retold (session (.textual {} refuses)) := by
    refine ⟨rfl, ?_⟩
    rintro (_ | _ | i) -
    · exact .some ⟨.inl rfl, rfl, rfl⟩
    · exact .some ⟨.inr hw, rfl, rfl⟩
    · exact .none
  have hk : TrapRecord.rendered ((TrapWriter.recording refuses).run calls).2.records =
      "#1=@\"loc,\x7bunknown\x7d\"\n// a  b\n" := by
    decide
  have hb := (text_mirrors_records.1 {} refuses calls hs rfl (by decide)).2
  rw [hk] at hb
  obtain ⟨ha, _, hafter⟩ := text_mirrors_records.2 _ _ ts hr (by decide)
  exact ⟨hb, ha, hafter⟩

end DiagnosticLog
