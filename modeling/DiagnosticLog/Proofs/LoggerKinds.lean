import DiagnosticLog.Proofs.Mirrors
import DiagnosticLog.Proofs.Numbering

/-! The two kinds of loggers. The logger of a file stores one record more for each diagnostic than
the logger of no file: its association. Otherwise a program cannot tell them apart, as long as no
association is refused and no frame is entered. -/

namespace DiagnosticLog

/-! ### Writers -/

namespace TrapRecord

def isAssociation : TrapRecord → Bool
  | .association _ => true
  | _ => false

/-- The records but for the associations. -/
def unassociated (records : List TrapRecord) : List TrapRecord :=
  records.filter fun r => !r.isAssociation

theorem unassociated_append (records more : List TrapRecord) :
    unassociated (records ++ more) = unassociated records ++ unassociated more :=
  List.filter_append ..

theorem unassociated_singleton {record : TrapRecord} (h : record.isAssociation = false) :
    unassociated [record] = [record] := by
  simp [unassociated, h]

end TrapRecord

namespace TrapWriter

/-- Two writers of records that are the same but for the associations, of which only the second has
any. Neither refuses an association. -/
structure Associates (w w' : TrapWriter) : Prop where
  lastLabel : w'.lastLabel = w.lastLabel
  unknown : w'.unknown = w.unknown
  refuses : w'.refuses = w.refuses
  attempts : ∀ call, call ≠ .association → w'.attempts.of call = w.attempts.of call
  flushes : w'.flushes = w.flushes
  keeps : w.keeps = true
  keeps' : w'.keeps = true
  records : w.records = TrapRecord.unassociated w'.records
  lets : ∀ n, w.refuses .association n = false

theorem flushes_put (w : TrapWriter) (record : TrapRecord) (h : w.keeps = true) :
    (w.put record).2.flushes = w.flushes := by
  obtain ⟨kept, flushes, hs⟩ := store_of_keeps h
  simp [put, hs, TrapWriter.flushes]

theorem of_add_of_ne (a : TrapAttempts) {call call' : RefusableCall} (h : call' ≠ call) :
    (a.add call).of call' = a.of call' := by
  cases call <;> cases call' <;> first | rfl | exact absurd rfl h

theorem of_add_self (a : TrapAttempts) (call : RefusableCall) :
    (a.add call).of call = a.of call + 1 := by
  cases call <;> rfl

namespace Associates

variable {w w' : TrapWriter}

theorem recording {refuses : RefusableCall → Nat → Bool}
    (h : ∀ n, refuses .association n = false) :
    (TrapWriter.recording refuses).Associates (.recording refuses) :=
  ⟨rfl, rfl, rfl, fun _ _ => rfl, rfl, rfl, rfl, rfl, h⟩

theorem tried (h : w.Associates w') (call : RefusableCall) :
    (w.tried call).Associates (w'.tried call) where
  lastLabel := h.lastLabel
  unknown := h.unknown
  refuses := h.refuses
  attempts call' hc := by
    rw [attempts_tried, attempts_tried]
    by_cases he : call' = call
    · subst he
      rw [of_add_self, of_add_self, h.attempts call' hc]
    · rw [of_add_of_ne _ he, of_add_of_ne _ he, h.attempts call' hc]
  flushes := h.flushes
  keeps := h.keeps
  keeps' := h.keeps'
  records := h.records
  lets := h.lets

theorem freshLabel (h : w.Associates w') : InStep Associates w.freshLabel w'.freshLabel := by
  have hl := congrArg (· + 1) h.lastLabel
  exact ⟨congrArg Label.mk hl, hl, h.unknown, h.refuses, h.attempts, h.flushes, h.keeps, h.keeps',
    h.records, h.lets⟩

theorem put (h : w.Associates w') (record : TrapRecord) (hr : record.isAssociation = false) :
    InStep Associates (w.put record) (w'.put record) := by
  have hs := w.sameButStore_put record
  have hs' := w'.sameButStore_put record
  refine ⟨by rw [w.result_put h.keeps, w'.result_put h.keeps'], ?_⟩
  constructor
  · rw [hs'.lastLabel, hs.lastLabel, h.lastLabel]
  · rw [hs'.unknown, hs.unknown, h.unknown]
  · rw [hs'.refuses, hs.refuses, h.refuses]
  · rw [hs'.attempts, hs.attempts]
    exact h.attempts
  · rw [w.flushes_put record h.keeps, w'.flushes_put record h.keeps', h.flushes]
  · rw [keeps_put, h.keeps]
  · rw [keeps_put, h.keeps']
  · rw [records_put, records_put, if_pos h.keeps, if_pos h.keeps', h.records,
      TrapRecord.unassociated_append, TrapRecord.unassociated_singleton hr]
  · rw [hs.refuses]
    exact h.lets

theorem write (h : w.Associates w') (call : RefusableCall) (hc : call ≠ .association)
    (record : TrapRecord) (hr : record.isAssociation = false) :
    InStep Associates (w.write call record) (w'.write call record) := by
  rw [write_eq, write_eq, h.refuses, h.attempts call hc]
  split
  · exact ⟨rfl, h.tried call⟩
  · exact (h.tried call).put record hr

theorem finding : Finding Associates where
  gate h := by
    have ha := h.attempts .unknownLocation (by decide)
    simp only [TrapAttempts.of] at ha
    rw [h.refuses, ha]
  known h := h.unknown
  tried h := h.tried .unknownLocation
  freshLabel h := h.freshLabel
  put h label := h.put (.unknownLocation label) rfl
  learn h _ := ⟨h.lastLabel, rfl, h.refuses, h.attempts, h.flushes, h.keeps, h.keeps', h.records,
    h.lets⟩

theorem flush (h : w.Associates w') : InStep Associates w.flush w'.flush := by
  obtain ⟨kept, flushes, hs⟩ := store_of_keeps h.keeps
  obtain ⟨kept', flushes', hs'⟩ := store_of_keeps h.keeps'
  have hf := h.flushes
  have hr := h.records
  simp only [TrapWriter.flushes, TrapWriter.records, hs, hs'] at hf hr
  have ht := h.tried .flush
  rw [flush_eq, flush_eq, h.refuses, h.attempts .flush (by decide)]
  split
  · exact ⟨rfl, ht⟩
  · simp only [flushStore, store_tried, hs, hs']
    exact ⟨rfl, ht.lastLabel, ht.unknown, ht.refuses, ht.attempts, congrArg (· + 1) hf, rfl, rfl, hr,
      h.lets⟩

/-- An association is stored on one side alone. -/
theorem associate (h : w.Associates w') (row : AssociationRow) :
    (w'.writeAssociation row).1 = .ok () ∧ w.Associates (w'.writeAssociation row).2 := by
  have hlets : w'.refuses .association (w'.attempts.of .association) = false := by
    rw [h.refuses]
    exact h.lets _
  have hw : w'.writeAssociation row = (w'.tried .association).put (.association row) := by
    rw [writeAssociation, write_eq, hlets]
    rfl
  have hs := (w'.tried .association).sameButStore_put (.association row)
  rw [hw]
  refine ⟨result_put (w'.tried .association) h.keeps' _, ?_⟩
  constructor
  · rw [hs.lastLabel, lastLabel_tried, h.lastLabel]
  · rw [hs.unknown, unknown_tried, h.unknown]
  · rw [hs.refuses, refuses_tried, h.refuses]
  · intro call hc
    rw [hs.attempts, attempts_tried, of_add_of_ne _ hc, h.attempts call hc]
  · rw [flushes_put (w'.tried .association) _ h.keeps']
    exact h.flushes
  · exact h.keeps
  · rw [keeps_put, keeps_tried, h.keeps']
  · rw [records_put, keeps_tried, if_pos h.keeps', records_tried, TrapRecord.unassociated_append,
      h.records]
    exact (List.append_nil _).symm
  · exact h.lets

/-- A place is looked for in step if nobody stores records on the way. -/
theorem locate (h : w.Associates w') {place : Place} (hp : place.storesNone = true) :
    InStep Associates (place.locate w) (place.locate w') := by
  cases place with
  | unknown => exact finding.unknownLocation h
  | fresh => exact h.freshLabel.map _
  | provided calls answer =>
    obtain rfl := List.isEmpty_iff.mp hp
    exact ⟨rfl, h⟩

end Associates

end TrapWriter

/-! ### The stages of a call -/

/-- The second state, if there is one, is that of a unit outside of all frames. -/
def UnitState.Outside (_ state' : Option UnitState) : Prop := trailLines state' = []

/-- A report is stored in step without a state and with one, since its association is never
refused. -/
theorem Engine.storesInStep_associates {state : UnitState} (hs : state.trail = []) :
    StoresInStep Eq TrapWriter.Associates UnitState.Outside none (some state) := by
  rintro e _ rfl w w' h now r body location
  have houtside : UnitState.Outside none (some state) := congrArg Trail.lines hs
  have hf := h.freshLabel
  obtain ⟨result, v, v', hv, hv', ht⟩ := (hf.state.write .diagnostic (by decide)
    (.diagnostic (e.row now r body w.freshLabel.1 location)) rfl).eq_pairs
  simp only [store, TrapWriter.writeDiagnostic, hf.answer, hv, hv']
  cases result with
  | error cause => exact ⟨rfl, ht, houtside⟩
  | ok _ =>
    obtain ⟨hok, ha⟩ := ht.associate
      ⟨w.freshLabel.1, AssociationRow.compilation, state.fileNumber, state.count⟩
    exact ⟨hok, ha, houtside⟩

/-! ### Logger calls -/

/-- A call is the same engine call for both kinds of loggers, but that a diagnostic is raised
without a state or with it. -/
theorem LoggerCall.engineCall_cases (call : LoggerCall) :
    (∃ r place, place.storesNone = true ∧
      call.engineCall .plain = .diagnostic r place false ∧
      call.engineCall .file = .diagnostic r place true) ∨
    (∃ level text, ∀ kind, call.engineCall kind = .log level text) ∨
    ∀ kind, call.engineCall kind = .flush := by
  cases call with
  | trace text | debug text | info text | traceCause text cause =>
    exact .inr (.inl ⟨_, _, fun _ => rfl⟩)
  | flush => exact .inr (.inr fun _ => rfl)
  | _ => exact .inl ⟨_, _, rfl, rfl, rfl⟩

namespace Bench

/-- A bench for work that belongs to no file, and the bench of a file outside of all frames. -/
structure Twins (b b' : Bench) : Prop where
  engine : b'.engine = b.engine
  trap : b.worker.trap.Associates b'.worker.trap
  outside : b'.worker.state.trail = []

variable {b b' : Bench}

theorem Twins.diagnostic (h : b.Twins b') (now : String) (r : Report) {place : Place}
    (hp : place.storesNone = true) :
    InStep Twins (b.diagnostic now r place false) (b'.diagnostic now r place true) := by
  have houtside : UnitState.Outside none (some b'.worker.state) := congrArg Trail.lines h.outside
  have ho := Engine.related_diagnostic Engine.lockstep_eq h.trap now (.of_eq (b.engine.screen r))
    (h.trap.locate hp) houtside houtside (Engine.storesInStep_associates h.outside)
  simp only [Bench.diagnostic, stateIf, h.engine]
  refine ⟨ho.receipt, ho.engine.symm, ho.trap, ?_⟩
  have hs := ho.state
  simp only [settle]
  cases hstate : (b.engine.diagnostic now r place.locate b'.worker.trap
      (some b'.worker.state)).state with
  | none => simpa [hstate] using h.outside
  | some state =>
    rw [UnitState.Outside, hstate] at hs
    simpa [hstate] using List.map_eq_nil_iff.mp hs

theorem Twins.log (h : b.Twins b') (now : String) (level : Level) (text : String) :
    InStep Twins (b.log now level text) (b'.log now level text) := by
  have ho := Engine.related_log (S := UnitState.Outside) Engine.lockstep_eq (Eq.refl b.engine) now
    level text (h.trap.write .comment (by decide) _ rfl) rfl
  simp only [Bench.log, h.engine]
  exact ⟨ho.receipt, ho.engine.symm, ho.trap, h.outside⟩

theorem Twins.flush (h : b.Twins b') : InStep Twins b.flush b'.flush := by
  have hf := h.trap.flush
  simp only [Bench.flush, Bench.flushTrap, hf.answer]
  split
  · exact ⟨by simp only [flushLog, h.engine], by simp only [flushLog, h.engine], hf.state,
      h.outside⟩
  · exact ⟨rfl, h.engine, hf.state, h.outside⟩

theorem Twins.perform (h : b.Twins b') (now : String) (call : LoggerCall) :
    InStep Twins (LoggerKind.plain.perform b now call) (LoggerKind.file.perform b' now call) := by
  rw [LoggerKind.perform_eq, LoggerKind.perform_eq, h.engine]
  split
  · rcases call.engineCall_cases with ⟨r, place, hp, hplain, hfile⟩ | ⟨level, text, hc⟩ | hc
    · rw [hplain, hfile]
      exact h.diagnostic now r hp
    · rw [hc, hc]
      exact h.log now level text
    · rw [hc, hc]
      exact h.flush
  · exact ⟨rfl, h⟩

end Bench

/-! ### Runs -/

/-- If no association is refused, every diagnostic has one. -/
theorem TrapRecord.Numbered.associations_eq {refuses : Nat → Bool} {fileNumber count : Nat}
    {records : List TrapRecord} (h : Numbered refuses fileNumber count records)
    (hr : ∀ n, refuses n = false) :
    associations records = (diagnostics records).mapIdx fun n row =>
      ⟨row.id, AssociationRow.compilation, fileNumber, n⟩ := by
  induction h with
  | empty => rfl
  | unknownLocation label _ ih => simpa [diagnostics, associations] using ih
  | comment text _ ih => simpa [diagnostics, associations] using ih
  | @diagnostic count records row h ih =>
    rw [associations_append, diagnostics_append, diagnostics_entry, List.mapIdx_concat, ih,
      h.length_diagnostics]
    simp [entry, associations, hr]

theorem LoggerKind.numbered_perform {b : Bench} {refuses : Nat → Bool} {fileNumber : Nat}
    (h : b.worker.Numbered refuses fileNumber) (now : String) (call : LoggerCall) :
    (LoggerKind.file.perform b now call).2.worker.Numbered refuses fileNumber := by
  rw [perform_eq]
  split
  · exact Bench.numbered_perform h now call.isOfFile_engineCall
  · exact h

/-- A row of calls on the two kinds of loggers. The unit of the file keeps numbering its
diagnostics. -/
theorem Bench.Twins.performAll {b b' : Bench} {refuses : Nat → Bool} {fileNumber : Nat}
    (h : b.Twins b') (hn : b'.worker.Numbered refuses fileNumber)
    (calls : List (Timed LoggerCall)) :
    InStep (fun b b' => b.Twins b' ∧ b'.worker.Numbered refuses fileNumber)
      (LoggerKind.plain.performAll b calls) (LoggerKind.file.performAll b' calls) := by
  refine .inTurn (fun b b' hb c _ => ?_) ⟨h, hn⟩
  have hc := hb.1.perform c.now c.call
  exact ⟨hc.answer, hc.state, LoggerKind.numbered_perform hb.2 c.now c.call⟩

/-- An engine and a new unit, which has a file of the given number if its logger is that of a
file. -/
def Bench.new (e : Engine) (trap : TrapWriter) (fileNumber : Nat) : Bench :=
  ⟨e, { trap, state := { fileNumber } }⟩

/-- A row of calls over a new writer of text, whose sink never fails, says what is kept over a new
writer of records. -/
theorem LoggerKind.performAll_textual (kind : LoggerKind) (e : Engine) (fileNumber : Nat)
    (refuses : RefusableCall → Nat → Bool) {sink : ByteSink} (hs : sink.Faultless)
    (he : sink.contents = []) (calls : List (Timed LoggerCall)) :
    let kept := kind.performAll (.new e (.recording refuses) fileNumber) calls
    let said := kind.performAll (.new e (.textual sink refuses) fileNumber) calls
    said.1 = kept.1 ∧ said.2.engine = kept.2.engine ∧
      said.2.worker.trap.bytes =
        Utf8.encode (TrapRecord.rendered kept.2.worker.trap.records) := by
  intro kept said
  have hnew : (Bench.new e (.recording refuses) fileNumber).Related Eq TrapWriter.Mirrors
      (.new e (.textual sink refuses) fileNumber) :=
    ⟨rfl, TrapWriter.mirrors_new hs he refuses, rfl, rfl⟩
  have h := hnew.performAllLogger Engine.lockstep_eq Engine.admitsAlike_eq
    TrapWriter.lockstep_mirrors kind calls
  exact ⟨h.answer, h.state.engine.symm, h.state.worker.trap.text⟩

/-- The two kinds of loggers agree. Over the same engine and new writers that refuse the same calls,
but no association, a row of calls is told the same by both, and both leave the same engine with the
same log and the same counts. Their records have the same labels and are the same but for the
associations of the file, which are one for each diagnostic. A writer of text says the records of
either. -/
theorem plain_and_file_loggers_agree (e : Engine) (fileNumber : Nat)
    {refuses : RefusableCall → Nat → Bool} (hr : ∀ n, refuses .association n = false)
    (calls : List (Timed LoggerCall)) :
    let plain := LoggerKind.plain.performAll (.new e (.recording refuses) fileNumber) calls
    let file := LoggerKind.file.performAll (.new e (.recording refuses) fileNumber) calls
    let records := file.2.worker.trap.records
    file.1 = plain.1 ∧ file.2.engine = plain.2.engine ∧
    file.2.worker.trap.lastLabel = plain.2.worker.trap.lastLabel ∧
    TrapRecord.unassociated records = plain.2.worker.trap.records ∧
    TrapRecord.associations records =
      ((TrapRecord.diagnostics records).mapIdx fun n row =>
        ⟨row.id, "compilation", fileNumber, n⟩) ∧
    ∀ (kind : LoggerKind) (sink : ByteSink), sink.Faultless → sink.contents = [] →
      let kept := kind.performAll (.new e (.recording refuses) fileNumber) calls
      let said := kind.performAll (.new e (.textual sink refuses) fileNumber) calls
      said.1 = kept.1 ∧ said.2.engine = kept.2.engine ∧
        said.2.worker.trap.bytes =
          Utf8.encode (TrapRecord.rendered kept.2.worker.trap.records) := by
  intro plain file records
  have hnew : (Bench.new e (.recording refuses) fileNumber).Twins
      (.new e (.recording refuses) fileNumber) :=
    ⟨rfl, .recording hr, rfl⟩
  have hn : (Bench.new e (.recording refuses) fileNumber).worker.Numbered (refuses .association)
      fileNumber :=
    ⟨rfl, .recording fileNumber refuses⟩
  obtain ⟨hanswer, htwins, hnumbered⟩ := hnew.performAll hn calls
  exact ⟨hanswer, htwins.engine, htwins.trap.lastLabel, htwins.trap.records.symm,
    hnumbered.trap.records.associations_eq hr,
    fun kind sink hs he => kind.performAll_textual e fileNumber refuses hs he calls⟩

/-- Of three diagnostics the second finds no location. Of the other two the plain logger has no
association, and that of the file has two; its text says both. -/
theorem plain_and_file_loggers_agree_second_lost :
    let e : Engine := .ofStream { limit := 0 } (.memory {})
    let refuses : RefusableCall → Nat → Bool := fun call n => call == .unknownLocation && n == 1
    let calls : List (Timed LoggerCall) :=
      [⟨"t", .warn "odd" ⟨"a.rs", 7, 3⟩⟩, ⟨"t", .warn "lost" ⟨"a.rs", 8, 3⟩⟩,
        ⟨"t", .error "bad" ⟨"a.rs", 9, 3⟩⟩, ⟨"t", .flush⟩]
    let plain := LoggerKind.plain.performAll (.new e (.recording refuses) 7) calls
    let file := LoggerKind.file.performAll (.new e (.recording refuses) 7) calls
    let said := LoggerKind.file.performAll (.new e (.textual {} refuses) 7) calls
    let text : String := "#1=@\"loc,\x7bunknown\x7d\"\n" ++
      "#2=*\ndiagnostics(#2,\"Extractor\",2,\"\",\"odd\",\"t odd\",#1)\n" ++
      "diagnostic_for(#2,@\"compilation\",7,0)\n" ++
      "#3=*\ndiagnostics(#3,\"Extractor\",5,\"\",\"bad\",\"t bad\",#1)\n" ++
      "diagnostic_for(#3,@\"compilation\",7,1)\n"
    file.1 = plain.1 ∧
    TrapRecord.unassociated file.2.worker.trap.records = plain.2.worker.trap.records ∧
    TrapRecord.associations file.2.worker.trap.records =
      [⟨⟨2⟩, "compilation", 7, 0⟩, ⟨⟨3⟩, "compilation", 7, 1⟩] ∧
    said.2.worker.trap.bytes = Utf8.encode text := by
  intro e refuses calls
  have hs : ByteSink.Faultless {} := ⟨⟨rfl, fun _ => rfl⟩, fun _ => rfl⟩
  obtain ⟨hanswers, -, -, hrecords, hassociations, hsaid⟩ :=
    plain_and_file_loggers_agree e 7 (fun _ => rfl : ∀ n, refuses .association n = false) calls
  obtain ⟨-, -, hbytes⟩ := hsaid .file {} hs rfl
  refine ⟨hanswers, hrecords, ?_, ?_⟩
  · rw [hassociations]
    decide
  · rw [hbytes]
    refine congrArg Utf8.encode (?_ : TrapRecord.rendered _ = _)
    decide +kernel

end DiagnosticLog
