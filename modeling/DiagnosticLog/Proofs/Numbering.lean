import DiagnosticLog.Proofs.Records
import DiagnosticLog.Proofs.Turns

/-! The numbers of the diagnostics of a file. A diagnostic takes its number once it is stored, and
its association is tried at once. So whatever fails, the number of an association is the number of
diagnostics stored before its own, and a refused association leaves a gap. -/

namespace DiagnosticLog

/-! ### Records with numbers -/

namespace TrapRecord

/-- The records of a diagnostic that takes a number: the diagnostic itself and, unless it is
refused, its association. -/
def entry (refuses : Nat → Bool) (fileNumber number : Nat) (row : DiagnosticRow) :
    List TrapRecord :=
  .diagnostic row ::
    if refuses number then []
    else [.association ⟨row.id, AssociationRow.compilation, fileNumber, number⟩]

/-- Records in which so many diagnostics took their numbers, one after the other. -/
inductive Numbered (refuses : Nat → Bool) (fileNumber : Nat) : Nat → List TrapRecord → Prop
  | empty : Numbered refuses fileNumber 0 []
  | unknownLocation {count : Nat} {records : List TrapRecord} (label : Label) :
    Numbered refuses fileNumber count records →
      Numbered refuses fileNumber count (records ++ [.unknownLocation label])
  | comment {count : Nat} {records : List TrapRecord} (text : String) :
    Numbered refuses fileNumber count records →
      Numbered refuses fileNumber count (records ++ [.comment text])
  | diagnostic {count : Nat} {records : List TrapRecord} (row : DiagnosticRow) :
    Numbered refuses fileNumber count records →
      Numbered refuses fileNumber (count + 1) (records ++ entry refuses fileNumber count row)

@[simp] theorem diagnostics_append (records more : List TrapRecord) :
    diagnostics (records ++ more) = diagnostics records ++ diagnostics more :=
  List.filterMap_append

@[simp] theorem associations_append (records more : List TrapRecord) :
    associations (records ++ more) = associations records ++ associations more :=
  List.filterMap_append

@[simp] theorem diagnostics_entry (refuses : Nat → Bool) (fileNumber number : Nat)
    (row : DiagnosticRow) : diagnostics (entry refuses fileNumber number row) = [row] := by
  unfold entry
  split <;> rfl

/-- Where an association stands when more records follow: among the first records, or among those
that follow. -/
theorem association_of_append_eq {records more pre post : List TrapRecord} {row : AssociationRow}
    (h : records ++ more = pre ++ .association row :: post) :
    (∃ mid, records = pre ++ .association row :: mid) ∨
      ∃ mid, pre = records ++ mid ∧ more = mid ++ .association row :: post := by
  rcases List.append_eq_append_iff.mp h with ⟨mid, hp, hm⟩ | ⟨mid, hr, hm⟩
  · exact .inr ⟨mid, hp, hm⟩
  · cases mid with
    | nil =>
      rw [List.append_nil] at hr
      exact .inr ⟨[], by simp [hr], by simpa using hm.symm⟩
    | cons r mid =>
      obtain ⟨rfl, -⟩ := List.cons.inj hm
      exact .inl ⟨mid, hr⟩

/-- An association in the records of one diagnostic is the association of this diagnostic. -/
theorem association_of_entry_eq {refuses : Nat → Bool} {fileNumber number : Nat}
    {d : DiagnosticRow} {mid post : List TrapRecord} {row : AssociationRow}
    (h : entry refuses fileNumber number d = mid ++ .association row :: post) :
    mid = [.diagnostic d] ∧ row = ⟨d.id, AssociationRow.compilation, fileNumber, number⟩ := by
  unfold entry at h
  cases mid with
  | nil => exact absurd (List.cons.inj h).1 (by simp)
  | cons r mid =>
    obtain ⟨rfl, htail⟩ := List.cons.inj h
    split at htail
    · exact absurd htail (by simp)
    · rcases List.append_eq_singleton_iff.mp htail.symm with ⟨rfl, hrow⟩ | ⟨-, hrow⟩
      · obtain ⟨hrow, -⟩ := List.cons.inj hrow
        exact ⟨rfl, TrapRecord.association.inj hrow⟩
      · exact absurd hrow (List.cons_ne_nil _ _)

namespace Numbered

variable {refuses : Nat → Bool} {fileNumber count : Nat} {records : List TrapRecord}

theorem length_diagnostics (h : Numbered refuses fileNumber count records) :
    (diagnostics records).length = count := by
  induction h with
  | empty => rfl
  | unknownLocation label _ ih => simpa [diagnostics] using ih
  | comment text _ ih => simpa [diagnostics] using ih
  | diagnostic row _ ih => simp [ih]

/-- The numbers of the associations are those that were not refused. -/
theorem sequences (h : Numbered refuses fileNumber count records) :
    (associations records).map AssociationRow.sequence =
      (List.range count).filter fun n => !refuses n := by
  induction h with
  | empty => rfl
  | unknownLocation label _ ih => simpa [associations] using ih
  | comment text _ ih => simpa [associations] using ih
  | @diagnostic count records row _ ih =>
    rw [associations_append, List.map_append, ih, List.range_succ, List.filter_append]
    congr 1
    cases hr : refuses count <;> simp [entry, associations, hr]

/-- An association stands directly after the diagnostic it refers to, and its number is the number
of diagnostics before that one. -/
theorem placed (h : Numbered refuses fileNumber count records) {pre post : List TrapRecord}
    {row : AssociationRow} (hr : records = pre ++ .association row :: post) :
    ∃ earlier d, pre = earlier ++ [.diagnostic d] ∧
      row = ⟨d.id, AssociationRow.compilation, fileNumber, (diagnostics earlier).length⟩ := by
  induction h generalizing pre post with
  | empty => simp at hr
  | unknownLocation label _ ih =>
    rcases association_of_append_eq hr with ⟨mid, h⟩ | ⟨mid, -, h⟩
    · exact ih h
    · cases mid <;> simp at h
  | comment text _ ih =>
    rcases association_of_append_eq hr with ⟨mid, h⟩ | ⟨mid, -, h⟩
    · exact ih h
    · cases mid <;> simp at h
  | diagnostic d h' ih =>
    rcases association_of_append_eq hr with ⟨mid, h⟩ | ⟨mid, rfl, h⟩
    · exact ih h
    · obtain ⟨rfl, rfl⟩ := association_of_entry_eq h
      exact ⟨_, d, rfl, by rw [h'.length_diagnostics]⟩

/-- Any number of locations. -/
theorem unknownLocations (h : Numbered refuses fileNumber count records) (labels : List Label) :
    Numbered refuses fileNumber count (records ++ labels.map .unknownLocation) := by
  induction labels generalizing records with
  | nil => simpa using h
  | cons label rest ih => simpa using ih (h.unknownLocation label)

end Numbered

end TrapRecord

/-! ### Writers -/

/-- A writer that keeps its records, in which so many diagnostics took their numbers. -/
structure TrapWriter.Numbered (refuses : Nat → Bool) (fileNumber count : Nat) (w : TrapWriter) :
    Prop where
  keeps : w.keeps = true
  refusing : w.refuses .association = refuses
  attempts : w.attempts.association = count
  records : TrapRecord.Numbered refuses fileNumber count w.records

namespace TrapWriter.Numbered

variable {refuses : Nat → Bool} {fileNumber count : Nat} {w : TrapWriter}

theorem recording (fileNumber : Nat) (refuses : RefusableCall → Nat → Bool) :
    (TrapWriter.recording refuses).Numbered (refuses .association) fileNumber 0 :=
  ⟨rfl, rfl, rfl, .empty⟩

/-- Any call but an association leaves the numbers alone, if what it adds to the records does. -/
theorem other (h : w.Numbered refuses fileNumber count) {w' : TrapWriter}
    {call : RefusableCall} (hc : call ≠ .association) (hs : (w.tried call).SameButStore w')
    (hk : w'.keeps = w.keeps) (hr : TrapRecord.Numbered refuses fileNumber count w'.records) :
    w'.Numbered refuses fileNumber count where
  keeps := hk.trans h.keeps
  refusing := by rw [hs.refuses, refuses_tried, h.refusing]
  attempts := by
    rw [hs.attempts, attempts_tried, ← h.attempts]
    cases call <;> trivial
  records := hr

theorem freshLabel (h : w.Numbered refuses fileNumber count) :
    w.freshLabel.2.Numbered refuses fileNumber count :=
  ⟨h.keeps, h.refusing, h.attempts, h.records⟩

theorem writeComment (h : w.Numbered refuses fileNumber count) (text : String) :
    (w.writeComment text).2.Numbered refuses fileNumber count := by
  refine h.other (by decide) (w.sameButStore_write .comment _) (w.keeps_write ..) ?_
  have hr : (w.writeComment text).2.records = _ := w.records_write .comment (.comment text)
  rw [hr]
  split
  · exact h.records.comment text
  · simpa using h.records

theorem flush (h : w.Numbered refuses fileNumber count) :
    w.flush.2.Numbered refuses fileNumber count := by
  refine h.other (by decide) w.sameButStore_flush w.records_flush.2 ?_
  rw [w.records_flush.1]
  exact h.records

theorem unknownLocation (h : w.Numbered refuses fileNumber count) :
    w.unknownLocation.2.Numbered refuses fileNumber count where
  keeps := w.keeps_unknownLocation.trans h.keeps
  refusing := by rw [w.refuses_unknownLocation, h.refusing]
  attempts := by
    rw [w.attempts_unknownLocation]
    exact h.attempts
  records := by
    obtain ⟨labels, hr⟩ := w.records_unknownLocation
    rw [hr]
    exact h.records.unknownLocations labels

/-- A diagnostic that is refused takes no number. -/
theorem writeDiagnostic_error (h : w.Numbered refuses fileNumber count) {row : DiagnosticRow}
    {cause : Failure} (he : (w.writeDiagnostic row).1 = .error cause) :
    (w.writeDiagnostic row).2.Numbered refuses fileNumber count := by
  refine h.other (by decide) (w.sameButStore_write .diagnostic _) (w.keeps_write ..) ?_
  have hr : (w.writeDiagnostic row).2.records = _ := w.records_write .diagnostic (.diagnostic row)
  have he' : (w.write .diagnostic (.diagnostic row)).1 ≠ .ok () := by
    rw [← writeDiagnostic, he]
    simp
  rw [hr, if_neg fun hk => he' hk.2, List.append_nil]
  exact h.records

/-- An association is tried with the number of the diagnostic that was stored last. -/
theorem of_write (hk : w.keeps = true) (hw : w.refuses .association = refuses)
    (ha : w.attempts.association = count) {before : List TrapRecord}
    (hb : TrapRecord.Numbered refuses fileNumber count before) {row : DiagnosticRow}
    (hr : w.records = before ++ [.diagnostic row]) :
    (w.write .association
      (.association ⟨row.id, AssociationRow.compilation, fileNumber, count⟩)).2.Numbered refuses
        fileNumber (count + 1) := by
  let record : TrapRecord :=
    .association ⟨row.id, AssociationRow.compilation, fileNumber, count⟩
  have hs := w.sameButStore_write .association record
  have hok : (w.write .association record).1 = .ok () ↔ refuses count = false := by
    rw [w.result_write_of_keeps hk, TrapAttempts.of, hw, ha]
  refine ⟨(w.keeps_write ..).trans hk, ?_, ?_, ?_⟩
  · rw [hs.refuses, refuses_tried, hw]
  · rw [hs.attempts, attempts_tried, ← ha]
    rfl
  · have hrecords : (w.write .association record).2.records =
        before ++ TrapRecord.entry refuses fileNumber count row := by
      rw [records_write, hr, TrapRecord.entry]
      cases hn : refuses count <;> simp [hk, hok, hn, record]
    rw [hrecords]
    exact hb.diagnostic row

/-- A diagnostic that is stored takes the next number, whether its association is stored or not. -/
theorem associate (h : w.Numbered refuses fileNumber count) {row : DiagnosticRow}
    (ho : (w.writeDiagnostic row).1 = .ok ()) {state : UnitState}
    (hf : state.fileNumber = fileNumber) (hc : state.count = count) :
    (Engine.associate (w.writeDiagnostic row).2 state row.id).2.1.Numbered refuses fileNumber
      (count + 1) := by
  have hs := w.sameButStore_write .diagnostic (.diagnostic row)
  subst hf hc
  refine of_write ((w.keeps_write ..).trans h.keeps) ?_ ?_ h.records
    ((w.records_write .diagnostic (.diagnostic row)).trans (by rw [if_pos ⟨h.keeps, ho⟩]))
  · exact (congrFun hs.refuses .association).trans h.refusing
  · exact (congrArg TrapAttempts.association hs.attempts).trans h.attempts

end TrapWriter.Numbered

/-! ### Calls -/

theorem TrapWriter.Numbered.locate {refuses : Nat → Bool} {fileNumber count : Nat} {w : TrapWriter}
    (h : w.Numbered refuses fileNumber count) {place : Place} (hp : place.storesNone = true) :
    (place.locate w).2.Numbered refuses fileNumber count := by
  cases place with
  | unknown => exact h.unknownLocation
  | fresh => exact h.freshLabel
  | provided calls answer =>
    obtain rfl := List.isEmpty_iff.mp hp
    exact h

namespace Engine

variable (e : Engine) {refuses : Nat → Bool} {fileNumber : Nat}

/-- Storing a report takes the next number, or fails before a diagnostic is stored. -/
theorem numbered_store (now : String) (r : Report) (body : String) (location : Label)
    {trap : TrapWriter} {state : UnitState} (hf : state.fileNumber = fileNumber)
    (h : trap.Numbered refuses fileNumber state.count) :
    let stored := e.store now r body location trap (some state)
    ∃ state', stored.2.2 = some state' ∧ state'.fileNumber = fileNumber ∧
      stored.2.1.Numbered refuses fileNumber state'.count := by
  intro stored
  rcases e.store_cases now r body location trap (some state) with
    ⟨cause, he, hs⟩ | ⟨_, hn, _⟩ | ⟨s, ho, hn, hs⟩
  · have hs' : stored = _ := hs
    rw [hs']
    exact ⟨state, rfl, hf, h.freshLabel.writeDiagnostic_error he⟩
  · contradiction
  · have hs' : stored = _ := hs
    obtain rfl := Option.some.inj hn
    rw [hs']
    exact ⟨_, rfl, hf, h.freshLabel.associate ho hf rfl⟩

/-- A report raised with a state takes the next number, or none. -/
theorem numbered_diagnostic (now : String) (r : Report) {place : Place}
    (hp : place.storesNone = true) {trap : TrapWriter} {state : UnitState}
    (hf : state.fileNumber = fileNumber) (h : trap.Numbered refuses fileNumber state.count) :
    let o := e.diagnostic now r place.locate trap (some state)
    ∃ state', o.state = some state' ∧ state'.fileNumber = fileNumber ∧
      o.trap.Numbered refuses fileNumber state'.count := by
  intro o
  have hl := h.locate hp
  rcases e.diagnostic_cases now r place.locate trap (some state) with ⟨_, ho⟩ | ⟨notice, _, ho⟩
  · have ho' : o = _ := ho
    rw [ho']
    exact ⟨state, rfl, hf, h⟩
  · rcases (e.screen r).2.emit_cases now r (r.body (UnitState.trailLines (some state)) notice)
      place.locate trap (some state) with ⟨cause, _, he⟩ | ⟨location, _, hstored⟩
    · have ho' : o = _ := ho.trans he
      rw [ho']
      exact ⟨state, rfl, hf, hl⟩
    · obtain ⟨state', hs, hf', hn⟩ := (e.screen r).2.numbered_store now r
        (r.body (UnitState.trailLines (some state)) notice) location hf hl
      rcases hstored with ⟨cause, _, he⟩ | ⟨_, he⟩
      · have ho' : o = _ := ho.trans he
        rw [ho']
        exact ⟨state', hs, hf', hn⟩
      · have ho' : o = _ := ho.trans he
        rw [ho', finish_eq]
        exact ⟨state', hs, hf', hn⟩

end Engine

/-- Whether a call may be one of the logger of a file: its diagnostics are raised with the state of
the unit. -/
def EngineCall.isOfFile : EngineCall → Bool
  | .diagnostic _ place withState => withState && place.storesNone
  | _ => true

/-- A unit whose diagnostics took their numbers one after the other. -/
structure Worker.Numbered (refuses : Nat → Bool) (fileNumber : Nat) (w : Worker) : Prop where
  file : w.state.fileNumber = fileNumber
  trap : w.trap.Numbered refuses fileNumber w.state.count

theorem Bench.numbered_perform {b : Bench} {refuses : Nat → Bool} {fileNumber : Nat}
    (h : b.worker.Numbered refuses fileNumber) (now : String) {call : EngineCall}
    (hc : call.isOfFile = true) : (b.perform now call).2.worker.Numbered refuses fileNumber := by
  cases call with
  | diagnostic r place withState =>
    obtain ⟨rfl, hp⟩ : withState = true ∧ place.storesNone = true := by
      simpa [EngineCall.isOfFile] using hc
    obtain ⟨state, hs, hf, hn⟩ := b.engine.numbered_diagnostic now r hp h.file h.trap
    have hgot : (b.perform now (.diagnostic r place true)).2.worker.state = state :=
      congrArg (·.getD b.worker.state) hs
    exact ⟨by rw [hgot, hf], by rw [hgot]; exact hn⟩
  | log level text =>
    refine ⟨h.file, ?_⟩
    rcases b.engine.log_cases now level text b.worker.trap with ⟨_, _, ho⟩ | ⟨_, ho⟩
    · simp only [perform, log, ho]
      exact h.trap.writeComment _
    · simp only [perform, log, ho, Engine.trap_finish]
      exact h.trap.writeComment _
  | enter frame => exact ⟨h.file, h.trap⟩
  | leave => exact ⟨h.file, h.trap⟩
  | flushTrap => exact ⟨h.file, h.trap.flush⟩
  | flushLog => exact ⟨h.file, h.trap⟩
  | flush =>
    simp only [perform, Bench.flush]
    split
    · exact ⟨h.file, h.trap.flush⟩
    · exact ⟨h.file, h.trap.flush⟩

/-! ### Runs -/

namespace Session

variable {i fileNumber : Nat} {refuses : Nat → Bool} {w : Worker}

theorem numbered_run {s : Session} (h : s.workers[i]? = some w)
    (hw : w.Numbered refuses fileNumber) {steps : List Step}
    (hc : ∀ st ∈ steps, st.worker = i → st.timed.call.isOfFile = true) :
    ∃ w', (s.run steps).2.workers[i]? = some w' ∧ w'.Numbered refuses fileNumber :=
  invariant_run (fun _ now _ hcall hw => Bench.numbered_perform hw now hcall) h hw hc

end Session

/-! ### Programs of the logger of a file -/

theorem LoggerCall.isOfFile_engineCall (call : LoggerCall) :
    (call.engineCall .file).isOfFile = true := by
  cases call <;> rfl

/-- The row of a program of the logger of a file. -/
theorem Script.isOfFile_flatten (script : Script) (verbosity : Int) :
    ∀ timed ∈ (script.flatten .file verbosity).2, timed.call.isOfFile = true :=
  script.forall_flatten (fun call => call.isOfFile = true) .file (fun _ => rfl) rfl
    LoggerCall.isOfFile_engineCall verbosity

/-- Whether a turn, if it is a turn of the given unit, runs a program of the logger of a file, or
makes a call that such a logger may make. -/
def Turn.isOfFile (unit : Nat) : Turn → Bool
  | .step st => st.worker != unit || st.timed.call.isOfFile
  | .program worker kind _ => worker != unit || kind == .file

theorem Turn.isOfFile_steps {unit : Nat} {t : Turn} (h : t.isOfFile unit = true) (verbosity : Int) :
    ∀ st ∈ t.steps verbosity, st.worker = unit → st.timed.call.isOfFile = true := by
  cases t with
  | step st =>
    intro st' hm hu
    obtain rfl := List.mem_singleton.mp hm
    simpa [isOfFile, hu] using h
  | program worker kind script =>
    intro st hm hu
    obtain ⟨timed, ht, rfl⟩ := List.mem_map.mp hm
    obtain rfl : kind = .file := by
      have hw : worker = unit := hu
      simpa [isOfFile, hw] using h
    exact script.isOfFile_flatten verbosity timed ht

/-- The diagnostics of a unit in the order of their numbers, with gaps where the association was
refused. -/
structure Worker.InOrder (refuses : Nat → Bool) (fileNumber : Nat) (w : Worker) : Prop where
  file : w.state.fileNumber = fileNumber
  count : w.state.count = (TrapRecord.diagnostics w.trap.records).length
  placed : ∀ pre row post, w.trap.records = pre ++ .association row :: post →
    ∃ earlier d, pre = earlier ++ [.diagnostic d] ∧
      row = ⟨d.id, "compilation", fileNumber, (TrapRecord.diagnostics earlier).length⟩
  increasing : ((TrapRecord.associations w.trap.records).map AssociationRow.sequence).Pairwise (· < ·)
  numbers : (TrapRecord.associations w.trap.records).map AssociationRow.sequence =
    (List.range w.state.count).filter fun n => !refuses n
  noGaps : (∀ n < w.state.count, refuses n = false) →
    (TrapRecord.associations w.trap.records).map AssociationRow.sequence =
      List.range w.state.count

theorem Worker.Numbered.inOrder {refuses : Nat → Bool} {fileNumber : Nat} {w : Worker}
    (h : w.Numbered refuses fileNumber) : w.InOrder refuses fileNumber := by
  have hr := h.trap.records
  refine ⟨h.file, hr.length_diagnostics.symm, fun pre row post => hr.placed, ?_, hr.sequences, ?_⟩
  · rw [hr.sequences]
    exact List.pairwise_lt_range.filter _
  · intro hn
    rw [hr.sequences, List.filter_eq_self]
    intro n hm
    simp [hn n (List.mem_range.mp hm)]

/-- The diagnostics of a file are numbered in order, whatever fails: at every point of a run in
which a unit that keeps its records has the logger of a file. The other units and the engine may be
anything. The count of the unit is the number of its diagnostics, and an association stands directly
after its diagnostic and has the number of diagnostics before that one. So no number is used twice,
and only a refused association leaves one out. -/
theorem diagnostics_numbered_in_order {s : Session} {i fileNumber : Nat}
    {refuses : RefusableCall → Nat → Bool}
    (hw : s.workers[i]? = some { trap := .recording refuses, state := { fileNumber } })
    {ts : List Turn} (ht : ∀ t ∈ ts, t.isOfFile i = true) :
    let steps := ts.flatMap (Turn.steps s.engine.settings.verbosity)
    (s.turns ts).2 = (s.run steps).2 ∧
    ∀ before after, steps = before ++ after →
      ∃ w, (s.run before).2.workers[i]? = some w ∧
        w.InOrder (refuses .association) fileNumber := by
  intro steps
  refine ⟨(s.turns_eq_run ts).1, fun before after hs => ?_⟩
  have hsteps : ∀ st ∈ before, st.worker = i → st.timed.call.isOfFile = true := by
    intro st hm
    have hm' : st ∈ steps := by
      rw [hs]
      exact List.mem_append_left after hm
    obtain ⟨t, htm, hst⟩ := List.mem_flatMap.mp hm'
    exact t.isOfFile_steps (ht t htm) _ st hst
  obtain ⟨w, hw', hn⟩ := Session.numbered_run hw ⟨rfl, .recording fileNumber refuses⟩ hsteps
  exact ⟨w, hw', hn.inOrder⟩

/-- Of four diagnostics the second finds no location and takes no number. Of the others the second
is refused its association, so its number is left out. -/
theorem diagnostics_numbered_in_order_with_gap :
    let refuses : RefusableCall → Nat → Bool := fun call n => call == .association && n == 1
    let unit : Worker := { trap := .recording refuses, state := { fileNumber := 7 } }
    let s : Session := ⟨.ofStream {} (.memory {}), [unit]⟩
    let raise (place : Place) : Turn :=
      .step ⟨0, "t", .diagnostic { severity := .warn, message := "odd" } place true⟩
    let ts : List Turn :=
      [raise .unknown, raise (.resolved (.error (.reported "lost"))),
        .program 0 .file (.within ⟨"block", "f", "a.rs"⟩ (.calls [⟨"t", .info "on"⟩] .bail) .done),
        raise .unknown, raise .fresh]
    let after := (s.turns ts).2
    (∀ t ∈ ts, t.isOfFile 0 = true) ∧
    ∃ w, after.workers[0]? = some w ∧ w.InOrder (refuses .association) 7 ∧
      (TrapRecord.associations w.trap.records).map AssociationRow.sequence = [0, 2] := by
  intro refuses unit s raise ts after
  have ht : ∀ t ∈ ts, t.isOfFile 0 = true := by decide
  obtain ⟨hrun, hall⟩ := diagnostics_numbered_in_order (s := s) (i := 0) rfl ht
  obtain ⟨w, hw, ho⟩ := hall _ [] (List.append_nil _).symm
  rw [← hrun] at hw
  have hc : after.workers[0]?.map (fun w => w.state.count) = some 3 := by decide
  refine ⟨ht, w, hw, ho, ?_⟩
  have hc' : w.state.count = 3 := by simpa [after, hw] using hc
  rw [ho.numbers, hc']
  decide

end DiagnosticLog
