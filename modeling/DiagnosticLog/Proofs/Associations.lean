import DiagnosticLog.Proofs.Locations
import DiagnosticLog.Proofs.Numbering

/-! The count of a unit and its associations. The count goes on when the association of a diagnostic
is tried, not when it is stored. So the count is the number of the associations of the unit, numbered
from zero, up to the first association that is refused, and never again after it. -/

namespace DiagnosticLog

/-! ### Writers -/

/-- The call of a kind that may be refused, if it is one. -/
def TrapCall.refusable? : TrapCall → Option RefusableCall
  | .unknownLocation => some .unknownLocation
  | .diagnostic _ => some .diagnostic
  | .association _ => some .association
  | .comment _ => some .comment
  | .flush => some .flush
  | .freshLabel | .keyedLabel _ | .grow _ => none

/-- Whether a call stores no association. -/
def TrapCall.associatesNone : TrapCall → Bool
  | .association _ => false
  | _ => true

/-- A call is one attempt of its kind, whatever comes of it. -/
theorem TrapWriter.refusals_perform (w : TrapWriter) (call : TrapCall) :
    (w.perform call).2.refuses = w.refuses ∧
      (w.perform call).2.attempts = call.refusable?.elim w.attempts w.attempts.add := by
  have hwrite : ∀ kind record, (w.write kind record).2.refuses = w.refuses ∧
      (w.write kind record).2.attempts = w.attempts.add kind :=
    fun kind record => ⟨(w.sameButStore_write kind record).refuses,
      (w.sameButStore_write kind record).attempts⟩
  cases call with
  | freshLabel => exact ⟨rfl, rfl⟩
  | unknownLocation => exact ⟨w.refuses_unknownLocation, w.attempts_unknownLocation⟩
  | keyedLabel key =>
    have hs := w.freshLabel.2.sameButStore_putText (Statement.keyed w.freshLabel.1 key).text
    rw [← w.keyedLabel_snd key] at hs
    exact ⟨hs.refuses, hs.attempts⟩
  | diagnostic row => exact hwrite ..
  | association row => exact hwrite ..
  | comment text => exact hwrite ..
  | flush => exact ⟨w.sameButStore_flush.refuses, w.sameButStore_flush.attempts⟩
  | grow bytes => exact ⟨(w.sameButStore_grow bytes).1.refuses, (w.sameButStore_grow bytes).1.attempts⟩

theorem TrapMoment.associations_after {m : TrapMoment} (h : m.call.associatesNone = true) :
    TrapRecord.associations m.after.records = TrapRecord.associations m.before.records := by
  obtain ⟨added, hr, hs⟩ := m.moved.records
  have hnone : TrapRecord.associations m.record?.toList = [] := by
    obtain ⟨w, call⟩ := m
    cases call with
    | association row => contradiction
    | unknownLocation =>
      simp only [record?]
      cases (TrapMoment.mk w .unknownLocation).takes <;> rfl
    | _ => rfl
  have hadded : (TrapRecord.associations added).Sublist [] := hnone ▸ hs.filterMap _
  rw [hr, TrapRecord.associations_append, List.sublist_nil.mp hadded, List.append_nil]

/-- A writer that keeps its records, among them the associations of a unit that were not refused, of
so many that were tried with the numbers from zero. -/
structure TrapWriter.Associated (refuses : Nat → Bool) (fileNumber count : Nat) (w : TrapWriter) :
    Prop where
  keeps : w.keeps = true
  refusing : w.refuses .association = refuses
  tried : w.attempts.association = count
  ofUnit : ∀ row ∈ TrapRecord.associations w.records,
    row.unit = AssociationRow.compilation ∧ row.unitNumber = fileNumber
  numbers : (TrapRecord.associations w.records).map AssociationRow.sequence =
    (List.range count).filter fun n => !refuses n

namespace TrapWriter.Associated

variable {refuses : Nat → Bool} {fileNumber count : Nat} {w : TrapWriter}

theorem recording (fileNumber : Nat) (refuses : RefusableCall → Nat → Bool) :
    (TrapWriter.recording refuses).Associated (refuses .association) fileNumber 0 :=
  ⟨rfl, rfl, rfl, by rintro _ ⟨⟩, rfl⟩

theorem perform (h : w.Associated refuses fileNumber count) {call : TrapCall}
    (hc : call.associatesNone = true) :
    (w.perform call).2.Associated refuses fileNumber count := by
  obtain ⟨hr, ha⟩ := w.refusals_perform call
  have hassoc : TrapRecord.associations (w.perform call).2.records = _ :=
    TrapMoment.associations_after (m := ⟨w, call⟩) hc
  refine ⟨(w.records_perform call).2.trans h.keeps, by rw [hr, h.refusing], ?_,
    by rw [hassoc]; exact h.ofUnit, by rw [hassoc]; exact h.numbers⟩
  rw [ha, ← h.tried]
  cases call <;> first | rfl | cases hc

theorem run (h : w.Associated refuses fileNumber count) {calls : List TrapCall}
    (hc : ∀ c ∈ calls, c.associatesNone = true) :
    (w.run calls).2.Associated refuses fileNumber count := by
  induction calls generalizing w with
  | nil => exact h
  | cons call rest ih =>
    obtain ⟨hcall, hrest⟩ := List.forall_mem_cons.mp hc
    rw [run_cons]
    exact ih (h.perform hcall) hrest

/-- An association that is tried takes the next number, refused or not. -/
theorem associate (h : w.Associated refuses fileNumber count) (diagnostic : Label) :
    (w.perform (.association
      ⟨diagnostic, AssociationRow.compilation, fileNumber, count⟩)).2.Associated refuses fileNumber
        (count + 1) := by
  let row : AssociationRow := ⟨diagnostic, AssociationRow.compilation, fileNumber, count⟩
  have hs := w.sameButStore_write .association (.association row)
  have hok : (w.write .association (.association row)).1 = .ok () ↔ refuses count = false := by
    rw [w.result_write_of_keeps h.keeps, TrapAttempts.of, h.refusing, h.tried]
  have hrecords : TrapRecord.associations (w.write .association (.association row)).2.records =
      TrapRecord.associations w.records ++ if refuses count then [] else [row] := by
    rw [w.records_write, TrapRecord.associations_append]
    cases hn : refuses count <;> simp [h.keeps, hok, hn, TrapRecord.associations]
  refine ⟨(w.keeps_write ..).trans h.keeps, (congrFun hs.refuses _).trans h.refusing, ?_, ?_, ?_⟩
  · have ha : (w.write .association (.association row)).2.attempts.association = _ :=
      congrArg TrapAttempts.association hs.attempts
    exact ha.trans (congrArg (· + 1) h.tried)
  · have hrow : ∀ a ∈ if refuses count then [] else [row], a = row := by
      split <;> simp
    intro a ha
    rcases List.mem_append.mp (hrecords ▸ ha) with ha | ha
    · exact h.ofUnit a ha
    · rw [hrow a ha]
      exact ⟨rfl, rfl⟩
  · have hnumbers : (TrapRecord.associations (w.write .association
        (.association row)).2.records).map AssociationRow.sequence = _ :=
      congrArg (List.map AssociationRow.sequence) hrecords
    refine hnumbers.trans ?_
    rw [List.map_append, h.numbers, List.range_succ, List.filter_append]
    congr 1
    cases hn : refuses count <;> simp [row, hn]

end TrapWriter.Associated

/-! ### Calls -/

/-- The calls that store the records of a report end with its association, under the next number of
the unit; or they store none, and no number is taken. -/
theorem Engine.counts_store (e : Engine) (now : String) (r : Report) (body : String)
    (location : Label) (trap : TrapWriter) (state : Option UnitState) :
    let calls := e.storeCalls now r body location trap state
    let state' := (e.store now r body location trap state).2.2
    (state' = state ∧ ∀ c ∈ calls, c.associatesNone = true) ∨
      ∃ s first id, state = some s ∧ state' = some s.nextNumber.2 ∧
        calls = first ++
          [.association ⟨id, AssociationRow.compilation, s.fileNumber, s.count⟩] ∧
        ∀ c ∈ first, c.associatesNone = true := by
  intro calls state'
  let row := e.row now r body trap.freshLabel.1 location
  have hcalls : calls = .freshLabel :: .diagnostic row ::
      associateCalls (trap.freshLabel.2.writeDiagnostic row).1 trap.freshLabel.1 state := rfl
  rcases e.store_cases now r body location trap state with
    ⟨cause, hc, h⟩ | ⟨hc, rfl, h⟩ | ⟨s, hc, rfl, h⟩
  · refine .inl ⟨congrArg (·.2.2) h, ?_⟩
    have hnone : associateCalls (.error cause) trap.freshLabel.1 state = [] := by
      cases state <;> rfl
    rw [hcalls, hc, hnone]
    simp [TrapCall.associatesNone]
  · refine .inl ⟨congrArg (·.2.2) h, ?_⟩
    rw [hcalls]
    simp [TrapCall.associatesNone, associateCalls]
  · refine .inr ⟨s, [.freshLabel, .diagnostic row], trap.freshLabel.1, rfl, congrArg (·.2.2) h, ?_,
      by simp [TrapCall.associatesNone]⟩
    rw [hcalls, hc]
    rfl

/-- The state after a report went out: as it was, or as its records left it. -/
theorem Engine.state_emit (e : Engine) (now : String) (r : Report) (body : String)
    (locate : Locator) (trap : TrapWriter) (state : Option UnitState) :
    (e.emit now r body locate trap state).state =
      match (locate trap).1 with
      | .error _ => state
      | .ok location => (e.store now r body location (locate trap).2 state).2.2 := by
  rcases e.emit_cases now r body locate trap state with
    ⟨_, hl, h⟩ | ⟨_, hl, ⟨_, _, h⟩ | ⟨_, h⟩⟩
  · simp [h, hl]
  · simp [h, hl]
  · simp [h, hl, finish_eq]

namespace Bench

variable (b : Bench)

/-- The count of a unit goes on exactly when the engine tries an association, which has the number
that the count was. -/
theorem counts_perform (now : String) (call : EngineCall) :
    let state := b.worker.state
    let state' := (b.perform now call).2.worker.state
    state'.fileNumber = state.fileNumber ∧
    ((state'.count = state.count ∧ ∀ c ∈ b.recordCalls now call, c.associatesNone = true) ∨
      ∃ first id, state'.count = state.count + 1 ∧
        b.recordCalls now call = first ++
          [.association ⟨id, AssociationRow.compilation, state.fileNumber, state.count⟩] ∧
        ∀ c ∈ first, c.associatesNone = true) := by
  intro state state'
  cases call with
  | diagnostic r place withState =>
    have hstate : state' = (b.engine.diagnostic now r place.locate b.worker.trap
        (b.stateIf withState)).state.getD state := rfl
    have hsame : (b.stateIf withState).getD state = state := by
      cases withState <;> rfl
    simp only [recordCalls]
    rw [hstate, Engine.diagnostic]
    obtain ⟨_ | notice, e⟩ := b.engine.screen r
    · dsimp only
      rw [hsame]
      exact ⟨rfl, .inl ⟨rfl, by simp⟩⟩
    · dsimp only
      rw [Engine.state_emit]
      obtain ⟨cause | location, trap⟩ := place.locate b.worker.trap
      · dsimp only
        rw [hsame]
        exact ⟨rfl, .inl ⟨rfl, by simp⟩⟩
      · dsimp only
        rcases e.counts_store now r (r.body (UnitState.trailLines (b.stateIf withState)) notice)
          location trap (b.stateIf withState) with ⟨hs, hc⟩ | ⟨s, first, id, hs, hs', hc, hf⟩
        · rw [hs, hsame]
          exact ⟨rfl, .inl ⟨rfl, hc⟩⟩
        · obtain rfl : s = state := by
            rw [hs] at hsame
            exact hsame
          rw [hs', hc]
          exact ⟨rfl, .inr ⟨first, id, rfl, rfl, hf⟩⟩
  | log level text => exact ⟨rfl, .inl ⟨rfl, by simp [recordCalls, TrapCall.associatesNone]⟩⟩
  | enter frame | leave | flushLog => exact ⟨rfl, .inl ⟨rfl, by simp [recordCalls]⟩⟩
  | flushTrap => exact ⟨rfl, .inl ⟨rfl, by simp [recordCalls, TrapCall.associatesNone]⟩⟩
  | flush =>
    have hs : state' = state := by
      simp only [state', perform, flush]
      split <;> rfl
    rw [hs]
    exact ⟨rfl, .inl ⟨rfl, by simp [recordCalls, TrapCall.associatesNone]⟩⟩

end Bench

/-- Whether no association is stored in search of the location of a call. -/
def EngineCall.associatesNone : EngineCall → Bool
  | .diagnostic _ place _ => place.calls.all TrapCall.associatesNone
  | _ => true

/-- A unit whose count is the number of associations that were tried. -/
structure Worker.Associated (refuses : Nat → Bool) (fileNumber : Nat) (w : Worker) : Prop where
  file : w.state.fileNumber = fileNumber
  trap : w.trap.Associated refuses fileNumber w.state.count

theorem Bench.associated_perform {b : Bench} {refuses : Nat → Bool} {fileNumber : Nat}
    (h : b.worker.Associated refuses fileNumber) (now : String) {call : EngineCall}
    (hc : call.associatesNone = true) :
    (b.perform now call).2.worker.Associated refuses fileNumber := by
  obtain ⟨rfl, ht⟩ := h
  have hsearch : ∀ c ∈ b.searchCalls call, c.associatesNone = true := by
    cases call with
    | diagnostic r place withState =>
      simp only [searchCalls]
      split
      · simp
      · exact List.all_eq_true.mp hc
    | _ => simp [searchCalls]
  have hs := ht.run hsearch
  obtain ⟨hfile, ⟨hcount, hr⟩ | ⟨first, id, hcount, hr, hfirst⟩⟩ := b.counts_perform now call
  · refine ⟨hfile, ?_⟩
    rw [hcount, b.trap_perform]
    exact hs.run hr
  · refine ⟨hfile, ?_⟩
    rw [hcount, b.trap_perform, hr, TrapWriter.run_append]
    exact (hs.run hfirst).associate id

/-! ### Runs -/

theorem LoggerCall.associatesNone_engineCall (kind : LoggerKind) (call : LoggerCall) :
    (call.engineCall kind).associatesNone = true := by
  cases call <;> rfl

/-- A unit whose count is the number of its associations, which have the numbers from zero. -/
structure Worker.CountsAssociations (w : Worker) : Prop where
  count : w.state.count = (TrapRecord.associations w.trap.records).length
  numbers : (TrapRecord.associations w.trap.records).map AssociationRow.sequence =
    List.range w.state.count

/-- The count is right as long as no number went to an association that was refused. -/
theorem Worker.Associated.countsAssociations_iff {refuses : Nat → Bool} {fileNumber : Nat}
    {w : Worker} (h : w.Associated refuses fileNumber) :
    w.CountsAssociations ↔ ∀ n < w.state.count, refuses n = false := by
  have hn := h.trap.numbers
  constructor
  · intro hw n hlt
    have hm : n ∈ (List.range w.state.count).filter fun n => !refuses n := by
      rw [← hn, hw.numbers]
      exact List.mem_range.mpr hlt
    simpa using (List.mem_filter.mp hm).2
  · intro hnone
    have hall : (List.range w.state.count).filter (fun n => !refuses n) =
        List.range w.state.count := by
      rw [List.filter_eq_self]
      intro n hm
      simp [hnone n (List.mem_range.mp hm)]
    rw [hall] at hn
    refine ⟨?_, hn⟩
    rw [← List.length_map AssociationRow.sequence, hn, List.length_range]

/-- The count of a unit counts the associations that were tried, whoever makes its calls and whatever
fails: at every point of a run in which a unit keeps its records, and only the engine stores
associations for it. Every association of the unit is that of a diagnostic of its file, and their
numbers in order are those below the count that were not refused. So the count is the number of the
associations, and they have all numbers from zero, if and only if no association was refused so far.
The other units and the engine may be anything. -/
theorem associations_tried_are_counted {s : Session} {i fileNumber : Nat}
    {refuses : RefusableCall → Nat → Bool}
    (hw : s.workers[i]? = some { trap := .recording refuses, state := { fileNumber } })
    {ts : List Turn} (ht : ∀ t ∈ ts, t.makesOnly i EngineCall.associatesNone = true) :
    let steps := ts.flatMap (Turn.steps s.engine.settings.verbosity)
    (s.turns ts).2 = (s.run steps).2 ∧
    ∀ before after, steps = before ++ after →
      ∃ w, (s.run before).2.workers[i]? = some w ∧
        w.trap.Associated (refuses .association) fileNumber w.state.count ∧
        (w.CountsAssociations ↔ ∀ n < w.state.count, refuses .association n = false) := by
  intro steps
  refine ⟨(s.turns_eq_run ts).1, fun before after hs => ?_⟩
  have hall : ∀ st ∈ steps, st.worker = i → st.timed.call.associatesNone = true :=
    Turn.allowed_steps (fun _ => rfl) rfl LoggerCall.associatesNone_engineCall ht _
  have hsteps : ∀ st ∈ before, st.worker = i → st.timed.call.associatesNone = true := by
    rw [hs] at hall
    exact (List.forall_mem_append.mp hall).1
  obtain ⟨w, hw', ha⟩ := Session.invariant_run
    (fun _ now _ hc h => Bench.associated_perform h now hc) hw
    (show Worker.Associated (refuses .association) fileNumber _ from
      ⟨rfl, .recording fileNumber refuses⟩) hsteps
  exact ⟨w, hw', ha.trap, ha.countsAssociations_iff⟩

/-- One who is asked for a location stores a diagnostic of its own, and a report is raised without
the state: neither takes a number. Of the three numbers that are taken the second is lost. -/
theorem associations_tried_are_counted_second_lost :
    let refuses : RefusableCall → Nat → Bool := fun call n => call == .association && n == 1
    let unit : Worker := { trap := .recording refuses, state := { fileNumber := 7 } }
    let s : Session := ⟨.ofStream {} (.memory {}), [unit]⟩
    let own : DiagnosticRow := ⟨⟨90⟩, "own", 3, "", "own", "own", ⟨91⟩⟩
    let raise (place : Place) (withState : Bool) : Turn :=
      .step ⟨0, "t", .diagnostic { severity := .warn, message := "odd" } place withState⟩
    let ts : List Turn := [raise (.provided [.diagnostic own] (.ok ⟨92⟩)) true,
      raise .unknown false, raise .fresh true, .program 0 .plain (.calls [⟨"t", .info "on"⟩] .bail),
      raise .unknown true]
    let after := (s.turns ts).2
    (∀ t ∈ ts, t.makesOnly 0 EngineCall.associatesNone = true) ∧
    ∃ w, after.workers[0]? = some w ∧ w.state.count = 3 ∧
      (TrapRecord.associations w.trap.records).map AssociationRow.sequence = [0, 2] ∧
      ¬ w.CountsAssociations := by
  intro refuses unit s own raise ts after
  have ht : ∀ t ∈ ts, t.makesOnly 0 EngineCall.associatesNone = true := by decide
  obtain ⟨hrun, hall⟩ := associations_tried_are_counted (s := s) (i := 0) rfl ht
  obtain ⟨w, hw, ha, hiff⟩ := hall _ [] (List.append_nil _).symm
  rw [← hrun] at hw
  have hc : after.workers[0]?.map (fun w => w.state.count) = some 3 := by decide
  have hc' : w.state.count = 3 := by simpa [after, hw] using hc
  refine ⟨ht, w, hw, hc', ?_, ?_⟩
  · rw [ha.numbers, hc']
    decide
  · rw [hiff, hc']
    decide

/-- The count can pass the number of the associations: the first of two is refused, and the second
has the number that the first did not use. -/
theorem count_may_pass_associations :
    ¬ ∀ (s : Session) (i fileNumber : Nat) (refuses : RefusableCall → Nat → Bool)
      (steps : List Step),
      s.workers[i]? = some { trap := .recording refuses, state := { fileNumber } } →
      (∀ st ∈ steps, st.timed.call.isOfFile = true) →
      ∃ w, (s.run steps).2.workers[i]? = some w ∧ w.CountsAssociations := by
  intro hall
  let refuses : RefusableCall → Nat → Bool := fun call n => call == .association && n == 0
  let unit : Worker := { trap := .recording refuses, state := { fileNumber := 7 } }
  let s : Session := ⟨.ofStream {} (.memory {}), [unit]⟩
  let raise : Step :=
    ⟨0, "t", .diagnostic { severity := .warn, message := "odd" } (.resolved (.ok ⟨5⟩)) true⟩
  obtain ⟨w, hw, hcount, -⟩ := hall s 0 7 refuses [raise, raise] rfl (by decide)
  have hc : (s.run [raise, raise]).2.workers[0]?.map (fun w => w.state.count) = some 2 := by
    decide
  have ha : (s.run [raise, raise]).2.workers[0]?.map
      (fun w => (TrapRecord.associations w.trap.records).length) = some 1 := by
    decide
  rw [hw, Option.map_some] at hc ha
  rw [Option.some.inj hc, Option.some.inj ha] at hcount
  exact absurd hcount (by decide)

end DiagnosticLog
