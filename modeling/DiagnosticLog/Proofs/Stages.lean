import DiagnosticLog.Session

/-! What the stages of a call and the steps of a session leave alone: only the counting stage
touches the counts, and nothing touches the settings or the number of units. -/

namespace DiagnosticLog

namespace Engine

variable (e : Engine)

@[simp] theorem tally_writeLine (message : Message) : (e.writeLine message).2.tally = e.tally := rfl

@[simp] theorem settings_writeLine (message : Message) :
    (e.writeLine message).2.settings = e.settings := rfl

@[simp] theorem tally_flush : e.flush.2.tally = e.tally := rfl

@[simp] theorem settings_flush : e.flush.2.settings = e.settings := rfl

/-- The last stage in full: the line is taken or refused, and the rest stays as it was. -/
theorem finish_eq (message : Message) (located : Bool) (trap : TrapWriter)
    (state : Option UnitState) :
    e.finish message located trap state =
      ⟨{ result := (e.writeLine message).1, located,
          line := if (e.writeLine message).1 = .ok () then some message else none },
        (e.writeLine message).2, trap, state⟩ := by
  unfold finish
  obtain ⟨_ | _, e'⟩ := e.writeLine message <;> simp

@[simp] theorem trap_finish (m : Message) (located : Bool) (trap : TrapWriter)
    (state : Option UnitState) : (e.finish m located trap state).trap = trap := by
  rw [finish_eq]

theorem line_finish {message line : Message} {located : Bool} {trap : TrapWriter}
    {state : Option UnitState}
    (h : (e.finish message located trap state).receipt.line = some line) : line = message := by
  simp only [finish_eq] at h
  split at h
  · exact (Option.some.inj h).symm
  · contradiction

theorem isSome_line_finish (message : Message) (located : Bool) (trap : TrapWriter)
    (state : Option UnitState) :
    let o := e.finish message located trap state
    o.receipt.line.isSome = decide (o.receipt.result = .ok ()) := by
  rw [finish_eq]
  by_cases h : (e.writeLine message).1 = .ok () <;> simp [h]

/-- A message is refused as a comment, or its line is written. -/
theorem log_cases (now : String) (level : Level) (text : String) (trap : TrapWriter) :
    let message : Message := ⟨level.kind, text, now⟩
    let written := trap.writeComment message.plain
    (∃ cause, written.1 = .error cause ∧
      e.log now level text trap = ⟨{ result := .error (.trap cause) }, e, written.2, none⟩) ∨
    (written.1 = .ok () ∧ e.log now level text trap = e.finish message false written.2 none) := by
  simp only [log]
  generalize trap.writeComment _ = written
  obtain ⟨cause | _, trap'⟩ := written
  · exact .inl ⟨cause, rfl, rfl⟩
  · exact .inr ⟨rfl, rfl⟩

/-- The records of a report are its diagnostic and, for a unit, its association; the second is not
tried if the first fails. -/
theorem store_cases (now : String) (r : Report) (body : String) (location : Label)
    (trap : TrapWriter) (state : Option UnitState) :
    let id := trap.freshLabel.1
    let written := trap.freshLabel.2.writeDiagnostic (e.row now r body id location)
    (∃ cause, written.1 = .error cause ∧
      e.store now r body location trap state = (.error cause, written.2, state)) ∨
    (written.1 = .ok () ∧ state = none ∧
      e.store now r body location trap state = (.ok (), written.2, none)) ∨
    (∃ s, written.1 = .ok () ∧ state = some s ∧
      e.store now r body location trap state =
        ((associate written.2 s id).1, (associate written.2 s id).2.1,
          some (associate written.2 s id).2.2)) := by
  simp only [store]
  generalize trap.freshLabel.2.writeDiagnostic _ = written
  obtain ⟨cause | _, trap'⟩ := written
  · exact .inl ⟨cause, rfl, rfl⟩
  · cases state with
    | none => exact .inr (.inl ⟨rfl, rfl, rfl⟩)
    | some s => exact .inr (.inr ⟨s, rfl, rfl, rfl⟩)

/-- A report that goes out fails at its location, fails at its records, or comes to its line. -/
theorem emit_cases (now : String) (r : Report) (body : String) (locate : Locator)
    (trap : TrapWriter) (state : Option UnitState) :
    (∃ cause, (locate trap).1 = .error cause ∧
      e.emit now r body locate trap state =
        ⟨{ result := .error (.trap cause), located := true }, e, (locate trap).2, state⟩) ∨
    (∃ location, (locate trap).1 = .ok location ∧
      let stored := e.store now r body location (locate trap).2 state
      (∃ cause, stored.1 = .error cause ∧
        e.emit now r body locate trap state =
          ⟨{ result := .error (.trap cause), located := true }, e, stored.2.1, stored.2.2⟩) ∨
      (stored.1 = .ok () ∧
        e.emit now r body locate trap state =
          e.finish ⟨r.severity.tag, r.heading ++ body, now⟩ true stored.2.1 stored.2.2)) := by
  unfold emit
  obtain ⟨cause | location, trap'⟩ := locate trap
  · exact .inl ⟨cause, rfl, rfl⟩
  · refine .inr ⟨location, rfl, ?_⟩
    dsimp only
    obtain ⟨cause | _, trap'', state'⟩ := e.store now r body location trap' state
    · exact .inl ⟨cause, rfl, rfl⟩
    · exact .inr ⟨rfl, rfl⟩

/-- A message changes the engine by its line, or not at all. -/
theorem engine_log (now : String) (level : Level) (text : String) (trap : TrapWriter) :
    (e.log now level text trap).engine = e ∨
      (e.log now level text trap).engine = (e.writeLine ⟨level.kind, text, now⟩).2 := by
  rcases e.log_cases now level text trap with ⟨_, _, h⟩ | ⟨_, h⟩
  · simp [h]
  · simp [h, finish_eq]

/-- A report that goes out changes the engine by its line, or not at all. -/
theorem engine_emit (now : String) (r : Report) (body : String) (locate : Locator)
    (trap : TrapWriter) (state : Option UnitState) :
    (e.emit now r body locate trap state).engine = e ∨
      (e.emit now r body locate trap state).engine =
        (e.writeLine ⟨r.severity.tag, r.heading ++ body, now⟩).2 := by
  rcases e.emit_cases now r body locate trap state with ⟨_, _, h⟩ | ⟨_, _, ⟨_, _, h⟩ | ⟨_, h⟩⟩
  · simp [h]
  · simp [h]
  · simp [h, finish_eq]

@[simp] theorem tally_log (now : String) (level : Level) (text : String) (trap : TrapWriter) :
    (e.log now level text trap).engine.tally = e.tally := by
  rcases e.engine_log now level text trap with h | h <;> simp [h]

@[simp] theorem settings_log (now : String) (level : Level) (text : String) (trap : TrapWriter) :
    (e.log now level text trap).engine.settings = e.settings := by
  rcases e.engine_log now level text trap with h | h <;> simp [h]

@[simp] theorem tally_emit (now : String) (r : Report) (body : String) (locate : Locator)
    (trap : TrapWriter) (state : Option UnitState) :
    (e.emit now r body locate trap state).engine.tally = e.tally := by
  rcases e.engine_emit now r body locate trap state with h | h <;> simp [h]

@[simp] theorem settings_emit (now : String) (r : Report) (body : String) (locate : Locator)
    (trap : TrapWriter) (state : Option UnitState) :
    (e.emit now r body locate trap state).engine.settings = e.settings := by
  rcases e.engine_emit now r body locate trap state with h | h <;> simp [h]

/-- A report that goes out asks for its location. -/
@[simp] theorem located_emit (now : String) (r : Report) (body : String) (locate : Locator)
    (trap : TrapWriter) (state : Option UnitState) :
    (e.emit now r body locate trap state).receipt.located = true := by
  rcases e.emit_cases now r body locate trap state with ⟨_, _, h⟩ | ⟨_, _, ⟨_, _, h⟩ | ⟨_, h⟩⟩
  · simp [h]
  · simp [h]
  · simp [h, finish_eq]

/-- The writer after a report went out: as its location left it, or with the records stored. -/
theorem trap_emit (now : String) (r : Report) (body : String) (locate : Locator)
    (trap : TrapWriter) (state : Option UnitState) :
    (e.emit now r body locate trap state).trap =
      match (locate trap).1 with
      | .error _ => (locate trap).2
      | .ok location => (e.store now r body location (locate trap).2 state).2.1 := by
  rcases e.emit_cases now r body locate trap state with
    ⟨_, hl, h⟩ | ⟨_, hl, ⟨_, _, h⟩ | ⟨_, h⟩⟩
  · simp [h, hl]
  · simp [h, hl]
  · simp [h, hl, finish_eq]

/-- A line that a report wrote has its heading and its body. -/
theorem line_emit {now : String} {r : Report} {body : String} {locate : Locator}
    {trap : TrapWriter} {state : Option UnitState} {m : Message}
    (hm : (e.emit now r body locate trap state).receipt.line = some m) :
    m = ⟨r.severity.tag, r.heading ++ body, now⟩ := by
  rcases e.emit_cases now r body locate trap state with ⟨_, _, h⟩ | ⟨_, _, ⟨_, _, h⟩ | ⟨_, h⟩⟩
  · simp [h] at hm
  · simp [h] at hm
  · rw [h] at hm
    exact e.line_finish hm

/-- A report that goes out has its line in the log exactly if its call returns well. -/
theorem isSome_line_emit (now : String) (r : Report) (body : String) (locate : Locator)
    (trap : TrapWriter) (state : Option UnitState) :
    let o := e.emit now r body locate trap state
    o.receipt.line.isSome = decide (o.receipt.result = .ok ()) := by
  intro o
  rcases e.emit_cases now r body locate trap state with
    ⟨_, _, h⟩ | ⟨_, _, ⟨_, _, h⟩ | ⟨_, h⟩⟩
  · have ho : o = _ := h
    simp [ho]
  · have ho : o = _ := h
    simp [ho]
  · have ho : o = _ := h
    rw [ho]
    exact e.isSome_line_finish ..

@[simp] theorem settings_screen (r : Report) : (e.screen r).2.settings = e.settings := by
  unfold screen
  split <;> rfl

@[simp] theorem stream_screen (r : Report) : (e.screen r).2.stream = e.stream := by
  unfold screen
  split <;> rfl

/-- A diagnostic is counted, and is held back or goes through the stages that are left. -/
theorem diagnostic_cases (now : String) (r : Report) (locate : Locator) (trap : TrapWriter)
    (state : Option UnitState) :
    ((e.screen r).1 = .heldBack ∧
      e.diagnostic now r locate trap state = ⟨.done, (e.screen r).2, trap, state⟩) ∨
    ∃ notice, (e.screen r).1 = .goesOut notice ∧
      e.diagnostic now r locate trap state =
        (e.screen r).2.emit now r (r.body (UnitState.trailLines state) notice) locate trap
          state := by
  unfold diagnostic
  obtain ⟨_ | notice, e'⟩ := e.screen r
  · exact .inl ⟨rfl, rfl⟩
  · exact .inr ⟨notice, rfl, rfl⟩

/-- The counting stage settles what a diagnostic does to the counts. -/
@[simp] theorem tally_diagnostic (now : String) (r : Report) (locate : Locator) (trap : TrapWriter)
    (state : Option UnitState) :
    (e.diagnostic now r locate trap state).engine.tally = (e.screen r).2.tally := by
  unfold diagnostic
  split <;> simp [*]

@[simp] theorem settings_diagnostic (now : String) (r : Report) (locate : Locator)
    (trap : TrapWriter) (state : Option UnitState) :
    (e.diagnostic now r locate trap state).engine.settings = e.settings := by
  unfold diagnostic
  rw [← e.settings_screen r]
  split <;> simp [*]

end Engine

namespace Bench

variable (b : Bench)

@[simp] theorem engine_log (now : String) (level : Level) (text : String) :
    (b.log now level text).2.engine = (b.engine.log now level text b.worker.trap).engine := rfl

@[simp] theorem engine_flush_tally : b.flush.2.engine.tally = b.engine.tally := by
  simp only [flush]
  split <;> rfl

@[simp] theorem engine_flush_settings : b.flush.2.engine.settings = b.engine.settings := by
  simp only [flush]
  split <;> rfl

theorem settings_perform (now : String) (call : EngineCall) :
    (b.perform now call).2.engine.settings = b.engine.settings := by
  cases call <;> simp [perform, diagnostic, settle, enter, leave, flushTrap, flushLog]

end Bench

namespace Session

variable (s : Session)

theorem act_of_getElem? {α : Type} {i : Nat} {w : Worker} (h : s.workers[i]? = some w) (idle : α)
    (deed : Bench → α × Bench) :
    s.act i idle deed =
      ((deed ⟨s.engine, w⟩).1,
        { engine := (deed ⟨s.engine, w⟩).2.engine,
          workers := s.workers.set i (deed ⟨s.engine, w⟩).2.worker }) := by
  simp [act, h]

theorem act_of_none {α : Type} {i : Nat} (h : s.workers[i]? = none) (idle : α)
    (deed : Bench → α × Bench) : s.act i idle deed = (idle, s) := by
  simp [act, h]

@[simp] theorem length_workers_act {α : Type} (i : Nat) (idle : α) (deed : Bench → α × Bench) :
    (s.act i idle deed).2.workers.length = s.workers.length := by
  unfold act
  split <;> simp

@[simp] theorem length_workers_step (st : Step) :
    (s.step st).2.workers.length = s.workers.length :=
  length_workers_act ..

/-- A call of another unit does nothing to a unit. -/
theorem workers_step_of_ne {st : Step} {i : Nat} (hi : st.worker ≠ i) :
    (s.step st).2.workers[i]? = s.workers[i]? := by
  cases hw : s.workers[st.worker]? with
  | none => rw [step, s.act_of_none hw]
  | some w => rw [step, s.act_of_getElem? hw, List.getElem?_set_ne hi]

theorem settings_step (st : Step) : (s.step st).2.engine.settings = s.engine.settings := by
  unfold step act
  split
  · rfl
  · exact Bench.settings_perform ..

@[simp] theorem run_nil : s.run [] = ([], s) := rfl

@[simp] theorem run_cons (st : Step) (rest : List Step) :
    s.run (st :: rest) =
      ((s.step st).1 :: ((s.step st).2.run rest).1, ((s.step st).2.run rest).2) :=
  inTurn_cons ..

theorem run_append (steps more : List Step) :
    s.run (steps ++ more) =
      ((s.run steps).1 ++ ((s.run steps).2.run more).1, ((s.run steps).2.run more).2) :=
  inTurn_append ..

@[simp] theorem length_workers_run (steps : List Step) :
    (s.run steps).2.workers.length = s.workers.length := by
  induction steps generalizing s with
  | nil => rfl
  | cons st rest ih => rw [run_cons, ih, length_workers_step]

/-- What every call of a unit keeps of the unit, a run keeps. -/
theorem invariant_run {P : Worker → Prop} {allowed : EngineCall → Prop}
    (hP : ∀ (b : Bench) (now : String) (call : EngineCall), allowed call → P b.worker →
      P (b.perform now call).2.worker)
    {s : Session} {i : Nat} {w : Worker} (h : s.workers[i]? = some w) (hw : P w) {steps : List Step}
    (hc : ∀ st ∈ steps, st.worker = i → allowed st.timed.call) :
    ∃ w', (s.run steps).2.workers[i]? = some w' ∧ P w' := by
  induction steps generalizing s w with
  | nil => exact ⟨w, h, hw⟩
  | cons st rest ih =>
    obtain ⟨hst, hrest⟩ := List.forall_mem_cons.mp hc
    have hstep : ∃ w', (s.step st).2.workers[i]? = some w' ∧ P w' := by
      by_cases hi : st.worker = i
      · subst hi
        have hlt : st.worker < s.workers.length := (List.getElem?_eq_some_iff.mp h).1
        refine ⟨_, ?_, hP ⟨s.engine, w⟩ st.timed.now st.timed.call (hst rfl) hw⟩
        rw [step, s.act_of_getElem? h]
        exact List.getElem?_set_self hlt
      · exact ⟨w, by rw [s.workers_step_of_ne hi, h], hw⟩
    obtain ⟨w', hw', hP'⟩ := hstep
    rw [run_cons]
    exact ih hw' hP' hrest

@[simp] theorem settings_run (steps : List Step) :
    (s.run steps).2.engine.settings = s.engine.settings := by
  induction steps generalizing s with
  | nil => rfl
  | cons st rest ih => rw [run_cons, ih, settings_step]

end Session

end DiagnosticLog
