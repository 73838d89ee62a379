import DiagnosticLog.Proofs.LogLines
import DiagnosticLog.Proofs.Records
import DiagnosticLog.Proofs.Text.Lines

/-! The two outputs agree. A call stores its record before it writes its line, so every line in the
log has its record, in the same order, whatever fails; and the two say the same. -/

namespace DiagnosticLog

/-! ### What a line and a record say -/

/-- The notice that a report carries: that it has no call site, or that it is the last one. -/
def Engine.notice (e : Engine) (r : Report) : Option String :=
  match r.origin with
  | none => some "    Missing caller information."
  | some o =>
    if 0 < e.tally.limit ∧ (e.occurrences ⟨o, r.severity⟩ + 1 : Nat) = e.tally.limit then
      some ("    Limit reached for diagnostics from " ++ o.text ++ ".")
    else none

/-- The body of a report: the message, the extra text, the trail and the notice. -/
def Bench.bodyOf (b : Bench) (r : Report) (withState : Bool) : String :=
  "\n".intercalate (r.message :: (r.extra.toList ++
    (if withState then b.worker.state.trail.map Frame.line else []) ++
    (b.engine.notice r).toList))

/-- The line and the record of a diagnostic. -/
structure Bench.Diagnosed (b : Bench) (now : String) (r : Report) (withState : Bool)
    (line : Message) (row : DiagnosticRow) : Prop where
  stamp : line.stamp = now
  rank : row.rank = r.severity.rank
  kind : line.kind = if row.rank ≤ 3 then "WARN" else "ERROR"
  text : line.text =
    "Diagnostic(" ++ (r.origin.map Origin.text).getD "<unknown location>" ++ "): " ++
      ((r.place.map fun place => "At " ++ place ++ ": ").getD "" ++ b.bodyOf r withState)
  full : row.full = line.stamp ++ " " ++ b.bodyOf r withState

/-- The line and the record of a call belong together. -/
def Bench.Corresponds (b : Bench) (now : String) (line : Message) (record : TrapRecord) :
    EngineCall → Prop
  | .diagnostic r _ withState =>
    ∃ row, record = .diagnostic row ∧ b.Diagnosed now r withState line row
  | .log level text =>
    line = ⟨level.kind, text, now⟩ ∧
      record = .comment ("[" ++ now ++ " K] [" ++ level.kind ++ "] " ++ text)
  | _ => False

/-- Whether a call has something to write. -/
def EngineCall.writes (e : Engine) : EngineCall → Bool
  | .diagnostic r _ _ => decide ((e.screen r).1 ≠ .heldBack)
  | .log _ _ => true
  | _ => false

/-! ### One call -/

namespace Engine

variable {e : Engine}

/-- The notice goes with the report that brings its count to the limit. -/
theorem notice_of_screen {r : Report} {notice : Option String}
    (h : (e.screen r).1 = .goesOut notice) : notice = e.notice r := by
  unfold screen at h
  unfold Engine.notice
  cases ho : r.origin with
  | none =>
    rw [ho] at h
    exact (Admission.goesOut.inj h).symm
  | some o =>
    simp only [ho, Tally.record] at h
    cases hv : Tally.verdict e.tally.limit (e.tally.count ⟨o, r.severity⟩ + 1) with
    | normal =>
      rw [hv] at h
      have hn : ¬ (0 < e.tally.limit ∧
          ((e.occurrences ⟨o, r.severity⟩ + 1 : Nat) : Int) = e.tally.limit) := by
        intro hl
        have hv' := Tally.verdict_eq_limitReached_iff.mpr hl
        rw [occurrences, hv] at hv'
        contradiction
      dsimp only
      rw [if_neg hn]
      exact (Admission.goesOut.inj h).symm
    | limitReached =>
      rw [hv] at h
      have hn : 0 < e.tally.limit ∧
          ((e.occurrences ⟨o, r.severity⟩ + 1 : Nat) : Int) = e.tally.limit :=
        Tally.verdict_eq_limitReached_iff.mp hv
      dsimp only
      rw [if_pos hn]
      exact (Admission.goesOut.inj h).symm
    | suppressed =>
      rw [hv] at h
      contradiction

end Engine

/-- What a call did to its unit: records were added, and a line in the log has its record among
them. -/
structure Bench.Agrees (b : Bench) (now : String) (call : EngineCall) (receipt : Receipt)
    (after : Bench) : Prop where
  keeps : after.worker.trap.keeps = true
  records : ∃ added, after.worker.trap.records = b.worker.trap.records ++ added ∧
    ∀ line, receipt.line = some line → ∃ record ∈ added, b.Corresponds now line record call
  lined : receipt.line.isSome = (decide (receipt.result = .ok ()) && call.writes b.engine)

namespace Bench

variable {b : Bench}

theorem agrees_log (h : b.worker.trap.keeps = true) (now : String) (level : Level)
    (text : String) :
    b.Agrees now (.log level text) (b.log now level text).1 (b.log now level text).2 := by
  let message : Message := ⟨level.kind, text, now⟩
  have hr := b.worker.trap.records_write .comment (.comment message.plain)
  have hk := b.worker.trap.keeps_write .comment (.comment message.plain)
  rcases b.engine.log_cases now level text b.worker.trap with ⟨cause, _, ho⟩ | ⟨hw, ho⟩
  · simp only [log, ho]
    exact ⟨hk.trans h, ⟨_, hr, by simp⟩, by simp⟩
  · have hl := b.engine.isSome_line_finish message false
      (b.worker.trap.writeComment message.plain).2 none
    rw [if_pos ⟨h, hw⟩] at hr
    simp only [log, ho, Engine.trap_finish]
    refine ⟨hk.trans h, ⟨_, hr, ?_⟩, ?_⟩
    · intro line hline
      refine ⟨_, List.mem_singleton_self _, ?_⟩
      exact ⟨b.engine.line_finish hline, rfl⟩
    · rw [hl, EngineCall.writes, Bool.and_true]

theorem body_eq (r : Report) (withState : Bool) :
    r.body (UnitState.trailLines (b.stateIf withState)) (b.engine.notice r) =
      b.bodyOf r withState := by
  rw [Report.body, Lines.join_eq_intercalate, bodyOf]
  cases withState <;> rfl

theorem heading_eq (r : Report) :
    r.heading = "Diagnostic(" ++ (r.origin.map Origin.text).getD "<unknown location>" ++ "): " ++
      (r.place.map fun place => "At " ++ place ++ ": ").getD "" := by
  unfold Report.heading
  cases r.origin <;> cases r.place <;> rfl

theorem tag_eq (severity : Severity) :
    severity.tag = if severity.rank ≤ 3 then "WARN" else "ERROR" := by
  cases severity <;> rfl

/-- A report that goes out with its body: if the log takes a line, a record that belongs to it was
stored. -/
theorem agrees_emit (h : b.worker.trap.keeps = true) (now : String) (r : Report) (place : Place)
    (withState : Bool) (e : Engine) :
    let o := e.emit now r (b.bodyOf r withState) place.locate b.worker.trap (b.stateIf withState)
    ∃ added, o.trap.records = b.worker.trap.records ++ added ∧
      ∀ line, o.receipt.line = some line →
        ∃ row, .diagnostic row ∈ added ∧ b.Diagnosed now r withState line row := by
  intro o
  obtain ⟨found, hf⟩ := place.records_locate b.worker.trap
  obtain ⟨rows, associations, hr, hrow, hlen⟩ :=
    e.records_emit now r (b.bodyOf r withState) place b.worker.trap (b.stateIf withState)
  rw [hf, List.append_assoc] at hr
  refine ⟨_, hr, ?_⟩
  intro line hline
  have hl : o.receipt.line.isSome = decide (o.receipt.result = .ok ()) :=
    e.isSome_line_emit now r (b.bodyOf r withState) place.locate b.worker.trap
      (b.stateIf withState)
  have hok : o.receipt.result = .ok () := by
    rw [hline] at hl
    exact of_decide_eq_true hl.symm
  obtain ⟨row, hmem⟩ := List.exists_mem_of_length_pos (by rw [hlen h hok]; exact Nat.one_pos)
  obtain ⟨id, location, rfl⟩ := hrow row hmem
  obtain rfl : line = ⟨r.severity.tag, r.heading ++ b.bodyOf r withState, now⟩ := e.line_emit hline
  refine ⟨e.row now r (b.bodyOf r withState) id location, by simp [hmem], ?_⟩
  refine ⟨rfl, rfl, tag_eq r.severity, ?_, rfl⟩
  rw [heading_eq, String.append_assoc]

theorem agrees_diagnostic (h : b.worker.trap.keeps = true) (now : String) (r : Report)
    (place : Place) (withState : Bool) :
    b.Agrees now (.diagnostic r place withState) (b.diagnostic now r place withState).1
      (b.diagnostic now r place withState).2 := by
  simp only [diagnostic, Engine.diagnostic]
  cases hs : b.engine.screen r with
  | mk admission e =>
    cases admission with
    | heldBack =>
      refine ⟨h, ⟨[], (List.append_nil _).symm, by simp [settle]⟩, ?_⟩
      simp [settle, EngineCall.writes, hs]
    | goesOut notice =>
      obtain rfl : notice = b.engine.notice r := Engine.notice_of_screen (by rw [hs])
      simp only [body_eq]
      obtain ⟨added, hr, hc⟩ := agrees_emit h now r place withState e
      refine ⟨?_, ⟨added, hr, ?_⟩, ?_⟩
      · exact (e.keeps_emit now r _ place b.worker.trap _).trans h
      · intro line hline
        obtain ⟨row, hmem, hd⟩ := hc line hline
        exact ⟨.diagnostic row, hmem, row, rfl, hd⟩
      · have hw : (EngineCall.diagnostic r place withState).writes b.engine = true := by
          simp [EngineCall.writes, hs]
        rw [hw, Bool.and_true]
        exact e.isSome_line_emit ..

/-- A call other than these writes no line and adds no record. -/
theorem agrees_idle (b : Bench) (now : String) (call : EngineCall)
    (hw : call.writes b.engine = false)
    (hk : (b.perform now call).2.worker.trap.keeps = true)
    (hr : (b.perform now call).2.worker.trap.records = b.worker.trap.records)
    (hl : (b.perform now call).1.line = none) :
    b.Agrees now call (b.perform now call).1 (b.perform now call).2 := by
  refine ⟨hk, ⟨[], by rw [hr, List.append_nil], ?_⟩, ?_⟩
  · intro line hline
    rw [hl] at hline
    cases hline
  · rw [hl, hw, Bool.and_false]
    rfl

theorem agrees_perform (h : b.worker.trap.keeps = true) (now : String) (call : EngineCall) :
    b.Agrees now call (b.perform now call).1 (b.perform now call).2 := by
  obtain ⟨hr, hk⟩ := b.worker.trap.records_flush
  cases call with
  | diagnostic report place withState => exact agrees_diagnostic h ..
  | log level text => exact agrees_log h ..
  | enter frame => exact b.agrees_idle now (.enter frame) rfl h rfl rfl
  | leave => exact b.agrees_idle now .leave rfl h rfl rfl
  | flushTrap => exact b.agrees_idle now .flushTrap rfl (hk.trans h) hr rfl
  | flushLog => exact b.agrees_idle now .flushLog rfl h rfl rfl
  | flush =>
    have hw : (b.perform now .flush).2.worker.trap = b.worker.trap.flush.2 := by
      simp only [perform, flush]
      split <;> rfl
    have hl : (b.perform now .flush).1.line = none := by
      simp only [perform, flush]
      split <;> rfl
    exact b.agrees_idle now .flush rfl (by rw [hw, hk, h]) (by rw [hw, hr]) hl

end Bench

/-! ### Histories -/

/-- A call of a run, and the session in which it was made. -/
structure Moment where
  before : Session
  step : Step

namespace Moment

def receipt (m : Moment) : Receipt := (m.before.step m.step).1

/-- Whether a unit made the call, had something to write and was told that all went well. -/
def accepted (m : Moment) : Bool :=
  decide (m.step.worker < m.before.workers.length) &&
    (decide (m.receipt.result = .ok ()) && m.step.timed.call.writes m.before.engine)

/-- The line and the record belong together as those of the call. -/
def Corresponds (m : Moment) (line : Message) (record : TrapRecord) : Prop :=
  ∃ w, m.before.workers[m.step.worker]? = some w ∧
    Bench.Corresponds ⟨m.before.engine, w⟩ m.step.timed.now line record m.step.timed.call

end Moment

/-- The calls of a run, one after the other. -/
def Session.history (s : Session) : List Step → List Moment
  | [] => []
  | st :: rest => ⟨s, st⟩ :: (s.step st).2.history rest

/-- What the calls of a history did to a unit. Records were added, and the accepted calls of the
unit have each a record among them, in the order of the calls, that belongs to their line. -/
def Worker.Agrees (i : Nat) (w : Worker) (history : List Moment) (w' : Worker) : Prop :=
  ∃ (added : List TrapRecord) (pairs : List (Moment × TrapRecord)),
    w'.trap.records = w.trap.records ++ added ∧
    pairs.map Prod.fst = history.filter (fun m => decide (m.step.worker = i) && m.accepted) ∧
    (pairs.map Prod.snd).Sublist added ∧
    ∀ m record, (m, record) ∈ pairs →
      ∃ line, m.receipt.line = some line ∧ m.Corresponds line record

theorem Worker.Agrees.refl (i : Nat) (w : Worker) : w.Agrees i [] w :=
  ⟨[], [], (List.append_nil _).symm, rfl, List.nil_sublist _, by simp⟩

theorem Worker.Agrees.append {i : Nat} {w w' w'' : Worker} {history more : List Moment}
    (h : w.Agrees i history w') (h' : w'.Agrees i more w'') : w.Agrees i (history ++ more) w'' := by
  obtain ⟨added, pairs, hr, hp, hs, hc⟩ := h
  obtain ⟨added', pairs', hr', hp', hs', hc'⟩ := h'
  refine ⟨added ++ added', pairs ++ pairs', ?_, ?_, ?_, ?_⟩
  · rw [hr', hr, List.append_assoc]
  · rw [List.map_append, List.filter_append, hp, hp']
  · rw [List.map_append]
    exact hs.append hs'
  · intro m record hm
    rcases List.mem_append.mp hm with hm | hm
    · exact hc m record hm
    · exact hc' m record hm

namespace Session

variable {s : Session}

/-- A call of a unit is a call on the bench of the unit, which agrees. -/
theorem agrees_bench (h : ∀ w ∈ s.workers, w.trap.keeps = true) (st : Step) {w : Worker}
    (hw : s.workers[st.worker]? = some w) :
    ∃ b : Bench, (s.step st).2 = ⟨b.engine, s.workers.set st.worker b.worker⟩ ∧
      Bench.Agrees ⟨s.engine, w⟩ st.timed.now st.timed.call (s.step st).1 b := by
  rw [step, s.act_of_getElem? hw]
  exact ⟨_, rfl, Bench.agrees_perform (h w (List.mem_of_getElem? hw)) ..⟩

/-- A line in the log comes from an accepted call, and from every one. -/
theorem isSome_line_step (h : ∀ w ∈ s.workers, w.trap.keeps = true) (st : Step) :
    (s.step st).1.line.isSome = (Moment.mk s st).accepted := by
  rw [Moment.accepted, Moment.receipt]
  cases hw : s.workers[st.worker]? with
  | none =>
    have hlt : ¬ st.worker < s.workers.length := by simpa using hw
    rw [step, s.act_of_none hw, decide_eq_false hlt, Bool.false_and]
    rfl
  | some w =>
    have hlt : st.worker < s.workers.length := (List.getElem?_eq_some_iff.mp hw).1
    obtain ⟨_, _, ha⟩ := agrees_bench h st hw
    rw [decide_eq_true hlt, Bool.true_and]
    exact ha.lined

theorem keeps_step (h : ∀ w ∈ s.workers, w.trap.keeps = true) (st : Step) :
    ∀ w ∈ (s.step st).2.workers, w.trap.keeps = true := by
  cases hw : s.workers[st.worker]? with
  | none =>
    rw [step, s.act_of_none hw]
    exact h
  | some w =>
    obtain ⟨b, hs, ha⟩ := agrees_bench h st hw
    rw [hs]
    intro w' hw'
    rcases List.mem_or_eq_of_mem_set hw' with hw' | rfl
    · exact h w' hw'
    · exact ha.keeps

/-- A call agrees for its own unit. -/
theorem agrees_step_self (h : ∀ w ∈ s.workers, w.trap.keeps = true) (st : Step) {w : Worker}
    (hw : s.workers[st.worker]? = some w) :
    ∃ w', (s.step st).2.workers[st.worker]? = some w' ∧ w.Agrees st.worker [⟨s, st⟩] w' := by
  have hlt : st.worker < s.workers.length := (List.getElem?_eq_some_iff.mp hw).1
  obtain ⟨b, hs, hb⟩ := agrees_bench h st hw
  obtain ⟨added, hr, hc⟩ := hb.records
  have hl := isSome_line_step h st
  refine ⟨b.worker, by rw [hs, List.getElem?_set_self hlt], added, ?_⟩
  cases hline : (s.step st).1.line with
  | none =>
    have ha : (Moment.mk s st).accepted = false := by rw [← hl, hline]; rfl
    exact ⟨[], hr, by simp [ha], List.nil_sublist _, by simp⟩
  | some line =>
    have ha : (Moment.mk s st).accepted = true := by rw [← hl, hline]; rfl
    obtain ⟨record, hmem, hrec⟩ := hc line hline
    refine ⟨[(⟨s, st⟩, record)], hr, by simp [ha], List.singleton_sublist.mpr hmem, ?_⟩
    intro m record' hm
    obtain ⟨rfl, rfl⟩ : m = ⟨s, st⟩ ∧ record' = record := by simpa using hm
    exact ⟨line, hline, w, hw, hrec⟩

theorem agrees_step (h : ∀ w ∈ s.workers, w.trap.keeps = true) (st : Step) {i : Nat} {w : Worker}
    (hw : s.workers[i]? = some w) :
    ∃ w', (s.step st).2.workers[i]? = some w' ∧ w.Agrees i [⟨s, st⟩] w' := by
  by_cases hi : st.worker = i
  · subst hi
    exact agrees_step_self h st hw
  · refine ⟨w, (s.workers_step_of_ne hi).trans hw, [], [], ?_, ?_, List.nil_sublist _, by simp⟩
    · rw [List.append_nil]
    · simp [hi]

theorem receipts_history (s : Session) (steps : List Step) :
    (s.history steps).map Moment.receipt = (s.run steps).1 := by
  induction steps generalizing s with
  | nil => rfl
  | cons st rest ih =>
    rw [run_cons, history, List.map_cons, ih]
    rfl

/-- Over a run the outputs agree for every unit, and the lines are those of the accepted calls. -/
theorem agrees_run (h : ∀ w ∈ s.workers, w.trap.keeps = true) (steps : List Step) :
    (∀ m ∈ s.history steps, m.receipt.line.isSome = m.accepted) ∧
    ∀ i (w : Worker), s.workers[i]? = some w →
      ∃ w', (s.run steps).2.workers[i]? = some w' ∧ w.Agrees i (s.history steps) w' := by
  induction steps generalizing s with
  | nil =>
    refine ⟨by simp [history], ?_⟩
    intro i w hw
    exact ⟨w, hw, .refl i w⟩
  | cons st rest ih =>
    obtain ⟨hlined, hunits⟩ := ih (keeps_step h st)
    rw [run_cons, history]
    refine ⟨?_, ?_⟩
    · intro m hm
      rcases List.mem_cons.mp hm with rfl | hm
      · exact isSome_line_step h st
      · exact hlined m hm
    · intro i w hw
      obtain ⟨w', hw', ha⟩ := agrees_step h st hw
      obtain ⟨w'', hw'', ha'⟩ := hunits i w' hw'
      exact ⟨w'', hw'', ha.append ha'⟩

end Session

/-- The outputs of any run agree, whatever is refused. Apart from calls that are told nothing, such
as those below the verbosity, the calls of the run are those of the history. The log has the lines
of its accepted calls, in their order, and a call that was not accepted has no line. For every unit,
the records added have among them, in the same order, one for each of its accepted calls, and this
record says what the line of the call says. -/
theorem outputs_agree (s : Session) (ts : List Turn) (hs : s.engine.stream.Unbounded)
    (hk : ∀ w ∈ s.workers, w.trap.keeps = true) :
    let history := s.history (ts.flatMap (Turn.steps s.engine.settings.verbosity))
    let after := (s.turns ts).2
    Receipt.busy (s.turns ts).1 = Receipt.busy (history.map Moment.receipt) ∧
    after.engine.stream.content = s.engine.stream.content ++
      Message.logBytes ((history.filterMap fun m => m.receipt.line).map
        fun line => (s.engine.settings.origin, line)) ∧
    (∀ m ∈ history, m.receipt.line.isSome = m.accepted) ∧
    ∀ i (w : Worker), s.workers[i]? = some w →
      ∃ w', after.workers[i]? = some w' ∧ w.Agrees i history w' := by
  intro history after
  obtain ⟨hrun, hbusy⟩ := s.turns_eq_run ts
  have hm := s.receipts_history (ts.flatMap (Turn.steps s.engine.settings.verbosity))
  obtain ⟨hlined, hunits⟩ :=
    Session.agrees_run hk (ts.flatMap (Turn.steps s.engine.settings.verbosity))
  have hc := (Session.grows_turns hs ts).content
  rw [s.lines_turns, ← hm, Receipt.lines, List.filterMap_map] at hc
  refine ⟨by rw [hbusy, ← hm], hc, hlined, ?_⟩
  intro i w hw
  obtain ⟨w', hw', ha⟩ := hunits i w hw
  exact ⟨w', by rw [← hw', ← hrun], ha⟩

/-- A message whose line is refused has a comment and no line; the message after it has both. -/
theorem outputs_agree_refused_line :
    let w : Worker := ⟨.recording fun _ _ => false, ⟨0, [], 0⟩, 0⟩
    let s : Session := ⟨.ofStream {} (.custom { refusesWrite := fun n => n == 0 }), [w]⟩
    let steps : List Step := [⟨0, "t", .log .info "lost"⟩, ⟨0, "t", .log .warn "kept"⟩]
    let after := (s.turns (steps.map .step)).2
    after.engine.stream.content = Message.logBytes [("Extractor", ⟨"WARN", "kept", "t"⟩)] ∧
    ∃ w', after.workers[0]? = some w' ∧ w.Agrees 0 (s.history steps) w' := by
  intro w s steps after
  have hk : ∀ w ∈ s.workers, w.trap.keeps = true := by
    intro w' hw'
    obtain rfl : w' = w := by simpa [s] using hw'
    rfl
  have hf : (steps.map Turn.step).flatMap (Turn.steps s.engine.settings.verbosity) = steps :=
    Turn.flatMap_steps_step _ steps
  have hl : (s.history steps).filterMap (fun m => m.receipt.line) =
      [⟨"WARN", "kept", "t"⟩] := by
    decide
  obtain ⟨_, hc, _, hu⟩ := outputs_agree s (steps.map .step) rfl hk
  have he : s.engine.stream.content = [] := rfl
  rw [hf] at hc hu
  rw [hl, he, List.nil_append, List.map_singleton] at hc
  exact ⟨hc, hu 0 w rfl⟩

end DiagnosticLog
