import DiagnosticLog.Proofs.Agreement
import DiagnosticLog.Proofs.Limiting
import DiagnosticLog.Proofs.Sinks

/-! What calls say where nothing is refused. Whether a call writes, and what, is settled before it
takes a label or a number: by the settings, the counts and the trail it finds. Comments, diagnostics
and lines of a run are those of its calls, in their order. -/

namespace DiagnosticLog

/-! ### Remarks -/

/-- What a record says, with its labels erased. Locations and associations say nothing more than
labels and numbers. -/
def TrapRecord.remark? : TrapRecord → Option TrapRecord
  | .comment text => some (.comment text)
  | .diagnostic row => some (.diagnostic { row with id := ⟨0⟩, location := ⟨0⟩ })
  | .unknownLocation _ | .association _ => none

namespace TrapWriter

/-- The comments and the diagnostics that a writer keeps, with their labels erased. -/
def remarks (w : TrapWriter) : List TrapRecord := w.records.filterMap TrapRecord.remark?

/-- A writer that keeps its records and refuses nothing. -/
structure Willing (w : TrapWriter) : Prop where
  keeps : w.keeps = true
  refuses : ∀ call n, w.refuses call n = false

/-- A willing writer, and what it remarks after some calls. -/
structure Remarked (w : TrapWriter) (added : List TrapRecord) (w' : TrapWriter) : Prop where
  willing : w'.Willing
  remarks : w'.remarks = w.remarks ++ added

variable {w w' w'' : TrapWriter} {added more : List TrapRecord}

theorem Remarked.trans (h : w.Remarked added w') (h' : w'.Remarked more w'') :
    w.Remarked (added ++ more) w'' :=
  ⟨h'.willing, by rw [h'.remarks, h.remarks, List.append_assoc]⟩

namespace Willing

theorem refl (h : w.Willing) : w.Remarked [] w := ⟨h, (List.append_nil _).symm⟩

theorem freshLabel (h : w.Willing) : w.Remarked [] w.freshLabel.2 :=
  ⟨⟨h.keeps, h.refuses⟩, (List.append_nil _).symm⟩

theorem result_write (h : w.Willing) (call : RefusableCall) (record : TrapRecord) :
    (w.write call record).1 = .ok () :=
  (w.result_write_of_keeps h.keeps call record).mpr (h.refuses _ _)

theorem write (h : w.Willing) (call : RefusableCall) (record : TrapRecord) :
    w.Remarked (record.remark?.toList) (w.write call record).2 := by
  have hs := w.sameButStore_write call record
  refine ⟨⟨(w.keeps_write ..).trans h.keeps, fun call' n => ?_⟩, ?_⟩
  · rw [hs.refuses, refuses_tried, h.refuses]
  · rw [remarks, records_write, if_pos ⟨h.keeps, h.result_write call record⟩,
      List.filterMap_append, remarks]
    cases hr : record.remark? <;> simp [hr]

theorem flush (h : w.Willing) : w.flush.1 = .ok () ∧ w.Remarked [] w.flush.2 := by
  obtain ⟨hr, hk⟩ := w.records_flush
  have hs := w.sameButStore_flush
  refine ⟨?_, ⟨hk.trans h.keeps, fun call n => ?_⟩, ?_⟩
  · obtain ⟨kept, flushes, hstore⟩ := store_of_keeps h.keeps
    simp [flush_eq, h.refuses, flushStore, hstore]
  · rw [hs.refuses, refuses_tried, h.refuses]
  · rw [remarks, hr, List.append_nil, remarks]

/-- The unknown location is found, and says nothing. -/
theorem unknownLocation (h : w.Willing) :
    (∃ label, w.unknownLocation.1 = .ok label) ∧ w.Remarked [] w.unknownLocation.2 := by
  obtain ⟨labels, hr⟩ := w.records_unknownLocation
  refine ⟨?_, ⟨w.keeps_unknownLocation.trans h.keeps, fun call n => ?_⟩, ?_⟩
  · rw [unknownLocation_eq, if_neg (by simp [h.refuses])]
    split
    next label _ => exact ⟨label, rfl⟩
    · have hp := (w.tried .unknownLocation).freshLabel.2.result_put h.keeps
        (.unknownLocation (w.tried .unknownLocation).freshLabel.1)
      simp only [storeUnknown]
      generalize TrapWriter.put _ _ = stored at hp
      obtain ⟨_ | _, w'⟩ := stored
      · cases hp
      · exact ⟨_, rfl⟩
  · rw [w.refuses_unknownLocation, h.refuses]
  · rw [remarks, hr, List.filterMap_append, remarks]
    congr 1
    rw [List.filterMap_map, List.filterMap_eq_nil_iff]
    exact fun label _ => rfl

end Willing

end TrapWriter

/-! ### What a call says -/

/-- Whether the location of a place is found. -/
def Place.outcome : Place → Except Failure Unit
  | .provided _ answer => answer.map fun _ => ()
  | .unknown | .fresh => .ok ()

theorem Place.locate_willing {place : Place} (hp : place.storesNone = true) {trap : TrapWriter}
    (h : trap.Willing) :
    (place.locate trap).1.map (fun _ => ()) = place.outcome ∧
      trap.Remarked [] (place.locate trap).2 := by
  cases place with
  | unknown =>
    obtain ⟨⟨label, hl⟩, hr⟩ := h.unknownLocation
    refine ⟨?_, hr⟩
    rw [locate, hl]
    rfl
  | fresh => exact ⟨rfl, h.freshLabel⟩
  | provided calls answer =>
    obtain rfl := List.isEmpty_iff.mp hp
    exact ⟨rfl, h.refl⟩

namespace Engine

variable {e : Engine} {trap : TrapWriter}

/-- Where nothing is refused, the line of a message is written. -/
theorem finish_willing (he : e.stream.Faultless) (message : Message) (located : Bool)
    (trap : TrapWriter) (state : Option UnitState) :
    e.finish message located trap state =
      ⟨{ result := .ok (), located, line := some message }, (e.writeLine message).2, trap, state⟩ ∧
      (e.writeLine message).2.stream.Faultless := by
  have hw : (e.writeLine message).1 = .ok () := by
    simp only [writeLine, he.unfailing.result_write]
    rfl
  exact ⟨by rw [finish_eq, hw, if_pos rfl], he.write _⟩

theorem store_willing (ht : trap.Willing) (now : String) (r : Report) (body : String)
    (location : Label) (state : Option UnitState) :
    let stored := e.store now r body location trap state
    stored.1 = .ok () ∧
      trap.Remarked [.diagnostic (e.row now r body ⟨0⟩ ⟨0⟩)] stored.2.1 := by
  intro stored
  let row := e.row now r body trap.freshLabel.1 location
  have hw := ht.freshLabel.trans (ht.freshLabel.willing.write .diagnostic (.diagnostic row))
  have ho := ht.freshLabel.willing.result_write .diagnostic (.diagnostic row)
  rcases e.store_cases now r body location trap state with
    ⟨cause, hc, _⟩ | ⟨_, _, hs⟩ | ⟨s, _, _, hs⟩
  · cases ho.symm.trans hc
  · have hs' : stored = _ := hs
    rw [hs']
    exact ⟨rfl, hw⟩
  · have hs' : stored = _ := hs
    let association : TrapRecord :=
      .association ⟨trap.freshLabel.1, AssociationRow.compilation, s.fileNumber, s.count⟩
    rw [hs']
    exact ⟨hw.willing.result_write .association association,
      hw.trans (hw.willing.write .association association)⟩

/-- What a report that goes out says where nothing is refused. Its location may still not be found.
-/
def said (e : Engine) (now : String) (r : Report) (body : String) (place : Place) :
    Receipt × List TrapRecord :=
  match place.outcome with
  | .error cause => ({ result := .error (.trap cause), located := true }, [])
  | .ok () =>
    ({ result := .ok (), located := true, line := some ⟨r.severity.tag, r.heading ++ body, now⟩ },
      [.diagnostic (e.row now r body ⟨0⟩ ⟨0⟩)])

/-- What is said does not depend on the counts. -/
theorem said_screen (e : Engine) (now : String) (r : Report) (body : String) (place : Place) :
    (e.screen r).2.said now r body place = e.said now r body place := by
  simp only [said, row, settings_screen]

theorem emit_willing (he : e.stream.Faultless) (ht : trap.Willing) (now : String) (r : Report)
    (body : String) {place : Place} (hp : place.storesNone = true) (state : Option UnitState) :
    let o := e.emit now r body place.locate trap state
    o.receipt = (e.said now r body place).1 ∧
      trap.Remarked (e.said now r body place).2 o.trap ∧ o.engine.stream.Faultless := by
  intro o
  obtain ⟨hl, hr⟩ := Place.locate_willing hp ht
  rcases e.emit_cases now r body place.locate trap state with
    ⟨cause, hc, ho⟩ | ⟨location, hc, hs⟩
  · have ho' : o = _ := ho
    rw [hc] at hl
    rw [ho', said, ← hl]
    exact ⟨rfl, hr, he⟩
  · obtain ⟨hok, hstored⟩ := e.store_willing hr.willing now r body location state
    rcases hs with ⟨cause, hc', _⟩ | ⟨_, ho⟩
    · cases hok.symm.trans hc'
    · obtain ⟨hf, hs⟩ := finish_willing he ⟨r.severity.tag, r.heading ++ body, now⟩ true
        (e.store now r body location (place.locate trap).2 state).2.1
        (e.store now r body location (place.locate trap).2 state).2.2
      have ho' : o = _ := ho.trans hf
      rw [hc] at hl
      rw [ho', said, ← hl]
      exact ⟨rfl, hr.trans hstored, hs⟩

theorem log_willing (he : e.stream.Faultless) (ht : trap.Willing) (now : String) (level : Level)
    (text : String) :
    let o := e.log now level text trap
    let message : Message := ⟨level.kind, text, now⟩
    o.receipt = { result := .ok (), line := some message } ∧
      trap.Remarked [.comment message.plain] o.trap ∧ o.engine.stream.Faultless := by
  intro o message
  have hw := ht.write .comment (.comment message.plain)
  rcases e.log_cases now level text trap with ⟨cause, hc, _⟩ | ⟨_, ho⟩
  · cases (ht.result_write .comment (.comment message.plain)).symm.trans hc
  · obtain ⟨hf, hs⟩ := finish_willing he message false (trap.writeComment message.plain).2 none
    have ho' : o = _ := ho.trans hf
    rw [ho']
    exact ⟨rfl, hw, hs⟩

end Engine

/-- Whether no record is stored in search of the location of a call. -/
def EngineCall.storesNone : EngineCall → Bool
  | .diagnostic _ place _ => place.storesNone
  | _ => true

namespace Bench

/-- A bench at which nothing is refused. -/
structure Ready (b : Bench) : Prop where
  stream : b.engine.stream.Faultless
  trap : b.worker.trap.Willing

/-- What a call is told, and what it remarks, where nothing is refused. -/
def said (b : Bench) (now : String) : EngineCall → Receipt × List TrapRecord
  | .log level text =>
    let message : Message := ⟨level.kind, text, now⟩
    ({ result := .ok (), line := some message }, [.comment message.plain])
  | .diagnostic r place withState =>
    match (b.engine.screen r).1 with
    | .heldBack => (.done, [])
    | .goesOut notice =>
      b.engine.said now r (r.body (UnitState.trailLines (b.stateIf withState)) notice) place
  | _ => (.done, [])

theorem Ready.perform {b : Bench} (h : b.Ready) (now : String) {call : EngineCall}
    (hc : call.storesNone = true) :
    (b.perform now call).1 = (b.said now call).1 ∧
      b.worker.trap.Remarked (b.said now call).2 (b.perform now call).2.worker.trap ∧
      (b.perform now call).2.Ready := by
  cases call with
  | diagnostic r place withState =>
    have hs : (b.engine.screen r).2.stream.Faultless := by
      rw [Engine.stream_screen]
      exact h.stream
    simp only [Bench.perform, said]
    cases ha : (b.engine.screen r).1 with
    | heldBack =>
      rw [b.diagnostic_of_heldBack now place withState ha]
      exact ⟨rfl, h.trap.refl, hs, h.trap⟩
    | goesOut notice =>
      obtain ⟨hr, ht, hs'⟩ := Engine.emit_willing hs h.trap now r
        (r.body (UnitState.trailLines (b.stateIf withState)) notice) hc (b.stateIf withState)
      rw [Engine.said_screen] at hr ht
      rw [b.diagnostic_of_goesOut now place withState ha]
      exact ⟨hr, ht, hs', ht.willing⟩
  | log level text =>
    obtain ⟨hr, ht, hs⟩ := Engine.log_willing h.stream h.trap now level text
    exact ⟨hr, ht, hs, ht.willing⟩
  | enter frame => exact ⟨rfl, h.trap.refl, h.stream, h.trap⟩
  | leave => exact ⟨rfl, h.trap.refl, h.stream, h.trap⟩
  | flushTrap =>
    obtain ⟨hok, hr⟩ := h.trap.flush
    refine ⟨?_, hr, h.stream, hr.willing⟩
    simp only [Bench.perform, Bench.flushTrap, hok]
    rfl
  | flushLog =>
    refine ⟨?_, h.trap.refl, h.stream.flush, h.trap⟩
    simp only [Bench.perform, Bench.flushLog, Engine.flush, h.stream.result_flush]
    rfl
  | flush =>
    obtain ⟨hok, hr⟩ := h.trap.flush
    have hf : b.perform now .flush = b.flushTrap.2.flushLog := by
      simp only [Bench.perform, Bench.flush, Bench.flushTrap, hok]
      rfl
    rw [hf]
    refine ⟨?_, hr, h.stream.flush, hr.willing⟩
    simp only [Bench.flushLog, Bench.flushTrap, Engine.flush, h.stream.result_flush]
    rfl

end Bench

/-! ### Runs -/

/-- The comments and the diagnostics that a unit keeps, with their labels erased. -/
def Session.remarks (s : Session) (i : Nat) : List TrapRecord :=
  (s.workers[i]?).elim [] fun w => w.trap.remarks

/-- What a call adds to the remarks of its unit. -/
def Moment.added (m : Moment) : List TrapRecord :=
  ((m.before.step m.step).2.remarks m.step.worker).drop
    (m.before.remarks m.step.worker).length

/-- A call, what it was told, and what it added to the remarks of its unit. -/
structure Saying where
  step : Step
  receipt : Receipt
  added : List TrapRecord

def Moment.saying (m : Moment) : Saying := ⟨m.step, m.receipt, m.added⟩

namespace Session

/-- A session in which nothing is refused. -/
structure Ready (s : Session) : Prop where
  stream : s.engine.stream.Faultless
  traps : ∀ w ∈ s.workers, w.trap.Willing

/-- What the calls of turns say, in the order in which they reach the engine. -/
def sayings (s : Session) (ts : List Turn) : List Saying :=
  (s.history (ts.flatMap (Turn.steps s.engine.settings.verbosity))).map Moment.saying

/-- That all that is said is said by certain calls: the callers are told what these are told, the
log goes on with their lines, and the remarks of each unit go on with those of its calls. -/
structure SaidBy (s : Session) (sayings : List Saying) (after : List Receipt × Session) : Prop where
  told : Receipt.busy after.1 = Receipt.busy (sayings.map Saying.receipt)
  log : after.2.engine.stream.content = s.engine.stream.content ++
    Message.logBytes ((sayings.filterMap fun said => said.receipt.line).map
      fun line => (s.engine.settings.origin, line))
  remarks : ∀ i, after.2.remarks i =
    s.remarks i ++ (sayings.filter fun said => said.step.worker = i).flatMap Saying.added

variable {s : Session}

theorem Ready.bench (h : s.Ready) {i : Nat} {w : Worker} (hw : s.workers[i]? = some w) :
    Bench.Ready ⟨s.engine, w⟩ :=
  ⟨h.stream, h.traps w (List.mem_of_getElem? hw)⟩

/-- A unit adds what its call says. -/
theorem Ready.step_self (h : s.Ready) {st : Step} (hc : st.timed.call.storesNone = true)
    {w : Worker} (hw : s.workers[st.worker]? = some w) :
    let said := Bench.said ⟨s.engine, w⟩ st.timed.now st.timed.call
    (s.step st).1 = said.1 ∧ (Moment.mk s st).added = said.2 ∧
      (s.step st).2.remarks st.worker = s.remarks st.worker ++ said.2 ∧ (s.step st).2.Ready := by
  intro said
  have hlt : st.worker < s.workers.length := (List.getElem?_eq_some_iff.mp hw).1
  obtain ⟨hr, ht, hb⟩ := (h.bench hw).perform st.timed.now hc
  have hafter : (s.step st).2.remarks st.worker = s.remarks st.worker ++ said.2 := by
    rw [step, s.act_of_getElem? hw, remarks, remarks, List.getElem?_set_self hlt, hw]
    exact ht.remarks
  refine ⟨?_, ?_, hafter, ?_⟩
  · rw [step, s.act_of_getElem? hw]
    exact hr
  · rw [Moment.added, hafter, List.drop_left]
  · rw [step, s.act_of_getElem? hw]
    refine ⟨hb.stream, fun w' hw' => ?_⟩
    rcases List.mem_or_eq_of_mem_set hw' with hw' | rfl
    · exact h.traps w' hw'
    · exact hb.trap

/-- A call adds its remarks to its own unit and to no other. -/
theorem Ready.step (h : s.Ready) {st : Step} (hc : st.timed.call.storesNone = true) :
    (∀ i, (s.step st).2.remarks i =
      s.remarks i ++ if st.worker = i then (Moment.mk s st).added else []) ∧
      (s.step st).2.Ready := by
  cases hw : s.workers[st.worker]? with
  | none =>
    have hs : (s.step st).2 = s := congrArg Prod.snd (s.act_of_none hw ..)
    have hadded : (Moment.mk s st).added = [] := by
      rw [Moment.added, hs, List.drop_length]
    rw [hs, hadded]
    exact ⟨by simp, h⟩
  | some w =>
    obtain ⟨-, hadded, hself, hready⟩ := h.step_self hc hw
    refine ⟨fun i => ?_, hready⟩
    by_cases hi : st.worker = i
    · subst hi
      rw [if_pos rfl, hself, hadded]
    · rw [if_neg hi, List.append_nil, remarks, s.workers_step_of_ne hi, remarks]

/-- Over a run the remarks of each unit go on with those of its calls. -/
theorem Ready.remarks_run (h : s.Ready) {steps : List Step}
    (hc : ∀ st ∈ steps, st.timed.call.storesNone = true) (i : Nat) :
    (s.run steps).2.remarks i = s.remarks i ++
      (((s.history steps).map Moment.saying).filter fun said => said.step.worker = i).flatMap
        Saying.added := by
  induction steps generalizing s with
  | nil => exact (List.append_nil _).symm
  | cons st rest ih =>
    obtain ⟨hadds, hready⟩ := h.step (hc st List.mem_cons_self)
    rw [run_cons, ih hready fun st' hm => hc st' (List.mem_cons_of_mem st hm), hadds,
      List.append_assoc, history, List.map_cons, List.filter_cons]
    by_cases hi : st.worker = i <;> simp [Moment.saying, hi]

/-- All that turns say is said by their calls. -/
theorem Ready.saidBy_turns (h : s.Ready) {ts : List Turn}
    (hc : ∀ st ∈ ts.flatMap (Turn.steps s.engine.settings.verbosity),
      st.timed.call.storesNone = true) :
    s.SaidBy (s.sayings ts) (s.turns ts) := by
  obtain ⟨hrun, hbusy⟩ := s.turns_eq_run ts
  have hreceipts : (s.sayings ts).map Saying.receipt =
      (s.run (ts.flatMap (Turn.steps s.engine.settings.verbosity))).1 := by
    rw [← s.receipts_history, sayings, List.map_map]
    rfl
  have hlog := (grows_turns h.stream.unfailing.unbounded ts).content
  rw [s.lines_turns, ← hreceipts, Receipt.lines, List.filterMap_map] at hlog
  refine ⟨by rw [hbusy, hreceipts], hlog, fun i => ?_⟩
  rw [hrun]
  exact h.remarks_run hc i

end Session

end DiagnosticLog
