import DiagnosticLog.Proofs.Programs
import DiagnosticLog.Proofs.Writer

/-! Runs in lockstep. Two engines, or two trap writers, may differ in what they hold and still give
the same answer to every call. Then the calls and the programs of their units are told the same,
and what they hold stays related. -/

namespace DiagnosticLog

/-- The same answer, and states that are related. -/
structure InStep {α σ : Type} (R : σ → σ → Prop) (x y : α × σ) : Prop where
  answer : y.1 = x.1
  state : R x.2 y.2

namespace InStep

variable {α β σ : Type} {R R' : σ → σ → Prop}

theorem of_eq (x : α × σ) : InStep Eq x x := ⟨rfl, rfl⟩

/-- The two sides taken apart, so that what comes next can go by the answer. -/
theorem eq_pairs {x y : α × σ} (h : InStep R x y) :
    ∃ answer s s', x = (answer, s) ∧ y = (answer, s') ∧ R s s' :=
  ⟨x.1, x.2, y.2, rfl, Prod.ext h.answer rfl, h.state⟩

theorem mono {x y : α × σ} (h : InStep R x y) (hr : ∀ s s', R s s' → R' s s') : InStep R' x y :=
  ⟨h.answer, hr _ _ h.state⟩

theorem map {x y : α × σ} (h : InStep R x y) (f : α → β) : InStep R (x.map f id) (y.map f id) :=
  ⟨congrArg f h.answer, h.state⟩

/-- Steps taken one after the other stay in step if every single one does. -/
theorem inTurn {step step' : σ → α → β × σ} {items : List α}
    (h : ∀ s s', R s s' → ∀ item ∈ items, InStep R (step s item) (step' s' item)) {s s' : σ}
    (hs : R s s') : InStep R (inTurn step s items) (inTurn step' s' items) := by
  induction items generalizing s s' with
  | nil => exact ⟨rfl, hs⟩
  | cons item rest ih =>
    have hi := h s s' hs item List.mem_cons_self
    have hr := ih (fun s s' hs item hm => h s s' hs item (List.mem_cons_of_mem _ hm)) hi.state
    rw [inTurn_cons, inTurn_cons]
    refine ⟨?_, hr.state⟩
    dsimp only
    rw [hi.answer, hr.answer]

end InStep

/-- Related writers give the same labels and refuse the same calls. -/
structure TrapWriter.Lockstep (T : TrapWriter → TrapWriter → Prop) : Prop where
  freshLabel : ∀ {w w'}, T w w' → InStep T w.freshLabel w'.freshLabel
  write : ∀ {w w'}, T w w' → ∀ call record, InStep T (w.write call record) (w'.write call record)
  unknownLocation : ∀ {w w'}, T w w' → InStep T w.unknownLocation w'.unknownLocation
  flush : ∀ {w w'}, T w w' → InStep T w.flush w'.flush

theorem TrapWriter.lockstep_eq : TrapWriter.Lockstep Eq where
  freshLabel := by
    rintro w _ rfl
    exact .of_eq _
  write := by
    rintro w _ rfl call record
    exact .of_eq _
  unknownLocation := by
    rintro w _ rfl
    exact .of_eq _
  flush := by
    rintro w _ rfl
    exact .of_eq _

/-- Of two ways to be related, writers may be related in any. -/
theorem TrapWriter.Lockstep.or {T T' : TrapWriter → TrapWriter → Prop} (h : Lockstep T)
    (h' : Lockstep T') : Lockstep fun w w' => T w w' ∨ T' w w' where
  freshLabel := by
    rintro w w' (hw | hw)
    · exact (h.freshLabel hw).mono fun _ _ => .inl
    · exact (h'.freshLabel hw).mono fun _ _ => .inr
  write := by
    rintro w w' (hw | hw) call record
    · exact (h.write hw call record).mono fun _ _ => .inl
    · exact (h'.write hw call record).mono fun _ _ => .inr
  unknownLocation := by
    rintro w w' (hw | hw)
    · exact (h.unknownLocation hw).mono fun _ _ => .inl
    · exact (h'.unknownLocation hw).mono fun _ _ => .inr
  flush := by
    rintro w w' (hw | hw)
    · exact (h.flush hw).mono fun _ _ => .inl
    · exact (h'.flush hw).mono fun _ _ => .inr

/-- What it takes for related writers to come to their unknown location in step. -/
structure TrapWriter.Finding (T : TrapWriter → TrapWriter → Prop) : Prop where
  gate : ∀ {w w'}, T w w' → w'.refuses .unknownLocation w'.attempts.unknownLocation =
    w.refuses .unknownLocation w.attempts.unknownLocation
  known : ∀ {w w'}, T w w' → w'.unknown = w.unknown
  tried : ∀ {w w'}, T w w' → T (w.tried .unknownLocation) (w'.tried .unknownLocation)
  freshLabel : ∀ {w w'}, T w w' → InStep T w.freshLabel w'.freshLabel
  put : ∀ {w w'}, T w w' → ∀ label,
    InStep T (w.put (.unknownLocation label)) (w'.put (.unknownLocation label))
  learn : ∀ {w w'}, T w w' → ∀ label, T { w with unknown := label } { w' with unknown := label }

namespace TrapWriter.Finding

variable {T : TrapWriter → TrapWriter → Prop} {w w' : TrapWriter}

theorem storeUnknown (hT : Finding T) (h : T w w') : InStep T w.storeUnknown w'.storeUnknown := by
  have hf := hT.freshLabel h
  obtain ⟨result, v, v', hp, hp', hv⟩ := (hT.put hf.state w.freshLabel.1).eq_pairs
  simp only [TrapWriter.storeUnknown, hf.answer, hp, hp']
  cases result with
  | error cause => exact ⟨rfl, hv⟩
  | ok _ => exact ⟨rfl, hT.learn hv _⟩

theorem unknownLocation (hT : Finding T) (h : T w w') :
    InStep T w.unknownLocation w'.unknownLocation := by
  rw [unknownLocation_eq, unknownLocation_eq, hT.gate h, hT.known h]
  split
  · exact ⟨rfl, hT.tried h⟩
  · split
    · exact ⟨rfl, hT.tried h⟩
    · exact hT.storeUnknown (hT.tried h)

end TrapWriter.Finding

/-- Related engines write and flush the log with the same success. -/
structure Engine.Lockstep (E : Engine → Engine → Prop) : Prop where
  settings : ∀ {e e'}, E e e' → e'.settings = e.settings
  writeLine : ∀ {e e'}, E e e' → ∀ message, InStep E (e.writeLine message) (e'.writeLine message)
  flush : ∀ {e e'}, E e e' → InStep E e.flush e'.flush

theorem Engine.lockstep_eq : Engine.Lockstep Eq where
  settings := by
    rintro e _ rfl
    rfl
  writeLine := by
    rintro e _ rfl message
    exact .of_eq _
  flush := by
    rintro e _ rfl
    exact .of_eq _

/-- A way to find a location that gives related writers the same answer. -/
def Locator.Lockstep (T : TrapWriter → TrapWriter → Prop) (locate : Locator) : Prop :=
  ∀ w w', T w w' → InStep T (locate w) (locate w')

/-- What one call did on two sides, so far as its caller can tell. -/
structure Outcome.Related (E : Engine → Engine → Prop) (T : TrapWriter → TrapWriter → Prop)
    (S : Option UnitState → Option UnitState → Prop) (o o' : Outcome) : Prop where
  receipt : o'.receipt = o.receipt
  engine : E o.engine o'.engine
  trap : T o.trap o'.trap
  state : S o.state o'.state

/-! ### The stages of a call -/

namespace Engine

/-- From these states related engines store reports in step. -/
def StoresInStep (E : Engine → Engine → Prop) (T : TrapWriter → TrapWriter → Prop)
    (S : Option UnitState → Option UnitState → Prop) (state state' : Option UnitState) : Prop :=
  ∀ {e e'}, E e e' → ∀ {w w'}, T w w' → ∀ now r body location,
    InStep (fun left left' => T left.1 left'.1 ∧ S left.2 left'.2)
      (e.store now r body location w state) (e'.store now r body location w' state')

variable {E : Engine → Engine → Prop} {T : TrapWriter → TrapWriter → Prop}
  {S : Option UnitState → Option UnitState → Prop} {e e' : Engine} {trap trap' : TrapWriter}
  {state state' : Option UnitState}

theorem storesInStep_eq (hE : Engine.Lockstep E) (hT : TrapWriter.Lockstep T)
    (state : Option UnitState) : StoresInStep E T Eq state state := by
  intro e e' he w w' ht now r body location
  have hf := hT.freshLabel ht
  have hrow : e'.row now r body w.freshLabel.1 location =
      e.row now r body w.freshLabel.1 location := by
    rw [row, row, hE.settings he]
  obtain ⟨result, v, v', hv, hv', ht'⟩ := (hT.write hf.state .diagnostic
    (.diagnostic (e.row now r body w.freshLabel.1 location))).eq_pairs
  simp only [store, TrapWriter.writeDiagnostic, hf.answer, hrow, hv, hv']
  cases result with
  | error cause => exact ⟨rfl, ht', rfl⟩
  | ok _ =>
    cases state with
    | none => exact ⟨rfl, ht', rfl⟩
    | some state =>
      have ha := hT.write ht' .association (.association
        ⟨w.freshLabel.1, AssociationRow.compilation, state.fileNumber, state.count⟩)
      exact ⟨ha.answer, ha.state, rfl⟩

theorem related_finish (hE : Engine.Lockstep E) (he : E e e') (ht : T trap trap')
    (message : Message) (located : Bool) (hs : S state state') :
    Outcome.Related E T S (e.finish message located trap state)
      (e'.finish message located trap' state') := by
  have hw := hE.writeLine he message
  rw [finish_eq, finish_eq, hw.answer]
  exact ⟨rfl, hw.state, ht, hs⟩

/-- A message is in step if its comment is. -/
theorem related_log (hE : Engine.Lockstep E) (he : E e e') (now : String) (level : Level)
    (text : String)
    (hc : InStep T (trap.writeComment (Message.plain ⟨level.kind, text, now⟩))
      (trap'.writeComment (Message.plain ⟨level.kind, text, now⟩)))
    (hs : S none none) :
    Outcome.Related E T S (e.log now level text trap) (e'.log now level text trap') := by
  obtain ⟨result, w, w', hw, hw', ht⟩ := hc.eq_pairs
  simp only [log, hw, hw']
  cases result with
  | error cause => exact ⟨rfl, he, ht, hs⟩
  | ok _ => exact related_finish hE he ht _ false hs

theorem related_emit (hE : Engine.Lockstep E) (he : E e e') (now : String) (r : Report)
    (body : String) {locate : Locator} (hl : InStep T (locate trap) (locate trap'))
    (hs : S state state') (hstore : StoresInStep E T S state state') :
    Outcome.Related E T S (e.emit now r body locate trap state)
      (e'.emit now r body locate trap' state') := by
  obtain ⟨result, w, w', hw, hw', ht⟩ := hl.eq_pairs
  simp only [emit, hw, hw']
  cases result with
  | error cause => exact ⟨rfl, he, ht, hs⟩
  | ok location =>
    obtain ⟨result, ⟨w, state⟩, ⟨w', state'⟩, hst, hst', ht, hs⟩ :=
      (hstore he ht now r body location).eq_pairs
    simp only [hst, hst']
    cases result with
    | error cause => exact ⟨rfl, he, ht, hs⟩
    | ok _ => exact related_finish hE he ht _ true hs

/-- A diagnostic is in step if it is admitted on both sides or on neither, and shows the same trail
on both. -/
theorem related_diagnostic (hE : Engine.Lockstep E) (ht : T trap trap') (now : String) {r : Report}
    {locate : Locator} (hr : InStep E (e.screen r) (e'.screen r))
    (hl : InStep T (locate trap) (locate trap')) (hs : S state state')
    (hlines : UnitState.trailLines state' = UnitState.trailLines state)
    (hstore : StoresInStep E T S state state') :
    Outcome.Related E T S (e.diagnostic now r locate trap state)
      (e'.diagnostic now r locate trap' state') := by
  obtain ⟨admission, counted, counted', hc, hc', he⟩ := hr.eq_pairs
  simp only [diagnostic, hc, hc', hlines]
  cases admission with
  | heldBack => exact ⟨rfl, he, ht, hs⟩
  | goesOut notice => exact related_emit hE he now r _ hl hs hstore

end Engine

/-! ### Calls of a unit -/

/-- Units that differ in their trap writers only. -/
structure Worker.Related (T : TrapWriter → TrapWriter → Prop) (w w' : Worker) : Prop where
  trap : T w.trap w'.trap
  state : w'.state = w.state
  resolved : w'.resolved = w.resolved

structure Bench.Related (E : Engine → Engine → Prop) (T : TrapWriter → TrapWriter → Prop)
    (b b' : Bench) : Prop where
  engine : E b.engine b'.engine
  worker : b.worker.Related T b'.worker

/-- A call that finds its location in step, if it is one that looks for a location. -/
def EngineCall.Lockstep (T : TrapWriter → TrapWriter → Prop) : EngineCall → Prop
  | .diagnostic _ place _ => place.locate.Lockstep T
  | _ => True

theorem EngineCall.lockstep_eq (call : EngineCall) : call.Lockstep Eq := by
  cases call with
  | diagnostic report place withState =>
    rintro w _ rfl
    exact .of_eq _
  | _ => trivial

namespace Bench

variable {E : Engine → Engine → Prop} {T : TrapWriter → TrapWriter → Prop} {b b' : Bench}

theorem Related.enter (h : b.Related E T b') (frame : Frame) :
    (b.enter frame).Related E T (b'.enter frame) :=
  ⟨h.engine, h.worker.trap, congrArg (·.enter frame) h.worker.state, h.worker.resolved⟩

theorem Related.leave (h : b.Related E T b') : b.leave.Related E T b'.leave :=
  ⟨h.engine, h.worker.trap, congrArg (·.leave.2) h.worker.state, h.worker.resolved⟩

theorem Related.flushTrap (hT : TrapWriter.Lockstep T) (h : b.Related E T b') :
    InStep (Bench.Related E T) b.flushTrap b'.flushTrap := by
  have hf := hT.flush h.worker.trap
  refine ⟨?_, h.engine, hf.state, h.worker.state, h.worker.resolved⟩
  simp only [Bench.flushTrap, hf.answer]

theorem Related.flushLog (hE : Engine.Lockstep E) (h : b.Related E T b') :
    InStep (Bench.Related E T) b.flushLog b'.flushLog := by
  have hf := hE.flush h.engine
  refine ⟨?_, hf.state, h.worker⟩
  simp only [Bench.flushLog, hf.answer]

theorem Related.flush (hE : Engine.Lockstep E) (hT : TrapWriter.Lockstep T)
    (h : b.Related E T b') : InStep (Bench.Related E T) b.flush b'.flush := by
  obtain ⟨receipt, c, c', hc, hc', hr⟩ := (h.flushTrap hT).eq_pairs
  simp only [Bench.flush, hc, hc']
  split
  · exact hr.flushLog hE
  · exact ⟨rfl, hr⟩

theorem Related.settle (h : b.Related E T b') (place : Place) {o o' : Outcome}
    (ho : o.Related E T Eq o') :
    InStep (Bench.Related E T) (b.settle place o) (b'.settle place o') := by
  refine ⟨ho.receipt, ho.engine, ho.trap, ?_, ?_⟩
  · simp only [Bench.settle, ho.state, h.worker.state]
  · simp only [Bench.settle, ho.receipt, h.worker.resolved]

/-- A call is in step if its report is admitted on both sides or on neither. -/
theorem Related.perform (hE : Engine.Lockstep E) (hT : TrapWriter.Lockstep T)
    (h : b.Related E T b') (now : String) {call : EngineCall} (hl : call.Lockstep T)
    (hs : ∀ r place withState, call = .diagnostic r place withState →
      InStep E (b.engine.screen r) (b'.engine.screen r)) :
    InStep (Bench.Related E T) (b.perform now call) (b'.perform now call) := by
  cases call with
  | diagnostic r place withState =>
    have hstate : b'.stateIf withState = b.stateIf withState := by
      rw [stateIf, stateIf, h.worker.state]
    simp only [Bench.perform, Bench.diagnostic, hstate]
    exact h.settle place (Engine.related_diagnostic hE h.worker.trap now (hs r place withState rfl)
      (hl _ _ h.worker.trap) rfl rfl (Engine.storesInStep_eq hE hT _))
  | log level text =>
    have ho := Engine.related_log (S := Eq) hE h.engine now level text
      (hT.write h.worker.trap .comment _) rfl
    exact ⟨ho.receipt, ho.engine, ho.trap, h.worker.state, h.worker.resolved⟩
  | enter frame => exact ⟨rfl, h.enter frame⟩
  | leave => exact ⟨rfl, h.leave⟩
  | flushTrap => exact h.flushTrap hT
  | flushLog => exact h.flushLog hE
  | flush => exact h.flush hE hT

end Bench

/-! ### Programs -/

/-- Related engines admit the same reports. -/
def Engine.AdmitsAlike (E : Engine → Engine → Prop) : Prop :=
  ∀ {e e'}, E e e' → ∀ r, InStep E (e.screen r) (e'.screen r)

theorem Engine.admitsAlike_eq : Engine.AdmitsAlike Eq := by
  rintro e _ rfl r
  exact .of_eq _

section Programs

variable {E : Engine → Engine → Prop} {T : TrapWriter → TrapWriter → Prop} {b b' : Bench}

/-- A logger looks for its locations in step: it asks the writer for the unknown location, or it
asks someone who does nothing to the writer. -/
theorem LoggerCall.lockstep_engineCall (hT : TrapWriter.Lockstep T) (kind : LoggerKind)
    (call : LoggerCall) : (call.engineCall kind).Lockstep T := by
  have hu : Locator.Lockstep T Place.unknown.locate := fun _ _ hw => hT.unknownLocation hw
  have hr : ∀ answer, Locator.Lockstep T (Place.resolved answer).locate :=
    fun _ _ _ hw => ⟨rfl, hw⟩
  cases call with
  | warn text site | error text site => exact hu
  | warnCause text cause site | errorCause text cause site => exact hu
  | report severity text extra site => exact hu
  | warnAbout text element site | errorAbout text element site => exact hr _
  | _ => trivial

namespace Bench.Related

theorem performLogger (hE : Engine.Lockstep E) (hA : Engine.AdmitsAlike E)
    (hT : TrapWriter.Lockstep T) (kind : LoggerKind) (h : b.Related E T b') (now : String)
    (call : LoggerCall) :
    InStep (Bench.Related E T) (kind.perform b now call) (kind.perform b' now call) := by
  rw [kind.perform_eq, kind.perform_eq, hE.settings h.engine]
  split
  · exact h.perform hE hT now (call.lockstep_engineCall hT kind) fun r _ _ _ => hA h.engine r
  · exact ⟨rfl, h⟩

theorem performAllLogger (hE : Engine.Lockstep E) (hA : Engine.AdmitsAlike E)
    (hT : TrapWriter.Lockstep T) (kind : LoggerKind) (h : b.Related E T b')
    (calls : List (Timed LoggerCall)) :
    InStep (Bench.Related E T) (kind.performAll b calls) (kind.performAll b' calls) :=
  InStep.inTurn (fun _ _ h c _ => h.performLogger hE hA hT kind c.now c.call) h

/-- Programs run in step. They end in the same way, since nothing that is told decides how a body
ends. -/
theorem runScript (hE : Engine.Lockstep E) (hA : Engine.AdmitsAlike E)
    (hT : TrapWriter.Lockstep T) (kind : LoggerKind) (script : Script) (h : b.Related E T b') :
    (script.run kind b').events.flatMap Event.receipts =
        (script.run kind b).events.flatMap Event.receipts ∧
      (script.run kind b).bench.Related E T (script.run kind b').bench := by
  have hexit : ∀ (script : Script) {b b' : Bench}, b.Related E T b' →
      (script.run kind b').exit = (script.run kind b).exit := by
    intro script b b' h
    rw [(script.run_does kind b).1, (script.run_does kind b').1, hE.settings h.engine]
  induction script generalizing b b' with
  | done => exact ⟨rfl, h⟩
  | calls cs rest ih =>
    have hc := h.performAllLogger hE hA hT kind cs
    obtain ⟨hr, hb⟩ := ih hc.state
    refine ⟨?_, hb⟩
    simp only [Script.run, ScriptRun.after, List.flatMap_append, hr]
    simp [Event.receipts, hc.answer]
  | look rest ih => exact ih h
  | within frame body rest ihb ihr =>
    have henter : (b.enter frame).Related E T (b'.enter frame) :=
      h.enter frame
    obtain ⟨hr, hb⟩ := ihb henter
    have hleave : (body.run kind (b.enter frame)).bench.leave.Related E T
        (body.run kind (b'.enter frame)).bench.leave :=
      hb.leave
    obtain ⟨hr', hb'⟩ := ihr hleave
    simp only [Script.run, hexit body henter]
    cases (body.run kind (b.enter frame)).exit with
    | bailed =>
      refine ⟨?_, hleave⟩
      simp [Event.receipts, hr]
    | finished | left =>
      refine ⟨?_, hb'⟩
      simp [ScriptRun.after, Event.receipts, hr, hr']
  | guarded body rest ihb ihr =>
    obtain ⟨hr, hb⟩ := ihb h
    obtain ⟨hr', hb'⟩ := ihr hb
    simp only [Script.run, hexit body h]
    refine ⟨?_, hb'⟩
    cases (body.run kind b).exit <;> simp [ScriptRun.after, Event.receipts, hr, hr']
  | leave => exact ⟨rfl, h⟩
  | bail => exact ⟨rfl, h⟩

theorem runUnit (hE : Engine.Lockstep E) (hA : Engine.AdmitsAlike E)
    (hT : TrapWriter.Lockstep T) (kind : LoggerKind) (script : Script) (h : b.Related E T b') :
    (script.runUnit kind b').1.flatMap Event.receipts =
        (script.runUnit kind b).1.flatMap Event.receipts ∧
      (script.runUnit kind b).2.Related E T (script.runUnit kind b').2 := by
  obtain ⟨hr, hb⟩ := h.runScript hE hA hT kind script
  have hq : ∀ b, (script.runUnit kind b).1.flatMap Event.receipts =
      (script.run kind b).events.flatMap Event.receipts := by
    intro b
    simp only [Script.runUnit]
    cases (script.run kind b).exit <;> simp [Event.receipts]
  exact ⟨by rw [hq, hq, hr], hb⟩

end Bench.Related

end Programs

/-! ### Sessions -/

/-- Sessions that are related so far as some of their units can tell. -/
structure Session.RelatedOn (units : Nat → Prop) (E : Engine → Engine → Prop)
    (T : TrapWriter → TrapWriter → Prop) (s s' : Session) : Prop where
  engine : E s.engine s'.engine
  workers : ∀ i, units i → Option.Rel (Worker.Related T) s.workers[i]? s'.workers[i]?

abbrev Session.Related (E : Engine → Engine → Prop) (T : TrapWriter → TrapWriter → Prop)
    (s s' : Session) : Prop :=
  s.RelatedOn (fun _ => True) E T s'

theorem Worker.Related.eq {w w' : Worker} (h : w.Related Eq w') : w' = w := by
  cases w
  cases w'
  rw [Worker.mk.injEq]
  exact ⟨h.trap.symm, h.state, h.resolved⟩

/-- Units with the same writers are the same. -/
theorem Session.relatedOn_eq_iff {units : Nat → Prop} {E : Engine → Engine → Prop}
    {s s' : Session} :
    s.RelatedOn units E Eq s' ↔
      E s.engine s'.engine ∧ ∀ i, units i → s'.workers[i]? = s.workers[i]? := by
  constructor
  · intro h
    refine ⟨h.engine, fun i hi => ?_⟩
    have hw := h.workers i hi
    generalize s.workers[i]? = found at hw ⊢
    generalize s'.workers[i]? = found' at hw ⊢
    cases hw with
    | none => rfl
    | some hr => rw [hr.eq]
  · rintro ⟨he, hw⟩
    refine ⟨he, fun i hi => ?_⟩
    rw [hw i hi]
    cases s.workers[i]? with
    | none => exact .none
    | some w => exact .some ⟨rfl, rfl, rfl⟩

/-- A turn whose locations are looked for in step. -/
def Turn.Lockstep (T : TrapWriter → TrapWriter → Prop) : Turn → Prop
  | .step st => st.timed.call.Lockstep T
  | .program .. => True

section Sessions

variable {E : Engine → Engine → Prop} {T : TrapWriter → TrapWriter → Prop} {units : Nat → Prop}
  {s s' : Session}

/-- A unit that exists on both sides takes over what its benches became; the others stay as they
are. -/
theorem Session.RelatedOn.set {E' : Engine → Engine → Prop} (h : s.RelatedOn units E T s') {i : Nat}
    (hlt : i < s.workers.length) (hlt' : i < s'.workers.length) {b b' : Bench}
    (hb : b.Related E' T b') :
    Session.RelatedOn units E' T ⟨b.engine, s.workers.set i b.worker⟩
      ⟨b'.engine, s'.workers.set i b'.worker⟩ := by
  refine ⟨hb.engine, ?_⟩
  intro j hu
  by_cases hj : i = j
  · subst hj
    rw [List.getElem?_set_self hlt, List.getElem?_set_self hlt']
    exact .some hb.worker
  · rw [List.getElem?_set_ne hj, List.getElem?_set_ne hj]
    exact h.workers j hu

/-- A unit exists on both sides or on neither. -/
theorem Session.RelatedOn.worker (h : s.RelatedOn units E T s') {i : Nat} (hi : units i) :
    (s.workers[i]? = none ∧ s'.workers[i]? = none) ∨
      ∃ w w', s.workers[i]? = some w ∧ s'.workers[i]? = some w' ∧ w.Related T w' := by
  have hi := h.workers i hi
  generalize s.workers[i]? = found at hi ⊢
  generalize s'.workers[i]? = found' at hi ⊢
  cases hi with
  | none => exact .inl ⟨rfl, rfl⟩
  | some hrel => exact .inr ⟨_, _, rfl, rfl, hrel⟩

/-- What a unit does in step keeps the session in step; a unit that does not exist on one side does
not exist on the other. -/
theorem Session.RelatedOn.act {α β : Type} (h : s.RelatedOn units E T s') {i : Nat} (hi : units i)
    (idle : α) {deed : Bench → α × Bench} (f : α → β)
    (hd : ∀ w w', Worker.Related T w w' →
      f (deed ⟨s'.engine, w'⟩).1 = f (deed ⟨s.engine, w⟩).1 ∧
        (deed ⟨s.engine, w⟩).2.Related E T (deed ⟨s'.engine, w'⟩).2) :
    f (s'.act i idle deed).1 = f (s.act i idle deed).1 ∧
      (s.act i idle deed).2.RelatedOn units E T (s'.act i idle deed).2 := by
  rcases h.worker hi with ⟨hw, hw'⟩ | ⟨w, w', hw, hw', hrel⟩
  · rw [s.act_of_none hw, s'.act_of_none hw']
    exact ⟨rfl, h⟩
  · obtain ⟨ha, hb⟩ := hd _ _ hrel
    rw [s.act_of_getElem? hw, s'.act_of_getElem? hw']
    have hlt := (List.getElem?_eq_some_iff.mp hw).1
    have hlt' := (List.getElem?_eq_some_iff.mp hw').1
    exact ⟨ha, h.set hlt hlt' hb⟩

/-- A step is in step if its report is admitted on both sides or on neither. -/
theorem Session.RelatedOn.step (hE : Engine.Lockstep E) (hT : TrapWriter.Lockstep T)
    (h : s.RelatedOn units E T s') {st : Step} (hi : units st.worker)
    (hl : st.timed.call.Lockstep T)
    (hs : ∀ r place withState, st.timed.call = .diagnostic r place withState →
      InStep E (s.engine.screen r) (s'.engine.screen r)) :
    InStep (Session.RelatedOn units E T) (s.step st) (s'.step st) := by
  let deed : Bench → Receipt × Bench := fun b => b.perform st.timed.now st.timed.call
  have hd : ∀ w w', w.Related T w' →
      InStep (Bench.Related E T) (deed ⟨s.engine, w⟩) (deed ⟨s'.engine, w'⟩) :=
    fun w w' hw => Bench.Related.perform hE hT ⟨h.engine, hw⟩ st.timed.now hl hs
  obtain ⟨ha, hr⟩ := h.act hi Receipt.done id fun w w' hw =>
    And.intro (hd w w' hw).answer (hd w w' hw).state
  exact ⟨ha, hr⟩

namespace Session.Related

theorem turn (hE : Engine.Lockstep E) (hA : Engine.AdmitsAlike E) (hT : TrapWriter.Lockstep T)
    (h : s.Related E T s') {t : Turn} (hl : t.Lockstep T) :
    InStep (Session.Related E T) (s.turn t) (s'.turn t) := by
  cases t with
  | step st =>
    have hs := h.step hE hT trivial hl fun r _ _ _ => hA h.engine r
    refine ⟨?_, hs.state⟩
    simp only [Session.turn, hs.answer]
  | program i kind script =>
    have hd : ∀ w w', w.Related T w' → Bench.Related E T ⟨s.engine, w⟩ ⟨s'.engine, w'⟩ :=
      fun w w' hw => ⟨h.engine, hw⟩
    obtain ⟨ha, hr⟩ := h.act (i := i) trivial [] (List.flatMap Event.receipts) fun w w' hw =>
      (hd w w' hw).runUnit hE hA hT kind script
    exact ⟨ha, hr⟩

/-- Turns are taken in step. -/
theorem turns (hE : Engine.Lockstep E) (hA : Engine.AdmitsAlike E) (hT : TrapWriter.Lockstep T)
    (h : s.Related E T s') {ts : List Turn} (hl : ∀ t ∈ ts, t.Lockstep T) :
    InStep (Session.Related E T) (s.turns ts) (s'.turns ts) := by
  have ht : InStep (Session.Related E T) (inTurn Session.turn s ts) (inTurn Session.turn s' ts) :=
    .inTurn (fun _ _ h t hm => h.turn hE hA hT (hl t hm)) h
  refine ⟨?_, ht.state⟩
  simp only [Session.turns, ht.answer]

end Session.Related

end Sessions

end DiagnosticLog
