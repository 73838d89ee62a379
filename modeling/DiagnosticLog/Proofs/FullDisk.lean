import DiagnosticLog.Proofs.Capacity
import DiagnosticLog.Proofs.Locations
import DiagnosticLog.Proofs.Remarks

/-! A full disk cuts the text of a unit and nothing else. A report is searched for, stored and
written line by line, and the text of the unit may be cut off anywhere in it; the stages after the
cut are not reached, or fail, and none of them writes anything out of place. -/

namespace DiagnosticLog

/-! ### Locations -/

/-- Whether nobody makes more room in the sink in search of a place. -/
def Place.growsNone (place : Place) : Bool := place.calls.all TrapCall.growsNone

/-- Calls whose answers nobody looks at. -/
theorem TrapWriter.obeys_run {α : Type} (answer : α) {c : Nat} {calls : List TrapCall}
    (h : ∀ call ∈ calls, call.growsNone = true) :
    printer.Obeys c (fun _ => calls ≠ []) fun w => (answer, (w.run calls).2) := by
  induction calls with
  | nil => exact .idle answer
  | cons call rest ih =>
    obtain ⟨hcall, hrest⟩ := List.forall_mem_cons.mp h
    simp only [run_cons]
    exact (obeys_perform hcall).bind
      (fun _ => (ih hrest).mono fun _ _ => List.cons_ne_nil call rest)
      fun _ _ _ _ => List.cons_ne_nil call rest

/-- The search for a place obeys the bound. It fails with the disk full, unless someone is asked who
uses the writer and has an answer all the same. -/
theorem Place.obeys_locate {place : Place} (h : place.growsNone = true) {c : Nat} :
    TrapWriter.printer.Obeys c
      (fun result => place.storesNone = true → result = .error .diskFull) place.locate := by
  cases place with
  | unknown => exact TrapWriter.obeys_unknownLocation.mono fun _ h _ => h
  | fresh =>
    let deed : Label → TrapWriter → Except Failure Label × TrapWriter := fun label w =>
      (.ok label, w.freshLabel.2)
    exact .read deed (fun w => w.freshLabel.1) (fun _ => rfl) fun _ =>
      TrapWriter.obeys_same _ (fun _ => rfl) fun _ => rfl
  | provided calls answer =>
    refine (TrapWriter.obeys_run answer (List.all_eq_true.mp h)).mono fun _ hc hs => ?_
    exact absurd (List.isEmpty_iff.mp hs) hc

/-! ### Reports -/

/-- What a call told and left behind, and the writer as it left it. -/
def Outcome.paired (o : Outcome) : (Receipt × Engine × Option UnitState) × TrapWriter :=
  ((o.receipt, o.engine, o.state), o.trap)

/-- The receipt of a call that failed at the trap writer. -/
def Receipt.IsLost (r : Receipt) : Prop := ∃ cause, r.result = .error (.trap cause)

/-- The receipt of a call that failed at the trap writer: with the disk full, if nobody else was
using the writer. -/
def Receipt.IsCutOff (quiet : Bool) (r : Receipt) : Prop :=
  ∃ cause, r.result = .error (.trap cause) ∧ (quiet = true → cause = .diskFull)

namespace Engine

variable (e : Engine) {c : Nat}

/-- A line is written without the writer. -/
theorem obeys_finish {fails : Receipt × Engine × Option UnitState → Prop} (message : Message)
    (located : Bool) (state : Option UnitState) :
    TrapWriter.printer.Obeys c fails fun w => (e.finish message located w state).paired := by
  simp only [finish_eq]
  exact .idle (_, _, _)

theorem obeys_log (now : String) (level : Level) (text : String) :
    TrapWriter.printer.Obeys c (fun told => told.1.IsCutOff true)
      fun w => (e.log now level text w).paired := by
  let message : Message := ⟨level.kind, text, now⟩
  have hl : (fun w => (e.log now level text w).paired) = fun w =>
      Printer.proceed (fun cause => ({ result := .error (.trap cause) }, e, none))
        (fun _ w' => (e.finish message false w' none).paired)
        (w.writeComment message.plain).1 (w.writeComment message.plain).2 := by
    funext w
    rcases e.log_cases now level text w with ⟨cause, hc, h⟩ | ⟨hok, h⟩
    · rw [h, hc]
      rfl
    · rw [h, hok]
      rfl
  rw [hl]
  refine (TrapWriter.obeys_write .comment (.comment message.plain)).proceed
    (fun _ => e.obeys_finish message false none) ?_ ?_
  · rintro cause ⟨⟩
    exact ⟨_, rfl, fun _ => rfl⟩
  · rintro a w ⟨⟩

/-- The records of a report, told with the state that they leave behind. -/
def stored (now : String) (r : Report) (body : String) (location : Label)
    (state : Option UnitState) (trap : TrapWriter) :
    (Except Failure Unit × Option UnitState) × TrapWriter :=
  let x := e.store now r body location trap state
  ((x.1, x.2.2), x.2.1)

theorem obeys_stored (now : String) (r : Report) (body : String) (location : Label)
    (state : Option UnitState) :
    TrapWriter.printer.Obeys c (fun told => told.1 = .error .diskFull)
      (e.stored now r body location state) := by
  let associated : Label → TrapWriter → (Except Failure Unit × Option UnitState) × TrapWriter :=
    fun id w => state.elim ((.ok (), none), w) fun s =>
      (((associate w s id).1, some s.nextNumber.2), (associate w s id).2.1)
  let deed : Label → TrapWriter → (Except Failure Unit × Option UnitState) × TrapWriter :=
    fun id w =>
      let written := w.freshLabel.2.writeDiagnostic (e.row now r body id location)
      Printer.proceed (fun cause => (.error cause, state)) (fun _ => associated id) written.1
        written.2
  have ha : ∀ id, TrapWriter.printer.Obeys c (fun told => told.1 = .error .diskFull)
      (associated id) := by
    intro id
    cases state with
    | none => exact .idle _
    | some s =>
      refine (TrapWriter.obeys_write .association (.association ⟨id, AssociationRow.compilation,
        s.fileNumber, s.count⟩)).map (fun result => (result, some s.nextNumber.2)) ?_
      rintro _ rfl
      rfl
  have hs : e.stored now r body location state = fun w => deed w.freshLabel.1 w := by
    funext w
    rcases e.store_cases now r body location w state with
      ⟨cause, hc, h⟩ | ⟨hc, rfl, h⟩ | ⟨s, hc, rfl, h⟩
    · simp only [stored, deed, h, hc]
      rfl
    · simp only [stored, deed, h, hc]
      rfl
    · simp only [stored, deed, h, hc]
      rfl
  rw [hs]
  refine .read deed (fun w => w.freshLabel.1) (fun _ => rfl) fun id => ?_
  refine TrapWriter.obeys_freshLabel.after ((TrapWriter.obeys_write .diagnostic
    (.diagnostic (e.row now r body id location))).proceed (fun _ => ha id) ?_ ?_)
  · rintro cause ⟨⟩
    rfl
  · rintro a w ⟨⟩

/-- Where a writer is full, no record of a report is stored. -/
theorem lost_stored {trap : TrapWriter} (h : trap.Full c) (now : String) (r : Report)
    (body : String) (location : Label) (state : Option UnitState) :
    ∃ cause, (e.store now r body location trap state).1 = .error cause := by
  obtain ⟨cause, hc⟩ := TrapWriter.fails_write (w := trap.freshLabel.2) h .diagnostic
    (.diagnostic (e.row now r body trap.freshLabel.1 location))
  rcases e.store_cases now r body location trap state with ⟨cause', _, hs⟩ | ⟨ho, _⟩ | ⟨_, ho, _⟩
  · exact ⟨cause', congrArg Prod.fst hs⟩
  · cases ho.symm.trans hc
  · cases ho.symm.trans hc

/-- What comes after the location of a report was found. -/
def continued (now : String) (r : Report) (body : String) (state : Option UnitState)
    (location : Label) (trap : TrapWriter) :
    (Receipt × Engine × Option UnitState) × TrapWriter :=
  let x := e.stored now r body location state trap
  match x.1.1 with
  | .error cause => (({ result := .error (.trap cause), located := true }, e, x.1.2), x.2)
  | .ok () => (e.finish ⟨r.severity.tag, r.heading ++ body, now⟩ true x.2 x.1.2).paired

theorem obeys_continued (now : String) (r : Report) (body : String) (state : Option UnitState)
    (location : Label) :
    TrapWriter.printer.Obeys c (fun told => told.1.IsCutOff true)
      (e.continued now r body state location) := by
  let next : Except Failure Unit × Option UnitState → TrapWriter →
      (Receipt × Engine × Option UnitState) × TrapWriter := fun told =>
    Printer.proceed
      (fun cause => ({ result := .error (.trap cause), located := true }, e, told.2))
      (fun _ w => (e.finish ⟨r.severity.tag, r.heading ++ body, now⟩ true w told.2).paired) told.1
  have hn : ∀ told, TrapWriter.printer.Obeys c
      (fun told : Receipt × Engine × Option UnitState => told.1.IsCutOff true) (next told) := by
    rintro ⟨cause | _, state'⟩
    · exact .idle _
    · exact e.obeys_finish ..
  have hc : e.continued now r body state location = fun w =>
      next (e.stored now r body location state w).1 (e.stored now r body location state w).2 := by
    funext w
    simp only [continued, next]
    generalize e.stored now r body location state w = stored
    obtain ⟨⟨_ | _, _⟩, _⟩ := stored <;> rfl
  rw [hc]
  refine (e.obeys_stored now r body location state).bind hn ?_
  rintro ⟨_, state'⟩ w ⟨⟩ _
  exact ⟨_, rfl, fun _ => rfl⟩

theorem lost_continued {trap : TrapWriter} (h : trap.Full c) (now : String) (r : Report)
    (body : String) (state : Option UnitState) (location : Label) :
    (e.continued now r body state location trap).1.1.IsLost := by
  obtain ⟨cause, hc⟩ := e.lost_stored h now r body location state
  have hx : (e.stored now r body location state trap).1.1 = .error cause := hc
  simp only [continued, hx]
  exact ⟨cause, rfl⟩

theorem paired_emit (now : String) (r : Report) (body : String) (locate : Locator)
    (state : Option UnitState) (trap : TrapWriter) :
    (e.emit now r body locate trap state).paired =
      Printer.proceed
        (fun cause => ({ result := .error (.trap cause), located := true }, e, state))
        (e.continued now r body state) (locate trap).1 (locate trap).2 := by
  rcases e.emit_cases now r body locate trap state with
    ⟨cause, hl, h⟩ | ⟨location, hl, ⟨cause, hs, h⟩ | ⟨hs, h⟩⟩
  · rw [h, hl]
    rfl
  · have hx : (e.stored now r body location state (locate trap).2).1.1 = _ := hs
    rw [h, hl]
    simp only [Printer.proceed, continued, hx]
    rfl
  · have hx : (e.stored now r body location state (locate trap).2).1.1 = _ := hs
    rw [h, hl]
    simp only [Printer.proceed, continued, hx]
    rfl

theorem obeys_diagnostic (now : String) (r : Report) {place : Place} (hp : place.growsNone = true)
    (state : Option UnitState) :
    TrapWriter.printer.Obeys c (fun told => told.1.IsCutOff place.storesNone)
      fun w => (e.diagnostic now r place.locate w state).paired := by
  simp only [diagnostic]
  obtain ⟨_ | notice, e⟩ := e.screen r
  · exact .idle (Receipt.done, e, state)
  · simp only [paired_emit]
    refine (place.obeys_locate hp).proceed (fun location => ?_) ?_ ?_
    · refine (e.obeys_continued now r _ state location).mono ?_
      rintro _ ⟨cause, hr, hc⟩
      exact ⟨cause, hr, fun _ => hc rfl⟩
    · intro cause hc
      exact ⟨cause, rfl, fun h => Except.error.inj (hc h)⟩
    · intro location w hl hw
      obtain ⟨cause, hr⟩ := e.lost_continued hw now r _ state location
      refine ⟨cause, hr, fun h => ?_⟩
      cases hl h

theorem lost_diagnostic {trap : TrapWriter} (h : trap.Full c) (now : String) {r : Report}
    {place : Place} (hp : place.growsNone = true) (hr : (e.screen r).1 ≠ .heldBack)
    (state : Option UnitState) :
    (e.diagnostic now r place.locate trap state).receipt.IsLost := by
  rcases e.diagnostic_cases now r place.locate trap state with ⟨hb, _⟩ | ⟨notice, _, hd⟩
  · exact absurd hb hr
  · have hpaired := (e.screen r).2.paired_emit now r
      (r.body (UnitState.trailLines state) notice) place.locate state trap
    have hreceipt := congrArg (fun x => x.1.1) hpaired
    obtain ⟨hfull, -⟩ := (place.obeys_locate hp).full h
    rw [hd]
    refine Eq.subst (motive := Receipt.IsLost) hreceipt.symm ?_
    cases (place.locate trap).1 with
    | error cause => exact ⟨cause, rfl⟩
    | ok location => exact (e.screen r).2.lost_continued hfull ..

theorem lost_log {trap : TrapWriter} (h : trap.Full c) (now : String) (level : Level)
    (text : String) : (e.log now level text trap).receipt.IsLost := by
  obtain ⟨cause, hc⟩ := TrapWriter.fails_write h .comment
    (.comment (Message.plain ⟨level.kind, text, now⟩))
  rcases e.log_cases now level text trap with ⟨cause', _, ho⟩ | ⟨ho, _⟩
  · rw [ho]
    exact ⟨cause', rfl⟩
  · cases ho.symm.trans hc

end Engine

/-! ### Calls of a unit -/

/-- Whether nobody makes more room in the sink of the unit during a call. -/
def EngineCall.growsNone : EngineCall → Bool
  | .diagnostic _ place _ => place.growsNone
  | _ => true

namespace Bench

/-- The same bench with another trap writer. -/
def withTrap (b : Bench) (trap : TrapWriter) : Bench := { b with worker := { b.worker with trap } }

def printer : Printer Bench where
  bytes b := b.worker.trap.bytes
  capped c b := b.withTrap (b.worker.trap.capped c)
  Free b := b.worker.trap.Free
  Full c b := b.worker.trap.Full c
  bytes_capped c b := TrapWriter.printer.bytes_capped c b.worker.trap

variable {c : Nat}

/-- What is done with the trap writer alone, and told and settled by what it answers, obeys the
bound if the writer does. -/
theorem obeys_of_trap {fails : Receipt → Prop} {deed : Bench → Receipt × Bench}
    (h : ∀ b : Bench, ∃ (γ : Type) (f : TrapWriter → γ × TrapWriter) (told : γ → Receipt)
      (settled : γ → Bench), TrapWriter.printer.Obeys c (fun a => fails (told a)) f ∧
        ∀ w, deed (b.withTrap w) = (told (f w).1, (settled (f w).1).withTrap (f w).2)) :
    printer.Obeys c fails deed := by
  refine ⟨fun b => ?_, fun {b} hb => ?_, fun {b} hb hc => ?_, fun {b} hb => ?_⟩
  all_goals
    obtain ⟨γ, f, told, settled, hf, hd⟩ := h b
    have hself := hd b.worker.trap
    rw [show b.withTrap b.worker.trap = b from rfl] at hself
    rw [hself]
  · exact hf.grows b.worker.trap
  · exact hf.free hb
  · have hcapped : deed (printer.capped c b) = _ := hd (b.worker.trap.capped c)
    rw [hcapped]
    cases hf.cut hb hc with
    | fits room same => exact .fits room (by rw [show f (b.worker.trap.capped c) = _ from same]; rfl)
    | passes cut failed => exact .passes ⟨cut.passed, cut.full, cut.bytes⟩ failed
  · exact hf.full hb

theorem obeys_perform (now : String) {call : EngineCall} (h : call.growsNone = true) :
    printer.Obeys c (fun told => told.IsCutOff call.storesNone) fun b => b.perform now call := by
  have hidle : ∀ {fails : Unit → Prop}, TrapWriter.printer.Obeys c fails fun w => ((), w) :=
    .idle ()
  refine obeys_of_trap fun b => ?_
  cases call with
  | diagnostic r place withState =>
    exact ⟨Receipt × Engine × Option UnitState, _, fun told => told.1,
      fun told => (b.settle place ⟨told.1, told.2.1, b.worker.trap, told.2.2⟩).2,
      b.engine.obeys_diagnostic now r h (b.stateIf withState), fun _ => rfl⟩
  | log level text =>
    exact ⟨Receipt × Engine × Option UnitState, _, fun told => told.1,
      fun told => { b with engine := told.2.1 }, b.engine.obeys_log now level text, fun _ => rfl⟩
  | enter frame => exact ⟨_, _, fun _ => .done, fun _ => b.enter frame, hidle, fun _ => rfl⟩
  | leave => exact ⟨_, _, fun _ => .done, fun _ => b.leave, hidle, fun _ => rfl⟩
  | flushTrap =>
    refine ⟨_, _, fun result => { result := result.mapError .trap }, fun _ => b,
      TrapWriter.obeys_flush.mono ?_, fun _ => rfl⟩
    rintro _ rfl
    exact ⟨_, rfl, fun _ => rfl⟩
  | flushLog =>
    exact ⟨_, _, fun _ => b.flushLog.1, fun _ => b.flushLog.2, hidle, fun _ => rfl⟩
  | flush =>
    let after : Except Failure Unit → Receipt × Bench := fun result =>
      Printer.proceed (fun cause => { result := .error (.trap cause) }) (fun _ => flushLog) result b
    refine ⟨_, _, fun result => (after result).1, fun result => (after result).2,
      TrapWriter.obeys_flush.mono ?_, fun w => ?_⟩
    · rintro _ rfl
      exact ⟨_, rfl, fun _ => rfl⟩
    · have hf : (b.withTrap w).flushTrap =
          ({ result := w.flush.1.mapError .trap }, b.withTrap w.flush.2) := rfl
      simp only [perform, flush, hf, after]
      cases w.flush.1 <;> rfl

/-- A call that has something to write is lost where the writer of its unit is full. -/
theorem lost_perform {b : Bench} (h : b.worker.trap.Full c) (now : String) {call : EngineCall}
    (hg : call.growsNone = true) (hw : call.writes b.engine = true) :
    (b.perform now call).1.IsLost := by
  cases call with
  | diagnostic r place withState =>
    exact b.engine.lost_diagnostic h now hg (of_decide_eq_true hw) (b.stateIf withState)
  | log level text => exact b.engine.lost_log h now level text
  | enter frame | leave | flushTrap | flushLog | flush => cases hw

end Bench

/-! ### Runs -/

namespace Session

variable {c i : Nat} {s : Session}

/-- The same session, in which a unit has room for so many bytes of text in all. -/
def capped (i c : Nat) (s : Session) : Session :=
  { s with workers := s.workers.modify i fun w => { w with trap := w.trap.capped c } }

/-- The text of a unit. -/
def bytesOf (i : Nat) (s : Session) : List UInt8 :=
  (s.workers[i]?).elim [] fun w => w.trap.bytes

/-- A unit as a printer, in a session that has such a unit. -/
def printer (i : Nat) : Printer Session where
  bytes := bytesOf i
  capped := capped i
  Free s := ∃ w, s.workers[i]? = some w ∧ w.trap.Free
  Full c s := ∃ w, s.workers[i]? = some w ∧ w.trap.Full c
  bytes_capped c s := by
    have hb : ∀ w : TrapWriter, (w.capped c).bytes = w.bytes := TrapWriter.printer.bytes_capped c
    cases h : s.workers[i]? with
    | none => simp [bytesOf, capped, h]
    | some w => simp [bytesOf, capped, h, hb]

/-- The same session, in which a unit has another bench. -/
def withBench (s : Session) (i : Nat) (b : Bench) : Session :=
  ⟨b.engine, s.workers.set i b.worker⟩

theorem withBench_self {w : Worker} (h : s.workers[i]? = some w) :
    s.withBench i ⟨s.engine, w⟩ = s := by
  obtain ⟨hlt, rfl⟩ := List.getElem?_eq_some_iff.mp h
  simp [withBench]

section

variable (h : i < s.workers.length) (b : Bench)
include h

theorem worker_withBench : (s.withBench i b).workers[i]? = some b.worker :=
  List.getElem?_set_self h

theorem bytes_withBench : (printer i).bytes (s.withBench i b) = Bench.printer.bytes b := by
  simp only [printer, bytesOf, worker_withBench h b]
  rfl

theorem act_withBench {α : Type} (idle : α) (deed : Bench → α × Bench) :
    (s.withBench i b).act i idle deed = ((deed b).1, s.withBench i (deed b).2) := by
  rw [act_of_getElem? _ (worker_withBench h b)]
  simp [withBench]

end

theorem capped_withBench (s : Session) (i : Nat) (b : Bench) :
    (printer i).capped c (s.withBench i b) = s.withBench i (Bench.printer.capped c b) := by
  have hl : ∀ f : Worker → Worker,
      (s.workers.set i b.worker).modify i f = s.workers.set i (f b.worker) := by
    intro f
    apply List.ext_getElem?
    intro j
    rw [List.getElem?_modify, List.getElem?_set, List.getElem?_set]
    by_cases hj : i = j <;> simp [hj]
  simp only [printer, capped, withBench, hl]
  rfl

/-- What a unit does obeys the bound in a session if it does so at the bench of the unit. -/
theorem obeys_act {α : Type} {fails : α → Prop} (idle : α) {deed : Bench → α × Bench}
    (hd : Bench.printer.Obeys c fails deed) :
    (printer i).Obeys c fails fun s => s.act i idle deed := by
  refine ⟨fun s => ?_, ?_, ?_, ?_⟩
  · cases hw : s.workers[i]? with
    | none =>
      exact Printer.prefix_of_eq
        (congrArg (fun x => (printer i).bytes x.2) (s.act_of_none hw idle deed))
    | some w =>
      have hlt := (List.getElem?_eq_some_iff.mp hw).1
      rw [← withBench_self hw, act_withBench hlt, bytes_withBench hlt, bytes_withBench hlt]
      exact hd.grows _
  · rintro s ⟨w, hw, hfree⟩
    have hlt := (List.getElem?_eq_some_iff.mp hw).1
    rw [← withBench_self hw, act_withBench hlt]
    exact ⟨_, worker_withBench hlt _, hd.free (s := ⟨s.engine, w⟩) hfree⟩
  · rintro s ⟨w, hw, hfree⟩ hc
    have hlt := (List.getElem?_eq_some_iff.mp hw).1
    rw [← withBench_self hw, bytes_withBench hlt] at hc
    rw [← withBench_self hw, capped_withBench, act_withBench hlt, act_withBench hlt]
    cases hd.cut (s := ⟨s.engine, w⟩) hfree hc with
    | fits room same =>
      refine .fits ?_ ?_
      · rw [bytes_withBench hlt]
        exact room
      · rw [same, capped_withBench]
    | passes cut failed =>
      refine .passes ⟨?_, ⟨_, worker_withBench hlt _, cut.full⟩, ?_⟩ failed
      · rw [bytes_withBench hlt]
        exact cut.passed
      · rw [bytes_withBench hlt, bytes_withBench hlt]
        exact cut.bytes
  · rintro s ⟨w, hw, hfull⟩
    have hlt := (List.getElem?_eq_some_iff.mp hw).1
    obtain ⟨hf, hb⟩ := hd.full (s := ⟨s.engine, w⟩) hfull
    rw [← withBench_self hw, act_withBench hlt]
    refine ⟨⟨_, worker_withBench hlt _, hf⟩, ?_⟩
    rw [bytes_withBench hlt, bytes_withBench hlt]
    exact hb

/-- What another unit does, it does in the same way. -/
theorem obeys_act_of_ne {α : Type} {fails : α → Prop} {j : Nat} (hj : j ≠ i) (idle : α)
    (deed : Bench → α × Bench) : (printer i).Obeys c fails fun s => s.act j idle deed := by
  have hsame : ∀ s : Session, (s.act j idle deed).2.workers[i]? = s.workers[i]? := by
    intro s
    cases hw : s.workers[j]? with
    | none => rw [s.act_of_none hw]
    | some w =>
      rw [s.act_of_getElem? hw]
      exact List.getElem?_set_ne hj
  have hbytes : ∀ s : Session, (printer i).bytes (s.act j idle deed).2 = (printer i).bytes s := by
    intro s
    simp only [printer, bytesOf, hsame]
  refine ⟨fun s => ?_, ?_, ?_, ?_⟩
  · exact Printer.prefix_of_eq (hbytes s)
  · rintro s ⟨w, hw, hfree⟩
    exact ⟨w, (hsame s).trans hw, hfree⟩
  · intro s _ hc
    refine .fits (by rw [hbytes]; exact hc) ?_
    have hcapped : ((printer i).capped c s).workers[j]? = s.workers[j]? :=
      List.getElem?_modify_ne _ _ (Ne.symm hj)
    have hl : ∀ (f : Worker → Worker) (w : Worker), (s.workers.modify i f).set j w =
        (s.workers.set j w).modify i f := by
      intro f w
      apply List.ext_getElem?
      intro k
      rw [List.getElem?_set, List.getElem?_modify, List.getElem?_modify, List.getElem?_set,
        List.length_modify]
      by_cases hk : j = k
      · subst hk
        simp [Ne.symm hj]
      · simp [hk]
    cases hw : s.workers[j]? with
    | none => rw [s.act_of_none hw, act_of_none _ (hcapped.trans hw)]
    | some w =>
      rw [s.act_of_getElem? hw, act_of_getElem? _ (hcapped.trans hw)]
      simp only [printer, capped, hl]
  · rintro s ⟨w, hw, hfull⟩
    exact ⟨⟨w, (hsame s).trans hw, hfull⟩, hbytes s⟩

theorem obeys_step (st : Step) (h : st.worker = i → st.timed.call.growsNone = true) :
    (printer i).Obeys c (fun told => told.IsCutOff st.timed.call.storesNone)
      fun s => s.step st := by
  by_cases hi : st.worker = i
  · subst hi
    exact obeys_act Receipt.done (Bench.obeys_perform st.timed.now (h rfl))
  · exact obeys_act_of_ne hi Receipt.done _

theorem lost_step {st : Step} (h : (printer i).Full c s) (hi : st.worker = i)
    (hg : st.timed.call.growsNone = true) (hw : st.timed.call.writes s.engine = true) :
    (s.step st).1.IsLost := by
  obtain ⟨w, hworker, hfull⟩ := h
  subst hi
  rw [step, s.act_of_getElem? hworker]
  exact Bench.lost_perform (b := ⟨s.engine, w⟩) hfull st.timed.now hg hw

end Session

theorem LoggerCall.growsNone_engineCall (kind : LoggerKind) (call : LoggerCall) :
    (call.engineCall kind).growsNone = true := by
  cases call <;> rfl

/-- A full disk cuts the text and nothing else. A writer of text over a sink that never fails may be
called in any way, and so may the same writer whose sink has room for `c` bytes in all. At every
moment the second has the bytes of the first up to `c`. As long as these are all, the answers and the
writers are the same but for the bound; the call that would pass it fails with the disk full, and
later no byte is added and every call that has text to write fails.

It is the same in a run in which a unit has such a writer. The other units and the engine may be
anything. As long as the text of the unit fits, the receipts and the sessions are the same but for
the bound. The call that would pass it fails with the disk full; if someone who was asked for its
location used the writer, it fails at least. Later no byte is added, and every call of the unit that
has something to write fails. -/
theorem full_disk_cuts_the_text (c : Nat) :
    (∀ (w : TrapWriter) (calls : List TrapCall), w.Free → w.bytes.length ≤ c →
      (∀ call ∈ calls, call.growsNone = true) →
      ∀ before call after, calls = before ++ call :: after →
        let u := (w.run before).2
        let l := ((w.capped c).run before).2
        TrapWriter.printer.CutAt c (fun answer => answer = .failed .diskFull)
          (fun answer => (TrapMoment.mk l call).text ≠ "" → ∃ cause, answer = .failed cause)
          u l (u.perform call) (l.perform call)) ∧
    ∀ (s : Session) (i : Nat) (unit : Worker) (ts : List Turn), s.workers[i]? = some unit →
      unit.trap.Free → unit.trap.bytes.length ≤ c →
      (∀ t ∈ ts, t.makesOnly i EngineCall.growsNone = true) →
      let steps := ts.flatMap (Turn.steps s.engine.settings.verbosity)
      (s.turns ts).2 = (s.run steps).2 ∧
      Receipt.busy (s.turns ts).1 = Receipt.busy (s.run steps).1 ∧
      ((s.capped i c).turns ts).2 = ((s.capped i c).run steps).2 ∧
      Receipt.busy ((s.capped i c).turns ts).1 = Receipt.busy ((s.capped i c).run steps).1 ∧
      ∀ before st after, steps = before ++ st :: after →
        let u := (s.run before).2
        let l := ((s.capped i c).run before).2
        (Session.printer i).CutAt c (fun told => told.IsCutOff st.timed.call.storesNone)
          (fun told => st.worker = i → st.timed.call.writes l.engine = true → told.IsLost)
          u l (u.step st) (l.step st) := by
  refine ⟨?_, ?_⟩
  · intro w calls hfree hroom hg before call after hs u l
    rw [hs] at hg
    obtain ⟨hbefore, hafter⟩ := List.forall_mem_append.mp hg
    have hcall := hafter call List.mem_cons_self
    have hstays : TrapWriter.printer.Stays c u l :=
      .inTurn (fun call hm => TrapWriter.obeys_perform (hbefore call hm))
        (.fits hroom hfree rfl)
    exact (TrapWriter.obeys_perform hcall).cutAt hstays fun hfull =>
      TrapWriter.fails_perform hfull call
  · intro s i unit ts hw hfree hroom hg steps
    have hsteps : ∀ st ∈ steps, st.worker = i → st.timed.call.growsNone = true :=
      Turn.allowed_steps (fun _ => rfl) rfl LoggerCall.growsNone_engineCall hg _
    obtain ⟨hrun, hbusy⟩ := s.turns_eq_run ts
    obtain ⟨hrun', hbusy'⟩ := (s.capped i c).turns_eq_run ts
    refine ⟨hrun, hbusy, hrun', hbusy', ?_⟩
    intro before st after hs u l
    rw [hs] at hsteps
    obtain ⟨hbefore, hafter⟩ := List.forall_mem_append.mp hsteps
    have hst := hafter st List.mem_cons_self
    have hbytes : ((Session.printer i).bytes s).length ≤ c := by
      have hb : (Session.printer i).bytes s = unit.trap.bytes := by
        simp [Session.printer, Session.bytesOf, hw]
      rw [hb]
      exact hroom
    have hstays : (Session.printer i).Stays c u l :=
      .inTurn (fun st hm => Session.obeys_step st (hbefore st hm))
        (.fits hbytes ⟨unit, hw, hfree⟩ rfl)
    exact (Session.obeys_step st hst).cutAt hstays fun hfull hi hwrites =>
      Session.lost_step hfull hi (hst hi) hwrites

/-- The text breaks off inside a character. The writer takes its labels all the same; of a program
with two calls the first fails with the disk full and the second is lost. -/
theorem full_disk_cuts_the_text_inside_a_character :
    let w : TrapWriter := .textual {} fun _ _ => false
    let calls : List TrapCall := [.comment "é", .unknownLocation]
    let later := ((w.capped 4).run calls).2.perform .freshLabel
    let unit : Worker := { trap := w, state := { fileNumber := 7 } }
    let s : Session := ⟨.ofStream { verbosity := 3 } .stdout, [unit]⟩
    let told (text : String) : Timed LoggerCall := ⟨"t", .info text⟩
    let ts : List Turn := [.program 0 .file (.calls [told "é", told "on"] .done)]
    let first : Step := ⟨0, "t", .log .info "é"⟩
    let second : Step := ⟨0, "t", .log .info "on"⟩
    w.Free ∧ ((w.capped 4).perform (.comment "é")).1 = .failed .diskFull ∧
      later.1 = .label ⟨2⟩ ∧ later.2.bytes = [0x2F, 0x2F, 0x20, 0xC3] ∧
      ((s.capped 0 4).turns ts).2 = ((s.capped 0 4).run [first, second]).2 ∧
      ((s.capped 0 4).step first).1.result = .error (.trap .diskFull) ∧
      (((s.capped 0 4).run [first]).2.step second).1.IsLost := by
  intro w calls later unit s told ts first second
  have hfree : w.Free := ⟨{}, rfl, rfl, fun _ => rfl⟩
  have hroom : w.bytes.length ≤ 4 := by decide
  obtain ⟨hcalls, hturns⟩ := full_disk_cuts_the_text 4
  have hg : ∀ call ∈ calls ++ [.freshLabel], call.growsNone = true := by decide
  have hfirst := hcalls w _ hfree hroom hg [] (.comment "é") [.unknownLocation, .freshLabel] rfl
  have hlast := hcalls w _ hfree hroom hg calls .freshLabel [] rfl
  have hlt : 4 < (TrapWriter.printer.bytes ((w.run []).2.perform (.comment "é")).2).length := by
    decide
  have hbytes := hlast.bytes
  rw [TrapWriter.printer_bytes, TrapWriter.printer_bytes] at hbytes
  have hpiece : ((w.run calls).2.perform .freshLabel).2.bytes.take 4 =
      [0x2F, 0x2F, 0x20, 0xC3] := by
    decide
  have ht : ∀ t ∈ ts, t.makesOnly 0 EngineCall.growsNone = true := by decide
  obtain ⟨-, -, hrun, -, hat⟩ := hturns s 0 unit ts rfl hfree hroom ht
  have hpassing : 4 < ((Session.printer 0).bytes ((s.run []).2.step first).2).length := by decide
  have hpast : 4 < ((Session.printer 0).bytes (s.run [first]).2).length := by decide
  obtain ⟨cause, hr, hfull⟩ := (hat [] first [second] rfl).passing hroom hpassing
  obtain ⟨-, hlost⟩ := (hat [first] second [] rfl).past hpast
  have hfull' := hfirst.passing hroom hlt
  simp only [TrapWriter.run_nil] at hfull'
  simp only [Session.run_nil] at hr
  rw [hfull rfl] at hr
  exact ⟨hfree, hfull', by decide, hbytes.trans hpiece, hrun, hr, hlost rfl rfl⟩

end DiagnosticLog
