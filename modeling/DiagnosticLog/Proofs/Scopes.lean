import DiagnosticLog.Proofs.Agreement
import DiagnosticLog.Proofs.Limiting

/-! The trail of a unit follows the bodies of its program. In whatever way a body ends, and whatever
fails inside, its frame and the frames of all bodies that end with it are taken off. So a diagnostic
shows the frames of the bodies around its call and no others, and at its end a program leaves no
frame behind. -/

namespace DiagnosticLog

/-! ### What calls do to the trail -/

def Bench.trail (b : Bench) : Trail := b.worker.state.trail

namespace Engine

variable (e : Engine)

/-- Storing the records of a report does nothing to the trail. -/
theorem trail_store (now : String) (r : Report) (body : String) (location : Label)
    (trap : TrapWriter) (state : Option UnitState) :
    (e.store now r body location trap state).2.2.map UnitState.trail =
      state.map UnitState.trail := by
  rcases e.store_cases now r body location trap state with
    ⟨_, _, h⟩ | ⟨_, hs, h⟩ | ⟨s, _, hs, h⟩
  · rw [h]
  · rw [h, hs]
  · rw [h, hs]
    rfl

theorem trail_emit (now : String) (r : Report) (body : String) (locate : Locator)
    (trap : TrapWriter) (state : Option UnitState) :
    (e.emit now r body locate trap state).state.map UnitState.trail =
      state.map UnitState.trail := by
  rcases e.emit_cases now r body locate trap state with
    ⟨_, _, h⟩ | ⟨location, _, ⟨_, _, h⟩ | ⟨_, h⟩⟩
  · rw [h]
  · rw [h, trail_store]
  · rw [h, finish_eq, trail_store]

theorem trail_diagnostic (now : String) (r : Report) (locate : Locator) (trap : TrapWriter)
    (state : Option UnitState) :
    (e.diagnostic now r locate trap state).state.map UnitState.trail =
      state.map UnitState.trail := by
  unfold diagnostic
  split
  · rfl
  · exact trail_emit ..

end Engine

namespace Bench

variable (b : Bench)

@[simp] theorem trail_enter (frame : Frame) : (b.enter frame).trail = frame :: b.trail := rfl

@[simp] theorem trail_leave : b.leave.trail = b.trail.tail := by
  unfold trail Bench.leave UnitState.leave Trail.leave
  cases b.worker.state.trail <;> rfl

/-- Only the taking up and the taking off of a frame change the trail. -/
theorem trail_perform {call : EngineCall} (h : call.isFraming = false) (now : String) :
    (b.perform now call).2.trail = b.trail := by
  cases call with
  | diagnostic r place withState =>
    have ht := b.engine.trail_diagnostic now r place.locate b.worker.trap (b.stateIf withState)
    simp only [perform, diagnostic, settle, trail]
    cases withState with
    | false =>
      rw [Option.map_eq_none_iff.mp ht]
      rfl
    | true =>
      obtain ⟨state, hs, htrail⟩ := Option.map_eq_some_iff.mp ht
      rw [hs]
      exact htrail
  | enter frame | leave => contradiction
  | flush =>
    simp only [perform, flush]
    split <;> rfl
  | _ => rfl

end Bench

namespace LoggerKind

variable (kind : LoggerKind) (b : Bench)

theorem trail_perform (now : String) (call : LoggerCall) :
    (kind.perform b now call).2.trail = b.trail := by
  rw [kind.perform_eq]
  split
  · exact b.trail_perform (call.isFraming_engineCall kind) now
  · rfl

theorem trail_performAll (calls : List (Timed LoggerCall)) :
    (kind.performAll b calls).2.trail = b.trail := by
  induction calls generalizing b with
  | nil => rfl
  | cons c rest ih =>
    rw [performAll, inTurn_cons]
    exact (ih _).trans (kind.trail_perform b c.now c.call)

end LoggerKind

/-- A program leaves the trail as it was, in whatever way it ends. -/
theorem Script.trail_run (kind : LoggerKind) (script : Script) (b : Bench) :
    (script.run kind b).bench.trail = b.trail := by
  induction script generalizing b with
  | done | leave | bail => rfl
  | calls cs rest ih => exact (ih _).trans (kind.trail_performAll b cs)
  | look rest ih => exact ih b
  | within frame body rest ihb ihr =>
    have hout : (body.run kind (b.enter frame)).bench.leave.trail = b.trail := by
      rw [Bench.trail_leave, ihb, Bench.trail_enter, List.tail_cons]
    simp only [run]
    split
    · exact hout
    · exact (ihr _).trans hout
    · exact (ihr _).trans hout
  | guarded body rest ihb ihr => exact (ihr _).trans (ihb b)

/-! ### The points of a run -/

/-- A call of a program, or a body of it as a whole. -/
structure Passage where
  /-- The frames of the bodies around it, the innermost first. -/
  inside : Trail
  before : Bench
  after : Bench
  /-- The call and its receipt, unless this is a body. -/
  answer : Option (Timed LoggerCall × Receipt)

/-- The passages of calls one after the other. -/
def LoggerKind.passages (kind : LoggerKind) (inside : Trail) :
    List (Timed LoggerCall) → Bench → List Passage
  | [], _ => []
  | c :: rest, b =>
    let (receipt, after) := kind.perform b c.now c.call
    ⟨inside, b, after, some (c, receipt)⟩ :: kind.passages inside rest after

/-- The passages of a run, in the order in which they end. A body is gone through, with its frame
around all that is inside, and then it is a passage itself, from before its frame is taken up to
where the program stands when the body is left. -/
def Script.passages (kind : LoggerKind) (inside : Trail) : Script → Bench → List Passage
  | .done, _ | .leave, _ | .bail, _ => []
  | .calls cs rest, b =>
    kind.passages inside cs b ++ rest.passages kind inside (kind.performAll b cs).2
  | .look rest, b => rest.passages kind inside b
  | .within frame body rest, b =>
    let whole := (within frame body .done).run kind b
    body.passages kind (frame :: inside) (b.enter frame) ++ ⟨inside, b, whole.bench, none⟩ ::
      match whole.exit with
      | .bailed => []
      | .finished | .left => rest.passages kind inside whole.bench
  | .guarded body rest, b =>
    let whole := (guarded body .done).run kind b
    body.passages kind inside b ++ ⟨inside, b, whole.bench, none⟩ ::
      rest.passages kind inside whole.bench

theorem LoggerKind.answers_passages (kind : LoggerKind) (inside : Trail)
    (calls : List (Timed LoggerCall)) (b : Bench) :
    (kind.passages inside calls b).filterMap Passage.answer =
      calls.zip (kind.performAll b calls).1 := by
  induction calls generalizing b with
  | nil => rfl
  | cons c rest ih =>
    rw [performAll, inTurn_cons, List.zip_cons_cons, passages, List.filterMap_cons]
    exact congrArg (_ :: ·) (ih _)

/-- The calls among the passages of a run are the calls of the run, each with its receipt. -/
theorem Script.answers_passages (kind : LoggerKind) (inside : Trail) (script : Script) (b : Bench) :
    (script.passages kind inside b).filterMap Passage.answer =
      (script.run kind b).events.flatMap Event.answered := by
  induction script generalizing inside b with
  | done | leave | bail => rfl
  | calls cs rest ih =>
    rw [passages, List.filterMap_append, kind.answers_passages, ih]
    rfl
  | look rest ih => exact ih inside b
  | within frame body rest ihb ihr =>
    have hb := ihb (frame :: inside) (b.enter frame)
    have hr := ihr inside (body.run kind (b.enter frame)).bench.leave
    simp only [passages, run, List.filterMap_append, hb]
    cases (body.run kind (b.enter frame)).exit with
    | bailed => simp [Event.answered]
    | finished | left => simp [ScriptRun.after, Event.answered, hr]
  | guarded body rest ihb ihr =>
    have hr := ihr inside (body.run kind b).bench
    simp only [passages, run, List.filterMap_append, ihb]
    cases (body.run kind b).exit <;> simp [ScriptRun.after, Event.answered, hr]

/-- The trail holds the frames around a passage before it and after it, and a call does what it does
there. -/
structure Passage.Balanced (kind : LoggerKind) (p : Passage) : Prop where
  before : p.before.trail = p.inside
  after : p.after.trail = p.inside
  call : ∀ c receipt, p.answer = some (c, receipt) →
    kind.perform p.before c.now c.call = (receipt, p.after)

theorem LoggerKind.balanced_passages (kind : LoggerKind) {inside : Trail}
    (calls : List (Timed LoggerCall)) {b : Bench} (hb : b.trail = inside) :
    ∀ p ∈ kind.passages inside calls b, p.Balanced kind := by
  induction calls generalizing b with
  | nil => simp [passages]
  | cons c rest ih =>
    have ha := (kind.trail_perform b c.now c.call).trans hb
    intro p hp
    rw [passages] at hp
    rcases List.mem_cons.mp hp with rfl | hp
    · refine ⟨hb, ha, ?_⟩
      rintro _ _ ⟨⟩
      rfl
    · exact ih ha p hp

theorem Script.balanced_passages (kind : LoggerKind) {inside : Trail} (script : Script) {b : Bench}
    (hb : b.trail = inside) : ∀ p ∈ script.passages kind inside b, p.Balanced kind := by
  induction script generalizing inside b with
  | done | leave | bail => simp [passages]
  | calls cs rest ih =>
    intro p hp
    rw [passages] at hp
    rcases List.mem_append.mp hp with hp | hp
    · exact kind.balanced_passages cs hb p hp
    · exact ih ((kind.trail_performAll b cs).trans hb) p hp
  | look rest ih => exact ih hb
  | within frame body rest ihb ihr =>
    have henter : (b.enter frame).trail = frame :: inside := by rw [b.trail_enter, hb]
    have hout := (Script.trail_run kind (.within frame body .done) b).trans hb
    intro p hp
    rw [passages] at hp
    rcases List.mem_append.mp hp with hp | hp
    · exact ihb henter p hp
    · rcases List.mem_cons.mp hp with rfl | hp
      · exact ⟨hb, hout, by simp⟩
      · split at hp
        · cases hp
        · exact ihr hout p hp
        · exact ihr hout p hp
  | guarded body rest ihb ihr =>
    have hout := (Script.trail_run kind (.guarded body .done) b).trans hb
    intro p hp
    rw [passages] at hp
    rcases List.mem_append.mp hp with hp | hp
    · exact ihb hb p hp
    · rcases List.mem_cons.mp hp with rfl | hp
      · exact ⟨hb, hout, by simp⟩
      · exact ihr hout p hp

/-- What is thrown inside two frames and stopped between them ends the inner body and the guard, and
then the outer body ends by itself. -/
example (outer inner : Frame) (b : Bench) :
    let script := Script.within outer (.guarded (.within inner .bail .done) .done) .done
    (script.passages .file [] b).map Passage.inside = [[outer], [outer], []] := rfl

/-! ### What diagnostics show -/

/-- All diagnostics of a file are raised with the state of the unit. -/
theorem LoggerCall.withState_engineCall {call : LoggerCall} {r : Report} {place : Place}
    {withState : Bool} (h : call.engineCall .file = .diagnostic r place withState) :
    withState = true := by
  cases call <;> cases h <;> rfl

/-- The body of a report with a line for each of some frames, the innermost first. -/
def Report.showing (r : Report) (frames : Trail) (notice : Option String) : String :=
  "\n".intercalate (r.message :: (r.extra.toList ++ frames.map Frame.line ++ notice.toList))

/-- A report with the state of the unit is held back and does nothing but count, or it goes out with
a body that shows some frames and no others. -/
def Bench.Shows (b : Bench) (frames : Trail) (now : String) (r : Report) (place : Place)
    (answer : Receipt × Bench) : Prop :=
  let (admission, counted) := b.engine.screen r
  match admission with
  | .heldBack => answer = (.done, { b with engine := counted })
  | .goesOut _ =>
    let body := r.showing frames (b.engine.notice r)
    answer = b.settle place
      (counted.emit now r body place.locate b.worker.trap (some b.worker.state)) ∧
    r.PutOut now body answer.1 (place.locate b.worker.trap).2 answer.2.worker.trap

theorem Bench.shows_diagnostic (b : Bench) (now : String) (r : Report) (place : Place) :
    b.Shows b.trail now r place (b.diagnostic now r place true) := by
  have hbody : r.body (UnitState.trailLines (b.stateIf true)) (b.engine.notice r) =
      r.showing b.trail (b.engine.notice r) :=
    b.body_eq r true
  simp only [Shows, diagnostic, Engine.diagnostic]
  cases hs : b.engine.screen r with
  | mk admission counted =>
    cases admission with
    | heldBack => exact b.settle_done place counted true
    | goesOut notice =>
      obtain rfl : notice = b.engine.notice r := Engine.notice_of_screen (by rw [hs])
      dsimp only
      rw [hbody]
      exact ⟨rfl, counted.putOut_emit ..⟩

/-- Frames are taken off again in whatever way a body ends, at any verbosity and limit and whatever
fails. In the run of a program of a file, every call and every body has the frames of the bodies
around it on the trail, before it and after it. A call that raises a diagnostic and is let through
shows these frames, the innermost first, and no others. The calls are those of the run, in their
order, and in the end the trail is empty. -/
theorem scopes_balance (script : Script) (engine : Engine) (trap : TrapWriter) (fileNumber : Nat) :
    let start : Bench := ⟨engine, ⟨trap, { fileNumber }, 0⟩⟩
    let run := script.runUnit .file start
    let passages := script.passages .file [] start
    passages.filterMap Passage.answer = run.1.flatMap Event.answered ∧
    (∀ p ∈ passages, p.before.trail = p.inside ∧ p.after.trail = p.inside) ∧
    (∀ p ∈ passages, ∀ c receipt r place withState, p.answer = some (c, receipt) →
      c.call.passes p.before.engine.settings.verbosity = true →
      c.call.engineCall .file = .diagnostic r place withState →
      p.before.Shows p.inside c.now r place (receipt, p.after)) ∧
    run.2.trail = [] := by
  intro start run passages
  have hb : ∀ p ∈ passages, p.Balanced .file := script.balanced_passages .file rfl
  refine ⟨?_, ?_, ?_, script.trail_run .file start⟩
  · have ha := script.answers_passages .file [] start
    have hr : run.1.flatMap Event.answered =
        (script.run .file start).events.flatMap Event.answered := by
      simp only [run, Script.runUnit]
      cases (script.run .file start).exit <;> simp [Event.answered]
    rw [hr, ← ha]
  · exact fun p hp => ⟨(hb p hp).before, (hb p hp).after⟩
  · intro p hp c receipt r place withState ha hpass hc
    obtain rfl : withState = true := LoggerCall.withState_engineCall hc
    have hcall := (hb p hp).call c receipt ha
    rw [LoggerKind.perform_eq, if_pos hpass, hc] at hcall
    rw [← hcall, ← (hb p hp).before]
    exact p.before.shows_diagnostic c.now r place

end DiagnosticLog
