import DiagnosticLog.Proofs.Records
import DiagnosticLog.Proofs.Text.Lines

/-! The limit over whole runs. A call site is counted by every call made with it at the same
severity, before anything can fail and whoever makes the call; the count alone decides whether a
call goes out, and whether its body ends with the notice. -/

namespace DiagnosticLog

/-! ### What is counted -/

/-- What a report is counted under; a report without a call site is not counted. -/
def Report.key? (r : Report) : Option Tally.Key := r.origin.map fun o => ⟨o, r.severity⟩

def EngineCall.key? : EngineCall → Option Tally.Key
  | .diagnostic report _ _ => report.key?
  | _ => none

/-- How many of some steps count a key. A unit that does not exist makes no call. -/
def Session.timesCounted (s : Session) (key : Tally.Key) (steps : List Step) : Nat :=
  steps.countP fun st => decide (st.worker < s.workers.length ∧ st.timed.call.key? = some key)

/-- The engine once a key was counted one more time. -/
def Engine.counted (e : Engine) (key : Tally.Key) : Engine :=
  { e with tally := (e.tally.record key).2 }

def Session.counted (s : Session) (key : Tally.Key) : Session :=
  { s with engine := s.engine.counted key }

namespace Engine

theorem occurrences_counted (e : Engine) (key k : Tally.Key) :
    (e.counted key).occurrences k = e.occurrences k + if key = k then 1 else 0 := by
  simp only [counted, occurrences, Tally.count_record]
  split <;> simp [*]

theorem screen_of_none (e : Engine) {r : Report} (h : r.origin = none) :
    e.screen r = (.goesOut (some Report.missingCallerNotice), e) := by
  simp [screen, h]

/-- The count that a report brings its key to decides about the report. -/
theorem screen_of_some (e : Engine) {r : Report} {o : Origin} (h : r.origin = some o) :
    e.screen r =
      (match Tally.verdict e.tally.limit (e.occurrences ⟨o, r.severity⟩ + 1) with
        | .normal => .goesOut none
        | .limitReached => .goesOut (some (Report.limitNotice o))
        | .suppressed => .heldBack,
      e.counted ⟨o, r.severity⟩) := by
  simp only [screen, h]
  rfl

theorem occurrences_screen (e : Engine) (r : Report) (key : Tally.Key) :
    (e.screen r).2.occurrences key =
      e.occurrences key + if r.key? = some key then 1 else 0 := by
  cases h : r.origin with
  | none => simp [e.screen_of_none h, Report.key?, h]
  | some o => simp [e.screen_of_some h, Report.key?, h, occurrences_counted]

@[simp] theorem limit_screen (e : Engine) (r : Report) :
    (e.screen r).2.tally.limit = e.tally.limit := by
  unfold screen
  split <;> rfl

/-- A report is held back if its key has had its share. -/
theorem heldBack_iff (e : Engine) (r : Report) :
    (e.screen r).1 = .heldBack ↔ ∃ key, r.key? = some key ∧
      0 < e.tally.limit ∧ e.tally.limit < ((e.occurrences key + 1 : Nat) : Int) := by
  cases ho : r.origin with
  | none => simp [e.screen_of_none ho, Report.key?, ho]
  | some o =>
    have hk : r.key? = some ⟨o, r.severity⟩ := by simp [Report.key?, ho]
    rw [e.screen_of_some ho, hk]
    simp only [Option.some.injEq, exists_eq_left']
    rw [← Tally.verdict_eq_suppressed_iff]
    cases Tally.verdict _ _ <;> simp

end Engine

theorem Bench.limit_perform (b : Bench) (now : String) (call : EngineCall) :
    (b.perform now call).2.engine.tally.limit = b.engine.tally.limit := by
  cases call <;> simp [perform, diagnostic, settle, enter, leave, flushTrap, flushLog]

theorem Bench.occurrences_perform (b : Bench) (now : String) (call : EngineCall)
    (key : Tally.Key) :
    (b.perform now call).2.engine.occurrences key =
      b.engine.occurrences key + if call.key? = some key then 1 else 0 := by
  cases call with
  | diagnostic report place withState =>
    rw [EngineCall.key?, ← Engine.occurrences_screen]
    simp only [perform, diagnostic, settle, Engine.occurrences, Engine.tally_diagnostic]
  | log level text =>
    simp [perform, EngineCall.key?, Engine.occurrences]
  | flush =>
    simp [perform, EngineCall.key?, Engine.occurrences]
  | _ => rfl

namespace Session

variable (s : Session)

/-- One step counts its own key and no other. -/
theorem occurrences_step (st : Step) (key : Tally.Key) :
    (s.step st).2.engine.occurrences key =
      s.engine.occurrences key + s.timesCounted key [st] := by
  cases h : s.workers[st.worker]? with
  | none =>
    have hi : ¬ st.worker < s.workers.length := by simpa using h
    simp [step, s.act_of_none h, timesCounted, hi]
  | some w =>
    have hi : st.worker < s.workers.length := (List.getElem?_eq_some_iff.mp h).1
    simp [step, s.act_of_getElem? h, timesCounted, hi, Bench.occurrences_perform, List.countP_cons]

theorem limit_step (st : Step) :
    (s.step st).2.engine.tally.limit = s.engine.tally.limit := by
  unfold step act
  split
  · rfl
  · exact Bench.limit_perform ..

theorem timesCounted_append (key : Tally.Key) (steps more : List Step) :
    s.timesCounted key (steps ++ more) = s.timesCounted key steps + s.timesCounted key more :=
  List.countP_append

theorem timesCounted_step (st : Step) (key : Tally.Key) (steps : List Step) :
    (s.step st).2.timesCounted key steps = s.timesCounted key steps := by
  simp [timesCounted]

@[simp] theorem limit_run (steps : List Step) :
    (s.run steps).2.engine.tally.limit = s.engine.tally.limit := by
  induction steps generalizing s with
  | nil => rfl
  | cons st rest ih => rw [run_cons, ih, limit_step]

/-- Over a run a key is counted by the calls made with it, and by no other. -/
theorem occurrences_run (steps : List Step) (key : Tally.Key) :
    (s.run steps).2.engine.occurrences key =
      s.engine.occurrences key + s.timesCounted key steps := by
  induction steps generalizing s with
  | nil => rfl
  | cons st rest ih =>
    rw [run_cons, ih, occurrences_step, timesCounted_step, Nat.add_assoc, ← timesCounted_append]
    rfl

end Session

/-! ### What goes out -/

/-- The requests for a location between two looks at a unit. A unit that asks for fresh labels takes
a second one for the diagnostic itself. -/
def Place.Asked (place : Place) (times : Nat) (before after : Worker) : Prop :=
  match place with
  | .unknown =>
    after.trap.attempts.unknownLocation = before.trap.attempts.unknownLocation + times
  | .fresh => after.trap.lastLabel = before.trap.lastLabel + times + times
  | .provided _ _ => after.resolved = before.resolved + times

/-- Let a report of a unit go out: below the message, the extra text and the trail its body has the
ending. -/
def Session.sendOut (s : Session) (worker : Nat) (now : String) (r : Report) (ending : String)
    (place : Place) (withState : Bool) : Receipt × Session :=
  s.act worker .done fun b =>
    let body := r.body (UnitState.trailLines (b.stateIf withState)) none ++ ending
    b.settle place
      (b.engine.emit now r body place.locate b.worker.trap (b.stateIf withState))

/-- The notice that a count brings with it. -/
def limitEnding (limit : Int) (count : Nat) (o : Origin) : String :=
  if 0 < limit ∧ (count : Int) = limit then "\n" ++ Report.limitNotice o else ""

/-- A notice is the last line of the body. -/
theorem Report.body_some (r : Report) (trail : List String) (notice : String) :
    r.body trail (some notice) = r.body trail none ++ ("\n" ++ notice) := by
  have hne : r.message :: (r.extra.toList ++ trail) ≠ [] := List.cons_ne_nil _ _
  have h := Lines.join_append_singleton hne notice
  simpa [Report.body, List.append_assoc] using h

/-! ### Requests for locations -/

namespace Engine

variable (e : Engine)

/-- An association takes no label and asks for no location. -/
theorem requests_associate (trap : TrapWriter) (state : UnitState) (diagnostic : Label) :
    (associate trap state diagnostic).2.1.attempts.unknownLocation =
        trap.attempts.unknownLocation ∧
      (associate trap state diagnostic).2.1.lastLabel = trap.lastLabel := by
  have h := trap.sameButStore_write .association
    (.association ⟨diagnostic, AssociationRow.compilation, state.fileNumber, state.count⟩)
  have ha := congrArg TrapAttempts.unknownLocation h.attempts
  exact ⟨ha, h.lastLabel⟩

/-- The records of a report take one label and ask for no location. -/
theorem requests_store (now : String) (r : Report) (body : String) (location : Label)
    (trap : TrapWriter) (state : Option UnitState) :
    (e.store now r body location trap state).2.1.attempts.unknownLocation =
        trap.attempts.unknownLocation ∧
      (e.store now r body location trap state).2.1.lastLabel = trap.lastLabel + 1 := by
  have h := trap.freshLabel.2.sameButStore_write .diagnostic
    (.diagnostic (e.row now r body trap.freshLabel.1 location))
  have hw : ∀ w', (trap.freshLabel.2.tried .diagnostic).SameButStore w' →
      w'.attempts.unknownLocation = trap.attempts.unknownLocation ∧
        w'.lastLabel = trap.lastLabel + 1 := by
    intro w' hw'
    have ha := congrArg TrapAttempts.unknownLocation hw'.attempts
    exact ⟨ha, hw'.lastLabel⟩
  simp only [store, TrapWriter.writeDiagnostic]
  generalize TrapWriter.write _ _ _ = stored at h ⊢
  obtain ⟨_ | _, w'⟩ := stored
  · exact hw w' h
  · cases state with
    | none => exact hw w' h
    | some state =>
      obtain ⟨ha, hl⟩ := requests_associate w' state trap.freshLabel.1
      exact ⟨ha.trans (hw w' h).1, hl.trans (hw w' h).2⟩

end Engine

/-- A report that goes out asks for its location, and asks once. -/
theorem Bench.asked_emit (b : Bench) (now : String) (r : Report) (body : String) (place : Place)
    (state : Option UnitState) :
    place.Asked 1 b.worker
      (b.settle place (b.engine.emit now r body place.locate b.worker.trap state)).2.worker := by
  cases place with
  | unknown =>
    simp only [Place.Asked, settle, Engine.trap_emit, Place.locate]
    have h := congrArg TrapAttempts.unknownLocation b.worker.trap.attempts_unknownLocation
    rw [← (show _ = b.worker.trap.attempts.unknownLocation + 1 from h)]
    split
    · rfl
    · exact (b.engine.requests_store ..).1
  | fresh =>
    simp only [Place.Asked, settle, Engine.trap_emit, Place.locate]
    exact (b.engine.requests_store ..).2
  | provided calls answer =>
    simp only [Place.Asked, settle, Engine.located_emit]
    rfl

/-! ### One call -/

/-- The count that a report brings its key to decides whether the report goes out, and how its body
ends. -/
theorem Engine.diagnostic_of_some (e : Engine) (now : String) {r : Report} {o : Origin}
    (ho : r.origin = some o) (locate : Locator) (trap : TrapWriter) (state : Option UnitState) :
    let key : Tally.Key := ⟨o, r.severity⟩
    let n := e.occurrences key + 1
    e.diagnostic now r locate trap state =
      if e.tally.limit ≤ 0 ∨ (n : Int) ≤ e.tally.limit then
        (e.counted key).emit now r
          (r.body (UnitState.trailLines state) none ++ limitEnding e.tally.limit n o)
          locate trap state
      else ⟨.done, e.counted key, trap, state⟩ := by
  intro key n
  have hs := e.screen_of_some ho
  cases hv : Tally.verdict e.tally.limit n with
  | normal =>
    have hn : e.tally.limit ≤ 0 ∨ (n : Int) < e.tally.limit := by grind [Tally.verdict]
    rw [if_pos (hn.imp_right Int.le_of_lt), limitEnding, if_neg (by omega), String.append_empty]
    simp only [diagnostic, hs, n, key, hv]
  | limitReached =>
    have hn := Tally.verdict_eq_limitReached_iff.mp hv
    rw [if_pos (.inr (Int.le_of_eq hn.2)), limitEnding, if_pos hn, ← Report.body_some]
    simp only [diagnostic, hs, n, key, hv]
  | suppressed =>
    have hn := Tally.verdict_eq_suppressed_iff.mp hv
    rw [if_neg (by omega)]
    simp only [diagnostic, hs, n, key, hv]
    rfl

/-- A report without a call site goes out and says so. -/
theorem Engine.diagnostic_of_none (e : Engine) (now : String) {r : Report}
    (ho : r.origin = none) (locate : Locator) (trap : TrapWriter) (state : Option UnitState) :
    e.diagnostic now r locate trap state =
      e.emit now r
        (r.body (UnitState.trailLines state) none ++ ("\n" ++ Report.missingCallerNotice))
        locate trap state := by
  simp only [diagnostic, e.screen_of_none ho, Report.body_some]

/-- A call that did nothing leaves the unit as it was. -/
theorem Bench.settle_done (b : Bench) (place : Place) (e : Engine) (withState : Bool) :
    b.settle place ⟨.done, e, b.worker.trap, b.stateIf withState⟩ =
      (.done, { b with engine := e }) := by
  cases place <;> cases withState <;> rfl

/-- A report that is held back does nothing but count. -/
theorem Bench.diagnostic_of_heldBack (b : Bench) (now : String) {r : Report} (place : Place)
    (withState : Bool) (h : (b.engine.screen r).1 = .heldBack) :
    b.diagnostic now r place withState = (.done, { b with engine := (b.engine.screen r).2 }) := by
  rcases b.engine.diagnostic_cases now r place.locate b.worker.trap (b.stateIf withState) with
    ⟨_, ho⟩ | ⟨notice, hs, _⟩
  · rw [diagnostic, ho]
    exact b.settle_done place _ withState
  · rw [h] at hs
    cases hs

theorem Bench.diagnostic_of_goesOut (b : Bench) (now : String) {r : Report} (place : Place)
    (withState : Bool) {notice : Option String}
    (h : (b.engine.screen r).1 = .goesOut notice) :
    b.diagnostic now r place withState = b.settle place ((b.engine.screen r).2.emit now r
      (r.body (UnitState.trailLines (b.stateIf withState)) notice) place.locate b.worker.trap
      (b.stateIf withState)) := by
  rcases b.engine.diagnostic_cases now r place.locate b.worker.trap (b.stateIf withState) with
    ⟨hs, _⟩ | ⟨notice', hs, ho⟩
  · rw [h] at hs
    cases hs
  · obtain rfl := Admission.goesOut.inj (h.symm.trans hs)
    rw [diagnostic, ho]

namespace Session

variable (s : Session)

/-- A call that is held back changes nothing but the count. -/
theorem act_done {i : Nat} {w : Worker} (h : s.workers[i]? = some w) (e : Engine) (place : Place)
    (withState : Bool) :
    (s.act i .done fun b =>
        b.settle place ⟨.done, e, b.worker.trap, b.stateIf withState⟩) =
      (.done, { s with engine := e }) := by
  have hi := List.getElem?_eq_some_iff.mp h
  obtain ⟨hlt, rfl⟩ := hi
  simp [s.act_of_getElem? h, Bench.settle_done]

theorem step_diagnostic (i : Nat) (now : String) (r : Report) (place : Place) (withState : Bool) :
    s.step ⟨i, now, .diagnostic r place withState⟩ =
      s.act i .done fun b => b.settle place
        (b.engine.diagnostic now r place.locate b.worker.trap (b.stateIf withState)) := rfl

/-- The limit decides by the number of calls made with a key, this one among them. -/
theorem step_of_some {i : Nat} {w : Worker} (h : s.workers[i]? = some w) (now : String)
    {r : Report} {o : Origin} (ho : r.origin = some o) (place : Place) (withState : Bool) :
    let key : Tally.Key := ⟨o, r.severity⟩
    let n := s.engine.occurrences key + 1
    let limit := s.engine.tally.limit
    s.step ⟨i, now, .diagnostic r place withState⟩ =
      if limit ≤ 0 ∨ (n : Int) ≤ limit then
        (s.counted key).sendOut i now r (limitEnding limit n o) place withState
      else (.done, s.counted key) := by
  intro key n limit
  have hc : (s.counted key).workers[i]? = some w := h
  rw [step_diagnostic, s.act_of_getElem? h, Engine.diagnostic_of_some _ now ho]
  split
  · rw [sendOut, act_of_getElem? _ hc]
    rfl
  · have hd := (s.counted key).act_done hc (s.counted key).engine place withState
    rw [act_of_getElem? _ hc] at hd
    exact hd

theorem step_of_none {i : Nat} {w : Worker} (h : s.workers[i]? = some w) (now : String)
    {r : Report} (ho : r.origin = none) (place : Place) (withState : Bool) :
    s.step ⟨i, now, .diagnostic r place withState⟩ =
      s.sendOut i now r ("\n" ++ Report.missingCallerNotice) place withState := by
  rw [step_diagnostic, sendOut, s.act_of_getElem? h, s.act_of_getElem? h,
    Engine.diagnostic_of_none _ now ho]

end Session

/-- Whatever a call put out has the body: the line that the log took, and the diagnostics that were
stored once the location was found. -/
def Report.PutOut (r : Report) (now body : String) (receipt : Receipt)
    (found after : TrapWriter) : Prop :=
  (∀ m, receipt.line = some m → m.text = r.heading ++ body) ∧
  ∀ row, .diagnostic row ∈ after.records →
    .diagnostic row ∈ found.records ∨ row.full = now ++ " " ++ body

theorem Engine.putOut_emit (e : Engine) (now : String) (r : Report) (body : String) (place : Place)
    (trap : TrapWriter) (state : Option UnitState) :
    let o := e.emit now r body place.locate trap state
    r.PutOut now body o.receipt (place.locate trap).2 o.trap := by
  intro o
  constructor
  · intro m hm
    rw [e.line_emit hm]
  · intro row h
    obtain ⟨rows, associations, hr, hrow, _⟩ := e.records_emit now r body place trap state
    rw [hr] at h
    rcases List.mem_append.mp h with h | h
    · exact .inl h
    · have hmem : row ∈ rows := by simpa using h
      obtain ⟨id, location, rfl⟩ := hrow row hmem
      exact .inr rfl

/-- A unit's report goes out with an ending: the call is what comes after the counting, it asks for
the location once, and what it puts out has the ending below the rest of the body. -/
structure Session.WentOut (s : Session) (i : Nat) (w : Worker) (now : String) (r : Report)
    (ending : String) (place : Place) (withState : Bool) (after : Receipt × Session) : Prop where
  eq : after = s.sendOut i now r ending place withState
  located : after.1.located = true
  asked : ∃ w', after.2.workers[i]? = some w' ∧ place.Asked 1 w w' ∧
    r.PutOut now
      (r.body (UnitState.trailLines (if withState then some w.state else none)) none ++ ending)
      after.1 (place.locate w.trap).2 w'.trap

/-- A call is held back: it does nothing, and asks for no location. -/
structure Session.HeldBack (s : Session) (after : Receipt × Session) : Prop where
  eq : after = (.done, s)
  result : after.1.result = .ok ()
  located : after.1.located = false

namespace Session

variable (s : Session)

theorem wentOut_sendOut {i : Nat} {w : Worker} (h : s.workers[i]? = some w) (now : String)
    (r : Report) (ending : String) (place : Place) (withState : Bool) :
    s.WentOut i w now r ending place withState (s.sendOut i now r ending place withState) := by
  have hlt : i < s.workers.length := (List.getElem?_eq_some_iff.mp h).1
  refine ⟨rfl, ?_, ?_⟩
  · rw [sendOut, s.act_of_getElem? h]
    exact Engine.located_emit ..
  · rw [sendOut, s.act_of_getElem? h]
    refine ⟨_, List.getElem?_set_self hlt, ?_, ?_⟩
    · exact (Bench.mk s.engine w).asked_emit ..
    · exact s.engine.putOut_emit ..

/-- Within the limit a report goes out, and with the notice if it meets the limit. -/
theorem wentOut_step {i : Nat} {w : Worker} (h : s.workers[i]? = some w) (now : String)
    {r : Report} {o : Origin} (ho : r.origin = some o) (place : Place) (withState : Bool)
    (hn : s.engine.tally.limit ≤ 0 ∨
      ((s.engine.occurrences ⟨o, r.severity⟩ + 1 : Nat) : Int) ≤ s.engine.tally.limit) :
    (s.counted ⟨o, r.severity⟩).WentOut i w now r
      (limitEnding s.engine.tally.limit (s.engine.occurrences ⟨o, r.severity⟩ + 1) o)
      place withState (s.step ⟨i, now, .diagnostic r place withState⟩) := by
  have hs := s.step_of_some h now ho place withState
  rw [hs, if_pos hn]
  exact (s.counted ⟨o, r.severity⟩).wentOut_sendOut h ..

/-- Past the limit a report is held back. -/
theorem heldBack_step {i : Nat} {w : Worker} (h : s.workers[i]? = some w) (now : String)
    {r : Report} {o : Origin} (ho : r.origin = some o) (place : Place) (withState : Bool)
    (hn : ¬ (s.engine.tally.limit ≤ 0 ∨
      ((s.engine.occurrences ⟨o, r.severity⟩ + 1 : Nat) : Int) ≤ s.engine.tally.limit)) :
    (s.counted ⟨o, r.severity⟩).HeldBack (s.step ⟨i, now, .diagnostic r place withState⟩) := by
  have hs := s.step_of_some h now ho place withState
  rw [hs, if_neg hn]
  exact ⟨rfl, rfl, rfl⟩

@[simp] theorem tally_sendOut (i : Nat) (now : String) (r : Report) (ending : String)
    (place : Place) (withState : Bool) :
    (s.sendOut i now r ending place withState).2.engine.tally = s.engine.tally := by
  unfold sendOut act
  split
  · rfl
  · exact Engine.tally_emit ..

end Session

/-! ### Whole runs -/

/-- The limit over a whole run, whoever makes the calls and whatever fails. Every key was counted
once by each of its calls. A report without a call site goes out, says so and counts nothing. A
report with one goes out exactly if its number among the calls of its key is within the limit; it
ends with the notice exactly if it meets the limit; and past the limit its call does nothing but
count. -/
theorem limited_by_count (settings : Settings) (stream : LogStream) (workers : List Worker)
    (steps : List Step) (i : Nat) (w : Worker) (now : String) (r : Report) (place : Place)
    (withState : Bool) :
    let start : Session := ⟨.ofStream settings stream, workers⟩
    let call : Step := ⟨i, now, .diagnostic r place withState⟩
    let before := (start.run steps).2
    let after := before.step call
    (∀ key, before.engine.occurrences key = start.timesCounted key steps) ∧
    (∀ key, r.key? ≠ some key →
      after.2.engine.occurrences key = before.engine.occurrences key) ∧
    (before.workers[i]? = some w →
      match r.origin with
      | none =>
        before.WentOut i w now r ("\n" ++ Report.missingCallerNotice) place withState after ∧
          after.2.engine.tally = before.engine.tally
      | some o =>
        let n : Int := start.timesCounted ⟨o, r.severity⟩ (steps ++ [call])
        let counted := before.counted ⟨o, r.severity⟩
        let ending :=
          if 0 < settings.limit ∧ n = settings.limit then "\n" ++ Report.limitNotice o else ""
        (after.1.located = true ↔ settings.limit ≤ 0 ∨ n ≤ settings.limit) ∧
        (settings.limit ≤ 0 ∨ n ≤ settings.limit →
          counted.WentOut i w now r ending place withState after) ∧
        (0 < settings.limit ∧ settings.limit < n → counted.HeldBack after)) := by
  intro start call before after
  have hcount : ∀ (key : Tally.Key) (steps : List Step),
      (start.run steps).2.engine.occurrences key = start.timesCounted key steps := by
    intro key steps
    rw [start.occurrences_run, Nat.add_eq_right]
    exact Std.HashMap.getD_empty
  have hlimit : before.engine.tally.limit = settings.limit := start.limit_run steps
  refine ⟨fun key => hcount key steps, ?_, ?_⟩
  · intro key hk
    rw [before.occurrences_step call key]
    simp [Session.timesCounted, call, EngineCall.key?, hk]
  · intro hw
    cases ho : r.origin with
    | none =>
      have ha : after = _ := before.step_of_none hw now ho place withState
      rw [ha]
      exact ⟨before.wentOut_sendOut hw .., before.tally_sendOut ..⟩
    | some o =>
      have hn : start.timesCounted ⟨o, r.severity⟩ (steps ++ [call]) =
          before.engine.occurrences ⟨o, r.severity⟩ + 1 := by
        have hi : i < start.workers.length := by
          have := (List.getElem?_eq_some_iff.mp hw).1
          rwa [start.length_workers_run] at this
        rw [hcount _ steps, start.timesCounted_append]
        simp [Session.timesCounted, call, EngineCall.key?, Report.key?, ho, hi]
      have hout := before.wentOut_step hw now ho place withState
      have hback := before.heldBack_step hw now ho place withState
      rw [hlimit, ← hn] at hout hback
      refine ⟨⟨fun hl => Decidable.byContradiction fun h => ?_, fun h => (hout h).located⟩, hout,
        fun h => hback (by omega)⟩
      exact absurd (hl.symm.trans (hback h).located) (by simp)

/-- With a limit of two, the second call of a unit meets the limit, though its first call could not
find its location. -/
theorem limited_by_count_second_call :
    let o : Origin := ⟨"a.rs", 7, 3⟩
    let r : Report := { severity := .warn, message := "odd", origin := some o }
    let lost : Step := ⟨0, "t", .diagnostic r (.resolved (.error (.reported "lost"))) true⟩
    let call : Step := ⟨0, "t", .diagnostic r .unknown true⟩
    let start : Session :=
      ⟨.ofStream { limit := 2 } (.memory {}), [⟨.recording fun _ _ => false, ⟨0, [], 0⟩, 0⟩]⟩
    let before := (start.run [lost]).2
    ∃ w, before.workers[0]? = some w ∧
      (before.counted ⟨o, .warn⟩).WentOut 0 w "t" r ("\n" ++ Report.limitNotice o) .unknown true
        (before.step call) := by
  intro o r lost call start before
  have hlt : 0 < before.workers.length := by
    rw [start.length_workers_run]
    exact Nat.one_pos
  refine ⟨before.workers[0], List.getElem?_eq_getElem hlt, ?_⟩
  have h := (limited_by_count { limit := 2 } (.memory {}) start.workers [lost] 0 before.workers[0]
    "t" r .unknown true).2.2 (List.getElem?_eq_getElem hlt)
  exact h.2.1 (.inr (by decide))

end DiagnosticLog
