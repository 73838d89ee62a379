import DiagnosticLog.Proofs.Programs

/-! Runs in which units take turns do what the rows of engine calls of their programs do. -/

namespace DiagnosticLog

/-- Turns of single calls are the calls. -/
theorem Turn.flatMap_steps_step (verbosity : Int) (steps : List Step) :
    (steps.map Turn.step).flatMap (Turn.steps verbosity) = steps := by
  induction steps with
  | nil => rfl
  | cons st rest ih =>
    rw [List.map_cons, List.flatMap_cons, ih]
    rfl

/-- Whether the engine calls that a unit makes in its turn are allowed. The calls of a logger are
taken to be allowed. -/
def Turn.makesOnly (unit : Nat) (allowed : EngineCall → Bool) : Turn → Bool
  | .step st => st.worker != unit || allowed st.timed.call
  | .program .. => true

/-- In turns of which a unit makes only allowed calls, all its steps are allowed. -/
theorem Turn.allowed_steps {unit : Nat} {allowed : EngineCall → Bool}
    (henter : ∀ frame, allowed (.enter frame) = true) (hleave : allowed .leave = true)
    (hlogger : ∀ (kind : LoggerKind) (call : LoggerCall), allowed (call.engineCall kind) = true)
    {ts : List Turn} (h : ∀ t ∈ ts, t.makesOnly unit allowed = true) (verbosity : Int) :
    ∀ st ∈ ts.flatMap (Turn.steps verbosity), st.worker = unit →
      allowed st.timed.call = true := by
  intro st hm hu
  obtain ⟨t, ht, hst⟩ := List.mem_flatMap.mp hm
  have hallowed := h t ht
  cases t with
  | step st' =>
    obtain rfl := List.mem_singleton.mp hst
    simpa [makesOnly, hu] using hallowed
  | program worker kind script =>
    obtain ⟨timed, htimed, rfl⟩ := List.mem_map.mp hst
    exact script.forall_flatten (fun call => allowed call = true) kind henter hleave (hlogger kind)
      verbosity timed htimed

namespace Session

variable (s : Session)

/-! ### Turns -/

/-- What one unit does twice in a row it does in one deed. -/
theorem act_act {α β : Type} (i : Nat) (idle : α) (idle' : β) (deed : Bench → α × Bench)
    (deed' : Bench → β × Bench) :
    (s.act i idle deed).2.act i idle' deed' = s.act i idle' fun b => deed' (deed b).2 := by
  cases h : s.workers[i]? with
  | none => rw [s.act_of_none h, s.act_of_none h, s.act_of_none h]
  | some w =>
    have hlt : i < s.workers.length := (List.getElem?_eq_some_iff.mp h).1
    rw [s.act_of_getElem? h, s.act_of_getElem? h, act_of_getElem? _ (List.getElem?_set_self hlt)]
    simp only [List.set_set]

theorem act_congr {α β : Type} {i : Nat} {idle : α} {idle' : β} {deed : Bench → α × Bench}
    {deed' : Bench → β × Bench}
    (h : ∀ w, s.workers[i]? = some w → (deed ⟨s.engine, w⟩).2 = (deed' ⟨s.engine, w⟩).2) :
    (s.act i idle deed).2 = (s.act i idle' deed').2 := by
  cases hw : s.workers[i]? with
  | none => rw [s.act_of_none hw, s.act_of_none hw]
  | some w => rw [s.act_of_getElem? hw, s.act_of_getElem? hw, h w hw]

theorem act_pure {α : Type} (i : Nat) (idle answer : α) :
    (s.act i idle fun b => (answer, b)).2 = s := by
  cases h : s.workers[i]? with
  | none => rw [s.act_of_none h]
  | some w =>
    obtain ⟨hlt, rfl⟩ := List.getElem?_eq_some_iff.mp h
    simp [s.act_of_getElem? h]

theorem busy_act_cons (i : Nat) (now : String) (call : EngineCall)
    (rest : List (Timed EngineCall)) :
    Receipt.busy (s.act i [] fun b => b.performAll (⟨now, call⟩ :: rest)).1 =
      Receipt.busy [(s.step ⟨i, now, call⟩).1] ++
        Receipt.busy ((s.step ⟨i, now, call⟩).2.act i [] fun b => b.performAll rest).1 := by
  rw [step, act_act, ← Receipt.busy_append]
  cases h : s.workers[i]? with
  | none => simp [s.act_of_none h, Receipt.busy]
  | some w => simp [s.act_of_getElem? h]

/-- Calls of one unit in a row are one deed of the unit. -/
theorem run_map (i : Nat) (calls : List (Timed EngineCall)) :
    (s.run (calls.map fun timed => ⟨i, timed⟩)).2 =
        (s.act i [] fun b => b.performAll calls).2 ∧
      Receipt.busy (s.run (calls.map fun timed => ⟨i, timed⟩)).1 =
        Receipt.busy (s.act i [] fun b => b.performAll calls).1 := by
  induction calls generalizing s with
  | nil =>
    refine ⟨(s.act_pure i [] []).symm, ?_⟩
    cases h : s.workers[i]? with
    | none => simp [s.act_of_none h]
    | some w => simp [s.act_of_getElem? h]
  | cons c rest ih =>
    obtain ⟨hs, hl⟩ := ih (s.step ⟨i, c⟩).2
    rw [List.map_cons, run_cons]
    refine ⟨?_, ?_⟩
    · rw [hs, step, act_act]
      refine s.act_congr fun w _ => ?_
      rw [Bench.performAll_cons]
    · rw [busy_act_cons, ← hl]
      exact Receipt.busy_append [_] _

/-- A turn does what its steps do. -/
theorem turn_eq_run (t : Turn) :
    (s.turn t).2 = (s.run (t.steps s.engine.settings.verbosity)).2 ∧
      Receipt.busy (s.turn t).1 =
        Receipt.busy (s.run (t.steps s.engine.settings.verbosity)).1 := by
  cases t with
  | step st => exact ⟨rfl, rfl⟩
  | program i kind script =>
    have hd : ∀ w, Bench.Does kind ⟨s.engine, w⟩
        (script.flatten kind s.engine.settings.verbosity).2
        (script.runUnit kind ⟨s.engine, w⟩).1 (script.runUnit kind ⟨s.engine, w⟩).2 :=
      fun w => script.runUnit_does kind ⟨s.engine, w⟩
    obtain ⟨hs, hl⟩ := s.run_map i (script.flatten kind s.engine.settings.verbosity).2
    rw [Turn.steps, hs, hl]
    have ha : (s.act i [] (script.runUnit kind)).2 =
        (s.act i [] fun b =>
          b.performAll (script.flatten kind s.engine.settings.verbosity).2).2 :=
      s.act_congr fun w _ => (hd w).after
    refine ⟨ha, ?_⟩
    cases h : s.workers[i]? with
    | none => simp [turn, s.act_of_none h]
    | some w =>
      simp only [turn, s.act_of_getElem? h]
      exact (hd w).busy

theorem turns_cons (t : Turn) (ts : List Turn) :
    s.turns (t :: ts) =
      ((s.turn t).1 ++ ((s.turn t).2.turns ts).1, ((s.turn t).2.turns ts).2) := by
  simp only [turns, inTurn_cons, List.flatten_cons]

/-- Turns do what their steps do. -/
theorem turns_eq_run (ts : List Turn) :
    (s.turns ts).2 = (s.run (ts.flatMap (Turn.steps s.engine.settings.verbosity))).2 ∧
      Receipt.busy (s.turns ts).1 =
        Receipt.busy (s.run (ts.flatMap (Turn.steps s.engine.settings.verbosity))).1 := by
  induction ts generalizing s with
  | nil => exact ⟨rfl, rfl⟩
  | cons t ts ih =>
    obtain ⟨hs, hl⟩ := s.turn_eq_run t
    obtain ⟨hs', hl'⟩ := ih (s.turn t).2
    have hv : (s.turn t).2.engine.settings = s.engine.settings := by
      rw [hs, settings_run]
    rw [hv] at hs' hl'
    rw [turns_cons, List.flatMap_cons, run_append]
    refine ⟨?_, ?_⟩
    · rw [hs', hs]
    · rw [Receipt.busy_append, hl, hl', hs, Receipt.busy_append]

theorem lines_turns (ts : List Turn) :
    Receipt.lines (s.turns ts).1 =
      Receipt.lines (s.run (ts.flatMap (Turn.steps s.engine.settings.verbosity))).1 := by
  rw [← Receipt.lines_busy, (s.turns_eq_run ts).2, Receipt.lines_busy]

end Session

end DiagnosticLog
