import DiagnosticLog.Proofs.Stages
import DiagnosticLog.Turn

/-! A program of logger calls does what its row of engine calls does, in whatever way its bodies
end. It leaves the same engine and unit behind; a call that is let through is one call of the row
and is told the same; a call that is not is told that all went well. -/

namespace DiagnosticLog

namespace Receipt

/-- The receipts that tell of something. A call that is not let through, and the taking up and the
taking off of a frame, have a receipt that tells of nothing. -/
def busy (receipts : List Receipt) : List Receipt := receipts.filter fun r => decide (r ≠ .done)

/-- The messages whose lines the log has taken. -/
def lines (receipts : List Receipt) : List Message := receipts.filterMap Receipt.line

@[simp] theorem busy_append (receipts more : List Receipt) :
    busy (receipts ++ more) = busy receipts ++ busy more :=
  List.filter_append ..

@[simp] theorem busy_cons_done (receipts : List Receipt) :
    busy (.done :: receipts) = busy receipts :=
  rfl

theorem busy_cons_congr {receipts more : List Receipt} (r : Receipt)
    (h : busy receipts = busy more) : busy (r :: receipts) = busy (r :: more) := by
  have hr := busy_append [r] receipts
  have hm := busy_append [r] more
  rw [List.singleton_append] at hr hm
  rw [hr, hm, h]

@[simp] theorem lines_nil : lines [] = [] := rfl

theorem lines_cons (r : Receipt) (rest : List Receipt) :
    lines (r :: rest) = r.line.toList ++ lines rest := by
  rw [lines, lines, List.filterMap_cons]
  cases r.line <;> rfl

@[simp] theorem lines_append (receipts more : List Receipt) :
    lines (receipts ++ more) = lines receipts ++ lines more :=
  List.filterMap_append

theorem lines_busy (receipts : List Receipt) : lines (busy receipts) = lines receipts := by
  induction receipts with
  | nil => rfl
  | cons r rest ih =>
    rw [lines, lines] at ih
    rw [busy, lines, lines, List.filter_cons]
    by_cases h : r = .done
    · subst h
      exact ih
    · rw [if_pos (decide_eq_true h), List.filterMap_cons, List.filterMap_cons, ← busy, ih]

end Receipt

/-! ### What calls are told -/

/-- Whether a call is let through at a verbosity. -/
def LoggerCall.passes (verbosity : Int) (call : LoggerCall) : Bool :=
  call.level.all fun level => level.allowedAt verbosity

/-- Whether a call only takes a frame up or off. -/
def EngineCall.isFraming : EngineCall → Bool
  | .enter _ | .leave => true
  | _ => false

/-- A logger call takes no frame up and none off; a body does. -/
theorem LoggerCall.isFraming_engineCall (kind : LoggerKind) (call : LoggerCall) :
    (call.engineCall kind).isFraming = false := by
  cases call <;> rfl

/-- The calls of a row are those of frames and those of a logger. -/
theorem Script.forall_flatten (p : EngineCall → Prop) (kind : LoggerKind)
    (henter : ∀ frame, p (.enter frame)) (hleave : p .leave)
    (hlogger : ∀ call : LoggerCall, p (call.engineCall kind)) (script : Script) (verbosity : Int) :
    ∀ timed ∈ (script.flatten kind verbosity).2, p timed.call := by
  induction script with
  | done | leave | bail => simp [flatten]
  | look rest ih => exact ih
  | calls cs rest ih =>
    intro timed hm
    rcases List.mem_append.mp hm with hm | hm
    · obtain ⟨c, -, hc⟩ := List.mem_flatMap.mp hm
      unfold LoggerCall.engineCalls at hc
      split at hc
      · rw [List.mem_singleton.mp hc]
        exact hlogger c.call
      · simp at hc
    · exact ih timed hm
  | within frame body rest ihb ihr =>
    have hwhole : ∀ timed ∈ (⟨"", .enter frame⟩ :: (body.flatten kind verbosity).2 ++
        [⟨"", .leave⟩] : List (Timed EngineCall)), p timed.call := by
      intro timed hm
      simp only [List.cons_append, List.mem_cons, List.mem_append, List.not_mem_nil,
        or_false] at hm
      rcases hm with rfl | hm | rfl
      · exact henter frame
      · exact ihb timed hm
      · exact hleave
    intro timed hm
    simp only [flatten] at hm
    split at hm
    · exact hwhole timed hm
    all_goals
      rcases List.mem_append.mp hm with hm | hm
      · exact hwhole timed hm
      · exact ihr timed hm
  | guarded body rest ihb ihr =>
    intro timed hm
    rcases List.mem_append.mp hm with hm | hm
    · exact ihb timed hm
    · exact ihr timed hm

/-- The logger calls that an event tells of, each with its receipt. -/
def Event.answered : Event → List (Timed LoggerCall × Receipt)
  | .made calls receipts _ => calls.zip receipts
  | _ => []

/-- The engine calls that the calls let through stand for, each with its receipt. -/
def LoggerKind.passed (kind : LoggerKind) (verbosity : Int)
    (answered : List (Timed LoggerCall × Receipt)) : List (Timed EngineCall × Receipt) :=
  (answered.filter fun a => a.1.call.passes verbosity).map fun (c, receipt) =>
    (⟨c.now, c.call.engineCall kind⟩, receipt)

@[simp] theorem LoggerKind.passed_append (kind : LoggerKind) (verbosity : Int)
    (answered more : List (Timed LoggerCall × Receipt)) :
    kind.passed verbosity (answered ++ more) =
      kind.passed verbosity answered ++ kind.passed verbosity more := by
  simp [passed]

/-- Calls that are not let through tell of nothing. -/
theorem LoggerKind.busy_passed (kind : LoggerKind) {verbosity : Int}
    {answered : List (Timed LoggerCall × Receipt)}
    (h : ∀ a ∈ answered, a.1.call.passes verbosity = false → a.2 = .done) :
    Receipt.busy ((kind.passed verbosity answered).map Prod.snd) =
      Receipt.busy (answered.map Prod.snd) := by
  induction answered with
  | nil => rfl
  | cons a rest ih =>
    have hr := ih fun a' ha => h a' (List.mem_cons_of_mem a ha)
    rw [List.map_cons]
    cases hp : a.1.call.passes verbosity with
    | true =>
      have hc : kind.passed verbosity (a :: rest) =
          (⟨a.1.now, a.1.call.engineCall kind⟩, a.2) :: kind.passed verbosity rest := by
        simp [passed, hp]
      rw [hc, List.map_cons]
      exact Receipt.busy_cons_congr a.2 hr
    | false =>
      have hc : kind.passed verbosity (a :: rest) = kind.passed verbosity rest := by
        simp [passed, hp]
      rw [hc, h a List.mem_cons_self hp, Receipt.busy_cons_done, hr]

namespace Bench

variable (b : Bench)

@[simp] theorem performAll_nil : b.performAll [] = ([], b) := rfl

@[simp] theorem performAll_cons (c : Timed EngineCall) (rest : List (Timed EngineCall)) :
    b.performAll (c :: rest) =
      ((b.perform c.now c.call).1 :: ((b.perform c.now c.call).2.performAll rest).1,
        ((b.perform c.now c.call).2.performAll rest).2) :=
  inTurn_cons ..

theorem performAll_append (calls more : List (Timed EngineCall)) :
    b.performAll (calls ++ more) =
      ((b.performAll calls).1 ++ ((b.performAll calls).2.performAll more).1,
        ((b.performAll calls).2.performAll more).2) :=
  inTurn_append ..

@[simp] theorem settings_performAll (calls : List (Timed EngineCall)) :
    (b.performAll calls).2.engine.settings = b.engine.settings := by
  induction calls generalizing b with
  | nil => rfl
  | cons c rest ih => rw [performAll_cons, ih, settings_perform]

/-- The calls of a row that do more than take a frame up or off, each with its receipt. -/
def told (row : List (Timed EngineCall)) : List (Timed EngineCall × Receipt) :=
  (row.zip (b.performAll row).1).filter fun p => !p.1.call.isFraming

theorem told_append (row more : List (Timed EngineCall)) :
    b.told (row ++ more) = b.told row ++ (b.performAll row).2.told more := by
  have hl : row.length = (b.performAll row).1.length := (length_inTurn ..).symm
  rw [told, performAll_append, List.zip_append hl, List.filter_append]
  rfl

/-- The taking up and the taking off of a frame tell of nothing. -/
theorem perform_of_isFraming {call : EngineCall} (h : call.isFraming = true) (now : String) :
    (b.perform now call).1 = .done := by
  cases call with
  | enter frame | leave => rfl
  | _ => contradiction

theorem busy_told (row : List (Timed EngineCall)) :
    Receipt.busy ((b.told row).map Prod.snd) = Receipt.busy (b.performAll row).1 := by
  induction row generalizing b with
  | nil => rfl
  | cons c rest ih =>
    have hr := ih (b.perform c.now c.call).2
    rw [performAll_cons]
    cases hf : c.call.isFraming with
    | true =>
      have ht : b.told (c :: rest) = (b.perform c.now c.call).2.told rest := by
        simp [told, hf]
      rw [ht, hr, b.perform_of_isFraming hf, Receipt.busy_cons_done]
    | false =>
      have ht : b.told (c :: rest) =
          (c, (b.perform c.now c.call).1) :: (b.perform c.now c.call).2.told rest := by
        simp [told, hf]
      rw [ht, List.map_cons]
      exact Receipt.busy_cons_congr _ hr

end Bench

/-! ### Logger calls -/

/-- A logger call is one engine call, or nothing. -/
theorem LoggerKind.perform_eq (kind : LoggerKind) (b : Bench) (now : String) (call : LoggerCall) :
    kind.perform b now call =
      if call.passes b.engine.settings.verbosity then b.perform now (call.engineCall kind)
      else (.done, b) := by
  cases kind <;> cases call <;> rfl

/-- What was done from a bench is what a row of engine calls does. -/
structure Bench.Does (kind : LoggerKind) (b : Bench) (row : List (Timed EngineCall))
    (events : List Event) (after : Bench) : Prop where
  after : after = (b.performAll row).2
  passed : kind.passed b.engine.settings.verbosity (events.flatMap Event.answered) = b.told row
  others : ∀ a ∈ events.flatMap Event.answered,
    a.1.call.passes b.engine.settings.verbosity = false → a.2 = .done
  receipts : events.flatMap Event.receipts = (events.flatMap Event.answered).map Prod.snd

namespace Bench.Does

variable {kind : LoggerKind} {b b' b'' : Bench} {row more : List (Timed EngineCall)}
  {events later : List Event}

theorem nil (kind : LoggerKind) (b : Bench) : b.Does kind [] [] b := ⟨rfl, rfl, by simp, rfl⟩

theorem settings (h : b.Does kind row events b') : b'.engine.settings = b.engine.settings := by
  rw [h.after, settings_performAll]

theorem append (h : b.Does kind row events b') (h' : b'.Does kind more later b'') :
    b.Does kind (row ++ more) (events ++ later) b'' := by
  have hb := h.after
  have hp := h'.passed
  have ho := h'.others
  rw [h.settings] at hp ho
  subst hb
  refine ⟨?_, ?_, ?_, ?_⟩
  · rw [performAll_append, h'.after]
  · rw [told_append, List.flatMap_append, LoggerKind.passed_append, h.passed, hp]
  · intro a ha
    rw [List.flatMap_append] at ha
    rcases List.mem_append.mp ha with ha | ha
    · exact h.others a ha
    · exact ho a ha
  · rw [List.flatMap_append, List.flatMap_append, List.map_append, h.receipts, h'.receipts]

/-- Only the answers that events tell of matter. -/
theorem retold (h : b.Does kind row events b')
    (ha : later.flatMap Event.answered = events.flatMap Event.answered)
    (hr : later.flatMap Event.receipts = events.flatMap Event.receipts) :
    b.Does kind row later b' := by
  refine ⟨h.after, ?_, ?_, ?_⟩
  · rw [ha, h.passed]
  · rw [ha]
    exact h.others
  · rw [hr, ha, h.receipts]

theorem enter (kind : LoggerKind) (b : Bench) (frame : Frame) :
    b.Does kind [⟨"", .enter frame⟩] [] (b.enter frame) :=
  ⟨rfl, rfl, by simp, rfl⟩

theorem leave (kind : LoggerKind) (b : Bench) : b.Does kind [⟨"", .leave⟩] [] b.leave :=
  ⟨rfl, rfl, by simp, rfl⟩

theorem busy (h : b.Does kind row events b') :
    Receipt.busy (events.flatMap Event.receipts) = Receipt.busy (b.performAll row).1 := by
  rw [h.receipts, ← kind.busy_passed h.others, h.passed, b.busy_told]

end Bench.Does

/-- A call is one call of its row if it is let through, and else it does nothing. -/
theorem LoggerKind.perform_does (kind : LoggerKind) (b : Bench) (c : Timed LoggerCall) :
    let answer := kind.perform b c.now c.call
    b.Does kind (LoggerCall.engineCalls kind b.engine.settings.verbosity c)
      [.made [c] [answer.1] answer.2] answer.2 := by
  intro answer
  have ha : answer = _ := kind.perform_eq b c.now c.call
  cases hp : c.call.passes b.engine.settings.verbosity with
  | true =>
    have hrow : LoggerCall.engineCalls kind b.engine.settings.verbosity c =
        [⟨c.now, c.call.engineCall kind⟩] := if_pos hp
    have hf := c.call.isFraming_engineCall kind
    rw [hp, if_pos rfl] at ha
    rw [hrow, ha]
    refine ⟨rfl, ?_, ?_, rfl⟩
    · simp [Event.answered, passed, hp, Bench.told, hf]
    · simp [Event.answered, hp]
  | false =>
    have hrow : LoggerCall.engineCalls kind b.engine.settings.verbosity c = [] := by
      rw [LoggerCall.engineCalls, ← LoggerCall.passes, hp]
      rfl
    rw [hp] at ha
    rw [hrow, ha]
    refine ⟨rfl, ?_, ?_, rfl⟩
    · simp [Event.answered, passed, hp, Bench.told]
    · simp [Event.answered]

theorem LoggerKind.performAll_does (kind : LoggerKind) (b : Bench)
    (cs : List (Timed LoggerCall)) :
    let answers := kind.performAll b cs
    b.Does kind (cs.flatMap (LoggerCall.engineCalls kind b.engine.settings.verbosity))
      [.made cs answers.1 answers.2] answers.2 := by
  induction cs generalizing b with
  | nil => exact (Bench.Does.nil kind b).retold rfl rfl
  | cons c rest ih =>
    have hc := kind.perform_does b c
    have hr := ih (kind.perform b c.now c.call).2
    rw [hc.settings] at hr
    have ha : kind.performAll b (c :: rest) = _ := inTurn_cons ..
    rw [List.flatMap_cons, ha]
    exact (hc.append hr).retold rfl rfl

/-! ### Programs -/

/-- A program does what its row of engine calls does, and ends in the same way. -/
theorem Script.run_does (kind : LoggerKind) (script : Script) (b : Bench) :
    (script.run kind b).exit = (script.flatten kind b.engine.settings.verbosity).1 ∧
      b.Does kind (script.flatten kind b.engine.settings.verbosity).2
        (script.run kind b).events (script.run kind b).bench := by
  induction script generalizing b with
  | done => exact ⟨rfl, .nil kind b⟩
  | calls cs rest ih =>
    have hc := kind.performAll_does b cs
    obtain ⟨he, hr⟩ := ih (kind.performAll b cs).2
    rw [hc.settings] at he hr
    exact ⟨he, hc.append hr⟩
  | look rest ih =>
    obtain ⟨he, hr⟩ := ih b
    exact ⟨he, hr.retold rfl rfl⟩
  | within frame body rest ihb ihr =>
    have hv : (b.enter frame).engine.settings = b.engine.settings := rfl
    obtain ⟨he, hb⟩ := ihb (b.enter frame)
    rw [hv] at he hb
    have hout := ((Bench.Does.enter kind b frame).append hb).append
      (.leave kind (body.run kind (b.enter frame)).bench)
    obtain ⟨he', hr⟩ := ihr (body.run kind (b.enter frame)).bench.leave
    rw [hout.settings] at he' hr
    have hall := hout.append hr
    simp only [run, flatten, he]
    cases hx : (body.flatten kind b.engine.settings.verbosity).1 with
    | bailed => exact ⟨rfl, hout.retold (by simp [Event.answered]) (by simp [Event.receipts])⟩
    | finished | left =>
      refine ⟨he', hall.retold ?_ ?_⟩
      · simp [ScriptRun.after, Event.answered]
      · simp [ScriptRun.after, Event.receipts]
  | guarded body rest ihb ihr =>
    obtain ⟨he, hb⟩ := ihb b
    obtain ⟨he', hr⟩ := ihr (body.run kind b).bench
    rw [hb.settings] at he' hr
    have hall := hb.append hr
    simp only [run, flatten, he]
    refine ⟨he', hall.retold ?_ ?_⟩
    · cases (body.flatten kind b.engine.settings.verbosity).1 <;>
        simp [ScriptRun.after, Event.answered]
    · cases (body.flatten kind b.engine.settings.verbosity).1 <;>
        simp [ScriptRun.after, Event.receipts]
  | leave => exact ⟨rfl, .nil kind b⟩
  | bail => exact ⟨rfl, .nil kind b⟩

theorem Script.runUnit_does (kind : LoggerKind) (script : Script) (b : Bench) :
    b.Does kind (script.flatten kind b.engine.settings.verbosity).2
      (script.runUnit kind b).1 (script.runUnit kind b).2 := by
  have h := (script.run_does kind b).2
  simp only [runUnit]
  refine h.retold ?_ ?_
  · cases (script.run kind b).exit <;> simp [Event.answered]
  · cases (script.run kind b).exit <;> simp [Event.receipts]

/-- A program of logger calls is its row of engine calls, in whatever way its bodies end and
whatever fails. It leaves the engine and the unit as the row leaves them. Of its calls those that
are let through are, in their order, the calls of the row that do more than take a frame up or off,
and are told the same; all others are told that all went well. -/
theorem program_is_row (kind : LoggerKind) (script : Script) (b : Bench) :
    let verbosity := b.engine.settings.verbosity
    let row := (script.flatten kind verbosity).2
    let run := script.runUnit kind b
    let answered := run.1.flatMap Event.answered
    run.2 = (b.performAll row).2 ∧
    run.1.flatMap Event.receipts = answered.map Prod.snd ∧
    kind.passed verbosity answered =
      (row.zip (b.performAll row).1).filter (fun p => !p.1.call.isFraming) ∧
    ∀ a ∈ answered, a.1.call.passes verbosity = false → a.2 = .done := by
  intro verbosity row run answered
  have h := script.runUnit_does kind b
  exact ⟨h.after, h.receipts, h.passed, h.others⟩

end DiagnosticLog
