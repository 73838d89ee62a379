import DiagnosticLog.Proofs.Sinks
import DiagnosticLog.Proofs.Text.Utf8
import DiagnosticLog.Proofs.Turns

/-! What the calls add to the log. Every call adds the lines that its receipt tells of, whole and at
the end, as long as the stream takes a write whole or not at all. -/

namespace DiagnosticLog

/-- The bytes of the lines of some messages, each with the origin it is written for. -/
def Message.logBytes (entries : List (String × Message)) : List UInt8 :=
  entries.flatMap fun (origin, m) => Utf8.encode (m.jsonLine origin)

@[simp] theorem Message.logBytes_append (entries more : List (String × Message)) :
    logBytes (entries ++ more) = logBytes entries ++ logBytes more :=
  List.flatMap_append

/-- From one engine to another the log has grown by the lines of some messages. -/
structure Engine.Grows (e : Engine) (added : List Message) (e' : Engine) : Prop where
  settings : e'.settings = e.settings
  unbounded : e'.stream.Unbounded
  content : e'.stream.content =
    e.stream.content ++ Message.logBytes (added.map fun m => (e.settings.origin, m))

namespace Engine

theorem Grows.refl {e : Engine} (h : e.stream.Unbounded) : e.Grows [] e :=
  ⟨rfl, h, (List.append_nil _).symm⟩

theorem Grows.trans {e e' e'' : Engine} {added more : List Message} (h : e.Grows added e')
    (h' : e'.Grows more e'') : e.Grows (added ++ more) e'' := by
  refine ⟨h'.settings.trans h.settings, h'.unbounded, ?_⟩
  rw [h'.content, h.content, h.settings, List.map_append, Message.logBytes_append,
    List.append_assoc]

variable {e : Engine}

theorem grows_writeLine (h : e.stream.Unbounded) (m : Message) :
    e.Grows (if (e.writeLine m).1 = .ok () then [m] else []) (e.writeLine m).2 := by
  have hc := LogStream.content_write h (Utf8.encode (m.jsonLine e.settings.origin))
  have hr : (e.writeLine m).1 = .ok () ↔
      (e.stream.write (Utf8.encode (m.jsonLine e.settings.origin))).1 = .ok () := by
    simp only [writeLine]
    generalize (e.stream.write _).1 = result
    cases result with
    | ok done => exact iff_of_true rfl rfl
    | error cause => exact iff_of_false (by rintro ⟨⟩) (by rintro ⟨⟩)
  refine ⟨rfl, h.write _, hc.trans ?_⟩
  by_cases hw : (e.writeLine m).1 = .ok ()
  · rw [if_pos hw, if_pos (hr.mp hw)]
    simp [Message.logBytes]
  · rw [if_neg hw, if_neg fun ho => hw (hr.mpr ho)]
    rfl

theorem grows_flush (h : e.stream.Unbounded) : e.Grows [] e.flush.2 :=
  ⟨rfl, h.flush, LogStream.content_flush.trans (List.append_nil _).symm⟩

theorem grows_release (h : e.stream.Unbounded) : e.Grows [] e.release :=
  ⟨rfl, h.release, LogStream.content_release.trans (List.append_nil _).symm⟩

theorem grows_finish (h : e.stream.Unbounded) (m : Message) (located : Bool) (trap : TrapWriter)
    (state : Option UnitState) :
    let o := e.finish m located trap state
    e.Grows o.receipt.line.toList o.engine := by
  have hw := grows_writeLine h m
  rw [finish_eq]
  dsimp only
  split at hw
  · rw [if_pos ‹_›]
    exact hw
  · rw [if_neg ‹_›]
    exact hw

theorem grows_log (h : e.stream.Unbounded) (now : String) (level : Level) (text : String)
    (trap : TrapWriter) :
    let o := e.log now level text trap
    e.Grows o.receipt.line.toList o.engine := by
  intro o
  rcases e.log_cases now level text trap with ⟨cause, _, ho⟩ | ⟨_, ho⟩
  · have ho' : o = _ := ho
    rw [ho']
    exact .refl h
  · have ho' : o = _ := ho
    rw [ho']
    exact grows_finish h ..

theorem grows_emit (h : e.stream.Unbounded) (now : String) (r : Report) (body : String)
    (locate : Locator) (trap : TrapWriter) (state : Option UnitState) :
    let o := e.emit now r body locate trap state
    e.Grows o.receipt.line.toList o.engine := by
  intro o
  rcases e.emit_cases now r body locate trap state with
    ⟨cause, _, ho⟩ | ⟨location, _, ⟨cause, _, ho⟩ | ⟨_, ho⟩⟩
  · have ho' : o = _ := ho
    rw [ho']
    exact .refl h
  · have ho' : o = _ := ho
    rw [ho']
    exact .refl h
  · have ho' : o = _ := ho
    rw [ho']
    exact grows_finish h ..

theorem grows_diagnostic (h : e.stream.Unbounded) (now : String) (r : Report) (locate : Locator)
    (trap : TrapWriter) (state : Option UnitState) :
    let o := e.diagnostic now r locate trap state
    e.Grows o.receipt.line.toList o.engine := by
  -- counting a report does nothing to the log
  have hs : e.Grows [] (e.screen r).2 := by
    refine ⟨e.settings_screen r, ?_, ?_⟩
    · rw [stream_screen]
      exact h
    · rw [stream_screen]
      exact (List.append_nil _).symm
  simp only [diagnostic]
  split
  next e' hv =>
    rw [hv] at hs
    exact hs
  next notice e' hv =>
    rw [hv] at hs
    exact hs.trans (grows_emit hs.unbounded ..)

end Engine

namespace Bench

variable {b : Bench}

theorem grows_flush (h : b.engine.stream.Unbounded) :
    b.engine.Grows b.flush.1.line.toList b.flush.2.engine := by
  simp only [flush]
  split
  · exact Engine.grows_flush h
  · exact .refl h

/-- A call adds the line that its receipt tells of, if any. -/
theorem grows_perform (h : b.engine.stream.Unbounded) (now : String) (call : EngineCall) :
    b.engine.Grows (b.perform now call).1.line.toList (b.perform now call).2.engine := by
  cases call with
  | diagnostic report place withState => exact Engine.grows_diagnostic h ..
  | log level text => exact Engine.grows_log h ..
  | enter frame => exact .refl h
  | leave => exact .refl h
  | flushTrap => exact .refl h
  | flushLog => exact Engine.grows_flush h
  | flush => exact grows_flush h

end Bench

namespace Session

variable {s : Session}

theorem grows_step (h : s.engine.stream.Unbounded) (st : Step) :
    s.engine.Grows (s.step st).1.line.toList (s.step st).2.engine := by
  cases hw : s.workers[st.worker]? with
  | none =>
    rw [step, s.act_of_none hw]
    exact .refl h
  | some w =>
    rw [step, s.act_of_getElem? hw]
    exact Bench.grows_perform (b := ⟨s.engine, w⟩) h ..

theorem grows_run (h : s.engine.stream.Unbounded) (steps : List Step) :
    s.engine.Grows (Receipt.lines (s.run steps).1) (s.run steps).2.engine := by
  induction steps generalizing s with
  | nil => exact .refl h
  | cons st rest ih =>
    have hs := grows_step h st
    have hr := hs.trans (ih hs.unbounded)
    rw [run_cons, Receipt.lines_cons]
    exact hr

/-- Over turns the log grows by the lines that the receipts tell of, in their order. -/
theorem grows_turns (h : s.engine.stream.Unbounded) (ts : List Turn) :
    s.engine.Grows (Receipt.lines (s.turns ts).1) (s.turns ts).2.engine := by
  rw [(s.turns_eq_run ts).1, s.lines_turns]
  exact grows_run h _

end Session

end DiagnosticLog
