import DiagnosticLog.Proofs.LogLines

/-! Failures of the log stay in the log. A call asks the log for one thing at most, and asks it
last: by then its unit and the counts are what they will be, and nothing is tried again or taken
back. So a program on a log that refuses some writes and some flushes does what it does on a log
that refuses none. It is told of the refusals, each by the call that met it, and their lines are
missing. -/

namespace DiagnosticLog

/-! ### What a call asks of the log -/

/-- The last thing a call does. -/
inductive LogRequest where
  /-- The call ends without the log. -/
  | nothing (receipt : Receipt)
  | line (message : Message) (located : Bool)
  | flush

/-- Whether a call flushes the log, if it comes to its end. -/
def EngineCall.flushesLog : EngineCall → Bool
  | .flushLog | .flush => true
  | _ => false

namespace LogRequest

/-- What the log of an engine makes of a request. -/
def answer (e : Engine) : LogRequest → Receipt × Engine
  | .nothing receipt => (receipt, e)
  | .line message located =>
    ({ result := (e.writeLine message).1, located,
       line := if (e.writeLine message).1 = .ok () then some message else none },
      (e.writeLine message).2)
  | .flush => ({ result := e.flush.1 }, e.flush.2)

/-- Whether a call has asked for a location when it comes to its request. -/
def located : LogRequest → Bool
  | .nothing receipt => receipt.located
  | .line _ located => located
  | .flush => false

theorem located_answer (request : LogRequest) (e : Engine) :
    (request.answer e).1.located = request.located := by
  cases request <;> rfl

/-- A request of a call that flushes the log, or of one that does not. A call that ends without the
log has nothing to tell of it. -/
def Of (flushes : Bool) : LogRequest → Prop
  | .nothing receipt => receipt.line = none ∧
      (∀ cause, receipt.result ≠ .error (.stream cause)) ∧
      (flushes = true → receipt.result ≠ .ok ())
  | .line _ _ => flushes = false
  | .flush => flushes = true

/-- What a call did that has come to its request. -/
def outcome (request : LogRequest) (trap : TrapWriter) (state : Option UnitState) (e : Engine) :
    Outcome :=
  ⟨(request.answer e).1, (request.answer e).2, trap, state⟩

theorem Of.lost (cause : Failure) (located flushes : Bool) :
    Of flushes (.nothing { result := .error (.trap cause), located }) :=
  ⟨rfl, by rintro _ ⟨⟩, by rintro _ ⟨⟩⟩

theorem Of.done : Of false (.nothing .done) := ⟨rfl, by rintro _ ⟨⟩, by rintro ⟨⟩⟩

end LogRequest

namespace Engine

/-- The engine with another log. -/
def on (e : Engine) (stream : LogStream) : Engine := { e with stream }

variable (e : Engine)

theorem finish_eq_outcome (message : Message) (located : Bool) (trap : TrapWriter)
    (state : Option UnitState) :
    e.finish message located trap state =
      (LogRequest.line message located).outcome trap state e :=
  e.finish_eq ..

theorem exists_request_log (now : String) (level : Level) (text : String) (trap : TrapWriter) :
    ∃ request trap', LogRequest.Of false request ∧
      ∀ stream,
        (e.on stream).log now level text trap = request.outcome trap' none (e.on stream) := by
  simp only [log, finish_eq_outcome]
  generalize trap.writeComment _ = written
  obtain ⟨cause | _, trap'⟩ := written
  · exact ⟨.nothing _, trap', .lost cause false false, fun _ => rfl⟩
  · exact ⟨.line _ false, trap', rfl, fun _ => rfl⟩

theorem exists_request_emit (now : String) (r : Report) (body : String) (locate : Locator)
    (trap : TrapWriter) (state : Option UnitState) :
    ∃ request trap' state', LogRequest.Of false request ∧
      ∀ stream, (e.on stream).emit now r body locate trap state =
        request.outcome trap' state' (e.on stream) := by
  have hstore : ∀ stream location trap, (e.on stream).store now r body location trap state =
      e.store now r body location trap state := fun _ _ _ => rfl
  simp only [emit, finish_eq_outcome, hstore]
  obtain ⟨cause | location, trap⟩ := locate trap
  · exact ⟨.nothing _, trap, state, .lost cause true false, fun _ => rfl⟩
  · dsimp only
    obtain ⟨cause | _, trap, state⟩ := e.store now r body location trap state
    · exact ⟨.nothing _, trap, state, .lost cause true false, fun _ => rfl⟩
    · exact ⟨.line _ true, trap, state, rfl, fun _ => rfl⟩

theorem screen_on (stream : LogStream) (r : Report) :
    (e.on stream).screen r = ((e.screen r).1, (e.screen r).2.on stream) := by
  unfold screen on
  cases r.origin <;> rfl

theorem exists_request_diagnostic (now : String) (r : Report) (locate : Locator)
    (trap : TrapWriter) (state : Option UnitState) :
    ∃ request trap' state', LogRequest.Of false request ∧
      ∀ stream, (e.on stream).diagnostic now r locate trap state =
        request.outcome trap' state' ((e.screen r).2.on stream) := by
  simp only [diagnostic, screen_on]
  obtain ⟨_ | notice, e'⟩ := e.screen r
  · exact ⟨.nothing .done, trap, state, .done, fun _ => rfl⟩
  · exact e'.exists_request_emit ..

end Engine

namespace Bench

/-- The bench with another log. -/
def on (b : Bench) (stream : LogStream) : Bench := { b with engine := b.engine.on stream }

/-- What is left of a call when all is done but its request. -/
structure Leaves (b : Bench) (now : String) (call : EngineCall) (request : LogRequest)
    (rest : Bench) : Prop where
  of : request.Of call.flushesLog
  perform : ∀ stream, (b.on stream).perform now call =
    ((request.answer (rest.engine.on stream)).1,
      { rest with engine := (request.answer (rest.engine.on stream)).2 })

/-- A flush that the trap writer refuses does not come to the log. -/
theorem exists_leaves_flush (b : Bench) (now : String) :
    ∃ request rest, b.Leaves now .flush request rest := by
  obtain ⟨result, trap, hf⟩ : ∃ result trap, b.worker.trap.flush = (result, trap) := ⟨_, _, rfl⟩
  let flushed : Bench := { b with worker := { b.worker with trap } }
  have ht : ∀ stream, (b.on stream).flushTrap =
      ({ result := result.mapError .trap }, flushed.on stream) := by
    intro stream
    have ht : (b.on stream).worker.trap.flush = (result, trap) := hf
    simp only [flushTrap, ht]
    rfl
  cases result with
  | error cause =>
    refine ⟨.nothing _, flushed, .lost cause false true, fun stream => ?_⟩
    simp only [perform, flush, ht]
    rfl
  | ok done =>
    refine ⟨.flush, flushed, rfl, fun stream => ?_⟩
    simp only [perform, flush, ht]
    rfl

/-- A call has done all its work before it comes to the log. -/
theorem exists_leaves (b : Bench) (now : String) (call : EngineCall) :
    ∃ request rest, b.Leaves now call request rest := by
  cases call with
  | diagnostic r place withState =>
    obtain ⟨request, trap, state, hq, h⟩ := b.engine.exists_request_diagnostic now r place.locate
      b.worker.trap (b.stateIf withState)
    let after : Worker := (b.settle place (request.outcome trap state b.engine)).2.worker
    refine ⟨request, ⟨(b.engine.screen r).2, after⟩, hq, fun stream => ?_⟩
    have hp : (b.on stream).perform now (.diagnostic r place withState) =
        b.settle place (request.outcome trap state ((b.engine.screen r).2.on stream)) :=
      congrArg (b.settle place) (h stream)
    rw [hp]
    simp only [settle, LogRequest.outcome, LogRequest.located_answer, after]
  | log level text =>
    obtain ⟨request, trap, hq, h⟩ := b.engine.exists_request_log now level text b.worker.trap
    refine ⟨request, { b with worker := { b.worker with trap } }, hq, fun stream => ?_⟩
    have hp : (b.on stream).engine.log now level text (b.on stream).worker.trap =
        request.outcome trap none (b.engine.on stream) := h stream
    simp only [perform, log, hp]
    rfl
  | enter frame => exact ⟨.nothing .done, b.enter frame, .done, fun _ => rfl⟩
  | leave => exact ⟨.nothing .done, b.leave, .done, fun _ => rfl⟩
  | flushTrap =>
    refine ⟨.nothing b.flushTrap.1, b.flushTrap.2, ⟨rfl, ?_, by rintro ⟨⟩⟩, fun _ => rfl⟩
    intro cause
    simp only [flushTrap]
    cases b.worker.trap.flush.1 <;> rintro ⟨⟩
  | flushLog => exact ⟨.flush, b, rfl, fun _ => rfl⟩
  | flush => exact b.exists_leaves_flush now

end Bench

/-! ### What refusals make of a run -/

/-- A call and its receipt. -/
structure Exchange where
  call : EngineCall
  receipt : Receipt
  deriving DecidableEq

namespace Exchange

/-- Whether the log has taken a line of the call. -/
def writes (x : Exchange) : Bool := x.receipt.line.isSome

/-- Whether the log was flushed by the call. -/
def flushes (x : Exchange) : Bool := x.call.flushesLog && decide (x.receipt.result = .ok ())

/-- The exchange if the log refuses the line. -/
def unwritten (x : Exchange) : Exchange :=
  { x with receipt := { x.receipt with result := .error (.stream .sinkClosed), line := none } }

/-- The exchange if the log refuses the flush. -/
def unflushed (x : Exchange) : Exchange :=
  { x with receipt := { x.receipt with result := .error (.stream .flushRefused) } }

end Exchange

namespace ByteSink

/-- The sink once more writes and flushes were made, those of some exchanges, refused ones among
them. -/
def past (sink : ByteSink) (exchanges : List Exchange) : ByteSink :=
  { sink with
    writes := sink.writes + exchanges.countP Exchange.writes
    flushes := sink.flushes + exchanges.countP Exchange.flushes }

/-- What becomes of an exchange if its write or its flush is the next one of a sink. -/
def spoilt (sink : ByteSink) (x : Exchange) : Exchange :=
  if x.writes ∧ sink.refusesWrite sink.writes then x.unwritten
  else if x.flushes ∧ sink.refusesFlush sink.flushes then x.unflushed
  else x

/-- What becomes of the exchanges of a run whose writes and flushes are the next ones of a sink. -/
def spoil (sink : ByteSink) : List Exchange → List Exchange
  | [] => []
  | x :: rest => sink.spoilt x :: (sink.past [x]).spoil rest

/-- The lines that a sink takes if they are written to it one after the other. -/
def accepted (sink : ByteSink) (lines : List Message) : List Message :=
  ((lines.zipIdx sink.writes).filter fun line => !sink.refusesWrite line.2).map Prod.fst

variable (sink : ByteSink)

theorem past_singleton (x : Exchange) :
    sink.past [x] = { sink with
      writes := sink.writes + x.writes.toNat
      flushes := sink.flushes + x.flushes.toNat } := by
  rw [past, List.countP_singleton, List.countP_singleton]
  cases x.writes <;> cases x.flushes <;> rfl

theorem past_append (exchanges more : List Exchange) :
    (sink.past exchanges).past more = sink.past (exchanges ++ more) := by
  simp [past, Nat.add_assoc]

theorem spoil_append (exchanges more : List Exchange) :
    sink.spoil (exchanges ++ more) = sink.spoil exchanges ++ (sink.past exchanges).spoil more := by
  induction exchanges generalizing sink with
  | nil => rfl
  | cons x rest ih =>
    rw [List.cons_append, spoil, ih, past_append]
    rfl

/-- What becomes of an exchange is settled by how many writes and flushes come before its own. -/
theorem getElem?_spoil (exchanges : List Exchange) (k : Nat) :
    (sink.spoil exchanges)[k]? = exchanges[k]?.map (sink.past (exchanges.take k)).spoilt := by
  induction exchanges generalizing sink k with
  | nil => rfl
  | cons x rest ih =>
    cases k with
    | zero => rfl
    | succ k =>
      have hk := ih (sink.past [x]) k
      rw [past_append] at hk
      exact hk

theorem accepted_cons (m : Message) (lines : List Message) :
    sink.accepted (m :: lines) =
      (if sink.refusesWrite sink.writes then [] else [m]) ++
        accepted { sink with writes := sink.writes + 1 } lines := by
  cases h : sink.refusesWrite sink.writes <;> simp [accepted, h]

theorem line_spoilt (x : Exchange) :
    (sink.spoilt x).receipt.line =
      if sink.refusesWrite sink.writes then none else x.receipt.line := by
  have hf : (if x.flushes ∧ sink.refusesFlush sink.flushes then x.unflushed else x).receipt.line =
      x.receipt.line := by
    split <;> rfl
  cases hx : x.receipt.line with
  | none =>
    rw [spoilt, if_neg (by simp [Exchange.writes, hx]), hf, hx, ite_self]
  | some m =>
    rw [hx] at hf
    unfold spoilt
    by_cases hr : sink.refusesWrite sink.writes = true
    · rw [if_pos ⟨by simp [Exchange.writes, hx], hr⟩, if_pos hr]
      rfl
    · rw [if_neg fun h => hr h.2, if_neg hr, hf]

/-- The lines of a run on the sink are those that the sink takes. -/
theorem lines_spoil (exchanges : List Exchange) :
    Receipt.lines ((sink.spoil exchanges).map Exchange.receipt) =
      sink.accepted (Receipt.lines (exchanges.map Exchange.receipt)) := by
  induction exchanges generalizing sink with
  | nil => rfl
  | cons x rest ih =>
    rw [spoil, List.map_cons, Receipt.lines_cons, line_spoilt, ih, List.map_cons,
      Receipt.lines_cons]
    cases hx : x.receipt.line with
    | none => simp [accepted, past, Exchange.writes, hx]
    | some m =>
      rw [Option.toList_some, List.singleton_append, accepted_cons]
      cases sink.refusesWrite sink.writes <;> simp [accepted, past, Exchange.writes, hx]

theorem spoil_singleton (x : Exchange) :
    sink.spoil [x] = [⟨x.call, (sink.spoilt x).receipt⟩] := by
  have hc : (sink.spoilt x).call = x.call := by
    unfold spoilt
    split
    · rfl
    · split <;> rfl
  rw [← hc]
  rfl

/-- A call whose line and whose flush the log did not come to is left as it is. -/
theorem spoilt_of_quiet {x : Exchange} (hw : x.writes = false) (hf : x.flushes = false) :
    sink.spoilt x = x := by
  rw [spoilt, hw, hf]
  simp

variable {sink} in
/-- A sink without a bound takes some bytes whole or refuses them. -/
theorem write_of_unbounded (h : sink.capacity = none) {bytes : List UInt8} (hb : bytes ≠ []) :
    ∃ taken, sink.write bytes =
      (if sink.refusesWrite sink.writes then .error .sinkClosed else .ok (),
        { sink with writes := sink.writes + 1, taken }) := by
  have hf : sink.fitting bytes = bytes := by rw [fitting, h]
  unfold write
  rw [if_neg hb]
  dsimp only
  cases sink.refusesWrite sink.writes with
  | true => exact ⟨sink.taken, rfl⟩
  | false => exact ⟨sink.taken.append bytes, by simp [hf]⟩

end ByteSink

theorem Message.encode_jsonLine_ne_nil (m : Message) (origin : String) :
    Utf8.encode (m.jsonLine origin) ≠ [] := by
  rw [jsonLine, Utf8.encode_append]
  exact List.append_ne_nil_of_right_ne_nil _ (by decide)

/-! ### A run on a log that refuses nothing, and the same run on a sink -/

namespace Engine

variable (e : Engine)

theorem writeLine_calm {stream : LogStream} (h : stream.Faultless) (message : Message) :
    ((e.on stream).writeLine message).1 = .ok () :=
  congrArg (Except.mapError LogError.stream) (h.unfailing.result_write _)

theorem flush_calm {stream : LogStream} (h : stream.Faultless) : (e.on stream).flush.1 = .ok () :=
  congrArg (Except.mapError LogError.stream) h.result_flush

theorem writeLine_sink {sink : ByteSink} (h : sink.capacity = none) (message : Message) :
    ∃ taken, (e.on (.custom sink)).writeLine message =
      (if sink.refusesWrite sink.writes then .error (.stream .sinkClosed) else .ok (),
        e.on (.custom { sink with writes := sink.writes + 1, taken })) := by
  obtain ⟨taken, ht⟩ := ByteSink.write_of_unbounded h
    (message.encode_jsonLine_ne_nil e.settings.origin)
  refine ⟨taken, ?_⟩
  simp only [writeLine, on, LogStream.write, ht]
  cases sink.refusesWrite sink.writes <;> rfl

theorem flush_sink (sink : ByteSink) :
    (e.on (.custom sink)).flush =
      (if sink.refusesFlush sink.flushes then .error (.stream .flushRefused) else .ok (),
        e.on (.custom { sink with flushes := sink.flushes + 1 })) := by
  simp only [flush, on, LogStream.flush, ByteSink.flush]
  cases sink.refusesFlush sink.flushes <;> rfl

end Engine

namespace Exchange

/-- An exchange on a log that refuses nothing: if it came to its line, it went well, and it is not
told of a failure of the log. -/
def Calm (x : Exchange) : Prop :=
  (x.writes = true → x.receipt.result = .ok ()) ∧ ∀ cause, x.receipt.result ≠ .error (.stream cause)

end Exchange

namespace LogRequest

variable {e : Engine} {sink : ByteSink} {call : EngineCall} {request : LogRequest}

/-- A log that refuses nothing answers a request well. -/
theorem answer_calm {stream : LogStream} (h : stream.Faultless)
    (hq : request.Of call.flushesLog) :
    let answer := request.answer (e.on stream)
    (Exchange.mk call answer.1).Calm ∧ ∃ stream', stream'.Faultless ∧ answer.2 = e.on stream' := by
  cases request with
  | nothing receipt =>
    obtain ⟨hl, hs, -⟩ := hq
    exact ⟨⟨by simp [answer, Exchange.writes, hl], hs⟩, stream, h, rfl⟩
  | line message located =>
    have hw := e.writeLine_calm h message
    refine ⟨⟨fun _ => hw, ?_⟩, _, h.write _, rfl⟩
    intro cause
    simp only [answer, hw]
    rintro ⟨⟩
  | flush =>
    have hf := e.flush_calm h
    refine ⟨⟨fun _ => hf, ?_⟩, _, h.flush, rfl⟩
    intro cause
    simp only [answer, hf]
    rintro ⟨⟩

/-- A sink makes of a request what it makes of the answer of a log that refuses nothing. -/
theorem answer_spoilt {stream : LogStream} (h : stream.Faultless) (hs : sink.capacity = none)
    (hq : request.Of call.flushesLog) (taken : Journal UInt8) :
    let x : Exchange := ⟨call, (request.answer (e.on stream)).1⟩
    ∃ taken', request.answer (e.on (.custom { sink with taken })) =
      ((sink.spoilt x).receipt, e.on (.custom { sink.past [x] with taken := taken' })) := by
  intro x
  cases request with
  | nothing receipt =>
    obtain ⟨hl, -, hf⟩ := hq
    have hw : x.writes = false := by simp [x, answer, Exchange.writes, hl]
    have hflush : x.flushes = false := by
      rw [Exchange.flushes, Bool.and_eq_false_imp]
      exact fun hc => decide_eq_false (hf hc)
    refine ⟨taken, ?_⟩
    rw [sink.spoilt_of_quiet hw hflush, sink.past_singleton, hw, hflush]
    rfl
  | line message located =>
    have hx : x = ⟨call, { result := .ok (), located, line := some message }⟩ := by
      simp only [x, answer, e.writeLine_calm h, if_true]
    have hw : x.writes = true := by rw [hx]; rfl
    have hflush : x.flushes = false := by
      rw [Exchange.flushes, hx, hq]
      rfl
    have hs' : ({ sink with taken } : ByteSink).capacity = none := hs
    obtain ⟨taken', ht⟩ := e.writeLine_sink hs' message
    refine ⟨taken', ?_⟩
    rw [answer, ht, sink.past_singleton, ByteSink.spoilt, hw, hflush, hx]
    cases sink.refusesWrite sink.writes <;> rfl
  | flush =>
    have hx : x = ⟨call, { result := .ok () }⟩ := by
      simp only [x, answer, e.flush_calm h]
    have hw : x.writes = false := by rw [hx]; rfl
    have hflush : x.flushes = true := by
      rw [Exchange.flushes, hx, hq]
      rfl
    refine ⟨taken, ?_⟩
    rw [answer, e.flush_sink, sink.past_singleton, ByteSink.spoilt, hw, hflush, hx]
    cases sink.refusesFlush sink.flushes <;> rfl

end LogRequest

/-- What two runs are told, of which the second meets the refusals of a sink, and where they end. -/
structure ByteSink.Spoils (sink : ByteSink) {σ : Type} (R : ByteSink → σ → σ → Prop)
    (x y : List Exchange × σ) : Prop where
  told : y.1 = sink.spoil x.1
  calm : ∀ a ∈ x.1, a.Calm
  state : R (sink.past x.1) x.2 y.2

namespace ByteSink.Spoils

variable {sink : ByteSink} {σ : Type} {R : ByteSink → σ → σ → Prop}
  {told told' more more' : List Exchange} {s s' t t' : σ}

theorem nil (h : R sink s s') : sink.Spoils R ([], s) ([], s') := ⟨rfl, by simp, h⟩

theorem append (h : sink.Spoils R (told, s) (told', s'))
    (h' : (sink.past told).Spoils R (more, t) (more', t')) :
    sink.Spoils R (told ++ more, t) (told' ++ more', t') := by
  refine ⟨?_, ?_, ?_⟩
  · rw [sink.spoil_append, ← h.told, ← h'.told]
  · exact List.forall_mem_append.mpr ⟨h.calm, h'.calm⟩
  · have hs := h'.state
    rwa [sink.past_append] at hs

/-- What follows and tells of nothing may lead somewhere else. -/
theorem moved (h : sink.Spoils R (told, s) (told', s')) (ht : R (sink.past told) t t') :
    sink.Spoils R (told, t) (told', t') :=
  ⟨h.told, h.calm, ht⟩

/-- Only what is told and where the runs end matters. -/
theorem retold (h : sink.Spoils R (told, s) (told', s')) (ht : more = told) (ht' : more' = told') :
    sink.Spoils R (more, s) (more', s') := by
  rw [ht, ht']
  exact h

end ByteSink.Spoils

/-! ### Programs -/

/-- What the calls that events tell of were told, as engine calls. -/
def LoggerKind.exchanges (kind : LoggerKind) (events : List Event) : List Exchange :=
  (events.flatMap Event.answered).map fun a => ⟨a.1.call.engineCall kind, a.2⟩

@[simp] theorem LoggerKind.exchanges_append (kind : LoggerKind) (events more : List Event) :
    kind.exchanges (events ++ more) = kind.exchanges events ++ kind.exchanges more := by
  simp [exchanges]

/-- A bench whose log refuses nothing, and the same one on a sink without a bound, whatever it has
taken. -/
structure Bench.Strained (sink : ByteSink) (b b' : Bench) : Prop where
  unbounded : sink.capacity = none
  calm : b.engine.stream.Faultless
  same : ∃ taken, b' = b.on (.custom { sink with taken })

/-- A call that is not let through would not flush the log. -/
theorem LoggerCall.flushesLog_of_passes {verbosity : Int} {call : LoggerCall}
    (h : call.passes verbosity = false) (kind : LoggerKind) :
    (call.engineCall kind).flushesLog = false := by
  cases call with
  | flush => contradiction
  | _ => rfl

namespace Bench.Strained

variable {sink : ByteSink} {b b' : Bench}

theorem settings (h : b.Strained sink b') : b'.engine.settings = b.engine.settings := by
  obtain ⟨taken, rfl⟩ := h.same
  rfl

theorem enter (h : b.Strained sink b') (frame : Frame) :
    (b.enter frame).Strained sink (b'.enter frame) := by
  obtain ⟨taken, rfl⟩ := h.same
  exact ⟨h.unbounded, h.calm, taken, rfl⟩

theorem leave (h : b.Strained sink b') : b.leave.Strained sink b'.leave := by
  obtain ⟨taken, rfl⟩ := h.same
  exact ⟨h.unbounded, h.calm, taken, rfl⟩

/-- A call does the same on both sides, and is told of the refusal of its own request alone. -/
theorem perform (h : b.Strained sink b') (now : String) (call : EngineCall) :
    sink.Spoils Strained ([⟨call, (b.perform now call).1⟩], (b.perform now call).2)
      ([⟨call, (b'.perform now call).1⟩], (b'.perform now call).2) := by
  obtain ⟨taken, rfl⟩ := h.same
  obtain ⟨request, rest, hl⟩ := b.exists_leaves now call
  have hb : b.perform now call = _ := hl.perform b.engine.stream
  obtain ⟨hcalm, stream, hstream, hrest⟩ := LogRequest.answer_calm (e := rest.engine) h.calm hl.of
  obtain ⟨taken', ht⟩ :=
    LogRequest.answer_spoilt (e := rest.engine) h.calm h.unbounded hl.of taken
  rw [hl.perform, hb, ht]
  let x : Exchange := ⟨call, (request.answer (rest.engine.on b.engine.stream)).1⟩
  refine ⟨(sink.spoil_singleton x).symm, by simpa using hcalm, h.unbounded, ?_, taken', ?_⟩
  · dsimp only
    rw [hrest]
    exact hstream
  · dsimp only
    rw [hrest]
    rfl

theorem performLogger (h : b.Strained sink b') (kind : LoggerKind) (c : Timed LoggerCall) :
    let answer := kind.perform b c.now c.call
    let answer' := kind.perform b' c.now c.call
    sink.Spoils Strained (kind.exchanges [.made [c] [answer.1] answer.2], answer.2)
      (kind.exchanges [.made [c] [answer'.1] answer'.2], answer'.2) := by
  simp only [kind.perform_eq, h.settings]
  cases hp : c.call.passes b.engine.settings.verbosity with
  | true => exact h.perform c.now (c.call.engineCall kind)
  | false =>
    let x : Exchange := ⟨c.call.engineCall kind, .done⟩
    have hf : x.flushes = false := by
      rw [Exchange.flushes, LoggerCall.flushesLog_of_passes hp]
      rfl
    have hpast : sink.past [x] = sink := by
      rw [sink.past_singleton, hf]
      rfl
    refine ⟨?_, ?_, ?_⟩
    · exact congrArg (fun y => [y]) (sink.spoilt_of_quiet (x := x) rfl hf).symm
    · intro a ha
      obtain rfl : a = x := List.mem_singleton.mp ha
      exact ⟨fun _ => rfl, by rintro _ ⟨⟩⟩
    · have hs : b.Strained (sink.past [x]) b' := hpast.symm ▸ h
      exact hs

theorem performAllLogger (h : b.Strained sink b') (kind : LoggerKind)
    (cs : List (Timed LoggerCall)) :
    let answers := kind.performAll b cs
    let answers' := kind.performAll b' cs
    sink.Spoils Strained (kind.exchanges [.made cs answers.1 answers.2], answers.2)
      (kind.exchanges [.made cs answers'.1 answers'.2], answers'.2) := by
  induction cs generalizing sink b b' with
  | nil => exact .nil h
  | cons c rest ih =>
    have hc := h.performLogger kind c
    have hr := ih hc.state
    have ha : ∀ b, kind.performAll b (c :: rest) = _ := fun b => inTurn_cons ..
    rw [ha, ha]
    exact hc.append hr

/-- A program ends in the same way on both sides. -/
theorem script (h : b.Strained sink b') (kind : LoggerKind) (script : Script) :
    let run := script.run kind b
    let run' := script.run kind b'
    run'.exit = run.exit ∧ sink.Spoils Strained (kind.exchanges run.events, run.bench)
      (kind.exchanges run'.events, run'.bench) := by
  induction script generalizing sink b b' with
  | done | leave | bail => exact ⟨rfl, .nil h⟩
  | look rest ih => exact ih h
  | calls cs rest ih =>
    have hc := h.performAllLogger kind cs
    obtain ⟨he, hr⟩ := ih hc.state
    exact ⟨he, (hc.append hr).retold (kind.exchanges_append ..) (kind.exchanges_append ..)⟩
  | within frame body rest ihb ihr =>
    obtain ⟨he, hb⟩ := ihb (h.enter frame)
    have hout := hb.moved hb.state.leave
    obtain ⟨he', hr⟩ := ihr hout.state
    simp only [Script.run, he]
    cases (body.run kind (b.enter frame)).exit with
    | bailed => exact ⟨rfl, hout⟩
    | finished | left =>
      refine ⟨he', (hout.append hr).retold ?_ ?_⟩ <;>
        simp [ScriptRun.after, LoggerKind.exchanges, Event.answered]
  | guarded body rest ihb ihr =>
    obtain ⟨he, hb⟩ := ihb h
    obtain ⟨he', hr⟩ := ihr hb.state
    simp only [Script.run, he]
    refine ⟨he', (hb.append hr).retold ?_ ?_⟩ <;>
      cases (body.run kind b).exit <;> simp [ScriptRun.after, LoggerKind.exchanges, Event.answered]

theorem runUnit (h : b.Strained sink b') (kind : LoggerKind) (script : Script) :
    let run := script.runUnit kind b
    let run' := script.runUnit kind b'
    sink.Spoils Strained (kind.exchanges run.1, run.2) (kind.exchanges run'.1, run'.2) := by
  have hx : ∀ b, kind.exchanges (script.runUnit kind b).1 =
      kind.exchanges (script.run kind b).events := by
    intro b
    simp only [Script.runUnit]
    cases (script.run kind b).exit <;> simp [LoggerKind.exchanges, Event.answered]
  exact (h.script kind script).2.retold (hx b) (hx b')

end Bench.Strained

/-! ### Turns -/

/-- A session whose log refuses nothing, and the same one on a sink without a bound. -/
structure Session.Strained (sink : ByteSink) (s s' : Session) : Prop where
  unbounded : sink.capacity = none
  calm : s.engine.stream.Faultless
  engine : ∃ taken, s'.engine = s.engine.on (.custom { sink with taken })
  workers : s'.workers = s.workers

/-- The unit whose turn it is. -/
def Turn.worker : Turn → Nat
  | .step st => st.worker
  | .program i _ _ => i

/-- What a unit does in its turn, and what its calls are told. -/
def Turn.deed : Turn → Bench → List Exchange × Bench
  | .step st, b =>
    let answer := b.perform st.timed.now st.timed.call
    ([⟨st.timed.call, answer.1⟩], answer.2)
  | .program _ kind script, b =>
    let answer := script.runUnit kind b
    (kind.exchanges answer.1, answer.2)

namespace Session

/-- What the calls of a turn were told. A unit that does not exist makes none. -/
def exchangesOf (s : Session) (t : Turn) : List Exchange := (s.act t.worker [] t.deed).1

/-- What the calls of a run were told. -/
def exchanges (s : Session) : List Turn → List Exchange
  | [] => []
  | t :: ts => s.exchangesOf t ++ (s.turn t).2.exchanges ts

theorem turn_eq_act (s : Session) (t : Turn) : (s.turn t).2 = (s.act t.worker [] t.deed).2 := by
  cases t with
  | step st =>
    have ha : (s.turn (.step st)).2 = (s.act st.worker Receipt.done fun b =>
        b.perform st.timed.now st.timed.call).2 := rfl
    rw [ha]
    exact s.act_congr fun _ _ => rfl
  | program i kind script =>
    have ha : (s.turn (.program i kind script)).2 = (s.act i [] (script.runUnit kind)).2 := rfl
    rw [ha]
    exact s.act_congr fun _ _ => rfl

/-- The receipts of a turn that tell of something are those of its exchanges. -/
theorem busy_turn (s : Session) (t : Turn) :
    Receipt.busy (s.turn t).1 = Receipt.busy ((s.exchangesOf t).map Exchange.receipt) := by
  rw [exchangesOf]
  cases t with
  | step st =>
    simp only [turn, step, Turn.worker]
    cases hw : s.workers[st.worker]? with
    | none =>
      rw [s.act_of_none hw, s.act_of_none hw]
      rfl
    | some w =>
      rw [s.act_of_getElem? hw, s.act_of_getElem? hw]
      rfl
  | program i kind script =>
    simp only [turn, Turn.worker]
    cases hw : s.workers[i]? with
    | none =>
      rw [s.act_of_none hw, s.act_of_none hw]
      rfl
    | some w =>
      rw [s.act_of_getElem? hw, s.act_of_getElem? hw]
      simp only [Turn.deed, LoggerKind.exchanges, List.map_map,
        (script.runUnit_does kind _).receipts]
      rfl

theorem busy_turns (s : Session) (ts : List Turn) :
    Receipt.busy (s.turns ts).1 = Receipt.busy ((s.exchanges ts).map Exchange.receipt) := by
  induction ts generalizing s with
  | nil => rfl
  | cons t ts ih =>
    rw [turns_cons, exchanges, List.map_append, Receipt.busy_append, Receipt.busy_append, ih,
      s.busy_turn]

namespace Strained

variable {sink : ByteSink} {s s' : Session}

/-- What a unit does on both sides, it does in the session. -/
theorem act (h : s.Strained sink s') (i : Nat) (deed : Bench → List Exchange × Bench)
    (hd : ∀ b b', Bench.Strained sink b b' → sink.Spoils Bench.Strained (deed b) (deed b')) :
    sink.Spoils Strained (s.act i [] deed) (s'.act i [] deed) := by
  obtain ⟨taken, he⟩ := h.engine
  have hi : s'.workers[i]? = s.workers[i]? := congrArg (·[i]?) h.workers
  cases hw : s.workers[i]? with
  | none =>
    rw [s.act_of_none hw, s'.act_of_none (hi.trans hw)]
    exact .nil h
  | some w =>
    have hb : Bench.Strained sink ⟨s.engine, w⟩ ⟨s'.engine, w⟩ :=
      ⟨h.unbounded, h.calm, taken, by rw [he]; rfl⟩
    have hd := hd _ _ hb
    obtain ⟨taken', hsame⟩ := hd.state.same
    rw [s.act_of_getElem? hw, s'.act_of_getElem? (hi.trans hw)]
    refine ⟨hd.told, hd.calm, hd.state.unbounded, hd.state.calm, ⟨taken', ?_⟩, ?_⟩
    · exact congrArg Bench.engine hsame
    · rw [h.workers, hsame]
      rfl

theorem turn (h : s.Strained sink s') (t : Turn) :
    sink.Spoils Strained (s.exchangesOf t, (s.turn t).2) (s'.exchangesOf t, (s'.turn t).2) := by
  rw [s.turn_eq_act, s'.turn_eq_act]
  refine h.act t.worker t.deed fun b b' hb => ?_
  cases t with
  | step st => exact hb.perform st.timed.now st.timed.call
  | program i kind script => exact hb.runUnit kind script

theorem turns (h : s.Strained sink s') (ts : List Turn) :
    sink.Spoils Strained (s.exchanges ts, (s.turns ts).2) (s'.exchanges ts, (s'.turns ts).2) := by
  induction ts generalizing sink s s' with
  | nil => exact .nil h
  | cons t ts ih =>
    have ht := h.turn t
    have hts := ih ht.state
    rw [turns_cons, turns_cons]
    exact ht.append hts

end Strained

end Session

/-- The session with another log. -/
def Session.on (s : Session) (stream : LogStream) : Session :=
  { s with engine := s.engine.on stream }

theorem Session.lines_exchanges (s : Session) (ts : List Turn) :
    Receipt.lines ((s.exchanges ts).map Exchange.receipt) = Receipt.lines (s.turns ts).1 := by
  rw [← Receipt.lines_busy, ← s.busy_turns, Receipt.lines_busy]

/-- Failures of the log are isolated. A run on a sink that refuses some writes and some flushes, and
takes nothing of what it refuses, leaves every unit and every count as they are after the same run
on a log that refuses nothing. The sink has met as many writes and flushes as if it had refused
none. Every call is told the same, unless the sink refused the write or the flush that was its own:
then it is told of that, where all went well on the other log. The sink has taken the lines of the
other log without those of the refused writes. -/
theorem log_failures_are_isolated (s : Session) (sink : ByteSink) (calm : LogStream)
    (ts : List Turn) (hsink : sink.capacity = none) (hcalm : calm.Faultless) :
    let whole := s.on calm
    let failing := s.on (.custom sink)
    let after := (whole.turns ts).2
    let after' := (failing.turns ts).2
    let told := whole.exchanges ts
    let lines := Receipt.lines (whole.turns ts).1
    let bytes (lines : List Message) : List UInt8 :=
      Message.logBytes (lines.map fun m => (s.engine.settings.origin, m))
    after'.workers = after.workers ∧
    (∀ key, after'.engine.occurrences key = after.engine.occurrences key) ∧
    (∃ taken, after'.engine = after.engine.on (.custom { sink.past told with taken })) ∧
    (∀ run : Session,
      Receipt.busy (run.turns ts).1 = Receipt.busy ((run.exchanges ts).map Exchange.receipt)) ∧
    (∀ x ∈ told, x.Calm) ∧
    (∀ k, (failing.exchanges ts)[k]? = told[k]?.map (sink.past (told.take k)).spoilt) ∧
    after.engine.stream.content = calm.content ++ bytes lines ∧
    after'.engine.stream.content = sink.contents ++ bytes (sink.accepted lines) ∧
    after.engine.close.1 = .ok () ∧
    after'.engine.close.1 =
      if sink.refusesFlush (sink.past told).flushes then .error (.stream .flushRefused)
      else .ok () := by
  intro whole failing after after' told lines bytes
  have hs : whole.Strained sink failing := ⟨hsink, hcalm, ⟨sink.taken, rfl⟩, rfl⟩
  have h := hs.turns ts
  have hstate : after.Strained (sink.past told) after' := h.state
  have htold : failing.exchanges ts = sink.spoil told := h.told
  obtain ⟨taken, he⟩ := hstate.engine
  have hlines : Receipt.lines (failing.turns ts).1 = sink.accepted lines := by
    rw [← failing.lines_exchanges, htold, sink.lines_spoil, whole.lines_exchanges]
  refine ⟨hstate.workers, ?_, ⟨taken, he⟩, fun run => run.busy_turns ts, h.calm, ?_, ?_, ?_, ?_, ?_⟩
  · intro key
    rw [he]
    rfl
  · intro k
    rw [htold, sink.getElem?_spoil]
  · exact (Session.grows_turns (s := whole) hcalm.unfailing.unbounded ts).content
  · have hc := (Session.grows_turns (s := failing) hsink ts).content
    rw [hlines] at hc
    exact hc
  · exact after.engine.flush_calm hstate.calm
  · have hclose : after'.engine.close.1 = after'.engine.flush.1 := rfl
    rw [hclose, he, Engine.flush_sink]
    rfl

/-- Of two messages the sink refuses the second, and then it refuses to be flushed. -/
theorem log_failures_are_isolated_second_line :
    let unit : Worker := { trap := .recording fun _ _ => false, state := { fileNumber := 7 } }
    let s : Session := ⟨.ofStream {} .stdout, [unit]⟩
    let sink : ByteSink := { refusesWrite := fun n => n == 1, refusesFlush := fun _ => true }
    let ts : List Turn := [.program 0 .file
      (.calls [⟨"t", .info "kept"⟩, ⟨"t", .info "lost"⟩, ⟨"t", .flush⟩] .bail)]
    sink.capacity = none ∧ LogStream.Faultless (.memory {}) ∧
    ((s.on (.custom sink)).turns ts).2.workers = ((s.on (.memory {})).turns ts).2.workers ∧
    ((s.on (.custom sink)).exchanges ts)[1]? =
      some ⟨.log .info "lost", { result := .error (.stream .sinkClosed) }⟩ ∧
    ((s.on (.custom sink)).exchanges ts)[2]? =
      some ⟨.flush, { result := .error (.stream .flushRefused) }⟩ := by
  intro unit s sink ts
  obtain ⟨hworkers, -, -, -, -, htold, -⟩ :=
    log_failures_are_isolated s sink (.memory {}) ts rfl trivial
  exact ⟨rfl, trivial, hworkers, (htold 1).trans rfl, (htold 2).trans rfl⟩

end DiagnosticLog
