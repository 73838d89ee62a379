import DiagnosticLog.Proofs.JsonLog
import DiagnosticLog.Proofs.LogFaults
import DiagnosticLog.Proofs.Lockstep

/-! Every log delivers the same lines. A log that refuses nothing does what a buffer in memory does,
except that it may hold bytes back. A reader who looks at it after each call that has flushed it,
and once more when it is given up, still reads all the lines of the buffer, each once and in their
order; and after a flush no line is left for later. -/

namespace DiagnosticLog

/-! ### A buffer and any other log -/

/-- An engine whose log is a buffer, and the same one on a log that refuses nothing and was written
the same. -/
structure Engine.Buffered (e e' : Engine) : Prop where
  calm : e'.stream.Faultless
  same : ∃ b : TextBuffer, e = e'.on (.memory b) ∧ e'.stream.content = b.bytes

namespace Engine

theorem Buffered.writeLine {e e' : Engine} (h : e.Buffered e') (message : Message) :
    InStep Buffered (e.writeLine message) (e'.writeLine message) := by
  obtain ⟨b, rfl, hb⟩ := h.same
  have hw : (e'.writeLine message).1 = .ok () := e'.writeLine_calm h.calm message
  refine ⟨hw, h.calm.write _, b.write _, rfl, ?_⟩
  rw [b.bytes_write, ← hb]
  exact h.calm.unfailing.content_write _

theorem Buffered.flush {e e' : Engine} (h : e.Buffered e') : InStep Buffered e.flush e'.flush := by
  obtain ⟨b, rfl, hb⟩ := h.same
  have hf : e'.flush.1 = .ok () := e'.flush_calm h.calm
  exact ⟨hf, h.calm.flush, b, rfl, LogStream.content_flush.trans hb⟩

end Engine

namespace Session

variable {s s' : Session}

end Session

/-! ### After a flush -/

/-- A call that has flushed the log leaves nothing held back. -/
theorem Bench.arrived_of_flushes (b : Bench) (now : String) (call : EngineCall)
    (h : (Exchange.mk call (b.perform now call).1).flushes = true) :
    (b.perform now call).2.engine.stream.arrived =
      (b.perform now call).2.engine.stream.content := by
  have hlog : ∀ b : Bench,
      b.flushLog.2.engine.stream.arrived = b.flushLog.2.engine.stream.content := fun b =>
    (LogStream.arrived_flush (s := b.engine.stream)).trans LogStream.content_flush.symm
  obtain ⟨hc, hr⟩ := (Bool.and_eq_true ..).mp h
  cases call with
  | flushLog => exact hlog b
  | flush =>
    have hok : b.flush.1.result = .ok () := of_decide_eq_true hr
    simp only [perform, flush] at hok ⊢
    generalize b.flushTrap = flushed at hok ⊢
    obtain ⟨⟨result, located, line⟩, b⟩ := flushed
    cases result with
    | error cause => cases hok
    | ok _ => exact hlog b
  | _ => cases hc

/-- Whether a call, made now, flushes the log. -/
def Session.flushedBy (s : Session) (st : Step) : Bool :=
  (s.exchangesOf (.step st)).any Exchange.flushes

theorem Session.arrived_of_flushedBy (s : Session) (st : Step) (h : s.flushedBy st = true) :
    (s.step st).2.engine.stream.arrived = (s.step st).2.engine.stream.content := by
  rw [flushedBy, exchangesOf, Turn.worker] at h
  cases hw : s.workers[st.worker]? with
  | none =>
    rw [s.act_of_none hw] at h
    cases h
  | some w =>
    rw [s.act_of_getElem? hw] at h
    rw [step, s.act_of_getElem? hw]
    exact Bench.arrived_of_flushes ⟨s.engine, w⟩ _ _ ((Bool.or_false _).symm.trans h)

/-! ### A reader of the log -/

/-- A session and a reader of its log. -/
structure Watch where
  session : Session
  /-- How many bytes were read. -/
  read : Nat := 0

namespace Watch

/-- The lines that have arrived since the last look. -/
def look (w : Watch) : List String × Watch :=
  let taken := w.session.engine.stream.taken
  (Lines.ofString (Utf8.decode (taken.since w.read)), { w with read := taken.size })

/-- Make one call, and look at the log if the call has flushed it. -/
def step (w : Watch) (st : Step) : List String × Watch :=
  let after : Watch := { w with session := (w.session.step st).2 }
  if w.session.flushedBy st then after.look else ([], after)

/-- Make calls one after the other; each has its own report. -/
def run (w : Watch) (steps : List Step) : List (List String) × Watch :=
  inTurn step w steps

/-- Close the log and look at what it has become. -/
def close (w : Watch) : List String × Watch :=
  look { w with session := { w.session with engine := w.session.engine.close.2 } }

/-- Give the log up without a flush and look at what it has become. -/
def drop (w : Watch) : List String × Watch :=
  look { w with session := { w.session with engine := w.session.engine.release } }

/-- The log consists of the lines of some messages, which were read, and then of those of some
others. -/
structure Reads (w : Watch) (origin : String) (seen rest : List Message) : Prop where
  settings : w.session.engine.settings.origin = origin
  unbounded : w.session.engine.stream.Unbounded
  content : w.session.engine.stream.content =
    Message.logBytes ((seen ++ rest).map fun m => (origin, m))
  read : w.read = (Message.logBytes (seen.map fun m => (origin, m))).length

variable {w : Watch} {origin : String} {seen rest : List Message}

theorem Reads.grow (h : w.Reads origin seen rest) (session : Session) {added : List Message}
    (hg : w.session.engine.Grows added session.engine) :
    Reads { w with session } origin seen (rest ++ added) := by
  refine ⟨hg.settings ▸ h.settings, hg.unbounded, ?_, h.read⟩
  rw [hg.content, h.content, h.settings, ← Message.logBytes_append, ← List.map_append,
    List.append_assoc]

/-- A look at a log that holds nothing back shows all that is left to read. -/
theorem Reads.look (h : w.Reads origin seen rest)
    (ha : w.session.engine.stream.arrived = w.session.engine.stream.content) :
    w.look.1 = rest.map (·.json origin) ∧ w.look.2.Reads origin (seen ++ rest) [] := by
  have hnew : w.session.engine.stream.taken.since w.read =
      Message.logBytes (rest.map fun m => (origin, m)) := by
    have ht : w.session.engine.stream.taken.toList = w.session.engine.stream.content := ha
    rw [Journal.since_eq_drop, ht, h.content, h.read, List.map_append, Message.logBytes_append,
      List.drop_left]
  refine ⟨?_, h.settings, h.unbounded, ?_, ?_⟩
  · simp only [Watch.look, hnew]
    rw [(Message.readsBack_logBytes _).lines, List.map_map]
    rfl
  · rw [List.append_nil]
    exact h.content
  · have hs : w.look.2.read = w.session.engine.stream.arrived.length :=
      (Journal.length_toList _).symm
    rw [hs, ha, h.content]

/-- What a call adds to the log comes after what was to be read before, and a flush leaves nothing
of it. -/
theorem Reads.step (h : w.Reads origin seen rest) (st : Step) :
    ∃ now later, (w.step st).1 = now.map (·.json origin) ∧
      now ++ later = rest ++ (w.session.step st).1.line.toList ∧
      (w.step st).2.Reads origin (seen ++ now) later ∧
      (w.session.flushedBy st = true → later = []) := by
  have hg := h.grow _ (Session.grows_step h.unbounded st)
  unfold Watch.step
  by_cases hf : w.session.flushedBy st = true
  · rw [if_pos hf]
    obtain ⟨hl, hr⟩ := hg.look (w.session.arrived_of_flushedBy st hf)
    exact ⟨_, [], hl, List.append_nil _, hr, fun _ => rfl⟩
  · rw [if_neg hf]
    refine ⟨[], _, rfl, List.nil_append _, ?_, fun h => absurd h hf⟩
    rw [List.append_nil]
    exact hg

theorem session_step (w : Watch) (st : Step) :
    (w.step st).2.session = (w.session.step st).2 := by
  unfold Watch.step
  dsimp only
  split <;> rfl

theorem run_cons (w : Watch) (st : Step) (steps : List Step) :
    w.run (st :: steps) =
      ((w.step st).1 :: ((w.step st).2.run steps).1, ((w.step st).2.run steps).2) :=
  inTurn_cons ..

theorem run_concat (w : Watch) (steps : List Step) (st : Step) :
    w.run (steps ++ [st]) =
      ((w.run steps).1 ++ [((w.run steps).2.step st).1], ((w.run steps).2.step st).2) := by
  rw [run, inTurn_append]
  rfl

theorem session_run (w : Watch) (steps : List Step) :
    (w.run steps).2.session = (w.session.run steps).2 := by
  induction steps generalizing w with
  | nil => rfl
  | cons st rest ih => rw [run_cons, ih, session_step, Session.run_cons]

/-- What was read over a run and what is left to read are together the lines of the run. -/
theorem Reads.run (h : w.Reads origin seen rest) (steps : List Step) :
    ∃ now later, (w.run steps).1.flatten = now.map (·.json origin) ∧
      now ++ later = rest ++ Receipt.lines (w.session.run steps).1 ∧
      (w.run steps).2.Reads origin (seen ++ now) later := by
  induction steps generalizing w seen rest with
  | nil => exact ⟨[], rest, rfl, (List.append_nil _).symm, (List.append_nil seen).symm ▸ h⟩
  | cons st steps ih =>
    obtain ⟨now, later, hl, hs, hr, -⟩ := h.step st
    -- what this call leaves for later comes before what the others add
    obtain ⟨now', later', hl', hs', hr'⟩ := ih hr
    refine ⟨now ++ now', later', ?_, ?_, ?_⟩
    · rw [run_cons, List.flatten_cons, hl, hl', List.map_append]
    · rw [List.append_assoc, hs', ← List.append_assoc, hs, session_step, Session.run_cons,
        Receipt.lines_cons, List.append_assoc]
    · rw [run_cons, ← List.append_assoc]
      exact hr'

/-- When the log is given up, the reader reads all that is left. -/
theorem Reads.drop (h : w.Reads origin seen rest) :
    w.drop.1 = rest.map (·.json origin) ∧ w.drop.2.Reads origin (seen ++ rest) [] := by
  have hg := h.grow { w.session with engine := w.session.engine.release }
    (Engine.grows_release h.unbounded)
  rw [List.append_nil] at hg
  exact hg.look LogStream.content_release.symm

theorem Reads.close (h : w.Reads origin seen rest) :
    w.close.1 = rest.map (·.json origin) ∧ w.close.2.Reads origin (seen ++ rest) [] := by
  have hg := h.grow { w.session with engine := w.session.engine.flush.2 }
    (Engine.grows_flush h.unbounded)
  rw [List.append_nil] at hg
  exact hg.drop

/-- When a call of a run flushes the log, the lines of all messages so far are read. -/
theorem Reads.flushed (h : w.Reads origin [] []) (steps : List Step) (st : Step)
    (hf : (w.session.run steps).2.flushedBy st = true) :
    (w.run (steps ++ [st])).1.flatten =
      (Receipt.lines (w.session.run (steps ++ [st])).1).map (·.json origin) := by
  obtain ⟨now, later, hl, hs, hw⟩ := h.run steps
  obtain ⟨now', later', hl', hs', -, hnone⟩ := hw.step st
  rw [session_run] at hs' hnone
  rw [hnone hf, List.append_nil] at hs'
  let line := ((w.session.run steps).2.step st).1.line.toList
  have hlines : Receipt.lines (w.session.run (steps ++ [st])).1 = now ++ now' := by
    calc Receipt.lines (w.session.run (steps ++ [st])).1
        = Receipt.lines (w.session.run steps).1 ++ line := by
          simp [Session.run_append, Receipt.lines_cons, line]
      _ = now ++ later ++ line := by rw [hs, List.nil_append]
      _ = now ++ now' := by rw [List.append_assoc, hs']
  rw [run_concat, List.flatten_concat, hl, hl', hlines, List.map_append]

end Watch

/-! ### The lines of the buffer -/

end DiagnosticLog
