import DiagnosticLog.Proofs.Mirrors
import DiagnosticLog.Proofs.Remarks
import DiagnosticLog.Proofs.Scopes

/-! Verbosity only filters. A call that is not let through leaves labels and numbers untaken, but
these are said nowhere else; and it is counted under a key that no call let through has. So where
nothing is refused, the calls that are let through at the lower of two verbosities say what they say
at the higher one. -/

namespace DiagnosticLog

/-! ### Levels -/

/-- The level of a call that has something to say. -/
def EngineCall.level? : EngineCall → Option Level
  | .diagnostic r _ _ => some r.severity.level
  | .log level _ => some level
  | _ => none

/-- Whether a verbosity lets a call through; a call that says nothing always passes. -/
def EngineCall.passes (verbosity : Int) (call : EngineCall) : Bool :=
  call.level?.all fun level => level.allowedAt verbosity

def Step.passes (verbosity : Int) (st : Step) : Bool := st.timed.call.passes verbosity

def Saying.passes (verbosity : Int) (said : Saying) : Bool := said.step.passes verbosity

theorem LoggerCall.passes_engineCall (kind : LoggerKind) (verbosity : Int) (call : LoggerCall) :
    (call.engineCall kind).passes verbosity = call.passes verbosity := by
  cases call <;> rfl

theorem Level.allowedAt_mono {level : Level} {v v' : Int} (hv : v ≤ v')
    (h : level.allowedAt v = true) : level.allowedAt v' = true := by
  rw [allowedAt, decide_eq_true_eq] at h ⊢
  exact Int.le_trans h hv

theorem LoggerCall.passes_mono {call : LoggerCall} {v v' : Int} (hv : v ≤ v')
    (h : call.passes v = true) : call.passes v' = true := by
  unfold passes at h ⊢
  cases hl : call.level with
  | none => rfl
  | some level =>
    rw [hl] at h
    exact Level.allowedAt_mono hv h

/-- The engine calls of a logger call at the lower verbosity are those at the higher one that pass.
-/
theorem LoggerCall.engineCalls_filter (kind : LoggerKind) {v v' : Int} (hv : v ≤ v')
    (c : Timed LoggerCall) :
    engineCalls kind v c = (engineCalls kind v' c).filter fun timed => timed.call.passes v := by
  have hf := c.call.passes_engineCall kind v
  unfold engineCalls
  rw [← passes, ← passes]
  cases hp : c.call.passes v with
  | true => simp [passes_mono hv hp, hf, hp]
  | false => cases c.call.passes v' <;> simp [hf, hp]

/-- The row of a program at the lower verbosity has the calls of the row at the higher one that
pass, and the program ends in the same way. -/
theorem Script.flatten_filter (kind : LoggerKind) {v v' : Int} (hv : v ≤ v') (script : Script) :
    script.flatten kind v =
      ((script.flatten kind v').1,
        (script.flatten kind v').2.filter fun timed => timed.call.passes v) := by
  have hframe : ∀ frame, (EngineCall.enter frame).passes v = true := fun _ => rfl
  have hleave : EngineCall.leave.passes v = true := rfl
  induction script with
  | done | leave | bail => rfl
  | look rest ih => exact ih
  | calls cs rest ih =>
    have hcs : cs.flatMap (LoggerCall.engineCalls kind v) =
        (cs.flatMap (LoggerCall.engineCalls kind v')).filter fun timed => timed.call.passes v := by
      rw [List.filter_flatMap]
      congr 1
      funext c
      exact LoggerCall.engineCalls_filter kind hv c
    simp only [flatten, ih, hcs, List.filter_append]
  | within frame body rest ihb ihr =>
    simp only [flatten, ihb]
    cases (body.flatten kind v').1 with
    | bailed => simp [hframe, hleave]
    | finished | left => simp [ihr, hframe, hleave]
  | guarded body rest ihb ihr => simp only [flatten, ihb, ihr, List.filter_append]

/-! ### Turns of loggers -/

/-- Whether a turn runs a program of a logger, or makes a call that has nothing to say. -/
def Turn.isLogging : Turn → Bool
  | .step st => st.timed.call.level?.isNone
  | .program .. => true

theorem EngineCall.storesNone_of_level? {call : EngineCall} (h : call.level?.isNone = true) :
    call.storesNone = true := by
  cases call with
  | diagnostic | log => contradiction
  | _ => rfl

/-- A logger asks for the unknown location or for that of an element, which stores nothing. -/
theorem LoggerCall.storesNone_engineCall (kind : LoggerKind) (call : LoggerCall) :
    (call.engineCall kind).storesNone = true := by
  cases call <;> rfl

namespace Turn

theorem isCommon_of_isLogging {t : Turn} (h : t.isLogging = true) : t.isCommon = true := by
  cases t with
  | program => rfl
  | step st =>
    obtain ⟨worker, now, call⟩ := st
    cases call with
    | diagnostic | log => contradiction
    | _ => rfl

theorem storesNone_steps {t : Turn} (h : t.isLogging = true) (verbosity : Int) :
    ∀ st ∈ t.steps verbosity, st.timed.call.storesNone = true := by
  intro st hm
  cases t with
  | step st' =>
    rw [List.mem_singleton.mp hm]
    exact EngineCall.storesNone_of_level? h
  | program i kind script =>
    obtain ⟨timed, hrow, rfl⟩ := List.mem_map.mp hm
    exact script.forall_flatten (fun call => call.storesNone = true) kind (fun _ => rfl) rfl
      (LoggerCall.storesNone_engineCall kind) verbosity timed hrow

/-- The calls of a turn at the lower verbosity are those at the higher one that pass. -/
theorem steps_filter {t : Turn} (h : t.isLogging = true) {v v' : Int} (hv : v ≤ v') :
    t.steps v = (t.steps v').filter (Step.passes v) := by
  cases t with
  | step st =>
    have hp : st.passes v = true := by
      rw [Step.passes, EngineCall.passes, Option.isNone_iff_eq_none.mp h, Option.all_none]
    simp [steps, hp]
  | program i kind script =>
    rw [steps, steps, script.flatten_filter kind hv, List.filter_map]
    rfl

theorem flatMap_steps_filter {ts : List Turn} (h : ∀ t ∈ ts, t.isLogging = true) {v v' : Int}
    (hv : v ≤ v') :
    ts.flatMap (steps v) = (ts.flatMap (steps v')).filter (Step.passes v) := by
  induction ts with
  | nil => rfl
  | cons t rest ih =>
    rw [List.flatMap_cons, List.flatMap_cons, List.filter_append,
      steps_filter (h t List.mem_cons_self) hv,
      ih fun t' hm => h t' (List.mem_cons_of_mem t hm)]

end Turn

/-! ### Two verbosities -/

/-- Engines of which the second has heard only the calls that pass at a verbosity. -/
structure Engine.Quieter (v : Int) (e e' : Engine) : Prop where
  origin : e'.settings.origin = e.settings.origin
  limit : e'.tally.limit = e.tally.limit
  counts : ∀ key : Tally.Key, key.severity.level.allowedAt v = true →
    e'.occurrences key = e.occurrences key

namespace Bench

/-- Benches of which the second has heard only the calls that pass. Their writers need not have
anything in common. -/
structure Quieter (v : Int) (b b' : Bench) : Prop where
  engine : b.engine.Quieter v b'.engine
  trail : b'.trail = b.trail

variable {v : Int} {b b' : Bench}

/-- What a call does to the trail does not depend on anything but the trail. -/
theorem trail_perform_congr (h : b'.trail = b.trail) (now : String) (call : EngineCall) :
    (b'.perform now call).2.trail = (b.perform now call).2.trail := by
  cases hf : call.isFraming with
  | false => rw [b.trail_perform hf, b'.trail_perform hf, h]
  | true =>
    cases call with
    | enter frame => simp only [perform, trail_enter, h]
    | leave => simp only [perform, trail_leave, h]
    | _ => contradiction

/-- A report that passes is admitted alike. -/
theorem Quieter.screen (h : b.Quieter v b') {r : Report}
    (hr : r.severity.level.allowedAt v = true) :
    (b'.engine.screen r).1 = (b.engine.screen r).1 := by
  cases ho : r.origin with
  | none => rw [Engine.screen_of_none _ ho, Engine.screen_of_none _ ho]
  | some o =>
    rw [Engine.screen_of_some _ ho, Engine.screen_of_some _ ho, h.engine.limit,
      h.engine.counts ⟨o, r.severity⟩ hr]

/-- A call that passes says the same on both sides. -/
theorem Quieter.said (h : b.Quieter v b') (now : String) {call : EngineCall}
    (hv : call.passes v = true) : b'.said now call = b.said now call := by
  cases call with
  | diagnostic r place withState =>
    have htrail : UnitState.trailLines (b'.stateIf withState) =
        UnitState.trailLines (b.stateIf withState) := by
      cases withState with
      | false => rfl
      | true => exact congrArg Trail.lines h.trail
    simp only [Bench.said, h.screen hv, htrail, Engine.said, Engine.row, h.engine.origin]
  | _ => rfl

/-- A call on both sides keeps them in step. -/
theorem Quieter.perform (h : b.Quieter v b') (now : String) (call : EngineCall) :
    (b.perform now call).2.Quieter v (b'.perform now call).2 := by
  refine ⟨⟨?_, ?_, fun key hk => ?_⟩, trail_perform_congr h.trail now call⟩
  · rw [settings_perform, settings_perform, h.engine.origin]
  · rw [limit_perform, limit_perform, h.engine.limit]
  · rw [occurrences_perform, occurrences_perform, h.engine.counts key hk]

/-- A call that does not pass can be made on the one side alone: it is counted under a key that no
call has that passes. -/
theorem Quieter.skip (h : b.Quieter v b') (now : String) {call : EngineCall}
    (hv : call.passes v = false) : (b.perform now call).2.Quieter v b' := by
  have hf : call.isFraming = false := by
    cases call with
    | enter | leave => contradiction
    | _ => rfl
  have hkey : ∀ key : Tally.Key, key.severity.level.allowedAt v = true →
      call.key? ≠ some key := by
    intro key hk hkey
    cases call with
    | diagnostic r place withState =>
      obtain ⟨o, -, rfl⟩ := Option.map_eq_some_iff.mp hkey
      rw [EngineCall.passes, EngineCall.level?, Option.all_some, hk] at hv
      contradiction
    | _ => cases hkey
  refine ⟨⟨?_, ?_, fun key hk => ?_⟩, h.trail.trans (b.trail_perform hf now).symm⟩
  · rw [settings_perform, h.engine.origin]
  · rw [limit_perform, h.engine.limit]
  · rw [occurrences_perform, if_neg (hkey key hk), Nat.add_zero, h.engine.counts key hk]

end Bench

/-! ### Runs at two verbosities -/

namespace Session

/-- The same session at another verbosity. -/
def withVerbosity (s : Session) (verbosity : Int) : Session :=
  { s with engine := { s.engine with settings := { s.engine.settings with verbosity } } }

theorem Retold.withVerbosity {s s' : Session} (h : s.Retold s') (verbosity : Int) :
    (s.withVerbosity verbosity).Retold (s'.withVerbosity verbosity) := by
  refine ⟨?_, h.workers⟩
  rw [Session.withVerbosity, Session.withVerbosity, h.engine]

/-- The trails of the units. -/
def trails (s : Session) : List Trail := s.workers.map fun w => w.state.trail

/-- Sessions of which the second has heard only the calls that pass. -/
structure Quieter (v : Int) (s s' : Session) : Prop where
  engine : s.engine.Quieter v s'.engine
  trails : s'.trails = s.trails

variable {v : Int} {s s' : Session}

/-- A unit exists on both sides or on neither. -/
theorem Quieter.worker (h : s.Quieter v s') (i : Nat) :
    (s.workers[i]? = none ∧ s'.workers[i]? = none) ∨
      ∃ w w', s.workers[i]? = some w ∧ s'.workers[i]? = some w' ∧
        Bench.Quieter v ⟨s.engine, w⟩ ⟨s'.engine, w'⟩ := by
  have hi := congrArg (fun trails : List Trail => trails[i]?) h.trails
  simp only [Session.trails, List.getElem?_map] at hi
  cases hw : s.workers[i]? with
  | none =>
    rw [hw] at hi
    exact .inl ⟨rfl, Option.map_eq_none_iff.mp hi⟩
  | some w =>
    rw [hw] at hi
    obtain ⟨w', hw', ht⟩ := Option.map_eq_some_iff.mp hi
    exact .inr ⟨w, w', rfl, hw', h.engine, ht⟩

/-- A unit takes over what its benches became; the others stay as they are. -/
theorem Quieter.set (h : s.Quieter v s') (i : Nat) {b b' : Bench} (hb : b.Quieter v b') :
    Session.Quieter v ⟨b.engine, s.workers.set i b.worker⟩
      ⟨b'.engine, s'.workers.set i b'.worker⟩ := by
  refine ⟨hb.engine, ?_⟩
  have ht : b'.worker.state.trail = b.worker.state.trail := hb.trail
  have hs : s'.workers.map (fun w => w.state.trail) = s.workers.map fun w => w.state.trail :=
    h.trails
  rw [Session.trails, Session.trails, List.map_set, List.map_set, ht, hs]

/-- A call that passes says the same on both sides. -/
theorem Quieter.step (h : s.Quieter v s') (hs : s.Ready) (hs' : s'.Ready) {st : Step}
    (hc : st.timed.call.storesNone = true) (hv : st.passes v = true) :
    (Moment.mk s' st).saying = (Moment.mk s st).saying ∧
      (s.step st).2.Quieter v (s'.step st).2 := by
  simp only [Moment.saying, Moment.receipt, Saying.mk.injEq, true_and]
  rcases h.worker st.worker with ⟨hw, hw'⟩ | ⟨w, w', hw, hw', hb⟩
  · have hstep : s.step st = (.done, s) := s.act_of_none hw ..
    have hstep' : s'.step st = (.done, s') := s'.act_of_none hw' ..
    simp only [Moment.added, hstep, hstep', List.drop_length, and_self, true_and]
    exact h
  · obtain ⟨hr, hadded, -⟩ := hs.step_self hc hw
    obtain ⟨hr', hadded', -⟩ := hs'.step_self hc hw'
    refine ⟨?_, ?_⟩
    · rw [hr, hr', hadded, hadded', hb.said st.timed.now hv]
      exact ⟨rfl, rfl⟩
    · rw [Session.step, Session.step, s.act_of_getElem? hw, s'.act_of_getElem? hw']
      exact h.set st.worker (hb.perform st.timed.now st.timed.call)

/-- A call that does not pass is not missed on the other side. -/
theorem Quieter.skip (h : s.Quieter v s') {st : Step} (hv : st.passes v = false) :
    (s.step st).2.Quieter v s' := by
  rcases h.worker st.worker with ⟨hw, _⟩ | ⟨w, w', hw, hw', hb⟩
  · have hstep : s.step st = (.done, s) := s.act_of_none hw ..
    rw [hstep]
    exact h
  · obtain ⟨hlt, rfl⟩ := List.getElem?_eq_some_iff.mp hw'
    have hset := h.set st.worker (hb.skip st.timed.now hv)
    rw [List.set_getElem_self] at hset
    rw [Session.step, s.act_of_getElem? hw]
    exact hset

/-- In a run from which the calls are left out that do not pass, all others say what they said. -/
theorem Quieter.run (h : s.Quieter v s') (hs : s.Ready) (hs' : s'.Ready) {steps : List Step}
    (hc : ∀ st ∈ steps, st.timed.call.storesNone = true) :
    let heard := steps.filter (Step.passes v)
    (s'.history heard).map Moment.saying =
        ((s.history steps).map Moment.saying).filter (Saying.passes v) ∧
      (s.run steps).2.Quieter v (s'.run heard).2 := by
  induction steps generalizing s s' with
  | nil => exact ⟨rfl, h⟩
  | cons st rest ih =>
    have hst := hc st List.mem_cons_self
    have hrest : ∀ st' ∈ rest, st'.timed.call.storesNone = true :=
      fun st' hm => hc st' (List.mem_cons_of_mem st hm)
    obtain ⟨-, hready⟩ := hs.step hst
    have hpasses : (Moment.mk s st).saying.passes v = st.passes v := rfl
    dsimp only
    rw [run_cons, history, List.map_cons]
    cases hv : st.passes v with
    | true =>
      obtain ⟨-, hready'⟩ := hs'.step hst
      obtain ⟨hsaid, hq⟩ := h.step hs hs' hst hv
      obtain ⟨hlater, hafter⟩ := ih hq hready hready' hrest
      rw [List.filter_cons_of_pos hv, List.filter_cons_of_pos (hpasses.trans hv), run_cons, history,
        List.map_cons, hsaid, hlater]
      exact ⟨rfl, hafter⟩
    | false =>
      obtain ⟨hlater, hafter⟩ := ih (h.skip hv) hready hs' hrest
      rw [List.filter_cons_of_neg (Bool.eq_false_iff.mp hv),
        List.filter_cons_of_neg (Bool.eq_false_iff.mp (hpasses.trans hv)), hlater]
      exact ⟨rfl, hafter⟩

end Session

/-- Verbosity only filters. Let the same turns of loggers be run at two verbosities, in sessions
that begin alike and in which nothing is refused. Then the calls at the lower verbosity are those at
the higher one that it lets through, and each is told what it is told there and adds the same
comments and diagnostics, labels apart. All that is said, to the callers, in the log and by the
units, is said by these calls. What the lower verbosity lets through is counted alike. And units
that write text instead of keeping records change nothing at any verbosity, but that their text is
that of the records. -/
theorem verbosity_only_filters {s : Session} (hs : s.Ready) {v v' : Int} (hv : v ≤ v')
    {ts : List Turn} (ht : ∀ t ∈ ts, t.isLogging = true) :
    let chatty := s.withVerbosity v'
    let terse := s.withVerbosity v
    terse.sayings ts = (chatty.sayings ts).filter (Saying.passes v) ∧
    chatty.SaidBy (chatty.sayings ts) (chatty.turns ts) ∧
    terse.SaidBy (terse.sayings ts) (terse.turns ts) ∧
    (∀ key : Tally.Key, key.severity.level.allowedAt v = true →
      (terse.turns ts).2.engine.occurrences key = (chatty.turns ts).2.engine.occurrences key) ∧
    ∀ (text : Session) (verbosity : Int), s.Retold text →
      let kept := (s.withVerbosity verbosity).turns ts
      let written := (text.withVerbosity verbosity).turns ts
      written.1 = kept.1 ∧ written.2.engine = kept.2.engine ∧ kept.2.Retold written.2 := by
  intro chatty terse
  have hchatty : chatty.Ready := ⟨hs.stream, hs.traps⟩
  have hterse : terse.Ready := ⟨hs.stream, hs.traps⟩
  have hc : ∀ verbosity, ∀ st ∈ ts.flatMap (Turn.steps verbosity),
      st.timed.call.storesNone = true := by
    intro verbosity st hm
    obtain ⟨t, hmt, hmst⟩ := List.mem_flatMap.mp hm
    exact Turn.storesNone_steps (ht t hmt) verbosity st hmst
  have hq : chatty.Quieter v terse := ⟨⟨rfl, rfl, fun _ _ => rfl⟩, rfl⟩
  obtain ⟨hsayings, hafter⟩ := hq.run hchatty hterse (hc v')
  rw [← Turn.flatMap_steps_filter ht hv] at hsayings hafter
  refine ⟨hsayings, hchatty.saidBy_turns (hc v'), hterse.saidBy_turns (hc v), ?_, ?_⟩
  · intro key hk
    rw [(chatty.turns_eq_run ts).1, (terse.turns_eq_run ts).1]
    exact hafter.engine.counts key hk
  · intro text verbosity hr kept written
    have hw := hr.withVerbosity verbosity
    have hturns := hw.turns Engine.lockstep_eq Engine.admitsAlike_eq
      TrapWriter.lockstep_sameOrMirrors
      fun t hm => Turn.lockstep_of_isCommon (Turn.isCommon_of_isLogging (ht t hm))
    exact ⟨hturns.answer, hturns.state.engine.symm, hturns.state⟩

/-- A message is left out between two diagnostics of one site, of which only one goes out. -/
theorem verbosity_only_filters_between :
    let unit : Worker := { trap := .recording fun _ _ => false, state := { fileNumber := 0 } }
    let s : Session := ⟨.ofStream { limit := 1 } (.memory {}), [unit]⟩
    let site : Origin := ⟨"a.rs", 7, 3⟩
    let odd : Timed LoggerCall := ⟨"t", .warn "odd" site⟩
    let body : Script := .calls [odd, ⟨"t", .info "between"⟩, odd] .done
    let ts : List Turn := [.program 0 .file (.within ⟨"block", "f", "a.rs"⟩ body .done)]
    let chatty := s.withVerbosity 3
    let terse := s.withVerbosity 2
    (chatty.sayings ts).map (Saying.passes 2) = [true, true, false, true, true] ∧
    terse.SaidBy ((chatty.sayings ts).filter (Saying.passes 2)) (terse.turns ts) ∧
    (terse.turns ts).2.engine.occurrences ⟨site, .warn⟩ =
      (chatty.turns ts).2.engine.occurrences ⟨site, .warn⟩ := by
  intro unit s site odd body ts chatty terse
  have hs : s.Ready := by
    refine ⟨trivial, fun w hw => ?_⟩
    obtain rfl := List.mem_singleton.mp hw
    exact ⟨rfl, fun _ _ => rfl⟩
  have ht : ∀ t ∈ ts, t.isLogging = true := by
    intro t hm
    rw [List.mem_singleton.mp hm]
    rfl
  obtain ⟨hsayings, -, hsaid, hcounts, -⟩ :=
    verbosity_only_filters hs (by decide : (2 : Int) ≤ 3) ht
  rw [hsayings] at hsaid
  exact ⟨rfl, hsaid, hcounts ⟨site, .warn⟩ rfl⟩

end DiagnosticLog
