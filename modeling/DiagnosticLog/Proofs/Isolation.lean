import Mathlib.Data.List.Forall2
import DiagnosticLog.Proofs.Notices
import DiagnosticLog.Proofs.Schedules

/-! Failures stay in their unit. What a call leaves behind outside of its own unit is a count, which
is taken before anything can fail, and a line in the log. So if one unit fails in other ways, on its
trap writer or in search of its locations, its own records, labels and lines change; the other units
are told the same and write the same, and the same calls are held back. -/

namespace DiagnosticLog

/-! ### The same calls with other failures -/

/-- A call without the way in which it finds its location. -/
def EngineCall.unplaced : EngineCall → EngineCall
  | .diagnostic report _ withState => .diagnostic report .unknown withState
  | call => call

/-- A call of another unit, or the same call of the unit, which may find its location in another
way. -/
structure Step.SameBut (unit : Nat) (st st' : Step) : Prop where
  worker : st'.worker = st.worker
  now : st'.timed.now = st.timed.now
  call : st'.timed.call.unplaced = st.timed.call.unplaced
  others : st.worker ≠ unit → st' = st

/-- Calls that differ in their location count the same key. -/
theorem EngineCall.key?_of_unplaced {call call' : EngineCall} (h : call'.unplaced = call.unplaced) :
    call'.key? = call.key? := by
  have hk : ∀ call : EngineCall, call.unplaced.key? = call.key? := by
    intro call
    cases call <;> rfl
  rw [← hk, h, hk]

/-- Whether the call raises a report that is held back. -/
def Moment.isHeldBack (m : Moment) : Bool := m.raised?.any Raised.isHeldBack

namespace Session

/-- The units without one. -/
def allBut (unit : Nat) : Part := ⟨fun i => i ≠ unit, fun _ => True⟩

/-- Sessions that are the same but for what belongs to one unit. -/
structure SameBut (unit : Nat) (s s' : Session) : Prop where
  outside : s.SameOn (allBut unit) s'
  units : s'.workers.length = s.workers.length

variable {unit : Nat} {s s' : Session}

/-- Another worker takes the place of a unit. -/
theorem SameBut.set (h : s.engine.stream.Faultless) (unit : Nat) (w : Worker) :
    s.SameBut unit { s with workers := s.workers.set unit w } := by
  refine ⟨⟨.refl h, fun i hi => ?_⟩, by simp⟩
  exact List.getElem?_set_ne (Ne.symm hi)

/-- A call of the unit does the same to the counts, and nothing to the other units. -/
theorem SameBut.step_self (h : s.SameBut unit s') {st st' : Step} (hst : st.SameBut unit st')
    (hu : st.worker = unit) : (s.step st).2.SameOn (allBut unit) (s'.step st').2 := by
  have he := h.outside.engine
  refine ⟨⟨?_, ?_, faultless_step he.stream st, faultless_step he.stream' st', ?_⟩, ?_⟩
  · rw [s'.settings_step, s.settings_step, he.settings]
  · rw [s'.limit_step, s.limit_step, he.limit]
  · intro key _
    have hk := EngineCall.key?_of_unplaced hst.call
    have ht : s'.timesCounted key [st'] = s.timesCounted key [st] := by
      simp only [timesCounted, List.countP_singleton, hst.worker, h.units, hk]
    rw [s'.occurrences_step, s.occurrences_step, ht, he.counts key trivial]
  · intro i hi
    have hne : st.worker ≠ i := fun heq => hi (heq.symm.trans hu)
    have hne' : st'.worker ≠ i := hst.worker.symm ▸ hne
    rw [s'.workers_step_of_ne hne', s.workers_step_of_ne hne, h.outside.workers i hi]

theorem SameBut.step (h : s.SameBut unit s') {st st' : Step} (hst : st.SameBut unit st') :
    (s.step st).2.SameBut unit (s'.step st').2 := by
  refine ⟨?_, by rw [length_workers_step, length_workers_step, h.units]⟩
  by_cases hu : st.worker = unit
  · exact h.step_self hst hu
  · obtain rfl := hst.others hu
    exact (h.outside.step ⟨hu, fun _ _ => trivial⟩).state

/-- A call of another unit is told the same. -/
theorem SameBut.answer (h : s.SameBut unit s') {st : Step} (hu : st.worker ≠ unit) :
    (s'.step st).1 = (s.step st).1 :=
  (h.outside.step ⟨hu, fun _ _ => trivial⟩).answer

/-- A report is held back on both sides or on neither, whoever raises it. -/
theorem SameBut.isHeldBack (h : s.SameBut unit s') {st st' : Step} (hst : st.SameBut unit st') :
    (Moment.mk s' st').isHeldBack = (Moment.mk s st).isHeldBack := by
  -- a report that is raised is held back by the counts alone
  have hany : ∀ (s : Session) (st : Step), (Moment.mk s st).isHeldBack =
      (decide (st.worker < s.workers.length) && match st.timed.call.unplaced with
        | .diagnostic r _ _ => decide ((s.engine.screen r).1 = .heldBack)
        | _ => false) := by
    intro s st
    unfold Moment.isHeldBack Moment.raised?
    cases hw : s.workers[st.worker]? with
    | none =>
      have hlt : ¬ st.worker < s.workers.length := by simpa using hw
      simp [hlt]
    | some w =>
      have hlt : st.worker < s.workers.length := (List.getElem?_eq_some_iff.mp hw).1
      cases hc : st.timed.call <;> simp [hlt, EngineCall.unplaced, Raised.isHeldBack]
  rw [hany, hany, hst.worker, hst.call, h.units]
  congr 1
  cases st.timed.call.unplaced with
  | diagnostic r _ _ =>
    have hs : (s'.engine.screen r).1 = (s.engine.screen r).1 :=
      (h.outside.engine.screen fun _ _ => trivial).answer
    simp only [hs]
  | _ => rfl

/-! ### Whole runs -/

/-- What a run tells the units other than one, in the order in which it is told. -/
def overheard (s : Session) (steps : List Step) (unit : Nat) : List (Step × Receipt) :=
  (s.answered steps).filter fun a => decide (a.1.worker ≠ unit)

theorem overheard_cons (s : Session) (st : Step) (rest : List Step) (unit : Nat) :
    s.overheard (st :: rest) unit =
      (if st.worker ≠ unit then [(st, (s.step st).1)] else []) ++
        (s.step st).2.overheard rest unit := by
  rw [overheard, answered, run_cons, List.zip_cons_cons, List.filter_cons]
  by_cases hu : st.worker = unit <;> simp [hu, overheard, answered]

/-- What is told to a unit is among what is told to those other than a given one. -/
theorem told_eq_overheard (s : Session) (steps : List Step) {i : Nat} (hi : i ≠ unit) :
    s.told steps i = (s.overheard steps unit).filter fun a => decide (a.1.worker = i) := by
  rw [told, overheard, List.filter_filter]
  refine List.filter_congr fun a _ => ?_
  by_cases ha : a.1.worker = i <;> simp [ha, hi]

/-- The lines of the units other than one are those of what they are told. -/
theorem filter_logged_ne (s : Session) (steps : List Step) (unit : Nat) :
    (s.logged steps).filter (fun l => decide (l.1 ≠ unit)) =
      (s.overheard steps unit).filterMap fun a =>
        a.2.line.map fun line => (a.1.worker, line) := by
  rw [logged, overheard, List.filter_filterMap, List.filterMap_filter]
  congr 1
  funext a
  cases a.2.line with
  | none => simp
  | some line => simp [Option.filter]

/-- The log of a run has the lines that its calls wrote. -/
theorem content_logged (hs : s.engine.stream.Faultless) (steps : List Step) :
    (s.run steps).2.engine.stream.content = s.engine.stream.content ++
      Message.logBytes ((s.logged steps).map fun l => (s.engine.settings.origin, l.2)) := by
  have hc := (grows_run hs.unfailing.unbounded steps).content
  rw [← s.map_snd_logged, List.map_map] at hc
  exact hc

/-- Along a run the other units are told the same, and the same reports are held back. -/
theorem SameBut.run (h : s.SameBut unit s') {steps steps' : List Step}
    (hsteps : List.Forall₂ (Step.SameBut unit) steps steps') :
    (s.run steps).2.SameBut unit (s'.run steps').2 ∧
      s'.overheard steps' unit = s.overheard steps unit ∧
      (s'.history steps').map Moment.isHeldBack = (s.history steps).map Moment.isHeldBack := by
  induction hsteps generalizing s s' with
  | nil => exact ⟨h, rfl, rfl⟩
  | @cons st st' rest rest' hst _ ih =>
    obtain ⟨hrun, hover, hheld⟩ := ih (h.step hst)
    refine ⟨?_, ?_, ?_⟩
    · rw [run_cons, run_cons]
      exact hrun
    · rw [overheard_cons, overheard_cons, hover, hst.worker]
      by_cases hu : st.worker = unit
      · simp [hu]
      · obtain rfl := hst.others hu
        rw [h.answer hu]
    · rw [history, history, List.map_cons, List.map_cons, hheld, h.isHeldBack hst]

end Session

/-- Failures stay in their unit. In a run with a log that takes all that is written to it, let one
unit have another worker, whose trap writer refuses other calls or has another sink, and let it find
its locations, or fail to find them, in other ways. Then every other unit is told the same by each
of its calls and ends up the same, with its trap; all keys are counted the same; the logs have the
same lines of the other units in the same order; and the same calls are held back, those of the unit
among them. -/
theorem failures_stay_in_their_unit (s : Session) (unit : Nat) (other : Worker)
    (steps steps' : List Step) (hs : s.engine.stream.Faultless)
    (h : List.Forall₂ (Step.SameBut unit) steps steps') :
    let s' : Session := { s with workers := s.workers.set unit other }
    let after := (s.run steps).2
    let after' := (s'.run steps').2
    let bytes (logged : List (Nat × Message)) : List UInt8 :=
      s.engine.stream.content ++
        Message.logBytes (logged.map fun l => (s.engine.settings.origin, l.2))
    (∀ i, i ≠ unit →
      s'.told steps' i = s.told steps i ∧ after'.workers[i]? = after.workers[i]?) ∧
    (∀ key, after'.engine.occurrences key = after.engine.occurrences key) ∧
    after.engine.stream.content = bytes (s.logged steps) ∧
    after'.engine.stream.content = bytes (s'.logged steps') ∧
    (s'.logged steps').filter (fun l => decide (l.1 ≠ unit)) =
      (s.logged steps).filter (fun l => decide (l.1 ≠ unit)) ∧
    (s'.history steps').map Moment.isHeldBack = (s.history steps).map Moment.isHeldBack := by
  intro s' after after' bytes
  obtain ⟨hrun, hover, hheld⟩ := (Session.SameBut.set hs unit other).run h
  refine ⟨?_, ?_, ?_, ?_, ?_, hheld⟩
  · intro i hi
    refine ⟨?_, hrun.outside.workers i hi⟩
    rw [s'.told_eq_overheard steps' hi, s.told_eq_overheard steps hi, hover]
  · exact fun key => hrun.outside.engine.counts key trivial
  · exact Session.content_logged hs steps
  · exact Session.content_logged (s := s') hs steps'
  · rw [s'.filter_logged_ne, s.filter_logged_ne, hover]

/-- Two units share a call site of which one diagnostic goes out. It is that of the first unit,
which loses its diagnostic on the one side and does not find its location on the other; the second
unit is held back on both. -/
theorem failures_stay_in_their_unit_shared_site :
    let raise (place : Place) : EngineCall :=
      .diagnostic { severity := .warn, message := "odd", origin := some ⟨"a.rs", 7, 3⟩ } place true
    let steps (place : Place) : List Step :=
      [⟨0, "t", raise place⟩, ⟨1, "t", raise .unknown⟩, ⟨1, "t", .log .info "kept"⟩]
    let refusing : Worker := ⟨.recording fun call _ => call == .diagnostic, ⟨7, [], 0⟩, 0⟩
    let working : Worker := ⟨.textual {} fun _ _ => false, ⟨7, [], 0⟩, 0⟩
    let s : Session := ⟨.ofStream { limit := 1 } (.memory {}), [refusing, working]⟩
    let s' : Session := { s with workers := s.workers.set 0 working }
    let lost : Place := .resolved (.error (.reported "lost"))
    List.Forall₂ (Step.SameBut 0) (steps .unknown) (steps lost) ∧
    s'.told (steps lost) 1 = s.told (steps .unknown) 1 ∧
    (s'.run (steps lost)).2.workers[1]? = (s.run (steps .unknown)).2.workers[1]? := by
  intro raise steps refusing working s s' lost
  have h : List.Forall₂ (Step.SameBut 0) (steps .unknown) (steps lost) := by
    refine .cons ⟨rfl, rfl, rfl, fun hne => absurd rfl hne⟩ (.cons ?_ (.cons ?_ .nil))
    · exact ⟨rfl, rfl, rfl, fun _ => rfl⟩
    · exact ⟨rfl, rfl, rfl, fun _ => rfl⟩
  obtain ⟨htold, -⟩ := failures_stay_in_their_unit s 0 working _ _ trivial h
  exact ⟨h, htold 1 Nat.one_ne_zero⟩

end DiagnosticLog
