import Mathlib.Data.List.Forall2
import DiagnosticLog.Proofs.Agreement
import DiagnosticLog.Proofs.Labels

/-! The calls that a run makes on the trap writer of a unit. A report asks for its location, takes a
label and stores its records, so every diagnostic has a label that was taken for it and for nothing
else; and a diagnostic that refers to the unknown location comes after the definition. -/

namespace DiagnosticLog

/-! ### The calls of one report -/

/-- The calls on the writer of whoever is asked for a place. -/
def Place.calls : Place → List TrapCall
  | .unknown => [.unknownLocation]
  | .fresh => [.freshLabel]
  | .provided calls _ => calls

theorem Place.trap_locate (place : Place) (trap : TrapWriter) :
    (place.locate trap).2 = (trap.run place.calls).2 := by
  cases place <;> rfl

/-- The call that stores the association of a diagnostic, if there is a state and the diagnostic was
stored. -/
def Engine.associateCalls (stored : Except Failure Unit) (id : Label) :
    Option UnitState → List TrapCall
  | none => []
  | some s =>
    match stored with
    | .error _ => []
    | .ok () => [.association ⟨id, AssociationRow.compilation, s.fileNumber, s.count⟩]

/-- The calls that store the records of a report. -/
def Engine.storeCalls (e : Engine) (now : String) (r : Report) (body : String) (location : Label)
    (trap : TrapWriter) (state : Option UnitState) : List TrapCall :=
  let id := trap.freshLabel.1
  let row := e.row now r body id location
  .freshLabel :: .diagnostic row ::
    associateCalls (trap.freshLabel.2.writeDiagnostic row).1 id state

theorem Engine.trap_store (e : Engine) (now : String) (r : Report) (body : String)
    (location : Label) (trap : TrapWriter) (state : Option UnitState) :
    (e.store now r body location trap state).2.1 =
      (trap.run (e.storeCalls now r body location trap state)).2 := by
  let written := trap.freshLabel.2.writeDiagnostic
    (e.row now r body trap.freshLabel.1 location)
  have hw : ∀ calls, (trap.run (.freshLabel ::
      .diagnostic (e.row now r body trap.freshLabel.1 location) :: calls)).2 =
        (written.2.run calls).2 := by
    intro calls
    rw [TrapWriter.run_cons, TrapWriter.run_cons]
    rfl
  rw [storeCalls, hw]
  rcases e.store_cases now r body location trap state with
    ⟨cause, hc, h⟩ | ⟨hc, rfl, h⟩ | ⟨s, hc, rfl, h⟩
  · rw [h, hc]
    cases state <;> rfl
  · rw [h, hc]
    rfl
  · rw [h, hc]
    rfl

/-- A call on the trap writer of a unit, and whether it is made in search of a location. -/
structure UnitMoment extends TrapMoment where
  seeking : Bool

namespace Bench

/-- The calls on the trap writer that are made in search of a location. -/
def searchCalls (b : Bench) : EngineCall → List TrapCall
  | .diagnostic r place _ =>
    match (b.engine.screen r).1 with
    | .heldBack => []
    | .goesOut _ => place.calls
  | _ => []

/-- The calls that the engine itself makes on the trap writer, after those. -/
def recordCalls (b : Bench) (now : String) : EngineCall → List TrapCall
  | .diagnostic r place withState =>
    match b.engine.screen r, place.locate b.worker.trap with
    | (.goesOut notice, e), (.ok location, trap) =>
      let state := b.stateIf withState
      e.storeCalls now r (r.body (UnitState.trailLines state) notice) location trap state
    | _, _ => []
  | .log level text => [.comment (Message.plain ⟨level.kind, text, now⟩)]
  | .flushTrap | .flush => [.flush]
  | .enter _ | .leave | .flushLog => []

variable (b : Bench)

theorem trap_perform (now : String) (call : EngineCall) :
    (b.perform now call).2.worker.trap =
      ((b.worker.trap.run (b.searchCalls call)).2.run (b.recordCalls now call)).2 := by
  cases call with
  | diagnostic r place withState =>
    have hp : (b.perform now (.diagnostic r place withState)).2.worker.trap =
        (b.engine.diagnostic now r place.locate b.worker.trap (b.stateIf withState)).trap := rfl
    rw [hp, Engine.diagnostic, searchCalls, recordCalls]
    obtain ⟨_ | notice, e⟩ := b.engine.screen r
    · rfl
    · dsimp only
      rw [Engine.trap_emit, ← place.trap_locate]
      obtain ⟨cause | location, trap⟩ := place.locate b.worker.trap
      · rfl
      · exact e.trap_store ..
  | log level text =>
    have hp : (b.perform now (.log level text)).2.worker.trap =
        (b.engine.log now level text b.worker.trap).trap := rfl
    rw [hp]
    rcases b.engine.log_cases now level text b.worker.trap with ⟨cause, -, h⟩ | ⟨-, h⟩
    · rw [h]
      rfl
    · rw [h, Engine.trap_finish]
      rfl
  | enter frame | leave | flushLog | flushTrap => rfl
  | flush =>
    have hp : b.flush.2.worker.trap = b.worker.trap.flush.2 := by
      simp only [flush]
      split <;> rfl
    exact hp

/-- The calls that one call on the engine makes on the trap writer. -/
def trapMoments (now : String) (call : EngineCall) : List UnitMoment :=
  (b.worker.trap.history (b.searchCalls call)).map (⟨·, true⟩) ++
    ((b.worker.trap.run (b.searchCalls call)).2.history (b.recordCalls now call)).map (⟨·, false⟩)

end Bench

/-! ### The calls of a run -/

/-- The calls that a call of a run makes on the trap writer of a unit. -/
def Moment.trapMoments (m : Moment) (i : Nat) : List UnitMoment :=
  match m.before.workers[i]? with
  | none => []
  | some w =>
    if m.step.worker = i then
      Bench.trapMoments ⟨m.before.engine, w⟩ m.step.timed.now m.step.timed.call
    else []

/-- The calls of a run on the trap writer of a unit. -/
def Session.trapMoments (s : Session) (steps : List Step) (i : Nat) : List UnitMoment :=
  (s.history steps).flatMap (Moment.trapMoments · i)

/-- From one writer to another some calls were made. -/
structure TrapWriter.Made (w : TrapWriter) (moments : List UnitMoment) (w' : TrapWriter) :
    Prop where
  history : moments.map UnitMoment.toTrapMoment = w.history (moments.map fun m => m.call)
  after : w' = (w.run (moments.map fun m => m.call)).2

namespace TrapWriter

variable {w w' w'' : TrapWriter} {moments more : List UnitMoment}

theorem Made.nil (w : TrapWriter) : w.Made [] w := ⟨rfl, rfl⟩

theorem run_append (w : TrapWriter) (calls more : List TrapCall) :
    w.run (calls ++ more) =
      ((w.run calls).1 ++ ((w.run calls).2.run more).1, ((w.run calls).2.run more).2) :=
  inTurn_append ..

theorem Made.append (h : w.Made moments w') (h' : w'.Made more w'') :
    w.Made (moments ++ more) w'' := by
  have hw := h.after
  subst hw
  refine ⟨?_, ?_⟩
  · rw [List.map_append, h.history, h'.history, List.map_append, history_append]
  · rw [h'.after, List.map_append, run_append]

theorem map_call_history (w : TrapWriter) (calls : List TrapCall) :
    (w.history calls).map TrapMoment.call = calls := by
  induction calls generalizing w with
  | nil => rfl
  | cons call rest ih => rw [history, List.map_cons, ih]

theorem map_answer_history (w : TrapWriter) (calls : List TrapCall) :
    (w.history calls).map TrapMoment.answer = (w.run calls).1 := by
  induction calls generalizing w with
  | nil => rfl
  | cons call rest ih =>
    rw [history, List.map_cons, ih, run_cons]
    rfl

/-- The text that calls leave behind: each adds its own, up to some byte. -/
theorem bytes_run (w : TrapWriter) (calls : List TrapCall) :
    ∃ pieces, (w.run calls).2.bytes = w.bytes ++ pieces.flatten ∧
      List.Forall₂ (fun piece m => piece <+: Utf8.encode m.text) pieces (w.history calls) := by
  induction calls generalizing w with
  | nil => exact ⟨[], (List.append_nil _).symm, .nil⟩
  | cons call rest ih =>
    obtain ⟨piece, hb, hp⟩ := (TrapMoment.moved ⟨w, call⟩).bytes
    obtain ⟨pieces, hbs, hps⟩ := ih (w.perform call).2
    refine ⟨piece :: pieces, ?_, .cons hp hps⟩
    rw [run_cons, List.flatten_cons, ← List.append_assoc]
    exact hbs.trans (congrArg (· ++ pieces.flatten) hb)

/-- Calls that someone makes one after the other. -/
theorem made_run (w : TrapWriter) (calls : List TrapCall) (seeking : Bool) :
    w.Made ((w.history calls).map (⟨·, seeking⟩)) (w.run calls).2 := by
  have hc : ((w.history calls).map (UnitMoment.mk · seeking)).map (fun m => m.call) = calls := by
    rw [List.map_map]
    exact w.map_call_history calls
  refine ⟨?_, ?_⟩
  · rw [hc, List.map_map]
    exact List.map_id _
  · rw [hc]

end TrapWriter

theorem Bench.made_perform (b : Bench) (now : String) (call : EngineCall) :
    b.worker.trap.Made (b.trapMoments now call) (b.perform now call).2.worker.trap := by
  rw [b.trap_perform]
  exact (b.worker.trap.made_run _ true).append (TrapWriter.made_run _ _ false)

namespace Session

variable {s : Session} {i : Nat} {w : Worker}

theorem made_step (h : s.workers[i]? = some w) (st : Step) :
    ∃ w', (s.step st).2.workers[i]? = some w' ∧
      w.trap.Made (Moment.trapMoments ⟨s, st⟩ i) w'.trap := by
  rw [Moment.trapMoments, h]
  dsimp only
  by_cases hi : st.worker = i
  · subst hi
    have hlt : st.worker < s.workers.length := (List.getElem?_eq_some_iff.mp h).1
    rw [if_pos rfl, step, s.act_of_getElem? h]
    exact ⟨_, List.getElem?_set_self hlt,
      Bench.made_perform ⟨s.engine, w⟩ st.timed.now st.timed.call⟩
  · rw [if_neg hi, s.workers_step_of_ne hi]
    exact ⟨w, h, .nil _⟩

theorem made_run (h : s.workers[i]? = some w) (steps : List Step) :
    ∃ w', (s.run steps).2.workers[i]? = some w' ∧
      w.trap.Made (s.trapMoments steps i) w'.trap := by
  induction steps generalizing s w with
  | nil => exact ⟨w, h, .nil _⟩
  | cons st rest ih =>
    obtain ⟨w', hw', hm⟩ := made_step h st
    obtain ⟨w'', hw'', hm'⟩ := ih hw'
    rw [run_cons]
    exact ⟨w'', hw'', hm.append hm'⟩

end Session

/-! ### The labels of the records -/

/-- What the engine does with the labels of a unit, by itself: it never asks for the unknown
location, and every diagnostic has a label that was taken for it. -/
structure Recorded (moments : List UnitMoment) : Prop where
  never_asks : ∀ m ∈ moments, m.seeking = false → m.call ≠ .unknownLocation
  ids : (((moments.filter fun m => !m.seeking).filterMap fun m => m.call.row?).map
    DiagnosticRow.id).Sublist ((moments.filter fun m => !m.seeking).filterMap fun m => m.takes)

/-- Where the diagnostics of a unit lie. Whoever is asked for a location stores no diagnostic, and
answers a label which is told to him or was taken before the first call. -/
structure Located (last : Nat) (moments : List UnitMoment) : Prop where
  stores_none : ∀ m ∈ moments, m.seeking = true → m.call.row? = none
  told : ∀ pre m post, moments = pre ++ m :: post → ∀ row, m.call.row? = some row →
    row.location.number ≤ last ∨ ∃ x ∈ pre, x.seeking = true ∧ x.answer = .label row.location

variable {moments more : List UnitMoment} {last : Nat}

theorem Recorded.nil : Recorded [] := ⟨by simp, .refl _⟩

theorem Recorded.append (h : Recorded moments) (h' : Recorded more) :
    Recorded (moments ++ more) := by
  refine ⟨?_, ?_⟩
  · intro m hm
    rcases List.mem_append.mp hm with hm | hm
    · exact h.never_asks m hm
    · exact h'.never_asks m hm
  · simp only [List.filter_append, List.filterMap_append, List.map_append]
    exact h.ids.append h'.ids

theorem Located.nil : Located last [] := ⟨by simp, by simp⟩

/-- A place in two lists one after the other is a place in the first or in the second. -/
theorem split_append {α : Type} {xs ys pre post : List α} {a : α}
    (h : xs ++ ys = pre ++ a :: post) :
    (∃ rest, xs = pre ++ a :: rest) ∨ ∃ mid, pre = xs ++ mid ∧ ys = mid ++ a :: post := by
  rcases List.append_eq_append_iff.mp h with ⟨mid, hp, hy⟩ | ⟨_ | ⟨b, rest⟩, hx, ha⟩
  · exact .inr ⟨mid, hp, hy⟩
  · exact .inr ⟨[], by rw [hx, List.append_nil, List.append_nil], ha.symm⟩
  · obtain ⟨rfl, -⟩ := List.cons.inj ha
    exact .inl ⟨rest, hx⟩

theorem Located.append (h : Located last moments) (h' : Located last more) :
    Located last (moments ++ more) := by
  refine ⟨?_, ?_⟩
  · intro m hm
    rcases List.mem_append.mp hm with hm | hm
    · exact h.stores_none m hm
    · exact h'.stores_none m hm
  · intro pre m post hs row hr
    rcases split_append hs with ⟨rest, hx⟩ | ⟨mid, rfl, hy⟩
    · exact h.told pre m rest hx row hr
    · refine (h'.told mid m post hy row hr).imp_right ?_
      rintro ⟨x, hx, ht⟩
      exact ⟨x, List.mem_append_right _ hx, ht⟩

/-- All diagnostics are stored by the engine itself. -/
theorem Located.rows_own (h : Located last moments) :
    ((moments.filter fun m => !m.seeking).filterMap fun m => m.call.row?) =
      moments.filterMap fun m => m.call.row? := by
  rw [List.filterMap_filter]
  refine List.filterMap_congr fun m hm => ?_
  cases hs : m.seeking with
  | false => rfl
  | true => exact (h.stores_none m hm hs).symm

/-- Whether a call takes no label and stores no diagnostic. -/
def TrapCall.isPlain : TrapCall → Bool
  | .association _ | .comment _ | .flush => true
  | _ => false

theorem TrapCall.row?_of_isPlain {call : TrapCall} (h : call.isPlain = true) :
    call.row? = none := by
  cases call <;> first | rfl | cases h

theorem TrapMoment.takes_of_isPlain {m : TrapMoment} (h : m.call.isPlain = true) :
    m.takes = none := by
  obtain ⟨w, call⟩ := m
  cases call <;> first | rfl | cases h

/-- The way in which a call looks for its location: at a writer that has taken some labels, from
someone who stores no diagnostic and answers only labels among those. -/
def EngineCall.LocatesFrom (last : Nat) : EngineCall → Prop
  | .diagnostic _ (.provided calls answer) _ =>
    (∀ call ∈ calls, call.row? = none) ∧ ∀ label, answer = .ok label → label.number ≤ last
  | _ => True

namespace TrapWriter

variable {w : TrapWriter}

theorem mem_of_mem_history {calls : List TrapCall} {m : TrapMoment} (h : m ∈ w.history calls) :
    m.call ∈ calls := by
  rw [← w.map_call_history calls]
  exact List.mem_map_of_mem h

theorem filterMap_row?_history (calls : List TrapCall) :
    (w.history calls).filterMap (fun m => m.call.row?) = calls.filterMap TrapCall.row? := by
  have h := List.filterMap_map (f := TrapMoment.call) (g := TrapCall.row?) (l := w.history calls)
  rw [w.map_call_history calls] at h
  exact h.symm

theorem filterMap_takes_of_isPlain {calls : List TrapCall} (h : ∀ c ∈ calls, c.isPlain = true) :
    (w.history calls).filterMap TrapMoment.takes = [] :=
  List.filterMap_eq_nil_iff.mpr fun _ hm =>
    TrapMoment.takes_of_isPlain (h _ (mem_of_mem_history hm))

theorem filterMap_row?_of_isPlain {calls : List TrapCall} (h : ∀ c ∈ calls, c.isPlain = true) :
    calls.filterMap TrapCall.row? = [] :=
  List.filterMap_eq_nil_iff.mpr fun c hc => c.row?_of_isPlain (h c hc)

/-- A label and a diagnostic, and then nothing that takes a label. -/
theorem filterMap_takes_diagnostic (row : DiagnosticRow) {rest : List TrapCall}
    (h : ∀ c ∈ rest, c.isPlain = true) :
    (w.history (.freshLabel :: .diagnostic row :: rest)).filterMap TrapMoment.takes =
      [w.freshLabel.1] :=
  congrArg (w.freshLabel.1 :: ·)
    (filterMap_takes_of_isPlain (w := (w.freshLabel.2.perform (.diagnostic row)).2) h)

end TrapWriter

namespace Bench

variable (b : Bench)

/-- The calls of the engine itself store a diagnostic under a label that is taken for it, at the
location that was found, or they store no diagnostic. -/
theorem recordCalls_cases (now : String) (call : EngineCall) :
    (∀ c ∈ b.recordCalls now call, c.isPlain = true) ∨
      ∃ (r : Report) (place : Place) (withState : Bool) (row : DiagnosticRow)
        (rest : List TrapCall),
        call = .diagnostic r place withState ∧
        b.searchCalls call = place.calls ∧
        (place.locate b.worker.trap).1 = .ok row.location ∧
        b.recordCalls now call = .freshLabel :: .diagnostic row :: rest ∧
        row.id = (b.worker.trap.run (b.searchCalls call)).2.freshLabel.1 ∧
        ∀ c ∈ rest, c.isPlain = true := by
  cases call with
  | diagnostic r place withState =>
    simp only [searchCalls, recordCalls]
    obtain ⟨_ | notice, e⟩ := b.engine.screen r
    · exact .inl (by simp)
    · have ht := place.trap_locate b.worker.trap
      rcases hl : place.locate b.worker.trap with ⟨cause | location, trap⟩
      · exact .inl (by simp)
      · rw [hl] at ht
        refine .inr ⟨r, place, withState, _, _, rfl, rfl, congrArg Prod.fst hl, rfl, ?_, ?_⟩
        · dsimp only at ht
          rw [← ht]
          rfl
        · intro c hc
          unfold Engine.associateCalls at hc
          split at hc
          · cases hc
          · split at hc
            · cases hc
            · rw [List.mem_singleton.mp hc]
              rfl
  | log level text => exact .inl (by simp [recordCalls, TrapCall.isPlain])
  | flushTrap | flush => exact .inl (by simp [recordCalls, TrapCall.isPlain])
  | enter frame | leave | flushLog => exact .inl (by simp [recordCalls])

theorem own_trapMoments (now : String) (call : EngineCall) :
    (b.trapMoments now call).filter (fun m => !m.seeking) =
      ((b.worker.trap.run (b.searchCalls call)).2.history (b.recordCalls now call)).map
        (⟨·, false⟩) := by
  rw [trapMoments, List.filter_append, List.filter_eq_nil_iff.mpr (by simp), List.nil_append,
    List.filter_eq_self.mpr (by simp)]

theorem recorded (now : String) (call : EngineCall) : Recorded (b.trapMoments now call) := by
  refine ⟨?_, ?_⟩
  · intro m hm hs hc
    have hf : m ∈ (b.trapMoments now call).filter (fun m => !m.seeking) :=
      List.mem_filter.mpr ⟨hm, by rw [hs]; rfl⟩
    rw [own_trapMoments] at hf
    obtain ⟨t, ht, rfl⟩ := List.mem_map.mp hf
    have hmem := TrapWriter.mem_of_mem_history ht
    rw [show t.call = .unknownLocation from hc] at hmem
    rcases b.recordCalls_cases now call with hp | ⟨_, _, _, row, rest, -, -, -, hr, -, hp⟩
    · cases hp _ hmem
    · rw [hr] at hmem
      simp only [List.mem_cons, reduceCtorEq, false_or] at hmem
      cases hp _ hmem
  · let w := (b.worker.trap.run (b.searchCalls call)).2
    rw [own_trapMoments, List.filterMap_map, List.filterMap_map]
    change (((w.history (b.recordCalls now call)).filterMap fun m => m.call.row?).map
      DiagnosticRow.id).Sublist ((w.history (b.recordCalls now call)).filterMap TrapMoment.takes)
    rw [w.filterMap_row?_history]
    rcases b.recordCalls_cases now call with hp | ⟨_, _, _, row, rest, -, -, -, hr, hid, hp⟩
    · rw [TrapWriter.filterMap_row?_of_isPlain hp]
      exact List.nil_sublist _
    · have hrow :
          (TrapCall.freshLabel :: .diagnostic row :: rest).filterMap TrapCall.row? = [row] :=
        congrArg (row :: ·) (TrapWriter.filterMap_row?_of_isPlain hp)
      rw [hr, hrow, w.filterMap_takes_diagnostic row hp, List.map_singleton, hid]

theorem told_locate {place : Place} {trap : TrapWriter} {location : Label} {last : Nat}
    {r : Report} {withState : Bool}
    (hp : (EngineCall.diagnostic r place withState).LocatesFrom last)
    (h : (place.locate trap).1 = .ok location) :
    location.number ≤ last ∨ ∃ m ∈ trap.history place.calls, m.answer = .label location := by
  cases place with
  | unknown => exact .inr ⟨_, List.mem_cons_self, congrArg TrapAnswer.ofLabel h⟩
  | fresh => exact .inr ⟨_, List.mem_cons_self, congrArg TrapAnswer.ofLabel h⟩
  | provided calls answer => exact .inl (hp.2 location h)

theorem row?_searchCalls {call : EngineCall} {last : Nat} (hp : call.LocatesFrom last) :
    ∀ c ∈ b.searchCalls call, c.row? = none := by
  cases call with
  | diagnostic r place withState =>
    intro c hc
    simp only [searchCalls] at hc
    split at hc
    · cases hc
    · cases place with
      | provided calls answer => exact hp.1 c hc
      | unknown | fresh =>
        rw [List.mem_singleton.mp hc]
        rfl
  | log | enter | leave | flushTrap | flushLog | flush => simp [searchCalls]

/-- The one diagnostic that the engine stores lies where its location was found. -/
theorem locate_of_row? {now : String} {call : EngineCall} {c : TrapCall} {row : DiagnosticRow}
    (hc : c ∈ b.recordCalls now call) (hr : c.row? = some row) :
    ∃ (r : Report) (place : Place) (withState : Bool), call = .diagnostic r place withState ∧
      b.searchCalls call = place.calls ∧ (place.locate b.worker.trap).1 = .ok row.location := by
  rcases b.recordCalls_cases now call with hp | ⟨r, place, s, row', rest, he, hs, hl, hcalls, -, hp⟩
  · cases hr.symm.trans (TrapCall.row?_of_isPlain (hp c hc))
  · have hrow : (b.recordCalls now call).filterMap TrapCall.row? = [row'] := by
      rw [hcalls]
      exact congrArg (row' :: ·) (TrapWriter.filterMap_row?_of_isPlain hp)
    have hmem := List.mem_filterMap.mpr ⟨c, hc, hr⟩
    rw [hrow] at hmem
    rw [List.mem_singleton.mp hmem]
    exact ⟨r, place, s, he, hs, hl⟩

/-- A call that looks for its location among the labels of the writer finds it there. -/
theorem located (now : String) {call : EngineCall} {last : Nat} (hp : call.LocatesFrom last) :
    Located last (b.trapMoments now call) := by
  refine ⟨?_, ?_⟩
  · intro m hm hs
    rcases List.mem_append.mp hm with hm | hm
    · obtain ⟨t, ht, rfl⟩ := List.mem_map.mp hm
      exact b.row?_searchCalls hp _ (TrapWriter.mem_of_mem_history ht)
    · obtain ⟨t, -, rfl⟩ := List.mem_map.mp hm
      cases hs
  · intro pre m post hs row hr
    rcases split_append hs with ⟨rest, hx⟩ | ⟨mid, rfl, hy⟩
    · -- the search stores no diagnostic
      have hm : m ∈ (b.worker.trap.history (b.searchCalls call)).map (⟨·, true⟩) := by
        rw [hx]
        exact List.mem_append_right _ List.mem_cons_self
      obtain ⟨t, ht, rfl⟩ := List.mem_map.mp hm
      cases hr.symm.trans (b.row?_searchCalls hp _ (TrapWriter.mem_of_mem_history ht))
    · -- of the calls of the engine one stores a diagnostic, at the location that was found
      have hm : m ∈ ((b.worker.trap.run (b.searchCalls call)).2.history
          (b.recordCalls now call)).map (⟨·, false⟩) := by
        rw [hy]
        exact List.mem_append_right _ List.mem_cons_self
      obtain ⟨t, ht, rfl⟩ := List.mem_map.mp hm
      have hmem := TrapWriter.mem_of_mem_history ht
      obtain ⟨r, place, withState, hc, hq, hl⟩ := b.locate_of_row? hmem hr
      subst hc
      refine (told_locate hp hl).imp_right ?_
      rintro ⟨x, hx, ha⟩
      refine ⟨⟨x, true⟩, List.mem_append_left _ ?_, rfl, ha⟩
      rw [hq]
      exact List.mem_map_of_mem hx

end Bench

/-- A call of a run is a call of the unit, or it does nothing to its writer. -/
theorem Moment.trapMoments_cases (m : Moment) (i : Nat) :
    m.trapMoments i = [] ∨ m.step.worker = i ∧
      ∃ b : Bench, m.trapMoments i = b.trapMoments m.step.timed.now m.step.timed.call := by
  unfold trapMoments
  split
  · exact .inl rfl
  · split
    next hi => exact .inr ⟨hi, _, rfl⟩
    · exact .inl rfl

namespace Session

variable (s : Session) (i : Nat)

theorem recorded (steps : List Step) : Recorded (s.trapMoments steps i) := by
  induction steps generalizing s with
  | nil => exact .nil
  | cons st rest ih =>
    have hm : Recorded (Moment.trapMoments ⟨s, st⟩ i) := by
      rcases Moment.trapMoments_cases ⟨s, st⟩ i with h | ⟨-, b, h⟩
      · rw [h]
        exact .nil
      · rw [h]
        exact b.recorded ..
    exact hm.append (ih (s.step st).2)

/-- A unit whose calls look for their locations among the labels of its writer finds them there. -/
theorem located {steps : List Step}
    (h : ∀ st ∈ steps, st.worker = i → st.timed.call.LocatesFrom last) :
    Located last (s.trapMoments steps i) := by
  induction steps generalizing s with
  | nil => exact .nil
  | cons st rest ih =>
    obtain ⟨hst, hrest⟩ := List.forall_mem_cons.mp h
    have hm : Located last (Moment.trapMoments ⟨s, st⟩ i) := by
      rcases Moment.trapMoments_cases ⟨s, st⟩ i with h | ⟨hi, b, h⟩
      · rw [h]
        exact .nil
      · rw [h]
        exact b.located _ (hst hi)
    exact hm.append (ih (s.step st).2 hrest)

end Session

/-! ### Labels and locations of a unit -/

/-- The diagnostics of a unit, and the calls on its writer that bring them. Their labels increase
and belong to no location; and one that refers to the unknown location comes after the call that
introduces it. -/
structure Placed (moments : List UnitMoment) : Prop where
  increasing : (moments.filterMap fun m => m.call.row?).Pairwise
    fun row row' => row.id.number < row'.id.number
  apart : ∀ m ∈ moments, ∀ m' ∈ moments, ∀ row row', m.call.row? = some row →
    m'.call.row? = some row' → row.id ≠ row'.location
  introduced : ∀ pre m post, moments = pre ++ m :: post → ∀ row, m.call.row? = some row →
    (∃ x ∈ moments, x.call = .unknownLocation ∧ x.answer = .label row.location) →
    ∃ earlier x mid, pre.map UnitMoment.toTrapMoment = earlier ++ x :: mid ∧
      x.Introduces row.location earlier (mid ++ (m :: post).map UnitMoment.toTrapMoment)

/-- The label of a diagnostic is taken by the engine itself. -/
theorem Recorded.exists_taken (hr : Recorded moments) (hl : Located last moments)
    {m : UnitMoment} {row : DiagnosticRow} (hm : m ∈ moments) (hrow : m.call.row? = some row) :
    ∃ y ∈ moments, y.seeking = false ∧ y.takes = some row.id := by
  have hs : m.seeking = false :=
    Bool.eq_false_iff.mpr fun hs => by cases hrow.symm.trans (hl.stores_none m hm hs)
  have hid : row.id ∈ ((moments.filter fun m => !m.seeking).filterMap fun m => m.call.row?).map
      DiagnosticRow.id :=
    List.mem_map_of_mem (List.mem_filterMap.mpr
      ⟨m, List.mem_filter.mpr ⟨hm, by rw [hs]; rfl⟩, hrow⟩)
  obtain ⟨y, hy, ht⟩ := List.mem_filterMap.mp (hr.ids.subset hid)
  obtain ⟨hy, hn⟩ := List.mem_filter.mp hy
  exact ⟨y, hy, by simpa using hn, ht⟩

namespace TrapWriter.Made

variable {w w' : TrapWriter} (h : w.Made moments w')
include h

theorem mem {m : UnitMoment} (hm : m ∈ moments) :
    m.toTrapMoment ∈ w.history (moments.map fun m => m.call) := by
  rw [← h.history]
  exact List.mem_map_of_mem hm

theorem takes_increasing :
    (moments.filterMap fun m => m.takes).Pairwise fun l l' => l.number < l'.number := by
  have hp := w.takes_increasing (moments.map fun m => m.call)
  rw [← h.history, List.filterMap_map] at hp
  exact hp

/-- A label that was told in search of a location was taken by such a search, or was told by a call
for the unknown location. -/
theorem apart (hu : w.unknown = none) (hr : Recorded moments) (hl : Located w.lastLabel moments)
    {m m' : UnitMoment} (hm : m ∈ moments) (hm' : m' ∈ moments) {row row' : DiagnosticRow}
    (hrow : m.call.row? = some row) (hrow' : m'.call.row? = some row') :
    row.id ≠ row'.location := by
  intro he
  obtain ⟨y, hy, hs, ht⟩ := hr.exists_taken hl hm hrow
  rw [he] at ht
  have hinj {z : UnitMoment} (hz : z ∈ moments) (htz : z.takes = some row'.location) : z = y :=
    Label.taken_by_one (fun m : UnitMoment => m.takes) h.takes_increasing hy hz ht htz
  obtain ⟨pre, post, hsplit⟩ := List.append_of_mem hm'
  rcases hl.told pre m' post hsplit row' hrow' with hle | ⟨x, hx, hxs, hxa⟩
  · exact absurd (lastLabel_lt_of_takes (h.mem hy) ht) (Nat.not_lt.mpr hle)
  · have hx : x ∈ moments := by
      rw [hsplit]
      exact List.mem_append_left _ hx
    by_cases hc : x.call = .unknownLocation
    · obtain ⟨earlier, t, later, hsplit, hi⟩ := exists_introduces hu _ (h.mem hx) hc hxa
      have hmem : t ∈ moments.map UnitMoment.toTrapMoment := by
        rw [h.history, hsplit]
        exact List.mem_append_right _ List.mem_cons_self
      obtain ⟨z, hz, rfl⟩ := List.mem_map.mp hmem
      obtain rfl := hinj hz hi.takes
      exact hr.never_asks z hz hs hi.call
    · obtain rfl := hinj hx (TrapMoment.takes_of_answer hc hxa)
      cases hs.symm.trans hxs

theorem introduced (hu : w.unknown = none) (hl : Located w.lastLabel moments)
    {pre post : List UnitMoment} {m x : UnitMoment} (hs : moments = pre ++ m :: post)
    {row : DiagnosticRow} (hrow : m.call.row? = some row) (hx : x ∈ moments)
    (hc : x.call = .unknownLocation) (ha : x.answer = .label row.location) :
    ∃ earlier y mid, pre.map UnitMoment.toTrapMoment = earlier ++ y :: mid ∧
      y.Introduces row.location earlier (mid ++ (m :: post).map UnitMoment.toTrapMoment) := by
  obtain ⟨earlier, y, later, hy, hi⟩ := exists_introduces hu _ (h.mem hx) hc ha
  have hsplit : pre.map UnitMoment.toTrapMoment ++ (m :: post).map UnitMoment.toTrapMoment =
      earlier ++ y :: later := by
    rw [← List.map_append, ← hs, h.history, hy]
  rcases split_append hsplit with ⟨mid, hmid⟩ | ⟨mid, hmid, hrest⟩
  · refine ⟨earlier, y, mid, hmid, ?_⟩
    rw [hmid, List.append_assoc, List.append_cancel_left_eq, List.cons_append] at hsplit
    obtain ⟨-, rfl⟩ := List.cons.inj hsplit
    exact hi
  · -- the label was told before the diagnostic, but no earlier than it was introduced
    exfalso
    have hp := w.takes_increasing (moments.map fun m => m.call)
    rw [hy] at hp
    rcases hl.told pre m post hs row hrow with hle | ⟨z, hz, -, hza⟩
    · have hmem : y ∈ w.history (moments.map fun m => m.call) := by
        rw [hy]
        exact List.mem_append_right _ List.mem_cons_self
      exact absurd (lastLabel_lt_of_takes hmem hi.takes) (Nat.not_lt.mpr hle)
    · have hz : z.toTrapMoment ∈ earlier := by
        rw [hmid]
        exact List.mem_append_left _ (List.mem_map_of_mem hz)
      by_cases hzc : z.call = .unknownLocation
      · exact hi.earlier _ hz hzc _ hza
      · exact Label.taken_once hp hi.takes _ (List.mem_append_left _ hz)
          (TrapMoment.takes_of_answer hzc hza)

theorem placed (hu : w.unknown = none) (hr : Recorded moments) (hl : Located w.lastLabel moments) :
    Placed moments := by
  refine ⟨?_, ?_, ?_⟩
  · have hsub := hr.ids.trans (List.filter_sublist.filterMap _)
    rw [hl.rows_own] at hsub
    exact (List.pairwise_map (f := DiagnosticRow.id)
      (R := fun l l' => l.number < l'.number)).mp (h.takes_increasing.sublist hsub)
  · intro m hm m' hm' row row' hrow hrow'
    exact h.apart hu hr hl hm hm' hrow hrow'
  · rintro pre m post hs row hrow ⟨x, hx, hc, ha⟩
    exact h.introduced hu hl hs hrow hx hc ha

end TrapWriter.Made

/-- No label is taken twice, and the unknown location is introduced before it is used, whatever
fails: on a writer of any kind that does not know it yet, by calls of any kind. So in a run in which
a unit has such a writer, each of its diagnostics has a label of its own, after those of the
diagnostics before, which is the label of no location; and the diagnostics at the unknown location
come after the call that introduces it. A writer of records keeps some of these diagnostics, in
order; a writer of text has the text of each, up to some byte. The engine and the other units may be
anything. -/
theorem labels_are_never_reused (w : TrapWriter) (hw : w.unknown = none) :
    (∀ calls, (w.history calls).map TrapMoment.call = calls ∧
      (w.history calls).map TrapMoment.answer = (w.run calls).1 ∧
      TrapWriter.Labelled (w.history calls)) ∧
    ∀ (s : Session) (ts : List Turn) (i : Nat) (unit : Worker), s.workers[i]? = some unit →
      unit.trap = w →
      let steps := ts.flatMap (Turn.steps s.engine.settings.verbosity)
      let moments := s.trapMoments steps i
      let rows := moments.filterMap fun m => m.call.row?
      (∃ unit', (s.turns ts).2.workers[i]? = some unit' ∧ w.Made moments unit'.trap ∧
        (∃ kept, TrapRecord.diagnostics unit'.trap.records =
          TrapRecord.diagnostics w.records ++ kept ∧ kept.Sublist rows) ∧
        ∃ pieces, unit'.trap.bytes = w.bytes ++ pieces.flatten ∧
          List.Forall₂ (fun piece m => piece <+: Utf8.encode m.text) pieces moments) ∧
      ((∀ st ∈ steps, st.worker = i → st.timed.call.LocatesFrom w.lastLabel) →
        Located w.lastLabel moments) ∧
      (Located w.lastLabel moments → Placed moments) := by
  refine ⟨fun calls => ⟨w.map_call_history calls, w.map_answer_history calls,
    TrapWriter.labelled hw calls⟩, ?_⟩
  rintro s ts i unit hu rfl steps moments rows
  obtain ⟨unit', hu', hm⟩ := Session.made_run hu steps
  refine ⟨⟨unit', ?_, hm, ?_, ?_⟩, s.located i, hm.placed hw (s.recorded i steps)⟩
  · rw [(s.turns_eq_run ts).1]
    exact hu'
  · obtain ⟨kept, hk, hs⟩ := unit.trap.diagnostics_run (moments.map fun m => m.call)
    rw [List.filterMap_map] at hs
    exact ⟨kept, hm.after ▸ hk, hs⟩
  · obtain ⟨pieces, hb, hp⟩ := unit.trap.bytes_run (moments.map fun m => m.call)
    rw [← hm.history, List.forall₂_map_right_iff] at hp
    exact ⟨pieces, hm.after ▸ hb, hp⟩

/-- The first definition of the unknown location breaks off, and its label is lost. With more room
the location is introduced under another label. -/
theorem labels_are_never_reused_half_a_definition :
    let w : TrapWriter := .textual { capacity := some 8 } fun _ _ => false
    let calls : List TrapCall :=
      [.unknownLocation, .freshLabel, .grow 1000, .unknownLocation, .keyedLabel "k"]
    let unit : Worker := { trap := w, state := { fileNumber := 7 } }
    let s : Session := ⟨.ofStream {} .stdout, [unit]⟩
    let raise (place : Place) : Step :=
      ⟨0, "t", .diagnostic ⟨.warn, "odd", none, none, none⟩ place true⟩
    let raised : List Step := [raise .unknown,
      raise (.provided [.grow 1000] (.error (.reported "lost"))), raise .fresh, raise .unknown]
    let ts : List Turn :=
      .program 0 .file (.calls [⟨"t", .info "a"⟩] .bail) :: raised.map Turn.step
    let steps := ts.flatMap (Turn.steps s.engine.settings.verbosity)
    w.unknown = none ∧ s.workers[0]? = some unit ∧ unit.trap = w ∧
    (w.run calls).1 = [.failed .diskFull, .label ⟨2⟩, .capacity 1008, .label ⟨3⟩, .label ⟨4⟩] ∧
    (∃ pre x post, w.history calls = pre ++ x :: post ∧ x.Introduces ⟨3⟩ pre post) ∧
    ((s.trapMoments steps 0).filterMap fun m => m.call.row?).map
      (fun row => (row.id, row.location)) = [(⟨3⟩, ⟨2⟩), (⟨5⟩, ⟨4⟩)] ∧
    Placed (s.trapMoments steps 0) := by
  intro w calls unit s raise raised ts steps
  obtain ⟨hw, hs⟩ := labels_are_never_reused w rfl
  obtain ⟨-, -, hl⟩ := hw calls
  obtain ⟨-, hlocated, hplaced⟩ := hs s ts 0 unit rfl rfl
  have hplaces : ∀ st ∈ steps, st.worker = 0 → st.timed.call.LocatesFrom w.lastLabel := by
    have hsteps : steps = ⟨0, "t", .log .info "a"⟩ :: raised := rfl
    rw [hsteps]
    simp only [raised, List.forall_mem_cons]
    exact ⟨fun _ => trivial, fun _ => trivial, fun _ => ⟨by decide, by rintro _ ⟨⟩⟩,
      fun _ => trivial, fun _ => trivial, by simp⟩
  have htold : ∃ x ∈ w.history calls, x.call = .unknownLocation ∧ x.answer = .label ⟨3⟩ := by
    decide
  obtain ⟨x, hx, hc, hxa⟩ := htold
  exact ⟨rfl, rfl, rfl, by decide, hl.introduced x hx hc ⟨3⟩ hxa, by decide +kernel,
    hplaced (hlocated hplaces)⟩

end DiagnosticLog
