import DiagnosticLog.Proofs.Agreement
import DiagnosticLog.Proofs.Limiting

/-! The notice of a limit over whole runs. The report that brings a count to the limit is the only
one to go out with the notice, and it is counted before its location is looked for. So at most one
diagnostic with the notice is stored for a key before reports are held back, and none if that one
report fails. -/

namespace DiagnosticLog

/-! ### Reports of a run -/

/-- A report and the bench on which it is raised. -/
structure Raised where
  bench : Bench
  now : String
  report : Report
  place : Place
  withState : Bool

/-- The report that a call of a unit raises. -/
def Moment.raised? (m : Moment) : Option Raised :=
  match m.before.workers[m.step.worker]?, m.step.timed.call with
  | some w, .diagnostic report place withState =>
    some ⟨⟨m.before.engine, w⟩, m.step.timed.now, report, place, withState⟩
  | _, _ => none

/-- The reports that are raised in a run, in their order. -/
def Session.raised (s : Session) (steps : List Step) : List Raised :=
  (s.history steps).filterMap Moment.raised?

/-- The row that a report stores once it goes out; there is none if its location is not found or
the diagnostic is refused. -/
def Engine.row? (e : Engine) (now : String) (r : Report) (body : String) (locate : Locator)
    (trap : TrapWriter) : Option DiagnosticRow :=
  match locate trap with
  | (.error _, _) => none
  | (.ok location, trap) =>
    let row := e.row now r body trap.freshLabel.1 location
    if (trap.freshLabel.2.writeDiagnostic row).1 = .ok () then some row else none

namespace Raised

variable (d : Raised)

def key? : Option Tally.Key := d.report.key?

/-- What the call is told, and the bench it leaves behind. -/
def answer : Receipt × Bench := d.bench.diagnostic d.now d.report d.place d.withState

def isHeldBack : Bool := decide ((d.bench.engine.screen d.report).1 = .heldBack)

/-- The body of the report with a notice. -/
def body (notice : Option String) : String :=
  d.report.body (UnitState.trailLines (d.bench.stateIf d.withState)) notice

/-- The row that the call stores. -/
def row? : Option DiagnosticRow :=
  match d.bench.engine.screen d.report with
  | (.heldBack, _) => none
  | (.goesOut notice, e) =>
    e.row? d.now d.report (d.body notice) d.place.locate d.bench.worker.trap

/-- Whether the call stores a row that shows the body and, below it, the notice of the limit. -/
def saysLimit : Bool :=
  match d.report.origin, d.row? with
  | some o, some row =>
    decide (row.full = d.now ++ " " ++ (d.body none ++ "\n" ++ Report.limitNotice o))
  | _, _ => false

end Raised

/-! ### Rows -/

/-- Where records are kept, a report adds what the search for its location stored, its row, if it
has one, and its association. -/
theorem Engine.records_row? (e : Engine) (now : String) (r : Report) (body : String) (place : Place)
    {trap : TrapWriter} (hk : trap.keeps = true) (state : Option UnitState) :
    ∃ associations : List AssociationRow,
      (e.emit now r body place.locate trap state).trap.records =
        (place.locate trap).2.records ++
          ((e.row? now r body place.locate trap).toList.map .diagnostic ++
            associations.map .association) := by
  rw [trap_emit, row?]
  have hk' := (place.keeps_locate trap).trans hk
  generalize place.locate trap = found at hk'
  obtain ⟨cause | location, found⟩ := found
  · exact ⟨[], by simp⟩
  · dsimp only
    let row := e.row now r body found.freshLabel.1 location
    let written := found.freshLabel.2.writeDiagnostic row
    have hw : written.2.records = found.records ++
        (if written.1 = .ok () then some row else none).toList.map .diagnostic := by
      refine (found.freshLabel.2.records_write .diagnostic (.diagnostic row)).trans ?_
      by_cases ho : written.1 = .ok ()
      · rw [if_pos ho, if_pos ⟨hk', ho⟩]
        rfl
      · rw [if_neg ho, if_neg fun h => ho h.2]
        rfl
    rcases e.store_cases now r body location found state with
      ⟨cause, _, h⟩ | ⟨_, _, h⟩ | ⟨s, _, _, h⟩
    · rw [h]
      exact ⟨[], by simpa using hw⟩
    · rw [h]
      exact ⟨[], by simpa using hw⟩
    · obtain ⟨associations, ha⟩ := records_associate written.2 s found.freshLabel.1
      rw [h]
      refine ⟨associations, ha.trans ?_⟩
      rw [hw, List.append_assoc]

/-- A stored row shows the body. -/
theorem Engine.full_row? {e : Engine} {now : String} {r : Report} {body : String}
    {locate : Locator} {trap : TrapWriter} {row : DiagnosticRow}
    (h : e.row? now r body locate trap = some row) : row.full = now ++ " " ++ body := by
  unfold row? at h
  split at h
  · cases h
  · dsimp only at h
    split at h
    · rw [← Option.some.inj h]
      rfl
    · cases h

/-- A report whose call returns well has stored its row. -/
theorem Engine.isSome_row? {e : Engine} {now : String} {r : Report} {body : String}
    {locate : Locator} {trap : TrapWriter} {state : Option UnitState}
    (h : (e.emit now r body locate trap state).receipt.result = .ok ()) :
    (e.row? now r body locate trap).isSome = true := by
  rcases e.emit_cases now r body locate trap state with
    ⟨cause, _, he⟩ | ⟨location, hl, ⟨cause, _, he⟩ | ⟨hs, _⟩⟩
  · rw [he] at h
    cases h
  · rw [he] at h
    cases h
  · unfold row?
    generalize locate trap = found at hl hs
    obtain ⟨_, found⟩ := found
    obtain rfl : _ = Except.ok location := hl
    have hw : (found.freshLabel.2.writeDiagnostic
        (e.row now r body found.freshLabel.1 location)).1 = .ok () := by
      rcases e.store_cases now r body location found state with
        ⟨cause, _, hc⟩ | ⟨ho, _, _⟩ | ⟨_, ho, _, _⟩
      · rw [hc] at hs
        cases hs
      · exact ho
      · exact ho
    dsimp only
    rw [if_pos hw]
    rfl

namespace Raised

variable {d : Raised}

/-- The count of a report and the limit decide whether it is held back. -/
theorem isHeldBack_iff : d.isHeldBack = true ↔ ∃ key, d.key? = some key ∧
    0 < d.bench.engine.tally.limit ∧
      d.bench.engine.tally.limit < ((d.bench.engine.occurrences key + 1 : Nat) : Int) := by
  rw [isHeldBack, decide_eq_true_iff]
  exact d.bench.engine.heldBack_iff d.report

/-- The report that brings its key to the limit goes out with the notice. -/
theorem screen_of_limit {key : Tally.Key} (hk : d.key? = some key)
    (hl : 0 < d.bench.engine.tally.limit)
    (hn : ((d.bench.engine.occurrences key + 1 : Nat) : Int) = d.bench.engine.tally.limit) :
    (d.bench.engine.screen d.report).1 = .goesOut (some (Report.limitNotice key.origin)) := by
  obtain ⟨o, ho, rfl⟩ := Option.map_eq_some_iff.mp hk
  rw [Engine.screen_of_some _ ho, Tally.verdict_eq_limitReached_iff.mpr ⟨hl, hn⟩]

theorem answer_of_isHeldBack (h : d.isHeldBack = true) : d.answer.1 = .done := by
  rcases d.bench.engine.diagnostic_cases d.now d.report d.place.locate d.bench.worker.trap
    (d.bench.stateIf d.withState) with ⟨_, ho⟩ | ⟨notice, hs, _⟩
  · exact congrArg Outcome.receipt ho
  · rw [isHeldBack, hs] at h
    simp at h

theorem row?_of_heldBack (h : (d.bench.engine.screen d.report).1 = .heldBack) :
    d.row? = none := by
  unfold row?
  split
  · rfl
  next hs => rw [hs] at h; cases h

theorem row?_of_goesOut {notice : Option String}
    (h : (d.bench.engine.screen d.report).1 = .goesOut notice) :
    d.row? = (d.bench.engine.screen d.report).2.row? d.now d.report (d.body notice) d.place.locate
      d.bench.worker.trap := by
  unfold row?
  split
  next hs => rw [hs] at h; cases h
  next hs => rw [hs] at h ⊢; rw [← Admission.goesOut.inj h]

/-- A row shows the body with the notice that its report carries. -/
theorem full_row? {row : DiagnosticRow} (h : d.row? = some row) :
    row.full = d.now ++ " " ++ d.body (d.bench.engine.notice d.report) := by
  cases hs : (d.bench.engine.screen d.report).1 with
  | heldBack =>
    rw [row?_of_heldBack hs] at h
    cases h
  | goesOut notice =>
    rw [row?_of_goesOut hs] at h
    rw [← Engine.notice_of_screen hs]
    exact Engine.full_row? h

/-- The row that a report stores shows the notice of the limit exactly if the report brings its
count to the limit. -/
theorem saysLimit_eq {key : Tally.Key} (hk : d.key? = some key) :
    d.saysLimit = (decide (0 < d.bench.engine.tally.limit ∧
      ((d.bench.engine.occurrences key + 1 : Nat) : Int) = d.bench.engine.tally.limit) &&
      d.row?.isSome) := by
  obtain ⟨o, ho, rfl⟩ := Option.map_eq_some_iff.mp hk
  unfold saysLimit
  cases hr : d.row? with
  | none => simp [ho]
  | some row =>
    have hbody : ∀ notice : String,
        d.body (some notice) = d.body none ++ "\n" ++ notice := by
      intro notice
      rw [body, Report.body_some, String.append_assoc]
      rfl
    have hn : d.bench.engine.notice d.report =
        if 0 < d.bench.engine.tally.limit ∧
            ((d.bench.engine.occurrences ⟨o, d.report.severity⟩ + 1 : Nat) : Int) =
              d.bench.engine.tally.limit then some (Report.limitNotice o)
        else none := by
      rw [Engine.notice, ho]
      rfl
    rw [ho, Option.isSome_some, Bool.and_true]
    dsimp only
    rw [full_row? hr, decide_eq_decide, hn]
    split
    next hl => exact iff_of_true (by rw [hbody]) hl
    next hl =>
      refine iff_of_false (fun he => ?_) hl
      -- without a notice the text is too short
      have hlen := congrArg String.length he
      have hone : "\n".length = 1 := rfl
      simp only [String.length_append] at hlen
      omega

/-- A report that does not find its location stores no row. -/
theorem row?_of_locate {cause : Failure}
    (h : (d.place.locate d.bench.worker.trap).1 = .error cause) : d.row? = none := by
  cases hs : (d.bench.engine.screen d.report).1 with
  | heldBack => exact row?_of_heldBack hs
  | goesOut notice =>
    rw [row?_of_goesOut hs, Engine.row?]
    generalize d.place.locate d.bench.worker.trap = found at h
    obtain ⟨cause | location, found⟩ := found
    · rfl
    · cases h

/-- A report that went out and stored no row was told of a failure. -/
theorem isSome_row?_of_ok {notice : Option String}
    (hs : (d.bench.engine.screen d.report).1 = .goesOut notice)
    (h : d.answer.1.result = .ok ()) : d.row?.isSome = true := by
  rcases d.bench.engine.diagnostic_cases d.now d.report d.place.locate d.bench.worker.trap
    (d.bench.stateIf d.withState) with ⟨hs', _⟩ | ⟨notice', hs', ho⟩
  · rw [hs] at hs'
    cases hs'
  · rw [row?_of_goesOut hs']
    have ha : d.answer.1 = _ := congrArg Outcome.receipt ho
    rw [ha] at h
    exact Engine.isSome_row? h

end Raised

/-! ### Counts along a run -/

/-- A report is raised on the engine of the run. -/
theorem Moment.engine_of_raised? {m : Moment} {d : Raised} (h : m.raised? = some d) :
    d.bench.engine = m.before.engine := by
  unfold raised? at h
  split at h
  · rw [← Option.some.inj h]
  · cases h

namespace Session

theorem raised_cons (s : Session) (st : Step) (rest : List Step) :
    s.raised (st :: rest) = (Moment.mk s st).raised?.toList ++ (s.step st).2.raised rest := by
  simp only [raised, history, List.filterMap_cons]
  cases (Moment.mk s st).raised? <;> rfl

/-- The keys of the reports of a run are the keys it counts. -/
theorem occurrences_step_raised (s : Session) (st : Step) (key : Tally.Key) :
    (s.step st).2.engine.occurrences key = s.engine.occurrences key +
      (Moment.mk s st).raised?.toList.countP fun d => decide (d.key? = some key) := by
  rw [s.occurrences_step, Moment.raised?]
  congr 1
  cases hw : s.workers[st.worker]? with
  | none =>
    have hi : ¬ st.worker < s.workers.length := by simpa using hw
    simp [timesCounted, hi]
  | some w =>
    have hi : st.worker < s.workers.length := (List.getElem?_eq_some_iff.mp hw).1
    cases hc : st.timed.call with
    | diagnostic r place withState =>
      by_cases hk : r.key? = some key <;>
        simp [timesCounted, hi, hc, EngineCall.key?, Raised.key?, hk]
    | _ => simp [timesCounted, hc, EngineCall.key?]

/-- The reports before a report of a run have counted its key. -/
theorem occurrences_raised {s : Session} {steps : List Step} {earlier later : List Raised}
    {d : Raised} (h : s.raised steps = earlier ++ d :: later) :
    d.bench.engine.tally.limit = s.engine.tally.limit ∧
      ∀ key, d.bench.engine.occurrences key =
        s.engine.occurrences key + earlier.countP fun n => decide (n.key? = some key) := by
  induction steps generalizing s earlier with
  | nil => cases earlier <;> cases h
  | cons st rest ih =>
    rw [raised_cons] at h
    have hcount := s.occurrences_step_raised st
    cases hm : (Moment.mk s st).raised? with
    | none =>
      rw [hm] at h hcount
      obtain ⟨hl, hn⟩ := ih h
      exact ⟨hl.trans (s.limit_step st), fun key => by rw [hn, hcount]; rfl⟩
    | some first =>
      rw [hm] at h hcount
      cases earlier with
      | nil =>
        obtain ⟨rfl, -⟩ := List.cons.inj h
        rw [Moment.engine_of_raised? hm]
        exact ⟨rfl, fun key => rfl⟩
      | cons n earlier =>
        obtain ⟨rfl, htail⟩ := List.cons.inj h
        obtain ⟨hl, hn⟩ := ih htail
        refine ⟨hl.trans (s.limit_step st), fun key => ?_⟩
        rw [hn, hcount, Nat.add_assoc, ← List.countP_append]
        rfl

end Session

/-- Among more than so many items that count, there is one with so many before it. -/
theorem exists_countP_eq {α : Type} {p : α → Bool} {items : List α} {n : Nat}
    (h : n < items.countP p) :
    ∃ before x after, items = before ++ x :: after ∧ p x = true ∧ before.countP p = n := by
  induction items generalizing n with
  | nil => simp at h
  | cons first rest ih =>
    cases hp : p first with
    | false =>
      rw [List.countP_cons_of_neg (by simp [hp])] at h
      obtain ⟨before, x, after, rfl, hx, hb⟩ := ih h
      exact ⟨first :: before, x, after, rfl, hx, by rw [List.countP_cons_of_neg (by simp [hp]), hb]⟩
    | true =>
      rw [List.countP_cons_of_pos hp] at h
      cases n with
      | zero => exact ⟨[], first, rest, rfl, hp, rfl⟩
      | succ n =>
        obtain ⟨before, x, after, rfl, hx, hb⟩ := ih (Nat.lt_of_succ_lt_succ h)
        exact ⟨first :: before, x, after, rfl, hx, by rw [List.countP_cons_of_pos hp, hb]⟩

/-! ### Notices along a run -/

/-- What a call that raised a report did to records that are kept: after what the search for its
location stored come its row, if it has one, and its association. -/
def Raised.Stores (d : Raised) : Prop :=
  d.bench.worker.trap.keeps = true →
    ∃ (found : List TrapRecord) (associations : List AssociationRow),
      d.answer.2.worker.trap.records = d.bench.worker.trap.records ++ found ++
        (d.row?.toList.map .diagnostic ++ associations.map .association)

theorem Raised.stores (d : Raised) : d.Stores := by
  intro hk
  obtain ⟨found, hf⟩ := d.place.records_locate d.bench.worker.trap
  rcases d.bench.engine.diagnostic_cases d.now d.report d.place.locate d.bench.worker.trap
    (d.bench.stateIf d.withState) with ⟨hs, ho⟩ | ⟨notice, hs, ho⟩
  · have ha : d.answer.2.worker.trap = d.bench.worker.trap := congrArg Outcome.trap ho
    exact ⟨[], [], by simp [ha, row?_of_heldBack hs]⟩
  · obtain ⟨associations, ha⟩ := (d.bench.engine.screen d.report).2.records_row? d.now d.report
      (d.body notice) d.place hk (d.bench.stateIf d.withState)
    have hafter : d.answer.2.worker.trap = _ := congrArg Outcome.trap ho
    rw [hf] at ha
    rw [hafter, row?_of_goesOut hs]
    exact ⟨found, associations, ha⟩

namespace Session

variable {settings : Settings} {stream : LogStream} {workers : List Worker} {steps : List Step}

/-- In a run that begins with no counts, the reports before a report have made its counts. -/
theorem counts_raised {earlier later : List Raised} {n : Raised}
    (h : (Session.mk (.ofStream settings stream) workers).raised steps = earlier ++ n :: later) :
    n.bench.engine.tally.limit = settings.limit ∧
      ∀ key, n.bench.engine.occurrences key =
        earlier.countP fun m => decide (m.key? = some key) := by
  obtain ⟨hl, hn⟩ := occurrences_raised h
  refine ⟨hl, fun key => ?_⟩
  have hzero : (Engine.ofStream settings stream).occurrences key = 0 := Std.HashMap.getD_empty
  rw [hn, hzero, Nat.zero_add]

/-- A report is held back once its key has had its share. -/
theorem isHeldBack_raised {earlier later : List Raised} {d : Raised}
    (h : (Session.mk (.ofStream settings stream) workers).raised steps = earlier ++ d :: later)
    {key : Tally.Key} (hk : d.key? = some key) (hl : 0 < settings.limit)
    (hn : settings.limit ≤ earlier.countP fun m => decide (m.key? = some key)) :
    d.isHeldBack = true := by
  obtain ⟨hlimit, hcount⟩ := counts_raised h
  refine Raised.isHeldBack_iff.mpr ⟨key, hk, ?_, ?_⟩
  · rw [hlimit]
    exact hl
  · rw [hlimit, hcount]
    omega

/-- A report stores the notice exactly if it is the one that brings its key to the limit, and
stores a row at all. -/
theorem saysLimit_raised {earlier later : List Raised} {n : Raised}
    (h : (Session.mk (.ofStream settings stream) workers).raised steps = earlier ++ n :: later)
    {key : Tally.Key} (hk : n.key? = some key) :
    n.saysLimit = (decide (0 < settings.limit ∧
      ((earlier.countP fun m => decide (m.key? = some key)) + 1 : Nat) = settings.limit) &&
      n.row?.isSome) := by
  obtain ⟨hl, hn⟩ := counts_raised h
  rw [n.saysLimit_eq hk, hl, hn]

/-- Only the report that brings its key to the limit can store the notice. -/
theorem countP_saysLimit {before after later : List Raised} {last : Raised}
    (h : (Session.mk (.ofStream settings stream) workers).raised steps =
      before ++ last :: after ++ later)
    (hl : 0 < settings.limit) {key : Tally.Key} (hk : last.key? = some key)
    (hn : ((before.countP fun m => decide (m.key? = some key)) + 1 : Nat) = settings.limit) :
    (before ++ last :: after).countP (fun n => decide (n.key? = some key) && n.saysLimit) =
      if last.row?.isSome then 1 else 0 := by
  have hnotice : ∀ earlier n rest, before ++ last :: after = earlier ++ n :: rest →
      n.key? = some key →
      (earlier.countP fun m => decide (m.key? = some key)) ≠
        before.countP (fun m => decide (m.key? = some key)) → n.saysLimit = false := by
    intro earlier n rest hs hnk hne
    rw [hs, List.append_assoc, List.cons_append] at h
    rw [saysLimit_raised h hnk, decide_eq_false (by omega), Bool.false_and]
  have hbefore : before.countP (fun n => decide (n.key? = some key) && n.saysLimit) = 0 := by
    rw [List.countP_eq_zero]
    intro n hm
    obtain ⟨earlier, rest, rfl⟩ := List.append_of_mem hm
    by_cases hnk : n.key? = some key
    · rw [hnotice earlier n (rest ++ last :: after) (by simp) hnk (by simp [hnk]), Bool.and_false]
      exact Bool.false_ne_true
    · simp [hnk]
  have hafter : after.countP (fun n => decide (n.key? = some key) && n.saysLimit) = 0 := by
    rw [List.countP_eq_zero]
    intro n hm
    obtain ⟨earlier, rest, rfl⟩ := List.append_of_mem hm
    by_cases hnk : n.key? = some key
    · rw [hnotice (before ++ last :: earlier) n rest (by simp) hnk (by simp [hk]),
        Bool.and_false]
      exact Bool.false_ne_true
    · simp [hnk]
  have hlast : last.saysLimit = last.row?.isSome := by
    rw [List.append_assoc, List.cons_append] at h
    rw [saysLimit_raised h hk, decide_eq_true ⟨hl, hn⟩, Bool.true_and]
  rw [List.countP_append, hbefore, Nat.zero_add, List.countP_cons, hafter, Nat.zero_add, hlast, hk]
  simp

end Session

/-- Whoever raises the reports and whatever fails: before a report is held back, one report brought
its key to the limit, and that report went out with the notice. The notice is stored by that report
or by none, and its caller was told of a failure if it was not stored. So there is exactly one
stored notice if, and only if, that one report stored its row. -/
theorem notice_precedes_suppression {settings : Settings} {stream : LogStream}
    {workers : List Worker} {steps : List Step} {earlier later : List Raised} {d : Raised}
    (h : (Session.mk (.ofStream settings stream) workers).raised steps = earlier ++ d :: later)
    (hd : d.isHeldBack = true) :
    d.answer.1 = .done ∧ (∀ n ∈ earlier, n.Stores) ∧
    ∃ before last after, earlier = before ++ last :: after ∧ last.key? = d.key? ∧
      ((before.countP fun n => decide (n.key? = d.key?)) + 1 : Nat) = settings.limit ∧
      last.bench.engine.notice last.report = d.report.origin.map Report.limitNotice ∧
      (last.answer.1.result = .ok () → last.row?.isSome = true) ∧
      earlier.countP (fun n => decide (n.key? = d.key?) && n.saysLimit) =
        if last.row?.isSome then 1 else 0 := by
  refine ⟨Raised.answer_of_isHeldBack hd, fun n _ => n.stores, ?_⟩
  obtain ⟨key, hk, hl, hlt⟩ := Raised.isHeldBack_iff.mp hd
  obtain ⟨hlimit, hcount⟩ := Session.counts_raised h
  rw [hlimit] at hl hlt
  rw [hcount] at hlt
  have hmany : (settings.limit - 1).toNat <
      earlier.countP fun n => decide (n.key? = some key) := by
    omega
  obtain ⟨before, last, after, rfl, hlast, hbefore⟩ := exists_countP_eq hmany
  have hlk : last.key? = some key := of_decide_eq_true hlast
  have hn : ((before.countP fun n => decide (n.key? = some key)) + 1 : Nat) = settings.limit := by
    omega
  have hat := h
  rw [List.append_assoc, List.cons_append] at hat
  obtain ⟨hlimit', hcount'⟩ := Session.counts_raised hat
  have hout := last.screen_of_limit hlk (by rw [hlimit']; exact hl)
    (by rw [hlimit', hcount']; exact hn)
  obtain ⟨o, ho, rfl⟩ := Option.map_eq_some_iff.mp hk
  rw [hk]
  refine ⟨before, last, after, rfl, hlk, hn, ?_, Raised.isSome_row?_of_ok hout,
    Session.countP_saysLimit h hl hlk hn⟩
  rw [← Engine.notice_of_screen hout, ho]
  rfl

/-- With a limit of one, a report is stored with the notice and the next one is held back. -/
theorem notice_precedes_suppression_next :
    let r : Report := { severity := .warn, message := "odd", origin := some ⟨"a.rs", 7, 3⟩ }
    let call : Step := ⟨0, "t", .diagnostic r .fresh true⟩
    let unit : Worker := { trap := .recording fun _ _ => false, state := { fileNumber := 0 } }
    let start : Session := ⟨.ofStream { limit := 1 } (.memory {}), [unit]⟩
    let first : Raised := ⟨⟨start.engine, unit⟩, "t", r, .fresh, true⟩
    let second : Raised := ⟨first.answer.2, "t", r, .fresh, true⟩
    start.raised [call, call] = [first] ++ second :: [] ∧ second.isHeldBack = true ∧
      second.answer.1 = .done ∧
      [first].countP (fun n => decide (n.key? = second.key?) && n.saysLimit) = 1 := by
  intro r call unit start first second
  have hr : start.raised [call, call] = [first] ++ second :: [] := rfl
  have hd := Session.isHeldBack_raised hr rfl Int.one_pos (by decide)
  obtain ⟨hdone, -, before, last, after, he, -, -, -, -, hone⟩ := notice_precedes_suppression hr hd
  obtain ⟨rfl, rfl⟩ : before = [] ∧ last = first := by
    cases before with
    | nil => exact ⟨rfl, (List.cons.inj he).1.symm⟩
    | cons n before => simp at he
  obtain ⟨-, hcount⟩ := Session.counts_raised (show _ = [] ++ first :: [second] from hr)
  have hout := first.screen_of_limit (show first.key? = some _ from rfl) Int.one_pos
    (by rw [hcount]; rfl)
  rw [Raised.row?_of_goesOut hout] at hone
  exact ⟨hr, hd, hdone, hone⟩

/-- The notice can be missing: the one report that would have stored it does not find its location,
and the next report is held back all the same. -/
theorem notice_may_be_missing :
    ¬ ∀ (settings : Settings) (stream : LogStream) (workers : List Worker) (steps : List Step)
      (earlier later : List Raised) (d : Raised), 0 < settings.limit →
      (Session.mk (.ofStream settings stream) workers).raised steps = earlier ++ d :: later →
      d.isHeldBack = true → d.answer.1.result = .ok () →
      earlier.countP (fun n => decide (n.key? = d.key?) && n.saysLimit) = 1 := by
  intro hall
  let r : Report := { severity := .warn, message := "odd", origin := some ⟨"a.rs", 7, 3⟩ }
  let nowhere : Place := .resolved (.error (.reported "lost"))
  let somewhere : Place := .resolved (.ok ⟨7⟩)
  let unit : Worker := { trap := .recording fun _ _ => false, state := { fileNumber := 0 } }
  let start : Session := ⟨.ofStream { limit := 1 } (.memory {}), [unit]⟩
  let first : Raised := ⟨⟨start.engine, unit⟩, "t", r, nowhere, true⟩
  let second : Raised := ⟨first.answer.2, "t", r, somewhere, true⟩
  have hr : start.raised [⟨0, "t", .diagnostic r nowhere true⟩,
      ⟨0, "t", .diagnostic r somewhere true⟩] = [first] ++ second :: [] := rfl
  have hd := Session.isHeldBack_raised hr rfl Int.one_pos (by decide)
  have hok : second.answer.1.result = .ok () := by rw [Raised.answer_of_isHeldBack hd]; rfl
  have hone := hall _ _ _ _ _ _ second Int.one_pos hr hd hok
  have hnone : first.row? = none := Raised.row?_of_locate rfl
  have hnotice : first.saysLimit = false := by
    rw [Session.saysLimit_raised (show _ = [] ++ first :: [second] from hr) rfl, hnone]
    rfl
  rw [List.countP_singleton, hnotice, Bool.and_false] at hone
  exact absurd hone (by decide)

end DiagnosticLog
