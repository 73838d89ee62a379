import DiagnosticLog.Proofs.Limiting
import DiagnosticLog.Proofs.Lockstep
import DiagnosticLog.Proofs.Scopes

/-! Calls that do no work. A call below the verbosity does nothing, and a report that is held back
does nothing but count. So such calls can be taken out of the programs of a run: all that is left
does what it did, and only the counts of the reports that were taken out are behind. -/

namespace DiagnosticLog

/-! ### Idle calls -/

namespace LoggerCall

/-- The report that a call raises when it is let through. -/
def report? (call : LoggerCall) : Option Report :=
  match call.engineCall .plain with
  | .diagnostic r _ _ => some r
  | _ => none

def key? (call : LoggerCall) : Option Tally.Key := call.report?.bind Report.key?

/-- The kind of the logger does not matter to the report. -/
theorem engineCall_of_report? (kind : LoggerKind) {call : LoggerCall} {r : Report}
    (h : call.report? = some r) :
    ∃ place withState, call.engineCall kind = .diagnostic r place withState := by
  cases call <;> cases h <;> exact ⟨_, _, rfl⟩

end LoggerCall

/-- Whether the report of a call would be held back. -/
def Bench.holdsBack (b : Bench) (call : LoggerCall) : Bool :=
  call.report?.any fun r => decide ((b.engine.screen r).1 = .heldBack)

/-- Whether a call has no work to do: it is below the verbosity, or its report is held back. -/
def Bench.idles (b : Bench) (call : LoggerCall) : Bool :=
  !call.passes b.engine.settings.verbosity || b.holdsBack call

/-- The key under which a call is counted; a call below the verbosity is not counted. -/
def Bench.counts (b : Bench) (key : Tally.Key) (call : LoggerCall) : Bool :=
  call.passes b.engine.settings.verbosity && decide (call.key? = some key)

namespace Engine

/-- An engine, and one that has missed some reports of keys that had their share. -/
structure Behind (missed : Tally.Key → Nat) (e e' : Engine) : Prop where
  settings : e'.settings = e.settings
  limit : e'.tally.limit = e.tally.limit
  stream : e'.stream = e.stream
  counts : ∀ key, e.occurrences key = e'.occurrences key + missed key
  share : ∀ key, 0 < missed key → 0 < e.tally.limit ∧ e.tally.limit ≤ e'.occurrences key

variable {missed : Tally.Key → Nat} {e e' : Engine}

theorem Behind.refl (e : Engine) : e.Behind (fun _ => 0) e :=
  ⟨rfl, rfl, rfl, fun _ => rfl, fun _ h => absurd h (Nat.lt_irrefl 0)⟩

theorem lockstep_behind (missed : Tally.Key → Nat) : Engine.Lockstep (Behind missed) where
  settings := fun h => h.settings
  writeLine := by
    intro e e' h message
    refine ⟨?_, h.settings, h.limit, ?_, h.counts, h.share⟩
    · simp only [writeLine, h.stream, h.settings]
    · simp only [writeLine, h.stream, h.settings]
  flush := by
    intro e e' h
    refine ⟨?_, h.settings, h.limit, ?_, h.counts, h.share⟩
    · simp only [flush, h.stream]
    · simp only [flush, h.stream]

/-- A key of which reports were missed has had its share on both sides. -/
theorem Behind.verdict (h : e.Behind missed e') (key : Tally.Key) :
    Tally.verdict e'.tally.limit (e'.occurrences key + 1) =
      Tally.verdict e.tally.limit (e.occurrences key + 1) := by
  have hc := h.counts key
  have hs := h.share key
  rw [h.limit]
  by_cases hm : 0 < missed key
  · rw [Tally.verdict_eq_suppressed_iff.mpr, Tally.verdict_eq_suppressed_iff.mpr] <;> omega
  · rw [hc, Nat.eq_zero_of_not_pos hm, Nat.add_zero]

theorem Behind.counted (h : e.Behind missed e') (key : Tally.Key) :
    (e.counted key).Behind missed (e'.counted key) := by
  refine ⟨h.settings, h.limit, h.stream, ?_, ?_⟩
  · intro k
    rw [occurrences_counted, occurrences_counted, h.counts k]
    omega
  · intro k hk
    obtain ⟨hl, hn⟩ := h.share k hk
    refine ⟨hl, ?_⟩
    rw [occurrences_counted]
    exact Int.le_trans hn (by omega)

theorem admitsAlike_behind (missed : Tally.Key → Nat) : Engine.AdmitsAlike (Behind missed) := by
  intro e e' h r
  cases ho : r.origin with
  | none =>
    rw [e.screen_of_none ho, e'.screen_of_none ho]
    exact ⟨rfl, h⟩
  | some o =>
    rw [e.screen_of_some ho, e'.screen_of_some ho, h.verdict]
    exact ⟨rfl, h.counted _⟩

/-- A report that was held back on the one side was missed on the other. -/
theorem Behind.miss (h : e.Behind missed e') {r : Report} (hr : (e.screen r).1 = .heldBack) :
    (e.screen r).2.Behind
      (fun key => missed key + if r.key? = some key then 1 else 0) e' := by
  obtain ⟨key, hk, hl, hn⟩ := (e.heldBack_iff r).mp hr
  refine ⟨?_, ?_, ?_, ?_, ?_⟩
  · rw [settings_screen, h.settings]
  · rw [limit_screen, h.limit]
  · rw [stream_screen, h.stream]
  · intro k
    rw [occurrences_screen, h.counts k, Nat.add_assoc]
  · intro k hm
    rw [limit_screen]
    by_cases hmk : 0 < missed k
    · exact h.share k hmk
    · have hc := h.counts k
      rw [hk] at hm
      split at hm
      next he =>
        obtain rfl : key = k := Option.some.inj he
        exact ⟨hl, by omega⟩
      next => omega

end Engine

/-! ### Deletion -/

/-- Which idle calls are taken out. The choice is made on the bench on which a call would be
performed. -/
structure Deletion where
  drops : Bench → LoggerCall → Bool
  idle : ∀ b call, drops b call = true → b.idles call = true

namespace Deletion

/-- Every idle call is taken out. -/
def all : Deletion := ⟨Bench.idles, fun _ _ h => h⟩

/-- The calls below the verbosity are taken out. -/
def gated : Deletion where
  drops b call := !call.passes b.engine.settings.verbosity
  idle b call h := by rw [Bench.idles, h, Bool.true_or]

end Deletion

/-- Calls without those that are taken out. -/
def LoggerKind.thin (kind : LoggerKind) (d : Deletion) :
    List (Timed LoggerCall) → Bench → List (Timed LoggerCall)
  | [], _ => []
  | c :: rest, b =>
    let later := kind.thin d rest (kind.perform b c.now c.call).2
    if d.drops b c.call then later else c :: later

/-- A program without the calls that are taken out. Calls that the run does not come to are left. -/
def Script.thin (kind : LoggerKind) (d : Deletion) : Script → Bench → Script
  | .calls cs rest, b =>
    .calls (kind.thin d cs b) (rest.thin kind d (kind.performAll b cs).2)
  | .look rest, b => .look (rest.thin kind d b)
  | .within frame body rest, b =>
    let after := ((within frame body .done).run kind b).bench
    .within frame (body.thin kind d (b.enter frame)) (rest.thin kind d after)
  | .guarded body rest, b =>
    let after := ((guarded body .done).run kind b).bench
    .guarded (body.thin kind d b) (rest.thin kind d after)
  | .done, _ => .done
  | .leave, _ => .leave
  | .bail, _ => .bail

/-- A turn without the calls that are taken out of its program. -/
def Session.thinTurn (s : Session) (d : Deletion) : Turn → Turn
  | .step st => .step st
  | .program i kind script =>
    .program i kind (s.act i script fun b => (script.thin kind d b, b)).1

/-- Turns without the calls that are taken out of their programs. -/
def Session.thin (s : Session) (d : Deletion) : List Turn → List Turn
  | [] => []
  | t :: ts => s.thinTurn d t :: (s.turn t).2.thin d ts

namespace Passage

/-- Whether this is a call of some kind, on its bench. -/
def isCall (p : Passage) (kind : Bench → LoggerCall → Bool) : Bool :=
  p.answer.any fun a => kind p.before a.1.call

/-- The answers to the calls that are not taken out. -/
def kept (d : Deletion) (passages : List Passage) : List (Timed LoggerCall × Receipt) :=
  (passages.filter fun p => !p.isCall d.drops).filterMap answer

/-- How many of the calls that are taken out count a key. -/
def missed (d : Deletion) (passages : List Passage) (key : Tally.Key) : Nat :=
  passages.countP fun p => p.isCall d.drops && p.isCall fun b call => b.counts key call

@[simp] theorem kept_nil (d : Deletion) : kept d [] = [] := rfl

@[simp] theorem missed_nil (d : Deletion) (key : Tally.Key) : missed d [] key = 0 := rfl

@[simp] theorem kept_append (d : Deletion) (passages more : List Passage) :
    kept d (passages ++ more) = kept d passages ++ kept d more := by
  simp [kept]

@[simp] theorem missed_append (d : Deletion) (passages more : List Passage) (key : Tally.Key) :
    missed d (passages ++ more) key = missed d passages key + missed d more key := by
  simp [missed]

variable (d : Deletion) (inside : Trail) (before after : Bench) (c : Timed LoggerCall)
  (receipt : Receipt) (rest : List Passage) (key : Tally.Key)

/-- A call that is taken out leaves no answer. -/
theorem kept_call :
    kept d (⟨inside, before, after, some (c, receipt)⟩ :: rest) =
      if d.drops before c.call then kept d rest else (c, receipt) :: kept d rest := by
  cases h : d.drops before c.call <;> simp [kept, isCall, h]

theorem missed_call :
    missed d (⟨inside, before, after, some (c, receipt)⟩ :: rest) key =
      (if d.drops before c.call ∧ before.counts key c.call then 1 else 0) + missed d rest key := by
  rw [missed, List.countP_cons, Nat.add_comm, missed]
  simp [isCall]

/-- A body is kept, but its answers are those of the calls inside. -/
@[simp] theorem kept_body :
    kept d (⟨inside, before, after, none⟩ :: rest) = kept d rest := by
  simp [kept, isCall]

@[simp] theorem missed_body :
    missed d (⟨inside, before, after, none⟩ :: rest) key = missed d rest key := by
  simp [missed, isCall]

/-- Calls below the verbosity are not counted. -/
theorem missed_gated (passages : List Passage) (key : Tally.Key) :
    missed .gated passages key = 0 := by
  refine List.countP_eq_zero.mpr fun p _ hp => ?_
  obtain ⟨hd, hc⟩ := Bool.and_eq_true_iff.mp hp
  cases ha : p.answer with
  | none => simp [isCall, ha] at hd
  | some a =>
    simp only [isCall, ha, Option.any_some, Deletion.gated, Bool.not_eq_true'] at hd hc
    rw [Bench.counts, hd] at hc
    cases hc

end Passage

/-! ### Calls of a unit -/

/-- Benches of which the second has missed some reports. -/
abbrev Bench.Behind (missed : Tally.Key → Nat) (b b' : Bench) : Prop :=
  b.Related (Engine.Behind missed) Eq b'

section Calls

variable {missed : Tally.Key → Nat} {b b' : Bench}

/-- The side without an idle call is behind by what the call counts, and by nothing else. -/
theorem Bench.Behind.idle (h : b.Behind missed b') (kind : LoggerKind) (now : String)
    {call : LoggerCall} (hc : b.idles call = true) :
    (kind.perform b now call).2.Behind
      (fun key => missed key + if b.counts key call then 1 else 0) b' := by
  cases hp : call.passes b.engine.settings.verbosity with
  | false =>
    have hn : ∀ key, b.counts key call = false := by
      intro key
      rw [Bench.counts, hp, Bool.false_and]
    have hcall : kind.perform b now call = (.done, b) := by
      rw [kind.perform_eq, hp]
      rfl
    rw [hcall]
    simpa only [hn, Bool.false_eq_true, if_false, Nat.add_zero] using h
  | true =>
    obtain ⟨r, hr, hs⟩ : ∃ r, call.report? = some r ∧ (b.engine.screen r).1 = .heldBack := by
      simpa [Bench.idles, hp, Bench.holdsBack, Option.any_eq_true] using hc
    obtain ⟨place, withState, hcall⟩ := LoggerCall.engineCall_of_report? kind hr
    have hcounts : ∀ key, b.counts key call = decide (r.key? = some key) := by
      intro key
      rw [Bench.counts, hp, Bool.true_and, LoggerCall.key?, hr]
      rfl
    have hd : kind.perform b now call = b.diagnostic now r place withState := by
      rw [kind.perform_eq, if_pos hp, hcall]
      rfl
    rw [hd, b.diagnostic_of_heldBack now place withState hs]
    simp only [hcounts, decide_eq_true_eq]
    exact ⟨h.engine.miss hs, h.worker⟩

/-- Calls without idle ones are told what they were told among them. -/
theorem Bench.Behind.calls {d : Deletion} (kind : LoggerKind) (inside : Trail)
    (cs : List (Timed LoggerCall)) (h : b.Behind missed b') :
    let passages := kind.passages inside cs b
    let thinned := kind.thin d cs b
    thinned.zip (kind.performAll b' thinned).1 = Passage.kept d passages ∧
      (kind.performAll b cs).2.Behind (fun key => missed key + Passage.missed d passages key)
        (kind.performAll b' thinned).2 := by
  induction cs generalizing missed b b' with
  | nil => exact ⟨rfl, h⟩
  | cons c rest ih =>
    have hall : kind.performAll b (c :: rest) = _ := inTurn_cons ..
    simp only [LoggerKind.passages, LoggerKind.thin, hall]
    cases hc : d.drops b c.call with
    | true =>
      obtain ⟨hk, hr⟩ := ih (h.idle kind c.now (d.idle b c.call hc))
      simp only [Passage.kept_call, Passage.missed_call, hc, if_true, true_and, ← Nat.add_assoc]
      exact ⟨hk, hr⟩
    | false =>
      have hi := h.performLogger (Engine.lockstep_behind missed) (Engine.admitsAlike_behind missed)
        TrapWriter.lockstep_eq kind c.now c.call
      obtain ⟨hk, hr⟩ := ih hi.state
      have hall' : ∀ later, kind.performAll b' (c :: later) = _ := fun later => inTurn_cons ..
      simp only [Passage.kept_call, Passage.missed_call, hc, Bool.false_eq_true, if_false,
        false_and, Nat.zero_add, hall', List.zip_cons_cons, hi.answer]
      exact ⟨congrArg (_ :: ·) hk, hr⟩

/-- A program without idle calls ends as it did, and is told what it was told. -/
theorem Bench.Behind.script {d : Deletion} (kind : LoggerKind) (inside : Trail) (script : Script)
    (h : b.Behind missed b') :
    let passages := script.passages kind inside b
    let run := script.run kind b
    let thinned := (script.thin kind d b).run kind b'
    thinned.exit = run.exit ∧
      thinned.events.flatMap Event.answered = Passage.kept d passages ∧
      run.bench.Behind (fun key => missed key + Passage.missed d passages key) thinned.bench := by
  induction script generalizing inside missed b b' with
  | done | leave | bail => exact ⟨rfl, rfl, h⟩
  | look rest ih => exact ih inside h
  | calls cs rest ih =>
    obtain ⟨ha, hb⟩ := h.calls kind inside cs
    obtain ⟨he, hk, hr⟩ := ih inside hb
    simp only [Script.passages, Passage.kept_append, Passage.missed_append, ← Nat.add_assoc]
    refine ⟨he, ?_, hr⟩
    rw [← ha, ← hk]
    rfl
  | within frame body rest ihb ihr =>
    obtain ⟨he, hk, hb⟩ := ihb (frame :: inside) (h.enter frame)
    have hout := hb.leave
    obtain ⟨he', hk', hr⟩ := ihr inside hout
    simp only [Script.passages, Script.thin, Script.run, he, Passage.kept_append,
      Passage.missed_append, ← Nat.add_assoc]
    cases hx : (body.run kind (b.enter frame)).exit with
    | bailed =>
      refine ⟨rfl, ?_, ?_⟩
      · simp [Event.answered, hk]
      · simpa using hout
    | finished | left =>
      refine ⟨he', ?_, ?_⟩
      · simp [ScriptRun.after, Event.answered, hk, hk']
      · simpa [ScriptRun.after] using hr
  | guarded body rest ihb ihr =>
    obtain ⟨he, hk, hb⟩ := ihb inside h
    obtain ⟨he', hk', hr⟩ := ihr inside hb
    simp only [Script.passages, Script.thin, Script.run, he, Passage.kept_append,
      Passage.missed_append, ← Nat.add_assoc]
    refine ⟨he', ?_, by simpa [ScriptRun.after] using hr⟩
    cases (body.run kind b).exit <;> simp [ScriptRun.after, Event.answered, hk, hk']

end Calls

/-! ### Turns -/

/-- What is thrown by a whole program adds no answer. -/
theorem Script.answered_runUnit (kind : LoggerKind) (script : Script) (b : Bench) :
    (script.runUnit kind b).1.flatMap Event.answered =
      (script.run kind b).events.flatMap Event.answered := by
  simp only [runUnit]
  cases (script.run kind b).exit <;> simp [Event.answered]

namespace Session

/-- The passages of a turn that runs a program. -/
def passagesOf (s : Session) : Turn → List Passage
  | .step _ => []
  | .program i kind script => (s.act i [] fun b => (script.passages kind b.trail b, b)).1

/-- What the calls of a turn that runs a program are told. -/
def answersOf (s : Session) : Turn → List (Timed LoggerCall × Receipt)
  | .step _ => []
  | .program i kind script => (s.act i [] (script.runUnit kind)).1.flatMap Event.answered

/-- The passages of a run, turn by turn. -/
def passages (s : Session) : List Turn → List (List Passage)
  | [] => []
  | t :: ts => s.passagesOf t :: (s.turn t).2.passages ts

/-- What the calls of a run are told, turn by turn. -/
def answers (s : Session) : List Turn → List (List (Timed LoggerCall × Receipt))
  | [] => []
  | t :: ts => s.answersOf t :: (s.turn t).2.answers ts

/-- The passages of a turn have its calls. -/
theorem answersOf_eq (s : Session) (t : Turn) :
    s.answersOf t = (s.passagesOf t).filterMap Passage.answer := by
  cases t with
  | step st => rfl
  | program i kind script =>
    rw [answersOf, passagesOf]
    cases hw : s.workers[i]? with
    | none =>
      rw [s.act_of_none hw, s.act_of_none hw]
      rfl
    | some w =>
      rw [s.act_of_getElem? hw, s.act_of_getElem? hw, script.answered_runUnit]
      exact (script.answers_passages kind _ _).symm

theorem answers_eq (s : Session) (ts : List Turn) :
    s.answers ts = (s.passages ts).map (fun passages => passages.filterMap Passage.answer) := by
  induction ts generalizing s with
  | nil => rfl
  | cons t ts ih => rw [answers, passages, List.map_cons, ih, s.answersOf_eq]

/-- Sessions of which the second has missed some reports. -/
abbrev Behind (missed : Tally.Key → Nat) (s s' : Session) : Prop :=
  s.Related (Engine.Behind missed) Eq s'

variable {missed : Tally.Key → Nat} {s s' : Session} {d : Deletion}

theorem Behind.turn (h : s.Behind missed s') (t : Turn) :
    s'.answersOf (s.thinTurn d t) = Passage.kept d (s.passagesOf t) ∧
      (s.turn t).2.Behind (fun key => missed key + Passage.missed d (s.passagesOf t) key)
        (s'.turn (s.thinTurn d t)).2 := by
  cases t with
  | step st =>
    have hs := h.step (Engine.lockstep_behind missed) TrapWriter.lockstep_eq trivial
      st.timed.call.lockstep_eq fun r _ _ _ => Engine.admitsAlike_behind missed h.engine r
    exact ⟨rfl, hs.state⟩
  | program i kind script =>
    rcases h.worker (i := i) trivial with ⟨hw, hw'⟩ | ⟨w, w', hw, hw', hrel⟩
    · simp only [thinTurn, answersOf, passagesOf, Session.turn, s.act_of_none hw,
        s'.act_of_none hw']
      exact ⟨rfl, h⟩
    · have hb : Bench.Behind missed ⟨s.engine, w⟩ ⟨s'.engine, w'⟩ := ⟨h.engine, hrel⟩
      obtain ⟨-, ha, hr⟩ := hb.script kind (Bench.trail ⟨s.engine, w⟩) script
      have hlt := (List.getElem?_eq_some_iff.mp hw).1
      have hlt' := (List.getElem?_eq_some_iff.mp hw').1
      simp only [thinTurn, answersOf, passagesOf, Session.turn, s.act_of_getElem? hw,
        s'.act_of_getElem? hw', Script.answered_runUnit]
      exact ⟨ha, h.set hlt hlt' hr⟩

/-- A run without idle calls is told what it was told, and its counts are behind by the idle calls
that were taken out. -/
theorem Behind.turns (h : s.Behind missed s') (ts : List Turn) :
    s'.answers (s.thin d ts) = (s.passages ts).map (Passage.kept d) ∧
      (s.turns ts).2.Behind
        (fun key => missed key + Passage.missed d (s.passages ts).flatten key)
        (s'.turns (s.thin d ts)).2 := by
  induction ts generalizing missed s s' with
  | nil => exact ⟨rfl, h⟩
  | cons t ts ih =>
    obtain ⟨ha, ht⟩ := h.turn t
    obtain ⟨has, hts⟩ := ih ht
    rw [thin, turns_cons, turns_cons, answers, passages, List.map_cons, List.flatten_cons, ha, has]
    simp only [Passage.missed_append, ← Nat.add_assoc]
    exact ⟨trivial, hts⟩

end Session

/-- Calls that do no work can be deleted. From the programs of a run, let any calls be taken out
that are below the verbosity or whose reports are held back. Whatever is refused and whatever fails,
the log and every unit end as they did, and all other calls are told what they were told. The counts
are behind by the reports that were taken out, each under its own key; without calls below the
verbosity they are the same. -/
theorem idle_calls_can_be_deleted (d : Deletion) (s : Session) (ts : List Turn) :
    let whole := (s.turns ts).2
    let thinned := (s.turns (s.thin d ts)).2
    s.answers ts = (s.passages ts).map (fun passages => passages.filterMap Passage.answer) ∧
    s.answers (s.thin d ts) = (s.passages ts).map (Passage.kept d) ∧
    thinned.engine.stream = whole.engine.stream ∧
    thinned.workers = whole.workers ∧
    (∀ key, whole.engine.occurrences key =
      thinned.engine.occurrences key + Passage.missed d (s.passages ts).flatten key) ∧
    ∀ key, (s.turns (s.thin .gated ts)).2.engine.occurrences key =
      whole.engine.occurrences key := by
  intro whole thinned
  have h : s.Behind (fun _ => 0) s := Session.relatedOn_eq_iff.mpr ⟨.refl _, fun _ _ => rfl⟩
  have hcounts : ∀ d key, whole.engine.occurrences key =
      (s.turns (s.thin d ts)).2.engine.occurrences key +
        Passage.missed d (s.passages ts).flatten key := by
    intro d key
    have hc := (h.turns (d := d) ts).2.engine.counts key
    rwa [Nat.zero_add] at hc
  obtain ⟨ha, hb⟩ := h.turns (d := d) ts
  obtain ⟨he, hw⟩ := Session.relatedOn_eq_iff.mp hb
  refine ⟨s.answers_eq ts, ha, he.stream, List.ext_getElem? fun i => hw i trivial, hcounts d, ?_⟩
  intro key
  rw [hcounts .gated key, Passage.missed_gated, Nat.add_zero]

/-- A trace below the verbosity is taken out of a body that is left by what is thrown in it. -/
theorem idle_calls_can_be_deleted_trace :
    let unit : Worker := { trap := .recording fun _ n => n == 1, state := { fileNumber := 0 } }
    let s : Session := ⟨.ofStream {} (.memory {}), [unit]⟩
    let frame : Frame := ⟨"block", "f", "a.rs"⟩
    let kept : Timed LoggerCall := ⟨"t", .info "kept"⟩
    let ts : List Turn :=
      [.program 0 .file (.within frame (.calls [⟨"t", .trace "idle"⟩, kept, kept] .bail) .done)]
    s.thin .all ts = [.program 0 .file (.within frame (.calls [kept, kept] .bail) .done)] ∧
    (s.turns (s.thin .all ts)).2.engine.stream = (s.turns ts).2.engine.stream ∧
    (s.turns (s.thin .all ts)).2.workers = (s.turns ts).2.workers := by
  intro unit s frame kept ts
  obtain ⟨-, -, hstream, hworkers, -⟩ := idle_calls_can_be_deleted .all s ts
  exact ⟨rfl, hstream, hworkers⟩

end DiagnosticLog
