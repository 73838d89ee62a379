import DiagnosticLog.Proofs.Limiting
import DiagnosticLog.Proofs.Lockstep
import DiagnosticLog.Proofs.LogLines

/-! The order in which units reach the engine. A call depends on its own unit and on the count of
its own key, and it changes nothing else but the log. So calls of different units that share no key
can change places, and two orders in which the calls of every unit and those of every key stand
alike are told the same, if the log takes all that is written to it. -/

namespace DiagnosticLog

/-! ### Parts of a session -/

/-- Some of the units and some of the keys. -/
structure Part where
  units : Nat → Prop
  keys : Tally.Key → Prop

namespace Part

def whole : Part := ⟨fun _ => True, fun _ => True⟩

/-- The other units and the other keys. -/
def rest (p : Part) : Part := ⟨fun i => ¬ p.units i, fun key => ¬ p.keys key⟩

/-- The unit that makes a call and the key that the call counts. -/
def of (st : Step) : Part :=
  ⟨fun i => i = st.worker, fun key => st.timed.call.key? = some key⟩

end Part

/-- A call of a unit of the part that counts no key outside of it. -/
def Step.Within (st : Step) (p : Part) : Prop :=
  p.units st.worker ∧ ∀ key, st.timed.call.key? = some key → p.keys key

theorem Step.within_whole (st : Step) : st.Within .whole := ⟨trivial, fun _ _ => trivial⟩

theorem Step.within_of (st : Step) : st.Within (.of st) := ⟨rfl, fun _ h => h⟩

theorem Step.Within.rest_rest {st : Step} {p : Part} (h : st.Within p) : st.Within p.rest.rest :=
  ⟨not_not_intro h.1, fun key hk => not_not_intro (h.2 key hk)⟩

/-- Engines with faultless logs, whatever these hold, that count some keys alike. -/
structure Engine.AlikeOn (keys : Tally.Key → Prop) (e e' : Engine) : Prop where
  settings : e'.settings = e.settings
  limit : e'.tally.limit = e.tally.limit
  stream : e.stream.Faultless
  stream' : e'.stream.Faultless
  counts : ∀ key, keys key → e'.occurrences key = e.occurrences key

namespace Engine

variable {keys : Tally.Key → Prop} {e e' e'' : Engine}

theorem AlikeOn.refl (h : e.stream.Faultless) : e.AlikeOn keys e := ⟨rfl, rfl, h, h, fun _ _ => rfl⟩

theorem AlikeOn.symm (h : e.AlikeOn keys e') : e'.AlikeOn keys e :=
  ⟨h.settings.symm, h.limit.symm, h.stream', h.stream, fun key hk => (h.counts key hk).symm⟩

theorem AlikeOn.trans (h : e.AlikeOn keys e') (h' : e'.AlikeOn keys e'') : e.AlikeOn keys e'' :=
  ⟨h'.settings.trans h.settings, h'.limit.trans h.limit, h.stream, h'.stream',
    fun key hk => (h'.counts key hk).trans (h.counts key hk)⟩

theorem lockstep_alikeOn (keys : Tally.Key → Prop) : Engine.Lockstep (AlikeOn keys) where
  settings := fun h => h.settings
  writeLine := by
    intro e e' h message
    refine ⟨?_, h.settings, h.limit, h.stream.write _, h.stream'.write _, h.counts⟩
    simp only [Engine.writeLine, h.stream.unfailing.result_write, h.stream'.unfailing.result_write]
  flush := by
    intro e e' h
    refine ⟨?_, h.settings, h.limit, h.stream.flush, h.stream'.flush, h.counts⟩
    simp only [Engine.flush, h.stream.result_flush, h.stream'.result_flush]

/-- A report is admitted alike if its key is counted alike. -/
theorem AlikeOn.screen (h : e.AlikeOn keys e') {r : Report}
    (hr : ∀ key, r.key? = some key → keys key) :
    InStep (AlikeOn keys) (e.screen r) (e'.screen r) := by
  cases ho : r.origin with
  | none =>
    rw [e.screen_of_none ho, e'.screen_of_none ho]
    exact ⟨rfl, h⟩
  | some o =>
    have hk := h.counts ⟨o, r.severity⟩ (hr _ (by simp [Report.key?, ho]))
    rw [e.screen_of_some ho, e'.screen_of_some ho, hk, h.limit]
    refine ⟨rfl, h.settings, h.limit, h.stream, h.stream', ?_⟩
    intro key hkey
    rw [occurrences_counted, occurrences_counted, h.counts key hkey]

end Engine

/-- Sessions that are the same on a part. -/
structure Session.SameOn (p : Part) (s s' : Session) : Prop where
  engine : s.engine.AlikeOn p.keys s'.engine
  workers : ∀ i, p.units i → s'.workers[i]? = s.workers[i]?

namespace Session

variable {p : Part} {s s' s'' : Session}

theorem sameOn_iff_relatedOn :
    s.SameOn p s' ↔ s.RelatedOn p.units (Engine.AlikeOn p.keys) Eq s' := by
  rw [relatedOn_eq_iff]
  exact ⟨fun h => ⟨h.engine, h.workers⟩, fun h => ⟨h.1, h.2⟩⟩

namespace SameOn

theorem refl (h : s.engine.stream.Faultless) : s.SameOn p s := ⟨.refl h, fun _ _ => rfl⟩

theorem symm (h : s.SameOn p s') : s'.SameOn p s :=
  ⟨h.engine.symm, fun i hi => (h.workers i hi).symm⟩

theorem trans (h : s.SameOn p s') (h' : s'.SameOn p s'') : s.SameOn p s'' :=
  ⟨h.engine.trans h'.engine, fun i hi => (h'.workers i hi).trans (h.workers i hi)⟩

/-- What is the same on a part and on the rest is the same. -/
theorem join (h : s.SameOn p s') (h' : s.SameOn p.rest s') : s.SameOn .whole s' := by
  refine ⟨⟨h.engine.settings, h.engine.limit, h.engine.stream, h.engine.stream', ?_⟩, ?_⟩
  · intro key _
    by_cases hk : p.keys key
    · exact h.engine.counts key hk
    · exact h'.engine.counts key hk
  · intro i _
    by_cases hi : p.units i
    · exact h.workers i hi
    · exact h'.workers i hi

/-- A call within a part is told the same and does the same there. -/
theorem step (h : s.SameOn p s') {st : Step} (hp : st.Within p) :
    InStep (SameOn p) (s.step st) (s'.step st) := by
  have hr := RelatedOn.step (Engine.lockstep_alikeOn p.keys) TrapWriter.lockstep_eq
    (sameOn_iff_relatedOn.mp h) hp.1 st.timed.call.lockstep_eq ?_
  · exact ⟨hr.answer, sameOn_iff_relatedOn.mpr hr.state⟩
  · intro r place withState hc
    refine h.engine.screen fun key hk => hp.2 key ?_
    rw [hc]
    exact hk

theorem run (h : s.SameOn p s') {steps : List Step} (hp : ∀ st ∈ steps, st.Within p) :
    InStep (SameOn p) (s.run steps) (s'.run steps) :=
  .inTurn (fun _ _ h st hm => h.step (hp st hm)) h

end SameOn

theorem faultless_step (h : s.engine.stream.Faultless) (st : Step) :
    (s.step st).2.engine.stream.Faultless :=
  ((SameOn.refl h).step st.within_whole).state.engine.stream

/-- A call outside of a part does nothing to it. -/
theorem sameOn_step (h : s.engine.stream.Faultless) {st : Step} (hp : st.Within p.rest) :
    s.SameOn p (s.step st).2 := by
  refine ⟨⟨s.settings_step st, s.limit_step st, h, faultless_step h st, ?_⟩, ?_⟩
  · intro key hk
    have hn : st.timed.call.key? ≠ some key := fun he => hp.2 key he hk
    rw [s.occurrences_step st key]
    simp [timesCounted, hn]
  · intro i hi
    exact s.workers_step_of_ne fun he => hp.1 (he ▸ hi)

theorem sameOn_run (h : s.engine.stream.Faultless) {steps : List Step}
    (hp : ∀ st ∈ steps, st.Within p.rest) : s.SameOn p (s.run steps).2 := by
  induction steps generalizing s with
  | nil => exact .refl h
  | cons st rest ih =>
    rw [run_cons]
    have hs : s.SameOn p (s.step st).2 := sameOn_step h (hp st List.mem_cons_self)
    exact hs.trans (ih (faultless_step h st) fun st hm => hp st (List.mem_cons_of_mem _ hm))

/-- A call can be made before calls of other units that do not count its key. All are told the same
then, and the session ends up the same. -/
theorem run_past (h : s.engine.stream.Faultless) {a : Step} {pre : List Step}
    (hp : ∀ st ∈ pre, st.Within (Part.of a).rest) :
    ((s.step a).2.run pre).1 = (s.run pre).1 ∧ ((s.run pre).2.step a).1 = (s.step a).1 ∧
      ((s.step a).2.run pre).2.SameOn .whole ((s.run pre).2.step a).2 := by
  have hpre : s.SameOn (Part.of a) (s.run pre).2 := sameOn_run h hp
  have hstep : s.SameOn (Part.of a).rest (s.step a).2 := sameOn_step h a.within_of.rest_rest
  have hs := hpre.step a.within_of
  have hr := hstep.run hp
  -- the other calls do nothing to the part of the call, and the call does nothing to the rest
  refine ⟨hr.answer, hs.answer, .join (p := Part.of a) ?_ ?_⟩
  · have hback : (s.step a).2.SameOn (Part.of a) ((s.step a).2.run pre).2 :=
      sameOn_run (faultless_step h a) hp
    exact hback.symm.trans hs.state
  · have hon : (s.run pre).2.SameOn (Part.of a).rest ((s.run pre).2.step a).2 :=
      sameOn_step hpre.engine.stream' a.within_of.rest_rest
    exact hr.state.symm.trans hon

end Session

/-! ### Schedules -/

/-- Two orders of the same calls, in which the calls of every unit stand alike and so do those that
count one key. -/
structure Reordered (steps steps' : List Step) : Prop where
  units : ∀ i, (steps'.filter fun st => decide (st.worker = i)) =
    steps.filter fun st => decide (st.worker = i)
  keys : ∀ key, (steps'.filter fun st => decide (st.timed.call.key? = some key)) =
    steps.filter fun st => decide (st.timed.call.key? = some key)

/-- What stands before the first selected item is not selected. -/
theorem filter_eq_nil_of_not_mem {α : Type} {q : α → Bool} {a : α} {pre more rest : List α}
    (ha : a ∉ pre) (h : pre.filter q ++ more = a :: rest) : pre.filter q = [] := by
  cases hf : pre.filter q with
  | nil => rfl
  | cons first others =>
    have hm : first ∈ pre.filter q := by
      rw [hf]
      exact List.mem_cons_self
    rw [hf] at h
    obtain rfl : first = a := (List.cons.inj h).1
    exact absurd (List.mem_filter.mp hm).1 ha

/-- An item that comes first on one side can be taken away on both. -/
theorem filter_append_of_filter_eq {α : Type} {q : α → Bool} {a : α} {pre post rest : List α}
    (ha : a ∉ pre) (h : (pre ++ a :: post).filter q = (a :: rest).filter q) :
    (pre ++ post).filter q = rest.filter q := by
  rw [List.filter_append] at h ⊢
  cases hq : q a with
  | false => simpa [List.filter_cons, hq] using h
  | true =>
    simp only [List.filter_cons, hq, if_true] at h
    have hn := filter_eq_nil_of_not_mem ha h
    rw [hn] at h ⊢
    exact (List.cons.inj h).2

namespace Reordered

/-- The first call of one order stands in the other one after calls that do not depend on it. -/
theorem split {a : Step} {rest steps' : List Step} (h : Reordered (a :: rest) steps') :
    ∃ pre post, steps' = pre ++ a :: post ∧ (∀ st ∈ pre, st.Within (Part.of a).rest) ∧
      Reordered rest (pre ++ post) := by
  have hu := h.units a.worker
  rw [List.filter_cons, if_pos (decide_eq_true rfl)] at hu
  obtain ⟨pre, post, rfl, hpre, -, -⟩ := List.filter_eq_cons_iff.mp hu
  have hunit : ∀ st ∈ pre, st.worker ≠ a.worker := by
    intro st hm
    simpa using hpre st hm
  have ha : a ∉ pre := fun hm => hunit a hm rfl
  refine ⟨pre, post, rfl, ?_, ?_, ?_⟩
  · intro st hm
    refine ⟨hunit st hm, ?_⟩
    intro key hst hak
    -- among the calls of its key, too, the first call of the one order is the first
    have hk := h.keys key
    have hak' : a.timed.call.key? = some key := hak
    simp only [List.filter_append, List.filter_cons, hak', decide_true, if_true] at hk
    have hn := filter_eq_nil_of_not_mem ha hk
    exact List.filter_eq_nil_iff.mp hn st hm (decide_eq_true hst)
  · exact fun i => filter_append_of_filter_eq ha (h.units i)
  · exact fun key => filter_append_of_filter_eq ha (h.keys key)

theorem eq_nil {steps' : List Step} (h : Reordered [] steps') : steps' = [] := by
  rw [List.eq_nil_iff_forall_not_mem]
  intro st hm
  exact List.filter_eq_nil_iff.mp (h.units st.worker) st hm (decide_eq_true rfl)

end Reordered

namespace Session

/-- The calls of a run, each with its receipt. -/
def answered (s : Session) (steps : List Step) : List (Step × Receipt) :=
  steps.zip (s.run steps).1

/-- What a run tells one of the units. -/
def told (s : Session) (steps : List Step) (i : Nat) : List (Step × Receipt) :=
  (s.answered steps).filter fun a => decide (a.1.worker = i)

variable {s s' : Session}

theorem told_append (steps more : List Step) (i : Nat) :
    s.told (steps ++ more) i = s.told steps i ++ (s.run steps).2.told more i := by
  have hl : steps.length = (s.run steps).1.length := (length_inTurn ..).symm
  rw [told, answered, run_append, List.zip_append hl, List.filter_append]
  rfl

theorem told_cons (st : Step) (rest : List Step) (i : Nat) :
    s.told (st :: rest) i = s.told [st] i ++ (s.step st).2.told rest i :=
  told_append [st] rest i

theorem told_of_ne {steps : List Step} {i : Nat} (h : ∀ st ∈ steps, st.worker ≠ i) :
    s.told steps i = [] := by
  rw [told, List.filter_eq_nil_iff]
  rintro ⟨st, receipt⟩ hm
  simpa using h st (List.of_mem_zip hm).1

theorem told_congr {steps : List Step} (h : (s'.run steps).1 = (s.run steps).1) (i : Nat) :
    s'.told steps i = s.told steps i := by
  rw [told, told, answered, answered, h]

/-- A call that is made earlier, before calls that do not depend on it, changes nothing of what the
units are told. -/
theorem told_past (h : s.engine.stream.Faultless) {a : Step} {pre post : List Step}
    (hp : ∀ st ∈ pre, st.Within (Part.of a).rest) (i : Nat) :
    s.told (pre ++ a :: post) i = s.told (a :: (pre ++ post)) i := by
  obtain ⟨hpre, ha, hafter⟩ := run_past h hp
  have hpost : ((s.run pre).2.step a).2.told post i = ((s.step a).2.run pre).2.told post i :=
    told_congr (hafter.run fun st _ => st.within_whole).answer i
  have hone : (s.run pre).2.told [a] i = s.told [a] i := told_congr (by simp [ha]) i
  have hall : (s.step a).2.told pre i = s.told pre i := told_congr hpre i
  have hswap : s.told pre i = [] ∨ s.told [a] i = [] := by
    by_cases hi : a.worker = i
    · exact .inl (told_of_ne fun st hm he => (hp st hm).1 (he.trans hi.symm))
    · exact .inr (told_of_ne (by simpa using hi))
  calc s.told (pre ++ a :: post) i
      = s.told pre i ++ ((s.run pre).2.told [a] i ++ ((s.run pre).2.step a).2.told post i) := by
        rw [told_append, told_cons]
    _ = s.told pre i ++ (s.told [a] i ++ ((s.step a).2.run pre).2.told post i) := by
        rw [hone, hpost]
    _ = s.told [a] i ++ (s.told pre i ++ ((s.step a).2.run pre).2.told post i) := by
        rcases hswap with hn | hn <;> simp [hn]
    _ = s.told (a :: (pre ++ post)) i := by
        rw [told_cons a (pre ++ post), told_append pre post, hall]

/-- Orders that are alike for every unit and every key tell every unit the same, and end alike. -/
theorem told_of_reordered {steps steps' : List Step} (h : s.SameOn .whole s')
    (hr : Reordered steps steps') :
    (∀ i, s'.told steps' i = s.told steps i) ∧
      (s.run steps).2.SameOn .whole (s'.run steps').2 := by
  -- along the one order; each of its calls is moved to the front of what is left of the other
  induction steps generalizing s s' steps' with
  | nil =>
    rw [hr.eq_nil]
    exact ⟨fun _ => rfl, h⟩
  | cons a rest ih =>
    obtain ⟨pre, post, rfl, hpre, hrest⟩ := hr.split
    have ha := h.step a.within_whole
    obtain ⟨htold, hafter⟩ := ih ha.state hrest
    have hs := h.engine.stream'
    refine ⟨?_, ?_⟩
    · intro i
      have hone : s'.told [a] i = s.told [a] i := told_congr (by simp [ha.answer]) i
      rw [told_past hs hpre, told_cons a (pre ++ post), told_cons a rest, htold, hone]
    · obtain ⟨-, -, hpast⟩ := run_past hs hpre
      have hpost : SameOn .whole (((s'.step a).2.run pre).2.run post).2
          (((s'.run pre).2.step a).2.run post).2 :=
        (hpast.run fun st _ => st.within_whole).state
      rw [run_append] at hafter
      rw [run_cons, run_append, run_cons]
      exact hafter.trans hpost

/-- Every call of a unit is among what the unit is told. -/
theorem calls_told (steps : List Step) (i : Nat) :
    (s.told steps i).map Prod.fst = steps.filter fun st => decide (st.worker = i) := by
  have hl : steps.length ≤ (s.run steps).1.length := Nat.le_of_eq (length_inTurn ..).symm
  have hz : (s.answered steps).map Prod.fst = steps := List.map_fst_zip hl
  have hf := congrArg (List.filter fun st => decide (st.worker = i)) hz
  rw [List.filter_map] at hf
  exact hf

/-! ### The log -/

/-- The lines of a run, each with the unit whose call wrote it. -/
def logged (s : Session) (steps : List Step) : List (Nat × Message) :=
  (s.answered steps).filterMap fun a => a.2.line.map fun line => (a.1.worker, line)

theorem map_snd_logged (steps : List Step) :
    (s.logged steps).map Prod.snd = Receipt.lines (s.run steps).1 := by
  have hl : (s.run steps).1.length ≤ steps.length := Nat.le_of_eq (length_inTurn ..)
  have hz : (s.answered steps).map Prod.snd = (s.run steps).1 := List.map_snd_zip hl
  rw [Receipt.lines, ← hz, List.filterMap_map, logged, List.map_filterMap]
  simp [Function.comp_def]

/-- The lines of a unit are those of what it is told. -/
theorem filter_logged (steps : List Step) (i : Nat) :
    (s.logged steps).filter (fun l => decide (l.1 = i)) =
      (s.told steps i).filterMap fun a => a.2.line.map fun line => (a.1.worker, line) := by
  rw [logged, told, List.filter_filterMap, List.filterMap_filter]
  congr 1
  funext a
  cases a.2.line with
  | none => simp
  | some line => simp [Option.filter]

end Session

/-- Lists are the same but for the order if all their selections by number are the same. -/
theorem perm_of_filter_eq {α : Type} [DecidableEq α] (f : α → Nat) {items items' : List α}
    (h : ∀ i, (items'.filter fun a => decide (f a = i)) = items.filter fun a => decide (f a = i)) :
    items'.Perm items := by
  rw [List.perm_iff_count]
  intro a
  have hc : ∀ l : List α, (l.filter fun b => decide (f b = f a)).count a = l.count a :=
    fun l => List.count_filter (decide_eq_true rfl)
  rw [← hc, h, hc]

/-! ### Programs -/

/-- An order in which the calls of some programs, one for each unit, reach the engine. -/
def Interleaves (programs : Nat → List (Timed EngineCall)) (steps : List Step) : Prop :=
  ∀ i, (steps.filter fun st => decide (st.worker = i)).map Step.timed = programs i

theorem Interleaves.filter_eq {programs : Nat → List (Timed EngineCall)} {steps : List Step}
    (h : Interleaves programs steps) (i : Nat) :
    (steps.filter fun st => decide (st.worker = i)) = (programs i).map (Step.mk i) := by
  rw [← h i, List.map_map]
  refine (List.map_id _).symm.trans (List.map_congr_left fun st hm => ?_)
  obtain rfl := of_decide_eq_true (List.mem_filter.mp hm).2
  rfl

/-- The order in which units reach the engine makes no difference, as long as the calls that count
one key keep their order and the log takes all that is written to it. Every unit is told the same by
each of its calls and ends up the same, with its trap; all keys are counted the same; and the logs
have the same lines but for the order, and in the same order those of every single unit. -/
theorem schedules_agree (s : Session) (programs : Nat → List (Timed EngineCall))
    (steps steps' : List Step) (hs : s.engine.stream.Faultless) (h : Interleaves programs steps)
    (h' : Interleaves programs steps')
    (hk : ∀ key, (steps'.filter fun st => decide (st.timed.call.key? = some key)) =
      steps.filter fun st => decide (st.timed.call.key? = some key)) :
    let after := (s.run steps).2
    let after' := (s.run steps').2
    let bytes (logged : List (Nat × Message)) : List UInt8 :=
      s.engine.stream.content ++
        Message.logBytes (logged.map fun l => (s.engine.settings.origin, l.2))
    (∀ i, (s.told steps i).map (fun a => a.1.timed) = programs i ∧
      s.told steps' i = s.told steps i) ∧
    after'.workers = after.workers ∧
    (∀ key, after'.engine.occurrences key = after.engine.occurrences key) ∧
    after.engine.stream.content = bytes (s.logged steps) ∧
    after'.engine.stream.content = bytes (s.logged steps') ∧
    (s.logged steps').Perm (s.logged steps) ∧
    ∀ i, (s.logged steps').filter (fun l => decide (l.1 = i)) =
      (s.logged steps).filter fun l => decide (l.1 = i) := by
  intro after after' bytes
  have hr : Reordered steps steps' := ⟨fun i => (h'.filter_eq i).trans (h.filter_eq i).symm, hk⟩
  obtain ⟨htold, hafter⟩ := Session.told_of_reordered (Session.SameOn.refl hs) hr
  have hlines : ∀ i, (s.logged steps').filter (fun l => decide (l.1 = i)) =
      (s.logged steps).filter fun l => decide (l.1 = i) := by
    intro i
    rw [s.filter_logged, s.filter_logged, htold]
  have hbytes : ∀ steps, (s.run steps).2.engine.stream.content = bytes (s.logged steps) := by
    intro steps
    have hc := (Session.grows_run hs.unfailing.unbounded steps).content
    rw [← s.map_snd_logged, List.map_map] at hc
    exact hc
  refine ⟨?_, ?_, ?_, hbytes steps, hbytes steps', perm_of_filter_eq Prod.fst hlines, hlines⟩
  · intro i
    refine ⟨?_, htold i⟩
    rw [← h i, ← s.calls_told, List.map_map]
    rfl
  · exact List.ext_getElem? fun i => hafter.workers i trivial
  · exact fun key => hafter.engine.counts key trivial

/-- Two units share a call site of which one diagnostic goes out, and their messages change places. -/
theorem schedules_agree_two_units :
    let shared : EngineCall :=
      .diagnostic { severity := .warn, message := "odd", origin := some ⟨"a.rs", 7, 3⟩ } .unknown true
    let programs : Nat → List (Timed EngineCall)
      | 0 => [⟨"t", shared⟩, ⟨"t", .log .info "first"⟩]
      | 1 => [⟨"t", shared⟩, ⟨"t", .log .info "second"⟩]
      | _ => []
    let steps : List Step := [⟨0, "t", shared⟩, ⟨1, "t", shared⟩, ⟨0, "t", .log .info "first"⟩,
      ⟨1, "t", .log .info "second"⟩]
    let steps' : List Step := [⟨0, "t", shared⟩, ⟨1, "t", shared⟩, ⟨1, "t", .log .info "second"⟩,
      ⟨0, "t", .log .info "first"⟩]
    let unit : Worker := ⟨.recording fun _ _ => false, ⟨7, [], 0⟩, 0⟩
    let s : Session := ⟨.ofStream { limit := 1 } (.memory {}), [unit, unit]⟩
    Interleaves programs steps ∧ Interleaves programs steps' ∧
    (s.run steps').2.workers = (s.run steps).2.workers ∧
    (s.logged steps').Perm (s.logged steps) := by
  intro shared programs steps steps' unit s
  have h : Interleaves programs steps := by
    rintro (_ | _ | i) <;> rfl
  have h' : Interleaves programs steps' := by
    rintro (_ | _ | i) <;> rfl
  have hk : ∀ key, (steps'.filter fun st => decide (st.timed.call.key? = some key)) =
      steps.filter fun st => decide (st.timed.call.key? = some key) := by
    intro key
    simp [steps, steps', List.filter_cons, EngineCall.key?]
  obtain ⟨_, hw, _, _, _, hp, _⟩ := schedules_agree s programs steps steps' trivial h h' hk
  exact ⟨h, h', hw, hp⟩

end DiagnosticLog
