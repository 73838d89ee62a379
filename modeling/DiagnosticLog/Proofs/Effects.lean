import DiagnosticLog.Proofs.Agreement
import DiagnosticLog.Proofs.Limiting
import DiagnosticLog.Proofs.Mirrors

/-! What a report leaves behind that fails on its way. Its stages are the search for its location,
its diagnostic, its association and its line. A stage that fails ends the call: the stages before it
have had their effects, all of them, and those after it have none. -/

namespace DiagnosticLog

/-! ### Writers -/

namespace TrapWriter

/-- A writer that stores a record whole or not at all: it keeps it as it is, or writes its text to a
sink without a bound. -/
def Whole (w : TrapWriter) : Prop :=
  match w.store with
  | .records .. => True
  | .text sink => sink.capacity = none

/-- From one writer to another some labels were handed out, some calls were made and some records
were stored, and the rest stayed as it was. -/
structure Gained (w : TrapWriter) (labels : Nat) (calls : List RefusableCall)
    (added : List TrapRecord) (w' : TrapWriter) : Prop where
  lastLabel : w'.lastLabel = w.lastLabel + labels
  unknown : w'.unknown = w.unknown
  refuses : w'.refuses = w.refuses
  attempts : w'.attempts = calls.foldl TrapAttempts.add w.attempts
  flushes : w'.flushes = w.flushes
  keeps : w'.keeps = w.keeps
  records : w'.records = w.records ++ if w.keeps then added else []
  bytes : w'.bytes = w.bytes ++ if w.keeps then [] else Utf8.encode (TrapRecord.rendered added)

variable {w w' w'' : TrapWriter}

theorem Gained.refl (w : TrapWriter) : w.Gained 0 [] [] w :=
  ⟨rfl, rfl, rfl, rfl, rfl, rfl, by simp, by simp [TrapRecord.rendered]⟩

theorem Gained.trans {m n : Nat} {calls more : List RefusableCall} {xs ys : List TrapRecord}
    (h : w.Gained m calls xs w') (h' : w'.Gained n more ys w'') :
    w.Gained (m + n) (calls ++ more) (xs ++ ys) w'' where
  lastLabel := by rw [h'.lastLabel, h.lastLabel, Nat.add_assoc]
  unknown := h'.unknown.trans h.unknown
  refuses := h'.refuses.trans h.refuses
  attempts := by rw [h'.attempts, h.attempts, List.foldl_append]
  flushes := h'.flushes.trans h.flushes
  keeps := h'.keeps.trans h.keeps
  records := by
    rw [h'.records, h.records, h.keeps]
    cases w.keeps <;> simp
  bytes := by
    rw [h'.bytes, h.bytes, h.keeps, TrapRecord.rendered_append, Utf8.encode_append]
    cases w.keeps <;> simp

theorem gained_freshLabel (w : TrapWriter) : w.Gained 1 [] [] w.freshLabel.2 :=
  ⟨rfl, rfl, rfl, rfl, rfl, rfl, by simp, by simp [TrapRecord.rendered, bytes, freshLabel]⟩

/-- A call that is refused before it does anything is one attempt. -/
theorem gained_tried (w : TrapWriter) (call : RefusableCall) :
    w.Gained 0 [call] [] (w.tried call) :=
  ⟨rfl, rfl, rfl, rfl, rfl, rfl, by simp, by simp [TrapRecord.rendered, bytes]⟩

/-- A record is stored whole or not at all. -/
theorem gained_put (h : w.Whole) (record : TrapRecord) :
    w.Gained 0 [] (if (w.put record).1 = .ok () then [record] else []) (w.put record).2 ∧
      (w.put record).2.Whole := by
  cases hs : w.store with
  | records kept flushes =>
    have hp : w.put record = (.ok (), { w with store := .records (kept.push record) flushes }) := by
      simp only [put, hs]
    have hk : w.keeps = true := by simp only [keeps, hs]
    rw [hp]
    refine ⟨⟨rfl, rfl, rfl, rfl, ?_, ?_, ?_, ?_⟩, trivial⟩
    · simp only [TrapWriter.flushes, hs]
    · simp only [keeps, hs]
    · rw [hk]
      simp [TrapWriter.records, hs]
    · rw [hk]
      simp [TrapWriter.bytes, hs]
  | text sink =>
    have hw : sink.capacity = none := by
      simpa only [Whole, hs] using h
    have hp : w.put record = ((sink.write (Utf8.encode record.text)).1,
        { w with store := .text (sink.write (Utf8.encode record.text)).2 }) := by
      simp only [put, putText, hs]
    have hk : w.keeps = false := by simp only [keeps, hs]
    have hc := ByteSink.contents_write hw (Utf8.encode record.text)
    rw [hp]
    refine ⟨⟨rfl, rfl, rfl, rfl, ?_, ?_, ?_, ?_⟩, ?_⟩
    · simp only [TrapWriter.flushes, hs, ByteSink.flushes_write]
    · simp only [keeps, hs]
    · rw [hk]
      simp [TrapWriter.records, hs]
    · rw [record.text_eq_rendering] at hc
      rw [hk, record.text_eq_rendering]
      simp only [TrapWriter.bytes, hs, hc, Bool.false_eq_true, if_false]
      split <;> simp [TrapRecord.rendered]
    · simp only [Whole, ByteSink.capacity_write, hw]

theorem gained_write (h : w.Whole) (call : RefusableCall) (record : TrapRecord) :
    w.Gained 0 [call] (if (w.write call record).1 = .ok () then [record] else [])
        (w.write call record).2 ∧
      (w.write call record).2.Whole := by
  rw [write_eq]
  split
  · exact ⟨w.gained_tried call, h⟩
  · obtain ⟨hp, hw⟩ := gained_put (w := w.tried call) h record
    exact ⟨(w.gained_tried call).trans hp, hw⟩

end TrapWriter

/-! ### Stages -/

/-- What a report that goes out did, once its location was looked for. -/
structure Effects where
  result : Except LogError Unit := .ok ()
  /-- How many labels it took. -/
  labels : Nat := 0
  /-- The calls it made on the writer that can be refused. -/
  calls : List RefusableCall := []
  /-- The records it stored. -/
  records : List TrapRecord := []
  /-- The state of the unit after it, if it was raised with one. -/
  state : Option UnitState
  /-- The line it wrote. -/
  line : Option Message := none

/-- A call had some effects and no others, on its way from an engine and from the writer as the
search for the location left it. -/
structure Outcome.Has (o : Outcome) (e : Engine) (found : TrapWriter) (x : Effects) : Prop where
  receipt : o.receipt = ⟨x.result, true, x.line⟩
  log : e.Grows x.line.toList o.engine
  trap : found.Gained x.labels x.calls x.records o.trap
  state : o.state = x.state

/-- The last stage, when all before it went well: the log refuses the line or takes it. -/
structure Outcome.Finishes (o : Outcome) (e : Engine) (found : TrapWriter) (line : Message)
    (x : Effects) : Prop where
  refused : ∀ cause,
    (e.stream.write (Utf8.encode (line.jsonLine e.settings.origin))).1 = .error cause →
      o.Has e found { x with result := .error (.stream cause) }
  taken : (e.stream.write (Utf8.encode (line.jsonLine e.settings.origin))).1 = .ok () →
    o.Has e found { x with line := some line }

/-- The place of a diagnostic among those of its unit, when it is the next. -/
def UnitState.association (s : UnitState) (diagnostic : Label) : AssociationRow :=
  ⟨diagnostic, "compilation", s.fileNumber, s.count⟩

/-- The stages after the diagnostic was stored in a unit: the association takes the number of the
unit and is refused or stored. -/
structure Outcome.Associates (o : Outcome) (e : Engine) (found written : TrapWriter)
    (row : DiagnosticRow) (s : UnitState) (line : Message) : Prop where
  refused : ∀ cause, (written.writeAssociation (s.association row.id)).1 = .error cause →
    o.Has e found
      { result := .error (.trap cause), labels := 1, calls := [.diagnostic, .association],
        records := [.diagnostic row], state := some { s with count := s.count + 1 } }
  stored : (written.writeAssociation (s.association row.id)).1 = .ok () →
    o.Finishes e found line
      { labels := 1, calls := [.diagnostic, .association],
        records := [.diagnostic row, .association (s.association row.id)],
        state := some { s with count := s.count + 1 } }

namespace Engine

variable {e : Engine} {now : String} {r : Report} {body : String} {locate : Locator}
  {trap found : TrapWriter} {state : Option UnitState} {location : Label}

/-! ### Writes of a report -/

/-- A row takes a label, and is stored or not. -/
theorem gained_row (hw : found.Whole) {row : DiagnosticRow} {result : Except Failure Unit}
    {written : TrapWriter} (hd : found.freshLabel.2.writeDiagnostic row = (result, written)) :
    found.Gained 1 [.diagnostic] (if result = .ok () then [.diagnostic row] else []) written ∧
      written.Whole := by
  obtain ⟨hg, hw'⟩ := TrapWriter.gained_write (w := found.freshLabel.2) hw .diagnostic
    (.diagnostic row)
  rw [← TrapWriter.writeDiagnostic, hd] at hg hw'
  exact ⟨found.gained_freshLabel.trans hg, hw'⟩

/-- An association takes no label, and is stored or not. -/
theorem gained_association {written : TrapWriter} (hw : written.Whole) {row : AssociationRow}
    {result : Except Failure Unit} {after : TrapWriter}
    (ha : written.writeAssociation row = (result, after)) :
    written.Gained 0 [.association] (if result = .ok () then [.association row] else []) after := by
  have hg := (TrapWriter.gained_write hw .association (.association row)).1
  rwa [← TrapWriter.writeAssociation, ha] at hg

theorem associate_of_write {written after : TrapWriter} {s : UnitState} {id : Label}
    {result : Except Failure Unit}
    (ha : written.writeAssociation (s.association id) = (result, after)) :
    associate written s id = (result, after, { s with count := s.count + 1 }) := by
  have h : associate written s id = ((written.writeAssociation (s.association id)).1,
      (written.writeAssociation (s.association id)).2, { s with count := s.count + 1 }) := rfl
  rw [h, ha]

/-! ### One stage after the other -/

theorem has_finish (hs : e.stream.Unbounded) {after : TrapWriter} {line : Message} {x : Effects}
    (hr : x.result = .ok ()) (hx : x.line = none) (hstate : x.state = state)
    (ht : found.Gained x.labels x.calls x.records after) :
    (e.finish line true after state).Finishes e found line x := by
  have hg := grows_finish hs line true after state
  refine ⟨fun cause hc => ?_, fun hc => ?_⟩
  · have hw : (e.writeLine line).1 = .error (.stream cause) :=
      congrArg (Except.mapError LogError.stream) hc
    rw [finish_eq, hw] at hg ⊢
    exact ⟨by simp [hx], by simpa [hx] using hg, ht, hstate.symm⟩
  · have hw : (e.writeLine line).1 = .ok () := congrArg (Except.mapError LogError.stream) hc
    rw [finish_eq, hw] at hg ⊢
    exact ⟨by simp [hr], by simpa using hg, ht, hstate.symm⟩

/-- If the location is not found, there is nothing but its search. -/
theorem has_of_lost (hs : e.stream.Unbounded) {cause : Failure}
    (hl : locate trap = (.error cause, found)) :
    (e.emit now r body locate trap state).Has e found
      { result := .error (.trap cause), state } := by
  simp only [emit, hl]
  exact ⟨rfl, .refl hs, .refl found, rfl⟩

/-- If the diagnostic is refused, there is nothing more but its label. -/
theorem has_of_refused (hs : e.stream.Unbounded) (hw : found.Whole)
    (hl : locate trap = (.ok location, found)) {cause : Failure} {written : TrapWriter}
    (hd : found.freshLabel.2.writeDiagnostic (e.row now r body found.freshLabel.1 location) =
      (.error cause, written)) :
    (e.emit now r body locate trap state).Has e found
      { result := .error (.trap cause), labels := 1, calls := [.diagnostic], state } := by
  simp only [emit, hl, store, hd]
  exact ⟨rfl, .refl hs, (gained_row hw hd).1, rfl⟩

/-- Without a state the line comes after the diagnostic. -/
theorem finishes_of_stored (hs : e.stream.Unbounded) (hw : found.Whole)
    (hl : locate trap = (.ok location, found)) {written : TrapWriter}
    (hd : found.freshLabel.2.writeDiagnostic (e.row now r body found.freshLabel.1 location) =
      (.ok (), written)) :
    (e.emit now r body locate trap none).Finishes e found ⟨r.severity.tag, r.heading ++ body, now⟩
      { labels := 1, calls := [.diagnostic],
        records := [.diagnostic (e.row now r body found.freshLabel.1 location)],
        state := none } := by
  simp only [emit, hl, store, hd]
  exact has_finish hs rfl rfl rfl (gained_row hw hd).1

/-- With a state the association comes after the diagnostic. -/
theorem associates_of_stored (hs : e.stream.Unbounded) (hw : found.Whole)
    (hl : locate trap = (.ok location, found)) {written : TrapWriter}
    (hd : found.freshLabel.2.writeDiagnostic (e.row now r body found.freshLabel.1 location) =
      (.ok (), written)) (s : UnitState) :
    (e.emit now r body locate trap (some s)).Associates e found written
      (e.row now r body found.freshLabel.1 location) s
      ⟨r.severity.tag, r.heading ++ body, now⟩ := by
  obtain ⟨hg, hw'⟩ := gained_row hw hd
  refine ⟨fun cause hc => ?_, fun hc => ?_⟩
  · obtain ⟨after, ha⟩ : ∃ after,
        written.writeAssociation (s.association found.freshLabel.1) = (.error cause, after) :=
      ⟨_, Prod.ext hc rfl⟩
    simp only [emit, hl, store, hd, associate_of_write ha]
    exact ⟨rfl, .refl hs, hg.trans (gained_association hw' ha), rfl⟩
  · obtain ⟨after, ha⟩ : ∃ after,
        written.writeAssociation (s.association found.freshLabel.1) = (.ok (), after) :=
      ⟨_, Prod.ext hc rfl⟩
    simp only [emit, hl, store, hd, associate_of_write ha]
    exact has_finish hs rfl rfl rfl (hg.trans (gained_association hw' ha))

end Engine

/-! ### The counting before -/

/-- An engine that differs in its counts only. -/
theorem Outcome.Has.of_log {o : Outcome} {e e' : Engine} {found : TrapWriter} {x : Effects}
    (hset : e'.settings = e.settings) (hstream : e'.stream = e.stream) (h : o.Has e' found x) :
    o.Has e found x := by
  refine ⟨h.receipt, ⟨h.log.settings.trans hset, h.log.unbounded, ?_⟩, h.trap, h.state⟩
  rw [h.log.content, hstream, hset]

theorem Outcome.Finishes.of_log {o : Outcome} {e e' : Engine} {found : TrapWriter} {line : Message}
    {x : Effects} (hset : e'.settings = e.settings) (hstream : e'.stream = e.stream)
    (h : o.Finishes e' found line x) : o.Finishes e found line x := by
  have hr := h.refused
  have ht := h.taken
  rw [hset, hstream] at hr ht
  exact ⟨fun cause hc => (hr cause hc).of_log hset hstream,
    fun hc => (ht hc).of_log hset hstream⟩

theorem Outcome.Associates.of_log {o : Outcome} {e e' : Engine} {found written : TrapWriter}
    {row : DiagnosticRow} {s : UnitState} {line : Message} (hset : e'.settings = e.settings)
    (hstream : e'.stream = e.stream) (h : o.Associates e' found written row s line) :
    o.Associates e found written row s line :=
  ⟨fun cause hc => (h.refused cause hc).of_log hset hstream,
    fun hc => (h.stored hc).of_log hset hstream⟩

/-- A report whose key has not had its share goes out. -/
theorem Engine.diagnostic_of_share (e : Engine) (now : String) {r : Report} (trap : TrapWriter)
    (state : Option UnitState)
    (hr : ∀ key, r.key? = some key →
      e.tally.limit ≤ 0 ∨ ((e.occurrences key + 1 : Nat) : Int) ≤ e.tally.limit)
    (locate : Locator) :
    e.diagnostic now r locate trap state = (e.screen r).2.emit now r
      (r.body (UnitState.trailLines state) (e.notice r)) locate trap state := by
  rcases e.diagnostic_cases now r locate trap state with ⟨hout, _⟩ | ⟨notice, hout, ho⟩
  · obtain ⟨key, hk, hl, hn⟩ := (e.heldBack_iff r).mp hout
    rcases hr key hk with h | h
    · omega
    · omega
  · rw [ho, Engine.notice_of_screen hout]

/-- A report that goes out and fails on its way leaves exactly the effects of the stages before the
failure. It is counted under its key and its location is asked for, once and on the writer as it
is, whatever comes of it. If the location is not found, there is nothing more. If the diagnostic is
refused, its label is taken. If the association is refused, the diagnostic is stored and the number
of the unit is taken. If the line is refused, all records are stored. If nothing fails, the line is
in the log as well. The writer, as the search for the location leaves it, stores a record whole or
not at all, and the log takes a line whole or not at all. -/
theorem failure_keeps_earlier_stages (e : Engine) (now : String) (r : Report) (locate : Locator)
    (trap : TrapWriter) (state : Option UnitState) (hs : e.stream.Unbounded)
    (hw : (locate trap).2.Whole)
    (hr : ∀ key, r.key? = some key →
      e.tally.limit ≤ 0 ∨ ((e.occurrences key + 1 : Nat) : Int) ≤ e.tally.limit) :
    let o := e.diagnostic now r locate trap state
    let found := (locate trap).2
    let body := r.body (UnitState.trailLines state) (e.notice r)
    let line : Message := ⟨r.severity.tag, r.heading ++ body, now⟩
    (∀ key, o.engine.occurrences key =
      e.occurrences key + if r.key? = some key then 1 else 0) ∧
    (o.receipt.located = true ∧
      ∀ locate', locate' trap = locate trap → e.diagnostic now r locate' trap state = o) ∧
    (∀ cause, (locate trap).1 = .error cause →
      o.Has e found { result := .error (.trap cause), state }) ∧
    ∀ location, (locate trap).1 = .ok location →
      let row := e.row now r body ⟨found.lastLabel + 1⟩ location
      let written := found.freshLabel.2.writeDiagnostic row
      (∀ cause, written.1 = .error cause → o.Has e found
        { result := .error (.trap cause), labels := 1, calls := [.diagnostic], state }) ∧
      (written.1 = .ok () → match state with
        | none => o.Finishes e found line
            { labels := 1, calls := [.diagnostic], records := [.diagnostic row], state := none }
        | some s => o.Associates e found written.2 row s line) := by
  intro o found body line
  have hset := e.settings_screen r
  have hstream := e.stream_screen r
  have hs' : (e.screen r).2.stream.Unbounded := hstream ▸ hs
  have ho := e.diagnostic_of_share now trap state hr
  have hrow : ∀ location, (e.screen r).2.row now r body found.freshLabel.1 location =
      e.row now r body ⟨found.lastLabel + 1⟩ location := by
    intro location
    rw [Engine.row, Engine.row, hset]
    rfl
  refine ⟨?_, ⟨?_, ?_⟩, ?_, ?_⟩
  · intro key
    rw [← e.occurrences_screen]
    exact congrArg (Tally.count · key) (e.tally_diagnostic ..)
  · have hreceipt : o.receipt = _ := congrArg Outcome.receipt (ho locate)
    rw [hreceipt, Engine.located_emit]
  · intro locate' hlocate
    have ho' : o = _ := ho locate
    rw [ho, ho', Engine.emit, Engine.emit, hlocate]
  · intro cause hc
    have hl : locate trap = (.error cause, found) := Prod.ext hc rfl
    have h : ((e.screen r).2.emit now r body locate trap state).Has (e.screen r).2 found
        { result := .error (.trap cause), state } :=
      Engine.has_of_lost hs' hl
    rw [← ho] at h
    exact h.of_log hset hstream
  · intro location hc row written
    have hl : locate trap = (.ok location, found) := Prod.ext hc rfl
    refine ⟨fun cause hd => ?_, fun hd => ?_⟩
    · have hwritten : found.freshLabel.2.writeDiagnostic
          ((e.screen r).2.row now r body found.freshLabel.1 location) = (.error cause, written.2) :=
        (hrow location).symm ▸ Prod.ext hd rfl
      have h : ((e.screen r).2.emit now r body locate trap state).Has (e.screen r).2 found
          { result := .error (.trap cause), labels := 1, calls := [.diagnostic], state } :=
        Engine.has_of_refused hs' hw hl hwritten
      rw [← ho] at h
      exact h.of_log hset hstream
    · have hwritten : found.freshLabel.2.writeDiagnostic
          ((e.screen r).2.row now r body found.freshLabel.1 location) = (.ok (), written.2) :=
        (hrow location).symm ▸ Prod.ext hd rfl
      cases state with
      | none =>
        have h := Engine.finishes_of_stored hs' hw hl hwritten
        rw [← ho, hrow] at h
        exact h.of_log hset hstream
      | some s =>
        have h := Engine.associates_of_stored hs' hw hl hwritten s
        rw [← ho, hrow] at h
        exact h.of_log hset hstream

/-- The only diagnostic that a call site may raise is stored, and its association is refused. -/
theorem failure_keeps_earlier_stages_refused_association :
    let r : Report := { severity := .warn, message := "odd", origin := some ⟨"a.rs", 7, 3⟩ }
    let e : Engine := .ofStream { limit := 1 } (.memory {})
    let trap : TrapWriter := .recording fun call _ => call == .association
    let row := e.row "t" r (r.body [] (e.notice r)) ⟨2⟩ ⟨1⟩
    e.stream.Unbounded ∧ (Place.unknown.locate trap).2.Whole ∧
    (e.diagnostic "t" r Place.unknown.locate trap (some ⟨7, [], 3⟩)).Has e
      (Place.unknown.locate trap).2
      { result := .error (.trap (.refused .association)), labels := 1,
        calls := [.diagnostic, .association], records := [.diagnostic row],
        state := some ⟨7, [], 4⟩ } := by
  intro r e trap row
  have hr : ∀ key, r.key? = some key →
      e.tally.limit ≤ 0 ∨ ((e.occurrences key + 1 : Nat) : Int) ≤ e.tally.limit := by
    intro key _
    have hzero : e.occurrences key = 0 := Std.HashMap.getD_empty
    rw [hzero]
    exact .inr (Int.le_refl 1)
  obtain ⟨-, -, -, h⟩ := failure_keeps_earlier_stages e "t" r Place.unknown.locate trap
    (some ⟨7, [], 3⟩) trivial trivial hr
  exact ⟨trivial, trivial, ((h ⟨1⟩ rfl).2 rfl).refused _ rfl⟩

end DiagnosticLog
