import DiagnosticLog.Proofs.Sinks
import DiagnosticLog.Proofs.Text.Utf8
import DiagnosticLog.Proofs.TrapText
import DiagnosticLog.Proofs.Writer

/-! The text of a whole sequence of calls. A writer over a sink that takes everything says what each
call asks for, once and in order, and its text is read back as that. -/

namespace DiagnosticLog

/-! ### What calls say -/

/-- The statements that a call says, by its answer. The unknown location is said only once, so it
matters whether it is known already. -/
def TrapCall.statements (known : Bool) : TrapCall → TrapAnswer → List Statement
  | .keyedLabel key, .label l => [.keyed l key]
  | .unknownLocation, .label l => if known then [] else [.keyed l Statement.unknownKey]
  | .diagnostic row, .done => [.fresh row.id, .diagnostic row]
  | .association row, .done => [.association row]
  | .comment text, .done => [.comment text]
  | _, _ => []

/-- The statements that answered calls say one after the other. -/
def TrapCall.said (known : Bool) : List (TrapCall × TrapAnswer) → List Statement
  | [] => []
  | (call, answer) :: rest =>
    call.statements known answer ++ said (known || decide (call = .unknownLocation)) rest

/-- Calls on a new writer of text, over an empty sink that takes everything and stays as it is. -/
structure Telling where
  sink : ByteSink
  unfailing : sink.Unfailing
  empty : sink.contents = []
  calls : List TrapCall
  fixed : ∀ bytes, .grow bytes ∉ calls

namespace Telling

variable (t : Telling)

def run : List TrapAnswer × TrapWriter :=
  (TrapWriter.textual t.sink fun _ _ => false).run t.calls

/-- The calls with their answers. -/
def answered : List (TrapCall × TrapAnswer) := t.calls.zip t.run.1

def statements : List Statement := TrapCall.said false t.answered

def text : String := Utf8.decode t.run.2.bytes

end Telling

/-! ### A writer that refuses nothing -/

namespace TrapWriter

/-- The writer refuses nothing, and the text in its sink is that of some statements. -/
structure Tells (w : TrapWriter) (told : List Statement) : Prop where
  text : ∃ sink, w.store = .text sink ∧ sink.Unfailing ∧
    sink.contents = Utf8.encode (Statement.textAll told)
  lets : ∀ call n, w.refuses call n = false

variable {w : TrapWriter} {told : List Statement}

theorem Tells.tried (h : w.Tells told) (call : RefusableCall) : (w.tried call).Tells told :=
  ⟨h.text, h.lets⟩

theorem Tells.freshLabel (h : w.Tells told) : w.freshLabel.2.Tells told := ⟨h.text, h.lets⟩

theorem Tells.putText (h : w.Tells told) (ss : List Statement) :
    (w.putText (Statement.textAll ss)).1 = .ok () ∧
      (w.putText (Statement.textAll ss)).2.Tells (told ++ ss) := by
  obtain ⟨⟨sink, hw, hs, hc⟩, hl⟩ := h
  have hr := hs.result_write (Utf8.encode (Statement.textAll ss))
  have hc' := sink.contents_write hs.unbounded (Utf8.encode (Statement.textAll ss))
  rw [if_pos hr, hc, ← Utf8.encode_append, ← Statement.textAll_append] at hc'
  simp only [TrapWriter.putText, hw]
  exact ⟨hr, ⟨_, rfl, hs.write _, hc'⟩, hl⟩

theorem Tells.put (h : w.Tells told) (record : TrapRecord) :
    (w.put record).1 = .ok () ∧
      (w.put record).2.Tells (told ++ Statement.ofRecord record) := by
  obtain ⟨sink, hw, _⟩ := h.text
  simp only [TrapWriter.put, hw]
  exact h.putText (Statement.ofRecord record)

theorem Tells.write (h : w.Tells told) (call : RefusableCall) (record : TrapRecord) :
    (w.write call record).1 = .ok () ∧
      (w.write call record).2.Tells (told ++ Statement.ofRecord record) := by
  rw [write_eq, h.lets]
  exact (h.tried call).put record

theorem Tells.flush (h : w.Tells told) : w.flush.2.Tells told := by
  obtain ⟨⟨sink, hw, hs, hc⟩, hl⟩ := h
  simp only [flush_eq, hl, Bool.false_eq_true, if_false, flushStore, store_tried, hw]
  exact ⟨⟨_, rfl, hs.flush, hc⟩, hl⟩

theorem Tells.keyedLabel (h : w.Tells told) (key : String) :
    (w.keyedLabel key).1 = .ok w.freshLabel.1 ∧
      (w.keyedLabel key).2.Tells (told ++ [.keyed w.freshLabel.1 key]) ∧
      (w.keyedLabel key).2.unknown = w.unknown := by
  obtain ⟨hr, hw⟩ := h.freshLabel.putText [.keyed w.freshLabel.1 key]
  have hu := (w.freshLabel.2.sameButStore_putText
    (Statement.textAll [.keyed w.freshLabel.1 key])).unknown
  have ht : Statement.textAll [.keyed w.freshLabel.1 key] =
      (Statement.keyed w.freshLabel.1 key).text := by
    simp [Statement.textAll]
  rw [ht] at hr hw hu
  simp only [TrapWriter.keyedLabel]
  generalize w.freshLabel.2.putText _ = stored at hr hw hu ⊢
  obtain ⟨_ | _, w'⟩ := stored
  · cases hr
  · exact ⟨rfl, hw, hu⟩

/-- The unknown location is told if it is not known yet. -/
theorem Tells.unknownLocation (h : w.Tells told) :
    ∃ label, w.unknownLocation.1 = .ok label ∧ w.unknownLocation.2.unknown = some label ∧
      w.unknownLocation.2.Tells
        (told ++ if w.unknown.isSome then [] else [.keyed label Statement.unknownKey]) := by
  rw [unknownLocation_eq, h.lets]
  cases hu : w.unknown with
  | some label =>
    refine ⟨label, rfl, hu, ?_⟩
    simpa using h.tried .unknownLocation
  | none =>
    let v := (w.tried .unknownLocation).freshLabel
    obtain ⟨hr, hw⟩ := (h.tried .unknownLocation).freshLabel.put (.unknownLocation v.1)
    refine ⟨v.1, ?_⟩
    simp only [Bool.false_eq_true, if_false, storeUnknown]
    generalize TrapWriter.put _ _ = stored at hr hw ⊢
    obtain ⟨_ | _, w'⟩ := stored
    · cases hr
    · exact ⟨rfl, rfl, hw.text, hw.lets⟩

/-- What one call does: it says its statements, and only a flush can fail. -/
structure TellsNext (w : TrapWriter) (told : List Statement) (call : TrapCall)
    (answer : TrapAnswer) (w' : TrapWriter) : Prop where
  tells : w'.Tells (told ++ call.statements w.unknown.isSome answer)
  known : w'.unknown.isSome = (w.unknown.isSome || decide (call = .unknownLocation))
  lets : ∀ cause, answer = .failed cause → call = .flush

theorem Tells.next_write (h : w.Tells told) {call : TrapCall} {refusable : RefusableCall}
    {record : TrapRecord}
    (hs : ∀ known, call.statements known .done = Statement.ofRecord record)
    (hc : call ≠ .unknownLocation) :
    w.TellsNext told call (.ofUnit (w.write refusable record).1) (w.write refusable record).2 := by
  obtain ⟨hr, hw⟩ := h.write refusable record
  have hu := (w.sameButStore_write refusable record).unknown
  rw [hr]
  refine ⟨?_, ?_, ?_⟩
  · rw [TrapAnswer.ofUnit, hs]
    exact hw
  · rw [hu, unknown_tried, decide_eq_false hc, Bool.or_false]
  · rintro cause ⟨⟩

theorem Tells.perform (h : w.Tells told) {call : TrapCall} (hg : ∀ bytes, call ≠ .grow bytes) :
    w.TellsNext told call (w.perform call).1 (w.perform call).2 := by
  cases call with
  | freshLabel =>
    refine ⟨?_, ?_, ?_⟩
    · rw [TrapCall.statements.eq_def, List.append_nil]
      exact h.freshLabel
    · exact (Bool.or_false _).symm
    · rintro cause ⟨⟩
  | unknownLocation =>
    obtain ⟨label, hr, hu, hw⟩ := h.unknownLocation
    simp only [TrapWriter.perform, Prod.map, hr]
    refine ⟨hw, by simp [hu], ?_⟩
    rintro cause ⟨⟩
  | keyedLabel key =>
    obtain ⟨hr, hw, hu⟩ := h.keyedLabel key
    simp only [TrapWriter.perform, Prod.map, hr]
    refine ⟨hw, by simp [hu], ?_⟩
    rintro cause ⟨⟩
  | diagnostic row => exact h.next_write (fun _ => rfl) (by simp)
  | association row => exact h.next_write (fun _ => rfl) (by simp)
  | comment text => exact h.next_write (fun _ => rfl) (by simp)
  | flush =>
    have hu := w.sameButStore_flush.unknown
    refine ⟨?_, ?_, fun _ _ => rfl⟩
    · rw [TrapCall.statements.eq_def, List.append_nil]
      exact h.flush
    · exact (congrArg Option.isSome hu).trans (Bool.or_false _).symm
  | grow bytes => exact absurd rfl (hg bytes)

/-! ### Whole sequences -/

/-- Calls one after the other say their statements one after the other. -/
theorem Tells.run (h : w.Tells told) {calls : List TrapCall}
    (hg : ∀ bytes, .grow bytes ∉ calls) :
    (w.run calls).2.Tells
        (told ++ TrapCall.said w.unknown.isSome (calls.zip (w.run calls).1)) ∧
      ∀ call cause, (call, .failed cause) ∈ calls.zip (w.run calls).1 → call = .flush := by
  induction calls generalizing w told with
  | nil => exact ⟨by simpa [TrapCall.said] using h, by simp⟩
  | cons call rest ih =>
    have hc : ∀ bytes, call ≠ .grow bytes := by
      rintro bytes rfl
      exact hg bytes List.mem_cons_self
    have hn := h.perform hc
    obtain ⟨ht, hf⟩ := ih hn.tells fun bytes hb => hg bytes (List.mem_cons_of_mem call hb)
    rw [hn.known, List.append_assoc] at ht
    rw [run_cons]
    refine ⟨ht, ?_⟩
    intro call' cause hm
    rcases List.mem_cons.mp hm with hm | hm
    · obtain ⟨rfl, ha⟩ := Prod.mk.inj hm
      exact hn.lets cause ha.symm
    · exact hf call' cause hm

end TrapWriter

namespace Telling

variable (t : Telling)

/-- The text of a writer is read back as the statements that its calls said, in their order and with
all they were given; only a comment comes back on one line. So the text of calls settles what they
said. No call fails, unless it is a flush. -/
theorem read_back :
    (∀ call cause, (call, .failed cause) ∈ t.answered → call = .flush) ∧
    Statement.ofText? t.text = some (t.statements.map Statement.folded) ∧
    ∀ t' : Telling, t'.text = t.text →
      t'.statements.map Statement.folded = t.statements.map Statement.folded := by
  have hw : ∀ t : Telling, t.run.2.Tells t.statements ∧
      ∀ call cause, (call, .failed cause) ∈ t.answered → call = .flush := by
    intro t
    have hs : (TrapWriter.textual t.sink fun _ _ => false).Tells [] :=
      ⟨⟨t.sink, rfl, t.unfailing, t.empty⟩, fun _ _ => rfl⟩
    exact hs.run t.fixed
  have hr : ∀ t : Telling, Statement.ofText? t.text = some (t.statements.map Statement.folded) := by
    intro t
    obtain ⟨sink, hstore, _, hc⟩ := (hw t).1.text
    have hb : t.run.2.bytes = Utf8.encode (Statement.textAll t.statements) := by
      rw [TrapWriter.bytes, hstore]
      exact hc
    rw [text, hb, Utf8.decode_encode, Statement.ofText?_textAll]
  refine ⟨(hw t).2, hr t, ?_⟩
  intro t' ht
  have h := hr t'
  rw [ht, hr t] at h
  exact (Option.some.inj h).symm

/-- A key and a comment that look like further statements stay a key and a comment. -/
theorem read_back_look_alikes :
    let t : Telling := ⟨{}, ⟨rfl, fun _ => rfl⟩, rfl,
      [.keyedLabel "a\"\n#2=*", .unknownLocation, .comment "b\n#3=*", .unknownLocation], by simp⟩
    Statement.ofText? t.text =
      some [.keyed ⟨1⟩ "a\"\n#2=*", .keyed ⟨2⟩ "loc,\x7bunknown\x7d", .comment "b #3=*"] := by
  intro t
  have hs : t.statements.map Statement.folded =
      [.keyed ⟨1⟩ "a\"\n#2=*", .keyed ⟨2⟩ "loc,\x7bunknown\x7d", .comment "b #3=*"] := by
    decide
  rw [← hs]
  exact t.read_back.2.1

end Telling

end DiagnosticLog
