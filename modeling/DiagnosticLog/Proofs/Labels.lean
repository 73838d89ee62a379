import DiagnosticLog.Proofs.Mirrors
import DiagnosticLog.Proofs.TrapText

/-! The labels of a trap writer. Every call that needs a label takes the next one, and keeps it even
if the write that follows fails; so no label is taken twice. The unknown location is introduced by
the first call that succeeds in asking for it, under the label which that call took, and never
again. A sink may take any part of a write. What it took is a prefix of the text, and a text that
has the definition of a label as a prefix is one that gives the label. -/

namespace DiagnosticLog

/-! ### Bytes -/

namespace Utf8

theorem decodeFrom_encode (s : String) (rest : List UInt8) :
    decodeFrom .start (encode s ++ rest) = s.toList ++ decodeFrom .start rest := by
  have h : ∀ cs : List Char,
      decodeFrom .start (cs.flatMap String.utf8EncodeChar ++ rest) =
        cs ++ decodeFrom .start rest := by
    intro cs
    induction cs with
    | nil => rfl
    | cons c cs ih =>
      rw [List.flatMap_cons, List.append_assoc, decodeFrom_char, ih, List.cons_append]
  exact h s.toList

/-- Bytes of a text that begin with the bytes of another text come from a text that begins with it.
-/
theorem prefix_of_encode_prefix {s t : String} (h : encode s <+: encode t) :
    s.toList <+: t.toList := by
  obtain ⟨rest, h⟩ := h
  refine ⟨decodeFrom .start rest, ?_⟩
  have ht := decodeFrom_encode t []
  have hn : decodeFrom .start [] = [] := rfl
  rw [hn, List.append_nil, List.append_nil] at ht
  rw [← decodeFrom_encode, h, ht]

end Utf8

/-- Of some bytes a sink takes the first ones, or all, or none. -/
theorem ByteSink.contents_write_prefix (s : ByteSink) (bytes : List UInt8) :
    ∃ piece, piece <+: bytes ∧ (s.write bytes).2.contents = s.contents ++ piece ∧
      ((s.write bytes).1 = .ok () → piece = bytes) := by
  have hf : s.fitting bytes <+: bytes := by
    unfold fitting
    split
    · exact List.prefix_refl bytes
    · exact List.take_prefix ..
  unfold write
  by_cases he : bytes = []
  · exact ⟨[], List.nil_prefix, by simp [he], fun _ => he.symm⟩
  · rw [if_neg he]
    dsimp only
    split
    · exact ⟨[], List.nil_prefix, by simp [contents], by rintro ⟨⟩⟩
    · refine ⟨s.fitting bytes, hf, by simp [contents], ?_⟩
      split
      · rintro ⟨⟩
      next hlt => exact fun _ => hf.eq_of_length_le (Nat.le_of_not_lt hlt)

/-! ### Calls on a writer -/

/-- The row that a call brings. -/
def TrapCall.row? : TrapCall → Option DiagnosticRow
  | .diagnostic row => some row
  | _ => none

/-- A call on a trap writer, and the writer on which it is made. -/
structure TrapMoment where
  before : TrapWriter
  call : TrapCall

/-- Calls one after the other. -/
def TrapWriter.history (w : TrapWriter) : List TrapCall → List TrapMoment
  | [] => []
  | call :: rest => ⟨w, call⟩ :: (w.perform call).2.history rest

namespace TrapMoment

variable (m : TrapMoment)

def answer : TrapAnswer := (m.before.perform m.call).1

def after : TrapWriter := (m.before.perform m.call).2

/-- The label that a call takes, whether it can use it or not. Of the calls for the unknown location
only those take one that are not refused and do not know it yet. -/
def takes : Option Label :=
  match m.call with
  | .freshLabel | .keyedLabel _ => some m.before.freshLabel.1
  | .unknownLocation =>
    if m.before.refuses .unknownLocation m.before.attempts.unknownLocation then none
    else if m.before.unknown.isSome then none
    else some m.before.freshLabel.1
  | _ => none

/-- The record that a call stores if all goes well. -/
def record? : Option TrapRecord :=
  match m.call with
  | .unknownLocation => m.takes.map .unknownLocation
  | .diagnostic row => some (.diagnostic row)
  | .association row => some (.association row)
  | .comment text => some (.comment text)
  | .freshLabel | .keyedLabel _ | .flush | .grow _ => none

/-- The text that a call says if all of it is taken. -/
def text : String :=
  match m.call with
  | .keyedLabel key => (Statement.keyed m.before.freshLabel.1 key).text
  | _ => (m.record?.map TrapRecord.text).getD ""

/-- Whether a call wrote the record that defines the unknown location under a label, or its line, in
full. -/
def Defines (label : Label) : Prop :=
  m.after.records = m.before.records ++ [.unknownLocation label] ∨
    m.after.bytes = m.before.bytes ++ Utf8.encode (TrapRecord.unknownLocation label).rendering

end TrapMoment

/-- Whether the definition of the unknown location under a label stands in what is stored. -/
def TrapWriter.Defined (w : TrapWriter) (label : Label) : Prop :=
  .unknownLocation label ∈ w.records ∨
    Utf8.encode (TrapRecord.unknownLocation label).rendering <:+: w.bytes

/-! ### What a call does to its writer -/

namespace TrapWriter

variable (w : TrapWriter)

/-- From one writer to another a part of a text was written, and the whole of it if all went well.
-/
structure Says (w : TrapWriter) (text : String) (result : Except Failure Unit) (w' : TrapWriter) :
    Prop where
  bytes : ∃ piece, piece <+: Utf8.encode text ∧ w'.bytes = w.bytes ++ piece ∧
    (w.keeps = false → result = .ok () → piece = Utf8.encode text)

theorem says_putText (text : String) : w.Says text (w.putText text).1 (w.putText text).2 := by
  cases hs : w.store with
  | records kept flushes =>
    refine ⟨[], List.nil_prefix, ?_, ?_⟩
    · simp [putText, hs]
    · simp [keeps, hs]
  | text sink =>
    obtain ⟨piece, hp, hc, hall⟩ := sink.contents_write_prefix (Utf8.encode text)
    have hw : w.putText text = ((sink.write (Utf8.encode text)).1,
        { w with store := .text (sink.write (Utf8.encode text)).2 }) := by
      simp only [putText, hs]
    rw [hw]
    refine ⟨piece, hp, ?_, fun _ => hall⟩
    simpa [bytes, hs] using hc

theorem says_put (record : TrapRecord) :
    w.Says record.text (w.put record).1 (w.put record).2 := by
  cases hs : w.store with
  | records kept flushes =>
    refine ⟨[], List.nil_prefix, ?_, ?_⟩
    · simp [put, hs, bytes]
    · simp [keeps, hs]
  | text sink =>
    simp only [put, hs]
    exact w.says_putText record.text

theorem says_write (call : RefusableCall) (record : TrapRecord) :
    w.Says record.text (w.write call record).1 (w.write call record).2 := by
  rw [write_eq]
  split
  · exact ⟨[], List.nil_prefix, (List.append_nil _).symm, by rintro - ⟨⟩⟩
  · exact ⟨((w.tried call).says_put record).bytes⟩

theorem added_put (record : TrapRecord) :
    ∃ added, (w.put record).2.records = w.records ++ added ∧ added.Sublist [record] := by
  refine ⟨_, w.records_put record, ?_⟩
  split <;> simp

theorem added_write (call : RefusableCall) (record : TrapRecord) :
    ∃ added, (w.write call record).2.records = w.records ++ added ∧ added.Sublist [record] := by
  refine ⟨_, w.records_write call record, ?_⟩
  split <;> simp

/-- A call for the unknown location is refused, or knows the label, or tries to store it. -/
theorem unknownLocation_cases :
    (w.refuses .unknownLocation w.attempts.unknownLocation = true ∧ w.unknownLocation =
      (.error (.refused .unknownLocation), w.tried .unknownLocation)) ∨
    (w.refuses .unknownLocation w.attempts.unknownLocation = false ∧ ∃ label,
      w.unknown = some label ∧ w.unknownLocation = (.ok label, w.tried .unknownLocation)) ∨
    (w.refuses .unknownLocation w.attempts.unknownLocation = false ∧ w.unknown = none ∧
      w.unknownLocation = (w.tried .unknownLocation).storeUnknown) := by
  rw [unknownLocation_eq]
  cases w.refuses .unknownLocation w.attempts.unknownLocation with
  | true => exact .inl ⟨rfl, rfl⟩
  | false =>
    cases w.unknown with
    | some label => exact .inr (.inl ⟨rfl, label, rfl, rfl⟩)
    | none => exact .inr (.inr ⟨rfl, rfl, rfl⟩)

theorem storeUnknown_cases :
    let stored := w.freshLabel.2.put (.unknownLocation w.freshLabel.1)
    (∃ cause, stored.1 = .error cause ∧ w.storeUnknown = (.error cause, stored.2)) ∨
      (stored.1 = .ok () ∧ w.storeUnknown =
        (.ok w.freshLabel.1, { stored.2 with unknown := some w.freshLabel.1 })) := by
  simp only [storeUnknown]
  generalize w.freshLabel.2.put (.unknownLocation w.freshLabel.1) = stored
  obtain ⟨cause | _, w'⟩ := stored
  · exact .inl ⟨cause, rfl, rfl⟩
  · exact .inr ⟨rfl, rfl⟩

theorem bytes_flushStore : w.flushStore.2.bytes = w.bytes := by
  unfold flushStore
  split <;> simp_all [bytes, ByteSink.flush, ByteSink.contents]

theorem bytes_flush : w.flush.2.bytes = w.bytes := by
  rw [flush_eq]
  split
  · rfl
  · exact (w.tried .flush).bytes_flushStore

theorem sameButStore_grow (bytes : Nat) :
    w.SameButStore (w.grow bytes).2 ∧ (w.grow bytes).2.bytes = w.bytes := by
  unfold grow
  split
  · exact ⟨⟨rfl, rfl, rfl, rfl⟩, rfl⟩
  next sink hs => exact ⟨⟨rfl, rfl, rfl, rfl⟩, by simp [TrapWriter.bytes, hs]; rfl⟩

/-- Where the unknown location was put, all of its definition is. -/
theorem defines_put (label : Label) (h : (w.put (.unknownLocation label)).1 = .ok ()) :
    (w.put (.unknownLocation label)).2.records = w.records ++ [.unknownLocation label] ∨
      (w.put (.unknownLocation label)).2.bytes =
        w.bytes ++ Utf8.encode (TrapRecord.unknownLocation label).rendering := by
  cases hk : w.keeps with
  | true =>
    left
    rw [records_put, hk]
    rfl
  | false =>
    right
    obtain ⟨piece, -, hb, hall⟩ := (w.says_put (.unknownLocation label)).bytes
    rw [hb, hall hk h, TrapRecord.text_eq_rendering]

theorem keyedLabel_snd (key : String) :
    (w.keyedLabel key).2 =
      (w.freshLabel.2.putText (Statement.keyed w.freshLabel.1 key).text).2 := by
  simp only [keyedLabel]
  generalize w.freshLabel.2.putText _ = stored
  obtain ⟨_ | _, w'⟩ := stored <;> rfl

end TrapWriter

namespace TrapMoment

/-- A call for the unknown location that is refused or knows the label takes none. -/
theorem takes_of_refused {w : TrapWriter}
    (h : w.refuses .unknownLocation w.attempts.unknownLocation = true) :
    (TrapMoment.mk w .unknownLocation).takes = none :=
  if_pos h

theorem takes_of_known {w : TrapWriter} {label : Label} (h : w.unknown = some label) :
    (TrapMoment.mk w .unknownLocation).takes = none := by
  simp [takes, h]

theorem takes_of_unknown {w : TrapWriter}
    (h : w.refuses .unknownLocation w.attempts.unknownLocation = false) (hu : w.unknown = none) :
    (TrapMoment.mk w .unknownLocation).takes = some w.freshLabel.1 := by
  simp [takes, h, hu]

/-- What every call does to its writer. Its record is stored or not, and its text up to some byte.
-/
structure Moved (m : TrapMoment) : Prop where
  lastLabel : m.after.lastLabel = m.before.lastLabel + m.takes.toList.length
  unknown : m.call ≠ .unknownLocation → m.after.unknown = m.before.unknown
  records : ∃ added, m.after.records = m.before.records ++ added ∧
    added.Sublist m.record?.toList
  bytes : ∃ piece, m.after.bytes = m.before.bytes ++ piece ∧ piece <+: Utf8.encode m.text

/-- A call that stores nothing. -/
theorem moved_of_same {m : TrapMoment}
    (hl : m.after.lastLabel = m.before.lastLabel + m.takes.toList.length)
    (hu : m.call ≠ .unknownLocation → m.after.unknown = m.before.unknown)
    (hr : m.after.records = m.before.records) (hb : m.after.bytes = m.before.bytes) : m.Moved := by
  refine ⟨hl, hu, ⟨[], ?_, List.nil_sublist _⟩, [], ?_, List.nil_prefix⟩
  · rw [hr, List.append_nil]
  · rw [hb, List.append_nil]

/-- A call that tries to store its record and takes no label. -/
theorem moved_of_write {w : TrapWriter} {call : TrapCall} {refusable : RefusableCall}
    {record : TrapRecord} (ht : (TrapMoment.mk w call).takes = none)
    (hr : (TrapMoment.mk w call).record? = some record)
    (hx : (TrapMoment.mk w call).text = record.text)
    (ha : (TrapMoment.mk w call).after = (w.write refusable record).2) :
    (TrapMoment.mk w call).Moved := by
  have hs := w.sameButStore_write refusable record
  obtain ⟨added, hadded, hsub⟩ := w.added_write refusable record
  obtain ⟨piece, hp, hb, -⟩ := (w.says_write refusable record).bytes
  refine ⟨?_, fun _ => ?_, ⟨added, ha ▸ hadded, hr ▸ hsub⟩, piece, ha ▸ hb, hx ▸ hp⟩
  · rw [ht, ha]
    exact hs.lastLabel
  · rw [ha]
    exact hs.unknown

theorem moved_unknownLocation (w : TrapWriter) : (TrapMoment.mk w .unknownLocation).Moved := by
  have ha : (TrapMoment.mk w .unknownLocation).after = w.unknownLocation.2 := rfl
  rcases w.unknownLocation_cases with ⟨hr, he⟩ | ⟨hr, label, hu, he⟩ | ⟨hr, hu, he⟩
  · rw [he] at ha
    exact moved_of_same (by rw [takes_of_refused hr, ha]; rfl) (absurd rfl) (by rw [ha]; rfl)
      (by rw [ha]; rfl)
  · rw [he] at ha
    exact moved_of_same (by rw [takes_of_known hu, ha]; rfl) (absurd rfl) (by rw [ha]; rfl)
      (by rw [ha]; rfl)
  · -- the writer differs from that of the put record in what it knows alone
    let v := (w.tried .unknownLocation).freshLabel
    have ht := takes_of_unknown hr hu
    have hrecord : (TrapMoment.mk w .unknownLocation).record? = some (.unknownLocation v.1) :=
      congrArg (Option.map TrapRecord.unknownLocation) ht
    have hx : (TrapMoment.mk w .unknownLocation).text = (TrapRecord.unknownLocation v.1).text := by
      rw [text, hrecord]
      rfl
    obtain ⟨unknown, hv⟩ := (w.tried .unknownLocation).storeUnknown_snd
    have hs := v.2.sameButStore_put (.unknownLocation v.1)
    obtain ⟨added, hadded, hsub⟩ := v.2.added_put (.unknownLocation v.1)
    obtain ⟨piece, hp, hb, -⟩ := (v.2.says_put (.unknownLocation v.1)).bytes
    rw [he, hv] at ha
    refine ⟨?_, absurd rfl, ⟨added, ?_, hrecord ▸ hsub⟩, piece, ?_, hx ▸ hp⟩
    · rw [ht, ha]
      exact hs.lastLabel
    · rw [ha]
      exact hadded
    · rw [ha]
      exact hb

theorem moved_keyedLabel (w : TrapWriter) (key : String) :
    (TrapMoment.mk w (.keyedLabel key)).Moved := by
  have ha : (TrapMoment.mk w (.keyedLabel key)).after = _ := w.keyedLabel_snd key
  have hs := w.freshLabel.2.sameButStore_putText (Statement.keyed w.freshLabel.1 key).text
  obtain ⟨piece, hp, hb, -⟩ :=
    (w.freshLabel.2.says_putText (Statement.keyed w.freshLabel.1 key).text).bytes
  refine ⟨?_, fun _ => ?_, ⟨[], ?_, List.nil_sublist _⟩, piece, ?_, hp⟩
  · rw [ha]
    exact hs.lastLabel
  · rw [ha]
    exact hs.unknown
  · rw [ha]
    simp
  · rw [ha]
    exact hb

theorem moved (m : TrapMoment) : m.Moved := by
  obtain ⟨w, call⟩ := m
  cases call with
  | freshLabel => exact moved_of_same rfl (fun _ => rfl) rfl rfl
  | unknownLocation => exact moved_unknownLocation w
  | keyedLabel key => exact moved_keyedLabel w key
  | diagnostic row => exact moved_of_write rfl rfl rfl rfl
  | association row => exact moved_of_write rfl rfl rfl rfl
  | comment text => exact moved_of_write rfl rfl rfl rfl
  | flush =>
    have hs := w.sameButStore_flush
    exact moved_of_same hs.lastLabel (fun _ => hs.unknown) w.records_flush.1 w.bytes_flush
  | grow bytes =>
    obtain ⟨hs, hb⟩ := w.sameButStore_grow bytes
    exact moved_of_same hs.lastLabel (fun _ => hs.unknown) (w.records_grow bytes).1 hb

/-- A call stores no diagnostic but the one that it brings. -/
theorem diagnostics_after (m : TrapMoment) :
    ∃ kept, TrapRecord.diagnostics m.after.records =
        TrapRecord.diagnostics m.before.records ++ kept ∧
      kept.Sublist ([m.call].filterMap TrapCall.row?) := by
  obtain ⟨added, hr, hs⟩ := m.moved.records
  refine ⟨TrapRecord.diagnostics added, ?_, ?_⟩
  · rw [hr, TrapRecord.diagnostics, List.filterMap_append]
    rfl
  · have hd : TrapRecord.diagnostics m.record?.toList = [m.call].filterMap TrapCall.row? := by
      obtain ⟨w, call⟩ := m
      cases call with
      | unknownLocation =>
        have hr : (TrapMoment.mk w .unknownLocation).record? =
            (TrapMoment.mk w .unknownLocation).takes.map .unknownLocation := rfl
        rw [hr]
        cases (TrapMoment.mk w .unknownLocation).takes <;> rfl
      | _ => rfl
    rw [← hd]
    exact hs.filterMap _

/-- What is stored stays stored. -/
theorem defined_after {m : TrapMoment} {label : Label} (h : m.before.Defined label) :
    m.after.Defined label := by
  obtain ⟨added, hr, -⟩ := m.moved.records
  obtain ⟨piece, hb, -⟩ := m.moved.bytes
  rcases h with h | h
  · left
    rw [hr]
    exact List.mem_append_left added h
  · right
    rw [hb]
    exact h.trans (List.prefix_append ..).isInfix

theorem Defines.defined {m : TrapMoment} {label : Label} (h : m.Defines label) :
    m.after.Defined label := by
  rcases h with h | h
  · left
    rw [h]
    exact List.mem_append_right _ List.mem_cons_self
  · right
    rw [h]
    exact (List.suffix_append ..).isInfix

/-! ### Definitions -/

theorem read?_gives (l : Label) (rest : List Char) :
    Label.read? (l.text.toList ++ '=' :: rest) = some (l, '=' :: rest) :=
  l.read?_text (Scan.endsNumeral_cons (by decide) rest)

theorem toList_definition (l : Label) :
    (TrapRecord.unknownLocation l).rendering.toList =
      l.text.toList ++ '=' :: '@' :: "\"loc,\x7bunknown\x7d\"\n".toList := by
  rw [TrapRecord.rendering, String.toList_append]
  rfl

theorem toList_text_unknownLocation {w : TrapWriter} {l : Label}
    (h : (TrapMoment.mk w .unknownLocation).takes = some l) :
    (TrapMoment.mk w .unknownLocation).text.toList =
      l.text.toList ++ '=' :: '@' :: "\"loc,\x7bunknown\x7d\"\n".toList := by
  rw [← toList_definition, ← TrapRecord.text_eq_rendering, text, record?, h]
  rfl

theorem toList_text_keyedLabel (w : TrapWriter) (key : String) :
    (TrapMoment.mk w (.keyedLabel key)).text.toList =
      w.freshLabel.1.text.toList ++ '=' :: '@' :: ((Quoted.quote key).toList ++ ['\n']) := by
  simp [text, Statement.text, Statement.body]

theorem toList_text_diagnostic (w : TrapWriter) (row : DiagnosticRow) :
    (TrapMoment.mk w (.diagnostic row)).text.toList =
      row.id.text.toList ++ '=' :: '*' :: '\n' :: (Statement.diagnostic row).text.toList := by
  simp [text, record?, TrapRecord.text, Statement.ofRecord, Statement.textAll, Statement.text,
    Statement.body]

theorem read?_text_association (w : TrapWriter) (row : AssociationRow) :
    Label.read? (TrapMoment.mk w (.association row)).text.toList = none := by
  have hx : ∃ rest, (TrapMoment.mk w (.association row)).text.toList = 'd' :: rest := by
    simp [text, record?, TrapRecord.text_eq_rendering, TrapRecord.rendering]
  obtain ⟨rest, hx⟩ := hx
  rw [hx]
  rfl

theorem read?_text_comment (w : TrapWriter) (comment : String) :
    Label.read? (TrapMoment.mk w (.comment comment)).text.toList = none := by
  have hx : ∃ rest, (TrapMoment.mk w (.comment comment)).text.toList = '/' :: rest := by
    simp [text, record?, TrapRecord.text_eq_rendering, TrapRecord.rendering]
  obtain ⟨rest, hx⟩ := hx
  rw [hx]
  rfl

/-- A text that gives a label by name is that of the call which takes the label. -/
theorem takes_of_read? {m : TrapMoment} {label : Label} {rest : List Char}
    (h : Label.read? m.text.toList = some (label, '=' :: '@' :: rest)) : m.takes = some label := by
  obtain ⟨w, call⟩ := m
  cases call with
  | keyedLabel key =>
    rw [toList_text_keyedLabel, read?_gives] at h
    exact congrArg (Option.map Prod.fst) h
  | unknownLocation =>
    cases ht : (TrapMoment.mk w .unknownLocation).takes with
    | none =>
      have hx : (TrapMoment.mk w .unknownLocation).text = "" := by
        simp [text, record?, ht]
      rw [hx] at h
      cases h
    | some l =>
      rw [toList_text_unknownLocation ht, read?_gives] at h
      exact congrArg (Option.map Prod.fst) h
  | diagnostic row =>
    rw [toList_text_diagnostic, read?_gives] at h
    simp at h
  | association row => cases (read?_text_association w row).symm.trans h
  | comment comment => cases (read?_text_comment w comment).symm.trans h
  | freshLabel | flush | grow bytes => cases h

/-- A text that begins with the definition of a label is that of the call which takes the label. -/
theorem takes_of_prefix {m : TrapMoment} {label : Label}
    (h : (TrapRecord.unknownLocation label).rendering.toList <+: m.text.toList) :
    m.takes = some label := by
  obtain ⟨more, hm⟩ := h
  rw [toList_definition, List.append_assoc, List.cons_append, List.cons_append] at hm
  have hread := read?_gives label ('@' :: ("\"loc,\x7bunknown\x7d\"\n".toList ++ more))
  rw [hm] at hread
  exact takes_of_read? hread

theorem takes_of_record {m : TrapMoment} {label : Label}
    (h : m.record? = some (.unknownLocation label)) : m.takes = some label := by
  unfold record? at h
  split at h
  · obtain ⟨l, hl, he⟩ := Option.map_eq_some_iff.mp h
    rw [hl, TrapRecord.unknownLocation.inj he]
  all_goals simp at h

theorem takes_of_defines {m : TrapMoment} {label : Label} (h : m.Defines label) :
    m.takes = some label := by
  rcases h with h | h
  · obtain ⟨added, ha, hl⟩ := m.moved.records
    obtain rfl := List.append_cancel_left (ha.symm.trans h)
    exact takes_of_record (Option.mem_toList.mp (List.singleton_sublist.mp hl))
  · obtain ⟨piece, hb, hp⟩ := m.moved.bytes
    obtain rfl := List.append_cancel_left (hb.symm.trans h)
    exact takes_of_prefix (Utf8.prefix_of_encode_prefix hp)

/-! ### Labels taken one after the other -/

theorem eq_freshLabel_of_takes {m : TrapMoment} {label : Label} (h : m.takes = some label) :
    label = m.before.freshLabel.1 := by
  unfold takes at h
  split at h
  · exact (Option.some.inj h).symm
  · exact (Option.some.inj h).symm
  · split at h
    · contradiction
    · split at h
      · contradiction
      · exact (Option.some.inj h).symm
  · contradiction

/-- A call that is no search for the unknown location tells no label but the one it takes. -/
theorem takes_of_answer {m : TrapMoment} (hc : m.call ≠ .unknownLocation) {label : Label}
    (ha : m.answer = .label label) : m.takes = some label := by
  obtain ⟨w, call⟩ := m
  have hunit : ∀ result : Except Failure Unit, TrapAnswer.ofUnit result ≠ .label label := by
    rintro (_ | _) ⟨⟩
  cases call with
  | freshLabel => exact congrArg some (TrapAnswer.label.inj ha)
  | unknownLocation => exact absurd rfl hc
  | keyedLabel key =>
    have hk : TrapAnswer.ofLabel (w.keyedLabel key).1 = .label label := ha
    simp only [TrapWriter.keyedLabel] at hk
    generalize w.freshLabel.2.putText _ = stored at hk
    obtain ⟨cause | _, w'⟩ := stored
    · cases hk
    · exact congrArg some (TrapAnswer.label.inj hk)
  | diagnostic row | association row | comment text | flush => exact absurd ha (hunit _)
  | grow bytes =>
    simp only [answer, TrapWriter.perform] at ha
    generalize w.grow bytes = grown at ha
    obtain ⟨_ | _, _⟩ := grown <;> cases ha

/-- The call among others that tells the unknown location: the first one that succeeds in asking for
it. It takes the label, it is the only one that writes the definition in full, and every call after
it finds the definition stored. -/
structure Introduces (m : TrapMoment) (label : Label) (pre post : List TrapMoment) : Prop where
  call : m.call = .unknownLocation
  answer : m.answer = .label label
  takes : m.takes = some label
  defines : m.Defines label
  earlier : ∀ y ∈ pre, y.call = .unknownLocation → ∀ l, y.answer ≠ .label l
  later : ∀ y ∈ post, y.call = .unknownLocation → ∀ l, y.answer = .label l → l = label
  once : ∀ y ∈ pre ++ post, ¬ y.Defines label
  stands : ∀ y ∈ post, y.before.Defined label

/-- A call for the unknown location tells only a label that is known already; or none is known yet,
and the call takes one, stores its definition and tells it. -/
theorem asks (w : TrapWriter) :
    let m : TrapMoment := ⟨w, .unknownLocation⟩
    (m.after.unknown = w.unknown ∧ ∀ l, m.answer = .label l → w.unknown = some l) ∨
      ∃ label, w.unknown = none ∧ m.after.unknown = some label ∧ m.answer = .label label ∧
        m.takes = some label ∧ m.Defines label := by
  intro m
  have ha : m.after = w.unknownLocation.2 := rfl
  have hr : m.answer = .ofLabel w.unknownLocation.1 := rfl
  rcases w.unknownLocation_cases with ⟨-, he⟩ | ⟨-, label, hl, he⟩ | ⟨hn, hu, he⟩
  · rw [ha, hr, he]
    exact .inl ⟨rfl, by rintro l ⟨⟩⟩
  · rw [ha, hr, he]
    refine .inl ⟨rfl, ?_⟩
    rintro l ⟨⟩
    exact hl
  · let v := (w.tried .unknownLocation).freshLabel
    rcases (w.tried .unknownLocation).storeUnknown_cases with ⟨cause, -, h⟩ | ⟨hok, h⟩
    · rw [ha, hr, he, h]
      exact .inl ⟨(v.2.sameButStore_put _).unknown, by rintro l ⟨⟩⟩
    · have hd := v.2.defines_put v.1 hok
      refine .inr ⟨v.1, hu, ?_, ?_, takes_of_unknown hn hu, ?_⟩
      · rw [ha, he, h]
      · rw [hr, he, h]
        rfl
      · rw [Defines, ha, he, h]
        exact hd

/-- A call tells the unknown location only if it is known already, or it makes it known. -/
theorem unknown_after (m : TrapMoment) :
    (m.after.unknown = m.before.unknown ∧
      (m.call = .unknownLocation → ∀ l, m.answer = .label l → m.before.unknown = some l)) ∨
    ∃ label, m.before.unknown = none ∧ m.after.unknown = some label ∧ m.call = .unknownLocation ∧
      m.answer = .label label ∧ m.takes = some label ∧ m.Defines label := by
  obtain ⟨w, call⟩ := m
  by_cases hc : call = .unknownLocation
  · subst hc
    rcases asks w with ⟨hu, ha⟩ | ⟨label, hn, hu, ha, ht, hd⟩
    · exact .inl ⟨hu, fun _ => ha⟩
    · exact .inr ⟨label, hn, hu, rfl, ha, ht, hd⟩
  · exact .inl ⟨(TrapMoment.mk w call).moved.unknown hc, fun h => absurd h hc⟩

end TrapMoment

/-- Among labels that increase none comes twice. -/
theorem Label.taken_once {α : Type} {takes : α → Option Label} {pre post : List α} {a : α}
    {label : Label}
    (hp : ((pre ++ a :: post).filterMap takes).Pairwise fun l l' => l.number < l'.number)
    (ha : takes a = some label) : ∀ b ∈ pre ++ post, takes b ≠ some label := by
  rw [List.filterMap_append, List.filterMap_cons_some ha, List.pairwise_append,
    List.pairwise_cons] at hp
  obtain ⟨-, ⟨hpost, -⟩, hpre⟩ := hp
  intro b hb ht
  rcases List.mem_append.mp hb with hb | hb
  · exact Nat.lt_irrefl _
      (hpre label (List.mem_filterMap.mpr ⟨b, hb, ht⟩) label List.mem_cons_self)
  · exact Nat.lt_irrefl _ (hpost label (List.mem_filterMap.mpr ⟨b, hb, ht⟩))

theorem Label.taken_by_one {α : Type} (takes : α → Option Label) {moments : List α} {a b : α}
    {label : Label}
    (hp : (moments.filterMap takes).Pairwise fun l l' => l.number < l'.number)
    (ha : a ∈ moments) (hb : b ∈ moments) (hta : takes a = some label)
    (htb : takes b = some label) : b = a := by
  obtain ⟨pre, post, rfl⟩ := List.append_of_mem ha
  rcases List.mem_append.mp hb with hb | hb
  · exact absurd htb (taken_once hp hta b (List.mem_append_left _ hb))
  · rcases List.mem_cons.mp hb with rfl | hb
    · rfl
    · exact absurd htb (taken_once hp hta b (List.mem_append_right _ hb))

namespace TrapWriter

variable {w : TrapWriter}

theorem history_append (calls more : List TrapCall) :
    w.history (calls ++ more) = w.history calls ++ (w.run calls).2.history more := by
  induction calls generalizing w with
  | nil => rfl
  | cons call rest ih =>
    rw [List.cons_append, history, ih, run_cons]
    rfl

/-- The labels taken by calls are numbered on from the last one. -/
theorem numbers_takes (calls : List TrapCall) :
    ∃ n, ((w.history calls).filterMap TrapMoment.takes).map Label.number =
      List.range' (w.lastLabel + 1) n := by
  induction calls generalizing w with
  | nil => exact ⟨0, rfl⟩
  | cons call rest ih =>
    let m : TrapMoment := ⟨w, call⟩
    have hl : m.after.lastLabel = w.lastLabel + m.takes.toList.length := m.moved.lastLabel
    obtain ⟨n, hn⟩ := ih (w := m.after)
    have hh : w.history (call :: rest) = m :: m.after.history rest := rfl
    rw [hh]
    cases ht : m.takes with
    | none =>
      rw [ht, Option.toList_none, List.length_nil, Nat.add_zero] at hl
      rw [List.filterMap_cons_none ht, hn, hl]
      exact ⟨n, rfl⟩
    | some label =>
      rw [ht, Option.toList_some, List.length_singleton] at hl
      rw [List.filterMap_cons_some ht, List.map_cons, hn, hl, TrapMoment.eq_freshLabel_of_takes ht]
      exact ⟨n + 1, rfl⟩

theorem takes_increasing (calls : List TrapCall) :
    ((w.history calls).filterMap TrapMoment.takes).Pairwise
      fun label label' => label.number < label'.number := by
  obtain ⟨n, hn⟩ := w.numbers_takes calls
  rw [← List.pairwise_map, hn]
  exact List.pairwise_lt_range'

theorem lastLabel_lt_of_takes {calls : List TrapCall} {m : TrapMoment} {label : Label}
    (hm : m ∈ w.history calls) (ht : m.takes = some label) : w.lastLabel < label.number := by
  obtain ⟨n, hn⟩ := w.numbers_takes calls
  have hmem : label.number ∈ ((w.history calls).filterMap TrapMoment.takes).map Label.number :=
    List.mem_map_of_mem (List.mem_filterMap.mpr ⟨m, hm, ht⟩)
  rw [hn, List.mem_range'] at hmem
  omega

/-- Of the diagnostics that calls bring, in their order, some are stored. -/
theorem diagnostics_run (calls : List TrapCall) :
    ∃ kept, TrapRecord.diagnostics (w.run calls).2.records =
        TrapRecord.diagnostics w.records ++ kept ∧
      kept.Sublist (calls.filterMap TrapCall.row?) := by
  induction calls generalizing w with
  | nil => exact ⟨[], (List.append_nil _).symm, .refl _⟩
  | cons call rest ih =>
    obtain ⟨kept, hr, hs⟩ := TrapMoment.diagnostics_after ⟨w, call⟩
    obtain ⟨more, hr', hs'⟩ := ih (w := (w.perform call).2)
    refine ⟨kept ++ more, ?_, ?_⟩
    · rw [run_cons, ← List.append_assoc]
      exact hr'.trans (congrArg (· ++ more) hr)
    · rw [← List.singleton_append, List.filterMap_append]
      exact hs.append hs'

/-- Once the unknown location is known, every call for it that succeeds tells its label. -/
theorem answer_of_known {label : Label} (hu : w.unknown = some label) (calls : List TrapCall) :
    ∀ m ∈ w.history calls, m.call = .unknownLocation → ∀ l, m.answer = .label l → l = label := by
  induction calls generalizing w with
  | nil => simp [history]
  | cons call rest ih =>
    let m : TrapMoment := ⟨w, call⟩
    rcases m.unknown_after with ⟨hk, ha⟩ | ⟨_, hn, -⟩
    · intro y hy hc l hl
      rcases List.mem_cons.mp hy with rfl | hy
      · exact Option.some.inj ((ha hc l hl).symm.trans hu)
      · exact ih (hk.trans hu) y hy hc l hl
    · exact absurd (hu.symm.trans hn) (Option.some_ne_none label)

/-- Of all calls for the unknown location that succeed the first one introduces it. -/
theorem exists_first (hu : w.unknown = none) (calls : List TrapCall) {x : TrapMoment}
    (hx : x ∈ w.history calls) (hc : x.call = .unknownLocation) {label : Label}
    (ha : x.answer = .label label) :
    ∃ pre m post, w.history calls = pre ++ m :: post ∧ m.call = .unknownLocation ∧
      m.answer = .label label ∧ m.takes = some label ∧ m.Defines label ∧
      (∀ y ∈ pre, y.call = .unknownLocation → ∀ l, y.answer ≠ .label l) ∧
      (∀ y ∈ post, y.call = .unknownLocation → ∀ l, y.answer = .label l → l = label) := by
  induction calls generalizing w with
  | nil => simp [history] at hx
  | cons call rest ih =>
    let m : TrapMoment := ⟨w, call⟩
    have hh : w.history (call :: rest) = m :: m.after.history rest := rfl
    rw [hh] at hx ⊢
    rcases m.unknown_after with ⟨hk, hf⟩ | ⟨l, -, hk, hm, hl, ht, hd⟩
    · -- the call does not tell the unknown location, which stays unknown
      have hf' : m.call = .unknownLocation → ∀ l, m.answer ≠ .label l :=
        fun h l hl => absurd ((hf h l hl).symm.trans hu) (Option.some_ne_none l)
      have hx' : x ∈ m.after.history rest := by
        rcases List.mem_cons.mp hx with rfl | hx
        · exact absurd ha (hf' hc label)
        · exact hx
      obtain ⟨pre, y, post, he, hy, hya, hyt, hyd, hpre, hpost⟩ := ih (hk.trans hu) hx'
      refine ⟨m :: pre, y, post, by rw [he]; rfl, hy, hya, hyt, hyd, ?_, hpost⟩
      exact List.forall_mem_cons.mpr ⟨hf', hpre⟩
    · have hpost := answer_of_known hk rest
      obtain rfl : label = l := by
        rcases List.mem_cons.mp hx with rfl | hx
        · exact TrapAnswer.label.inj (ha.symm.trans hl)
        · exact hpost x hx hc label ha
      exact ⟨[], m, m.after.history rest, rfl, hm, hl, ht, hd, by simp, hpost⟩

/-- The calls after a given one are calls on the writer that it leaves behind. -/
theorem exists_rest {calls : List TrapCall} {pre post : List TrapMoment} {m : TrapMoment}
    (h : w.history calls = pre ++ m :: post) : ∃ rest, post = m.after.history rest := by
  induction calls generalizing w pre with
  | nil => simp [history] at h
  | cons call rest ih =>
    cases pre with
    | nil =>
      obtain ⟨rfl, rfl⟩ := List.cons.inj h
      exact ⟨rest, rfl⟩
    | cons first pre => exact ih (List.cons.inj h).2

theorem defined_history {label : Label} (h : w.Defined label) (calls : List TrapCall) :
    ∀ m ∈ w.history calls, m.before.Defined label := by
  induction calls generalizing w with
  | nil => simp [history]
  | cons call rest ih =>
    intro m hm
    rcases List.mem_cons.mp hm with rfl | hm
    · exact h
    · exact ih (TrapMoment.defined_after (m := ⟨w, call⟩) h) m hm

theorem exists_introduces (hu : w.unknown = none) (calls : List TrapCall) {x : TrapMoment}
    (hx : x ∈ w.history calls) (hc : x.call = .unknownLocation) {label : Label}
    (ha : x.answer = .label label) :
    ∃ pre m post, w.history calls = pre ++ m :: post ∧ m.Introduces label pre post := by
  obtain ⟨pre, m, post, he, hm, hl, ht, hd, hpre, hpost⟩ := exists_first hu calls hx hc ha
  refine ⟨pre, m, post, he, hm, hl, ht, hd, hpre, hpost, ?_, ?_⟩
  · have hp := w.takes_increasing calls
    rw [he] at hp
    exact fun y hy hyd => Label.taken_once hp ht y hy (TrapMoment.takes_of_defines hyd)
  · obtain ⟨rest, hr⟩ := exists_rest he
    rw [hr]
    exact defined_history hd.defined rest

/-- The labels that calls on a writer take and tell. What is taken is the next label of the writer,
and nothing else moves it on. A call that tells a label tells the one that it takes, or the one that
introduces the unknown location. -/
structure Labelled (history : List TrapMoment) : Prop where
  counted : ∀ m ∈ history, m.after.lastLabel = m.before.lastLabel + m.takes.toList.length
  next : ∀ m ∈ history, ∀ label, m.takes = some label → label = m.before.freshLabel.1
  increasing : (history.filterMap TrapMoment.takes).Pairwise
    fun label label' => label.number < label'.number
  taken : ∀ m ∈ history, m.call ≠ .unknownLocation →
    ∀ label, m.answer = .label label → m.takes = some label
  introduced : ∀ m ∈ history, m.call = .unknownLocation → ∀ label, m.answer = .label label →
    ∃ pre x post, history = pre ++ x :: post ∧ x.Introduces label pre post

theorem labelled (hu : w.unknown = none) (calls : List TrapCall) : Labelled (w.history calls) where
  counted m _ := m.moved.lastLabel
  next _ _ _ ht := TrapMoment.eq_freshLabel_of_takes ht
  increasing := w.takes_increasing calls
  taken _ _ hc _ ha := TrapMoment.takes_of_answer hc ha
  introduced _ hm hc _ ha := exists_introduces hu calls hm hc ha

end TrapWriter

end DiagnosticLog
