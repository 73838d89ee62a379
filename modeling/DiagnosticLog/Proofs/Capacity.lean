import DiagnosticLog.Proofs.Labels
import DiagnosticLog.Proofs.Printers

/-! Trap writers whose sink has room for so many bytes in all. Every call obeys the bound: it writes
its text, or as much of it as there is room for and then fails; and a writer that is full fails in
all calls that have text to write. -/

namespace DiagnosticLog

/-! ### Sinks -/

namespace ByteSink

variable {s : ByteSink} {c : Nat}

/-- The same sink with room for so many bytes in all. -/
def capped (s : ByteSink) (c : Nat) : ByteSink := { s with capacity := some c }

theorem fitting_capped (s : ByteSink) (c : Nat) (bytes : List UInt8) :
    (s.capped c).fitting bytes = bytes.take (c - s.contents.length) := by
  have hsize : s.contents.length = s.taken.size := s.taken.length_toList
  rw [hsize]
  rfl

/-- A sink that refuses no write takes what fits. -/
theorem write_eq_fitting (h : ∀ n, s.refusesWrite n = false) {bytes : List UInt8}
    (hb : bytes ≠ []) :
    s.write bytes =
      (if (s.fitting bytes).length < bytes.length then .error .diskFull else .ok (),
        { s with writes := s.writes + 1, taken := s.taken.append (s.fitting bytes) }) := by
  simp [write, hb, h]

theorem write_capped_of_le (h : s.Unfailing) {bytes : List UInt8}
    (hc : (s.contents ++ bytes).length ≤ c) :
    (s.capped c).write bytes = ((s.write bytes).1, (s.write bytes).2.capped c) := by
  rw [List.length_append] at hc
  have hf : (s.capped c).fitting bytes = bytes := by
    rw [fitting_capped, List.take_of_length_le (by omega)]
  have hf' : s.fitting bytes = bytes := by rw [fitting, h.unbounded]
  by_cases hb : bytes = []
  · simp [write, hb]
  · rw [write_eq_fitting h.takes hb, write_eq_fitting (s := s.capped c) h.takes hb, hf, hf']
    rfl

theorem write_capped_of_lt (h : s.Unfailing) (hs : s.contents.length ≤ c) {bytes : List UInt8}
    (hc : c < (s.contents ++ bytes).length) :
    ((s.capped c).write bytes).1 = .error .diskFull ∧
      ((s.capped c).write bytes).2.contents = (s.contents ++ bytes).take c := by
  rw [List.length_append] at hc
  have hb : bytes ≠ [] := by
    rintro rfl
    exact absurd hs (Nat.not_le_of_lt hc)
  have hf := s.fitting_capped c bytes
  have hlt : ((s.capped c).fitting bytes).length < bytes.length := by
    rw [hf, List.length_take]
    omega
  rw [write_eq_fitting (s := s.capped c) h.takes hb, if_pos hlt]
  refine ⟨rfl, ?_⟩
  rw [List.take_append, List.take_of_length_le hs, ← hf]
  exact Journal.toList_append ..

/-- A sink that is full takes nothing, and refuses to write anything. -/
theorem write_full (h : s.capacity = some s.contents.length) (bytes : List UInt8) :
    (s.write bytes).2.contents = s.contents ∧
      (bytes ≠ [] → ∃ cause, (s.write bytes).1 = .error cause) := by
  have hsize : s.contents.length = s.taken.size := s.taken.length_toList
  have hf : s.fitting bytes = [] := by
    simp [fitting, h, hsize]
  unfold write
  by_cases hb : bytes = []
  · simp [hb]
  · rw [if_neg hb]
    dsimp only
    split
    · exact ⟨rfl, fun _ => ⟨_, rfl⟩⟩
    · have hlt : ([] : List UInt8).length < bytes.length := List.length_pos_iff.mpr hb
      rw [hf, if_pos hlt]
      exact ⟨by simp [contents], fun _ => ⟨_, rfl⟩⟩

end ByteSink

/-! ### Writers -/

/-- There is always something to say of a record. -/
theorem TrapRecord.text_ne_empty (record : TrapRecord) : record.text ≠ "" := by
  intro h
  have hl := congrArg String.length h
  cases record <;>
    simp [TrapRecord.text, Statement.ofRecord, Statement.textAll, Statement.text] at hl

/-- The same store with room for so many bytes of text in all. -/
def TrapStore.capped (c : Nat) : TrapStore → TrapStore
  | .records kept flushes => .records kept flushes
  | .text sink => .text (sink.capped c)

namespace TrapWriter

/-- The same writer with room for so many bytes of text in all. -/
def capped (c : Nat) (w : TrapWriter) : TrapWriter := { w with store := w.store.capped c }

/-- A writer of text over a sink that takes all that is written to it. -/
def Free (w : TrapWriter) : Prop := ∃ sink, w.store = .text sink ∧ sink.Unfailing

/-- A writer of text over a sink that has taken as many bytes as it had room for. -/
def Full (c : Nat) (w : TrapWriter) : Prop :=
  ∃ sink, w.store = .text sink ∧ sink.capacity = some c ∧ sink.contents.length = c

def printer : Printer TrapWriter where
  bytes := bytes
  capped := capped
  Free := Free
  Full := Full
  bytes_capped c w := by
    cases h : w.store <;> simp [bytes, capped, h] <;> rfl

@[simp] theorem printer_bytes (w : TrapWriter) : printer.bytes w = w.bytes := rfl

/-- A deed that fails with the disk full where it is cut off. -/
abbrev Obeys {α : Type} (c : Nat) (deed : TrapWriter → Except Failure α × TrapWriter) : Prop :=
  printer.Obeys c (fun result => result = .error .diskFull) deed

variable {w : TrapWriter} {c : Nat}

/-- What leaves the store alone does not look at its bound. -/
theorem obeys_same {α : Type} {fails : α → Prop} {k : TrapWriter → TrapWriter} (answer : α)
    (hs : ∀ w, (k w).store = w.store) (hc : ∀ w : TrapWriter, k (w.capped c) = (k w).capped c) :
    printer.Obeys c fails fun w => (answer, k w) :=
  .silent answer (fun w => by simp only [printer, bytes, hs]) hc
    (fun w ⟨sink, h, hsink⟩ => ⟨sink, (hs w).trans h, hsink⟩)
    fun w ⟨sink, h, hsink⟩ => ⟨sink, (hs w).trans h, hsink⟩

theorem putText_of_text {sink : ByteSink} (h : w.store = .text sink) (text : String) :
    w.putText text = ((sink.write (Utf8.encode text)).1,
      { w with store := .text (sink.write (Utf8.encode text)).2 }) := by
  simp only [putText, h]

/-- Text that is put obeys the bound of its sink. -/
theorem obeys_putText (text : String) : Obeys c fun w => w.putText text where
  grows w := by
    obtain ⟨piece, -, hb, -⟩ := (w.says_putText text).bytes
    exact ⟨piece, hb.symm⟩
  free := by
    rintro w ⟨sink, h, hsink⟩
    rw [putText_of_text h]
    exact ⟨_, rfl, hsink.write _⟩
  cut := by
    rintro w ⟨sink, h, hsink⟩ hc
    have hb : w.bytes = sink.contents := by simp [bytes, h]
    have hall := ByteSink.contents_write hsink.unbounded (Utf8.encode text)
    rw [if_pos (hsink.result_write _)] at hall
    have hcapped : (w.capped c).store = .text (sink.capped c) := congrArg (TrapStore.capped c) h
    have hlen := congrArg List.length hall
    have hroom : sink.contents.length ≤ c := hb ▸ hc
    rw [putText_of_text h, printer, putText_of_text hcapped]
    by_cases hfit : (sink.contents ++ Utf8.encode text).length ≤ c
    · refine .fits (Nat.le_trans (Nat.le_of_eq hlen) hfit) ?_
      rw [ByteSink.write_capped_of_le hsink hfit]
      rfl
    · have hlt := Nat.lt_of_not_le hfit
      obtain ⟨hfail, htake⟩ := ByteSink.write_capped_of_lt hsink hroom hlt
      refine .passes ⟨Nat.lt_of_lt_of_eq hlt hlen.symm, ⟨_, rfl, ?_, ?_⟩, ?_⟩ hfail
      · rw [ByteSink.capacity_write]
        rfl
      · rw [htake, List.length_take]
        omega
      · exact htake.trans (congrArg (List.take c) hall.symm)
  full := by
    rintro w ⟨sink, h, hcap, hlen⟩
    have hsame := (ByteSink.write_full (hlen.symm ▸ hcap) (Utf8.encode text)).1
    rw [putText_of_text h]
    refine ⟨⟨_, rfl, ?_, ?_⟩, ?_⟩
    · rw [ByteSink.capacity_write, hcap]
    · rw [hsame, hlen]
    · simpa [printer, bytes, h] using hsame

/-- Text cannot be put where it is full. -/
theorem fails_putText (h : w.Full c) (text : String) (ht : text ≠ "") :
    ∃ cause, (w.putText text).1 = .error cause := by
  obtain ⟨sink, hs, hcap, hlen⟩ := h
  rw [putText_of_text hs]
  refine (ByteSink.write_full (hlen.symm ▸ hcap) _).2 fun he => ht ?_
  rw [← Utf8.decode_encode text, he]
  rfl

theorem put_of_text {sink : ByteSink} (h : w.store = .text sink) (record : TrapRecord) :
    w.put record = w.putText record.text := by
  simp only [put, h]

theorem obeys_put (record : TrapRecord) : Obeys c fun w => w.put record where
  grows w := by
    obtain ⟨piece, -, hb, -⟩ := (w.says_put record).bytes
    exact ⟨piece, hb.symm⟩
  free := by
    rintro w ⟨sink, h, hsink⟩
    rw [put_of_text h]
    exact (obeys_putText record.text (c := c)).free ⟨sink, h, hsink⟩
  cut := by
    rintro w ⟨sink, h, hsink⟩ hc
    have hcapped : (w.capped c).store = .text (sink.capped c) := congrArg (TrapStore.capped c) h
    rw [put_of_text h, printer, put_of_text hcapped]
    exact (obeys_putText record.text).cut ⟨sink, h, hsink⟩ hc
  full := by
    rintro w ⟨sink, h, hfull⟩
    rw [put_of_text h]
    exact (obeys_putText record.text).full ⟨sink, h, hfull⟩

/-- A record cannot be stored where it is full. -/
theorem fails_put (h : w.Full c) (record : TrapRecord) :
    ∃ cause, (w.put record).1 = .error cause := by
  have hf := fails_putText h record.text record.text_ne_empty
  obtain ⟨sink, hs, -⟩ := h
  rw [put_of_text hs]
  exact hf

theorem obeys_tried (call : RefusableCall) :
    printer.Obeys c (fun _ => False) fun w => ((), w.tried call) :=
  obeys_same () (fun _ => rfl) fun _ => rfl

theorem obeys_freshLabel : printer.Obeys c (fun _ => False) fun w => ((), w.freshLabel.2) :=
  obeys_same () (fun _ => rfl) fun _ => rfl

/-- A call that is counted and then refused, or made. -/
theorem obeys_refusable {α : Type} (call : RefusableCall)
    {made : TrapWriter → Except Failure α × TrapWriter} (h : Obeys c made) :
    Obeys c fun w => if w.refuses call (w.attempts.of call) then
      (.error (.refused call), w.tried call) else made (w.tried call) := by
  let deed : Bool → TrapWriter → Except Failure α × TrapWriter := fun refused w =>
    if refused then (.error (.refused call), w.tried call) else made (w.tried call)
  refine .read deed (fun w => w.refuses call (w.attempts.of call)) (fun _ => rfl) ?_
  rintro (_ | _)
  · exact (obeys_tried call).after h
  · exact obeys_same _ (fun _ => rfl) fun _ => rfl

theorem obeys_write (call : RefusableCall) (record : TrapRecord) :
    Obeys c fun w => w.write call record := by
  simp only [write_eq]
  exact obeys_refusable call (obeys_put record)

theorem fails_write (h : w.Full c) (call : RefusableCall) (record : TrapRecord) :
    ∃ cause, (w.write call record).1 = .error cause := by
  rw [write_eq]
  split
  · exact ⟨_, rfl⟩
  · exact fails_put (w := w.tried call) h record

/-- A label that is handed out with the record or the text that introduces it. -/
theorem obeys_introduce (put : Label → TrapWriter → Except Failure Unit × TrapWriter)
    (hput : ∀ label, Obeys c (put label)) (k : Label → TrapWriter → TrapWriter)
    (hs : ∀ label w, (k label w).store = w.store)
    (hc : ∀ label w, k label (w.capped c) = (k label w).capped c) :
    Obeys c fun w => Printer.proceed .error
      (fun _ w' => (.ok w.freshLabel.1, k w.freshLabel.1 w'))
      (put w.freshLabel.1 w.freshLabel.2).1 (put w.freshLabel.1 w.freshLabel.2).2 := by
  let deed : Label → TrapWriter → Except Failure Label × TrapWriter := fun label w =>
    Printer.proceed .error (fun _ w' => (.ok label, k label w')) (put label w.freshLabel.2).1
      (put label w.freshLabel.2).2
  refine .read deed (fun w => w.freshLabel.1) (fun _ => rfl) fun label => ?_
  refine obeys_freshLabel.after ((hput label).proceed (fun _ => ?_) ?_ ?_)
  · exact obeys_same _ (hs label) (hc label)
  · rintro cause ⟨⟩
    rfl
  · rintro a s ⟨⟩

theorem obeys_storeUnknown : Obeys c storeUnknown := by
  have hs : storeUnknown = fun w => Printer.proceed .error
      (fun _ w' => (.ok w.freshLabel.1, { w' with unknown := some w.freshLabel.1 }))
      (w.freshLabel.2.put (.unknownLocation w.freshLabel.1)).1
      (w.freshLabel.2.put (.unknownLocation w.freshLabel.1)).2 := by
    funext w
    rcases w.storeUnknown_cases with ⟨cause, hc, h⟩ | ⟨hok, h⟩
    · rw [h, hc]
      rfl
    · rw [h, hok]
      rfl
  rw [hs]
  exact obeys_introduce (fun label w => w.put (.unknownLocation label)) (fun _ => obeys_put _)
    (fun label w => { w with unknown := some label }) (fun _ _ => rfl) fun _ _ => rfl

theorem obeys_unknownLocation : Obeys c unknownLocation := by
  let search : Option Label → TrapWriter → Except Failure Label × TrapWriter := fun known w =>
    known.elim w.storeUnknown fun label => (.ok label, w)
  have hsearch : ∀ known, Obeys c (search known) := by
    rintro (_ | label)
    · exact obeys_storeUnknown
    · exact .idle _
  have hw : unknownLocation = fun w =>
      if w.refuses .unknownLocation (w.attempts.of .unknownLocation) then
        (.error (.refused .unknownLocation), w.tried .unknownLocation)
      else search (w.tried .unknownLocation).unknown (w.tried .unknownLocation) := by
    funext w
    rw [unknownLocation_eq]
    cases hu : w.unknown <;> simp [search, hu, TrapAttempts.of]
  rw [hw]
  exact obeys_refusable .unknownLocation (.read search unknown (fun _ => rfl) hsearch)

theorem keyedLabel_eq (w : TrapWriter) (key : String) :
    w.keyedLabel key = Printer.proceed .error (fun _ w' => (.ok w.freshLabel.1, w'))
      (w.freshLabel.2.putText (Statement.keyed w.freshLabel.1 key).text).1
      (w.freshLabel.2.putText (Statement.keyed w.freshLabel.1 key).text).2 := by
  simp only [keyedLabel]
  generalize w.freshLabel.2.putText _ = stored
  obtain ⟨_ | _, w'⟩ := stored <;> rfl

theorem obeys_keyedLabel (key : String) : Obeys c fun w => w.keyedLabel key := by
  simp only [keyedLabel_eq]
  exact obeys_introduce (fun label w => w.putText (Statement.keyed label key).text)
    (fun _ => obeys_putText _) (fun _ w => w) (fun _ _ => rfl) fun _ _ => rfl

theorem flushStore_of_text {sink : ByteSink} (h : w.store = .text sink) :
    w.flushStore = (sink.flush.1, { w with store := .text sink.flush.2 }) := by
  simp only [flushStore, h]

theorem obeys_flushStore : Obeys c flushStore where
  grows w := Printer.prefix_of_eq w.bytes_flushStore
  free := by
    rintro w ⟨sink, h, hsink⟩
    rw [flushStore_of_text h]
    exact ⟨_, rfl, hsink.flush⟩
  cut := by
    rintro w ⟨sink, h, hsink⟩ hc
    have hb : w.bytes = sink.contents := by simp [bytes, h]
    have hcapped : (w.capped c).store = .text (sink.capped c) := congrArg (TrapStore.capped c) h
    rw [flushStore_of_text h, printer, flushStore_of_text hcapped]
    have hroom : sink.contents.length ≤ c := hb ▸ hc
    exact .fits hroom rfl
  full := by
    rintro w ⟨sink, h, hfull⟩
    rw [flushStore_of_text h]
    exact ⟨⟨_, rfl, hfull⟩, by simp [printer, bytes, h, ByteSink.flush, ByteSink.contents]⟩

theorem obeys_flush : Obeys c flush := by
  rw [funext flush_eq]
  exact obeys_refusable .flush obeys_flushStore

end TrapWriter

/-- Whether a call leaves the room in the sink as it is. -/
def TrapCall.growsNone : TrapCall → Bool
  | .grow _ => false
  | _ => true

namespace TrapWriter

variable {w : TrapWriter} {c : Nat}

/-- Every call obeys the bound of its writer. -/
theorem obeys_perform {call : TrapCall} (h : call.growsNone = true) :
    printer.Obeys c (fun answer => answer = .failed .diskFull) fun w => w.perform call := by
  have hunit : ∀ {deed : TrapWriter → Except Failure Unit × TrapWriter}, Obeys c deed →
      printer.Obeys c (fun answer => answer = .failed .diskFull) fun w =>
        (deed w).map TrapAnswer.ofUnit id := by
    intro deed hd
    refine hd.map TrapAnswer.ofUnit ?_
    rintro _ rfl
    rfl
  have hlabel : ∀ {deed : TrapWriter → Except Failure Label × TrapWriter}, Obeys c deed →
      printer.Obeys c (fun answer => answer = .failed .diskFull) fun w =>
        (deed w).map TrapAnswer.ofLabel id := by
    intro deed hd
    refine hd.map TrapAnswer.ofLabel ?_
    rintro _ rfl
    rfl
  cases call with
  | freshLabel =>
    let deed : Label → TrapWriter → TrapAnswer × TrapWriter := fun label w =>
      (.label label, w.freshLabel.2)
    exact .read deed (fun w => w.freshLabel.1) (fun _ => rfl) fun _ =>
      obeys_same _ (fun _ => rfl) fun _ => rfl
  | unknownLocation => exact hlabel obeys_unknownLocation
  | keyedLabel key => exact hlabel (obeys_keyedLabel key)
  | diagnostic row => exact hunit (obeys_write .diagnostic (.diagnostic row))
  | association row => exact hunit (obeys_write .association (.association row))
  | comment text => exact hunit (obeys_write .comment (.comment text))
  | flush => exact hunit obeys_flush
  | grow bytes => contradiction

/-- A call that has something to say fails where it is full. -/
theorem fails_perform (h : w.Full c) (call : TrapCall) :
    let m : TrapMoment := ⟨w, call⟩
    m.text ≠ "" → ∃ cause, m.answer = .failed cause := by
  intro m ht
  have hunit : ∀ kind record, ∃ cause,
      TrapAnswer.ofUnit (w.write kind record).1 = .failed cause := by
    intro kind record
    obtain ⟨cause, hc⟩ := fails_write h kind record
    exact ⟨cause, congrArg TrapAnswer.ofUnit hc⟩
  cases call with
  | unknownLocation =>
    have ha : m.answer = .ofLabel w.unknownLocation.1 := rfl
    rcases w.unknownLocation_cases with ⟨hr, he⟩ | ⟨hr, label, hu, he⟩ | ⟨hr, hu, he⟩
    · rw [ha, he]
      exact ⟨_, rfl⟩
    · have hnone : m.takes = none := TrapMoment.takes_of_known hu
      exact absurd (by simp [m, TrapMoment.text, TrapMoment.record?, hnone]) ht
    · obtain ⟨cause, hc⟩ := fails_put (w := (w.tried .unknownLocation).freshLabel.2) h
        (.unknownLocation (w.tried .unknownLocation).freshLabel.1)
      rcases (w.tried .unknownLocation).storeUnknown_cases with ⟨cause', _, hs⟩ | ⟨hok, _⟩
      · rw [ha, he, hs]
        exact ⟨_, rfl⟩
      · rw [hc] at hok
        contradiction
  | keyedLabel key =>
    obtain ⟨cause, hc⟩ := fails_putText (w := w.freshLabel.2) h
      (Statement.keyed w.freshLabel.1 key).text ht
    have ha : m.answer = .ofLabel (w.keyedLabel key).1 := rfl
    rw [ha, keyedLabel_eq, hc]
    exact ⟨cause, rfl⟩
  | diagnostic row => exact hunit ..
  | association row => exact hunit ..
  | comment text => exact hunit ..
  | freshLabel | flush | grow bytes => exact absurd rfl ht

end TrapWriter

end DiagnosticLog
