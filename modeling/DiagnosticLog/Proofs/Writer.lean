import DiagnosticLog.Trap.Calls

/-! The calls of a trap writer as equations: a call is counted, and then it is refused or reaches
the store. -/

namespace DiagnosticLog.TrapWriter

/-- The writer once a call was made on it. -/
def tried (w : TrapWriter) (call : RefusableCall) : TrapWriter :=
  { w with attempts := w.attempts.add call }

variable (w : TrapWriter)

@[simp] theorem store_tried (call : RefusableCall) : (w.tried call).store = w.store := rfl
@[simp] theorem lastLabel_tried (call : RefusableCall) :
    (w.tried call).lastLabel = w.lastLabel := rfl
@[simp] theorem unknown_tried (call : RefusableCall) : (w.tried call).unknown = w.unknown := rfl
@[simp] theorem refuses_tried (call : RefusableCall) : (w.tried call).refuses = w.refuses := rfl
@[simp] theorem attempts_tried (call : RefusableCall) :
    (w.tried call).attempts = w.attempts.add call := rfl
@[simp] theorem records_tried (call : RefusableCall) : (w.tried call).records = w.records := rfl

theorem attempt_eq (call : RefusableCall) :
    w.attempt call =
      (if w.refuses call (w.attempts.of call) then .error (.refused call) else .ok (),
        w.tried call) := rfl

theorem write_eq (call : RefusableCall) (record : TrapRecord) :
    w.write call record =
      if w.refuses call (w.attempts.of call) then (.error (.refused call), w.tried call)
      else (w.tried call).put record := by
  simp only [write, attempt_eq]
  by_cases h : w.refuses call (w.attempts.of call) = true
  · simp [h]
  · simp [h]

theorem unknownLocation_eq :
    w.unknownLocation =
      if w.refuses .unknownLocation w.attempts.unknownLocation then
        (.error (.refused .unknownLocation), w.tried .unknownLocation)
      else match w.unknown with
        | some label => (.ok label, w.tried .unknownLocation)
        | none => (w.tried .unknownLocation).storeUnknown := by
  simp only [unknownLocation, attempt_eq, TrapAttempts.of]
  by_cases h : w.refuses .unknownLocation w.attempts.unknownLocation = true
  · simp [h]
  · cases held : w.unknown with
    | some label => simp [h, held]
    | none => simp [h, held]

theorem flush_eq :
    w.flush =
      if w.refuses .flush (w.attempts.of .flush) then (.error (.refused .flush), w.tried .flush)
      else (w.tried .flush).flushStore := by
  simp only [flush, attempt_eq]
  by_cases h : w.refuses .flush (w.attempts.of .flush) = true
  · simp [h]
  · simp [h]

/-! ### What storing leaves alone -/

/-- Putting text or a record somewhere changes nothing but the place where it goes. -/
structure SameButStore (w w' : TrapWriter) : Prop where
  lastLabel : w'.lastLabel = w.lastLabel
  unknown : w'.unknown = w.unknown
  refuses : w'.refuses = w.refuses
  attempts : w'.attempts = w.attempts

theorem sameButStore_putText (text : String) : w.SameButStore (w.putText text).2 := by
  unfold putText
  split <;> exact ⟨rfl, rfl, rfl, rfl⟩

theorem sameButStore_put (record : TrapRecord) : w.SameButStore (w.put record).2 := by
  unfold put
  split
  · exact ⟨rfl, rfl, rfl, rfl⟩
  · exact w.sameButStore_putText _

/-- A stored record is one more attempt and takes no label, refused or not. -/
theorem sameButStore_write (call : RefusableCall) (record : TrapRecord) :
    (w.tried call).SameButStore (w.write call record).2 := by
  rw [write_eq]
  split
  · exact ⟨rfl, rfl, rfl, rfl⟩
  · exact (w.tried call).sameButStore_put record

/-- A flush is one more attempt, refused or not. -/
theorem sameButStore_flush : (w.tried .flush).SameButStore w.flush.2 := by
  rw [flush_eq]
  split
  · exact ⟨rfl, rfl, rfl, rfl⟩
  · unfold flushStore
    split <;> exact ⟨rfl, rfl, rfl, rfl⟩

/-- Storing the unknown location is putting its record under a fresh label. -/
theorem storeUnknown_snd :
    ∃ unknown, w.storeUnknown.2 =
      { (w.freshLabel.2.put (.unknownLocation w.freshLabel.1)).2 with unknown } := by
  simp only [storeUnknown]
  generalize w.freshLabel.2.put (.unknownLocation w.freshLabel.1) = stored
  obtain ⟨_ | _, w'⟩ := stored
  · exact ⟨w'.unknown, rfl⟩
  · exact ⟨some w.freshLabel.1, rfl⟩

/-- A search for the unknown location is one attempt, whatever comes of it. -/
theorem attempts_unknownLocation :
    w.unknownLocation.2.attempts = w.attempts.add .unknownLocation := by
  rw [unknownLocation_eq]
  split
  · rfl
  · split
    · rfl
    · obtain ⟨unknown, h⟩ := (w.tried .unknownLocation).storeUnknown_snd
      rw [h]
      exact (sameButStore_put ..).attempts

theorem refuses_unknownLocation : w.unknownLocation.2.refuses = w.refuses := by
  rw [unknownLocation_eq]
  split
  · rfl
  · split
    · rfl
    · obtain ⟨unknown, h⟩ := (w.tried .unknownLocation).storeUnknown_snd
      rw [h]
      exact (sameButStore_put ..).refuses

/-! ### Records -/

/-- Whether the records are kept as they are. -/
def keeps (w : TrapWriter) : Bool :=
  match w.store with
  | .records .. => true
  | .text _ => false

theorem store_of_keeps {w : TrapWriter} (h : w.keeps = true) :
    ∃ kept flushes, w.store = .records kept flushes := by
  unfold keeps at h
  split at h
  next kept flushes hs => exact ⟨kept, flushes, hs⟩
  · contradiction

@[simp] theorem keeps_tried (call : RefusableCall) : (w.tried call).keeps = w.keeps := rfl

@[simp] theorem keeps_freshLabel : w.freshLabel.2.keeps = w.keeps := rfl

@[simp] theorem records_freshLabel : w.freshLabel.2.records = w.records := rfl

@[simp] theorem keeps_putText (text : String) : (w.putText text).2.keeps = w.keeps := by
  unfold putText
  split <;> simp [keeps, *]

@[simp] theorem keeps_put (record : TrapRecord) : (w.put record).2.keeps = w.keeps := by
  unfold put
  split
  · simp [keeps, *]
  · exact w.keeps_putText _

@[simp] theorem records_putText (text : String) : (w.putText text).2.records = w.records := by
  unfold putText
  split <;> simp [records, *]

/-- A record that is put comes after those that are kept already. -/
theorem records_put (record : TrapRecord) :
    (w.put record).2.records = w.records ++ if w.keeps then [record] else [] := by
  unfold put putText
  split <;> simp [records, keeps, *]

@[simp] theorem keeps_write (call : RefusableCall) (record : TrapRecord) :
    (w.write call record).2.keeps = w.keeps := by
  rw [write_eq]
  split <;> simp

/-- Records that are kept as they are can always be put. -/
theorem result_put (h : w.keeps = true) (record : TrapRecord) : (w.put record).1 = .ok () := by
  obtain ⟨kept, flushes, hs⟩ := store_of_keeps h
  simp only [put, hs]

/-- A refused record is not kept. -/
theorem records_write (call : RefusableCall) (record : TrapRecord) :
    (w.write call record).2.records =
      w.records ++ if w.keeps ∧ (w.write call record).1 = .ok () then [record] else [] := by
  rw [write_eq]
  split
  · simp
  · rw [records_put, keeps_tried, records_tried]
    by_cases h : w.keeps = true
    · have hp := (w.tried call).result_put h record
      simp [h, hp]
    · simp [h]

/-- Where records are kept, a call is refused by the writer or stores its record. -/
theorem result_write_of_keeps (h : w.keeps = true) (call : RefusableCall) (record : TrapRecord) :
    (w.write call record).1 = .ok () ↔ w.refuses call (w.attempts.of call) = false := by
  rw [write_eq]
  have hp := (w.tried call).result_put h record
  cases w.refuses call (w.attempts.of call) <;> simp [hp]

/-- Storing the unknown location adds a record of it, or none. -/
theorem records_storeUnknown :
    ∃ labels : List Label,
      w.storeUnknown.2.records = w.records ++ labels.map .unknownLocation := by
  obtain ⟨unknown, h⟩ := w.storeUnknown_snd
  have hp := w.freshLabel.2.records_put (.unknownLocation w.freshLabel.1)
  rw [h]
  by_cases hk : w.keeps = true
  · exact ⟨[w.freshLabel.1], hp.trans (by simp [hk])⟩
  · exact ⟨[], hp.trans (by simp [hk])⟩

@[simp] theorem keeps_storeUnknown : w.storeUnknown.2.keeps = w.keeps := by
  obtain ⟨unknown, h⟩ := w.storeUnknown_snd
  rw [h]
  exact w.freshLabel.2.keeps_put _

theorem records_unknownLocation :
    ∃ labels : List Label,
      w.unknownLocation.2.records = w.records ++ labels.map .unknownLocation := by
  rw [unknownLocation_eq]
  split
  · exact ⟨[], by simp⟩
  · split
    · exact ⟨[], by simp⟩
    · exact (w.tried .unknownLocation).records_storeUnknown

@[simp] theorem keeps_unknownLocation : w.unknownLocation.2.keeps = w.keeps := by
  rw [unknownLocation_eq]
  split
  · rfl
  · split
    · rfl
    · exact (w.tried .unknownLocation).keeps_storeUnknown

/-- A flush reaches the place where the records go, or not; the records stay. -/
theorem records_flush : w.flush.2.records = w.records ∧ w.flush.2.keeps = w.keeps := by
  rw [flush_eq]
  split
  · exact ⟨rfl, rfl⟩
  · unfold flushStore
    split <;> simp_all [records, keeps]

/-! ### Calls one after the other -/

/-- A label for a key is said in text only. -/
theorem records_keyedLabel (key : String) :
    (w.keyedLabel key).2.records = w.records ∧ (w.keyedLabel key).2.keeps = w.keeps := by
  have hp := w.freshLabel.2.records_putText (Statement.keyed w.freshLabel.1 key).text
  have hk := w.freshLabel.2.keeps_putText (Statement.keyed w.freshLabel.1 key).text
  simp only [keyedLabel]
  generalize w.freshLabel.2.putText _ = stored at hp hk ⊢
  obtain ⟨_ | _, w'⟩ := stored
  · exact ⟨hp, hk⟩
  · exact ⟨hp, hk⟩

theorem records_grow (bytes : Nat) :
    (w.grow bytes).2.records = w.records ∧ (w.grow bytes).2.keeps = w.keeps := by
  unfold grow
  split <;> simp [records, keeps, *]

/-- Whatever is called, records are only added. -/
theorem records_perform (call : TrapCall) :
    (∃ added, (w.perform call).2.records = w.records ++ added) ∧
      (w.perform call).2.keeps = w.keeps := by
  cases call with
  | freshLabel => exact ⟨⟨[], by simp [perform]⟩, w.keeps_freshLabel⟩
  | unknownLocation =>
    obtain ⟨labels, h⟩ := w.records_unknownLocation
    exact ⟨⟨_, h⟩, w.keeps_unknownLocation⟩
  | keyedLabel key => exact ⟨⟨[], by simpa [perform] using (w.records_keyedLabel key).1⟩,
      (w.records_keyedLabel key).2⟩
  | diagnostic row => exact ⟨⟨_, w.records_write ..⟩, w.keeps_write ..⟩
  | association row => exact ⟨⟨_, w.records_write ..⟩, w.keeps_write ..⟩
  | comment text => exact ⟨⟨_, w.records_write ..⟩, w.keeps_write ..⟩
  | flush => exact ⟨⟨[], by simpa [perform] using w.records_flush.1⟩, w.records_flush.2⟩
  | grow bytes => exact ⟨⟨[], by simpa [perform] using (w.records_grow bytes).1⟩,
      (w.records_grow bytes).2⟩

@[simp] theorem run_nil : w.run [] = ([], w) := rfl

@[simp] theorem run_cons (call : TrapCall) (rest : List TrapCall) :
    w.run (call :: rest) =
      ((w.perform call).1 :: ((w.perform call).2.run rest).1, ((w.perform call).2.run rest).2) :=
  inTurn_cons ..

theorem records_run (calls : List TrapCall) :
    (∃ added, (w.run calls).2.records = w.records ++ added) ∧
      (w.run calls).2.keeps = w.keeps := by
  induction calls generalizing w with
  | nil => exact ⟨⟨[], by simp⟩, rfl⟩
  | cons call rest ih =>
    obtain ⟨⟨added, h⟩, hk⟩ := w.records_perform call
    obtain ⟨⟨more, h'⟩, hk'⟩ := ih (w.perform call).2
    rw [run_cons]
    refine ⟨⟨added ++ more, ?_⟩, hk'.trans hk⟩
    rw [h', h, List.append_assoc]

end DiagnosticLog.TrapWriter
