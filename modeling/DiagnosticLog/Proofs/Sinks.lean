import DiagnosticLog.LogStream

/-! Bytes are added at the end of a sink or a stream, and a refused write adds none. Only a sink
with a bound can take a part of a write. -/

namespace DiagnosticLog

namespace ByteSink

variable {s : ByteSink}

/-- A sink that takes all that is written to it. -/
structure Unfailing (s : ByteSink) : Prop where
  unbounded : s.capacity = none
  takes : ∀ n, s.refusesWrite n = false

@[simp] theorem capacity_write (bytes : List UInt8) :
    (s.write bytes).2.capacity = s.capacity := by
  unfold write
  split
  · rfl
  · dsimp only
    split <;> rfl

@[simp] theorem refusesWrite_write (bytes : List UInt8) :
    (s.write bytes).2.refusesWrite = s.refusesWrite := by
  unfold write
  split
  · rfl
  · dsimp only
    split <;> rfl

@[simp] theorem flushes_write (bytes : List UInt8) : (s.write bytes).2.flushes = s.flushes := by
  unfold write
  split
  · rfl
  · dsimp only
    split <;> rfl

/-- A sink without a bound takes a write whole or not at all. -/
theorem contents_write (h : s.capacity = none) (bytes : List UInt8) :
    (s.write bytes).2.contents =
      s.contents ++ if (s.write bytes).1 = .ok () then bytes else [] := by
  have hf : s.fitting bytes = bytes := by rw [fitting, h]
  unfold write
  by_cases he : bytes = []
  · simp [he]
  · rw [if_neg he]
    dsimp only
    split
    · simp [contents]
    · simp [contents, hf]

theorem Unfailing.result_write (h : s.Unfailing) (bytes : List UInt8) :
    (s.write bytes).1 = .ok () := by
  have hf : s.fitting bytes = bytes := by rw [fitting, h.unbounded]
  unfold write
  by_cases he : bytes = []
  · simp [he]
  · simp [he, h.takes, hf]

theorem Unfailing.write (h : s.Unfailing) (bytes : List UInt8) : (s.write bytes).2.Unfailing where
  unbounded := by rw [capacity_write, h.unbounded]
  takes := by
    rw [refusesWrite_write]
    exact h.takes

theorem Unfailing.flush (h : s.Unfailing) : s.flush.2.Unfailing := ⟨h.unbounded, h.takes⟩

/-- A sink that takes all that is written to it and refuses no flush. -/
structure Faultless (s : ByteSink) : Prop extends s.Unfailing where
  lets : ∀ n, s.refusesFlush n = false

@[simp] theorem refusesFlush_write (bytes : List UInt8) :
    (s.write bytes).2.refusesFlush = s.refusesFlush := by
  unfold write
  split
  · rfl
  · dsimp only
    split <;> rfl

theorem Faultless.write (h : s.Faultless) (bytes : List UInt8) : (s.write bytes).2.Faultless where
  toUnfailing := h.toUnfailing.write bytes
  lets := by
    rw [refusesFlush_write]
    exact h.lets

theorem Faultless.flush (h : s.Faultless) : s.flush.2.Faultless := ⟨h.toUnfailing.flush, h.lets⟩

theorem Faultless.result_flush (h : s.Faultless) : s.flush.1 = .ok () :=
  if_neg (by simp [h.lets])

end ByteSink

namespace HeldOutput

/-- All that was written, bytes held back last. -/
def bytes (o : HeldOutput) : List UInt8 := o.arrived.toList ++ o.held.toList

theorem arrived_flush (o : HeldOutput) : o.flush.arrived.toList = o.bytes := by
  simp [flush, bytes]

theorem bytes_flush (o : HeldOutput) : o.flush.bytes = o.bytes := by
  simp [flush, bytes]

/-- Whatever there is room for, bytes come after those that were written before. -/
theorem bytes_write (o : HeldOutput) (added : List UInt8) :
    (o.write added).bytes = o.bytes ++ added := by
  unfold write
  cases o.room with
  | none => simp [bytes]
  | some room =>
    dsimp only
    by_cases hpast : room < o.held.size + added.length
    · rw [if_pos hpast]
      split
      · simp [bytes, flush]
      · simp [bytes, flush]
    · rw [if_neg hpast]
      split
      · simp [bytes]
      · -- bytes that fill the room fit beside none
        have hnone : o.held.toList = [] := by
          rw [← List.length_eq_zero_iff, Journal.length_toList]
          omega
        simp [bytes, hnone]

end HeldOutput

namespace LogStream

variable {s : LogStream}

/-- All that was written, bytes held back among it. -/
def content (s : LogStream) : List UInt8 := s.release.arrived

/-- A stream that takes a write whole or not at all. -/
def Unbounded : LogStream → Prop
  | .custom sink => sink.capacity = none
  | _ => True

/-- A stream that takes all that is written to it. -/
def Unfailing : LogStream → Prop
  | .custom sink => sink.Unfailing
  | _ => True

theorem Unfailing.unbounded (h : s.Unfailing) : s.Unbounded := by
  cases s with
  | custom sink => exact ByteSink.Unfailing.unbounded h
  | _ => trivial

theorem Unbounded.write (h : s.Unbounded) (bytes : List UInt8) : (s.write bytes).2.Unbounded := by
  cases s with
  | custom sink => exact (sink.capacity_write bytes).trans h
  | _ => trivial

theorem Unfailing.write (h : s.Unfailing) (bytes : List UInt8) : (s.write bytes).2.Unfailing := by
  cases s with
  | custom sink => exact ByteSink.Unfailing.write h bytes
  | _ => trivial

theorem Unbounded.flush (h : s.Unbounded) : s.flush.2.Unbounded := by
  cases s with
  | custom sink => exact h
  | _ => trivial

theorem Unbounded.release (h : s.Unbounded) : s.release.Unbounded := by
  cases s with
  | custom sink => exact h
  | _ => trivial

theorem Unfailing.result_write (h : s.Unfailing) (bytes : List UInt8) :
    (s.write bytes).1 = .ok () := by
  cases s with
  | custom sink => exact ByteSink.Unfailing.result_write h bytes
  | _ => rfl

/-- A stream that takes all that is written to it and refuses no flush. -/
def Faultless : LogStream → Prop
  | .custom sink => sink.Faultless
  | _ => True

theorem Faultless.unfailing (h : s.Faultless) : s.Unfailing := by
  cases s with
  | custom sink => exact ByteSink.Faultless.toUnfailing h
  | _ => trivial

theorem Faultless.write (h : s.Faultless) (bytes : List UInt8) : (s.write bytes).2.Faultless := by
  cases s with
  | custom sink => exact ByteSink.Faultless.write h bytes
  | _ => trivial

theorem Faultless.flush (h : s.Faultless) : s.flush.2.Faultless := by
  cases s with
  | custom sink => exact ByteSink.Faultless.flush h
  | _ => trivial

theorem Faultless.result_flush (h : s.Faultless) : s.flush.1 = .ok () := by
  cases s with
  | custom sink => exact ByteSink.Faultless.result_flush h
  | _ => rfl

theorem content_write (h : s.Unbounded) (bytes : List UInt8) :
    (s.write bytes).2.content =
      s.content ++ if (s.write bytes).1 = .ok () then bytes else [] := by
  cases s with
  | custom sink => exact ByteSink.contents_write h bytes
  | stdout output | file path output =>
    simp [write, content, release, arrived, taken, HeldOutput.arrived_flush, HeldOutput.bytes_write]
  | memory buffer =>
    simp [write, content, release, arrived, taken, TextBuffer.write]

theorem Unfailing.content_write (h : s.Unfailing) (bytes : List UInt8) :
    (s.write bytes).2.content = s.content ++ bytes := by
  rw [LogStream.content_write h.unbounded, if_pos (h.result_write bytes)]

/-- A flush only lets bytes arrive that are held back. -/
theorem content_flush : s.flush.2.content = s.content := by
  cases s with
  | custom sink => rfl
  | stdout output | file path output =>
    simp [flush, content, release, arrived, taken, HeldOutput.arrived_flush, HeldOutput.bytes_flush]
  | memory buffer => rfl

/-- What is given up has nothing held back. -/
theorem content_release : s.release.content = s.content := by
  cases s with
  | custom sink => rfl
  | stdout output | file path output =>
    simp [content, release, arrived, taken, HeldOutput.arrived_flush, HeldOutput.bytes_flush]
  | memory buffer => rfl

/-- After a flush all that was written has arrived. -/
theorem arrived_flush : s.flush.2.arrived = s.content := by
  cases s <;> rfl

end LogStream

end DiagnosticLog
