import Mathlib.Data.List.Basic
import DiagnosticLog.Proofs.Text.Utf8

/-! Bytes that need not be UTF-8. A byte below 0x80 is a character of its own wherever it stands: it
breaks off a character that has begun, and what follows it is read from the start. No other byte
has a part in a character below 0x80. -/

namespace DiagnosticLog.Utf8

/-! ### Where the reader may stand -/

/-- Whether so many more bytes, whichever they are, bring a value to that of a character which is
not below 0x80. -/
def Completes : Nat → Nat → Prop
  | 0, value => 0x80 ≤ value ∧ value.isValidChar
  | missing + 1, value => ∀ bits < 0x40, Completes missing (value * 0x40 + bits)

/-- A place at which a byte below 0x80 breaks off what has begun, and at which the bytes that go on
come to a character that is not below 0x80. -/
def State.Apart : State → Prop
  | .start => True
  | .inside missing low high value =>
    0x80 ≤ low ∧ high ≤ 0xBF ∧
      ∀ byte, low ≤ byte → byte ≤ high → Completes (missing - 1) (value * 0x40 + (byte - 0x80))

theorem apart_start : State.start.Apart := trivial

theorem apart_two (value : Nat) (h : 2 ≤ value) (h' : value < 0x20) :
    (State.inside 1 0x80 0xBF value).Apart := by
  refine ⟨by omega, by omega, fun byte hl hh => ⟨by omega, ?_⟩⟩
  left
  omega

theorem apart_three (value : Nat) (h : value < 0x10) :
    (State.inside 2 (if value = 0 then 0xA0 else 0x80) (if value = 0xD then 0x9F else 0xBF)
      value).Apart := by
  refine ⟨by split <;> omega, by split <;> omega, fun byte hl hh bits hb => ?_⟩
  split at hl <;> split at hh <;> refine ⟨by omega, ?_⟩ <;> unfold Nat.isValidChar <;> omega

theorem apart_four (value : Nat) (h : value < 5) :
    (State.inside 3 (if value = 0 then 0x90 else 0x80) (if value = 4 then 0x8F else 0xBF)
      value).Apart := by
  refine ⟨by split <;> omega, by split <;> omega, fun byte hl hh bits hb bits' hb' => ?_⟩
  split at hl <;> split at hh <;> refine ⟨by omega, ?_⟩ <;> unfold Nat.isValidChar <;> omega

/-! ### One byte -/

theorem toNat_char {value : Nat} (h : value.isValidChar) : (Char.ofNat value).toNat = value := by
  rw [Char.ofNat, dif_pos h]
  rfl

/-- A byte below 0x80 ends what has begun, and is a character of its own. -/
theorem step_ascii {state : State} (h : state.Apart) {byte : UInt8} (hb : byte.toNat < 0x80) :
    step byte state = (finish state ++ [Char.ofNat byte.toNat], .start) := by
  cases state with
  | start => exact lead_one hb
  | inside missing low high value =>
    obtain ⟨hl, -, -⟩ := h
    simp only [step]
    rw [if_neg (by omega), lead_one hb]
    rfl

/-- What a byte that is not below 0x80 completes, and where it leads to: characters that are not
below 0x80 either, and a place inside a character if there are none. -/
structure Remote (moved : List Char × State) : Prop where
  apart : moved.2.Apart
  chars : ∀ c ∈ moved.1, 0x80 ≤ c.toNat
  heard : moved.1 = [] → moved.2 ≠ .start

theorem remote_replacement : Remote ([replacement], .start) := by
  refine ⟨trivial, ?_, by simp⟩
  intro c hc
  rw [List.mem_singleton.mp hc]
  decide

theorem Remote.inside {missing low high value : Nat}
    (h : (State.inside missing low high value).Apart) :
    Remote ([], .inside missing low high value) :=
  ⟨h, by simp, by simp⟩

theorem remote_lead {byte : UInt8} (hb : 0x80 ≤ byte.toNat) : Remote (lead byte) := by
  have hlt : byte.toNat < 0x100 := byte.toNat_lt
  by_cases hc2 : byte.toNat < 0xC2
  · have hr : lead byte = ([replacement], .start) := by
      simp only [lead]
      rw [if_neg (by omega), if_pos hc2]
    rw [hr]
    exact remote_replacement
  by_cases he0 : byte.toNat < 0xE0
  · rw [lead_two (by omega) he0]
    exact .inside (apart_two _ (by omega) (by omega))
  by_cases hf0 : byte.toNat < 0xF0
  · rw [lead_three (by omega) hf0]
    have ha := apart_three (byte.toNat - 0xE0) (by omega)
    have hz : byte.toNat - 0xE0 = 0 ↔ byte.toNat = 0xE0 := by omega
    have hd : byte.toNat - 0xE0 = 0xD ↔ byte.toNat = 0xED := by omega
    simp only [hz, hd] at ha
    exact .inside ha
  by_cases hf5 : byte.toNat < 0xF5
  · rw [lead_four (by omega) hf5]
    have ha := apart_four (byte.toNat - 0xF0) (by omega)
    have hz : byte.toNat - 0xF0 = 0 ↔ byte.toNat = 0xF0 := by omega
    have hd : byte.toNat - 0xF0 = 4 ↔ byte.toNat = 0xF4 := by omega
    simp only [hz, hd] at ha
    exact .inside ha
  · have hr : lead byte = ([replacement], .start) := by
      simp only [lead]
      rw [if_neg (by omega), if_neg (by omega), if_neg (by omega), if_neg (by omega), if_neg hf5]
    rw [hr]
    exact remote_replacement

/-- A byte that goes on a character completes it, or comes nearer to its end. -/
theorem remote_going_on {byte : UInt8} {missing low high value : Nat}
    (h : (State.inside missing low high value).Apart) (hl : low ≤ byte.toNat)
    (hh : byte.toNat ≤ high) : Remote (step byte (.inside missing low high value)) := by
  obtain ⟨-, -, hc⟩ := h
  have hv := hc byte.toNat hl hh
  simp only [step]
  rw [if_pos ⟨hl, hh⟩]
  split
  next hm =>
    rw [Nat.sub_eq_zero_of_le hm] at hv
    refine ⟨trivial, ?_, by simp⟩
    intro c hc
    rw [List.mem_singleton.mp hc, toNat_char hv.2]
    exact hv.1
  next hm =>
    obtain ⟨n, rfl⟩ : ∃ n, missing = n + 2 := ⟨missing - 2, by omega⟩
    exact .inside ⟨by omega, by omega, fun next hn hn' => hv (next - 0x80) (by omega)⟩

theorem remote_step {state : State} (h : state.Apart) {byte : UInt8} (hb : 0x80 ≤ byte.toNat) :
    Remote (step byte state) := by
  cases state with
  | start => exact remote_lead hb
  | inside missing low high value =>
    by_cases hr : low ≤ byte.toNat ∧ byte.toNat ≤ high
    · exact remote_going_on h hr.1 hr.2
    · have hs : step byte (.inside missing low high value) =
          (replacement :: (lead byte).1, (lead byte).2) := by
        simp only [step]
        rw [if_neg hr]
      have hl := remote_lead hb
      rw [hs]
      refine ⟨hl.apart, ?_, by simp⟩
      intro c hc
      rcases List.mem_cons.mp hc with rfl | hc
      · decide
      · exact hl.chars c hc

theorem apart_step {state : State} (h : state.Apart) (byte : UInt8) :
    (step byte state).2.Apart := by
  by_cases hb : byte.toNat < 0x80
  · rw [step_ascii h hb]
    trivial
  · exact (remote_step h (by omega)).apart

/-! ### Whole texts -/

section

variable {state : State}

theorem mem_finish {c : Char} (hc : c ∈ finish state) : 0x80 ≤ c.toNat := by
  cases state with
  | start => simp [finish] at hc
  | inside missing low high value =>
    rw [List.mem_singleton.mp hc]
    decide

/-- A byte below 0x80 parts the text: what stands before it is read as if nothing followed, and what
follows as if nothing stood before. -/
theorem decodeFrom_append_ascii (h : state.Apart) (before after : List UInt8) {byte : UInt8}
    (hb : byte.toNat < 0x80) :
    decodeFrom state (before ++ byte :: after) =
      decodeFrom state before ++ Char.ofNat byte.toNat :: decodeFrom .start after := by
  induction before generalizing state with
  | nil =>
    have hn : decodeFrom state [] = finish state := rfl
    rw [List.nil_append, decodeFrom_cons, step_ascii h hb, hn, List.append_assoc]
    rfl
  | cons first before ih =>
    rw [List.cons_append, decodeFrom_cons, decodeFrom_cons, ih (apart_step h first),
      List.append_assoc]

/-- A character below 0x80 comes from its byte alone. -/
theorem exists_of_mem_decodeFrom (h : state.Apart) {bytes : List UInt8} {c : Char}
    (hc : c ∈ decodeFrom state bytes) (hlt : c.toNat < 0x80) :
    ∃ byte ∈ bytes, byte.toNat = c.toNat := by
  induction bytes generalizing state with
  | nil => exact absurd hlt (Nat.not_lt.mpr (mem_finish hc))
  | cons byte rest ih =>
    rw [decodeFrom_cons] at hc
    rcases List.mem_append.mp hc with hc | hc
    · refine ⟨byte, List.mem_cons_self, ?_⟩
      by_cases hb : byte.toNat < 0x80
      · rw [step_ascii h hb] at hc
        rcases List.mem_append.mp hc with hc | hc
        · exact absurd hlt (Nat.not_lt.mpr (mem_finish hc))
        · rw [List.mem_singleton.mp hc, toNat_char (.inl (by omega))]
      · exact absurd hlt (Nat.not_lt.mpr ((remote_step h (by omega)).chars c hc))
    · obtain ⟨found, hf, he⟩ := ih (apart_step h byte) hc
      exact ⟨found, List.mem_cons_of_mem byte hf, he⟩

/-- Some bytes are never read as nothing. -/
theorem decodeFrom_ne_nil (h : state.Apart) {bytes : List UInt8}
    (hs : state ≠ .start ∨ bytes ≠ []) : decodeFrom state bytes ≠ [] := by
  induction bytes generalizing state with
  | nil =>
    cases state with
    | start => simp at hs
    | inside missing low high value => exact List.cons_ne_nil _ _
  | cons byte rest ih =>
    rw [decodeFrom_cons, Ne, List.append_eq_nil_iff, not_and]
    intro hnil
    refine ih (apart_step h byte) (.inl ?_)
    by_cases hb : byte.toNat < 0x80
    · rw [step_ascii h hb] at hnil
      exact absurd hnil (by simp)
    · exact (remote_step h (by omega)).heard hnil

/-- A text ends with a character below 0x80 only if its bytes do. -/
theorem toNat_of_getLast?_decodeFrom (h : state.Apart) {before : List UInt8} {byte : UInt8}
    {c : Char} (hc : (decodeFrom state (before ++ [byte])).getLast? = some c)
    (hlt : c.toNat < 0x80) : byte.toNat = c.toNat := by
  induction before generalizing state with
  | nil =>
    obtain ⟨found, hf, he⟩ := exists_of_mem_decodeFrom h (List.mem_of_getLast? hc) hlt
    rw [← he, List.mem_singleton.mp hf]
  | cons first before ih =>
    have hn : decodeFrom (step first state).2 (before ++ [byte]) ≠ [] :=
      decodeFrom_ne_nil (apart_step h first) (.inr (by simp))
    rw [List.cons_append, decodeFrom_cons, List.getLast?_append_of_ne_nil _ hn] at hc
    exact ih (apart_step h first) hc

end

end DiagnosticLog.Utf8
