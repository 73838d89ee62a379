import DiagnosticLog.Text.Scan

/-! What was written in front of a text is read back from there, and the text is what remains. -/

namespace DiagnosticLog

namespace Numeral

theorem digit?_of_isDigit {c : Char} (h : c.isDigit = true) :
    digit? c = some (c.toNat - '0'.toNat) := by
  have hc : '0' ≤ c ∧ c ≤ '9' := by simpa [Char.isDigit, Char.le_def] using h
  rw [digit?, if_pos hc]

theorem continue?_digits (value : Nat) {digits : List Char}
    (h : ∀ c ∈ digits, c.isDigit = true) :
    continue? value digits = some (Nat.ofDigitChars 10 digits value) := by
  induction digits generalizing value with
  | nil => simp [continue?]
  | cons c rest ih =>
    have hc := digit?_of_isDigit (h c List.mem_cons_self)
    rw [continue?, hc, Option.bind_some, Nat.ofDigitChars_cons]
    exact ih _ fun d hd => h d (List.mem_cons_of_mem c hd)

theorem isDigit_of_mem_toString {n : Nat} {c : Char} (h : c ∈ (toString n).toList) :
    c.isDigit = true := by
  rw [Nat.toString_eq_repr, Nat.toList_repr] at h
  exact Nat.isDigit_of_mem_toDigits (by decide) (by decide) h

theorem toString_ne_nil (n : Nat) : (toString n).toList ≠ [] := by
  rw [Nat.toString_eq_repr, Nat.toList_repr]
  exact Nat.toDigits_ne_nil

/-- The digits of a number are read as the number. -/
theorem natural?_toString (n : Nat) : natural? (toString n).toList = some n := by
  have hd : ∀ c ∈ Nat.toDigits 10 n, c.isDigit = true :=
    fun c hc => Nat.isDigit_of_mem_toDigits (by decide) (by decide) hc
  rw [Nat.toString_eq_repr, Nat.toList_repr]
  cases hs : Nat.toDigits 10 n with
  | nil => exact absurd hs Nat.toDigits_ne_nil
  | cons c rest =>
    rw [natural?, ← hs, continue?_digits 0 hd, Nat.ofDigitChars_ten_toDigits]
    exact List.cons_ne_nil c rest

end Numeral

namespace Scan

/-- Whether a text may follow on a numeral without becoming a part of it. -/
def EndsNumeral (text : List Char) : Prop := ∀ c ∈ text.head?, c.isDigit = false

theorem endsNumeral_cons {c : Char} (h : c.isDigit = false) (text : List Char) :
    EndsNumeral (c :: text) := by
  intro d hd
  obtain rfl : c = d := by simpa using hd
  exact h

@[simp] theorem after?_append (expected text : List Char) :
    after? expected (expected ++ text) = some text := by
  induction expected with
  | nil => rfl
  | cons c rest ih => rw [List.cons_append, after?, if_pos rfl, ih]

@[simp] theorem after?_cons (c : Char) (text : List Char) : after? [c] (c :: text) = some text :=
  after?_append [c] text

theorem takeWhile_numeral {digits text : List Char} (h : ∀ c ∈ digits, c.isDigit = true)
    (ht : EndsNumeral text) :
    (digits ++ text).takeWhile Char.isDigit = digits ∧
      (digits ++ text).dropWhile Char.isDigit = text := by
  rw [List.takeWhile_append_of_pos h, List.dropWhile_append_of_pos h]
  cases text with
  | nil => simp
  | cons c rest =>
    have hc : c.isDigit = false := ht c rfl
    simp [hc]

/-- A number is read back if no digit follows it. -/
theorem natural?_append (n : Nat) {text : List Char} (h : EndsNumeral text) :
    natural? ((toString n).toList ++ text) = some (n, text) := by
  obtain ⟨ht, hd⟩ :=
    takeWhile_numeral (fun _ hc => Numeral.isDigit_of_mem_toString (n := n) hc) h
  rw [natural?, ht, hd, Numeral.natural?_toString, Option.map_some]

end Scan

end DiagnosticLog
