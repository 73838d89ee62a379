import Mathlib.Data.List.Basic
import Mathlib.Data.List.Induction
import Mathlib.Data.List.TakeWhile
import Mathlib.Data.Nat.Digits.Defs
import DiagnosticLog.Text.Blank
import DiagnosticLog.Proofs.Text.Scanning

/-! Numerals of 64 bits. The reader goes from the first digit to the last, and gives up as soon as
what it has read leaves the range. Since every digit goes away from zero, nothing that would come
back into the range is lost: the reader takes exactly the numerals whose number is in the range. -/

namespace DiagnosticLog

namespace Numeral

/-! ### What a numeral denotes -/

/-- The number of some decimal digits, by the place of each: the last counts ones. -/
def value (digits : List Char) : Nat :=
  Nat.ofDigits 10 (digits.reverse.map fun c => c.toNat - '0'.toNat)

inductive Sign where
  | none | plus | minus
  deriving DecidableEq

namespace Sign

def text : Sign → List Char
  | .none => []
  | .plus => ['+']
  | .minus => ['-']

def apply (n : Nat) : Sign → Int
  | .none | .plus => n
  | .minus => -n

end Sign

/-- A text is a numeral of an integer: a sign or none, and one or more digits. -/
def Denotes (numeral : List Char) (n : Int) : Prop :=
  ∃ (sign : Sign) (digits : List Char), numeral = sign.text ++ digits ∧ digits ≠ [] ∧
    (∀ c ∈ digits, '0' ≤ c ∧ c ≤ '9') ∧ n = sign.apply (value digits)

/-! ### Digits -/

theorem digit?_eq_some {c : Char} (h : '0' ≤ c ∧ c ≤ '9') : digit? c = some (c.toNat - '0'.toNat) :=
  if_pos h

theorem digit?_eq_none {c : Char} (h : ¬ ('0' ≤ c ∧ c ≤ '9')) : digit? c = none := if_neg h

/-- Reading from the first digit on, each digit makes ten of what was read before. -/
theorem value_eq_ofDigitChars (digits : List Char) :
    value digits = Nat.ofDigitChars 10 digits 0 := by
  induction digits using List.reverseRecOn with
  | nil => rfl
  | append_singleton digits c ih =>
    rw [Nat.ofDigitChars_append, ← ih, Nat.ofDigitChars_cons, Nat.ofDigitChars_nil, value,
      List.reverse_append, List.reverse_singleton, List.singleton_append, List.map_cons,
      Nat.ofDigits_cons, value, Nat.add_comm]

/-- What was read is never more than what it is continued to. -/
theorem le_ofDigitChars (n : Nat) (digits : List Char) : n ≤ Nat.ofDigitChars 10 digits n := by
  induction digits generalizing n with
  | nil => rw [Nat.ofDigitChars_nil]
  | cons c rest ih =>
    rw [Nat.ofDigitChars_cons]
    have hr := ih (10 * n + (c.toNat - '0'.toNat))
    omega

theorem value_toString (n : Nat) : value (toString n).toList = n := by
  rw [value_eq_ofDigitChars, Nat.toString_eq_repr, Nat.toList_repr, Nat.ofDigitChars_ten_toDigits]

/-- Zeros in front of some digits do not change their number. -/
theorem value_zeros (zeros : Nat) (digits : List Char) :
    value (List.replicate zeros '0' ++ digits) = value digits := by
  induction zeros with
  | zero => rfl
  | succ zeros ih =>
    rw [value_eq_ofDigitChars] at ih ⊢
    rw [List.replicate_succ, List.cons_append, Nat.ofDigitChars_cons]
    exact ih

/-! ### The range -/

/-- An integer of 64 bits. -/
def Fits (n : Int) : Prop := -2 ^ 63 ≤ n ∧ n ≤ 2 ^ 63 - 1

instance (n : Int) : Decidable (Fits n) := inferInstanceAs (Decidable (_ ∧ _))

theorem fit?_eq_some {n : Int} (h : Fits n) : fit? n = some n := if_pos h

theorem fit?_eq_none {n : Int} (h : ¬ Fits n) : fit? n = none := if_neg h

/-- The directions of the signs. -/
def IsUnit (sign : Int) : Prop := sign = 1 ∨ sign = -1

/-- What is nearer to zero fits if what is farther does. -/
theorem Fits.nearer {sign : Int} (hs : IsUnit sign) {n m : Nat} (h : Fits (sign * m))
    (hn : n ≤ m) : Fits (sign * n) := by
  unfold Fits at *
  rcases hs with rfl | rfl <;> omega

/-! ### Reading -/

/-- From an integer in the range the digits are read if the number they lead to is in the range. -/
theorem continueInt64?_eq {sign : Int} (hs : IsUnit sign) (n : Nat) (hn : Fits (sign * n))
    {digits : List Char} (h : ∀ c ∈ digits, '0' ≤ c ∧ c ≤ '9') :
    continueInt64? sign (sign * n) digits = fit? (sign * Nat.ofDigitChars 10 digits n) := by
  induction digits generalizing n with
  | nil => rw [continueInt64?, Nat.ofDigitChars_nil, fit?_eq_some hn]
  | cons c rest ih =>
    obtain ⟨hc, hrest⟩ := List.forall_mem_cons.mp h
    obtain ⟨d, hd⟩ : ∃ d, c.toNat - '0'.toNat = d := ⟨_, rfl⟩
    have hstep : 10 * n + d ≤ Nat.ofDigitChars 10 rest (10 * n + d) := le_ofDigitChars _ rest
    have hshift : 10 * (sign * (n : Int)) = sign * ((10 * n : Nat) : Int) := by
      rcases hs with rfl | rfl <;> omega
    have hnext : sign * ((10 * n : Nat) : Int) + sign * (d : Int) =
        sign * ((10 * n + d : Nat) : Int) := by
      rcases hs with rfl | rfl <;> omega
    rw [continueInt64?, digit?_eq_some hc, Nat.ofDigitChars_cons, hd, hshift]
    by_cases hfits : Fits (sign * ((10 * n + d : Nat) : Int))
    · have hten := hfits.nearer hs (Nat.le_add_right (10 * n) d)
      rw [Option.bind_eq_bind, Option.bind_some, fit?_eq_some hten, Option.bind_eq_bind,
        Option.bind_some, hnext, fit?_eq_some hfits]
      exact ih _ hfits hrest
    · -- the next step leaves the range, and so would all that follow
      rw [fit?_eq_none fun hlast => hfits (hlast.nearer hs hstep)]
      simp only [Option.bind_eq_bind, Option.bind_some, Option.bind_eq_none_iff]
      intro shifted hshifted next hfit
      rw [fit?] at hshifted
      split at hshifted
      · cases hshifted
        rw [hnext, fit?_eq_none hfits] at hfit
        contradiction
      · contradiction

/-- Whatever is read consists of digits. -/
theorem isDigit_of_continueInt64? {sign value n : Int} {digits : List Char}
    (h : continueInt64? sign value digits = some n) : ∀ c ∈ digits, '0' ≤ c ∧ c ≤ '9' := by
  induction digits generalizing value with
  | nil => simp
  | cons c rest ih =>
    by_cases hc : '0' ≤ c ∧ c ≤ '9'
    · rw [continueInt64?] at h
      obtain ⟨d, -, h⟩ := Option.bind_eq_some_iff.mp h
      obtain ⟨shifted, -, h⟩ := Option.bind_eq_some_iff.mp h
      obtain ⟨next, -, h⟩ := Option.bind_eq_some_iff.mp h
      exact List.forall_mem_cons.mpr ⟨hc, ih h⟩
    · rw [continueInt64?, digit?_eq_none hc] at h
      contradiction

theorem signed64?_eq_some_iff {sign : Int} (hs : IsUnit sign) {digits : List Char} {n : Int} :
    signed64? sign digits = some n ↔
      digits ≠ [] ∧ (∀ c ∈ digits, '0' ≤ c ∧ c ≤ '9') ∧ n = sign * value digits ∧ Fits n := by
  have hzero : Fits (sign * (0 : Nat)) := by
    rcases hs with rfl | rfl <;> decide
  have hread : ∀ digits : List Char, (∀ c ∈ digits, '0' ≤ c ∧ c ≤ '9') →
      continueInt64? sign 0 digits = fit? (sign * value digits) := by
    intro digits hd
    rw [value_eq_ofDigitChars, ← continueInt64?_eq hs 0 hzero hd, Int.natCast_zero, Int.mul_zero]
  cases digits with
  | nil => simp [signed64?]
  | cons c rest =>
    rw [signed64?.eq_2 sign _ (List.cons_ne_nil c rest)]
    constructor
    · intro h
      have hd := isDigit_of_continueInt64? h
      rw [hread _ hd, fit?] at h
      split at h
      · rename_i hfits
        cases h
        exact ⟨List.cons_ne_nil c rest, hd, rfl, hfits⟩
      · contradiction
    · rintro ⟨-, hd, rfl, hfits⟩
      rw [hread _ hd, fit?_eq_some hfits]

/-- Digits do not begin with a sign. -/
theorem int64?_of_digits {digits : List Char} (h : ∀ c ∈ digits, '0' ≤ c ∧ c ≤ '9') :
    int64? digits = signed64? 1 digits := by
  unfold int64?
  split
  · exact absurd (h '+' List.mem_cons_self) (by decide)
  · exact absurd (h '-' List.mem_cons_self) (by decide)
  · rfl

/-- Read are exactly the numerals of the integers of 64 bits, each as its integer. -/
theorem int64?_eq_some_iff {numeral : List Char} {n : Int} :
    int64? numeral = some n ↔ Denotes numeral n ∧ Fits n := by
  constructor
  · intro h
    unfold int64? at h
    split at h
    · obtain ⟨hne, hd, hn, hf⟩ := (signed64?_eq_some_iff (.inl rfl)).mp h
      exact ⟨⟨.plus, _, rfl, hne, hd, by rw [hn, Int.one_mul]; rfl⟩, hf⟩
    · obtain ⟨hne, hd, hn, hf⟩ := (signed64?_eq_some_iff (.inr rfl)).mp h
      exact ⟨⟨.minus, _, rfl, hne, hd, by rw [hn, Int.neg_one_mul]; rfl⟩, hf⟩
    · obtain ⟨hne, hd, hn, hf⟩ := (signed64?_eq_some_iff (.inl rfl)).mp h
      exact ⟨⟨.none, _, rfl, hne, hd, by rw [hn, Int.one_mul]; rfl⟩, hf⟩
  · rintro ⟨⟨sign, digits, rfl, hne, hd, rfl⟩, hf⟩
    cases sign with
    | none =>
      have hr := int64?_of_digits hd
      exact hr.trans ((signed64?_eq_some_iff (.inl rfl)).mpr
        ⟨hne, hd, (Int.one_mul _).symm, hf⟩)
    | plus =>
      exact (signed64?_eq_some_iff (.inl rfl)).mpr ⟨hne, hd, (Int.one_mul _).symm, hf⟩
    | minus =>
      exact (signed64?_eq_some_iff (.inr rfl)).mpr ⟨hne, hd, (Int.neg_one_mul _).symm, hf⟩

end Numeral

/-! ### Blanks around a numeral -/

namespace Blank

/-- A text that neither begins nor ends with a blank. -/
structure Bare (text : List Char) : Prop where
  first : ∀ c ∈ text.head?, isBlank c = false
  last : ∀ c ∈ text.getLast?, isBlank c = false

theorem dropWhile_padding {before text : List Char} (hb : ∀ c ∈ before, isBlank c = true)
    (ht : ∀ c ∈ text.head?, isBlank c = false) : (before ++ text).dropWhile isBlank = text := by
  rw [List.dropWhile_append_of_pos hb]
  cases text with
  | nil => rfl
  | cons c rest =>
    have hc : isBlank c = false := ht c rfl
    rw [List.dropWhile_cons_of_neg (by simp [hc])]

/-- Blanks around a bare text are taken off, and nothing else. -/
theorem trim_padded {before text after : List Char} (h : Bare text)
    (hp : ∀ c ∈ before ++ after, isBlank c = true) : trim (before ++ text ++ after) = text := by
  obtain ⟨hb, ha⟩ := List.forall_mem_append.mp hp
  have hlast : ∀ c ∈ text.reverse.head?, isBlank c = false := by
    rw [List.head?_reverse]
    exact h.last
  have ha' : ∀ c ∈ after.reverse, isBlank c = true := fun c hc => ha c (List.mem_reverse.mp hc)
  by_cases ht : text = []
  · subst ht
    have hall : (before ++ [] ++ after).dropWhile isBlank = [] := by
      rw [List.append_nil, ← List.append_nil (before ++ after)]
      exact dropWhile_padding hp (by simp)
    rw [trim, hall]
    rfl
  · have hfront : (before ++ text ++ after).dropWhile isBlank = text ++ after := by
      obtain ⟨c, rest, rfl⟩ := List.exists_cons_of_ne_nil ht
      rw [List.append_assoc]
      exact dropWhile_padding hb h.first
    rw [trim, hfront, List.reverse_append, dropWhile_padding ha' hlast, List.reverse_reverse]

/-- What is taken off a text are blanks at its two ends. -/
theorem exists_padding (text : List Char) : ∃ before after, text = before ++ trim text ++ after ∧
    ∀ c ∈ before ++ after, isBlank c = true := by
  let front := text.dropWhile isBlank
  refine ⟨text.takeWhile isBlank, (front.reverse.takeWhile isBlank).reverse, ?_, ?_⟩
  · have hback : trim text ++ (front.reverse.takeWhile isBlank).reverse = front := by
      rw [trim, ← List.reverse_append, List.takeWhile_append_dropWhile, List.reverse_reverse]
    rw [List.append_assoc, hback, List.takeWhile_append_dropWhile]
  · intro c hc
    rcases List.mem_append.mp hc with hc | hc
    · exact List.mem_takeWhile_imp hc
    · exact List.mem_takeWhile_imp (List.mem_reverse.mp hc)

end Blank

namespace Numeral

theorem isBlank_of_isDigit {c : Char} (h : '0' ≤ c ∧ c ≤ '9') : Blank.isBlank c = false := by
  have hl : 0x30 ≤ c.toNat := h.1
  have hu : c.toNat ≤ 0x39 := h.2
  simp [Blank.isBlank, Blank.ranges]
  omega

/-- A numeral neither begins nor ends with a blank. -/
theorem Denotes.bare {numeral : List Char} {n : Int} (h : Denotes numeral n) :
    Blank.Bare numeral := by
  obtain ⟨sign, digits, rfl, hne, hd, -⟩ := h
  refine ⟨?_, ?_⟩
  · intro c hc
    cases sign with
    | none => exact isBlank_of_isDigit (hd c (List.mem_of_mem_head? hc))
    | plus | minus =>
      obtain rfl : _ = c := Option.some.inj hc
      rfl
  · intro c hc
    rw [List.getLast?_append_of_ne_nil _ hne] at hc
    exact isBlank_of_isDigit (hd c (List.mem_of_getLast? hc))

end Numeral

end DiagnosticLog
