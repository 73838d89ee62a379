/-! Decimal numerals: natural numbers of any size, and integers of 64 bits with an optional sign. -/

namespace DiagnosticLog.Numeral

def digit? (c : Char) : Option Nat :=
  if '0' ≤ c ∧ c ≤ '9' then some (c.toNat - '0'.toNat) else none

/-- The number whose digits come after the number read so far. -/
def continue? (value : Nat) : List Char → Option Nat
  | [] => some value
  | c :: rest => (digit? c).bind fun d => continue? (10 * value + d) rest

/-- One digit or more, leading zeros allowed. -/
def natural? : List Char → Option Nat
  | [] => none
  | digits => continue? 0 digits

/-- A number is known by its digits. -/
theorem toString_inj {n m : Nat} : toString n = toString m ↔ n = m := by
  refine ⟨fun h => ?_, congrArg toString⟩
  have hd := congrArg (fun text => Nat.ofDigitChars 10 text.toList 0) h
  simpa [Nat.toString_eq_repr, Nat.toList_repr] using hd

/-! ### Integers of 64 bits -/

/-- The least and the greatest integer of 64 bits. -/
def int64Min : Int := -9223372036854775808
def int64Max : Int := 9223372036854775807

/-- An integer, if it fits into 64 bits. -/
def fit? (n : Int) : Option Int :=
  if int64Min ≤ n ∧ n ≤ int64Max then some n else none

/-- The integer whose digits come after the integer read so far. Every digit goes away from zero, in
the direction of the sign, and nothing on the way may leave the 64 bits. -/
def continueInt64? (sign value : Int) : List Char → Option Int
  | [] => some value
  | c :: rest => do
    let d ← digit? c
    let shifted ← fit? (10 * value)
    let next ← fit? (shifted + sign * d)
    continueInt64? sign next rest

/-- One digit or more behind a sign. -/
def signed64? (sign : Int) : List Char → Option Int
  | [] => none
  | digits => continueInt64? sign 0 digits

/-- An integer of 64 bits: one sign, if any, and then the digits. -/
def int64? : List Char → Option Int
  | '+' :: digits => signed64? 1 digits
  | '-' :: digits => signed64? (-1) digits
  | digits => signed64? 1 digits

end DiagnosticLog.Numeral
