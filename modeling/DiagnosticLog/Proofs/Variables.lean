import DiagnosticLog.Settings
import DiagnosticLog.Proofs.Text.Numerals

/-! Settings read from variables. A variable sets its number to what its value says, and to the
default if the value is no numeral of an integer of 64 bits. No variable has a say in what another
one sets. -/

namespace DiagnosticLog.Settings

open Numeral (Sign Fits Denotes)

/-! ### What a variable says -/

/-- A text says an integer of 64 bits: it is a numeral, blanks around it allowed. -/
def Says (text : String) (n : Int) : Prop :=
  Fits n ∧ ∃ before numeral after, text.toList = before ++ numeral ++ after ∧
    (∀ c ∈ before ++ after, Blank.isBlank c = true) ∧ Denotes numeral n

/-- A variable sets a number to what its value says, if it has a value that says something, and
else to a default. -/
def Sets (value : Option String) (default n : Int) : Prop :=
  (∃ text, value = some text ∧ Says text n) ∨
    (n = default ∧ ∀ text, value = some text → ∀ m, ¬ Says text m)

theorem number?_eq_some_iff {text : String} {n : Int} : number? text = some n ↔ Says text n := by
  rw [number?, Numeral.int64?_eq_some_iff]
  constructor
  · rintro ⟨hd, hf⟩
    obtain ⟨before, after, ht, hp⟩ := Blank.exists_padding text.toList
    exact ⟨hf, before, _, after, ht, hp, hd⟩
  · rintro ⟨hf, before, numeral, after, ht, hp, hd⟩
    rw [ht, Blank.trim_padded hd.bare hp]
    exact ⟨hd, hf⟩

theorem getD_number?_eq_iff {value : Option String} {default n : Int} :
    (value.bind number?).getD default = n ↔ Sets value default n := by
  cases value with
  | none => simp [Sets, eq_comm]
  | some text =>
    cases hm : number? text with
    | none =>
      have hs : ∀ m, ¬ Says text m := by
        intro m h
        rw [number?_eq_some_iff.mpr h] at hm
        contradiction
      simp [Sets, hm, hs, eq_comm]
    | some m =>
      have hs : ∀ k, Says text k ↔ m = k := by
        intro k
        rw [← number?_eq_some_iff, hm, Option.some.injEq]
      simp [Sets, hm, hs]

/-! ### Writing what is read back -/

/-- A way to write an integer: blanks around it, a sign or none, and zeros in front of its
digits. -/
structure Spelling where
  before : List Char
  sign : Sign
  zeros : Nat
  magnitude : Nat
  after : List Char
  blank : (before ++ after).all Blank.isBlank = true

namespace Spelling

/-- The integer that is written. -/
def value (s : Spelling) : Int := s.sign.apply s.magnitude

def text (s : Spelling) : String :=
  String.ofList (s.before ++
    (s.sign.text ++ (List.replicate s.zeros '0' ++ (toString s.magnitude).toList)) ++ s.after)

theorem said (s : Spelling) (h : Fits s.value) : Says s.text s.value := by
  refine ⟨h, s.before, _, s.after, String.toList_ofList, List.all_eq_true.mp s.blank, s.sign, _,
    rfl, ?_, ?_, ?_⟩
  · exact List.append_ne_nil_of_right_ne_nil _ (Numeral.toString_ne_nil _)
  · intro c hc
    rcases List.mem_append.mp hc with hc | hc
    · obtain rfl := List.eq_of_mem_replicate hc
      decide
    · simpa [Char.isDigit, Char.le_def] using Numeral.isDigit_of_mem_toString hc
  · rw [Numeral.value_zeros, Numeral.value_toString]
    rfl

/-- Every integer can be written plainly. -/
theorem exists_plain (n : Int) : ∃ s : Spelling, s.value = n ∧ s.text = toString n := by
  cases n with
  | ofNat m =>
    refine ⟨⟨[], .none, 0, m, [], rfl⟩, rfl, ?_⟩
    simp [text, Sign.text]
    rfl
  | negSucc m =>
    refine ⟨⟨[], .minus, 0, m + 1, [], rfl⟩, rfl, ?_⟩
    simp [text, Sign.text]
    rfl

end Spelling

/-! ### The settings -/

variable (lookup : String → Option String)

theorem verbosity_ofLookup :
    (ofLookup lookup).verbosity = ((lookup verbosityVariable).bind number?).getD 3 := rfl

theorem limit_ofLookup :
    (ofLookup lookup).limit = ((lookup limitVariable).bind number?).getD 100 := rfl

theorem logDirectory_ofLookup :
    (ofLookup lookup).logDirectory =
      (lookup directoryVariable).filter fun path => decide (path ≠ "") := rfl

/-- Numbers are read exactly. Whatever the variables hold, the verbosity and the limit are what
their own variables say, or their defaults; the directory is the value of its variable as it stands,
unless that is empty or missing. So a variable changes nothing but its own setting, and settings
that are written into the variables, in whatever spelling, are read back. -/
theorem numbers_are_read_exactly :
    (∀ lookup : String → Option String,
      let s := ofLookup lookup
      (∀ n, s.verbosity = n ↔ Sets (lookup verbosityVariable) 3 n) ∧
      (∀ n, s.limit = n ↔ Sets (lookup limitVariable) 100 n) ∧
      (∀ path, s.logDirectory = some path ↔ lookup directoryVariable = some path ∧ path ≠ "") ∧
      s.origin = "Extractor") ∧
    (∀ lookup lookup' : String → Option String,
      let s := ofLookup lookup
      let s' := ofLookup lookup'
      (lookup verbosityVariable = lookup' verbosityVariable → s.verbosity = s'.verbosity) ∧
      (lookup limitVariable = lookup' limitVariable → s.limit = s'.limit) ∧
      (lookup directoryVariable = lookup' directoryVariable →
        s.logDirectory = s'.logDirectory)) ∧
    (∀ (verbosity limit : Spelling) (path : String) (lookup : String → Option String),
      Fits verbosity.value → Fits limit.value → path ≠ "" →
      lookup verbosityVariable = some verbosity.text → lookup limitVariable = some limit.text →
      lookup directoryVariable = some path →
      ofLookup lookup =
        { verbosity := verbosity.value, limit := limit.value, logDirectory := some path }) ∧
    ∀ n : Int, ∃ s : Spelling, s.value = n ∧ s.text = toString n := by
  refine ⟨fun lookup => ⟨fun n => getD_number?_eq_iff, fun n => getD_number?_eq_iff, ?_, rfl⟩, ?_,
    ?_, Spelling.exists_plain⟩
  · intro path
    rw [logDirectory_ofLookup, Option.filter_eq_some_iff, decide_eq_true_iff]
  · intro lookup lookup' s s'
    refine ⟨fun h => ?_, fun h => ?_, fun h => ?_⟩
    · rw [verbosity_ofLookup, h, ← verbosity_ofLookup]
    · rw [limit_ofLookup, h, ← limit_ofLookup]
    · rw [logDirectory_ofLookup, h, ← logDirectory_ofLookup]
  · intro verbosity limit path lookup hverbosity hlimit hpath hv hl hp
    have hv' : (ofLookup lookup).verbosity = verbosity.value :=
      getD_number?_eq_iff.mpr (.inl ⟨_, hv, verbosity.said hverbosity⟩)
    have hl' : (ofLookup lookup).limit = limit.value :=
      getD_number?_eq_iff.mpr (.inl ⟨_, hl, limit.said hlimit⟩)
    have hp' : (ofLookup lookup).logDirectory = some path := by
      rw [logDirectory_ofLookup, hp]
      exact Option.filter_some_pos (decide_eq_true hpath)
    rw [← hv', ← hl', ← hp']
    rfl

/-- The least integer, blanks and zeros around it, and a zero below zero; and one more than the
greatest integer, which leaves the default. -/
theorem numbers_are_read_exactly_at_the_ends :
    let least : Spelling := ⟨['\u00A0'], .minus, 4, 9223372036854775808, ['\n'], rfl⟩
    let zero : Spelling := ⟨[], .minus, 0, 0, ['\u2003'], rfl⟩
    let lookup (name : String) : Option String :=
      if name = verbosityVariable then some least.text
      else if name = limitVariable then some zero.text
      else some " "
    let past (_ : String) : Option String := some "9223372036854775808"
    Fits least.value ∧ Fits zero.value ∧ least.text = "\u00A0-00009223372036854775808\n" ∧
      ofLookup lookup =
        { verbosity := -9223372036854775808, limit := 0, logDirectory := some " " } ∧
      (ofLookup past).limit = (ofLookup fun _ => none).limit := by
  intro least zero lookup past
  obtain ⟨hread, -, hback, -⟩ := numbers_are_read_exactly
  have hleast : Fits least.value := by decide
  have hzero : Fits zero.value := by decide
  have hpast : ∀ text, past limitVariable = some text → ∀ m, ¬ Says text m := by
    intro text ht m hm
    have hn : number? "9223372036854775808" = none := by decide
    rw [← Option.some.inj ht, ← number?_eq_some_iff, hn] at hm
    contradiction
  have hnone : ∀ text, (none : Option String) = some text → ∀ m, ¬ Says text m := by
    rintro _ ⟨⟩
  refine ⟨hleast, hzero, by decide,
    hback least zero " " lookup hleast hzero (by decide) rfl rfl rfl, ?_⟩
  rw [((hread past).2.1 100).mpr (.inr ⟨rfl, hpast⟩),
    ((hread fun _ => none).2.1 100).mpr (.inr ⟨rfl, hnone⟩)]

end DiagnosticLog.Settings
