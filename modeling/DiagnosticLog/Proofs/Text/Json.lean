import DiagnosticLog.Message
import DiagnosticLog.Proofs.Text.Scanning
import DiagnosticLog.Text.JsonValue

/-! The JSON of a message is read back as the strings of the message. An escaped character never
begins with the quote that ends a string, and holds no control character. -/

namespace DiagnosticLog

namespace JsonString

/-- Whether a text has no control character. -/
def printable (text : List Char) : Bool := text.all fun c => decide (0x20 ≤ c.toNat)

theorem printable_append (text more : List Char) :
    printable (text ++ more) = (printable text && printable more) :=
  List.all_append

theorem printable_escapeChar (c : Char) : printable (escapeChar c) = true := by
  have hd : ∀ n < 16, decide (0x20 ≤ (hexDigit n).toNat) = true := by decide
  unfold escapeChar
  split
  case h_8 =>
    split
    case isTrue h =>
      have h₁ := hd (c.toNat / 16) (by omega)
      have h₂ := hd (c.toNat % 16) (by omega)
      simp only [printable, List.all_cons, h₁, h₂]
      rfl
    case isFalse h =>
      simp only [printable, List.all_cons, List.all_nil, Bool.and_true]
      exact decide_eq_true (by omega)
  all_goals rfl

theorem printable_escape (s : String) : printable (escape s).toList = true := by
  rw [escape, String.toList_ofList, printable, List.all_flatMap, List.all_eq_true]
  intro c _
  exact printable_escapeChar c

end JsonString

namespace Message

open JsonString

theorem printable_member {key : String} (hk : printable key.toList = true) (value : String) :
    printable (member key value).toList = true := by
  simp only [member, String.toList_append, printable_append, hk, printable_escape]
  rfl

/-- The JSON of a message has no control character, so it stays on one line. -/
theorem printable_json (origin : String) (m : Message) :
    printable (m.json origin).toList = true := by
  have ho := printable_member (show printable "origin".toList = true from rfl) origin
  have hs := printable_member (show printable "timestamp".toList = true from rfl) m.stamp
  have hk := printable_member (show printable "kind".toList = true from rfl) m.kind
  have ht := printable_member (show printable "message".toList = true from rfl) m.text
  simp only [json, String.toList_append, printable_append, ho, hs, hk, ht]
  rfl

end Message

namespace JsonValue

open JsonString

theorem hexValue?_hexDigit : ∀ n < 16, hexValue? (hexDigit n) = some n := by
  decide

/-- Four digits of a control character are read as the character. -/
theorem readUnits_control {c : Char} (h : c.toNat < 0x20) (rest : List Char) :
    readUnits ('0' :: '0' :: hexDigit (c.toNat / 16) :: hexDigit (c.toNat % 16) :: rest) =
      some (c, rest) := by
  have h₀ : hexValue? '0' = some 0 := by decide
  have h₁ := hexValue?_hexDigit (c.toNat / 16) (by omega)
  have h₂ := hexValue?_hexDigit (c.toNat % 16) (by omega)
  have hv : (0 * 16 + 0) * 256 + c.toNat / 16 * 16 + c.toNat % 16 = c.toNat := by omega
  have hu : readUnit ('0' :: '0' :: hexDigit (c.toNat / 16) :: hexDigit (c.toNat % 16) :: rest) =
      some (c.toNat, rest) := by
    simp only [readUnit, h₀, h₁, h₂, Option.bind_eq_bind, Option.bind_some, hv]
    rfl
  rw [readUnits, hu]
  simp only [Option.bind_eq_bind, Option.bind_some]
  rw [if_neg (by omega), if_neg (by omega), Char.ofNat_toNat]
  rfl

theorem readInside_backslash (n : Nat) {rest text : List Char} {d : Char}
    (h : readEscape rest = some (d, text)) :
    readInside (n + 1) ('\\' :: rest) =
      (readInside n text).map fun (s, text) => (d :: s, text) := by
  rw [readInside, if_neg (by decide), if_pos rfl, h]
  simp only [Option.bind_eq_bind, Option.bind_some]
  cases readInside n text <;> rfl

/-- An escaped character is read back, whatever follows it. -/
theorem readInside_escapeChar (n : Nat) (c : Char) (rest : List Char) :
    readInside (n + 1) (escapeChar c ++ rest) =
      (readInside n rest).map fun (s, text) => (c :: s, text) := by
  unfold escapeChar
  split
  case h_8 hq hs _ _ _ _ _ =>
    split
    case isTrue h => exact readInside_backslash n (readUnits_control h rest)
    case isFalse h =>
      rw [List.cons_append, List.nil_append, readInside, if_neg hs, if_neg hq, if_neg h]
      cases readInside n rest <;> rfl
  all_goals exact readInside_backslash n rfl

/-- The inside of a string is read back, with a step for each character and one for the quote. -/
theorem readInside_escape (cs : List Char) {n : Nat} (h : cs.length < n) (rest : List Char) :
    readInside n (cs.flatMap escapeChar ++ '"' :: rest) = some (cs, rest) := by
  induction cs generalizing n with
  | nil =>
    obtain ⟨m, rfl⟩ : ∃ m, n = m + 1 := ⟨n - 1, by simp at h; omega⟩
    rw [List.flatMap_nil, List.nil_append, readInside, if_pos rfl]
  | cons c cs ih =>
    rw [List.length_cons] at h
    obtain ⟨m, rfl⟩ : ∃ m, n = m + 1 := ⟨n - 1, by omega⟩
    rw [List.flatMap_cons, List.append_assoc, readInside_escapeChar, ih (by omega)]
    rfl

theorem length_le_escape (cs : List Char) : cs.length ≤ (cs.flatMap escapeChar).length := by
  have h : ∀ c, 1 ≤ (escapeChar c).length := by
    intro c
    unfold escapeChar
    split
    case h_8 => split <;> simp
    all_goals simp
  induction cs with
  | nil => simp
  | cons c cs ih =>
    have hc := h c
    rw [List.flatMap_cons, List.length_append, List.length_cons]
    omega

/-- A string is read back from between its quotes. -/
theorem readString_escape (s : String) (rest : List Char) :
    readString ('"' :: ((escape s).toList ++ '"' :: rest)) = some (s, rest) := by
  have hs : (escape s).toList = s.toList.flatMap escapeChar := String.toList_ofList
  have hl : s.toList.length < (s.toList.flatMap escapeChar ++ '"' :: rest).length := by
    have h := length_le_escape s.toList
    rw [List.length_append, List.length_cons]
    omega
  rw [readString, Scan.after?_cons, hs]
  simp only [Option.bind_eq_bind, Option.bind_some, readInside_escape s.toList hl, Option.pure_def,
    String.ofList_toList]

/-! ### Members -/

/-- A value that is a string is read back. -/
theorem read_string (n : Nat) (s : String) (rest : List Char) :
    read (n + 1) (' ' :: '"' :: ((escape s).toList ++ '"' :: rest)) = some (.string s, rest) := by
  have hs : skipSpace (' ' :: '"' :: ((escape s).toList ++ '"' :: rest)) =
      '"' :: ((escape s).toList ++ '"' :: rest) := rfl
  rw [read, hs]
  simp only [readString_escape, Option.map_some]

/-- A member, as it stands after the brace or the comma before it. -/
def memberText (key value : String) (rest : List Char) : List Char :=
  ' ' :: ((Message.member key value).toList ++ rest)

/-- The key and the value of a member are read, if the key needs no escapes. -/
theorem readMembers_member {key : String} (hk : escape key = key) (value : String) (n : Nat)
    (rest : List Char) :
    readMembers (n + 2) (memberText key value rest) =
      match skipSpace rest with
      | ',' :: text =>
        (readMembers (n + 1) text).bind fun (members, text) =>
          some ((key, .string value) :: members, text)
      | '\x7d' :: text => some ([(key, .string value)], text)
      | _ => none := by
  have ht : skipSpace (memberText key value rest) =
      '"' :: ((escape key).toList ++ '"' :: ':' :: ' ' :: '"' ::
        ((escape value).toList ++ '"' :: rest)) := by
    rw [hk, memberText, Message.member]
    simp [skipSpace, isSpace]
  have hc : ∀ text, skipSpace (':' :: text) = ':' :: text := fun _ => rfl
  rw [readMembers, ht, readString_escape]
  simp only [Option.bind_eq_bind, Option.bind_some, hc, Scan.after?_cons, read_string]
  rfl

theorem readMembers_comma {key : String} (hk : escape key = key) (value : String) (n : Nat)
    (rest : List Char) :
    readMembers (n + 2) (memberText key value (',' :: rest)) =
      (readMembers (n + 1) rest).bind fun (members, text) =>
        some ((key, .string value) :: members, text) :=
  readMembers_member hk value n (',' :: rest)

theorem readMembers_last {key : String} (hk : escape key = key) (value : String) (n : Nat)
    (rest : List Char) :
    readMembers (n + 2) (memberText key value (' ' :: '\x7d' :: rest)) =
      some ([(key, .string value)], rest) :=
  readMembers_member hk value n (' ' :: '\x7d' :: rest)

/-- The JSON of a message is read as an object with four members, whose values are the strings of
the message. -/
theorem ofText?_json (origin : String) (m : Message) :
    ofText? (m.json origin) = some (.object
      [("origin", .string origin), ("timestamp", .string m.stamp), ("kind", .string m.kind),
        ("message", .string m.text)]) := by
  have ht : (m.json origin).toList =
      '\x7b' :: memberText "origin" origin (',' :: memberText "timestamp" m.stamp
        (',' :: memberText "kind" m.kind (',' :: memberText "message" m.text [' ', '\x7d']))) := by
    simp [Message.json, memberText]
  -- four members and a string take five steps
  obtain ⟨n, hn⟩ : ∃ n, (m.json origin).toList.length = n + 5 := by
    have h : 5 ≤ (m.json origin).toList.length := by
      rw [ht]
      simp [memberText]
      omega
    exact ⟨(m.json origin).toList.length - 5, by omega⟩
  have hv : read (n + 6) (m.json origin).toList = some (.object
      [("origin", .string origin), ("timestamp", .string m.stamp), ("kind", .string m.kind),
        ("message", .string m.text)], []) := by
    have hb : ∀ text, skipSpace ('\x7b' :: text) = '\x7b' :: text := fun _ => rfl
    have hq : ∀ rest, skipSpace (memberText "origin" origin rest) =
        '"' :: ("origin\": \"".toList ++ (escape origin).toList ++ '"' :: rest) := by
      intro rest
      simp [memberText, Message.member, skipSpace, isSpace]
    rw [read, ht, hb]
    simp only [hq]
    rw [readMembers_comma (by decide), readMembers_comma (by decide),
      readMembers_comma (by decide), readMembers_last (by decide)]
    rfl
  rw [ofText?, hn]
  simp only [Option.bind_eq_bind, hv, Option.bind_some]
  rfl

end JsonValue

end DiagnosticLog
