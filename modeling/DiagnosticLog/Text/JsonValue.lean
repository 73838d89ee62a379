import DiagnosticLog.Text.Scan

/-! Values of JSON and a reader for their texts. The reader takes every text of the grammar but
those with an escape that stands for half a character; it keeps members in the order of the text,
and numerals as they are written. -/

namespace DiagnosticLog

inductive JsonValue where
  | null
  | bool (b : Bool)
  | number (numeral : List Char)
  | string (s : String)
  | array (items : List JsonValue)
  | object (members : List (String × JsonValue))

namespace JsonValue

/-- The characters that may stand between the parts of a text. -/
def isSpace (c : Char) : Bool := c = ' ' || c = '\t' || c = '\n' || c = '\r'

def skipSpace (text : List Char) : List Char := text.dropWhile isSpace

/-! ### Strings -/

def hexValue? (c : Char) : Option Nat :=
  if '0' ≤ c ∧ c ≤ '9' then some (c.toNat - '0'.toNat)
  else if 'A' ≤ c ∧ c ≤ 'F' then some (c.toNat - 'A'.toNat + 10)
  else if 'a' ≤ c ∧ c ≤ 'f' then some (c.toNat - 'a'.toNat + 10)
  else none

/-- Four hexadecimal digits. -/
def readUnit : List Char → Option (Nat × List Char)
  | a :: b :: c :: d :: text => do
    return (((← hexValue? a) * 16 + (← hexValue? b)) * 256 + (← hexValue? c) * 16 + (← hexValue? d),
      text)
  | _ => none

/-- The character of one unit, or of two of them if the first is the upper half of a character. -/
def readUnits (text : List Char) : Option (Char × List Char) := do
  let (upper, text) ← readUnit text
  if 0xD800 ≤ upper ∧ upper < 0xDC00 then
    let text ← Scan.after? ['\\', 'u'] text
    let (lower, text) ← readUnit text
    if 0xDC00 ≤ lower ∧ lower < 0xE000 then
      return (Char.ofNat (0x10000 + (upper - 0xD800) * 0x400 + (lower - 0xDC00)), text)
    else none
  else if 0xDC00 ≤ upper ∧ upper < 0xE000 then none
  else return (Char.ofNat upper, text)

/-- What follows a backslash. -/
def readEscape : List Char → Option (Char × List Char)
  | [] => none
  | c :: text =>
    match c with
    | '"' => some ('"', text)
    | '\\' => some ('\\', text)
    | '/' => some ('/', text)
    | 'b' => some ('\x08', text)
    | 'f' => some ('\x0C', text)
    | 'n' => some ('\n', text)
    | 'r' => some ('\r', text)
    | 't' => some ('\t', text)
    | 'u' => readUnits text
    | _ => none

/-- The inside of a string of at most so many characters, up to the quote that closes it. -/
def readInside : Nat → List Char → Option (List Char × List Char)
  | _, [] => none
  | 0, _ :: _ => none
  | n + 1, c :: text =>
    if c = '"' then some ([], text)
    else if c = '\\' then do
      let (d, text) ← readEscape text
      let (s, text) ← readInside n text
      return (d :: s, text)
    else if c.toNat < 0x20 then none
    else do
      let (s, text) ← readInside n text
      return (c :: s, text)

def readString (text : List Char) : Option (String × List Char) := do
  let text ← Scan.after? ['"'] text
  let (s, text) ← readInside text.length text
  return (String.ofList s, text)

/-! ### Numerals -/

/-- One digit or more. -/
def readDigits (text : List Char) : Option (List Char × List Char) :=
  if text.takeWhile Char.isDigit = [] then none
  else some (text.takeWhile Char.isDigit, text.dropWhile Char.isDigit)

/-- Zero alone, or digits that do not begin with zero. -/
def readWhole : List Char → Option (List Char × List Char)
  | '0' :: text => some (['0'], text)
  | text => readDigits text

def readFraction : List Char → Option (List Char × List Char)
  | '.' :: text => (readDigits text).map fun (digits, text) => ('.' :: digits, text)
  | text => some ([], text)

def readSign : List Char → List Char × List Char
  | '+' :: text => (['+'], text)
  | '-' :: text => (['-'], text)
  | text => ([], text)

def readExponent : List Char → Option (List Char × List Char)
  | [] => some ([], [])
  | c :: text =>
    if c = 'e' ∨ c = 'E' then
      let (sign, text) := readSign text
      (readDigits text).map fun (digits, text) => (c :: sign ++ digits, text)
    else some ([], c :: text)

def readNumeral (text : List Char) : Option (List Char × List Char) := do
  let (minus, text) := match text with
    | '-' :: text => (['-'], text)
    | text => ([], text)
  let (whole, text) ← readWhole text
  let (fraction, text) ← readFraction text
  let (exponent, text) ← readExponent text
  return (minus ++ whole ++ fraction ++ exponent, text)

/-! ### Values -/

mutual

/-- A value at the front of a text; the number bounds the steps into members and items. -/
def read : Nat → List Char → Option (JsonValue × List Char)
  | 0, _ => none
  | n + 1, text =>
    match skipSpace text with
    | '\x7b' :: text =>
      match skipSpace text with
      | '\x7d' :: text => some (.object [], text)
      | _ => (readMembers n text).map fun (members, text) => (.object members, text)
    | '[' :: text =>
      match skipSpace text with
      | ']' :: text => some (.array [], text)
      | _ => (readItems n text).map fun (items, text) => (.array items, text)
    | '"' :: text => (readString ('"' :: text)).map fun (s, text) => (.string s, text)
    | 'n' :: text => (Scan.after? "ull".toList text).map fun text => (.null, text)
    | 't' :: text => (Scan.after? "rue".toList text).map fun text => (.bool true, text)
    | 'f' :: text => (Scan.after? "alse".toList text).map fun text => (.bool false, text)
    | text => (readNumeral text).map fun (numeral, text) => (.number numeral, text)

/-- The members of an object that has some, and its closing brace. -/
def readMembers : Nat → List Char → Option (List (String × JsonValue) × List Char)
  | 0, _ => none
  | n + 1, text => do
    let (key, text) ← readString (skipSpace text)
    let text ← Scan.after? [':'] (skipSpace text)
    let (value, text) ← read n text
    match skipSpace text with
    | ',' :: text =>
      let (members, text) ← readMembers n text
      return ((key, value) :: members, text)
    | '\x7d' :: text => return ([(key, value)], text)
    | _ => none

/-- The items of an array that has some, and its closing bracket. -/
def readItems : Nat → List Char → Option (List JsonValue × List Char)
  | 0, _ => none
  | n + 1, text => do
    let (value, text) ← read n text
    match skipSpace text with
    | ',' :: text =>
      let (items, text) ← readItems n text
      return (value :: items, text)
    | ']' :: text => return ([value], text)
    | _ => none

end

/-- The value a text stands for. A step into a member or an item takes a character at least. -/
def ofText? (text : String) : Option JsonValue := do
  let (value, rest) ← read (text.toList.length + 1) text.toList
  if skipSpace rest = [] then some value else none

end JsonValue

end DiagnosticLog
