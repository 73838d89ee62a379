import DiagnosticLog.InTurn

/-! UTF-8 bytes of a text, and reading bytes that need not be UTF-8. The reader replaces each
longest piece that begins like a character and does not end like one by U+FFFD, and then goes on
with the byte that broke the piece. -/

namespace DiagnosticLog.Utf8

def encode (s : String) : List UInt8 :=
  s.toList.flatMap String.utf8EncodeChar

/-- Stands for a piece that is not UTF-8. -/
def replacement : Char := '\uFFFD'

/-- Where the reader stands: between two characters, or inside one. -/
inductive State where
  | start
  /-- So many bytes are missing; the next one lies between the bounds, and the value so far is
  what the bytes read contribute. -/
  | inside (missing : Nat) (low high : Nat) (value : Nat)
  deriving DecidableEq

/-- The characters completed by a byte that begins a character, and the state after it. -/
def lead (byte : UInt8) : List Char × State :=
  let b := byte.toNat
  if b < 0x80 then ([Char.ofNat b], .start)
  else if b < 0xC2 then ([replacement], .start)
  else if b < 0xE0 then ([], .inside 1 0x80 0xBF (b - 0xC0))
  else if b < 0xF0 then
    ([], .inside 2 (if b = 0xE0 then 0xA0 else 0x80) (if b = 0xED then 0x9F else 0xBF) (b - 0xE0))
  else if b < 0xF5 then
    ([], .inside 3 (if b = 0xF0 then 0x90 else 0x80) (if b = 0xF4 then 0x8F else 0xBF) (b - 0xF0))
  else ([replacement], .start)

/-- The characters completed by one more byte, and the state after it. -/
def step (byte : UInt8) : State → List Char × State
  | .start => lead byte
  | .inside missing low high value =>
    if low ≤ byte.toNat ∧ byte.toNat ≤ high then
      let value := value * 0x40 + (byte.toNat - 0x80)
      if missing ≤ 1 then ([Char.ofNat value], .start)
      else ([], .inside (missing - 1) 0x80 0xBF value)
    else
      let (chars, state) := lead byte
      (replacement :: chars, state)

/-- What the reader makes of the end of the bytes. -/
def finish : State → List Char
  | .start => []
  | .inside .. => [replacement]

/-- The characters of some bytes, from a state on. -/
def decodeFrom (state : State) (bytes : List UInt8) : List Char :=
  transduce (fun state byte => step byte state) finish state bytes

theorem decodeFrom_cons (state : State) (byte : UInt8) (rest : List UInt8) :
    decodeFrom state (byte :: rest) =
      (step byte state).1 ++ decodeFrom (step byte state).2 rest :=
  transduce_cons ..

/-- The text of some bytes. -/
def decode (bytes : List UInt8) : String :=
  String.ofList (decodeFrom .start bytes)

end DiagnosticLog.Utf8
