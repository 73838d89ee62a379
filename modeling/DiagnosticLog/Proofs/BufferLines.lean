import DiagnosticLog.TextBuffer
import DiagnosticLog.Proofs.Text.Lines
import DiagnosticLog.Proofs.Text.Lossy

/-! The lines of a buffer in memory. Bytes may come in any pieces, and need not be UTF-8. The text is
read from all of them at once and then taken apart into lines; but a newline and a carriage return
are bytes below 0x80, so reading each line by itself gives the same. Hence a broken character stays
in its line. -/

namespace DiagnosticLog

/-! ### Reading line by line -/

namespace Utf8

/-- The carriage return at the end of a line is one byte, and one character. -/
theorem decodeFrom_chomp (line : List UInt8) :
    decodeFrom .start (Lines.chomp 0x0D line) = Lines.chomp '\r' (decodeFrom .start line) := by
  rcases List.eq_nil_or_concat line with rfl | ⟨front, byte, rfl⟩
  · rfl
  rw [List.concat_eq_append]
  by_cases hb : byte = 0x0D
  · subst hb
    have hd : decodeFrom .start (front ++ [0x0D]) = decodeFrom .start front ++ ['\r'] :=
      decodeFrom_append_ascii apart_start front [] (by decide)
    simp [Lines.chomp, hd]
  · have hc : (decodeFrom .start (front ++ [byte])).getLast? ≠ some '\r' := by
      intro hc
      have he := toNat_of_getLast?_decodeFrom apart_start hc (by decide)
      exact hb (UInt8.toNat_inj.mp he)
    simp [Lines.chomp, hb, hc]

theorem newline_not_mem_decodeFrom {line : List UInt8} (h : 0x0A ∉ line) :
    '\n' ∉ decodeFrom .start line := by
  intro hc
  obtain ⟨byte, hb, he⟩ := exists_of_mem_decodeFrom apart_start hc (by decide)
  obtain rfl : byte = 0x0A := UInt8.toNat_inj.mp he
  exact h hb

/-- The lines of a text are the texts of its lines. -/
theorem split_decodeFrom (bytes : List UInt8) :
    Lines.split '\r' '\n' (decodeFrom .start bytes) =
      (Lines.split 0x0D 0x0A bytes).map (decodeFrom .start) := by
  by_cases h : 0x0A ∈ bytes
  · obtain ⟨line, rest, rfl, hl⟩ := List.eq_append_cons_of_mem h
    have hd : decodeFrom .start (line ++ 0x0A :: rest) =
        decodeFrom .start line ++ '\n' :: decodeFrom .start rest :=
      decodeFrom_append_ascii apart_start line rest (by decide)
    rw [hd, Lines.split_append_cons (newline_not_mem_decodeFrom hl), Lines.split_append_cons hl,
      split_decodeFrom rest, List.map_cons, decodeFrom_chomp]
  · rw [Lines.split_of_not_mem h, Lines.split_of_not_mem (newline_not_mem_decodeFrom h)]
    by_cases hb : bytes = []
    · subst hb
      rfl
    · rw [if_neg hb, if_neg (decodeFrom_ne_nil apart_start (.inr hb))]
      rfl
  termination_by bytes.length
  decreasing_by
    subst_vars
    simp
    omega

end Utf8

/-! ### Calls on a buffer -/

namespace TextBuffer

inductive Call where
  | write (bytes : List UInt8)
  | clear
  deriving DecidableEq

/-- The bytes written by calls after the last clear among them, one write after the other. -/
def Call.kept : List Call → List UInt8
  | [] => []
  | .clear :: rest => kept rest
  | .write bytes :: rest => if .clear ∈ rest then kept rest else bytes ++ kept rest

def perform (b : TextBuffer) : Call → TextBuffer
  | .write bytes => b.write bytes
  | .clear => b.clear

/-- Calls one after the other. -/
def run (b : TextBuffer) (calls : List Call) : TextBuffer := calls.foldl perform b

theorem bytes_run (b : TextBuffer) (calls : List Call) :
    (b.run calls).bytes = (if .clear ∈ calls then [] else b.bytes) ++ Call.kept calls := by
  induction calls generalizing b with
  | nil => exact (List.append_nil _).symm
  | cons call rest ih =>
    have hr : b.run (call :: rest) = (b.perform call).run rest := rfl
    rw [hr, ih]
    cases call with
    | clear => simp [perform, clear, bytes, Call.kept]
    | write bytes =>
      by_cases hc : .clear ∈ rest
      · simp [hc, Call.kept]
      · simp [hc, Call.kept, perform, bytes_write]

/-- The texts of the lines of some bytes: the pieces between the newlines, each read by itself. -/
def lineTexts (bytes : List UInt8) : List String :=
  (Lines.ofPieces 0x0D (bytes.splitOn 0x0A)).map Utf8.decode

theorem lineTexts_eq (bytes : List UInt8) :
    lineTexts bytes = (Lines.split 0x0D 0x0A bytes).map Utf8.decode := by
  rw [lineTexts, Lines.split_eq_ofPieces]

theorem lines_eq (b : TextBuffer) : b.lines = lineTexts b.bytes := by
  rw [lineTexts_eq, lines, contents, Lines.ofString, Utf8.decode, String.toList_ofList,
    Utf8.split_decodeFrom, List.map_map]
  rfl

theorem lineTexts_append_newline (before after : List UInt8) :
    lineTexts (before ++ 0x0A :: after) = lineTexts (before ++ [0x0A]) ++ lineTexts after := by
  rw [lineTexts_eq, Lines.split_append_newline, List.map_append, ← lineTexts_eq, ← lineTexts_eq]

end TextBuffer

/-- Invalid bytes stay in their line. What a buffer shows after any calls is settled by the bytes
written since the last clear, in whatever pieces they came. If they are the bytes of a text, that
text is shown. The lines are the pieces of the bytes between the newlines, less a carriage return
before a newline and an empty end, and each is read by itself; so nothing before a newline changes a
line after it, and nothing after a newline changes a line before it. -/
theorem invalid_bytes_stay_in_their_line (calls : List TextBuffer.Call) :
    let b := TextBuffer.run {} calls
    let bytes := TextBuffer.Call.kept calls
    b.contents = Utf8.decode bytes ∧
    (∀ text, bytes = Utf8.encode text → b.contents = text) ∧
    b.lines = TextBuffer.lineTexts bytes ∧
    ∀ before after, bytes = before ++ 0x0A :: after →
      b.lines = TextBuffer.lineTexts (before ++ [0x0A]) ++ TextBuffer.lineTexts after := by
  intro b bytes
  have hb : b.bytes = bytes := by
    have hn : TextBuffer.bytes {} = [] := rfl
    rw [TextBuffer.bytes_run, hn, ite_self, List.nil_append]
  have hc : b.contents = Utf8.decode bytes := by
    rw [TextBuffer.contents, hb]
  have hl : b.lines = TextBuffer.lineTexts bytes := by
    rw [TextBuffer.lines_eq, hb]
  refine ⟨hc, ?_, hl, ?_⟩
  · intro text ht
    rw [hc, ht, Utf8.decode_encode]
  · intro before after hs
    rw [hl, hs, TextBuffer.lineTexts_append_newline]

/-- A character that is broken off by the end of its line is replaced there, and a character whose
bytes come in two writes is whole. -/
theorem invalid_bytes_stay_in_their_line_broken_off :
    let calls : List TextBuffer.Call := [.write [0x78], .clear, .write [0x61, 0xE2],
      .write [0x82, 0x0D, 0x0A, 0xC3], .write [0xA9, 0x0A, 0x0D, 0xED, 0xA0]]
    let b := TextBuffer.run {} calls
    TextBuffer.Call.kept calls =
        [0x61, 0xE2, 0x82, 0x0D] ++ 0x0A :: [0xC3, 0xA9, 0x0A, 0x0D, 0xED, 0xA0] ∧
      b.lines = ["a\uFFFD"] ++ ["é", "\r\uFFFD\uFFFD"] := by
  intro calls b
  have hk : TextBuffer.Call.kept calls =
      [0x61, 0xE2, 0x82, 0x0D] ++ 0x0A :: [0xC3, 0xA9, 0x0A, 0x0D, 0xED, 0xA0] := by
    decide
  refine ⟨hk, ?_⟩
  rw [(invalid_bytes_stay_in_their_line calls).2.2.2 _ _ hk]
  decide

end DiagnosticLog
