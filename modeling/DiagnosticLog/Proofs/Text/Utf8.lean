import DiagnosticLog.Text.Utf8

/-! The bytes of a text are read back as the text. A character of several bytes is followed through
its states: the first byte sets the bounds of the second, and every byte adds six bits. -/

namespace DiagnosticLog.Utf8

/-! ### One byte -/

theorem lead_one {b : UInt8} (h : b.toNat < 0x80) : lead b = ([Char.ofNat b.toNat], .start) := by
  simp [lead, h]

theorem lead_two {b : UInt8} (h : 0xC2 ≤ b.toNat) (h' : b.toNat < 0xE0) :
    lead b = ([], .inside 1 0x80 0xBF (b.toNat - 0xC0)) := by
  unfold lead
  rw [if_neg (by omega), if_neg (by omega), if_pos h']

theorem lead_three {b : UInt8} (h : 0xE0 ≤ b.toNat) (h' : b.toNat < 0xF0) :
    lead b = ([], .inside 2 (if b.toNat = 0xE0 then 0xA0 else 0x80)
      (if b.toNat = 0xED then 0x9F else 0xBF) (b.toNat - 0xE0)) := by
  unfold lead
  rw [if_neg (by omega), if_neg (by omega), if_neg (by omega), if_pos h']

theorem lead_four {b : UInt8} (h : 0xF0 ≤ b.toNat) (h' : b.toNat < 0xF5) :
    lead b = ([], .inside 3 (if b.toNat = 0xF0 then 0x90 else 0x80)
      (if b.toNat = 0xF4 then 0x8F else 0xBF) (b.toNat - 0xF0)) := by
  unfold lead
  rw [if_neg (by omega), if_neg (by omega), if_neg (by omega), if_neg (by omega), if_pos h']

/-- A byte in its bounds that is not the last one of its character. -/
theorem step_inside {b : UInt8} {missing low high : Nat} (value : Nat) (h : low ≤ b.toNat)
    (h' : b.toNat ≤ high) :
    step b (.inside (missing + 2) low high value) =
      ([], .inside (missing + 1) 0x80 0xBF (value * 0x40 + (b.toNat - 0x80))) := by
  simp only [step]
  rw [if_pos ⟨h, h'⟩, if_neg (by omega)]
  rfl

/-- The last byte of a character. -/
theorem step_last {b : UInt8} {low high : Nat} (value : Nat) (h : low ≤ b.toNat)
    (h' : b.toNat ≤ high) :
    step b (.inside 1 low high value) =
      ([Char.ofNat (value * 0x40 + (b.toNat - 0x80))], .start) := by
  simp only [step]
  rw [if_pos ⟨h, h'⟩, if_pos (by omega)]

/-! ### One character -/

section

variable {v : Nat} (rest : List UInt8)

theorem decodeFrom_one (h : v ≤ 0x7F) :
    decodeFrom .start (UInt8.ofNat v :: rest) = Char.ofNat v :: decodeFrom .start rest := by
  have ha := UInt8.toNat_ofNat_of_lt' (show v < 256 by omega)
  generalize UInt8.ofNat v = a at ha ⊢
  rw [decodeFrom_cons, step, lead_one (by omega), ha]
  rfl

theorem decodeFrom_two (h : 0x7F < v) (h' : v ≤ 0x7FF) :
    decodeFrom .start
        (UInt8.ofNat (v / 64 % 0x20 + 0xC0) :: UInt8.ofNat (v % 0x40 + 0x80) :: rest) =
      Char.ofNat v :: decodeFrom .start rest := by
  have ha := UInt8.toNat_ofNat_of_lt' (show v / 64 % 0x20 + 0xC0 < 256 by omega)
  have hb := UInt8.toNat_ofNat_of_lt' (show v % 0x40 + 0x80 < 256 by omega)
  generalize UInt8.ofNat (v / 64 % 0x20 + 0xC0) = a at ha ⊢
  generalize UInt8.ofNat (v % 0x40 + 0x80) = b at hb ⊢
  have hv : (a.toNat - 0xC0) * 0x40 + (b.toNat - 0x80) = v := by omega
  rw [decodeFrom_cons, step, lead_two (by omega) (by omega), decodeFrom_cons,
    step_last _ (by omega) (by omega), hv]
  rfl

/-- A character of three bytes is no half of a character, which the bounds of the second byte see
to. -/
theorem decodeFrom_three (h : 0x7FF < v) (h' : v ≤ 0xFFFF) (hs : v < 0xD800 ∨ 0xDFFF < v) :
    decodeFrom .start
        (UInt8.ofNat (v / 4096 % 0x10 + 0xE0) :: UInt8.ofNat (v / 64 % 0x40 + 0x80) ::
          UInt8.ofNat (v % 0x40 + 0x80) :: rest) =
      Char.ofNat v :: decodeFrom .start rest := by
  have ha := UInt8.toNat_ofNat_of_lt' (show v / 4096 % 0x10 + 0xE0 < 256 by omega)
  have hb := UInt8.toNat_ofNat_of_lt' (show v / 64 % 0x40 + 0x80 < 256 by omega)
  have hc := UInt8.toNat_ofNat_of_lt' (show v % 0x40 + 0x80 < 256 by omega)
  generalize UInt8.ofNat (v / 4096 % 0x10 + 0xE0) = a at ha ⊢
  generalize UInt8.ofNat (v / 64 % 0x40 + 0x80) = b at hb ⊢
  generalize UInt8.ofNat (v % 0x40 + 0x80) = c at hc ⊢
  have hlow : (if a.toNat = 0xE0 then 0xA0 else 0x80) ≤ b.toNat := by split <;> omega
  have hhigh : b.toNat ≤ (if a.toNat = 0xED then 0x9F else 0xBF) := by split <;> omega
  have hv : ((a.toNat - 0xE0) * 0x40 + (b.toNat - 0x80)) * 0x40 + (c.toNat - 0x80) = v := by omega
  rw [decodeFrom_cons, step, lead_three (by omega) (by omega), decodeFrom_cons,
    step_inside _ hlow hhigh, decodeFrom_cons, step_last _ (by omega) (by omega), hv]
  rfl

theorem decodeFrom_four (h : 0xFFFF < v) (h' : v < 0x110000) :
    decodeFrom .start
        (UInt8.ofNat (v / 262144 % 0x08 + 0xF0) :: UInt8.ofNat (v / 4096 % 0x40 + 0x80) ::
          UInt8.ofNat (v / 64 % 0x40 + 0x80) :: UInt8.ofNat (v % 0x40 + 0x80) :: rest) =
      Char.ofNat v :: decodeFrom .start rest := by
  have ha := UInt8.toNat_ofNat_of_lt' (show v / 262144 % 0x08 + 0xF0 < 256 by omega)
  have hb := UInt8.toNat_ofNat_of_lt' (show v / 4096 % 0x40 + 0x80 < 256 by omega)
  have hc := UInt8.toNat_ofNat_of_lt' (show v / 64 % 0x40 + 0x80 < 256 by omega)
  have hd := UInt8.toNat_ofNat_of_lt' (show v % 0x40 + 0x80 < 256 by omega)
  generalize UInt8.ofNat (v / 262144 % 0x08 + 0xF0) = a at ha ⊢
  generalize UInt8.ofNat (v / 4096 % 0x40 + 0x80) = b at hb ⊢
  generalize UInt8.ofNat (v / 64 % 0x40 + 0x80) = c at hc ⊢
  generalize UInt8.ofNat (v % 0x40 + 0x80) = d at hd ⊢
  have hlow : (if a.toNat = 0xF0 then 0x90 else 0x80) ≤ b.toNat := by split <;> omega
  have hhigh : b.toNat ≤ (if a.toNat = 0xF4 then 0x8F else 0xBF) := by split <;> omega
  have hv : (((a.toNat - 0xF0) * 0x40 + (b.toNat - 0x80)) * 0x40 + (c.toNat - 0x80)) * 0x40 +
      (d.toNat - 0x80) = v := by omega
  rw [decodeFrom_cons, step, lead_four (by omega) (by omega), decodeFrom_cons,
    step_inside _ hlow hhigh, decodeFrom_cons, step_inside _ (by omega) (by omega),
    decodeFrom_cons, step_last _ (by omega) (by omega), hv]
  rfl

end

/-- A character is read from its bytes, whatever follows them. -/
theorem decodeFrom_char (c : Char) (rest : List UInt8) :
    decodeFrom .start (String.utf8EncodeChar c ++ rest) = c :: decodeFrom .start rest := by
  have hv : c.val.toNat < 0xD800 ∨ 0xDFFF < c.val.toNat ∧ c.val.toNat < 0x110000 := c.valid
  have hc : Char.ofNat c.val.toNat = c := Char.ofNat_toNat c
  unfold String.utf8EncodeChar
  generalize c.val.toNat = v at hv hc ⊢
  subst hc
  dsimp only
  split
  · exact decodeFrom_one rest (by omega)
  split
  · exact decodeFrom_two rest (by omega) (by omega)
  split
  · exact decodeFrom_three rest (by omega) (by omega) (by omega)
  · exact decodeFrom_four rest (by omega) (by omega)

/-! ### Whole texts -/

@[simp] theorem encode_empty : encode "" = [] := rfl

theorem encode_append (s t : String) : encode (s ++ t) = encode s ++ encode t := by
  simp [encode, String.toList_append]

/-- The bytes of a text are read back as the text. -/
theorem decode_encode (s : String) : decode (encode s) = s := by
  have h : ∀ cs : List Char, decodeFrom .start (cs.flatMap String.utf8EncodeChar) = cs := by
    intro cs
    induction cs with
    | nil => rfl
    | cons c rest ih => rw [List.flatMap_cons, decodeFrom_char, ih]
  rw [decode, encode, h, String.ofList_toList]

end DiagnosticLog.Utf8
