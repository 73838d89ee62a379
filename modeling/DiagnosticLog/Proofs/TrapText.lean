import DiagnosticLog.Proofs.Text.Scanning
import DiagnosticLog.Trap.Reading

/-! The text of stored records is read back as the statements that were written. A quoted string
ends at its first single quote, a comment at its first newline, and everything else of a statement
has a fixed form; so no string can imitate what follows it. -/

namespace DiagnosticLog

/-! ### Strings and labels -/

namespace Quoted

theorem readInside_inside (s : List Char) {rest : List Char} (h : rest.head? ≠ some '"') :
    readInside (inside s ++ '"' :: rest) = some (s, rest) := by
  induction s with
  | nil =>
    cases rest with
    | nil => rfl
    | cons d rest =>
      have hd : d ≠ '"' := by simpa using h
      simp [inside, readInside, hd]
  | cons c s ih =>
    have hc : inside (c :: s) = double c ++ inside s := List.flatMap_cons
    rw [hc, List.append_assoc]
    by_cases hq : c = '"'
    · subst hq
      have hd : double '"' = ['"', '"'] := rfl
      rw [hd, List.cons_append, List.cons_append, List.nil_append, readInside]
      simp [ih]
    · have hd : double c = [c] := if_neg hq
      rw [hd, List.cons_append, List.nil_append, readInside.eq_def]
      simp [hq, ih]

/-- A string is read back from between its quotes, if no quote follows it. -/
theorem read?_quote (s : String) {rest : List Char} (h : rest.head? ≠ some '"') :
    read? ((quote s).toList ++ rest) = some (s, rest) := by
  have hq : (quote s).toList ++ rest = '"' :: (inside s.toList ++ '"' :: rest) := by
    simp [quote]
  rw [hq]
  simp [read?, readInside_inside s.toList h]

end Quoted

theorem Label.read?_text (l : Label) {rest : List Char} (h : Scan.EndsNumeral rest) :
    Label.read? (l.text.toList ++ rest) = some (l, rest) := by
  have hl : l.text.toList ++ rest = '#' :: ((toString l.number).toList ++ rest) := by
    simp [Label.text]
  rw [hl, Label.read?, Scan.after?_cons]
  simp only [Option.bind_eq_bind, Option.bind_some, Scan.natural?_append l.number h]
  rfl

namespace Statement

/-! ### One statement -/

/-- What a reader finds of a statement. -/
def folded : Statement → Statement
  | .comment text => .comment (oneLine text)
  | s => s

theorem ne_newline_of_mem_oneLine {text : String} {c : Char} (h : c ∈ (oneLine text).toList) :
    c ≠ '\n' := by
  simp only [oneLine, String.toList_ofList, List.mem_map] at h
  obtain ⟨d, _, rfl⟩ := h
  split
  · decide
  next hd => exact fun h => hd (.inr h)

theorem readComment_comment (text : String) (rest : List Char) :
    readComment ((Statement.comment text).body.toList ++ '\n' :: rest) =
      some (.comment (oneLine text), '\n' :: rest) := by
  have hb : (Statement.comment text).body.toList ++ '\n' :: rest =
      ['/', '/', ' '] ++ ((oneLine text).toList ++ '\n' :: rest) := by
    simp [body]
  have hne : ∀ c ∈ (oneLine text).toList, decide (c ≠ '\n') = true :=
    fun c hc => decide_eq_true (ne_newline_of_mem_oneLine hc)
  rw [hb, readComment, Scan.after?_append]
  simp only [Option.bind_eq_bind, Option.bind_some, Option.pure_def]
  rw [List.takeWhile_append_of_pos hne, List.dropWhile_append_of_pos hne]
  simp

theorem readDefinition_fresh (l : Label) (rest : List Char) :
    readDefinition ((Statement.fresh l).body.toList ++ rest) = some (.fresh l, rest) := by
  have hb : (Statement.fresh l).body.toList ++ rest = l.text.toList ++ '=' :: '*' :: rest := by
    simp [body]
  rw [hb, readDefinition, l.read?_text (Scan.endsNumeral_cons (by decide) _)]
  simp

theorem readDefinition_keyed (l : Label) (key : String) (rest : List Char) :
    readDefinition ((Statement.keyed l key).body.toList ++ '\n' :: rest) =
      some (.keyed l key, '\n' :: rest) := by
  have hb : (Statement.keyed l key).body.toList ++ '\n' :: rest =
      l.text.toList ++ '=' :: '@' :: ((Quoted.quote key).toList ++ '\n' :: rest) := by
    simp [body]
  have hn : ('\n' :: rest).head? ≠ some '"' := by simp
  rw [hb, readDefinition, l.read?_text (Scan.endsNumeral_cons (by decide) _)]
  simp only [Option.bind_eq_bind, Option.bind_some, Scan.after?_cons, Quoted.read?_quote key hn]
  rfl

/-! What may follow an argument ends it, be it a numeral or a string. -/

theorem endsNumeral_comma (text : List Char) : Scan.EndsNumeral (',' :: text) :=
  Scan.endsNumeral_cons (by decide) text

theorem endsNumeral_close (text : List Char) : Scan.EndsNumeral (')' :: text) :=
  Scan.endsNumeral_cons (by decide) text

theorem head?_comma (text : List Char) : (',' :: text).head? ≠ some '"' := by simp

theorem readDiagnostic_diagnostic (row : DiagnosticRow) (rest : List Char) :
    readDiagnostic ((Statement.diagnostic row).body.toList ++ rest) =
      some (.diagnostic row, rest) := by
  have hb : (Statement.diagnostic row).body.toList ++ rest =
      "diagnostics(".toList ++ (row.id.text.toList ++ ',' :: ((Quoted.quote row.origin).toList ++
        ',' :: ((toString row.rank).toList ++ ',' :: ((Quoted.quote row.category).toList ++
        ',' :: ((Quoted.quote row.message).toList ++ ',' :: ((Quoted.quote row.full).toList ++
        ',' :: (row.location.text.toList ++ ')' :: rest))))))) := by
    simp [body, tuple, arguments]
  rw [hb, readDiagnostic, Scan.after?_append]
  refine Option.bind_eq_some_iff.mpr ⟨_, rfl, ?_⟩
  refine Option.bind_eq_some_iff.mpr ⟨_, Label.read?_text row.id (endsNumeral_comma _), ?_⟩
  refine Option.bind_eq_some_iff.mpr ⟨_, Scan.after?_cons .., ?_⟩
  refine Option.bind_eq_some_iff.mpr ⟨_, Quoted.read?_quote row.origin (head?_comma _), ?_⟩
  refine Option.bind_eq_some_iff.mpr ⟨_, Scan.after?_cons .., ?_⟩
  refine Option.bind_eq_some_iff.mpr ⟨_, Scan.natural?_append row.rank (endsNumeral_comma _), ?_⟩
  refine Option.bind_eq_some_iff.mpr ⟨_, Scan.after?_cons .., ?_⟩
  refine Option.bind_eq_some_iff.mpr ⟨_, Quoted.read?_quote row.category (head?_comma _), ?_⟩
  refine Option.bind_eq_some_iff.mpr ⟨_, Scan.after?_cons .., ?_⟩
  refine Option.bind_eq_some_iff.mpr ⟨_, Quoted.read?_quote row.message (head?_comma _), ?_⟩
  refine Option.bind_eq_some_iff.mpr ⟨_, Scan.after?_cons .., ?_⟩
  refine Option.bind_eq_some_iff.mpr ⟨_, Quoted.read?_quote row.full (head?_comma _), ?_⟩
  refine Option.bind_eq_some_iff.mpr ⟨_, Scan.after?_cons .., ?_⟩
  refine Option.bind_eq_some_iff.mpr ⟨_, Label.read?_text row.location (endsNumeral_close _), ?_⟩
  exact Option.bind_eq_some_iff.mpr ⟨_, Scan.after?_cons .., rfl⟩

theorem readAssociation_association (row : AssociationRow) (rest : List Char) :
    readAssociation ((Statement.association row).body.toList ++ rest) =
      some (.association row, rest) := by
  have hb : (Statement.association row).body.toList ++ rest =
      "diagnostic_for(".toList ++ (row.diagnostic.text.toList ++ ',' :: '@' ::
        ((Quoted.quote row.unit).toList ++ ',' :: ((toString row.unitNumber).toList ++
        ',' :: ((toString row.sequence).toList ++ ')' :: rest)))) := by
    simp [body, tuple, arguments]
  rw [hb, readAssociation, Scan.after?_append]
  refine Option.bind_eq_some_iff.mpr ⟨_, rfl, ?_⟩
  refine Option.bind_eq_some_iff.mpr ⟨_, Label.read?_text row.diagnostic (endsNumeral_comma _), ?_⟩
  refine Option.bind_eq_some_iff.mpr ⟨_, Scan.after?_append [',', '@'] _, ?_⟩
  refine Option.bind_eq_some_iff.mpr ⟨_, Quoted.read?_quote row.unit (head?_comma _), ?_⟩
  refine Option.bind_eq_some_iff.mpr ⟨_, Scan.after?_cons .., ?_⟩
  refine Option.bind_eq_some_iff.mpr
    ⟨_, Scan.natural?_append row.unitNumber (endsNumeral_comma _), ?_⟩
  refine Option.bind_eq_some_iff.mpr ⟨_, Scan.after?_cons .., ?_⟩
  refine Option.bind_eq_some_iff.mpr
    ⟨_, Scan.natural?_append row.sequence (endsNumeral_close _), ?_⟩
  exact Option.bind_eq_some_iff.mpr ⟨_, Scan.after?_cons .., rfl⟩

/-! ### Other statements -/

theorem readDefinition_eq_none {text : List Char} (h : Scan.after? ['#'] text = none) :
    readDefinition text = none := by
  rw [readDefinition, Label.read?, h]
  rfl

theorem readDiagnostic_eq_none {text : List Char}
    (h : Scan.after? "diagnostics(".toList text = none) : readDiagnostic text = none := by
  rw [readDiagnostic, h]
  rfl

theorem readAssociation_eq_none {text : List Char}
    (h : Scan.after? "diagnostic_for(".toList text = none) : readAssociation text = none := by
  rw [readAssociation, h]
  rfl

/-! ### Statements -/

/-- A statement is read back with its newline, whatever follows it. -/
theorem read?_text (s : Statement) (rest : List Char) :
    read? (s.text.toList ++ rest) = some (s.folded, rest) := by
  have ht : s.text.toList ++ rest = s.body.toList ++ '\n' :: rest := by
    simp [text]
  rw [ht]
  cases s with
  | fresh l =>
    simp [read?, readDefinition_fresh, folded]
  | keyed l key =>
    simp [read?, readDefinition_keyed, folded]
  | diagnostic row =>
    have hd := readDefinition_eq_none
      (show Scan.after? ['#'] ((diagnostic row).body.toList ++ '\n' :: rest) = none by
        simp [body, tuple, Scan.after?])
    simp [read?, hd, readDiagnostic_diagnostic, folded]
  | association row =>
    have hd := readDefinition_eq_none
      (show Scan.after? ['#'] ((association row).body.toList ++ '\n' :: rest) = none by
        simp [body, tuple, Scan.after?])
    have hd' := readDiagnostic_eq_none (show
        Scan.after? "diagnostics(".toList ((association row).body.toList ++ '\n' :: rest) = none by
      simp [body, tuple, Scan.after?])
    simp [read?, hd, hd', readAssociation_association, folded]
  | comment text =>
    have hd := readDefinition_eq_none
      (show Scan.after? ['#'] ((comment text).body.toList ++ '\n' :: rest) = none by
        simp [body, Scan.after?])
    have hd' := readDiagnostic_eq_none (show
        Scan.after? "diagnostics(".toList ((comment text).body.toList ++ '\n' :: rest) = none by
      simp [body, Scan.after?])
    have hd'' := readAssociation_eq_none (show
        Scan.after? "diagnostic_for(".toList ((comment text).body.toList ++ '\n' :: rest) = none by
      simp [body, Scan.after?])
    simp [read?, hd, hd', hd'', readComment_comment, folded]

theorem readUpTo_textAll (ss : List Statement) {n : Nat} (h : (textAll ss).toList.length ≤ n) :
    readUpTo n (textAll ss).toList = some (ss.map folded) := by
  induction ss generalizing n with
  | nil => rw [textAll, readUpTo.eq_def]; rfl
  | cons s rest ih =>
    have ht : (textAll (s :: rest)).toList = s.text.toList ++ (textAll rest).toList := by
      simp [textAll]
    obtain ⟨c, tail, hc⟩ : ∃ c tail, s.text.toList = c :: tail := by
      cases hs : s.text.toList with
      | nil => simp [text] at hs
      | cons c tail => exact ⟨c, tail, rfl⟩
    have hr := s.read?_text (textAll rest).toList
    rw [ht, hc, List.cons_append, List.length_cons, List.length_append] at h
    rw [hc, List.cons_append] at hr
    obtain ⟨m, rfl⟩ : ∃ m, n = m + 1 := ⟨n - 1, by omega⟩
    rw [ht, hc, List.cons_append, readUpTo, hr]
    simp only [Option.bind_eq_bind, Option.bind_some]
    rw [ih (by omega)]
    rfl

/-- The statements of a text are read back, but that comments have one line. -/
theorem ofText?_textAll (ss : List Statement) : ofText? (textAll ss) = some (ss.map folded) :=
  readUpTo_textAll ss (Nat.le_refl _)

theorem textAll_append (ss more : List Statement) :
    textAll (ss ++ more) = textAll ss ++ textAll more := by
  induction ss with
  | nil => simp [textAll]
  | cons s rest ih => rw [List.cons_append, textAll, ih, textAll, String.append_assoc]

end Statement

end DiagnosticLog
