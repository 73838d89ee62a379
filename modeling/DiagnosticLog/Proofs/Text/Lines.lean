import DiagnosticLog.Text.Lines

/-! Lines that were put together come apart again, if no line holds the newline. The lines of any
text are its pieces between the newlines, up to a carriage return and an empty end. -/

namespace DiagnosticLog.Lines

/-! ### Between lines -/

theorem join_eq_intercalate (lines : List String) : join lines = "\n".intercalate lines := by
  have hf : ∀ (rest : List String) (line : String),
      rest.foldl (fun text next => text ++ "\n" ++ next) line =
        "\n".intercalate (line :: rest) := by
    intro rest
    induction rest with
    | nil => simp
    | cons next rest ih =>
      intro line
      rw [List.foldl_cons, ih, String.append_assoc, String.intercalate_cons_append,
        String.intercalate_cons_append, String.intercalate_cons_cons, String.append_assoc]
  cases lines with
  | nil => rw [join, String.intercalate_nil]
  | cons line rest => exact hf rest line

theorem join_append_singleton {lines : List String} (h : lines ≠ []) (line : String) :
    join (lines ++ [line]) = join lines ++ ("\n" ++ line) := by
  simp only [join_eq_intercalate]
  rw [String.intercalate_append_of_ne_nil h (List.cons_ne_nil _ _), String.intercalate_singleton,
    String.append_assoc]

/-! ### After lines -/

section

variable {α : Type} [DecidableEq α] {cr nl : α}

/-- Lines with a newline after each. -/
def terminated (nl : α) (lines : List (List α)) : List α := lines.flatMap (· ++ [nl])

omit [DecidableEq α] in
theorem terminated_cons (line : List α) (rest : List (List α)) :
    terminated nl (line :: rest) = line ++ nl :: terminated nl rest := by
  rw [terminated, List.flatMap_cons, List.append_assoc]
  rfl

theorem splitFrom_line {line : List α} (h : nl ∉ line) (begun rest : List α) :
    splitFrom cr nl begun (line ++ nl :: rest) =
      finish cr (line.reverse ++ begun) :: splitFrom cr nl [] rest := by
  induction line generalizing begun with
  | nil => rw [List.nil_append, splitFrom_cons, if_pos rfl, List.reverse_nil, List.nil_append]
  | cons x line ih =>
    have hx : x ≠ nl := fun hx => h (by simp [hx])
    have hl : nl ∉ line := fun hl => h (List.mem_cons_of_mem x hl)
    rw [List.cons_append, splitFrom_cons, if_neg hx, ih hl, List.reverse_cons, List.append_assoc,
      List.singleton_append]

theorem finish_reverse {line : List α} (h : line.getLast? ≠ some cr) :
    finish cr line.reverse = line := by
  cases hl : line.reverse with
  | nil => rw [finish, List.reverse_eq_nil_iff.mp hl]
  | cons x rest =>
    have hx : x ≠ cr := by
      rintro rfl
      apply h
      rw [← List.head?_reverse, hl, List.head?_cons]
    rw [finish, if_neg hx, ← hl, List.reverse_reverse]

/-- Terminated lines come apart as they were, if none ends with a carriage return. -/
theorem split_terminated {lines : List (List α)} (h : ∀ line ∈ lines, nl ∉ line)
    (hc : ∀ line ∈ lines, line.getLast? ≠ some cr) : split cr nl (terminated nl lines) = lines := by
  induction lines with
  | nil => rfl
  | cons line rest ih =>
    have hl : finish cr (line.reverse ++ []) = line := by
      rw [List.append_nil, finish_reverse (hc line List.mem_cons_self)]
    rw [split, terminated_cons, splitFrom_line (h line List.mem_cons_self), hl]
    have hr := ih (fun l hl => h l (List.mem_cons_of_mem line hl))
      (fun l hl => hc l (List.mem_cons_of_mem line hl))
    rw [← split, hr]

/-- Between the newlines stand the lines, and after the last newline nothing. -/
theorem splitOn_terminated {lines : List (List α)} (h : ∀ line ∈ lines, nl ∉ line) :
    (terminated nl lines).splitOn nl = lines ++ [[]] := by
  induction lines with
  | nil => rfl
  | cons line rest ih =>
    have hr := ih fun l hl => h l (List.mem_cons_of_mem line hl)
    rw [terminated_cons, List.splitOn_append_cons_self_of_not_mem (h line List.mem_cons_self), hr,
      List.cons_append]

/-! ### Pieces between newlines -/

/-- A line without a carriage return at its end. -/
def chomp (cr : α) (line : List α) : List α :=
  if line.getLast? = some cr then line.dropLast else line

/-- The lines of a text, by its pieces between the newlines. A newline ends each of them but the
last, which is a line only if it is not empty. -/
def ofPieces (cr : α) (pieces : List (List α)) : List (List α) :=
  pieces.dropLast.map (chomp cr) ++ pieces.getLast?.toList.filter fun piece => decide (piece ≠ [])

theorem finish_reverse_eq_chomp (line : List α) : finish cr line.reverse = chomp cr line := by
  unfold chomp
  by_cases h : line.getLast? = some cr
  · obtain ⟨front, rfl⟩ := List.getLast?_eq_some_iff.mp h
    rw [if_pos h, List.reverse_append, List.reverse_singleton, List.singleton_append, finish,
      if_pos rfl, List.reverse_reverse, List.dropLast_concat]
  · rw [if_neg h, finish_reverse h]

theorem splitFrom_of_not_mem {text : List α} (h : nl ∉ text) (begun : List α) :
    splitFrom cr nl begun text = last (text.reverse ++ begun) := by
  induction text generalizing begun with
  | nil => rfl
  | cons x text ih =>
    have hx : x ≠ nl := fun hx => h (by simp [hx])
    have ht : nl ∉ text := fun ht => h (List.mem_cons_of_mem x ht)
    rw [splitFrom_cons, if_neg hx, ih ht, List.reverse_cons, List.append_assoc,
      List.singleton_append]

theorem split_of_not_mem {text : List α} (h : nl ∉ text) :
    split cr nl text = if text = [] then [] else [text] := by
  rw [split, splitFrom_of_not_mem h, List.append_nil, last, List.reverse_reverse]
  simp only [List.reverse_eq_nil_iff]

/-- The first line of a text, and the lines of the rest. -/
theorem split_append_cons {line : List α} (h : nl ∉ line) (rest : List α) :
    split cr nl (line ++ nl :: rest) = chomp cr line :: split cr nl rest := by
  rw [split, splitFrom_line h, List.append_nil, finish_reverse_eq_chomp]
  rfl

/-- A newline parts the lines, whatever stands before it. -/
theorem split_append_newline (before after : List α) :
    split cr nl (before ++ nl :: after) = split cr nl (before ++ [nl]) ++ split cr nl after := by
  have hs : ∀ begun : List α, splitFrom cr nl begun (before ++ nl :: after) =
      splitFrom cr nl begun (before ++ [nl]) ++ splitFrom cr nl [] after := by
    induction before with
    | nil =>
      intro begun
      rw [List.nil_append, List.nil_append, splitFrom_cons, splitFrom_cons, if_pos rfl, if_pos rfl]
      rfl
    | cons x before ih =>
      intro begun
      rw [List.cons_append, List.cons_append, splitFrom_cons, splitFrom_cons, ih, ih]
      split <;> rfl
  exact hs []

theorem split_eq_ofPieces (text : List α) :
    split cr nl text = ofPieces cr (text.splitOn nl) := by
  by_cases h : nl ∈ text
  · obtain ⟨line, rest, rfl, hl⟩ := List.eq_append_cons_of_mem h
    have hn : rest.splitOn nl ≠ [] := List.splitOn_ne_nil nl rest
    rw [split_append_cons hl, List.splitOn_append_cons_self_of_not_mem hl, split_eq_ofPieces rest,
      ofPieces, ofPieces, List.dropLast_cons_of_ne_nil hn, List.map_cons, List.cons_append,
      List.getLast?_cons, List.getLast?_eq_some_getLast hn]
    rfl
  · rw [split_of_not_mem h, List.splitOn_eq_singleton h, ofPieces]
    by_cases ht : text = [] <;> simp [ht]
  termination_by text.length
  decreasing_by
    subst_vars
    simp
    omega

end

end DiagnosticLog.Lines
