/-! Going through a list from its front with a state that every item may change. What is given out
is gathered on the way, last answer first, so that the list may be long. -/

namespace DiagnosticLog

variable {σ α β : Type}

/-! ### One answer for each item -/

/-- The answers to some items after answers that are there already, and the state at the end. -/
def inTurnOnto (step : σ → α → β × σ) (given : List β) (s : σ) : List α → List β × σ
  | [] => (given.reverse, s)
  | item :: rest =>
    let (answer, s) := step s item
    inTurnOnto step (answer :: given) s rest

/-- The answers to some items and the state at the end. -/
def inTurn (step : σ → α → β × σ) (s : σ) (items : List α) : List β × σ :=
  inTurnOnto step [] s items

theorem inTurnOnto_eq (step : σ → α → β × σ) (given : List β) (s : σ) (items : List α) :
    inTurnOnto step given s items =
      (given.reverse ++ (inTurn step s items).1, (inTurn step s items).2) := by
  induction items generalizing given s with
  | nil => simp [inTurn, inTurnOnto]
  | cons item rest ih =>
    simp only [inTurn, inTurnOnto]
    rw [ih (_ :: given), ih [_]]
    simp

@[simp] theorem inTurn_nil (step : σ → α → β × σ) (s : σ) : inTurn step s [] = ([], s) := rfl

@[simp] theorem inTurn_cons (step : σ → α → β × σ) (s : σ) (item : α) (rest : List α) :
    inTurn step s (item :: rest) =
      ((step s item).1 :: (inTurn step (step s item).2 rest).1,
        (inTurn step (step s item).2 rest).2) := by
  simp only [inTurn, inTurnOnto]
  rw [inTurnOnto_eq step [_]]
  simp [inTurn]

theorem inTurn_append (step : σ → α → β × σ) (s : σ) (items more : List α) :
    inTurn step s (items ++ more) =
      ((inTurn step s items).1 ++ (inTurn step (inTurn step s items).2 more).1,
        (inTurn step (inTurn step s items).2 more).2) := by
  induction items generalizing s with
  | nil => simp
  | cons item rest ih => simp [ih]

theorem length_inTurn (step : σ → α → β × σ) (s : σ) (items : List α) :
    (inTurn step s items).1.length = items.length := by
  induction items generalizing s with
  | nil => rfl
  | cons item rest ih => simp [ih]

/-! ### Any number of answers for each item -/

/-- What some items and then the end of the list give out, after what is there already. -/
def transduceOnto (step : σ → α → List β × σ) (finish : σ → List β) (given : List β) (s : σ) :
    List α → List β
  | [] => given.reverseAux (finish s)
  | item :: rest =>
    let (answers, s) := step s item
    transduceOnto step finish (answers.reverseAux given) s rest

/-- What some items give out and then the end of the list. -/
def transduce (step : σ → α → List β × σ) (finish : σ → List β) (s : σ) (items : List α) :
    List β :=
  transduceOnto step finish [] s items

theorem transduceOnto_eq (step : σ → α → List β × σ) (finish : σ → List β) (given : List β) (s : σ)
    (items : List α) :
    transduceOnto step finish given s items =
      given.reverse ++ transduce step finish s items := by
  induction items generalizing given s with
  | nil => simp [transduce, transduceOnto, List.reverseAux_eq]
  | cons item rest ih =>
    simp only [transduce, transduceOnto, List.reverseAux_eq]
    rw [ih (_ ++ given), ih (_ ++ [])]
    simp

@[simp] theorem transduce_cons (step : σ → α → List β × σ) (finish : σ → List β) (s : σ) (item : α)
    (rest : List α) :
    transduce step finish s (item :: rest) =
      (step s item).1 ++ transduce step finish (step s item).2 rest := by
  simp only [transduce, transduceOnto]
  rw [transduceOnto_eq step finish (List.reverseAux _ [])]
  simp [transduce, List.reverseAux_eq]

end DiagnosticLog
