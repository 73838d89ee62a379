import DiagnosticLog.Proofs.Stages
import DiagnosticLog.Proofs.Writer

/-! What a call adds to the records of its unit. Whatever fails, records are only added, and a
report adds them in one order: its location, then its diagnostic, then its association. -/

namespace DiagnosticLog

/-! ### One stage -/

/-- Whoever is asked for a location only adds records. -/
theorem Place.records_locate (place : Place) (trap : TrapWriter) :
    ∃ added, (place.locate trap).2.records = trap.records ++ added := by
  cases place with
  | unknown =>
    obtain ⟨labels, h⟩ := trap.records_unknownLocation
    exact ⟨_, h⟩
  | fresh => exact ⟨[], by simp [locate]⟩
  | provided calls answer => exact (trap.records_run calls).1

@[simp] theorem Place.keeps_locate (place : Place) (trap : TrapWriter) :
    (place.locate trap).2.keeps = trap.keeps := by
  cases place with
  | unknown => exact trap.keeps_unknownLocation
  | fresh => rfl
  | provided calls answer => exact (trap.records_run calls).2

/-- Whether no record is stored in search of a place, but for that of the unknown location. -/
def Place.storesNone : Place → Bool
  | .provided calls _ => calls.isEmpty
  | .unknown | .fresh => true

namespace Engine

variable (e : Engine)

theorem records_associate (trap : TrapWriter) (state : UnitState) (diagnostic : Label) :
    ∃ associations : List AssociationRow,
      (associate trap state diagnostic).2.1.records =
        trap.records ++ associations.map .association := by
  let row : AssociationRow :=
    ⟨diagnostic, AssociationRow.compilation, state.fileNumber, state.count⟩
  have h : (associate trap state diagnostic).2.1.records = _ :=
    trap.records_write .association (.association row)
  split at h
  · exact ⟨[row], h⟩
  · exact ⟨[], h⟩

@[simp] theorem keeps_associate (trap : TrapWriter) (state : UnitState) (diagnostic : Label) :
    (associate trap state diagnostic).2.1.keeps = trap.keeps :=
  trap.keeps_write ..

/-- The records of a report: at most one diagnostic, then its association. Where records are kept
and nothing fails, the diagnostic is there. -/
theorem records_store (now : String) (r : Report) (body : String) (location : Label)
    (trap : TrapWriter) (state : Option UnitState) :
    let stored := e.store now r body location trap state
    ∃ (rows : List DiagnosticRow) (associations : List AssociationRow),
      stored.2.1.records =
        trap.records ++ (rows.map .diagnostic ++ associations.map .association) ∧
      (∀ row ∈ rows, row = e.row now r body ⟨trap.lastLabel + 1⟩ location) ∧
      (trap.keeps = true → stored.1 = .ok () → rows.length = 1) := by
  intro stored
  let row := e.row now r body ⟨trap.lastLabel + 1⟩ location
  let written := trap.freshLabel.2.writeDiagnostic row
  have hw : written.2.records =
      trap.records ++ if trap.keeps = true ∧ written.1 = .ok () then [.diagnostic row] else [] :=
    trap.freshLabel.2.records_write .diagnostic (.diagnostic row)
  -- the diagnostic is there if it was let through to a store that keeps records
  obtain ⟨rows, hr, hrow, hlen⟩ : ∃ rows : List DiagnosticRow,
      written.2.records = trap.records ++ rows.map .diagnostic ∧ (∀ d ∈ rows, d = row) ∧
        (trap.keeps = true → written.1 = .ok () → rows.length = 1) := by
    split at hw
    · exact ⟨[row], hw, by simp, fun _ _ => rfl⟩
    next h => exact ⟨[], hw, by simp, fun hk hok => absurd ⟨hk, hok⟩ h⟩
  rcases e.store_cases now r body location trap state with
    ⟨cause, _, h⟩ | ⟨hc, rfl, h⟩ | ⟨s, hc, rfl, h⟩
  · have hs : stored = (.error cause, written.2, state) := h
    exact ⟨rows, [], by simp [hs, hr], hrow, by simp [hs]⟩
  · have hs : stored = (.ok (), written.2, none) := h
    exact ⟨rows, [], by simp [hs, hr], hrow, fun hk _ => hlen hk hc⟩
  · obtain ⟨associations, ha⟩ := records_associate written.2 s trap.freshLabel.1
    have hs : stored.2.1 = (associate written.2 s trap.freshLabel.1).2.1 :=
      congrArg (·.2.1) h
    exact ⟨rows, associations, by rw [hs, ha, hr, List.append_assoc], hrow,
      fun hk _ => hlen hk hc⟩

@[simp] theorem keeps_store (now : String) (r : Report) (body : String) (location : Label)
    (trap : TrapWriter) (state : Option UnitState) :
    (e.store now r body location trap state).2.1.keeps = trap.keeps := by
  have hw : (trap.freshLabel.2.writeDiagnostic
      (e.row now r body trap.freshLabel.1 location)).2.keeps = trap.keeps :=
    trap.freshLabel.2.keeps_write ..
  rcases e.store_cases now r body location trap state with
    ⟨cause, _, h⟩ | ⟨_, _, h⟩ | ⟨s, _, _, h⟩
  · rw [h, hw]
  · rw [h, hw]
  · rw [h, keeps_associate, hw]

/-! ### A whole report -/

/-- What a report that goes out adds to the records once its location was looked for: at most one
diagnostic, and its association. Where records are kept and nothing fails, the diagnostic is
there. -/
theorem records_emit (now : String) (r : Report) (body : String) (place : Place)
    (trap : TrapWriter) (state : Option UnitState) :
    let o := e.emit now r body place.locate trap state
    ∃ (rows : List DiagnosticRow) (associations : List AssociationRow),
      o.trap.records = (place.locate trap).2.records ++
        (rows.map .diagnostic ++ associations.map .association) ∧
      (∀ row ∈ rows, ∃ id location, row = e.row now r body id location) ∧
      (trap.keeps = true → o.receipt.result = .ok () → rows.length = 1) := by
  intro o
  rcases e.emit_cases now r body place.locate trap state with
    ⟨cause, _, h⟩ | ⟨location, _, hs⟩
  · have ho : o = _ := h
    exact ⟨[], [], by simp [ho], by simp, by simp [ho]⟩
  · obtain ⟨rows, associations, hr, hrow, hlen⟩ :=
      e.records_store now r body location (place.locate trap).2 state
    have hrow' : ∀ row ∈ rows, ∃ id location, row = e.row now r body id location :=
      fun row h => ⟨_, _, hrow row h⟩
    rw [place.keeps_locate] at hlen
    rcases hs with ⟨cause, _, h⟩ | ⟨hok, h⟩
    · have ho : o = _ := h
      exact ⟨rows, associations, by simpa [ho] using hr, hrow', by simp [ho]⟩
    · have ho : o = _ := h
      exact ⟨rows, associations, by simpa [ho, finish_eq] using hr, hrow', fun hk _ => hlen hk hok⟩

@[simp] theorem keeps_emit (now : String) (r : Report) (body : String) (place : Place)
    (trap : TrapWriter) (state : Option UnitState) :
    (e.emit now r body place.locate trap state).trap.keeps = trap.keeps := by
  rw [trap_emit]
  split <;> simp

end Engine

end DiagnosticLog
