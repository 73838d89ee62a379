import DiagnosticLog.Proofs.Limiting
import DiagnosticLog.Proofs.Text.Scanning

/-! Call sites as they are shown. The name of a file may hold colons and digits, but a line and a
column hold no colon, so the shown form is taken apart from its right end. Hence call sites that are
counted apart are told apart by their reader. -/

namespace DiagnosticLog

namespace Scan

/-- A text is cut at its last mark in one way. -/
theorem eq_of_cut_at_last {α : Type} {mark : α} {text text' rest rest' : List α}
    (h : mark ∉ rest) (h' : mark ∉ rest') (he : text ++ mark :: rest = text' ++ mark :: rest') :
    text = text' ∧ rest = rest' := by
  rcases List.append_eq_append_iff.mp he with ⟨between, ht, hr⟩ | ⟨between, ht, hr⟩
  · cases between with
    | nil => exact ⟨by rw [ht, List.append_nil], (List.cons.inj hr).2⟩
    | cons x between =>
      -- the mark of the longer text would stand in the rest of the shorter one
      refine absurd ?_ h
      rw [(List.cons.inj hr).2]
      exact List.mem_append_right _ List.mem_cons_self
  · cases between with
    | nil => exact ⟨by rw [ht, List.append_nil], (List.cons.inj hr).2.symm⟩
    | cons x between =>
      refine absurd ?_ h'
      rw [(List.cons.inj hr).2]
      exact List.mem_append_right _ List.mem_cons_self

end Scan

namespace Numeral

theorem colon_not_mem_toString (n : Nat) : ':' ∉ (toString n).toList :=
  fun h => absurd (isDigit_of_mem_toString h) (by decide)

end Numeral

namespace Origin

theorem toList_text (o : Origin) :
    o.text.toList =
      (o.file.toList ++ ':' :: (toString o.line).toList) ++ ':' :: (toString o.column).toList := by
  simp [text]

/-- No two call sites are shown alike. -/
theorem text_inj {o o' : Origin} : o.text = o'.text ↔ o = o' := by
  refine ⟨fun h => ?_, congrArg text⟩
  have hl := congrArg String.toList h
  rw [toList_text, toList_text] at hl
  obtain ⟨hfront, hcolumn⟩ := Scan.eq_of_cut_at_last (Numeral.colon_not_mem_toString _)
    (Numeral.colon_not_mem_toString _) hl
  obtain ⟨hfile, hline⟩ := Scan.eq_of_cut_at_last (Numeral.colon_not_mem_toString _)
    (Numeral.colon_not_mem_toString _) hfront
  rw [String.toList_inj] at hfile hline hcolumn
  rw [Origin.mk.injEq]
  exact ⟨hfile, Numeral.toString_inj.mp hline, Numeral.toString_inj.mp hcolumn⟩

/-- What is shown of a call site ends with a digit. -/
theorem text_ne_placeholder (o : Origin) : o.text ≠ placeholder := by
  intro h
  have hlast : '>' ∈ (toString o.column).toList.getLast? := by
    have hp := congrArg (fun s => s.toList.getLast?) h
    simp only [toList_text, List.getLast?_append, List.getLast?_cons] at hp
    have hd : (toString o.column).toList ≠ [] := Numeral.toString_ne_nil _
    obtain ⟨last, hl⟩ := Option.ne_none_iff_exists'.mp (mt List.getLast?_eq_none_iff.mp hd)
    rw [hl] at hp ⊢
    exact hp
  exact absurd (Numeral.isDigit_of_mem_toString (List.mem_of_getLast? hlast)) (by decide)

/-- A missing call site is not shown like any that is there. -/
theorem shown_inj {o o' : Option Origin} : shown o = shown o' ↔ o = o' := by
  refine ⟨fun h => ?_, congrArg shown⟩
  cases o with
  | none =>
    cases o' with
    | none => rfl
    | some o' => exact absurd h.symm o'.text_ne_placeholder
  | some o =>
    cases o' with
    | none => exact absurd h o.text_ne_placeholder
    | some o' => rw [text_inj.mp h]

end Origin

/-! ### What a reader sees of a call site -/

namespace Report

/-- What the line of a report begins with. -/
def opening (r : Report) : String := "Diagnostic(" ++ Origin.shown r.origin ++ "): "

theorem opening_inj {r r' : Report} : r.opening = r'.opening ↔ r.origin = r'.origin := by
  rw [opening, opening, String.append_left_inj, String.append_right_inj, Origin.shown_inj]

theorem limitNotice_inj {o o' : Origin} : limitNotice o = limitNotice o' ↔ o = o' := by
  unfold limitNotice
  rw [String.append_left_inj, String.append_right_inj, Origin.text_inj]

/-- The notice of a call site is not that of a report without one. -/
theorem limitNotice_ne_missingCallerNotice (o : Origin) : limitNotice o ≠ missingCallerNotice := by
  intro h
  have hc := congrArg (fun s => s.toList[4]?) h
  have hl : (limitNotice o).toList[4]? = some 'L' := by
    unfold limitNotice
    rw [String.toList_append, String.toList_append, List.append_assoc]
    rfl
  rw [hl] at hc
  exact absurd hc (by decide)

end Report

/-- A line begins with the opening of a report, and ends with the notice if the report carries
one. -/
structure Message.Shows (m : Message) (r : Report) (notice : Option String) : Prop where
  opening : ∃ rest, m.text = r.opening ++ rest
  notice : ∀ text, notice = some text → ∃ front, m.text = front ++ "\n" ++ text

namespace Engine

variable {e e' : Engine} {r r' : Report}

/-- A notice is that of the call site, or says that there is none. -/
theorem notice_of_origin {notice : String} (h : (e.screen r).1 = .goesOut (some notice)) :
    notice = (r.origin.map Report.limitNotice).getD Report.missingCallerNotice := by
  cases ho : r.origin with
  | none =>
    rw [e.screen_of_none ho] at h
    exact (Option.some.inj (Admission.goesOut.inj h)).symm
  | some o =>
    rw [e.screen_of_some ho] at h
    dsimp only at h
    split at h
    · exact absurd (Admission.goesOut.inj h) (by rintro ⟨⟩)
    · exact (Option.some.inj (Admission.goesOut.inj h)).symm
    · contradiction

/-- Reports with different call sites do not carry the same notice. -/
theorem notice_ne {notice notice' : String} (ho : r.origin ≠ r'.origin)
    (h : (e.screen r).1 = .goesOut (some notice))
    (h' : (e'.screen r').1 = .goesOut (some notice')) : notice ≠ notice' := by
  rw [notice_of_origin h, notice_of_origin h']
  cases hr : r.origin with
  | none =>
    cases hr' : r'.origin with
    | none => exact absurd (hr.trans hr'.symm) ho
    | some o' => exact (Report.limitNotice_ne_missingCallerNotice o').symm
  | some o =>
    cases hr' : r'.origin with
    | none => exact Report.limitNotice_ne_missingCallerNotice o
    | some o' =>
      rw [hr, hr'] at ho
      exact fun hn => ho (congrArg some (Report.limitNotice_inj.mp hn))

/-- The line of a diagnostic shows its call site. -/
theorem shows_diagnostic {now : String} {locate : Locator} {trap : TrapWriter}
    {state : Option UnitState} {m : Message}
    (h : (e.diagnostic now r locate trap state).receipt.line = some m) :
    ∃ notice, (e.screen r).1 = .goesOut notice ∧ m.Shows r notice := by
  rcases e.diagnostic_cases now r locate trap state with ⟨_, hd⟩ | ⟨notice, hs, hd⟩
  · rw [hd] at h
    contradiction
  · rw [hd] at h
    obtain rfl := (e.screen r).2.line_emit h
    obtain ⟨rest, hh⟩ : ∃ rest, r.heading = r.opening ++ rest := ⟨_, rfl⟩
    refine ⟨notice, hs, ?_, ?_⟩
    · exact ⟨rest ++ r.body (UnitState.trailLines state) notice, by rw [hh, String.append_assoc]⟩
    · rintro text rfl
      refine ⟨r.heading ++ r.body (UnitState.trailLines state) none, ?_⟩
      rw [Report.body_some, String.append_assoc, String.append_assoc]

end Engine

/-- A call site is known by what is shown of it. No two call sites are shown alike, whatever their
files are called, and none is shown like a missing one. So call sites that are counted apart at one
severity have different forms and different notices. The line of a diagnostic begins with the form
of its call site and ends with its notice, if it carries one; and of reports with different call
sites neither the openings nor the notices are the same. -/
theorem shown_origins_identify_sites :
    (∀ o o' : Origin, o.text = o'.text → o = o') ∧
    (∀ o : Origin, o.text ≠ "<unknown location>") ∧
    (∀ (t : Tally) (key key' : Tally.Key), key.severity = key'.severity →
      (t.record key).2.count key' = t.count key' →
      key.origin.text ≠ key'.origin.text ∧
        Report.limitNotice key.origin ≠ Report.limitNotice key'.origin) ∧
    (∀ (e : Engine) (now : String) (r : Report) (locate : Locator) (trap : TrapWriter)
      (state : Option UnitState) (m : Message),
      (e.diagnostic now r locate trap state).receipt.line = some m →
      ∃ notice, (e.screen r).1 = .goesOut notice ∧ m.Shows r notice) ∧
    ∀ (e e' : Engine) (r r' : Report), r.origin ≠ r'.origin →
      r.opening ≠ r'.opening ∧
      ∀ notice notice', (e.screen r).1 = .goesOut (some notice) →
        (e'.screen r').1 = .goesOut (some notice') → notice ≠ notice' := by
  refine ⟨fun o o' => Origin.text_inj.mp, Origin.text_ne_placeholder, ?_, ?_, ?_⟩
  · intro t key key' hs hcount
    have hk : key ≠ key' := by
      rintro rfl
      rw [t.count_record, if_pos rfl] at hcount
      omega
    have ho : key.origin ≠ key'.origin := by
      intro ho
      apply hk
      rw [Tally.Key.mk.injEq]
      exact ⟨ho, hs⟩
    exact ⟨mt Origin.text_inj.mp ho, mt Report.limitNotice_inj.mp ho⟩
  · intro e now r locate trap state m h
    exact Engine.shows_diagnostic h
  · intro e e' r r' ho
    exact ⟨mt Report.opening_inj.mp ho, fun _ _ => Engine.notice_ne ho⟩

/-- The name of one file ends like a line of the other; and a file has the name of a missing call
site. -/
theorem shown_origins_identify_sites_digits :
    let o : Origin := ⟨"a.rs:1", 2, 3⟩
    let o' : Origin := ⟨"a.rs", 1, 23⟩
    let odd : Origin := ⟨"<unknown location>", 0, 0⟩
    let free : Engine := .ofStream { limit := 0 } (.memory {})
    let strict : Engine := .ofStream { limit := 1 } (.memory {})
    let raise (origin : Option Origin) : Report := { severity := .warn, message := "odd", origin }
    let trap : TrapWriter := .recording fun _ _ => false
    let call := free.diagnostic "t" (raise (some odd)) Place.unknown.locate trap none
    let m : Message := ⟨"WARN", "Diagnostic(<unknown location>:0:0): odd", "t"⟩
    o.text ≠ o'.text ∧ Report.limitNotice o ≠ Report.limitNotice o' ∧
      odd.text ≠ "<unknown location>" ∧ call.receipt.line = some m ∧
      (∃ notice, (free.screen (raise (some odd))).1 = .goesOut notice ∧
        m.Shows (raise (some odd)) notice) ∧
      (raise (some odd)).opening ≠ (raise none).opening ∧
      (strict.screen (raise (some odd))).1 = .goesOut (some (Report.limitNotice odd)) ∧
      Report.limitNotice odd ≠ Report.missingCallerNotice := by
  intro o o' odd free strict raise trap call m
  obtain ⟨htext, hplaceholder, hcounted, hline, hapart⟩ := shown_origins_identify_sites
  have hm : call.receipt.line = some m := by decide
  have hcount : (free.tally.record ⟨o, .warn⟩).2.count ⟨o', .warn⟩ =
      free.tally.count ⟨o', .warn⟩ := by
    rw [Tally.count_record, if_neg (by decide)]
  have hstrict : (strict.screen (raise (some odd))).1 =
      .goesOut (some (Report.limitNotice odd)) := by
    have hn : strict.occurrences ⟨odd, .warn⟩ = 0 := Std.HashMap.getD_empty
    rw [strict.screen_of_some rfl, hn]
    rfl
  obtain ⟨-, hnotice⟩ := hcounted free.tally ⟨o, .warn⟩ ⟨o', .warn⟩ rfl hcount
  obtain ⟨hopening, hnotices⟩ := hapart strict free (raise (some odd)) (raise none) (by decide)
  exact ⟨fun h => absurd (htext o o' h) (by decide), hnotice, hplaceholder odd, hm,
    hline free "t" _ _ trap none m hm, hopening, hstrict, hnotices _ _ hstrict rfl⟩

end DiagnosticLog
