import Mathlib.Data.List.Basic
import DiagnosticLog.InTurn

/-! A bound on the bytes that are printed. What is printed with room for so many bytes in all is what
is printed without a bound, up to the bound. As long as everything fits, the bound makes no
difference; the deed that would pass it fails, and from then on nothing is printed. -/

namespace DiagnosticLog

/-- Something that prints bytes and can be given room for so many bytes in all. -/
structure Printer (σ : Type) where
  /-- The bytes that were printed. -/
  bytes : σ → List UInt8
  /-- The same with room for so many bytes in all. -/
  capped : Nat → σ → σ
  /-- There is room for everything. -/
  Free : σ → Prop
  /-- There was room for so many bytes, and there is none left. -/
  Full : Nat → σ → Prop
  bytes_capped : ∀ c s, bytes (capped c s) = bytes s

namespace Printer

variable {σ α β : Type} (P : Printer σ) (c : Nat)

/-- On one side more bytes were printed than there is room for, and on the other side they were cut
off. -/
structure CutOff (s s' : σ) : Prop where
  passed : c < (P.bytes s).length
  full : P.Full c s'
  bytes : P.bytes s' = (P.bytes s).take c

/-- A deed without a bound and with one. What it prints fits, and the bound makes no difference; or
it is cut off, and the deed fails. -/
inductive Cut (fails : α → Prop) (x y : α × σ) : Prop
  | fits (room : (P.bytes x.2).length ≤ c) (same : y = (x.1, P.capped c x.2))
  | passes (cut : P.CutOff c x.2 y.2) (failed : fails y.1)

/-- A deed that can do no more than a bound lets it. -/
structure Obeys (fails : α → Prop) (deed : σ → α × σ) : Prop where
  grows : ∀ s, P.bytes s <+: P.bytes (deed s).2
  free : ∀ {s}, P.Free s → P.Free (deed s).2
  cut : ∀ {s}, P.Free s → (P.bytes s).length ≤ c →
    P.Cut c fails (deed s) (deed (P.capped c s))
  full : ∀ {s}, P.Full c s → P.Full c (deed s).2 ∧ P.bytes (deed s).2 = P.bytes s

variable {P c}

theorem prefix_of_eq {s t : σ} (h : P.bytes t = P.bytes s) : P.bytes s <+: P.bytes t :=
  ⟨[], (List.append_nil _).trans h.symm⟩

theorem CutOff.step {s s' t t' : σ} (h : P.CutOff c s s') (hg : P.bytes s <+: P.bytes t)
    (hf : P.Full c t') (hb : P.bytes t' = P.bytes s') : P.CutOff c t t' where
  passed := Nat.lt_of_lt_of_le h.passed hg.length_le
  full := hf
  bytes := by
    obtain ⟨more, hm⟩ := hg
    rw [hb, h.bytes, ← hm, List.take_append_of_le_length (Nat.le_of_lt h.passed)]

namespace Obeys

variable {fails : α → Prop} {fails' : β → Prop}

/-- A deed that prints nothing and does not look at the bound. -/
theorem silent {k : σ → σ} (answer : α) (hb : ∀ s, P.bytes (k s) = P.bytes s)
    (hc : ∀ s, k (P.capped c s) = P.capped c (k s)) (hfree : ∀ s, P.Free s → P.Free (k s))
    (hfull : ∀ s, P.Full c s → P.Full c (k s)) : P.Obeys c fails fun s => (answer, k s) where
  grows s := prefix_of_eq (hb s)
  free h := hfree _ h
  cut {s} _ hs := .fits (by rw [hb]; exact hs) (by rw [hc])
  full h := ⟨hfull _ h, hb _⟩

theorem idle (answer : α) : P.Obeys c fails fun s => (answer, s) :=
  silent answer (fun _ => rfl) (fun _ => rfl) (fun _ h => h) fun _ h => h

/-- What a deed reads first must not be the bound. -/
theorem read (deed : β → σ → α × σ) (look : σ → β) (hl : ∀ s, look (P.capped c s) = look s)
    (h : ∀ b, P.Obeys c fails (deed b)) : P.Obeys c fails fun s => deed (look s) s where
  grows s := (h (look s)).grows s
  free {s} hs := (h (look s)).free hs
  cut {s} hs hc := by
    rw [hl]
    exact (h (look s)).cut hs hc
  full {s} hs := (h (look s)).full hs

theorem mono {fails' : α → Prop} {deed : σ → α × σ} (h : P.Obeys c fails deed)
    (hf : ∀ a, fails a → fails' a) : P.Obeys c fails' deed where
  grows := h.grows
  free := h.free
  cut hs hc := by
    cases h.cut hs hc with
    | fits room same => exact .fits room same
    | passes cut failed => exact .passes cut (hf _ failed)
  full := h.full

/-- One deed and then another that goes by its answer. Where the first is cut off, the second has to
fail. -/
theorem bind {deed : σ → α × σ} {next : α → σ → β × σ} (h : P.Obeys c fails deed)
    (h' : ∀ a, P.Obeys c fails' (next a))
    (hf : ∀ a s, fails a → P.Full c s → fails' (next a s).1) :
    P.Obeys c fails' fun s => next (deed s).1 (deed s).2 where
  grows s := (h.grows s).trans ((h' _).grows _)
  free hs := (h' _).free (h.free hs)
  cut {s} hs hc := by
    cases h.cut hs hc with
    | fits room same =>
      rw [same]
      exact (h' _).cut (h.free hs) room
    | passes cut failed =>
      obtain ⟨hfull, hb⟩ := (h' (deed (P.capped c s)).1).full cut.full
      exact .passes (cut.step ((h' _).grows _) hfull hb) (hf _ _ failed cut.full)
  full hs := by
    obtain ⟨hfull, hb⟩ := h.full hs
    obtain ⟨hfull', hb'⟩ := (h' (deed _).1).full hfull
    exact ⟨hfull', hb'.trans hb⟩

/-- What is done first may be something that prints nothing. -/
theorem after {k : σ → σ} {deed : σ → α × σ} (hk : P.Obeys c (fun _ => False) fun s => ((), k s))
    (h : P.Obeys c fails deed) : P.Obeys c fails fun s => deed (k s) :=
  hk.bind (fun _ => h) fun _ _ hf => hf.elim

theorem map {deed : σ → α × σ} (h : P.Obeys c fails deed) (f : α → β)
    (hf : ∀ a, fails a → fails' (f a)) : P.Obeys c fails' fun s => (deed s).map f id :=
  h.bind (fun a => idle (f a)) fun a _ ha _ => hf a ha

end Obeys

/-- Go on if all went well so far, or else give up. -/
def proceed {ε : Type} (lost : ε → β) (next : α → σ → β × σ) : Except ε α → σ → β × σ
  | .error cause, s => (lost cause, s)
  | .ok a, s => next a s

theorem Obeys.proceed {ε : Type} {fails : Except ε α → Prop} {fails' : β → Prop}
    {deed : σ → Except ε α × σ} {lost : ε → β} {next : α → σ → β × σ}
    (h : P.Obeys c fails deed) (h' : ∀ a, P.Obeys c fails' (next a))
    (hl : ∀ cause, fails (.error cause) → fails' (lost cause))
    (hn : ∀ a s, fails (.ok a) → P.Full c s → fails' (next a s).1) :
    P.Obeys c fails' fun s => Printer.proceed lost next (deed s).1 (deed s).2 := by
  refine h.bind (fun a => ?_) fun a s ha hs => ?_
  · cases a with
    | error cause => exact idle (lost cause)
    | ok a => exact h' a
  · cases a with
    | error cause => exact hl cause ha
    | ok a => exact hn a s ha hs

/-! ### Runs -/

/-- Without a bound and with one: the same as long as all fits, or cut off. -/
inductive Stays (P : Printer σ) (c : Nat) (s s' : σ) : Prop
  | fits (room : (P.bytes s).length ≤ c) (free : P.Free s) (same : s' = P.capped c s)
  | cutOff (cut : P.CutOff c s s')

/-- One call of a run without a bound, from `s`, and the same call of the run with the bound, from
`s'`. The bytes on the second side are those of the first side up to the bound. As long as these fit,
answers and states are the same but for the bound. The call that passes it fails in the way that is
said first. Later calls print nothing, and are told what is said last. -/
structure CutAt (P : Printer σ) (c : Nat) (fails stopped : α → Prop) (s s' : σ) (x y : α × σ) :
    Prop where
  bytes : P.bytes y.2 = (P.bytes x.2).take c
  within : (P.bytes x.2).length ≤ c → y = (x.1, P.capped c x.2)
  passing : (P.bytes s).length ≤ c → c < (P.bytes x.2).length → fails y.1
  past : c < (P.bytes s).length → P.bytes y.2 = P.bytes s' ∧ stopped y.1

variable {fails stopped : α → Prop} {s s' : σ}

theorem Stays.bytes (h : P.Stays c s s') : P.bytes s' = (P.bytes s).take c := by
  cases h with
  | fits room _ same => rw [same, P.bytes_capped, List.take_of_length_le room]
  | cutOff cut => exact cut.bytes

theorem Obeys.stays {deed : σ → α × σ} (hd : P.Obeys c fails deed) (h : P.Stays c s s') :
    P.Stays c (deed s).2 (deed s').2 := by
  cases h with
  | fits room free same =>
    subst same
    cases hd.cut free room with
    | fits room' same' => exact .fits room' (hd.free free) (congrArg Prod.snd same')
    | passes cut _ => exact .cutOff cut
  | cutOff cut =>
    obtain ⟨hfull, hb⟩ := hd.full cut.full
    exact .cutOff (cut.step (hd.grows s) hfull hb)

theorem Obeys.cutAt {deed : σ → α × σ} (hd : P.Obeys c fails deed) (h : P.Stays c s s')
    (hs : P.Full c s' → stopped (deed s').1) :
    P.CutAt c fails stopped s s' (deed s) (deed s') := by
  refine ⟨(hd.stays h).bytes, fun hx => ?_, fun hb hx => ?_, fun hb => ?_⟩
  · cases h with
    | fits room free same =>
      subst same
      cases hd.cut free room with
      | fits _ same => exact same
      | passes cut _ => exact absurd hx (Nat.not_le_of_lt cut.passed)
    | cutOff cut =>
      exact absurd (Nat.le_trans (hd.grows s).length_le hx) (Nat.not_le_of_lt cut.passed)
  · cases h with
    | fits room free same =>
      subst same
      cases hd.cut free room with
      | fits room' _ => exact absurd room' (Nat.not_le_of_lt hx)
      | passes _ failed => exact failed
    | cutOff cut => exact absurd hb (Nat.not_le_of_lt cut.passed)
  · cases h with
    | fits room _ _ => exact absurd room (Nat.not_le_of_lt hb)
    | cutOff cut => exact ⟨(hd.full cut.full).2, hs cut.full⟩

theorem Stays.inTurn {ι : Type} {step : σ → ι → α × σ} {fails : ι → α → Prop} {items : List ι}
    (hd : ∀ item ∈ items, P.Obeys c (fails item) fun s => step s item) (h : P.Stays c s s') :
    P.Stays c (inTurn step s items).2 (inTurn step s' items).2 := by
  induction items generalizing s s' with
  | nil => exact h
  | cons item rest ih =>
    obtain ⟨hitem, hrest⟩ := List.forall_mem_cons.mp hd
    rw [inTurn_cons, inTurn_cons]
    exact ih hrest (hitem.stays h)

end Printer

end DiagnosticLog
