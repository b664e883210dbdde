import EventLens.Programs

/-!
Contracts that look at more. A second contract may keep further notes beside
those of a first; a program that follows both follows their union. What every
event keeps about the notes holds where a program returns.
-/

namespace Programs

variable {Op : Type} {Res : Op → Type} {α γ δ : Type}

namespace Contract

/-- The further notes, with what both contracts ask for. -/
def both (C : Contract Op Res γ) (D : Contract Op Res (γ × δ)) : Contract Op Res (γ × δ) where
  note := D.note
  expects g e := C.expects g.1 e ∧ D.expects g e
  permits g o := C.permits g.1 o ∧ D.permits g o

/-- A program that keeps to both contracts keeps to their union, where the
further notes extend the first. -/
theorem follows_both {C : Contract Op Res γ} {D : Contract Op Res (γ × δ)}
    (hnote : ∀ g e, (D.note g e).1 = C.note g.1 e) {p : Prog Op Res α} {Q : α → γ → Prop}
    {Q' : α → γ × δ → Prop} {g : γ × δ} (hC : C.Follows p Q g.1) (hD : D.Follows p Q' g) :
    (C.both D).Follows p (fun value g' => Q value g'.1 ∧ Q' value g') g := by
  induction p generalizing g with
  | done value => exact ⟨hC, hD⟩
  | perform o next ih =>
    refine ⟨⟨hC.1, hD.1⟩, fun r hr => ?_⟩
    have hfirst := hC.2 r hr.1
    rw [← hnote] at hfirst
    exact ih r hfirst (hD.2 r hr.2)

/-- What every event keeps about the notes holds at the end. -/
theorem follows_stable (C : Contract Op Res γ) {I : γ → Prop}
    (hI : ∀ g e, I g → I (C.note g e)) {p : Prog Op Res α} {Q : α → γ → Prop} {g : γ}
    (hg : I g) (h : C.Follows p Q g) : C.Follows p (fun value g' => Q value g' ∧ I g') g := by
  induction p generalizing g with
  | done value => exact ⟨h, hg⟩
  | perform o next ih => exact ⟨h.1, fun r hr => ih r (hI g ⟨o, r⟩ hg) (h.2 r hr)⟩

/-- Operations that are permitted whatever the notes. -/
theorem follows_avoids (C : Contract Op Res γ) {bad : Op → Prop}
    (hbad : ∀ g o, ¬ bad o → C.permits g o) {p : Prog Op Res α} (h : p.Avoids bad) (g : γ) :
    C.Follows p (fun _ _ => True) g := by
  induction p generalizing g with
  | done value => trivial
  | perform o next ih => exact ⟨hbad g o h.1, fun r _ => ih r (h.2 r) _⟩

end Contract

end Programs
