import Mathlib.Order.Lattice

/-!
Last write wins. A cell holds a value and the time it was set at. An offer is
taken when it is newer than what the cell holds, a write always. Offering the
newest of some dated values again and again, in between whatever else, leaves
the cell with the newest of all.
-/

namespace LastWrite

variable {α τ : Type}

/-- What the cell holds is one of the values. -/
def Held (acts : List (α × τ)) (cell : Option (α × τ)) : Prop := ∀ a, cell = some a → a ∈ acts

theorem Held.mono {acts more : List (α × τ)} {cell : Option (α × τ)} (h : Held acts cell)
    (hsub : ∀ a ∈ acts, a ∈ more) : Held more cell :=
  fun a ha => hsub a (h a ha)

variable [LinearOrder τ]

/-- The newest of some dated values; of those of one time, the preferred one. -/
def newest (prefer : α → α → Bool) : List (α × τ) → Option (α × τ)
  | [] => none
  | a :: rest =>
    match newest prefer rest with
    | none => some a
    | some b => if b.2 < a.2 ∨ (b.2 = a.2 ∧ prefer a.1 b.1) then some a else some b

def newer (cell : Option (α × τ)) (a : α × τ) : Bool := cell.all (fun held => held.2 < a.2)

/-- A conditional write. -/
def offer (best cell : Option (α × τ)) : Option (α × τ) :=
  match best with
  | none => cell
  | some a => if newer cell a then some a else cell

/-- None of the values is newer than what the cell holds. -/
def Covers (acts : List (α × τ)) (cell : Option (α × τ)) : Prop :=
  ∀ b ∈ acts, ∃ a, cell = some a ∧ b.2 ≤ a.2

/-- The cell holds the latest of the values, and nothing if there are none. -/
structure Latest (acts : List (α × τ)) (cell : Option (α × τ)) : Prop where
  held : Held acts cell
  covers : Covers acts cell

section Newest

variable {prefer : α → α → Bool} {items : List (α × τ)} {a b : α × τ}

theorem newest_cons (prefer : α → α → Bool) (a : α × τ) (rest : List (α × τ)) :
    (newest prefer (a :: rest) = some a ∧ ∀ b, newest prefer rest = some b → b.2 ≤ a.2) ∨
      ∃ b, newest prefer rest = some b ∧ newest prefer (a :: rest) = some b ∧ a.2 ≤ b.2 := by
  cases hrest : newest prefer rest with
  | none =>
    refine .inl ⟨?_, fun b hb => by cases hb⟩
    rw [newest, hrest]
  | some b =>
    by_cases hnew : b.2 < a.2 ∨ (b.2 = a.2 ∧ prefer a.1 b.1 = true)
    · refine .inl ⟨?_, fun c hc => ?_⟩
      · rw [newest, hrest]
        exact if_pos hnew
      · cases hc
        exact hnew.elim le_of_lt fun htie => htie.1.le
    · refine .inr ⟨b, rfl, ?_, le_of_not_gt fun hlt => hnew (.inl hlt)⟩
      rw [newest, hrest]
      exact if_neg hnew

theorem newest_eq_none (h : newest prefer items = none) : items = [] := by
  cases items with
  | nil => rfl
  | cons a rest =>
    rcases newest_cons prefer a rest with ⟨hnew, -⟩ | ⟨b, -, hnew, -⟩
    · exact absurd (h.symm.trans hnew) (Option.some_ne_none a).symm
    · exact absurd (h.symm.trans hnew) (Option.some_ne_none b).symm

theorem newest_mem (h : newest prefer items = some a) : a ∈ items := by
  induction items with
  | nil => cases h
  | cons c rest ih =>
    rcases newest_cons prefer c rest with ⟨hnew, -⟩ | ⟨b, hrest, hnew, -⟩
    · cases h.symm.trans hnew
      exact List.mem_cons_self
    · cases h.symm.trans hnew
      exact List.mem_cons_of_mem _ (ih hrest)

theorem le_newest (h : newest prefer items = some a) : ∀ b ∈ items, b.2 ≤ a.2 := by
  induction items generalizing a with
  | nil => cases h
  | cons c rest ih =>
    intro b hb
    rcases newest_cons prefer c rest with ⟨hnew, hle⟩ | ⟨d, hrest, hnew, hle⟩
    · cases h.symm.trans hnew
      rcases List.mem_cons.mp hb with rfl | hb
      · exact le_rfl
      · cases hrest : newest prefer rest with
        | none =>
          rw [newest_eq_none hrest] at hb
          cases hb
        | some d => exact (ih hrest b hb).trans (hle d hrest)
    · cases h.symm.trans hnew
      rcases List.mem_cons.mp hb with rfl | hb
      · exact hle
      · exact ih hrest b hb

end Newest

section Cells

variable {prefer : α → α → Bool} {acts more : List (α × τ)} {best cell : Option (α × τ)} {a : α × τ}

theorem offer_cases (best cell : Option (α × τ)) :
    offer best cell = cell ∨ ∃ a, best = some a ∧ newer cell a = true ∧
    offer best cell = some a := by
  cases best with
  | none => exact .inl rfl
  | some a =>
    by_cases hnew : newer cell a = true
    · exact .inr ⟨a, rfl, hnew, if_pos hnew⟩
    · exact .inl (if_neg hnew)

theorem held_offer (h : Held acts cell)
    (hbest : ∀ a, best = some a → newer cell a = true → a ∈ acts) :
    Held acts (offer best cell) := by
  rcases offer_cases best cell with hsame | ⟨a, rfl, hnewer, hnew⟩
  · rw [hsame]
    exact h
  · intro b hb
    cases hnew.symm.trans hb
    exact hbest a rfl hnewer

/-- An offer loses nothing that was covered. -/
theorem covers_offer (h : Covers acts cell) (best : Option (α × τ)) :
    Covers acts (offer best cell) := by
  rcases offer_cases best cell with hsame | ⟨a, -, hnewer, hnew⟩
  · rw [hsame]
    exact h
  · intro b hb
    obtain ⟨held, hheld, hle⟩ := h b hb
    refine ⟨a, hnew, ?_⟩
    rw [hheld] at hnewer
    exact hle.trans (of_decide_eq_true hnewer).le

/-- The newest of some values, offered, covers all of them. -/
theorem covers_newest (acts : List (α × τ)) (cell : Option (α × τ)) :
    Covers acts (offer (newest prefer acts) cell) := by
  intro b hb
  cases hbest : newest prefer acts with
  | none =>
    rw [newest_eq_none hbest] at hb
    cases hb
  | some a =>
    have hle := le_newest hbest b hb
    by_cases hnew : newer cell a = true
    · exact ⟨a, if_pos hnew, hle⟩
    · cases cell with
      | none => exact absurd rfl hnew
      | some held =>
        refine ⟨held, if_neg hnew, hle.trans (le_of_not_gt fun hlt => hnew (decide_eq_true hlt))⟩

theorem covers_append (h : Covers acts cell) (hmore : Covers more cell) :
    Covers (acts ++ more) cell := by
  intro b hb
  rcases List.mem_append.mp hb with hb | hb
  · exact h b hb
  · exact hmore b hb

theorem newest_first (a : α × τ) (rest : List (α × τ)) :
    newest (fun _ _ => true) (a :: rest) =
      (newest (fun _ _ => true) rest).elim (some a)
      (fun b => if b.2 ≤ a.2 then some a else some b) := by
  rw [newest]
  cases newest (fun _ _ => true) rest with
  | none => rfl
  | some b => simp [le_iff_lt_or_eq]

/-- Offers one by one leave the newest; of those of one time, the first. -/
theorem foldl_offer (acts : List (α × τ)) :
    acts.foldl (fun cell a => offer (some a) cell) none = newest (fun _ _ => true) acts := by
  have hheld : ∀ (acts : List (α × τ)) (held : α × τ),
      acts.foldl (fun cell a => offer (some a) cell) (some held) = newest (fun _ _ => true)
        (held :: acts) := by
    intro acts
    induction acts with
    | nil => exact fun _ => rfl
    | cons a rest ih =>
      intro held
      by_cases hnew : held.2 < a.2
      · have hoffer : offer (some a) (some held) = some a := if_pos (decide_eq_true hnew)
        obtain ⟨b, hb⟩ : ∃ b, newest (fun _ _ => true) (a :: rest) = some b :=
          Option.ne_none_iff_exists'.mp fun hnone => by cases newest_eq_none hnone
        have hlt : held.2 < b.2 := hnew.trans_le (le_newest hb a List.mem_cons_self)
        rw [List.foldl_cons, hoffer, ih, newest_first held, hb]
        exact (if_neg (not_le_of_gt hlt)).symm
      · have hle : a.2 ≤ held.2 := le_of_not_gt hnew
        have hoffer : offer (some a) (some held) = some held := if_neg (by simpa [newer] using hnew)
        rw [List.foldl_cons, hoffer, ih, newest_first held, newest_first held, newest_first a]
        cases newest (fun _ _ => true) rest with
        | none => simp [hle]
        | some b =>
          by_cases hb : b.2 ≤ a.2
          · simp [hb, hle, hb.trans hle]
          · simp [hb]
  cases acts with
  | nil => rfl
  | cons a rest => exact hheld rest a

/-- What was written last covers what was written before. -/
theorem covers_write (hle : ∀ b ∈ acts, b.2 ≤ a.2) : Covers acts (some a) :=
  fun b hb => ⟨a, rfl, hle b hb⟩

end Cells

end LastWrite
