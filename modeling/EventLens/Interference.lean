import EventLens.Programs

/-!
A program among others, which may act before each of its operations. What they
may do is a relation on the states; the operations of the program itself are
those of its handler. Where they may do anything, each operation meets a state
of its own.
-/

namespace Programs

variable {Op : Type} {Res : Op → Type} {α β σ : Type}

/-- A complete execution of a program with others in between. -/
inductive Among (others : σ → σ → Prop) (h : Handler Op Res σ) :
    Prog Op Res α → σ → List (Event Op Res) → α → σ → Prop
  | done (value : α) (s : σ) : Among others h (.done value) s [] value s
  | perform (o : Op) (next : Res o → Prog Op Res α) (r : Res o) {s s₁ s' : σ}
      {trace : List (Event Op Res)} {value : α} (before : others s s₁)
      (rest : Among others h (next (h o r s₁).1) (h o r s₁).2 trace value s') :
      Among others h (.perform o next) s (⟨o, (h o r s₁).1⟩ :: trace) value s'

variable {others : σ → σ → Prop} {h : Handler Op Res σ} {s s' : σ} {trace : List (Event Op Res)}

/-- A run on its own, where the others may also do nothing. -/
theorem among_of_exec (hidle : ∀ s, others s s) {p : Prog Op Res α} {value : α}
    (he : Exec h p s trace value s') : Among others h p s trace value s' := by
  induction he with
  | done value s => exact .done value s
  | perform o next r _ ih => exact .perform o next r (hidle _) ih

theorem among_done {value value' : α} :
    Among others h (.done value) s trace value' s' ↔ trace = [] ∧ value' = value ∧ s' = s := by
  constructor
  · intro he
    cases he
    exact ⟨rfl, rfl, rfl⟩
  · rintro ⟨rfl, rfl, rfl⟩
    exact .done _ _

theorem among_perform {o : Op} {next : Res o → Prog Op Res α} {value : α} :
    Among others h (.perform o next) s trace value s' ↔
      ∃ r s₁ rest, others s s₁ ∧ trace = ⟨o, (h o r s₁).1⟩ :: rest ∧
        Among others h (next (h o r s₁).1) (h o r s₁).2 rest value s' := by
  constructor
  · intro he
    cases he with
    | perform _ _ r before rest => exact ⟨r, _, _, before, rfl, rest⟩
  · rintro ⟨r, s₁, rest, before, rfl, he⟩
    exact .perform o next r before he

theorem among_bind {p : Prog Op Res α} {f : α → Prog Op Res β} {value : β} :
    Among others h (p >>= f) s trace value s' ↔
      ∃ first mid state rest, trace = first ++ rest ∧ Among others h p s first mid state ∧
        Among others h (f mid) state rest value s' := by
  induction p generalizing s trace with
  | done mid =>
    rw [Prog.done_bind]
    constructor
    · intro he
      exact ⟨[], mid, s, trace, rfl, .done mid s, he⟩
    · rintro ⟨first, mid', state, rest, rfl, hp, hf⟩
      obtain ⟨rfl, rfl, rfl⟩ := among_done.mp hp
      exact hf
  | perform o next ih =>
    rw [Prog.perform_bind, among_perform]
    constructor
    · rintro ⟨r, s₁, rest, before, rfl, he⟩
      obtain ⟨first, mid, state, rest', rfl, hp, hf⟩ := (ih _).mp he
      exact ⟨_ :: first, mid, state, rest', rfl, .perform o next r before hp, hf⟩
    · rintro ⟨first, mid, state, rest, rfl, hp, hf⟩
      obtain ⟨r, s₁, first', before, rfl, hp'⟩ := among_perform.mp hp
      exact ⟨r, s₁, first' ++ rest, before, rfl,
        (ih _).mpr ⟨first', mid, state, rest, rfl, hp', hf⟩⟩

/-- An operation that cannot fail inside a `try`. -/
theorem among_lift {ε : Type} {p : Prog Op Res α} {f : α → ExceptT ε (Prog Op Res) β}
    {value : Except ε β} :
    Among others h ((liftM p : ExceptT ε (Prog Op Res) α) >>= f).run s trace value s' ↔
      ∃ first a state rest, trace = first ++ rest ∧ Among others h p s first a state ∧
        Among others h (f a).run state rest value s' := by
  have hlift : ((liftM p : ExceptT ε (Prog Op Res) α) >>= f).run = p >>= fun a => (f a).run :=
    Prog.bind_bind p _ _
  rw [hlift, among_bind]

/-- What holds whatever the others do, and whatever the operations do that a
program does not avoid. -/
theorem among_avoids {bad : Op → Prop} {R : σ → σ → Prop} (hidle : ∀ s, R s s)
    (htrans : ∀ {s₁ s₂ s₃}, R s₁ s₂ → R s₂ s₃ → R s₁ s₃) (hothers : ∀ {s s'}, others s s' → R s s')
    (hgood : ∀ o r s, ¬ bad o → R s (h o r s).2) {p : Prog Op Res α} {value : α} (hp : p.Avoids bad)
    (he : Among others h p s trace value s') : (∀ event ∈ trace, ¬ bad event.1) ∧ R s s' := by
  induction he with
  | done value s => exact ⟨fun _ h => absurd h List.not_mem_nil, hidle s⟩
  | perform o next r before _ ih =>
    obtain ⟨hrest, hR⟩ := ih (hp.2 _)
    refine ⟨fun event hevent => ?_, htrans (hothers before) (htrans (hgood o r _ hp.1) hR)⟩
    rcases List.mem_cons.mp hevent with rfl | hevent
    · exact hp.1
    · exact hrest event hevent

/-! Others that may do anything. -/

/-- A complete execution amid others: each operation is performed on whatever
state they left, and that state is kept with the event. -/
inductive Amid (h : Handler Op Res σ) : Prog Op Res α → List (σ × Event Op Res) → α → Prop
  | done (value : α) : Amid h (.done value) [] value
  | perform (o : Op) (next : Res o → Prog Op Res α) (r : Res o) (s : σ)
    {seen : List (σ × Event Op Res)}
      {value : α} (rest : Amid h (next (h o r s).1) seen value) :
      Amid h (.perform o next) ((s, ⟨o, (h o r s).1⟩) :: seen) value

/-- The program run on the given states, one for each operation. -/
def watch (h : Handler Op Res σ) :
    Prog Op Res α → Oracle Op Res → (ℕ → σ) → List (σ × Event Op Res) × α
  | .done value, _, _ => ([], value)
  | .perform o next, ω, states =>
    let answer := (h o (ω 0 o) (states 0)).1
    let rest := watch h (next answer) (fun n => ω (n + 1)) (fun n => states (n + 1))
    ((states 0, ⟨o, answer⟩) :: rest.1, rest.2)

section Amid

variable {seen : List (σ × Event Op Res)}

theorem amid_watch (h : Handler Op Res σ) (p : Prog Op Res α) (ω : Oracle Op Res) (states : ℕ → σ) :
    Amid h p (watch h p ω states).1 (watch h p ω states).2 := by
  induction p generalizing ω states with
  | done value => exact .done value
  | perform o next ih => exact .perform o next (ω 0 o) (states 0) (ih _ _ _)

/-- What is kept of each operation: one of the states, and what the handler answered there. -/
theorem mem_watch {p : Prog Op Res α} {ω : Oracle Op Res} {states : ℕ → σ}
    {entry : σ × Event Op Res}
    (hentry : entry ∈ (watch h p ω states).1) :
    ∃ n o, entry = (states n, ⟨o, (h o (ω n o) (states n)).1⟩) := by
  induction p generalizing ω states with
  | done value => exact absurd hentry List.not_mem_nil
  | perform o next ih =>
    rcases List.mem_cons.mp hentry with rfl | hlater
    · exact ⟨0, o, rfl⟩
    · obtain ⟨n, o', rfl⟩ := ih _ hlater
      exact ⟨n + 1, o', rfl⟩

theorem amid_done {value value' : α} :
    Amid h (.done value) seen value' ↔ seen = [] ∧ value' = value := by
  constructor
  · intro he
    cases he
    exact ⟨rfl, rfl⟩
  · rintro ⟨rfl, rfl⟩
    exact .done _

theorem amid_perform {o : Op} {next : Res o → Prog Op Res α} {value : α} :
    Amid h (.perform o next) seen value ↔
      ∃ r s rest, seen = (s, ⟨o, (h o r s).1⟩) :: rest ∧ Amid h (next (h o r s).1) rest value := by
  constructor
  · intro he
    cases he with
    | perform _ _ r s rest => exact ⟨r, s, _, rfl, rest⟩
  · rintro ⟨r, s, rest, rfl, he⟩
    exact .perform o next r s he

theorem amid_bind {p : Prog Op Res α} {f : α → Prog Op Res β} {value : β}
    (he : Amid h (p >>= f) seen value) :
    ∃ first mid rest, seen = first ++ rest ∧ Amid h p first mid ∧ Amid h (f mid) rest value := by
  induction p generalizing seen with
  | done mid => exact ⟨[], mid, seen, rfl, .done mid, he⟩
  | perform o next ih =>
    obtain ⟨r, s, rest, rfl, hnext⟩ := amid_perform.mp he
    obtain ⟨first, mid, rest', rfl, hp, hf⟩ := ih _ hnext
    exact ⟨_ :: first, mid, rest', rfl, .perform o next r s hp, hf⟩

/-- A sequence inside a `try`: its second part runs, or the first ends it. -/
theorem amid_attempt {ε : Type} {p : ExceptT ε (Prog Op Res) α} {f : α → ExceptT ε (Prog Op Res) β}
    {value : Except ε β} (he : Amid h (p >>= f).run seen value) :
    (∃ first a rest, seen = first ++ rest ∧ Amid h p.run first (.ok a) ∧
    Amid h (f a).run rest value) ∨
      ∃ e, value = .error e ∧ Amid h p.run seen (.error e) := by
  rw [ExceptT.run_bind] at he
  obtain ⟨first, mid, rest, rfl, hp, hf⟩ := amid_bind he
  cases mid with
  | ok a => exact .inl ⟨first, a, rest, rfl, hp, hf⟩
  | error e =>
    obtain ⟨rfl, rfl⟩ := amid_done.mp hf
    rw [List.append_nil]
    exact .inr ⟨e, rfl, hp⟩

end Amid

section Calls

variable {ε : Type} {Ans : Op → Type} {h : Handler Op (fun o => Except ε (Ans o)) σ}
  {seen : List (σ × Event Op (fun o => Except ε (Ans o)))}

/-- A single operation. -/
theorem amid_call {o : Op} {value : Except ε (Ans o)}
    (he : Amid h (ExceptT.mk (.perform o .done)).run seen value) :
    ∃ s r, seen = [(s, ⟨o, value⟩)] ∧ value = (h o r s).1 := by
  obtain ⟨r, s, rest, rfl, hdone⟩ := amid_perform.mp he
  obtain ⟨rfl, rfl⟩ := amid_done.mp hdone
  exact ⟨s, r, rfl, rfl⟩

/-- The program returns as long as no operation fails. -/
def Returns (h : Handler Op (fun o => Except ε (Ans o)) σ)
    (p : ExceptT ε (Prog Op (fun o => Except ε (Ans o))) α) : Prop :=
  ∀ seen value, Amid h p.run seen value → (∀ entry ∈ seen, ∀ e, entry.2.2 ≠ .error e) →
    ∃ a, value = .ok a

theorem returns_pure (a : α) : Returns h (pure a) := by
  intro seen value he _
  exact ⟨a, (amid_done.mp he).2⟩

theorem Returns.bind {p : ExceptT ε (Prog Op (fun o => Except ε (Ans o))) α}
    {f : α → ExceptT ε (Prog Op (fun o => Except ε (Ans o))) β} (hp : Returns h p)
    (hf : ∀ a, Returns h (f a)) :
    Returns h (p >>= f) := by
  intro seen value he hnone
  rcases amid_attempt he with ⟨first, a, rest, rfl, _, hrest⟩ | ⟨e, rfl, hfirst⟩
  · exact hf a rest value hrest fun entry hentry => hnone entry (List.mem_append_right _ hentry)
  · obtain ⟨a, ha⟩ := hp seen _ hfirst hnone
    cases ha

theorem returns_call (o : Op) : Returns h (ExceptT.mk (.perform o .done)) := by
  intro seen value he hnone
  obtain ⟨s, r, rfl, -⟩ := amid_call he
  cases value with
  | ok answer => exact ⟨answer, rfl⟩
  | error e => exact absurd rfl (hnone _ List.mem_cons_self e)

end Calls

end Programs
