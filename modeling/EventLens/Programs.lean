import Mathlib.Data.Nat.Notation
import Mathlib.Logic.Basic

/-!
Effectful programs as trees of operations with typed answers. A handler gives
each operation its effect on a state and its answer; an oracle proposes the
answers that the state does not determine. Partial correctness is assume and
guarantee: a contract says which answers are expected and which operations
are permitted, both in terms of notes kept about the events seen so far.
-/

namespace Programs

/-- A program returns a value, or performs an operation and continues with
its answer. -/
inductive Prog (Op : Type) (Res : Op → Type) (α : Type) : Type where
  | done (value : α)
  | perform (o : Op) (next : Res o → Prog Op Res α)

/-- An operation together with the answer it was given. -/
abbrev Event (Op : Type) (Res : Op → Type) := (o : Op) × Res o

/-- The effect of an operation. The environment's proposed answer is used
only where the state does not fix the answer. -/
abbrev Handler (Op : Type) (Res : Op → Type) (σ : Type) :=
  (o : Op) → Res o → σ → Res o × σ

/-- The answers proposed to the first, second, ... operation of a run. -/
abbrev Oracle (Op : Type) (Res : Op → Type) := ℕ → (o : Op) → Res o

variable {Op : Type} {Res : Op → Type} {α β σ γ : Type}

namespace Prog

def bind : Prog Op Res α → (α → Prog Op Res β) → Prog Op Res β
  | .done value, f => f value
  | .perform o next, f => .perform o (fun r => (next r).bind f)

instance : Monad (Prog Op Res) where
  pure := .done
  bind := bind

@[simp] theorem pure_eq_done (value : α) : (pure value : Prog Op Res α) = .done value := rfl

@[simp] theorem done_bind (value : α) (f : α → Prog Op Res β) :
    ((Prog.done value : Prog Op Res α) >>= f) = f value := rfl

@[simp] theorem perform_bind (o : Op) (next : Res o → Prog Op Res α) (f : α → Prog Op Res β) :
    (Prog.perform o next >>= f) = .perform o (fun r => next r >>= f) := rfl

@[simp] theorem bind_done (value : α) (f : α → Prog Op Res β) :
    (Prog.done value : Prog Op Res α).bind f = f value := rfl

@[simp] theorem bind_perform (o : Op) (next : Res o → Prog Op Res α) (f : α → Prog Op Res β) :
    (Prog.perform o next).bind f = .perform o (fun r => (next r).bind f) := rfl

theorem map_id (p : Prog Op Res α) : id <$> p = p := by
  induction p with
  | done value => rfl
  | perform o next ih => exact congrArg (Prog.perform o) (funext ih)

theorem bind_bind {δ : Type} (p : Prog Op Res α) (f : α → Prog Op Res β) (g : β → Prog Op Res δ) :
    p >>= f >>= g = p >>= fun a => f a >>= g := by
  induction p with
  | done value => rfl
  | perform o next ih => exact congrArg (Prog.perform o) (funext ih)

instance : LawfulMonad (Prog Op Res) :=
  LawfulMonad.mk' _ map_id (fun _ _ => rfl) bind_bind

/-- The program under the operations of a larger system. -/
def embed {Op' : Type} {Res' : Op' → Type} (inner : Op → Op')
    (lower : ∀ o, Res' (inner o) → Res o) :
    Prog Op Res α → Prog Op' Res' α
  | .done value => .done value
  | .perform o next => .perform (inner o) (fun r => (next (lower o r)).embed inner lower)

/-- Whatever the answers, the program performs no bad operation. -/
def Avoids (bad : Op → Prop) : Prog Op Res α → Prop
  | .done _ => True
  | .perform o next => ¬ bad o ∧ ∀ r, (next r).Avoids bad

theorem avoids_bind {bad : Op → Prop} {p : Prog Op Res α} {f : α → Prog Op Res β}
    (hp : p.Avoids bad) (hf : ∀ a, (f a).Avoids bad) : (p >>= f).Avoids bad := by
  induction p with
  | done value => exact hf value
  | perform o next ih => exact ⟨hp.1, fun r => ih r (hp.2 r)⟩

/-- A sequence inside a `try`. -/
theorem avoids_attempt {ε : Type} {bad : Op → Prop} {p : ExceptT ε (Prog Op Res) α}
    {f : α → ExceptT ε (Prog Op Res) β} (hp : p.run.Avoids bad) (hf : ∀ a, (f a).run.Avoids bad) :
    (p >>= f).run.Avoids bad := by
  rw [ExceptT.run_bind]
  refine avoids_bind hp fun r => ?_
  cases r with
  | ok a => exact hf a
  | error e => trivial

/-- A sequence inside a `try` that starts with an operation that cannot fail. -/
theorem avoids_lift {ε : Type} {bad : Op → Prop} {p : Prog Op Res α}
    {f : α → ExceptT ε (Prog Op Res) β} (hp : p.Avoids bad) (hf : ∀ a, (f a).run.Avoids bad) :
    ((liftM p : ExceptT ε (Prog Op Res) α) >>= f).run.Avoids bad := by
  have hlift : (liftM p : ExceptT ε (Prog Op Res) α).run.Avoids bad :=
    avoids_bind hp fun _ => trivial
  exact avoids_attempt hlift hf

end Prog

/-- A finished run: the value, the final state and the events in order. -/
structure Outcome (Op : Type) (Res : Op → Type) (σ α : Type) where
  value : α
  state : σ
  trace : List (Event Op Res)

def run (h : Handler Op Res σ) : Prog Op Res α → Oracle Op Res → σ → Outcome Op Res σ α
  | .done value, _, s => ⟨value, s, []⟩
  | .perform o next, ω, s =>
      let answer := h o (ω 0 o) s
      let rest := run h (next answer.1) (fun n => ω (n + 1)) answer.2
      ⟨rest.value, rest.state, ⟨o, answer.1⟩ :: rest.trace⟩

/-- A complete execution of a program: its events in order, its value and the
state it leaves. -/
inductive Exec (h : Handler Op Res σ) : Prog Op Res α → σ → List (Event Op Res) → α → σ → Prop
  | done (value : α) (s : σ) : Exec h (.done value) s [] value s
  | perform (o : Op) (next : Res o → Prog Op Res α) (r : Res o) {s s' : σ}
      {trace : List (Event Op Res)} {value : α}
      (rest : Exec h (next (h o r s).1) (h o r s).2 trace value s') :
      Exec h (.perform o next) s (⟨o, (h o r s).1⟩ :: trace) value s'

theorem exec_run (h : Handler Op Res σ) (p : Prog Op Res α) (ω : Oracle Op Res) (s : σ) :
    Exec h p s (run h p ω s).trace (run h p ω s).value (run h p ω s).state := by
  induction p generalizing ω s with
  | done value => exact Exec.done value s
  | perform o next ih => exact Exec.perform o next (ω 0 o) (ih _ _ _)

section Inversion

variable {h : Handler Op Res σ} {s s' : σ} {trace : List (Event Op Res)}

theorem exec_done {value value' : α} :
    Exec h (.done value) s trace value' s' ↔ trace = [] ∧ value' = value ∧ s' = s := by
  constructor
  · intro he
    cases he
    exact ⟨rfl, rfl, rfl⟩
  · rintro ⟨rfl, rfl, rfl⟩
    exact Exec.done _ _

theorem exec_perform {o : Op} {next : Res o → Prog Op Res α} {value : α} :
    Exec h (.perform o next) s trace value s' ↔
      ∃ r rest, trace = ⟨o, (h o r s).1⟩ :: rest ∧
        Exec h (next (h o r s).1) (h o r s).2 rest value s' := by
  constructor
  · intro he
    cases he with
    | perform _ _ r rest => exact ⟨r, _, rfl, rest⟩
  · rintro ⟨r, rest, rfl, he⟩
    exact Exec.perform o next r he

/-- One operation at the head of a sequence. -/
theorem exec_step {o : Op} {f : Res o → Prog Op Res α} {value : α} :
    Exec h (.perform o .done >>= f) s trace value s' ↔
      ∃ r rest, trace = ⟨o, (h o r s).1⟩ :: rest ∧
        Exec h (f (h o r s).1) (h o r s).2 rest value s' := exec_perform

theorem exec_bind {p : Prog Op Res α} {f : α → Prog Op Res β} {value : β} :
    Exec h (p >>= f) s trace value s' ↔
      ∃ first mid state rest, trace = first ++ rest ∧ Exec h p s first mid state ∧
        Exec h (f mid) state rest value s' := by
  induction p generalizing s trace with
  | done mid =>
    rw [Prog.done_bind]
    constructor
    · intro he
      exact ⟨[], mid, s, trace, rfl, Exec.done mid s, he⟩
    · rintro ⟨first, mid', state, rest, rfl, hp, hf⟩
      obtain ⟨rfl, rfl, rfl⟩ := exec_done.mp hp
      exact hf
  | perform o next ih =>
    rw [Prog.perform_bind, exec_perform]
    constructor
    · rintro ⟨r, rest, rfl, he⟩
      obtain ⟨first, mid, state, rest', rfl, hp, hf⟩ := (ih _).mp he
      exact ⟨_ :: first, mid, state, rest', rfl, Exec.perform o next r hp, hf⟩
    · rintro ⟨first, mid, state, rest, rfl, hp, hf⟩
      obtain ⟨r, first', rfl, hp'⟩ := exec_perform.mp hp
      exact ⟨r, first' ++ rest, rfl, (ih _).mpr ⟨first', mid, state, rest, rfl, hp', hf⟩⟩

/-- A sequence inside a `try`: its second part runs, or the first ends it. -/
theorem exec_attempt {ε : Type} {p : ExceptT ε (Prog Op Res) α} {f : α → ExceptT ε (Prog Op Res) β}
    {value : Except ε β} :
    Exec h (p >>= f).run s trace value s' ↔
      (∃ first a state rest, trace = first ++ rest ∧ Exec h p.run s first (.ok a) state ∧
        Exec h (f a).run state rest value s') ∨
      ∃ e, value = .error e ∧ Exec h p.run s trace (.error e) s' := by
  rw [ExceptT.run_bind, exec_bind]
  constructor
  · rintro ⟨first, mid, state, rest, rfl, hp, hf⟩
    cases mid with
    | ok a => exact .inl ⟨first, a, state, rest, rfl, hp, hf⟩
    | error e =>
      obtain ⟨rfl, rfl, rfl⟩ := exec_done.mp hf
      rw [List.append_nil]
      exact .inr ⟨e, rfl, hp⟩
  · rintro (⟨first, a, state, rest, rfl, hp, hf⟩ | ⟨e, rfl, hp⟩)
    · exact ⟨first, .ok a, state, rest, rfl, hp, hf⟩
    · exact ⟨trace, .error e, s', [], (List.append_nil trace).symm, hp, Exec.done _ _⟩

/-- An operation that cannot fail inside a `try`. -/
theorem exec_lift {ε : Type} {p : Prog Op Res α} {f : α → ExceptT ε (Prog Op Res) β}
    {value : Except ε β} :
    Exec h ((liftM p : ExceptT ε (Prog Op Res) α) >>= f).run s trace value s' ↔
      ∃ first a state rest, trace = first ++ rest ∧ Exec h p s first a state ∧
        Exec h (f a).run state rest value s' := by
  have hlift : ((liftM p : ExceptT ε (Prog Op Res) α) >>= f).run = p >>= fun a => (f a).run :=
    Prog.bind_bind p _ _
  rw [hlift, exec_bind]

end Inversion

/-- Where every answer is as wanted, the whole trace of a run is. -/
theorem run_trace {h : Handler Op Res σ} {Q : Event Op Res → Prop} {p : Prog Op Res α}
    {ω : Oracle Op Res}
    {s : σ} (hQ : ∀ n o s, Q ⟨o, (h o (ω n o) s).1⟩) : ∀ e ∈ (run h p ω s).trace, Q e := by
  induction p generalizing ω s with
  | done value => exact fun e he => absurd he List.not_mem_nil
  | perform o next ih =>
    intro e he
    rcases List.mem_cons.mp he with rfl | he
    · exact hQ 0 o s
    · exact ih _ (fun n => hQ (n + 1)) e he

/-- What a caller notes about its own events, what it may count on in an
answer and what it owes before an operation. -/
structure Contract (Op : Type) (Res : Op → Type) (γ : Type) where
  note : γ → Event Op Res → γ
  expects : γ → Event Op Res → Prop
  permits : γ → Op → Prop

namespace Contract

variable (C : Contract Op Res γ)

/-- From the notes `g` the program performs permitted operations only, as long
as the answers are as expected, and returns in `Q`. -/
def Follows : Prog Op Res α → (α → γ → Prop) → γ → Prop
  | .done value, Q, g => Q value g
  | .perform o next, Q, g =>
      C.permits g o ∧ ∀ r, C.expects g ⟨o, r⟩ → Follows (next r) Q (C.note g ⟨o, r⟩)

@[simp] theorem follows_done (value : α) (Q : α → γ → Prop) (g : γ) :
    C.Follows (.done value) Q g ↔ Q value g := Iff.rfl

@[simp] theorem follows_perform (o : Op) (next : Res o → Prog Op Res α) (Q : α → γ → Prop)
    (g : γ) :
    C.Follows (.perform o next) Q g ↔
      C.permits g o ∧ ∀ r, C.expects g ⟨o, r⟩ → C.Follows (next r) Q (C.note g ⟨o, r⟩) :=
  Iff.rfl

theorem follows_bind (p : Prog Op Res α) (f : α → Prog Op Res β) (Q : β → γ → Prop) (g : γ) :
    C.Follows (p >>= f) Q g ↔ C.Follows p (fun value g' => C.Follows (f value) Q g') g := by
  induction p generalizing g with
  | done value => rfl
  | perform o next ih => simp only [Prog.perform_bind, follows_perform, ih]

theorem follows_mono {Q Q' : α → γ → Prop} (hQ : ∀ value g, Q value g → Q' value g)
    (p : Prog Op Res α) (g : γ) (h : C.Follows p Q g) : C.Follows p Q' g := by
  induction p generalizing g with
  | done value => exact hQ value g h
  | perform o next ih =>
    obtain ⟨hp, hr⟩ := h
    exact ⟨hp, fun r hr' => ih r _ (hr r hr')⟩

/-- A sequence follows the contract when its first part ends in notes from
which the second part follows it. -/
theorem follows_seq {R : α → γ → Prop} {p : Prog Op Res α} {f : α → Prog Op Res β}
    {Q : β → γ → Prop} {g : γ} (hp : C.Follows p R g)
    (hf : ∀ value g', R value g' → C.Follows (f value) Q g') : C.Follows (p >>= f) Q g :=
  (C.follows_bind p f Q g).mpr (C.follows_mono hf p g hp)

/-- A sequence inside a `try`: the first error ends it. -/
theorem follows_attempt {ε : Type} (p : ExceptT ε (Prog Op Res) α)
    (f : α → ExceptT ε (Prog Op Res) β) (Q : Except ε β → γ → Prop) (g : γ) :
    C.Follows (p >>= f).run Q g ↔
      C.Follows p.run (fun value g' => match value with
        | .ok a => C.Follows (f a).run Q g'
        | .error e => Q (.error e) g') g := by
  rw [ExceptT.run_bind, follows_bind]
  constructor <;> refine C.follows_mono ?_ p.run g
  · intro value g' h
    cases value <;> exact h
  · intro value g' h
    cases value <;> exact h

/-- An operation that cannot fail inside a `try`. -/
theorem follows_lift {ε : Type} (p : Prog Op Res α) (f : α → ExceptT ε (Prog Op Res) β)
    (Q : Except ε β → γ → Prop) (g : γ) :
    C.Follows ((liftM p : ExceptT ε (Prog Op Res) α) >>= f).run Q g ↔
      C.Follows p (fun a g' => C.Follows (f a).run Q g') g := by
  rw [follows_attempt]
  exact C.follows_bind p (fun a => .done (Except.ok a)) _ g

/-- The contract, as it reads for the operations of a smaller system. -/
def within {Op' : Type} {Res' : Op' → Type} (inner : Op' → Op)
    (lift : ∀ o, Res' o → Res (inner o)) : Contract Op' Res' γ where
  note g e := C.note g ⟨inner e.1, lift e.1 e.2⟩
  expects g e := C.expects g ⟨inner e.1, lift e.1 e.2⟩
  permits g o := C.permits g (inner o)

theorem follows_embed {Op' : Type} {Res' : Op' → Type} {inner : Op' → Op}
    {lower : ∀ o, Res (inner o) → Res' o} {lift : ∀ o, Res' o → Res (inner o)}
    (hlift : ∀ o r, lift o (lower o r) = r) {p : Prog Op' Res' α} {Q : α → γ → Prop} {g : γ}
    (h : (C.within inner lift).Follows p Q g) : C.Follows (p.embed inner lower) Q g := by
  induction p generalizing g with
  | done value => exact h
  | perform o next ih =>
    obtain ⟨hpermit, hnext⟩ := h
    refine ⟨hpermit, fun r hr => ?_⟩
    have hanswer := hlift o r
    have hrest := hnext (lower o r)
    simp only [within, hanswer] at hrest
    exact ih (lower o r) (hrest hr)

end Contract

end Programs
