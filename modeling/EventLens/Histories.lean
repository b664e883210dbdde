import EventLens.Programs

/-!
Histories: calls made one after another on one state. An episode carries the
call, the state it found, its events and its answer. What every call
preserves holds after a whole history, also when the calls are restricted by
a condition on the episode and the episodes before it. A caller that is alone
on the state may count on its own effects: its notes are the state and the
events so far.
-/

namespace Programs

/-- A call together with its execution. -/
structure Episode (Call Op : Type) (Res : Op → Type) (σ Answer : Type) where
  call : Call
  before : σ
  trace : List (Event Op Res)
  answer : Answer

variable {Call Op Answer : Type} {Res : Op → Type} {σ E : Type}

inductive History (h : Handler Op Res σ) (prog : Call → Prog Op Res Answer) (s : σ) :
    List (Episode Call Op Res σ Answer) → σ → Prop
  | start : History h prog s [] s
  | next {past : List (Episode Call Op Res σ Answer)} {s' s'' : σ}
      (earlier : History h prog s past s') (call : Call) {trace : List (Event Op Res)}
      {answer : Answer} (he : Exec h (prog call) s' trace answer s'') :
      History h prog s (past ++ [⟨call, s', trace, answer⟩]) s''

/-- `P` holds of every episode and the episodes before it. -/
def Throughout (P : List E → E → Prop) (es : List E) : Prop :=
  ∀ past e rest, es = past ++ e :: rest → P past e

theorem throughout_nil (P : List E → E → Prop) : Throughout P [] := by
  intro past e rest hes
  have hlen := congrArg List.length hes
  simp at hlen

theorem throughout_cons {P : List E → E → Prop} {e : E} {es : List E} :
    Throughout P (e :: es) ↔ P [] e ∧ Throughout (fun past => P (e :: past)) es := by
  constructor
  · intro h
    exact ⟨h [] e es rfl, fun past e' rest hes => h (e :: past) e' rest (by rw [hes]; rfl)⟩
  · rintro ⟨hfirst, hrest⟩ past e' rest hes
    cases past with
    | nil =>
      cases hes
      exact hfirst
    | cons first past =>
      cases hes
      exact hrest past e' rest rfl

theorem throughout_append {P : List E → E → Prop} {past rest : List E} :
    Throughout P (past ++ rest) ↔
      Throughout P past ∧ Throughout (fun later => P (past ++ later)) rest := by
  induction past generalizing P with
  | nil => simp [throughout_nil]
  | cons e past ih =>
    simp only [List.cons_append, throughout_cons, ih, and_assoc]

theorem throughout_snoc {P : List E → E → Prop} {past : List E} {e : E} :
    Throughout P (past ++ [e]) ↔ Throughout P past ∧ P past e := by
  simp only [throughout_append, throughout_cons, throughout_nil, and_true, List.append_nil]

instance decidableThroughout : ∀ (es : List E) (P : List E → E → Prop)
    [∀ past e, Decidable (P past e)], Decidable (Throughout P es)
  | [], P, _ => isTrue (throughout_nil P)
  | e :: es, P, _ =>
    have := decidableThroughout es (fun past => P (e :: past))
    decidable_of_iff (P [] e ∧ Throughout (fun past => P (e :: past)) es) throughout_cons.symm

/-- A handler that records the answer it gives: proposed again, the answer has
the same effect. -/
def Lawful (h : Handler Op Res σ) : Prop := ∀ o r s, h o (h o r s).1 s = h o r s

/-- The contract of a caller that is alone on the state. `expects` and
`permits` are conditions on the events so far and the next event. -/
def alone (h : Handler Op Res σ) (expects : List (Event Op Res) → Event Op Res → Prop)
    (permits : List (Event Op Res) → Op → Prop) : Contract Op Res (σ × List (Event Op Res)) where
  note g e := ((h e.1 e.2 g.1).2, g.2 ++ [e])
  expects g e := (h e.1 e.2 g.1).1 = e.2 ∧ expects g.2 e
  permits g o := permits g.2 o

section Alone

variable {h : Handler Op Res σ} {expects : List (Event Op Res) → Event Op Res → Prop}
  {permits : List (Event Op Res) → Op → Prop} {α : Type}

/-- An execution of a program that follows the contract performs permitted
operations only and ends in the postcondition. -/
theorem exec_follows (hlawful : Lawful h) {p : Prog Op Res α} {s s' : σ}
    {trace : List (Event Op Res)} {value : α} (he : Exec h p s trace value s')
    {Q : α → σ × List (Event Op Res) → Prop} {past : List (Event Op Res)}
    (hp : (alone h expects permits).Follows p Q (s, past))
    (hexpects : Throughout (fun later => expects (past ++ later)) trace) :
    Throughout (fun later e => permits (past ++ later) e.1) trace ∧
      Q value (s', past ++ trace) := by
  induction he generalizing past with
  | done value s => exact ⟨throughout_nil _, by simpa using hp⟩
  | perform o next r rest ih =>
    obtain ⟨hpermit, hnext⟩ := hp
    obtain ⟨hfirst, hrest⟩ := throughout_cons.mp hexpects
    have hnote := hnext _ ⟨congrArg Prod.fst (hlawful o r _), by simpa using hfirst⟩
    simp only [alone, hlawful o r _] at hnote
    have hlater := ih hnote (by simpa only [List.append_assoc, List.singleton_append] using hrest)
    refine ⟨throughout_cons.mpr ⟨by simpa [alone] using hpermit, ?_⟩, ?_⟩
    · simpa only [List.append_assoc, List.singleton_append] using hlater.1
    · simpa only [List.append_assoc, List.singleton_append] using hlater.2

end Alone

section Rules

variable {h : Handler Op Res σ} {prog : Call → Prog Op Res Answer} {s s' : σ}
  {es : List (Episode Call Op Res σ Answer)}

/-- What holds at the start and is preserved by every call that meets the
condition holds after every history whose calls meet it. -/
theorem History.invariant {I : List (Episode Call Op Res σ Answer) → σ → Prop}
    {P : List (Episode Call Op Res σ Answer) → Episode Call Op Res σ Answer → Prop}
    (start : I [] s)
    (next : ∀ past e s', I past e.before → P past e →
      Exec h (prog e.call) e.before e.trace e.answer s' → I (past ++ [e]) s')
    (hist : History h prog s es s') (steps : Throughout P es) : I es s' := by
  induction hist with
  | start => exact start
  | next earlier call he ih =>
    obtain ⟨hpast, hlast⟩ := throughout_snoc.mp steps
    exact next _ ⟨call, _, _, _⟩ _ (ih hpast) hlast he

/-- The history up to an episode, and the execution of the episode. -/
theorem History.split (hist : History h prog s es s')
    {past rest : List (Episode Call Op Res σ Answer)} {e : Episode Call Op Res σ Answer}
    (hes : es = past ++ e :: rest) :
    History h prog s past e.before ∧
      ∃ after, Exec h (prog e.call) e.before e.trace e.answer after := by
  induction hist generalizing rest with
  | start =>
    have hlen := congrArg List.length hes
    simp at hlen
  | next earlier call he ih =>
    rcases List.eq_nil_or_concat rest with rfl | ⟨init, last, rfl⟩
    · obtain ⟨rfl, hlast⟩ := List.append_inj' hes rfl
      cases hlast
      exact ⟨earlier, _, he⟩
    · rw [List.concat_eq_append, ← List.cons_append, ← List.append_assoc] at hes
      exact ih (List.append_inj' hes rfl).1

/-- A history in two parts. -/
theorem History.parts (hist : History h prog s es s')
    {past rest : List (Episode Call Op Res σ Answer)} (hes : es = past ++ rest) :
    ∃ between, History h prog s past between ∧ History h prog between rest s' := by
  induction hist generalizing rest with
  | start =>
    obtain ⟨rfl, rfl⟩ := List.append_eq_nil_iff.mp hes.symm
    exact ⟨s, History.start, History.start⟩
  | next earlier call he ih =>
    rcases List.eq_nil_or_concat rest with rfl | ⟨init, last, rfl⟩
    · rw [List.append_nil] at hes
      subst hes
      exact ⟨_, History.next earlier call he, History.start⟩
    · rw [List.concat_eq_append, ← List.append_assoc] at hes
      obtain ⟨rfl, hlast⟩ := List.append_inj' hes rfl
      obtain ⟨between, hpast, hinit⟩ := ih rfl
      simp only [List.cons.injEq, and_true] at hlast
      subst hlast
      refine ⟨between, hpast, ?_⟩
      rw [List.concat_eq_append]
      exact History.next hinit call he

/-- The last call of a history leaves the final state. -/
theorem History.last {past : List (Episode Call Op Res σ Answer)} {e : Episode Call Op Res σ Answer}
    (hist : History h prog s es s') (hes : es = past ++ [e]) :
    Exec h (prog e.call) e.before e.trace e.answer s' := by
  cases hist with
  | start => exact absurd hes.symm (by simp)
  | next earlier call he =>
    obtain ⟨-, hlast⟩ := List.append_inj' hes rfl
    simp only [List.cons.injEq, and_true] at hlast
    subst hlast
    exact he

/-- The events of a whole history. -/
def traceOf (es : List (Episode Call Op Res σ Answer)) : List (Event Op Res) :=
  es.flatMap (fun e => e.trace)

theorem traceOf_snoc (past : List (Episode Call Op Res σ Answer))
    (e : Episode Call Op Res σ Answer) : traceOf (past ++ [e]) = traceOf past ++ e.trace := by
  simp [traceOf]

/-- What every call follows, with `I` between the calls, a history follows. -/
theorem History.follows (hlawful : Lawful h)
    {expects : List (Event Op Res) → Event Op Res → Prop}
    {permits : List (Event Op Res) → Op → Prop} {I : σ × List (Event Op Res) → Prop}
    (calls : ∀ c g, I g → (alone h expects permits).Follows (prog c) (fun _ g' => I g') g)
    (start : I (s, [])) (hist : History h prog s es s')
    (hexpects : Throughout expects (traceOf es)) :
    Throughout (fun past e => permits past e.1) (traceOf es) ∧ I (s', traceOf es) := by
  induction hist with
  | start => exact ⟨throughout_nil _, start⟩
  | next earlier call he ih =>
    rw [traceOf_snoc] at hexpects ⊢
    obtain ⟨hpast, hlast⟩ := throughout_append.mp hexpects
    obtain ⟨hpermits, hI⟩ := ih hpast
    obtain ⟨hmore, hafter⟩ := exec_follows hlawful he (calls call _ hI) hlast
    exact ⟨throughout_append.mpr ⟨hpermits, hmore⟩, hafter⟩

/-- The calls in order, each against its own proposed answers. -/
def play (h : Handler Op Res σ) (prog : Call → Prog Op Res Answer) :
    List (Call × Oracle Op Res) → σ → List (Episode Call Op Res σ Answer) × σ
  | [], s => ([], s)
  | (call, ω) :: calls, s =>
    let out := run h (prog call) ω s
    let rest := play h prog calls out.state
    (⟨call, s, out.trace, out.value⟩ :: rest.1, rest.2)

theorem history_play_append {past : List (Episode Call Op Res σ Answer)}
    (earlier : History h prog s past s') (calls : List (Call × Oracle Op Res)) :
    History h prog s (past ++ (play h prog calls s').1) (play h prog calls s').2 := by
  induction calls generalizing past s' with
  | nil => simpa [play] using earlier
  | cons c calls ih =>
    obtain ⟨call, ω⟩ := c
    have hnext := History.next earlier call (exec_run h (prog call) ω s')
    have hrest := ih hnext
    rw [List.append_assoc] at hrest
    exact hrest

theorem history_play (calls : List (Call × Oracle Op Res)) (s : σ) :
    History h prog s (play h prog calls s).1 (play h prog calls s).2 :=
  history_play_append History.start calls

end Rules

end Programs
