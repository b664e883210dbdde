import EventLens.Programs
import Mathlib.Data.Multiset.MapFold

/-!
Calls that run side by side on one state. A pool holds the calls in progress;
a move lets a call start, lets one call perform its next operation, or lets a
call that has returned leave. The notes a contract keeps about each call are
collected in a multiset, so that an invariant speaks of what the calls in
progress have seen and owe, not of their programs.
-/

namespace Programs

/-- A call in progress: its events so far and what is left of it. -/
structure Thread (Call Op : Type) (Res : Op → Type) (Answer : Type) where
  call : Call
  past : List (Event Op Res)
  rest : Prog Op Res Answer

structure Pool (Call Op : Type) (Res : Op → Type) (σ Answer : Type) where
  threads : List (Thread Call Op Res Answer)
  state : σ

/-- The code and its surroundings: the effect of each operation, the program
of each call, when a call may start and what becomes of one that returned. -/
structure Server (Call Op : Type) (Res : Op → Type) (σ Answer : Type) where
  handler : Handler Op Res σ
  prog : Call → Prog Op Res Answer
  accept : Call → σ → Option σ
  release : Call → Answer → Bool → σ → Option σ

/-- A step of the schedule. The environment chooses the thread, the answers it
determines and whether a call that returned is to be tried again. -/
inductive Move (Call Op : Type) (Res : Op → Type)
  | start (c : Call)
  | perform (i : ℕ) (answers : (o : Op) → Res o)
  | leave (i : ℕ) (again : Bool)

variable {Call Op Answer : Type} {Res : Op → Type} {σ γ : Type}

namespace Server

variable (R : Server Call Op Res σ Answer)

def step : Move Call Op Res → Pool Call Op Res σ Answer → Option (Pool Call Op Res σ Answer)
  | .start c, p => (R.accept c p.state).map (fun s => ⟨p.threads ++ [⟨c, [], R.prog c⟩], s⟩)
  | .perform i answers, p =>
    match p.threads[i]? with
    | some ⟨c, past, .perform o next⟩ =>
      let a := R.handler o (answers o) p.state
      some ⟨p.threads.set i ⟨c, past ++ [⟨o, a.1⟩], next a.1⟩, a.2⟩
    | _ => none
  | .leave i again, p =>
    match p.threads[i]? with
    | some ⟨c, _, .done value⟩ =>
      (R.release c value again p.state).map (fun s => ⟨p.threads.eraseIdx i, s⟩)
    | _ => none

/-- The thread that a move advances and the event it adds. -/
def event : Move Call Op Res → Pool Call Op Res σ Answer →
    Option (Thread Call Op Res Answer × Event Op Res)
  | .perform i answers, p =>
    match p.threads[i]? with
    | some ⟨c, past, .perform o next⟩ =>
      some (⟨c, past, .perform o next⟩, ⟨o, (R.handler o (answers o) p.state).1⟩)
    | _ => none
  | _, _ => none

/-- The move meets a condition on the pool, the thread it advances and the
event it adds. -/
def Meets (P : Pool Call Op Res σ Answer → Thread Call Op Res Answer → Event Op Res → Prop)
    (m : Move Call Op Res) (p : Pool Call Op Res σ Answer) : Prop :=
  ∀ te ∈ R.event m p, P p te.1 te.2

instance (P : Pool Call Op Res σ Answer → Thread Call Op Res Answer → Event Op Res → Prop)
    [∀ p t e, Decidable (P p t e)] (m : Move Call Op Res) (p : Pool Call Op Res σ Answer) :
    Decidable (R.Meets P m p) :=
  match h : R.event m p with
  | some te => decidable_of_iff (P p te.1 te.2) (by simp [Meets, h])
  | none => isTrue (by simp [Meets, h])

/-- The pools that moves meeting a condition lead to. -/
inductive Reaches
    (P : Pool Call Op Res σ Answer → Thread Call Op Res Answer → Event Op Res → Prop)
    (p₀ : Pool Call Op Res σ Answer) : Pool Call Op Res σ Answer → Prop
  | start : Reaches P p₀ p₀
  | next {p p' : Pool Call Op Res σ Answer} (m : Move Call Op Res) (earlier : Reaches P p₀ p)
      (hstep : R.step m p = some p') (hmeets : R.Meets P m p) : Reaches P p₀ p'

/-- The moves in order, as long as each meets the condition. -/
def play (P : Pool Call Op Res σ Answer → Thread Call Op Res Answer → Event Op Res → Prop)
    [∀ p t e, Decidable (P p t e)] : List (Move Call Op Res) → Pool Call Op Res σ Answer →
      Option (Pool Call Op Res σ Answer)
  | [], p => some p
  | m :: ms, p => if R.Meets P m p then (R.step m p).bind (play P ms) else none

variable {R} {P : Pool Call Op Res σ Answer → Thread Call Op Res Answer → Event Op Res → Prop}
  {p₀ p p' : Pool Call Op Res σ Answer}

theorem Reaches.play [∀ p t e, Decidable (P p t e)] (ms : List (Move Call Op Res))
    (earlier : R.Reaches P p₀ p) (h : R.play P ms p = some p') : R.Reaches P p₀ p' := by
  induction ms generalizing p with
  | nil =>
    cases h
    exact earlier
  | cons m ms ih =>
    rw [Server.play] at h
    split at h
    · rename_i hmeets
      obtain ⟨p₁, hstep, hrest⟩ := Option.bind_eq_some_iff.mp h
      exact ih (earlier.next m hstep hmeets) hrest
    · cases h

theorem Reaches.mono {P' : Pool Call Op Res σ Answer → Thread Call Op Res Answer →
    Event Op Res → Prop} (hP : ∀ p t e, P p t e → P' p t e) (h : R.Reaches P p₀ p) :
    R.Reaches P' p₀ p := by
  induction h with
  | start => exact .start
  | next m earlier hstep hmeets ih =>
    exact ih.next m hstep (fun te hte => hP _ _ _ (hmeets te hte))

/-! What a move does, with the advanced thread in its place. -/

theorem split_threads {threads : List (Thread Call Op Res Answer)} {i : ℕ}
    {t : Thread Call Op Res Answer} (h : threads[i]? = some t) :
    ∃ before after, threads = before ++ t :: after ∧
      (∀ t', threads.set i t' = before ++ t' :: after) ∧
      threads.eraseIdx i = before ++ after := by
  induction threads generalizing i with
  | nil => simp at h
  | cons u threads ih =>
    cases i with
    | zero =>
      cases h
      exact ⟨[], threads, rfl, fun _ => rfl, rfl⟩
    | succ i =>
      obtain ⟨before, after, hthreads, hset, herase⟩ := ih h
      refine ⟨u :: before, after, by rw [hthreads, List.cons_append], fun t' => ?_, ?_⟩
      · rw [List.set_cons_succ, hset, List.cons_append]
      · rw [List.eraseIdx_cons_succ, herase, List.cons_append]

theorem step_start {c : Call} (h : R.step (.start c) p = some p') :
    ∃ s, R.accept c p.state = some s ∧ p' = ⟨p.threads ++ [⟨c, [], R.prog c⟩], s⟩ := by
  obtain ⟨s, hs, rfl⟩ := Option.map_eq_some_iff.mp h
  exact ⟨s, hs, rfl⟩

theorem step_perform {i : ℕ} {answers : (o : Op) → Res o}
    (h : R.step (.perform i answers) p = some p') :
    ∃ before after c past o next,
      p.threads = before ++ ⟨c, past, .perform o next⟩ :: after ∧
      R.event (.perform i answers) p =
        some (⟨c, past, .perform o next⟩, ⟨o, (R.handler o (answers o) p.state).1⟩) ∧
      p' = ⟨before ++ ⟨c, past ++ [⟨o, (R.handler o (answers o) p.state).1⟩],
        next (R.handler o (answers o) p.state).1⟩ :: after,
        (R.handler o (answers o) p.state).2⟩ := by
  rw [step] at h
  split at h
  · rename_i c past o next ht
    obtain ⟨before, after, hthreads, hset, -⟩ := split_threads ht
    simp only [hset] at h
    refine ⟨before, after, c, past, o, next, hthreads, ?_, (Option.some.inj h).symm⟩
    rw [event, ht]
  · cases h

theorem step_leave {i : ℕ} {again : Bool} (h : R.step (.leave i again) p = some p') :
    ∃ before after c past value s,
      p.threads = before ++ ⟨c, past, .done value⟩ :: after ∧
      R.release c value again p.state = some s ∧ p' = ⟨before ++ after, s⟩ := by
  rw [step] at h
  split at h
  · rename_i c past value ht
    obtain ⟨before, after, hthreads, -, herase⟩ := split_threads ht
    obtain ⟨s, hs, rfl⟩ := Option.map_eq_some_iff.mp h
    exact ⟨before, after, c, past, value, s, hthreads, hs, by rw [herase]⟩
  · cases h

/-- The thread that a move advances gains the event, the answer being the
handler's. -/
theorem step_event {i : ℕ} {answers : (o : Op) → Res o} {t : Thread Call Op Res Answer}
    {e : Event Op Res} (h : R.step (.perform i answers) p = some p')
    (hevent : R.event (.perform i answers) p = some (t, e)) :
    e.2 = (R.handler e.1 (answers e.1) p.state).1 ∧
      ∃ rest, p'.threads[i]? = some ⟨t.call, t.past ++ [e], rest⟩ := by
  rw [event] at hevent
  rw [step] at h
  split at hevent
  · rename_i c past o next ht
    cases hevent
    simp only [ht] at h
    cases h
    have hlt := (List.getElem?_eq_some_iff.mp ht).1
    exact ⟨rfl, next (R.handler o (answers o) p.state).1, List.getElem?_set_self hlt⟩
  · cases hevent

/-- The thread that a move advances is about to perform the operation. -/
theorem event_thread {m : Move Call Op Res} {t : Thread Call Op Res Answer} {e : Event Op Res}
    (h : R.event m p = some (t, e)) :
    ∃ before after next r, p.threads = before ++ t :: after ∧ t.rest = .perform e.1 next ∧
      e.2 = (R.handler e.1 r p.state).1 := by
  cases m with
  | start c => cases h
  | leave i again => cases h
  | perform i answers =>
    rw [event] at h
    split at h
    · rename_i c past o next ht
      cases h
      obtain ⟨before, after, hthreads, -, -⟩ := split_threads ht
      exact ⟨before, after, next, answers o, hthreads, rfl, rfl⟩
    · cases h

end Server

/-! Notes of a whole pool. -/

section Notes

variable (C : Contract Op Res γ) (first : Call → γ)

def Thread.notes (t : Thread Call Op Res Answer) : γ := t.past.foldl C.note (first t.call)

/-- The notes of the calls in progress. -/
def notesOf (threads : List (Thread Call Op Res Answer)) : Multiset γ :=
  (threads.map (fun t => t.notes C first) : List γ)

/-- What is left of the thread follows the contract. -/
def Thread.Obeys (post : Call → Answer → γ → Prop) (t : Thread Call Op Res Answer) : Prop :=
  C.Follows t.rest (post t.call) (t.notes C first)

variable {C first}

@[simp] theorem notes_started (c : Call) (rest : Prog Op Res Answer) :
    Thread.notes C first (⟨c, [], rest⟩ : Thread Call Op Res Answer) = first c := rfl

theorem notes_advanced (c : Call) (past : List (Event Op Res)) (e : Event Op Res)
    (rest rest' : Prog Op Res Answer) :
    Thread.notes C first ⟨c, past ++ [e], rest⟩ =
      C.note (Thread.notes C first ⟨c, past, rest'⟩) e := by
  simp only [Thread.notes, List.foldl_append, List.foldl_cons, List.foldl_nil]

@[simp] theorem notesOf_nil :
    notesOf C first ([] : List (Thread Call Op Res Answer)) = 0 := rfl

theorem notesOf_split (before after : List (Thread Call Op Res Answer))
    (t : Thread Call Op Res Answer) :
    notesOf C first (before ++ t :: after) =
      t.notes C first ::ₘ notesOf C first (before ++ after) := by
  simp only [notesOf, List.map_append, List.map_cons]
  exact Multiset.coe_eq_coe.mpr List.perm_middle

theorem notesOf_snoc (threads : List (Thread Call Op Res Answer))
    (t : Thread Call Op Res Answer) :
    notesOf C first (threads ++ [t]) = t.notes C first ::ₘ notesOf C first threads := by
  rw [notesOf_split, List.append_nil]

theorem mem_notesOf {threads : List (Thread Call Op Res Answer)} {g : γ} :
    g ∈ notesOf C first threads ↔ ∃ t ∈ threads, t.notes C first = g := by
  simp [notesOf]

end Notes

section Invariants

variable {R : Server Call Op Res σ Answer}
  {P : Pool Call Op Res σ Answer → Thread Call Op Res Answer → Event Op Res → Prop}
  {p₀ p p' : Pool Call Op Res σ Answer} {C : Contract Op Res γ} {first : Call → γ}
  {post : Call → Answer → γ → Prop}

/-- What preserves an invariant of the notes and the state, move by move. -/
structure Preserves (R : Server Call Op Res σ Answer)
    (P : Pool Call Op Res σ Answer → Thread Call Op Res Answer → Event Op Res → Prop)
    (C : Contract Op Res γ) (first : Call → γ) (post : Call → Answer → γ → Prop)
    (I : Multiset γ → σ → Prop) : Prop where
  accept : ∀ c N s s', I N s → R.accept c s = some s' → I (first c ::ₘ N) s'
  perform : ∀ p t N o r, notesOf C first p.threads = t.notes C first ::ₘ N →
    I (t.notes C first ::ₘ N) p.state → C.permits (t.notes C first) o →
    P p t ⟨o, (R.handler o r p.state).1⟩ →
    C.expects (t.notes C first) ⟨o, (R.handler o r p.state).1⟩ ∧
      I (C.note (t.notes C first) ⟨o, (R.handler o r p.state).1⟩ ::ₘ N)
        (R.handler o r p.state).2
  release : ∀ c value g again N s s', I (g ::ₘ N) s → post c value g →
    R.release c value again s = some s' → I N s'

theorem step_invariant {I : Multiset γ → σ → Prop} {m : Move Call Op Res}
    (calls : ∀ c, C.Follows (R.prog c) (post c) (first c))
    (keeps : Preserves R P C first post I)
    (hobeys : ∀ t ∈ p.threads, t.Obeys C first post)
    (hI : I (notesOf C first p.threads) p.state)
    (hstep : R.step m p = some p') (hmeets : R.Meets P m p) :
    (∀ t ∈ p'.threads, t.Obeys C first post) ∧ I (notesOf C first p'.threads) p'.state := by
  cases m with
  | start c =>
    obtain ⟨s, hs, rfl⟩ := Server.step_start hstep
    refine ⟨?_, ?_⟩
    · intro t ht
      rcases List.mem_append.mp ht with ht | ht
      · exact hobeys t ht
      · cases List.mem_singleton.mp ht
        exact calls c
    · rw [notesOf_snoc]
      exact keeps.accept c _ _ _ hI hs
  | perform i answers =>
    obtain ⟨before, after, c, past, o, next, hthreads, hevent, rfl⟩ := Server.step_perform hstep
    have hP := hmeets _ hevent
    rw [hthreads] at hobeys
    have hnotes := congrArg (notesOf C first) hthreads
    rw [notesOf_split] at hnotes
    obtain ⟨hpermit, hnext⟩ := hobeys ⟨c, past, .perform o next⟩ (by simp)
    obtain ⟨hexpect, hI'⟩ := keeps.perform p _ _ o (answers o) hnotes (hnotes ▸ hI) hpermit hP
    refine ⟨?_, ?_⟩
    · intro t ht
      rcases List.mem_append.mp ht with ht | ht
      · exact hobeys t (by simp [ht])
      · rcases List.mem_cons.mp ht with rfl | ht
        · rw [Thread.Obeys, notes_advanced c past _ _ (.perform o next)]
          exact hnext _ hexpect
        · exact hobeys t (by simp [ht])
    · rw [notesOf_split, notes_advanced c past _ _ (.perform o next)]
      exact hI'
  | leave i again =>
    obtain ⟨before, after, c, past, value, s, hthreads, hs, rfl⟩ := Server.step_leave hstep
    rw [hthreads] at hobeys
    rw [hthreads, notesOf_split] at hI
    have hpost : post c value _ := hobeys ⟨c, past, .done value⟩ (by simp)
    refine ⟨?_, keeps.release c value _ again _ _ _ hI hpost hs⟩
    intro t ht
    refine hobeys t ?_
    rcases List.mem_append.mp ht with ht | ht <;> simp [ht]

/-- An invariant of the notes and the state holds in every pool reached. -/
theorem Server.Reaches.invariant {I : Multiset γ → σ → Prop}
    (calls : ∀ c, C.Follows (R.prog c) (post c) (first c))
    (keeps : Preserves R P C first post I) (empty : p₀.threads = []) (start : I 0 p₀.state)
    (h : R.Reaches P p₀ p) :
    (∀ t ∈ p.threads, t.Obeys C first post) ∧ I (notesOf C first p.threads) p.state := by
  induction h with
  | start =>
    rw [empty]
    exact ⟨by simp, start⟩
  | next m earlier hstep hmeets ih =>
    exact step_invariant calls keeps ih.1 ih.2 hstep hmeets

/-- What a pool reached says about the next event of one of its threads. -/
theorem Server.Reaches.event {I : Multiset γ → σ → Prop}
    (calls : ∀ c, C.Follows (R.prog c) (post c) (first c))
    (keeps : Preserves R P C first post I) (empty : p₀.threads = []) (start : I 0 p₀.state)
    (h : R.Reaches P p₀ p) {m : Move Call Op Res} {t : Thread Call Op Res Answer}
    {e : Event Op Res} (hevent : R.event m p = some (t, e)) :
    ∃ N r, notesOf C first p.threads = t.notes C first ::ₘ N ∧
      I (t.notes C first ::ₘ N) p.state ∧ C.permits (t.notes C first) e.1 ∧
      e.2 = (R.handler e.1 r p.state).1 := by
  obtain ⟨hobeys, hI⟩ := h.invariant calls keeps empty start
  obtain ⟨before, after, next, r, hthreads, hrest, hanswer⟩ := Server.event_thread hevent
  have hnotes := congrArg (notesOf C first) hthreads
  rw [notesOf_split] at hnotes
  have hobey := hobeys t (by rw [hthreads]; simp)
  rw [Thread.Obeys, hrest] at hobey
  exact ⟨_, r, hnotes, hnotes ▸ hI, hobey.1, hanswer⟩

end Invariants

end Programs
