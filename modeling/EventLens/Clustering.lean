import Mathlib.Data.List.Nodup
import Mathlib.Logic.Function.Basic

/-!
Clustering from a queue. Points are taken one after the other; a core point is
given the label of a near point or a label of its own, and a point that is not
core is put back once before it may be given the label of a near point. Labels
never change. When the queue is empty, core points and the points near them
have labels.
-/

namespace Clustering

variable {α P : Type} [DecidableEq α]

/-- The labels given so far, and the points for which labels were made. -/
structure Labels (α P : Type) where
  label : α → Option P
  founders : List (α × P)

def Labels.assign (s : Labels α P) (x : α) (p : P) : Labels α P :=
  { s with label := Function.update s.label x (some p) }

def Labels.found (s : Labels α P) (x : α) (p : P) : Labels α P :=
  { s.assign x p with founders := s.founders ++ [(x, p)] }

section Steps

variable (near : α → α → Prop) (core : α → Prop)

/-- What becomes of a point taken from the queue, and what is queued again. -/
inductive Handles (x : α) (deferred : Bool) (s : Labels α P) : Labels α P → List (α × Bool) → Prop
  | keep (h : s.label x ≠ none) : Handles x deferred s s []
  | skip (h : s.label x = none) (hcore : ¬ core x) (halone : ∀ y, near x y → y = x) :
      Handles x deferred s s []
  | defer (h : s.label x = none) (hcore : ¬ core x) (hfirst : deferred = false) :
      Handles x deferred s s [(x, true)]
  | join {y : α} {p : P} (h : s.label x = none) (hnear : near x y) (hne : y ≠ x)
      (hp : s.label y = some p) (hready : core x ∨ deferred = true) :
      Handles x deferred s (s.assign x p) []
  | found {p : P} (h : s.label x = none) (hcore : core x) : Handles x deferred s (s.found x p) []
  | leave (h : s.label x = none) (hcore : ¬ core x) (hdeferred : deferred = true)
      (hnone : ∀ y, near x y → s.label y = none) : Handles x deferred s s []

/-- The points handled from a queue, in order, what is left of it, and the
labels given. -/
inductive Runs :
    List (α × Bool) → Labels α P → List (α × Bool) → List (α × Bool) → Labels α P → Prop
  | start (queue : List (α × Bool)) (s : Labels α P) : Runs queue s [] queue s
  | next {x : α} {deferred : Bool} {queue added past left : List (α × Bool)} {s s' s'' : Labels α P}
      (first : Handles near core x deferred s s' added)
        (rest : Runs (queue ++ added) s' past left s'') :
      Runs ((x, deferred) :: queue) s ((x, deferred) :: past) left s''

/-- Every label was made for its point, or is that of another point near it. -/
def Linked (s : Labels α P) : Prop :=
  ∀ x p, s.label x = some p → (x, p) ∈ s.founders ∨ ∃ y, y ≠ x ∧ near x y ∧ s.label y = some p

/-- The points of the first and of the second round that are still queued. -/
structure Progress (points first second : List α) (s : Labels α P) : Prop where
  cores : ∀ x ∈ points, core x → x ∈ first ∨ s.label x ≠ none
  fringe : ∀ x ∈ points, (∃ c, core c ∧ near x c) → x ∈ first ∨ x ∈ second ∨ s.label x ≠ none
  second : ∀ x ∈ second, ¬ core x
  linked : Linked near s

end Steps

def queued (first second : List α) : List (α × Bool) :=
  first.map (fun x => (x, false)) ++ second.map (fun x => (x, true))

variable {near : α → α → Prop} {core : α → Prop} {s s' : Labels α P} {x : α} {deferred : Bool}
  {added : List (α × Bool)} {points first second : List α}

theorem label_assign_self (s : Labels α P) (x : α) (p : P) : (s.assign x p).label x = some p := by
  unfold Labels.assign
  simp

theorem label_assign_of_ne {p : P} {y : α} (h : y ≠ x) : (s.assign x p).label y = s.label y := by
  unfold Labels.assign
  simp [h]

theorem label_found (s : Labels α P) (x : α) (p : P) :
    (s.found x p).label = (s.assign x p).label := rfl

theorem label_assign {p q : P} {y : α} (h : s.label x = none) (hy : s.label y = some q) :
    (s.assign x p).label y = some q := by
  have hne : y ≠ x := by
    rintro rfl
    rw [h] at hy
    cases hy
  rw [label_assign_of_ne hne]
  exact hy

/-- Labels never change. -/
theorem Handles.label (h : Handles near core x deferred s s' added) {y : α} {q : P}
    (hy : s.label y = some q) : s'.label y = some q := by
  cases h with
  | join h _ _ _ _ => exact label_assign h hy
  | found h _ => exact label_assign h hy
  | keep _ => exact hy
  | skip _ _ _ => exact hy
  | defer _ _ _ => exact hy
  | leave _ _ _ _ => exact hy

/-- Only the point itself is queued again, for the second round. -/
theorem Handles.queuedAgain (h : Handles near core x deferred s s' added) :
    ∀ e ∈ added, e = (x, true) := by
  intro e he
  cases h with
  | defer _ _ _ => exact List.mem_singleton.mp he
  | keep _ => exact absurd he List.not_mem_nil
  | skip _ _ _ => exact absurd he List.not_mem_nil
  | join _ _ _ _ _ => exact absurd he List.not_mem_nil
  | found _ _ => exact absurd he List.not_mem_nil
  | leave _ _ _ _ => exact absurd he List.not_mem_nil

theorem Handles.label_ne_none (h : Handles near core x deferred s s' added) {y : α}
    (hy : s.label y ≠ none) : s'.label y ≠ none := by
  obtain ⟨q, hq⟩ := Option.ne_none_iff_exists'.mp hy
  rw [h.label hq]
  exact Option.some_ne_none q

theorem Linked.assign (h : Linked near s) {y : α} {p : P} (hx : s.label x = none) (hnear : near x y)
    (hne : y ≠ x) (hp : s.label y = some p) : Linked near (s.assign x p) := by
  intro z q hz
  by_cases hzx : z = x
  · subst hzx
    rw [label_assign_self] at hz
    cases hz
    exact .inr ⟨y, hne, hnear, label_assign hx hp⟩
  · rw [label_assign_of_ne hzx] at hz
    rcases h z q hz with hfounder | ⟨w, hwz, hzw, hw⟩
    · exact .inl hfounder
    · exact .inr ⟨w, hwz, hzw, label_assign hx hw⟩

theorem Linked.found (h : Linked near s) {p : P} (hx : s.label x = none) :
    Linked near (s.found x p) := by
  intro z q hz
  by_cases hzx : z = x
  · subst hzx
    rw [label_found, label_assign_self] at hz
    cases hz
    exact .inl (List.mem_append_right _ (List.mem_singleton_self _))
  · rw [label_found, label_assign_of_ne hzx] at hz
    rcases h z q hz with hfounder | ⟨w, hwz, hzw, hw⟩
    · exact .inl (List.mem_append_left _ hfounder)
    · exact .inr ⟨w, hwz, hzw, label_assign hx hw⟩

theorem Handles.linked (h : Handles near core x deferred s s' added) (hlinked : Linked near s) :
    Linked near s' := by
  cases h with
  | join hx hnear hne hp _ => exact hlinked.assign hx hnear hne hp
  | found hx _ => exact hlinked.found hx
  | keep _ => exact hlinked
  | skip _ _ _ => exact hlinked
  | defer _ _ _ => exact hlinked
  | leave _ _ _ _ => exact hlinked

/-- The point handled has a label now, or it is alone, deferred or left without
any near point that has one. -/
theorem Handles.outcome (h : Handles near core x deferred s s' added) :
    (s'.label x ≠ none ∧ added = []) ∨
      ¬ core x ∧ ((∀ y, near x y → y = x) ∧ added = [] ∨ deferred = false ∧ added = [(x, true)] ∨
        deferred = true ∧ (∀ y, near x y → s.label y = none) ∧ added = []) := by
  cases h with
  | keep h => exact .inl ⟨h, rfl⟩
  | skip _ hcore halone => exact .inr ⟨hcore, .inl ⟨halone, rfl⟩⟩
  | defer _ hcore hfirst => exact .inr ⟨hcore, .inr (.inl ⟨hfirst, rfl⟩)⟩
  | @join y p _ _ _ _ _ =>
    refine .inl ⟨?_, rfl⟩
    rw [label_assign_self]
    exact Option.some_ne_none p
  | @found p _ _ =>
    refine .inl ⟨?_, rfl⟩
    rw [label_found, label_assign_self]
    exact Option.some_ne_none p
  | leave _ hcore hdeferred hnone => exact .inr ⟨hcore, .inr (.inr ⟨hdeferred, hnone, rfl⟩)⟩

/-- A point of the first round is done with, or goes into the second. -/
theorem Progress.firstRound (h : Progress near core points (x :: first) second s)
    (hstep : Handles near core x false s s' added) :
    ∃ again, added = again.map (fun y => (y, true)) ∧ (again = [] ∨ again = [x]) ∧
      Progress near core points first (second ++ again) s' := by
  have hkept : ∀ y, y ∈ x :: first ∨ s.label y ≠ none → y = x ∨ y ∈ first ∨ s'.label y ≠ none := by
    intro y hy
    rcases hy with hy | hy
    · rcases List.mem_cons.mp hy with rfl | hy
      · exact .inl rfl
      · exact .inr (.inl hy)
    · exact .inr (.inr (hstep.label_ne_none hy))
  rcases hstep.outcome with ⟨hlabel, rfl⟩ | ⟨hcore, hcases⟩
  · refine ⟨[], rfl, .inl rfl, fun y hy hcore => ?_, fun y hy hc => ?_, ?_, hstep.linked h.linked⟩
    · rcases hkept y (h.cores y hy hcore) with rfl | hrest
      · exact .inr hlabel
      · exact hrest
    · rw [List.append_nil]
      rcases h.fringe y hy hc with hmem | hmem | hmem
      · rcases hkept y (.inl hmem) with rfl | hrest | hrest
        · exact .inr (.inr hlabel)
        · exact .inl hrest
        · exact .inr (.inr hrest)
      · exact .inr (.inl hmem)
      · exact .inr (.inr (hstep.label_ne_none hmem))
    · rw [List.append_nil]
      exact h.second
  · have hcores : ∀ y ∈ points, core y → y ∈ first ∨ s'.label y ≠ none := by
      intro y hy hycore
      rcases hkept y (h.cores y hy hycore) with rfl | hrest
      · exact absurd hycore hcore
      · exact hrest
    rcases hcases with ⟨halone, rfl⟩ | ⟨-, rfl⟩ | ⟨hfalse, -⟩
    · refine ⟨[], rfl, .inl rfl, hcores, fun y hy hc => ?_, ?_, hstep.linked h.linked⟩
      · rw [List.append_nil]
        rcases h.fringe y hy hc with hmem | hmem | hmem
        · rcases List.mem_cons.mp hmem with rfl | hmem
          · -- a point alone is near no core point
            obtain ⟨c, hccore, hnear⟩ := hc
            rw [halone c hnear] at hccore
            exact absurd hccore hcore
          · exact .inl hmem
        · exact .inr (.inl hmem)
        · exact .inr (.inr (hstep.label_ne_none hmem))
      · rw [List.append_nil]
        exact h.second
    · refine ⟨[x], rfl, .inr rfl, hcores, fun y hy hc => ?_, fun y hy => ?_, hstep.linked h.linked⟩
      · rcases h.fringe y hy hc with hmem | hmem | hmem
        · rcases List.mem_cons.mp hmem with rfl | hmem
          · exact .inr (.inl (List.mem_append_right _ (List.mem_singleton_self y)))
          · exact .inl hmem
        · exact .inr (.inl (List.mem_append_left _ hmem))
        · exact .inr (.inr (hstep.label_ne_none hmem))
      · rcases List.mem_append.mp hy with hy | hy
        · exact h.second y hy
        · rw [List.mem_singleton.mp hy]
          exact hcore
    · cases hfalse

/-- When the first round is over, core points have labels, and a point near one
is given one. -/
theorem Progress.secondRound (h : Progress near core points [] (x :: second) s)
    (hpoints : ∀ c, core c → c ∈ points) (hstep : Handles near core x true s s' added) :
    added = [] ∧ Progress near core points [] second s' := by
  have hcores : ∀ y ∈ points, core y → y ∈ ([] : List α) ∨ s'.label y ≠ none := fun y hy hcore =>
    (h.cores y hy hcore).imp id hstep.label_ne_none
  have hfringe : (¬ s'.label x ≠ none → ¬ ∃ c, core c ∧ near x c) →
      ∀ y ∈ points, (∃ c, core c ∧ near y c) → y ∈ ([] : List α) ∨ y ∈ second ∨
        s'.label y ≠ none := by
    intro hx y hy hc
    rcases h.fringe y hy hc with hmem | hmem | hmem
    · exact .inl hmem
    · rcases List.mem_cons.mp hmem with rfl | hmem
      · by_cases hlabel : s'.label y ≠ none
        · exact .inr (.inr hlabel)
        · exact absurd hc (hx hlabel)
      · exact .inr (.inl hmem)
    · exact .inr (.inr (hstep.label_ne_none hmem))
  have hsecond : ∀ y ∈ second, ¬ core y := fun y hy => h.second y (List.mem_cons_of_mem x hy)
  rcases hstep.outcome with ⟨hlabel, hadded⟩ |
    ⟨hcore, ⟨halone, hadded⟩ | ⟨hfirst, -⟩ | ⟨-, hnone, hadded⟩⟩
  · exact ⟨hadded, hcores, hfringe fun hno => absurd hlabel hno, hsecond, hstep.linked h.linked⟩
  · refine ⟨hadded, hcores, hfringe fun _ hc => ?_, hsecond, hstep.linked h.linked⟩
    obtain ⟨c, hccore, hnear⟩ := hc
    rw [halone c hnear] at hccore
    exact hcore hccore
  · cases hfirst
  · refine ⟨hadded, hcores, hfringe fun _ hc => ?_, hsecond, hstep.linked h.linked⟩
    obtain ⟨c, hccore, hnear⟩ := hc
    rcases h.cores c (hpoints c hccore) hccore with hmem | hlabel
    · exact absurd hmem List.not_mem_nil
    · exact hlabel (hnone c hnear)

/-- Along a run the queue stays in two rounds, and each point is handled at most
once in each. -/
theorem Runs.progress {past left : List (α × Bool)}
    (h : Runs near core (queued first second) s past left s')
    (hpoints : ∀ c, core c → c ∈ points) (hprogress : Progress near core points first second s) :
    (∃ first' second', left = queued first' second' ∧ Progress near core points first' second' s') ∧
      (∀ y, past.countP (fun e => e.1 = y) ≤ 2 * first.count y + second.count y) ∧
      past.length + left.length ≤ 2 * first.length + second.length := by
  generalize hqueue : queued first second = queue at h
  induction h generalizing first second with
  | start queue s =>
    refine ⟨⟨first, second, hqueue.symm, hprogress⟩, fun y => Nat.zero_le _, ?_⟩
    rw [← hqueue, queued, List.length_append, List.length_map, List.length_map, List.length_nil]
    omega
  | @next x deferred queue added past left s s₁ s'' hfirst hrest ih =>
    cases first with
    | cons y first =>
      have hhead : (y, false) :: queued first second = (x, deferred) :: queue := hqueue
      obtain ⟨heq, hrestQueue⟩ := List.cons.inj hhead
      rw [Prod.mk.injEq] at heq
      obtain ⟨rfl, rfl⟩ := heq
      obtain ⟨again, rfl, hagain, hnext⟩ := hprogress.firstRound hfirst
      have htail : queued first (second ++ again) = queue ++ again.map (fun y => (y, true)) := by
        rw [← hrestQueue, queued, queued, List.map_append, List.append_assoc]
      obtain ⟨hleft, hcount, hlength⟩ := ih hnext htail
      refine ⟨hleft, fun z => ?_, ?_⟩
      · have hz := hcount z
        rw [List.count_append] at hz
        rw [List.countP_cons, List.count_cons]
        have hmore : again.count z ≤ if y = z then 1 else 0 := by
          rcases hagain with rfl | rfl
          · exact Nat.zero_le _
          · rw [List.count_singleton]
            simp
        by_cases hyz : y = z
        · simp only [hyz, if_true, decide_true, beq_self_eq_true] at hmore ⊢
          omega
        · simp only [hyz, if_false, decide_false, beq_iff_eq] at hmore ⊢
          simp only [Bool.false_eq_true, if_false]
          omega
      · have hmore : again.length ≤ 1 := by
          rcases hagain with rfl | rfl <;> simp
        rw [List.length_append] at hlength
        simp only [List.length_cons]
        omega
    | nil =>
      cases second with
      | nil => cases hqueue
      | cons y second =>
        have hhead : (y, true) :: queued [] second = (x, deferred) :: queue := hqueue
        obtain ⟨heq, hrestQueue⟩ := List.cons.inj hhead
        rw [Prod.mk.injEq] at heq
        obtain ⟨rfl, rfl⟩ := heq
        obtain ⟨rfl, hnext⟩ := hprogress.secondRound hpoints hfirst
        rw [List.append_nil] at ih
        obtain ⟨hleft, hcount, hlength⟩ := ih hnext hrestQueue
        refine ⟨hleft, fun z => ?_, ?_⟩
        · have hz := hcount z
          rw [List.countP_cons, List.count_cons]
          by_cases hyz : y = z
          · simp only [hyz, if_true, decide_true, beq_self_eq_true] at hz ⊢
            omega
          · simp only [hyz, decide_false, beq_iff_eq, if_false] at hz ⊢
            simp only [Bool.false_eq_true, if_false]
            omega
        · simp only [List.length_cons, List.length_nil] at hlength ⊢
          omega

omit [DecidableEq α] in
/-- When the queue is empty, core points and the points near them have labels. -/
theorem Progress.finished (h : Progress near core points [] [] s) {x : α} (hx : x ∈ points)
    (hclose : core x ∨ ∃ c, core c ∧ near x c) : s.label x ≠ none := by
  rcases hclose with hcore | hc
  · exact (h.cores x hx hcore).resolve_left List.not_mem_nil
  · exact ((h.fringe x hx hc).resolve_left List.not_mem_nil).resolve_left List.not_mem_nil

end Clustering
