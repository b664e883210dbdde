import EventLens.Pools
import Mathlib.Data.Multiset.DershowitzManna
import Mathlib.SetTheory.Ordinal.Family

/-!
Pools that come to a goal whatever the schedule. Every piece of work has a
load, and a move may replace one piece by any number of lighter ones: the
multiset of loads then falls in the Dershowitz-Manna ordering, so that the moves
the system makes of its own accord run out. What is left of a program is
measured by its height as a tree.
-/

namespace Programs

variable {Call Op Answer α β : Type} {Res : Op → Type} {σ : Type} {κ μ : Type*}

/-- The height of a program as a tree of operations. -/
noncomputable def Prog.height : Prog Op Res α → Ordinal.{0}
  | .done _ => 0
  | .perform _ next => ⨆ r, (next r).height + 1

theorem Prog.height_next (o : Op) (next : Res o → Prog Op Res α) (r : Res o) :
    (next r).height < (Prog.perform o next).height :=
  Ordinal.lt_iSup_add_one (fun r => (next r).height) r

/-- One load is replaced by lighter ones and no other load grows. -/
theorem dershowitzMannaLT_replaced [PartialOrder κ] {f g : β → κ} {s : Multiset β} {z : κ}
    {ys : Multiset κ} (hle : ∀ b ∈ s, g b ≤ f b) (hlt : ∀ y ∈ ys, y < z) :
    (ys + s.map g).IsDershowitzMannaLT (z ::ₘ s.map f) := by
  classical
  have hsplit : ∀ h : β → κ, s.map h =
      (s.filter (fun b => g b = f b)).map h + (s.filter (fun b => ¬ g b = f b)).map h := by
    intro h
    rw [← Multiset.map_add, Multiset.filter_add_not]
  have hsame : (s.filter (fun b => g b = f b)).map g = (s.filter (fun b => g b = f b)).map f :=
    Multiset.map_congr rfl fun b hb => (Multiset.mem_filter.mp hb).2
  refine ⟨(s.filter (fun b => g b = f b)).map f, ys + (s.filter (fun b => ¬ g b = f b)).map g,
    z ::ₘ (s.filter (fun b => ¬ g b = f b)).map f, Multiset.cons_ne_zero, ?_, ?_, ?_⟩
  · rw [hsplit g, hsame, add_left_comm]
  · rw [hsplit f, Multiset.add_cons]
  · intro y hy
    rcases Multiset.mem_add.mp hy with hy | hy
    · exact ⟨z, Multiset.mem_cons_self _ _, hlt y hy⟩
    · obtain ⟨b, hb, rfl⟩ := Multiset.mem_map.mp hy
      obtain ⟨hmem, hne⟩ := Multiset.mem_filter.mp hb
      exact ⟨f b, Multiset.mem_cons_of_mem (Multiset.mem_map_of_mem f hb),
        lt_of_le_of_ne (hle b hmem) hne⟩

namespace Server

variable (R : Server Call Op Res σ Answer)

/-- Every schedule of own moves that meet a condition comes to the goal: it
cannot stop before, and it cannot go on for ever. -/
inductive Inevitable (own : Move Call Op Res → Prop)
    (Q : Pool Call Op Res σ Answer → Thread Call Op Res Answer → Event Op Res → Prop)
    (goal : Pool Call Op Res σ Answer → Prop) : Pool Call Op Res σ Answer → Prop
  | here {p : Pool Call Op Res σ Answer} (h : goal p) : Inevitable own Q goal p
  | later {p : Pool Call Op Res σ Answer} (moves : ∃ m p', own m ∧ R.step m p = some p')
      (all : ∀ m p', own m → R.Meets Q m p → R.step m p = some p' → Inevitable own Q goal p') :
      Inevitable own Q goal p

variable {R} {P Q : Pool Call Op Res σ Answer → Thread Call Op Res Answer → Event Op Res → Prop}
  {own : Move Call Op Res → Prop} {goal : Pool Call Op Res σ Answer → Prop}
  {p₀ p p' : Pool Call Op Res σ Answer}

/-- The goal comes about when the own moves lower a well-founded measure and
only a pool at the goal has none. -/
theorem Reaches.inevitable {r : μ → μ → Prop} (hr : WellFounded r)
    (weigh : Pool Call Op Res σ Answer → μ)
    (hP : ∀ p t e, Q p t e → P p t e)
    (falls : ∀ p m p', R.Reaches P p₀ p → own m → R.Meets Q m p → R.step m p = some p' →
      r (weigh p') (weigh p))
    (moves : ∀ p, R.Reaches P p₀ p → goal p ∨ ∃ m p', own m ∧ R.step m p = some p')
    (h : R.Reaches P p₀ p) : R.Inevitable own Q goal p := by
  induction hp : weigh p using hr.induction generalizing p with
  | _ x ih =>
    rcases moves p h with hgoal | hmoves
    · exact .here hgoal
    · refine .later hmoves fun m p' hown hmeets hstep => ?_
      have hnext : R.Reaches P p₀ p' := h.next m hstep fun te hte => hP _ _ _ (hmeets te hte)
      exact ih _ (hp ▸ falls p m p' h hown hmeets hstep) hnext rfl

end Server

end Programs
