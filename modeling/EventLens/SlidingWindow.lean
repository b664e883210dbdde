import Mathlib.Algebra.Order.Group.Defs
import Mathlib.Algebra.Order.Group.Basic
import Mathlib.Data.List.Induction

/-!
Admission by a sliding window. A call is admitted while fewer than so many
calls of its key were admitted in the window that ends with it. Calls come with
times that never go back; then no window of that length has more, whether it
ends with a call or not, and each key is served as if it were alone.
-/

namespace SlidingWindow

structure Call (κ τ : Type) where
  key : κ
  time : τ
  deriving DecidableEq, Repr

variable {κ τ : Type} [DecidableEq κ] [AddCommGroup τ] [LinearOrder τ]

/-- The call is one of the key's in the window of length `w` that ends at `t`. -/
def inWindow (w : τ) (k : κ) (t : τ) (c : Call κ τ) : Bool :=
  decide (c.key = k) && (decide (t - w < c.time) && decide (c.time ≤ t))

def admits (limit : ℕ) (w : τ) (past : List (Call κ τ)) (c : Call κ τ) : Bool :=
  past.countP (inWindow w c.key c.time) < limit

def received (limit : ℕ) (w : τ) (past : List (Call κ τ)) (c : Call κ τ) : List (Call κ τ) :=
  if admits limit w past c then past ++ [c] else past

/-- The admitted ones of some calls, in order. -/
def admitted (limit : ℕ) (w : τ) (calls : List (Call κ τ)) : List (Call κ τ) :=
  calls.foldl (received limit w) []

/-- The times of the calls never go back. -/
def Timed (calls : List (Call κ τ)) : Prop := calls.Pairwise (fun a b => a.time ≤ b.time)

variable {limit : ℕ} {w t : τ} {k : κ} {calls past : List (Call κ τ)} {c : Call κ τ}

@[simp] theorem admitted_nil : admitted limit w ([] : List (Call κ τ)) = [] := rfl

theorem admitted_snoc :
    admitted limit w (calls ++ [c]) = received limit w (admitted limit w calls) c := by
  simp only [admitted, List.foldl_append, List.foldl_cons, List.foldl_nil]

theorem inWindow_iff : inWindow w k t c = true ↔ c.key = k ∧ t - w < c.time ∧ c.time ≤ t := by
  simp [inWindow]

omit [DecidableEq κ] [AddCommGroup τ] in
theorem timed_snoc : Timed (calls ++ [c]) ↔ Timed calls ∧ ∀ a ∈ calls, a.time ≤ c.time := by
  simp [Timed, List.pairwise_append]

theorem admitted_sublist (calls : List (Call κ τ)) : (admitted limit w calls).Sublist calls := by
  induction calls using List.reverseRecOn with
  | nil => simp
  | append_singleton calls c ih =>
    rw [admitted_snoc, received]
    split
    · exact ih.append_right [c]
    · exact ih.trans (List.sublist_append_left calls [c])

/-- A call of another key does not count. -/
theorem admits_filter (past : List (Call κ τ)) (c : Call κ τ) :
    admits limit w (past.filter (fun a => a.key = c.key)) c = admits limit w past c := by
  have hcount : (past.filter (fun a => a.key = c.key)).countP (inWindow w c.key c.time) =
      past.countP (inWindow w c.key c.time) := by
    rw [List.countP_filter]
    apply List.countP_congr
    intro a _
    simp only [Bool.and_eq_true, inWindow_iff, decide_eq_true_eq]
    tauto
  rw [admits, hcount, admits]

/-- Each key is served as if it were alone. -/
theorem admitted_filter (calls : List (Call κ τ)) (k : κ) :
    (admitted limit w calls).filter (fun a => a.key = k) =
      admitted limit w (calls.filter (fun a => a.key = k)) := by
  induction calls using List.reverseRecOn with
  | nil => simp
  | append_singleton calls c ih =>
    rw [admitted_snoc, List.filter_append]
    by_cases hkey : c.key = k
    · subst hkey
      have hone : [c].filter (fun a => a.key = c.key) = [c] := by simp
      rw [hone, admitted_snoc, ← ih, received, received, admits_filter]
      split <;> simp
    · have hnone : [c].filter (fun a => a.key = k) = [] := by simp [hkey]
      rw [hnone, List.append_nil, ← ih, received]
      split <;> simp [hkey]

/-- The refused calls have no effect on the others. -/
theorem admitted_admitted (calls : List (Call κ τ)) :
    admitted limit w (admitted limit w calls) = admitted limit w calls := by
  induction calls using List.reverseRecOn with
  | nil => simp
  | append_singleton calls c ih =>
    rw [admitted_snoc, received]
    split
    next hadmits => rw [admitted_snoc, ih, received, if_pos hadmits]
    next => exact ih

variable [IsOrderedAddMonoid τ]

/-- Of the past, no more is in a later window than in the one that ends now. -/
theorem countP_inWindow_le (hpast : ∀ a ∈ past, a.time ≤ c.time) (hin : inWindow w k t c) :
    past.countP (inWindow w k t) ≤ past.countP (inWindow w c.key c.time) := by
  obtain ⟨hkey, -, hle⟩ := inWindow_iff.mp hin
  apply List.countP_mono_left
  intro a ha hina
  obtain ⟨hkeya, hafter, -⟩ := inWindow_iff.mp hina
  refine inWindow_iff.mpr ⟨hkeya.trans hkey.symm, ?_, hpast a ha⟩
  exact (sub_le_sub_right hle w).trans_lt hafter

/-- No window holds more admitted calls of a key than the limit. -/
theorem countP_admitted_le (htimed : Timed calls) (k : κ) (t : τ) :
    (admitted limit w calls).countP (inWindow w k t) ≤ limit := by
  induction calls using List.reverseRecOn with
  | nil => simp
  | append_singleton calls c ih =>
    obtain ⟨htimed, hlast⟩ := timed_snoc.mp htimed
    rw [admitted_snoc, received]
    by_cases hadmits : admits limit w (admitted limit w calls) c
    · rw [if_pos hadmits, List.countP_append, List.countP_singleton]
      by_cases hin : inWindow w k t c
      · have hpast : ∀ a ∈ admitted limit w calls, a.time ≤ c.time :=
          fun a ha => hlast a ((admitted_sublist calls).subset ha)
        have hle := countP_inWindow_le hpast hin
        have hlt : (admitted limit w calls).countP (inWindow w c.key c.time) < limit := by
          simpa [admits] using hadmits
        rw [if_pos hin]
        omega
      · rw [if_neg hin]
        exact ih htimed
    · rw [if_neg hadmits]
      exact ih htimed

end SlidingWindow
