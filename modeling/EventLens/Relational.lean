import Mathlib.Algebra.BigOperators.Group.Multiset.Basic
import Mathlib.Algebra.GroupWithZero.Nat
import Mathlib.Data.List.Dedup
import Mathlib.Order.WithBot

/-!
Queries over lists of rows: inner and left joins, grouping, totals and the
first row of each key. A total over a join is a sum over pairs, whichever side
comes first; grouping a left join by its left rows yields each of them with the
rows it matches.
-/

namespace Relational

variable {α β κ : Type}

def innerJoin (l : List α) (r : List β) (on : α → β → Bool) : List (α × β) :=
  l.flatMap (fun a => (r.filter (on a)).map (fun b => (a, b)))

/-- A row of the left with the rows it matches, or with none. -/
def beside (r : List β) (on : α → β → Bool) (a : α) : List (α × Option β) :=
  match r.filter (on a) with
  | [] => [(a, none)]
  | matched => matched.map (fun b => (a, some b))

def leftJoin (l : List α) (r : List β) (on : α → β → Bool) : List (α × Option β) :=
  l.flatMap (beside r on)

def groupBy [DecidableEq κ] (key : α → κ) (rows : List α) : List (κ × List α) :=
  (rows.map key).dedup.map (fun k => (k, rows.filter (fun row => key row = k)))

/-- `coalesce(sum(column), 0)`, the column being null in some rows. -/
def total (column : α → Option ℕ) (rows : List α) : ℕ := (rows.filterMap column).sum

/-- `DISTINCT ON`: the first row of each key. -/
def distinctOn [DecidableEq κ] (key : α → κ) : List α → List α
  | [] => []
  | row :: rows => row :: (distinctOn key rows).filter (fun other => key other ≠ key row)

section Totals

variable {column : α → Option ℕ} {rows : List α}

theorem total_some (weight : α → ℕ) (rows : List α) :
    total (fun row => some (weight row)) rows = (rows.map weight).sum := by
  rw [total, List.filterMap_eq_map']

theorem total_map {f : β → α} (rows : List β) :
    total column (rows.map f) = total (fun row => column (f row)) rows := by
  rw [total, total, List.filterMap_map]
  rfl

end Totals

section Joins

variable {l : List α} {r : List β} {on : α → β → Bool}

/-- A condition on the pairs is one on the matches. -/
theorem innerJoin_where (l : List α) (r : List β) (on : α → β → Bool) (p : α × β → Bool) :
    (innerJoin l r on).filter p = innerJoin l r (fun a b => on a b && p (a, b)) := by
  induction l with
  | nil => rfl
  | cons a l ih =>
    have hrow : ((r.filter (on a)).map (fun b => (a, b))).filter p =
        (r.filter (fun b => on a b && p (a, b))).map (fun b => (a, b)) := by
      rw [List.filter_map, List.filter_filter]
      refine congrArg _ (List.filter_congr fun b _ => ?_)
      rw [Function.comp_apply, Bool.and_comm]
    rw [innerJoin, List.flatMap_cons, List.filter_append, ← innerJoin, ih, hrow]
    rfl

theorem innerJoin_filter (l : List α) (r : List β) (on : α → β → Bool) (p : α → Bool) :
    innerJoin (l.filter p) r on = innerJoin l r (fun a b => on a b && p a) := by
  induction l with
  | nil => rfl
  | cons a l ih =>
    rw [List.filter_cons]
    split
    · rename_i ha
      simp only [innerJoin, List.flatMap_cons, ha, Bool.and_true] at ih ⊢
      rw [ih]
    · rename_i ha
      have hnone : r.filter (fun b => on a b && p a) = [] :=
        List.filter_eq_nil_iff.mpr fun b _ hb => ha (Bool.and_eq_true_iff.mp hb).2
      rw [ih]
      simp only [innerJoin, List.flatMap_cons, hnone, List.map_nil, List.nil_append]

/-- A condition on the left rows can be put to them beforehand. -/
theorem leftJoin_filter (l : List α) (r : List β) (on : α → β → Bool) (p : α → Bool) :
    (leftJoin l r on).filter (fun row => p row.1) = leftJoin (l.filter p) r on := by
  have hleft : ∀ a, ∀ row ∈ beside r on a, row.1 = a := by
    intro a row hrow
    unfold beside at hrow
    split at hrow
    · rw [List.mem_singleton.mp hrow]
    · obtain ⟨b, -, rfl⟩ := List.mem_map.mp hrow
      rfl
  induction l with
  | nil => rfl
  | cons a l ih =>
    rw [leftJoin, List.flatMap_cons, List.filter_append, ← leftJoin, ih]
    by_cases ha : p a
    · rw [List.filter_cons_of_pos ha, leftJoin, leftJoin, List.flatMap_cons]
      congr 1
      exact List.filter_eq_self.mpr fun row hrow => by rw [hleft a row hrow, ha]
    · rw [List.filter_cons_of_neg ha]
      have hnone : (beside r on a).filter (fun row => p row.1) = [] :=
        List.filter_eq_nil_iff.mpr fun row hrow => by
          rw [hleft a row hrow]
          exact ha
      rw [hnone, List.nil_append]

/-- The sum of a column over the pairs that match, row by row. -/
theorem sum_innerJoin (l : List α) (r : List β) (on : α → β → Bool) (weight : α → β → ℕ) :
    ((innerJoin l r on).map (fun row => weight row.1 row.2)).sum =
      (l.map (fun a => ((r.filter (on a)).map (weight a)).sum)).sum := by
  induction l with
  | nil => rfl
  | cons a l ih =>
    rw [innerJoin, List.flatMap_cons, List.map_append, List.sum_append, ← innerJoin, ih,
      List.map_cons,
      List.sum_cons, List.map_map]
    rfl

theorem sum_filter (rows : List β) (p : β → Bool) (weight : β → ℕ) :
    ((rows.filter p).map weight).sum = (rows.map (fun b => if p b then weight b else 0)).sum := by
  induction rows with
  | nil => rfl
  | cons b rows ih =>
    rw [List.map_cons, List.sum_cons, ← ih, List.filter_cons]
    split
    · rw [List.map_cons, List.sum_cons]
    · rw [Nat.zero_add]

/-- It does not matter which side of a join comes first. -/
theorem sum_innerJoin_swap (l : List α) (r : List β) (on : α → β → Bool) (weight : α → β → ℕ) :
    ((innerJoin l r on).map (fun row => weight row.1 row.2)).sum =
      ((innerJoin r l (fun b a => on a b)).map (fun row => weight row.2 row.1)).sum := by
  rw [sum_innerJoin, sum_innerJoin r l (fun b a => on a b) (fun b a => weight a b)]
  simp only [sum_filter]
  exact Multiset.sum_map_sum_map (l : Multiset α) (r : Multiset β)

/-- Sums by key add up to the sum over the rows whose keys are asked for. -/
theorem sum_keys [DecidableEq κ] {keys : List κ} (hkeys : keys.Nodup) (rows : List β) (key : β → κ)
    (weight : β → ℕ) :
    (keys.map (fun k => ((rows.filter (fun row => key row = k)).map weight).sum)).sum =
      ((rows.filter (fun row => key row ∈ keys)).map weight).sum := by
  have hrow : ∀ row, (if decide (key row ∈ keys) then weight row else 0) =
      ((keys.filter (fun k => key row = k)).map (fun _ => weight row)).sum := by
    intro row
    simp only [eq_comm (a := key row)]
    rw [List.filter_eq, hkeys.count]
    by_cases hmem : key row ∈ keys <;> simp [hmem]
  rw [sum_filter]
  rw [List.map_congr_left fun row _ => hrow row,
    ← sum_innerJoin rows keys (fun row k => key row = k) (fun row _ => weight row),
    ← sum_innerJoin keys rows (fun k row => key row = k) (fun _ row => weight row)]
  exact sum_innerJoin_swap keys rows (fun k row => key row = k) (fun _ row => weight row)

theorem total_beside (r : List β) (on : α → β → Bool) (a : α) (column : β → ℕ) :
    total (fun row => row.2.map column) (beside r on a) = ((r.filter (on a)).map column).sum := by
  unfold beside
  split
  · rename_i hnone
    rw [hnone]
    rfl
  · rw [total_map]
    exact total_some column _

theorem countP_beside (r : List β) (on : α → β → Bool) (a : α) (p : β → Bool) :
    (beside r on a).countP (fun row => row.2.any p) = (r.filter (on a)).countP p := by
  unfold beside
  split
  · rename_i hnone
    rw [hnone]
    rfl
  · rw [List.countP_map]
    rfl

/-- The left row of a join with what it is beside. -/
theorem map_beside {γ : Type} (r : List β) (on : α → β → Bool) (a : α) (f : α → γ) :
    ∃ n, (beside r on a).map (fun row => f row.1) = List.replicate (n + 1) (f a) := by
  unfold beside
  split
  · exact ⟨0, rfl⟩
  · rename_i matched hmatched
    cases hlist : r.filter (on a) with
    | nil => exact absurd hlist (by simpa using hmatched)
    | cons b matched =>
      refine ⟨matched.length, ?_⟩
      rw [List.map_map, List.eq_replicate_iff]
      refine ⟨by simp, fun k hk => ?_⟩
      obtain ⟨b, -, rfl⟩ := List.mem_map.mp hk
      rfl

end Joins

section Groups

variable [DecidableEq κ] {key : α → κ} {l : List α} {r : List β} {on : α → β → Bool}

theorem dedup_replicate_append {k : κ} (n : ℕ) {keys : List κ} (hk : k ∉ keys) :
    (List.replicate (n + 1) k ++ keys).dedup = k :: keys.dedup := by
  induction n with
  | zero => exact List.dedup_cons_of_notMem hk
  | succ n ih =>
    rw [List.replicate_succ, List.cons_append, List.dedup_cons_of_mem, ih]
    exact List.mem_append_left _ (List.mem_replicate.mpr ⟨Nat.succ_ne_zero n, rfl⟩)

theorem mem_keys_leftJoin {κ : Type} {key : α → κ} {l : List α} {r : List β}
    {on : α → β → Bool} {k : κ}
    (h : k ∈ (leftJoin l r on).map (fun row => key row.1)) :
    k ∈ l.map key := by
  obtain ⟨row, hrow, rfl⟩ := List.mem_map.mp h
  obtain ⟨a, ha, hrow⟩ := List.mem_flatMap.mp hrow
  obtain ⟨n, hkeys⟩ := map_beside r on a key
  have hmem := List.mem_map_of_mem (f := fun row : α × Option β => key row.1) hrow
  rw [hkeys] at hmem
  rw [List.eq_of_mem_replicate hmem]
  exact List.mem_map_of_mem ha

theorem keys_leftJoin (h : (l.map key).Nodup) :
    ((leftJoin l r on).map (fun row => key row.1)).dedup = l.map key := by
  induction l with
  | nil => rfl
  | cons a l ih =>
    rw [List.map_cons, List.nodup_cons] at h
    obtain ⟨n, hkeys⟩ := map_beside r on a key
    have hrest : key a ∉ (leftJoin l r on).map (fun row => key row.1) :=
      fun hmem => h.1 (mem_keys_leftJoin hmem)
    rw [leftJoin, List.flatMap_cons, List.map_append, hkeys, ← leftJoin,
      dedup_replicate_append n hrest, ih h.2, List.map_cons]

theorem filter_key (h : (l.map key).Nodup) {a : α} (ha : a ∈ l) :
    l.filter (fun row => key row = key a) = [a] := by
  induction l with
  | nil => cases ha
  | cons b l ih =>
    rw [List.map_cons, List.nodup_cons] at h
    rcases List.mem_cons.mp ha with rfl | ha
    · have hrest : l.filter (fun row => key row = key a) = [] :=
        List.filter_eq_nil_iff.mpr fun row hrow hk =>
          h.1 (of_decide_eq_true hk ▸ List.mem_map_of_mem hrow)
      rw [List.filter_cons_of_pos (by simp), hrest]
    · have hne : ¬ key b = key a := fun hk => h.1 (hk ▸ List.mem_map_of_mem ha)
      rw [List.filter_cons_of_neg (by simpa using hne), ih h.2 ha]

theorem filter_unique (h : (l.map key).Nodup) (k : κ) :
    l.filter (fun row => key row = k) = (l.find? (fun row => key row = k)).toList := by
  cases hfind : l.find? (fun row => key row = k) with
  | none => exact List.filter_eq_nil_iff.mpr (List.find?_eq_none.mp hfind)
  | some a =>
    obtain rfl : key a = k := by simpa using List.find?_some hfind
    exact filter_key h (List.mem_of_find?_eq_some hfind)

theorem rows_leftJoin (h : (l.map key).Nodup) {a : α} (ha : a ∈ l) :
    (leftJoin l r on).filter (fun row => key row.1 = key a) = beside r on a := by
  rw [leftJoin_filter l r on (fun row => decide (key row = key a)), filter_key h ha, leftJoin,
    List.flatMap_cons, List.flatMap_nil, List.append_nil]

/-- Grouped by its left rows, a left join has each of them once. -/
theorem groupBy_leftJoin (h : (l.map key).Nodup) :
    groupBy (fun row => key row.1) (leftJoin l r on) = l.map (fun a => (key a, beside r on a)) := by
  rw [groupBy, keys_leftJoin h, List.map_map]
  exact List.map_congr_left fun a ha => by rw [Function.comp_apply, rows_leftJoin h ha]

/-- At most one row of each key is left. -/
theorem filter_distinctOn (rows : List α) (k : κ) :
    (distinctOn key rows).filter (fun row => key row = k) =
      (rows.find? (fun row => key row = k)).toList := by
  induction rows with
  | nil => rfl
  | cons row rows ih =>
    rw [distinctOn]
    by_cases hk : key row = k
    · subst hk
      rw [List.filter_cons_of_pos (by simp), List.find?_cons_of_pos (by simp), List.filter_filter]
      simp
    · rw [List.filter_cons_of_neg (by simpa using hk), List.find?_cons_of_neg (by simpa using hk),
        List.filter_filter, ← ih]
      refine List.filter_congr fun other _ => ?_
      by_cases hother : key other = k
      · simp [hother, Ne.symm hk]
      · simp [hother]

end Groups

/-- An inner join in which every row matches at most one, seen from the left. -/
theorem innerJoin_single {l : List α} {r : List β} {on : α → β → Bool} {f : α → Option β}
    (h : ∀ a, r.filter (on a) = (f a).toList) (p : α × β → Bool) :
    ((innerJoin l r on).filter p).map Prod.fst =
      l.filter (fun a => (f a).any (fun b => p (a, b))) := by
  induction l with
  | nil => rfl
  | cons a l ih =>
    rw [innerJoin, List.flatMap_cons, List.filter_append, List.map_append, ← innerJoin, ih, h a,
      List.filter_cons]
    cases f a with
    | none => rfl
    | some b => cases hp : p (a, b) <;> simp [hp]

/-- A left join in which every row matches at most one. -/
theorem leftJoin_single {l : List α} {r : List β} {on : α → β → Bool} {f : α → Option β}
    (h : ∀ a, r.filter (on a) = (f a).toList) : leftJoin l r on = l.map (fun a => (a, f a)) := by
  have hbeside : ∀ a, beside r on a = [(a, f a)] := by
    intro a
    unfold beside
    rw [h a]
    cases f a with
    | none => rfl
    | some b => rfl
  rw [leftJoin, funext hbeside]
  exact List.flatMap_pure_eq_map _ _

end Relational
