import Mathlib.Data.List.Sort
import Mathlib.Data.Prod.Lex

/-!
A window of the nearest items: the list is ordered by a key, cut to so many
items, and only then restricted to those that are near enough. When the cut
leaves fewer than it may, nothing near was lost.
-/

namespace Nearest

variable {α β : Type} [LinearOrder β]

/-- The first `n` items in the order of their keys. -/
def nearest (key : α → β) (n : ℕ) (items : List α) : List α :=
  (items.insertionSort (fun a b => key a ≤ key b)).take n

def window (key : α → β) (near : α → Bool) (n : ℕ) (items : List α) : List α :=
  (nearest key n items).filter near

variable {key : α → β} {near : α → Bool} {n : ℕ} {items : List α} {a : α}

theorem mem_of_window (h : a ∈ window key near n items) : a ∈ items ∧ near a = true := by
  obtain ⟨htake, hnear⟩ := List.mem_filter.mp h
  exact ⟨(List.mem_insertionSort _).mp (List.mem_of_mem_take htake), hnear⟩

theorem nearest_sublist :
    (nearest key n items).Sublist (items.insertionSort fun a b => key a ≤ key b) :=
  List.take_sublist _ _

theorem sorted_keys (key : α → β) (items : List α) :
    (items.insertionSort fun a b => key a ≤ key b).Pairwise fun a b => key a ≤ key b := by
  have htotal : Std.Total fun a b : α => key a ≤ key b := ⟨fun a b => le_total (key a) (key b)⟩
  have htrans : IsTrans α fun a b => key a ≤ key b := ⟨fun _ _ _ => le_trans⟩
  exact List.pairwise_insertionSort _ _

/-- Nothing near lies behind the cut of a window that is not full, if nearness
is a matter of the key. -/
theorem not_near_of_drop (hnear : ∀ a b, key a ≤ key b → near b = true → near a = true)
    (hroom : (window key near n items).length < n)
    (ha : a ∈ (items.insertionSort fun a b => key a ≤ key b).drop n) : near a = false := by
  by_contra hclose
  rw [Bool.not_eq_false] at hclose
  -- every item before the cut is at least as near as the one after it
  have hfull : (nearest key n items).filter near = nearest key n items := by
    refine List.filter_eq_self.mpr fun b hb => ?_
    have hsplit := sorted_keys key items
    rw [← List.take_append_drop n (items.insertionSort _)] at hsplit
    exact hnear b a ((List.pairwise_append.mp hsplit).2.2 b hb a ha) hclose
  have hlength : n ≤ (nearest key n items).length := by
    have hlong := List.length_pos_of_mem ha
    rw [List.length_drop] at hlong
    rw [nearest, List.length_take]
    omega
  rw [window, hfull] at hroom
  omega

theorem mem_window (hnear : ∀ a b, key a ≤ key b → near b = true → near a = true)
    (hroom : (window key near n items).length < n) (ha : a ∈ items) (hclose : near a = true) :
    a ∈ window key near n items := by
  have hall := (List.mem_insertionSort fun a b : α => key a ≤ key b).mpr ha
  rw [← List.take_append_drop n (items.insertionSort _)] at hall
  rcases List.mem_append.mp hall with htake | hdrop
  · exact List.mem_filter.mpr ⟨htake, hclose⟩
  · rw [not_near_of_drop hnear hroom hdrop] at hclose
    cases hclose

theorem sorted_window (key : α → β) (near : α → Bool) (n : ℕ) (items : List α) :
    (window key near n items).Pairwise fun a b => key a ≤ key b :=
  ((sorted_keys key items).sublist nearest_sublist).sublist List.filter_sublist

/-- The first of a kind in a window has the least key of its kind. -/
theorem find?_window_le {q : α → Bool} {b : α} (hfirst : (window key near n items).find? q = some a)
    (hb : b ∈ window key near n items) (hq : q b = true) : key a ≤ key b := by
  have hsorted := sorted_window key near n items
  obtain ⟨-, before, after, hsplit, hnone⟩ := List.find?_eq_some_iff_append.mp hfirst
  rw [hsplit] at hsorted hb
  rcases List.mem_append.mp hb with hb | hb
  · have hno := hnone b hb
    rw [hq] at hno
    cases hno
  · rcases List.mem_cons.mp hb with rfl | hb
    · exact le_rfl
    · exact (List.pairwise_cons.mp (List.pairwise_append.mp hsorted).2.1).1 b hb

/-- What has the only least key of its kind comes first of its kind. -/
theorem find?_window_eq {q : α → Bool} (ha : a ∈ window key near n items) (hq : q a = true)
    (hleast : ∀ b ∈ window key near n items, q b = true → b ≠ a → key a < key b) :
    (window key near n items).find? q = some a := by
  cases hfirst : (window key near n items).find? q with
  | none =>
    have hno := List.find?_eq_none.mp hfirst a ha
    exact absurd hq hno
  | some b =>
    by_contra hne
    have hb := List.mem_of_find?_eq_some hfirst
    have hlt := hleast b hb (List.find?_some hfirst) fun heq => hne (by rw [heq])
    exact absurd (find?_window_le hfirst ha hq) (not_le.mpr hlt)

theorem countP_sorted (key : α → β) (n : ℕ) : items.countP near =
    (window key near n items).length +
      ((items.insertionSort fun a b => key a ≤ key b).drop n).countP near := by
  rw [← (List.perm_insertionSort (fun a b => key a ≤ key b) items).countP_eq,
    ← List.take_append_drop n (items.insertionSort _), List.countP_append,
    List.countP_eq_length_filter, List.take_append_drop]
  rfl

/-- A window is full exactly when there are enough near items. -/
theorem le_length_window (hnear : ∀ a b, key a ≤ key b → near b = true → near a = true) :
    n ≤ (window key near n items).length ↔ n ≤ items.countP near := by
  rw [countP_sorted key n]
  constructor
  · intro h
    omega
  · intro h
    by_contra hroom
    have hnone : ((items.insertionSort fun a b => key a ≤ key b).drop n).countP near = 0 := by
      refine List.countP_eq_zero.mpr fun a ha => ?_
      rw [not_near_of_drop hnear (Nat.lt_of_not_le hroom) ha]
      exact Bool.false_ne_true
    omega

end Nearest
