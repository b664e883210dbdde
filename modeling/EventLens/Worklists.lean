import Mathlib.Data.List.Perm.Subperm
import Mathlib.Data.List.Nodup
import Mathlib.Data.List.Pairwise
import Mathlib.Logic.Relation

/-!
A worklist, first in first out, that takes in the successors of every item it
comes to and keeps no record of what it has met. It ends having met nothing
twice exactly when no item it can reach is entered twice, and then it has met
everything that it can reach.
-/

namespace Worklists

variable {α β : Type} {next : α → List α}

/-- The items met from a worklist on, in order. -/
inductive Visits (next : α → List α) : List α → List α → Prop
  | nil : Visits next [] []
  | cons {a : α} {queue order : List α} (h : Visits next (queue ++ next a) order) :
      Visits next (a :: queue) (a :: order)

def Reaches (next : α → List α) : α → α → Prop := Relation.ReflTransGen fun a b => b ∈ next a

/-- No two of the lists overlap, and none holds anything twice. -/
structure Apart (p : α → Prop) (g : α → List β) : Prop where
  nodup : ∀ a, p a → (g a).Nodup
  disjoint : ∀ a b, p a → p b → a ≠ b → (g a).Disjoint (g b)

/-- Nothing reachable is entered twice. -/
structure Tree (next : α → List α) (root : α) : Prop where
  apart : Apart (Reaches next root) next
  root_new : ∀ a, Reaches next root a → root ∉ next a

variable {root a b : α} {queue order met everything : List α} {p : α → Prop} {g : α → List β}

theorem Apart.flatMap (h : Apart p g) (hmet : met.Nodup)
    (hp : ∀ a ∈ met, p a) : (met.flatMap g).Nodup := by
  refine List.nodup_flatMap.mpr ⟨fun a ha => h.nodup a (hp a ha), ?_⟩
  refine hmet.imp_of_mem fun ha hb hne => h.disjoint _ _ (hp _ ha) (hp _ hb) hne

theorem apart_of_flatMap (hp : ∀ a, p a → a ∈ met) (h : (met.flatMap g).Nodup) : Apart p g := by
  obtain ⟨hnodup, hdisjoint⟩ := List.nodup_flatMap.mp h
  refine ⟨fun a ha => hnodup a (hp a ha), fun a b ha hb hne => ?_⟩
  have hsymm : Std.Symm (Function.onFun List.Disjoint g) := ⟨fun _ _ hd _ hb ha => hd ha hb⟩
  exact hdisjoint.forall (hp a ha) (hp b hb) hne

theorem Visits.unique (h : Visits next queue order) {order' : List α}
    (h' : Visits next queue order') :
    order = order' := by
  induction h generalizing order' with
  | nil =>
    cases h'
    rfl
  | cons _ ih =>
    cases h' with
    | cons h' => rw [ih h']

/-- Everything met was on the worklist or is a successor of something met. -/
theorem Visits.perm (h : Visits next queue order) : order.Perm (queue ++ order.flatMap next) := by
  induction h with
  | nil => exact List.Perm.refl _
  | cons _ ih =>
    rw [List.flatMap_cons, List.cons_append, ← List.append_assoc]
    exact ih.cons _

theorem Visits.mem_of_reaches (h : Visits next [root] order) (hreach : Reaches next root a) :
    a ∈ order := by
  induction hreach with
  | refl => exact h.perm.symm.subset (List.mem_append_left _ (List.mem_singleton_self _))
  | tail _ hstep ih =>
    exact h.perm.symm.subset (List.mem_append_right _ (List.mem_flatMap.mpr ⟨_, ih, hstep⟩))

theorem Visits.reaches (h : Visits next queue order) (hqueue : ∀ a ∈ queue, Reaches next root a) :
    ∀ a ∈ order, Reaches next root a := by
  induction h with
  | nil => exact fun a ha => absurd ha List.not_mem_nil
  | cons _ ih =>
    have hfirst := hqueue _ List.mem_cons_self
    intro b hb
    rcases List.mem_cons.mp hb with rfl | hb
    · exact hfirst
    · refine ih (fun c hc => ?_) b hb
      rcases List.mem_append.mp hc with hc | hc
      · exact hqueue c (List.mem_cons_of_mem _ hc)
      · exact hfirst.tail hc

theorem Visits.mem_iff (h : Visits next [root] order) : a ∈ order ↔ Reaches next root a := by
  refine ⟨h.reaches (fun b hb => ?_) a, h.mem_of_reaches⟩
  rw [List.mem_singleton.mp hb]
  exact Relation.ReflTransGen.refl

/-- What meets nothing twice enters nothing twice. -/
theorem Visits.tree (h : Visits next [root] order) (hnodup : order.Nodup) : Tree next root := by
  have hentries : ([root] ++ order.flatMap next).Nodup := h.perm.nodup_iff.mp hnodup
  obtain ⟨-, hsuccessors, hroot⟩ := List.nodup_append.mp hentries
  refine ⟨apart_of_flatMap (fun a ha => h.mem_of_reaches ha) hsuccessors, fun a ha hmem => ?_⟩
  exact hroot root (List.mem_singleton_self _) root
    (List.mem_flatMap.mpr ⟨a, h.mem_of_reaches ha, hmem⟩) rfl

/-- A worklist that so far met `met` and entered nothing twice ends. -/
theorem Tree.visits_from (h : Tree next root)
    (hfinite : ∀ a, Reaches next root a → a ∈ everything) (n : ℕ)
    (hn : everything.length ≤ n + met.length) (hmet : ∀ a ∈ met, Reaches next root a)
    (hqueue : ∀ a ∈ queue, Reaches next root a)
    (hentries : (root :: met.flatMap next).Perm (met ++ queue))
    (hnodup : (met ++ queue).Nodup) : ∃ order, Visits next queue order ∧ (met ++ order).Nodup := by
  induction n generalizing met queue with
  | zero =>
    have hsub : met ++ queue ⊆ everything := fun a ha => by
      rcases List.mem_append.mp ha with ha | ha
      · exact hfinite a (hmet a ha)
      · exact hfinite a (hqueue a ha)
    have hlength := (hnodup.subperm hsub).length_le
    rw [List.length_append] at hlength
    have hnone : queue = [] := List.eq_nil_of_length_eq_zero (by omega)
    rw [hnone] at hnodup ⊢
    exact ⟨[], .nil, hnodup⟩
  | succ n ih =>
    cases queue with
    | nil => exact ⟨[], .nil, hnodup⟩
    | cons a rest =>
      have ha := hqueue a List.mem_cons_self
      have hsplit : met ++ a :: rest = met ++ [a] ++ rest := by simp
      have hmet' : ∀ b ∈ met ++ [a], Reaches next root b := fun b hb => by
        rcases List.mem_append.mp hb with hb | hb
        · exact hmet b hb
        · exact List.mem_singleton.mp hb ▸ ha
      have hqueue' : ∀ b ∈ rest ++ next a, Reaches next root b := fun b hb => by
        rcases List.mem_append.mp hb with hb | hb
        · exact hqueue b (List.mem_cons_of_mem _ hb)
        · exact ha.tail hb
      have hentries' :
        (root :: (met ++ [a]).flatMap next).Perm (met ++ [a] ++ (rest ++ next a)) := by
        rw [List.flatMap_append, List.flatMap_singleton, ← List.cons_append, ← List.append_assoc,
          ← hsplit]
        exact hentries.append_right _
      have hmetNodup : (met ++ [a]).Nodup := by
        rw [hsplit] at hnodup
        exact (List.nodup_append.mp hnodup).1
      have hnodup' : (met ++ [a] ++ (rest ++ next a)).Nodup := by
        refine hentries'.nodup_iff.mp
          (List.nodup_cons.mpr ⟨fun hroot => ?_, h.apart.flatMap hmetNodup hmet'⟩)
        obtain ⟨b, hb, hmem⟩ := List.mem_flatMap.mp hroot
        exact h.root_new b (hmet' b hb) hmem
      have hn' : everything.length ≤ n + (met ++ [a]).length := by
        rw [List.length_append, List.length_singleton]
        omega
      obtain ⟨order, hvisits, horder⟩ := ih hn' hmet' hqueue' hentries' hnodup'
      refine ⟨a :: order, .cons hvisits, ?_⟩
      simpa using horder

/-- Where nothing reachable is entered twice, and only finitely much is reachable, the worklist
ends and meets nothing twice. -/
theorem Tree.visits (h : Tree next root) (hfinite : ∀ a, Reaches next root a → a ∈ everything) :
    ∃ order, Visits next [root] order ∧ order.Nodup := by
  have hroot : ∀ a ∈ [root], Reaches next root a := fun a ha => by
    rw [List.mem_singleton.mp ha]
    exact Relation.ReflTransGen.refl
  have hentries : (root :: ([] : List α).flatMap next).Perm ([] ++ [root]) := List.Perm.refl _
  obtain ⟨order, hvisits, hnodup⟩ := h.visits_from hfinite everything.length (Nat.le_refl _)
    (fun _ hmem => absurd hmem List.not_mem_nil) hroot hentries (List.nodup_singleton root)
  exact ⟨order, hvisits, hnodup⟩

/-- A list as long as a list of all its distinct members holds nothing twice. -/
theorem nodup_of_length {l ids : List β} (hids : ids.Nodup) (hmem : ∀ x, x ∈ ids ↔ x ∈ l)
    (hlength : l.length = ids.length) : l.Nodup := by
  have hsub := hids.subperm fun x hx => (hmem x).mp hx
  exact (hsub.perm_of_length_le (Nat.le_of_eq hlength)).nodup_iff.mp hids

end Worklists
