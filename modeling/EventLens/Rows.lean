import Mathlib.Data.List.Basic

/-!
Tables keyed by an id: the row under an id and the update of the row under an
id, with what an update does to membership, lookups and counts.
-/

namespace EventLens

variable {ρ : Type} (key : ρ → ℕ)

def findRow (k : ℕ) (rows : List ρ) : Option ρ := rows.find? (fun r => key r = k)

def updateRow (k : ℕ) (f : ρ → ρ) (rows : List ρ) : List ρ :=
  rows.map (fun r => if key r = k then f r else r)

variable {key} {rows : List ρ} {k j : ℕ} {r : ρ} {f : ρ → ρ}

theorem mem_of_findRow (h : findRow key k rows = some r) : r ∈ rows ∧ key r = k :=
  ⟨List.mem_of_find?_eq_some h, by simpa using List.find?_some h⟩

theorem findRow_eq_none : findRow key k rows = none ↔ ∀ r ∈ rows, key r ≠ k := by
  simp [findRow]

theorem findRow_of_mem (hnodup : (rows.map key).Nodup) (hr : r ∈ rows) :
    findRow key (key r) rows = some r := by
  induction rows with
  | nil => cases hr
  | cons a rows ih =>
    rw [List.map_cons, List.nodup_cons] at hnodup
    by_cases ha : key a = key r
    · rcases List.mem_cons.mp hr with rfl | hr
      · simp [findRow]
      · exact absurd (List.mem_map.mpr ⟨r, hr, ha.symm⟩) hnodup.1
    · have hne : r ≠ a := fun hra => ha (by rw [hra])
      have hrest := ih hnodup.2 ((List.mem_cons.mp hr).resolve_left hne)
      rw [findRow, List.find?_cons_of_neg (by simpa using ha)]
      exact hrest

/-- Two rows under one key are the same row. -/
theorem row_unique (hnodup : (rows.map key).Nodup) {a b : ρ} (ha : a ∈ rows) (hb : b ∈ rows)
    (hab : key a = key b) : a = b := by
  have h := findRow_of_mem hnodup ha
  rw [hab, findRow_of_mem hnodup hb] at h
  exact (Option.some.inj h).symm

theorem mem_updateRow {r' : ρ} : r' ∈ updateRow key k f rows ↔
    (∃ r ∈ rows, key r = k ∧ r' = f r) ∨ (r' ∈ rows ∧ key r' ≠ k) := by
  rw [updateRow, List.mem_map]
  constructor
  · rintro ⟨r, hr, rfl⟩
    by_cases hk : key r = k
    · exact .inl ⟨r, hr, hk, if_pos hk⟩
    · rw [if_neg hk]
      exact .inr ⟨hr, hk⟩
  · rintro (⟨r, hr, hk, rfl⟩ | ⟨hr, hk⟩)
    · exact ⟨r, hr, if_pos hk⟩
    · exact ⟨r', hr, if_neg hk⟩

theorem map_updateRow {α : Type} {g : ρ → α} (hg : ∀ r, g (f r) = g r) :
    (updateRow key k f rows).map g = rows.map g := by
  rw [updateRow, List.map_map]
  refine List.map_congr_left fun r _ => ?_
  simp only [Function.comp_apply]
  split
  · exact hg r
  · rfl

theorem findRow_updateRow (hf : ∀ r, key (f r) = key r) :
    findRow key j (updateRow key k f rows) =
      (findRow key j rows).map (fun r => if j = k then f r else r) := by
  induction rows with
  | nil => rfl
  | cons a rows ih =>
    have hkey : key (if key a = k then f a else a) = key a := by
      split
      · exact hf a
      · rfl
    simp only [findRow, updateRow, List.map_cons] at ih ⊢
    by_cases ha : key a = j
    · subst ha
      simp only [List.find?_cons, hkey, decide_true, Option.map_some]
    · simp only [List.find?_cons, hkey, ha, decide_false, ih]

/-- An update of the one row under a key moves it from one count to another. -/
theorem countP_updateRow (hnodup : (rows.map key).Nodup) (hr : r ∈ rows) (p : ρ → Bool) :
    (updateRow key (key r) f rows).countP p + (if p r then 1 else 0) =
      rows.countP p + (if p (f r) then 1 else 0) := by
  induction rows with
  | nil => cases hr
  | cons a rows ih =>
    rw [List.map_cons, List.nodup_cons] at hnodup
    rcases List.mem_cons.mp hr with rfl | hr
    · have hrest : updateRow key (key r) f rows = rows := by
        rw [updateRow]
        refine (List.map_congr_left fun b hb => if_neg fun hbr => ?_).trans (List.map_id rows)
        exact hnodup.1 (List.mem_map.mpr ⟨b, hb, hbr⟩)
      rw [updateRow, List.map_cons, if_pos rfl, ← updateRow, hrest, List.countP_cons,
        List.countP_cons]
      omega
    · have hne : key a ≠ key r := fun har =>
        hnodup.1 (List.mem_map.mpr ⟨r, hr, har.symm⟩)
      have hih := ih hnodup.2 hr
      rw [updateRow, List.map_cons, if_neg hne, ← updateRow, List.countP_cons, List.countP_cons]
      omega

end EventLens
