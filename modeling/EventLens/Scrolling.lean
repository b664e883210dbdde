import EventLens.Keyset
import Mathlib.Data.List.Sort

/-!
Paging with a coarse cursor: the time of the oldest row seen, cut down to what
the cursor can tell. The next page starts strictly below the cursor, so rows
that are not below it are skipped. Nothing is skipped exactly when the rows on
the two sides of each page edge are told apart. And the latest rows of a set are
those newer than the rest, if there are as many as are asked for or no others.
-/

namespace Scrolling

variable {α τ : Type} [LinearOrder τ]

/-- Latest first; rows of one time stay in the order they come in. -/
def newestFirst (time : α → τ) (rows : List α) : List α :=
    rows.insertionSort (fun a b => time b ≤ time a)

/-- The latest rows, so many at most. -/
def latest (time : α → τ) (limit : ℕ) (rows : List α) : List α := (newestFirst time rows).take limit

def below (time : α → τ) (before : Option τ) (a : α) : Bool := before.all (fun t => time a < t)

/-- The times of the rows, descending. -/
def timesOf (time : α → τ) (rows : List α) : List τ := (newestFirst time rows).map time

/-- Page after page, each before the cursor of the last row of the one before,
until there are no more rows. -/
def scroll (fetch : ℕ → Option τ → List α) (cursor : α → τ) : ℕ → ℕ → Option τ → Option (List α)
  | 0, _, _ => none
  | fuel + 1, n, before =>
    match (fetch n before).getLast? with
    | none => some []
    | some oldest =>
      (scroll fetch cursor fuel (n + 1) (some (cursor oldest))).map
        (fun rest => fetch n before ++ rest)

/-- At each page edge the first row of the next page is below the cursor of
the last row of the page. -/
def Spaced (cut : τ → τ) (limit : ℕ) (times : List τ) : Prop :=
  ∀ k newer older, times[(k + 1) * limit - 1]? = some newer → times[(k + 1) * limit]? = some older →
    older < cut newer

section Sorted

variable {time : α → τ} {rows more : List α} {limit : ℕ}

theorem perm_newestFirst (time : α → τ) (rows : List α) : (newestFirst time rows).Perm rows :=
  List.perm_insertionSort _ rows

theorem pairwise_newestFirst (time : α → τ) (rows : List α) :
    (newestFirst time rows).Pairwise (fun a b => time b ≤ time a) := by
  have total : Std.Total (fun a b : α => time b ≤ time a) := ⟨fun a b => le_total _ _⟩
  have trans : IsTrans α (fun a b => time b ≤ time a) := ⟨fun a b c hab hbc => le_trans hbc hab⟩
  exact List.pairwise_insertionSort _ rows

/-- Rows in descending order have the times of their set. -/
theorem timesOf_sorted (hperm : more.Perm rows)
    (hsorted : more.Pairwise (fun a b => time b ≤ time a)) :
    timesOf time rows = more.map time := by
  have hleft : (timesOf time rows).Pairwise (fun s t => t ≤ s) :=
    List.pairwise_map.mpr (pairwise_newestFirst time rows)
  have hright : (more.map time).Pairwise (fun s t => t ≤ s) := List.pairwise_map.mpr hsorted
  have hsame : (timesOf time rows).Perm (more.map time) :=
    ((perm_newestFirst time rows).trans hperm.symm).map time
  exact hsame.eq_of_pairwise (fun s t _ _ hst hts => le_antisymm hts hst) hleft hright

theorem head_latest (hlimit : 1 ≤ limit) {a : α} (ha : (latest time limit rows).head? = some a) :
    a ∈ rows ∧ ∀ b ∈ rows, time b ≤ time a := by
  have hperm := perm_newestFirst time rows
  have hsorted := pairwise_newestFirst time rows
  unfold latest at ha
  cases hs : newestFirst time rows with
  | nil => simp [hs] at ha
  | cons c rest =>
    obtain ⟨limit, rfl⟩ := Nat.exists_eq_add_of_le' hlimit
    rw [hs, List.take_succ_cons, List.head?_cons] at ha
    cases ha
    rw [hs] at hperm hsorted
    refine ⟨hperm.mem_iff.mp List.mem_cons_self, fun b hb => ?_⟩
    rcases List.mem_cons.mp (hperm.mem_iff.mpr hb) with rfl | hb
    · exact le_rfl
    · exact (List.pairwise_cons.mp hsorted).1 b hb

theorem exists_head_latest (time : α → τ) (hlimit : 1 ≤ limit) {a : α} (ha : a ∈ rows) :
    ∃ b, (latest time limit rows).head? = some b ∧ ∀ c ∈ rows, time c ≤ time b := by
  cases hhead : (latest time limit rows).head? with
  | some b => exact ⟨b, rfl, (head_latest hlimit hhead).2⟩
  | none =>
    have hnil : newestFirst time rows = [] := by
      rw [List.head?_eq_none_iff, latest, List.take_eq_nil_iff] at hhead
      exact hhead.resolve_left (by omega)
    have hmem := (perm_newestFirst time rows).mem_iff.mpr ha
    rw [hnil] at hmem
    cases hmem

/-- What a descending list has of a set closed upwards comes first. -/
theorem filter_eq_take {p : α → Bool} {l : List α}
    (h : l.Pairwise (fun a b => p b = true → p a = true)) :
    l.filter p = l.take (l.filter p).length := by
  induction l with
  | nil => rfl
  | cons a l ih =>
    obtain ⟨ha, hl⟩ := List.pairwise_cons.mp h
    by_cases hp : p a = true
    · rw [List.filter_cons_of_pos hp, List.length_cons, List.take_succ_cons, ← ih hl]
    · have hnone : l.filter p = [] := List.filter_eq_nil_iff.mpr fun b hb hpb => hp (ha b hb hpb)
      rw [List.filter_cons_of_neg hp, hnone]
      rfl

/-- Rows newer than all others are the latest, if there are enough of them or no others. -/
theorem latest_perm {fresh rest : List α} (hperm : rows.Perm (fresh ++ rest))
    (hnewer : ∀ a ∈ fresh, ∀ b ∈ rest, time b < time a) (hfits : fresh.length ≤ limit)
    (hrest : fresh.length < limit → rest = []) : (latest time limit rows).Perm fresh := by
  have hsorted := (perm_newestFirst time rows).trans hperm
  by_cases hless : fresh.length < limit
  · have hall : rest = [] := hrest hless
    rw [hall, List.append_nil] at hsorted
    rw [latest, List.take_of_length_le (by rw [hsorted.length_eq]; exact hfits)]
    exact hsorted
  · let p : α → Bool := fun a => rest.all (fun b => time b < time a)
    have hfresh : fresh.filter p = fresh := by
      refine List.filter_eq_self.mpr fun a ha => ?_
      simpa [p] using hnewer a ha
    have hold : rest.filter p = [] := by
      refine List.filter_eq_nil_iff.mpr fun a ha hp => ?_
      exact lt_irrefl _ (of_decide_eq_true (List.all_eq_true.mp hp a ha))
    have hmine : ((newestFirst time rows).filter p).Perm fresh := by
      have hfiltered := hsorted.filter p
      rwa [List.filter_append, hfresh, hold, List.append_nil] at hfiltered
    have hup : (newestFirst time rows).Pairwise (fun a b => p b = true → p a = true) := by
      refine (pairwise_newestFirst time rows).imp fun {a b} hle hp => ?_
      refine List.all_eq_true.mpr fun c hc => decide_eq_true ?_
      exact (of_decide_eq_true (List.all_eq_true.mp hp c hc)).trans_le hle
    have hlimit : limit = ((newestFirst time rows).filter p).length := by
      rw [hmine.length_eq]
      omega
    rw [latest, hlimit, ← filter_eq_take hup]
    exact hmine

end Sorted

section Edges

variable {cut : τ → τ} {limit : ℕ} {pre post : List τ} {t : τ}

theorem spaced_short {times : List τ} (h : times.length ≤ limit) : Spaced cut limit times := by
  intro k newer older _ holder
  have hindex : (k + 1) * limit < times.length := (List.getElem?_eq_some_iff.mp holder).1
  have hlimit : limit ≤ (k + 1) * limit := Nat.le_mul_of_pos_left limit (Nat.succ_pos k)
  omega

/-- The first edge, and the edges of the rest. -/
theorem spaced_append (hpre : limit = pre.length + 1) :
    Spaced cut limit (pre ++ t :: post) ↔ (∀ s ∈ post.head?, s < cut t) ∧
    Spaced cut limit post := by
  have hlast : (pre ++ t :: post)[limit - 1]? = some t := by
    rw [hpre]
    simp
  have hbehind : ∀ i, (pre ++ t :: post)[limit + i]? = post[i]? := by
    intro i
    rw [hpre, List.append_cons, List.getElem?_append_right (by simp)]
    congr 1
    simp
  constructor
  · intro h
    refine ⟨fun s hs => h 0 t s (by simpa using hlast) ?_, fun k newer older hnewer holder => ?_⟩
    · have hfirst := hbehind 0
      rw [Nat.add_zero] at hfirst
      rw [Nat.zero_add, Nat.one_mul, hfirst, ← List.head?_eq_getElem?]
      exact hs
    · refine h (k + 1) newer older ?_ ?_
      · have hindex : (k + 1 + 1) * limit - 1 = limit + ((k + 1) * limit - 1) := by
          have hpos : 1 ≤ (k + 1) * limit := Nat.mul_pos (Nat.succ_pos k) (by omega)
          rw [Nat.add_mul (k + 1) 1 limit]
          omega
        rw [hindex, hbehind, hnewer]
      · have hindex : (k + 1 + 1) * limit = limit + (k + 1) * limit := by
          rw [Nat.add_mul (k + 1) 1 limit]
          omega
        rw [hindex, hbehind, holder]
  · rintro ⟨hhead, hpost⟩ k newer older hnewer holder
    cases k with
    | zero =>
      rw [Nat.zero_add, Nat.one_mul] at hnewer holder
      cases hlast.symm.trans hnewer
      have hfirst := hbehind 0
      rw [Nat.add_zero] at hfirst
      rw [hfirst, ← List.head?_eq_getElem?] at holder
      exact hhead older holder
    | succ k =>
      have hpos : 1 ≤ (k + 1) * limit := Nat.mul_pos (Nat.succ_pos k) (by omega)
      have hnext : (k + 1 + 1) * limit = limit + (k + 1) * limit := by
        rw [Nat.add_mul (k + 1) 1 limit]
        omega
      have hbefore : (k + 1 + 1) * limit - 1 = limit + ((k + 1) * limit - 1) := by omega
      rw [hbefore, hbehind] at hnewer
      rw [hnext, hbehind] at holder
      exact hpost k newer older hnewer holder

end Edges

section Scroll

variable {time : α → τ} {cut : τ → τ} {limit : ℕ} {rows : List α} {fetch : ℕ → Option τ → List α}

/-- Each page holds the latest of the rows below its cursor, in whatever order those
of one time come. -/
def Serves (time : α → τ) (limit : ℕ) (rows : List α) (fetch : ℕ → Option τ → List α) : Prop :=
  ∀ n before, ∃ found, found.Perm (rows.filter (below time before)) ∧
    fetch n before = latest time limit found

theorem page_split {sorted : List α} (hlimit : 1 ≤ limit) (hsorted : sorted ≠ []) :
    ∃ pre x post, sorted = pre ++ x :: post ∧ sorted.take limit = pre ++ [x] ∧
      (post ≠ [] → limit = pre.length + 1) ∧ pre.length + 1 ≤ limit := by
  by_cases hmore : limit < sorted.length
  · obtain ⟨pre, x, post, rfl, hpre, -⟩ := Keyset.split_page hlimit hmore
    refine ⟨pre, x, post, rfl, ?_, fun _ => hpre, hpre.ge⟩
    rw [List.append_cons]
    exact List.take_left' (by simp [hpre])
  · have hlast := List.dropLast_concat_getLast hsorted
    refine ⟨sorted.dropLast, sorted.getLast hsorted, [], hlast.symm, ?_, fun h => absurd rfl h, ?_⟩
    · rw [hlast]
      exact List.take_of_length_le (by omega)
    · have hlength := congrArg List.length hlast
      rw [List.length_append, List.length_singleton] at hlength
      omega

/-- Below the cursor of a row there are only rows behind it. -/
theorem below_cursor {before : Option τ} {pre post : List α} {x : α} (hcut : ∀ t, cut t ≤ t)
    (hperm : (pre ++ x :: post).Perm (rows.filter (below time before)))
    (hsorted : (pre ++ x :: post).Pairwise (fun a b => time b ≤ time a)) :
    (rows.filter (below time (some (cut (time x))))).Perm
      (post.filter (below time (some (cut (time x))))) := by
  have hx : below time before x = true := (List.mem_filter.mp (hperm.mem_iff.mp (by simp))).2
  have hstill : ∀ a, below time (some (cut (time x))) a = true → below time before a = true := by
    intro a ha
    cases before with
    | none => rfl
    | some t =>
      have hat : time a < cut (time x) := of_decide_eq_true ha
      have hxt : time x < t := of_decide_eq_true hx
      exact decide_eq_true ((hat.trans_le (hcut _)).trans hxt)
  have hfilter : rows.filter (below time (some (cut (time x)))) =
      (rows.filter (below time before)).filter (below time (some (cut (time x)))) := by
    rw [List.filter_filter]
    refine List.filter_congr fun a _ => ?_
    cases ha : below time (some (cut (time x))) a with
    | false => rfl
    | true => simp [hstill a ha]
  have hnot : ∀ a, time x ≤ time a → below time (some (cut (time x))) a = false := fun a hle =>
    decide_eq_false (not_lt_of_ge ((hcut _).trans hle))
  obtain ⟨-, -, hpre⟩ := List.pairwise_append.mp hsorted
  have hnone : (pre ++ [x]).filter (below time (some (cut (time x)))) = [] := by
    refine List.filter_eq_nil_iff.mpr fun a ha => ?_
    rcases List.mem_append.mp ha with ha | ha
    · simp [hnot a (hpre a ha x List.mem_cons_self)]
    · rw [List.mem_singleton.mp ha, hnot x le_rfl]
      simp
  have hrest := hperm.symm.filter (below time (some (cut (time x))))
  rw [← hfilter, List.append_cons, List.filter_append, hnone, List.nil_append] at hrest
  exact hrest

theorem filter_below_iff {t : τ} {l : List α} (hsorted : l.Pairwise (fun a b => time b ≤ time a)) :
    l.filter (below time (some t)) = l ↔ ∀ s ∈ (l.map time).head?, s < t := by
  rw [List.filter_eq_self]
  cases l with
  | nil => simp
  | cons a rest =>
    constructor
    · intro h s hs
      cases hs
      exact of_decide_eq_true (h a List.mem_cons_self)
    · intro h b hb
      have hle : time b ≤ time a := by
        rcases List.mem_cons.mp hb with rfl | hb
        · exact le_rfl
        · exact (List.pairwise_cons.mp hsorted).1 b hb
      exact decide_eq_true (hle.trans_lt (h (time a) rfl))

/-- Scrolling ends, repeats nothing, and skips nothing exactly when the edges are told apart. -/
theorem scroll_spec (hlimit : 1 ≤ limit) (hcut : ∀ t, cut t ≤ t)
    (hfetch : Serves time limit rows fetch)
    (fuel n : ℕ) (before : Option τ) (hfuel : (rows.filter (below time before)).length < fuel) :
    ∃ visited, scroll fetch (fun a => cut (time a)) fuel n before = some visited ∧
      visited.Subperm (rows.filter (below time before)) ∧
      (visited.length = (rows.filter (below time before)).length ↔
        Spaced cut limit (timesOf time (rows.filter (below time before)))) := by
  induction fuel generalizing n before with
  | zero => omega
  | succ fuel ih =>
    obtain ⟨found, hfound, hpage⟩ := hfetch n before
    have hperm := (perm_newestFirst time found).trans hfound
    have hsorted := pairwise_newestFirst time found
    have htimes := timesOf_sorted hperm hsorted
    by_cases hnil : newestFirst time found = []
    · rw [hnil] at hperm htimes
      have hempty : fetch n before = [] := by
        rw [hpage, latest, hnil, List.take_nil]
      refine ⟨[], ?_, List.nil_subperm, ?_⟩
      · rw [scroll, hempty]
        rfl
      · rw [htimes, hperm.symm.eq_nil]
        exact iff_of_true rfl (spaced_short (by simp))
    · obtain ⟨pre, x, post, hsplit, htake, hfull, hfits⟩ := page_split hlimit hnil
      rw [hsplit] at hperm hsorted htimes
      have hfetched : fetch n before = pre ++ [x] := hpage.trans htake
      have hbehind : (rows.filter (below time (some (cut (time x))))).Perm
          (post.filter (below time (some (cut (time x))))) := below_cursor hcut hperm hsorted
      have hpost : post.Pairwise (fun a b => time b ≤ time a) :=
        (List.pairwise_cons.mp (List.pairwise_append.mp hsorted).2.1).2
      have hlength : (rows.filter (below time before)).length = pre.length + 1 + post.length := by
        rw [← hperm.length_eq]
        simp
        omega
      have hfewer : (rows.filter (below time (some (cut (time x))))).length ≤ post.length := by
        rw [hbehind.length_eq]
        exact List.length_filter_le _ _
      obtain ⟨visited, hrest, hsub, hexact⟩ := ih (n + 1) (some (cut (time x))) (by omega)
      refine ⟨pre ++ [x] ++ visited, ?_, ?_, ?_⟩
      · rw [scroll, hfetched, List.getLast?_append_of_ne_nil _ (by simp), List.getLast?_singleton]
        simp only [hrest, Option.map_some]
      · have hbelow : visited.Subperm post :=
          (hsub.trans hbehind.subperm).trans List.filter_sublist.subperm
        have hall : (pre ++ [x] ++ visited).Subperm (pre ++ [x] ++ post) :=
          (List.subperm_append_left _).mpr hbelow
        rw [List.append_cons] at hperm
        exact hall.trans hperm.subperm
      · have hvisited := hsub.length_le
        have hcount : (pre ++ [x] ++ visited).length = (rows.filter (below time before)).length ↔
            visited.length = post.length := by
          rw [hlength, List.length_append, List.length_append, List.length_singleton]
          omega
        rw [hcount, htimes]
        by_cases hlast : post = []
        · rw [hlast] at hfewer ⊢
          refine iff_of_true (by simpa using Nat.le_zero.mp (hvisited.trans hfewer))
            (spaced_short ?_)
          simpa using hfits
        · have hedge : limit = (pre.map time).length + 1 := by
            rw [List.length_map]
            exact hfull hlast
          rw [List.map_append, List.map_cons, spaced_append hedge, ← filter_below_iff hpost]
          constructor
          · intro hsame
            have hkept : (post.filter (below time (some (cut (time x))))).length = post.length := by
              rw [← hbehind.length_eq]
              omega
            have hbelow := List.filter_eq_self.mpr (List.length_filter_eq_length_iff.mp hkept)
            rw [hbelow] at hbehind
            refine ⟨hbelow, ?_⟩
            rw [← timesOf_sorted hbehind.symm hpost]
            exact hexact.mp (hsame.trans hbehind.length_eq.symm)
          · rintro ⟨hbelow, hspaced⟩
            rw [hbelow] at hbehind
            rw [← timesOf_sorted hbehind.symm hpost] at hspaced
            exact (hexact.mpr hspaced).trans hbehind.length_eq

/-- Scrolling from the top visits every row once exactly when the page edges are told apart. -/
theorem scroll_all_iff (hlimit : 1 ≤ limit) (hcut : ∀ t, cut t ≤ t)
    (hfetch : Serves time limit rows fetch)
    {fuel : ℕ} (hfuel : rows.length < fuel) :
    (∃ visited, scroll fetch (fun a => cut (time a)) fuel 0 none = some visited ∧
    visited.Perm rows) ↔
      Spaced cut limit (timesOf time rows) := by
  have hall : rows.filter (below time none) = rows := List.filter_eq_self.mpr fun _ _ => rfl
  obtain ⟨visited, hscroll, hsub, hexact⟩ :=
    scroll_spec hlimit hcut hfetch fuel 0 none (by rwa [hall])
  rw [hall] at hsub hexact
  rw [← hexact]
  constructor
  · rintro ⟨visited', hscroll', hperm⟩
    rw [hscroll] at hscroll'
    cases hscroll'
    exact hperm.length_eq
  · intro hlength
    exact ⟨visited, hscroll, hsub.perm_of_length_le hlength.ge⟩

end Scroll

end Scrolling
