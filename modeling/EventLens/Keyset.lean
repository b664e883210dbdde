import Mathlib.Data.List.Sort
import Mathlib.Data.Prod.Lex
import Mathlib.Order.WithBot

/-!
Keyset pagination. A client follows the cursor of each page until there is
none; a server cuts the rows after the cursor into pages. Where the rows after
a row are exactly those that follow it in the order, following the cursors
yields the whole listing. The order provided here is that of a nullable key,
descending with nulls first, ties broken by an identifier.
-/

namespace Keyset

/-- A page of rows and the cursor of the next page. -/
structure Page (α γ : Type) where
  rows : List α
  next : Option γ
deriving DecidableEq

variable {α γ τ ι : Type}

/-- Cut `limit` rows from those fetched; one row more than fits tells that
there is a next page. -/
def page (limit : ℕ) (cursor : α → γ) (fetched : List α) : Page α γ :=
  if limit < fetched.length then
    { rows := fetched.take limit, next := (fetched.take limit).getLast?.map cursor }
  else { rows := fetched, next := none }

/-- The pages one after another, as long as there is fuel. -/
def follow (fetch : Option γ → Page α γ) : ℕ → Option γ → Option (List α)
  | 0, _ => none
  | fuel + 1, cursor =>
    match (fetch cursor).next with
    | none => some (fetch cursor).rows
    | some next => (follow fetch fuel (some next)).map (fun rest => (fetch cursor).rows ++ rest)

theorem page_last {limit : ℕ} {cursor : α → γ} {rows : List α} (h : rows.length ≤ limit) :
    page limit cursor (rows.take (limit + 1)) = { rows := rows, next := none } := by
  have htake : rows.take (limit + 1) = rows := List.take_of_length_le (by omega)
  unfold page
  rw [htake, if_neg (by omega)]

theorem page_more {limit : ℕ} {cursor : α → γ} {pre post : List α} {x : α}
    (hlimit : limit = pre.length + 1) (hpost : post ≠ []) :
    page limit cursor ((pre ++ x :: post).take (limit + 1)) =
      { rows := pre ++ [x], next := some (cursor x) } := by
  have hlength : 0 < post.length := List.length_pos_of_ne_nil hpost
  have htake : ((pre ++ x :: post).take (limit + 1)).take limit = pre ++ [x] := by
    rw [List.take_take, hlimit, List.append_cons]
    exact List.take_left' (by simp)
  unfold page
  rw [htake, if_pos]
  · simp
  · simp only [List.length_take, List.length_append, List.length_cons]
    omega

/-- A list longer than a page, cut at the last row of the page. -/
theorem split_page {rows : List α} {limit : ℕ} (hlimit : 1 ≤ limit) (h : limit < rows.length) :
    ∃ pre x post, rows = pre ++ x :: post ∧ limit = pre.length + 1 ∧ post ≠ [] := by
  refine ⟨rows.take (limit - 1), rows[limit - 1], rows.drop limit, ?_, ?_, ?_⟩
  · have hdrop : rows.drop (limit - 1) = rows[limit - 1] :: rows.drop limit := by
      rw [List.drop_eq_getElem_cons (by omega)]
      congr 2
      omega
    rw [← hdrop, List.take_append_drop]
  · rw [List.length_take]
    omega
  · rw [ne_eq, List.drop_eq_nil_iff]
    omega

section Follow

variable {fetch : Option γ → Page α γ} {cursor : α → γ} {limit : ℕ} {rows : List α}
  {after : α → α → Prop} [DecidableRel after]

/-- Where the rows after a row continue each other, following the cursors from
a row yields the rows after it. -/
theorem follow_after (hlimit : 1 ≤ limit)
    (hfetch : ∀ x ∈ rows, fetch (some (cursor x)) =
      page limit cursor ((rows.filter (after x)).take (limit + 1)))
    (hchain : ∀ x ∈ rows, ∀ pre y post, rows.filter (after x) = pre ++ y :: post →
      rows.filter (after y) = post)
    (fuel : ℕ) {x : α} (hx : x ∈ rows) (hfuel : (rows.filter (after x)).length < fuel) :
    follow fetch fuel (some (cursor x)) = some (rows.filter (after x)) := by
  induction fuel generalizing x with
  | zero => omega
  | succ fuel ih =>
    unfold follow
    rw [hfetch x hx]
    by_cases hmore : limit < (rows.filter (after x)).length
    · obtain ⟨pre, y, post, hsplit, hpre, hpost⟩ := split_page hlimit hmore
      have hy : y ∈ rows := by
        have hmem : y ∈ rows.filter (after x) := by
          rw [hsplit]
          simp
        exact List.mem_of_mem_filter hmem
      have hrest : rows.filter (after y) = post := hchain x hx pre y post hsplit
      have hlength : post.length < fuel := by
        rw [hsplit, List.length_append, List.length_cons] at hfuel
        omega
      rw [hsplit, page_more hpre hpost]
      simp only
      rw [ih hy (by rw [hrest]; exact hlength), hrest]
      simp
    · rw [page_last (by omega)]

/-- Following the cursors from the start: the first page, and the rows after
its last row. -/
theorem follow_start (hirrefl : ∀ x, ¬ after x x) (hlimit : 1 ≤ limit) (hstart : fetch none =
      page limit cursor (rows.take (limit + 1)))
    (hfetch : ∀ x ∈ rows, fetch (some (cursor x)) =
      page limit cursor ((rows.filter (after x)).take (limit + 1)))
    (hchain : ∀ x ∈ rows, ∀ pre y post, rows.filter (after x) = pre ++ y :: post →
      rows.filter (after y) = post)
    {pre post : List α} {x : α} (hrows : rows = pre ++ x :: post)
    (hpre : limit = pre.length + 1) (hpost : post ≠ []) (fuel : ℕ) (hfuel : rows.length < fuel) :
    follow fetch fuel none = some (pre ++ x :: rows.filter (after x)) := by
  cases fuel with
  | zero => omega
  | succ fuel =>
    have hx : x ∈ rows := by
      rw [hrows]
      simp
    have hlength : (rows.filter (after x)).length < fuel := by
      have hless : (rows.filter (after x)).length < rows.length :=
        List.length_filter_lt_length_iff_exists.mpr ⟨x, hx, by simpa using hirrefl x⟩
      omega
    unfold follow
    rw [hstart, hrows, page_more hpre hpost, ← hrows]
    simp only
    rw [follow_after hlimit hfetch hchain fuel hx hlength]
    simp

/-- A listing that fits on one page. -/
theorem follow_one (hstart : fetch none = page limit cursor (rows.take (limit + 1)))
    (h : rows.length ≤ limit) (fuel : ℕ) (hfuel : 0 < fuel) :
    follow fetch fuel none = some rows := by
  cases fuel with
  | zero => omega
  | succ fuel =>
    unfold follow
    rw [hstart, page_last h]

end Follow

/-- In a strictly sorted list the rows that a row comes before are those
behind it. -/
theorem filter_before {before : α → α → Prop} [DecidableRel before]
    (asymm : ∀ a b, before a b → ¬ before b a) {pre post : List α} {x : α}
    (sorted : (pre ++ x :: post).Pairwise before) :
    (pre ++ x :: post).filter (before x) = post := by
  obtain ⟨-, hcons, hpre⟩ := List.pairwise_append.mp sorted
  obtain ⟨hpost, -⟩ := List.pairwise_cons.mp hcons
  have hleft : pre.filter (before x) = [] := by
    refine List.filter_eq_nil_iff.mpr ?_
    intro y hy hxy
    exact asymm x y (of_decide_eq_true hxy) (hpre y hy x List.mem_cons_self)
  have hself : ¬ before x x := fun h => asymm x x h h
  have hright : post.filter (before x) = post := by
    refine List.filter_eq_self.mpr ?_
    intro y hy
    exact decide_eq_true (hpost y hy)
  rw [List.filter_append, hleft, List.nil_append, List.filter_cons_of_neg (by simpa using hself),
    hright]

/-- Rows selected behind a row continue each other when the selection is
transitive and agrees with the order on the selected rows. -/
theorem chain_of_sorted {before after : α → α → Prop} [DecidableRel before]
    [DecidableRel after] (asymm : ∀ a b, before a b → ¬ before b a) {rows : List α}
    (sorted : rows.Pairwise before) (htrans : ∀ x y z, after x y → after y z → after x z)
    (hbefore : ∀ x y z, after x y → after x z → (after y z ↔ before y z)) (x : α)
    (pre : List α) (y : α) (post : List α) (hsplit : rows.filter (after x) = pre ++ y :: post) :
    rows.filter (after y) = post := by
  have hy : after x y := by
    have hmem : y ∈ rows.filter (after x) := by
      rw [hsplit]
      simp
    exact of_decide_eq_true (List.mem_filter.mp hmem).2
  have hselect : rows.filter (after y) = (rows.filter (after x)).filter (before y) := by
    rw [List.filter_filter]
    refine List.filter_congr ?_
    intro z _
    by_cases hz : after x z
    · simp [hz, hbefore x y z hy hz]
    · have hyz : ¬ after y z := fun h => hz (htrans x y z hy h)
      simp [hz, hyz]
  have hsorted : (pre ++ y :: post).Pairwise before := by
    rw [← hsplit]
    exact sorted.filter _
  rw [hselect, hsplit]
  exact filter_before asymm hsorted

/-! A nullable key, descending with nulls first, then a descending identifier. -/

section NullsFirst

variable [LinearOrder τ] [LinearOrder ι] (stamp : α → Option τ) (ident : α → ι)

/-- The rows whose key is not null and lies below the cursor `(t, i)`. A
comparison with null selects nothing. -/
def Below (t : τ) (i : ι) (a : α) : Prop :=
  match stamp a with
  | none => False
  | some s => s < t ∨ (s = t ∧ ident a < i)

/-- `a` is strictly before `b`. -/
def Before (a b : α) : Prop :=
  match stamp a with
  | some t => Below stamp ident t (ident a) b
  | none =>
    match stamp b with
    | some _ => True
    | none => ident b < ident a

/-- `a` may stand before `b`. -/
def Precedes (a b : α) : Prop := ¬ Before stamp ident b a

instance (t : τ) (i : ι) (a : α) : Decidable (Below stamp ident t i a) := by
  unfold Below
  split <;> infer_instance

instance : DecidableRel (Before stamp ident) := by
  intro a b
  unfold Before
  split
  · infer_instance
  · split <;> infer_instance

instance : DecidableRel (Precedes stamp ident) :=
  fun a b => inferInstanceAs (Decidable (¬ Before stamp ident b a))

/-- `ORDER BY stamp DESC, ident DESC`, nulls first. -/
def orderBy (rows : List α) : List α := rows.insertionSort (Precedes stamp ident)

variable {stamp ident}

/-- The order is that of this key, descending: null counts as the greatest. -/
def sortKey (stamp : α → Option τ) (ident : α → ι) (a : α) : WithTop τ ×ₗ ι :=
  toLex ((stamp a).elim ⊤ WithTop.some, ident a)

theorem before_iff {a b : α} :
    Before stamp ident a b ↔ sortKey stamp ident b < sortKey stamp ident a := by
  unfold Before Below sortKey
  rw [Prod.Lex.toLex_lt_toLex]
  cases stamp a with
  | none => cases stamp b <;> simp
  | some s => cases stamp b <;> simp

theorem below_iff {t : τ} {i : ι} {a : α} :
    Below stamp ident t i a ↔
      (stamp a).isSome ∧ sortKey stamp ident a < toLex (WithTop.some t, i) := by
  unfold Below sortKey
  rw [Prod.Lex.toLex_lt_toLex]
  cases stamp a <;> simp

/-- Behind a row with a key there are only rows with a key. -/
theorem isSome_of_before {a b : α} (ha : (stamp a).isSome) (hab : Before stamp ident a b) :
    (stamp b).isSome := by
  unfold Before at hab
  cases hstamp : stamp a with
  | none => simp [hstamp] at ha
  | some t =>
    rw [hstamp] at hab
    exact (below_iff.mp hab).1

/-- What follows a row below a cursor is below the cursor. -/
theorem below_before {t : τ} {i : ι} {a b : α} (ha : Below stamp ident t i a)
    (hab : Before stamp ident a b) : Below stamp ident t i b := by
  have hkey := before_iff.mp hab
  rw [below_iff] at *
  exact ⟨isSome_of_before ha.1 hab, lt_trans hkey ha.2⟩

theorem before_trans {a b c : α} (hab : Before stamp ident a b) (hbc : Before stamp ident b c) :
    Before stamp ident a c := by
  rw [before_iff] at *
  exact lt_trans hbc hab

theorem before_asymm (a b : α) (h : Before stamp ident a b) : ¬ Before stamp ident b a := by
  rw [before_iff] at *
  exact lt_asymm h

/-- Rows with different identifiers are comparable. -/
theorem before_of_precedes {a b : α} (h : Precedes stamp ident a b) (hne : ident a ≠ ident b) :
    Before stamp ident a b := by
  unfold Precedes at h
  rw [before_iff] at *
  refine lt_of_le_of_ne (not_lt.mp h) ?_
  intro hkey
  exact hne (congrArg (fun k => (ofLex k).2) hkey).symm

theorem pairwise_orderBy (rows : List α) :
    (orderBy stamp ident rows).Pairwise (Precedes stamp ident) := by
  have total : Std.Total (Precedes stamp ident) := by
    refine ⟨fun a b => ?_⟩
    unfold Precedes
    rw [before_iff, before_iff, not_lt, not_lt]
    exact (le_total _ _).symm
  have trans : IsTrans α (Precedes stamp ident) := by
    refine ⟨fun a b c hab hbc => ?_⟩
    unfold Precedes at *
    rw [before_iff, not_lt] at *
    exact le_trans hbc hab
  exact List.pairwise_insertionSort _ rows

theorem perm_orderBy (rows : List α) : (orderBy stamp ident rows).Perm rows :=
  List.perm_insertionSort _ rows

/-- Rows with distinct identifiers are sorted strictly. -/
theorem sorted_orderBy {rows : List α} (hids : (rows.map ident).Nodup) :
    (orderBy stamp ident rows).Pairwise (Before stamp ident) := by
  have hdistinct : ((orderBy stamp ident rows).map ident).Nodup :=
    ((perm_orderBy rows).map ident).nodup_iff.mpr hids
  have hne : (orderBy stamp ident rows).Pairwise (fun a b => ident a ≠ ident b) :=
    List.pairwise_map.mp hdistinct
  exact ((pairwise_orderBy rows).and hne).imp (fun h => before_of_precedes h.1 h.2)

/-- Selecting rows and sorting them is sorting and then selecting. -/
theorem orderBy_filter {rows : List α} (hids : (rows.map ident).Nodup) (q : α → Bool) :
    orderBy stamp ident (rows.filter q) = (orderBy stamp ident rows).filter q := by
  have hfiltered : ((rows.filter q).map ident).Nodup :=
    hids.sublist (List.filter_sublist.map ident)
  have hunique : ∀ a b, a ∈ orderBy stamp ident (rows.filter q) →
      b ∈ (orderBy stamp ident rows).filter q → Before stamp ident a b →
      Before stamp ident b a → a = b :=
    fun a b _ _ hab hba => absurd hba (before_asymm a b hab)
  have hperm : (orderBy stamp ident (rows.filter q)).Perm ((orderBy stamp ident rows).filter q) :=
    (perm_orderBy _).trans ((perm_orderBy rows).filter q).symm
  exact hperm.eq_of_pairwise hunique (sorted_orderBy hfiltered) ((sorted_orderBy hids).filter q)

/-! Where a page of a sorted listing ends. -/

/-- The number of rows without a key. -/
def nulls (stamp : α → Option τ) (rows : List α) : ℕ := rows.countP (fun a => (stamp a).isNone)

variable {pre post : List α} {x : α} {limit : ℕ}

omit [LinearOrder τ] in
theorem not_null_and_keyed {a : α} (h : (stamp a).isNone) (h' : (stamp a).isSome) : False := by
  rw [Option.isNone_iff_eq_none.mp h] at h'
  cases h'

omit [LinearOrder τ] in
theorem nulls_split : nulls stamp (pre ++ x :: post) =
    nulls stamp pre + nulls stamp [x] + nulls stamp post := by
  unfold nulls
  rw [List.append_cons, List.countP_append, List.countP_append]

omit [LinearOrder τ] in
theorem nulls_eq_zero_iff {rows : List α} :
    nulls stamp rows = 0 ↔ ∀ a ∈ rows, (stamp a).isSome := by
  unfold nulls
  rw [List.countP_eq_zero]
  refine forall₂_congr fun a _ => ?_
  cases stamp a <;> simp

/-- A page that ends in a row with a key holds all rows without one. -/
theorem nulls_of_keyed (sorted : (pre ++ x :: post).Pairwise (Before stamp ident))
    (hx : (stamp x).isSome) (hpre : limit = pre.length + 1) :
    nulls stamp (pre ++ x :: post) < limit := by
  obtain ⟨-, hcons, -⟩ := List.pairwise_append.mp sorted
  obtain ⟨hpost, -⟩ := List.pairwise_cons.mp hcons
  have hzero : nulls stamp post = 0 :=
    nulls_eq_zero_iff.mpr (fun a ha => isSome_of_before hx (hpost a ha))
  have hself : nulls stamp [x] = 0 := nulls_eq_zero_iff.mpr (by simpa using hx)
  have hle : nulls stamp pre ≤ pre.length := List.countP_le_length
  rw [nulls_split]
  omega

/-- A page that ends in a row without a key holds such rows only. -/
theorem nulls_of_null (sorted : (pre ++ x :: post).Pairwise (Before stamp ident))
    (hx : stamp x = none) (hpre : limit = pre.length + 1) :
    (∀ a ∈ pre, (stamp a).isNone) ∧
      nulls stamp (pre ++ x :: post) = limit + nulls stamp post := by
  obtain ⟨-, -, hbefore⟩ := List.pairwise_append.mp sorted
  have hnone : ∀ a ∈ pre, (stamp a).isNone := by
    intro a ha
    cases hstamp : stamp a with
    | none => rfl
    | some t =>
      have hsome := isSome_of_before (by simp [hstamp]) (hbefore a ha x List.mem_cons_self)
      simp [hx] at hsome
  refine ⟨hnone, ?_⟩
  have hall : nulls stamp pre = pre.length := List.countP_eq_length.mpr hnone
  have hself : nulls stamp [x] = 1 := by simp [nulls, hx]
  rw [nulls_split]
  omega

omit [LinearOrder τ] in
/-- The last row without a key, when the others begin behind the page. -/
theorem last_null (hnone : ∀ a ∈ pre, (stamp a).isNone) (hx : stamp x = none)
    (hpost : nulls stamp post = 0) :
    ((pre ++ x :: post).filter (fun a => (stamp a).isNone)).getLast? = some x := by
  have hkeyed : post.filter (fun a => (stamp a).isNone) = [] := by
    refine List.filter_eq_nil_iff.mpr ?_
    intro a ha hisNone
    exact not_null_and_keyed hisNone (nulls_eq_zero_iff.mp hpost a ha)
  have hall : pre.filter (fun a => (stamp a).isNone) = pre := List.filter_eq_self.mpr hnone
  rw [List.filter_append, List.filter_cons_of_pos (by simp [hx]), hkeyed, hall]
  simp

end NullsFirst

/-! Listings by name, of a set that may change between two pages. -/

section Listing

variable {ν : Type} [LinearOrder ν] (name : α → ν)

def BehindCursor (cursor : Option α) (a : α) : Prop := ∀ last ∈ cursor, name last < name a

instance (cursor : Option α) (a : α) : Decidable (BehindCursor name cursor a) := by
  cases cursor <;> dsimp only [BehindCursor] <;> infer_instance

/-- The next page of those behind the cursor, in the order of their names. -/
def listing (limit : ℕ) (items : List α) (cursor : Option α) : Page α α :=
  page limit id
    ((items.filter (fun a => BehindCursor name cursor a)).insertionSort
    (fun a b => name a ≤ name b))

variable {name} {limit : ℕ} {items : List α} {cursor : Option α}

theorem mem_of_listing {a : α} (h : a ∈ (listing name limit items cursor).rows) : a ∈ items := by
  have hfetched : ∀ b ∈ (items.filter (fun b => BehindCursor name cursor b)).insertionSort
      (fun b c => name b ≤ name c), b ∈ items := by
    intro b hb
    exact List.mem_of_mem_filter ((List.perm_insertionSort _ _).mem_iff.mp hb)
  rw [listing, page] at h
  split at h
  · exact hfetched a (List.mem_of_mem_take h)
  · exact hfetched a h

/-- The cursor is the last row of the page. -/
theorem mem_rows_of_next {last : α} (h : last ∈ (listing name limit items cursor).next) :
    last ∈ (listing name limit items cursor).rows := by
  rw [listing, page] at h ⊢
  split at h
  · rename_i hmore
    rw [if_pos hmore]
    rw [Option.map_id] at h
    exact List.mem_of_getLast? h
  · cases h

/-- What is there is on the page, or behind its cursor. -/
theorem listed_or_behind (hname : Function.Injective name) (hlimit : 1 ≤ limit) {a : α}
    (ha : a ∈ items)
    (hcursor : BehindCursor name cursor a) :
    a ∈ (listing name limit items cursor).rows ∨
      ∃ last ∈ (listing name limit items cursor).next, name last < name a := by
  rw [listing]
  have hmem : a ∈ (items.filter (fun b => BehindCursor name cursor b)).insertionSort
      (fun b c => name b ≤ name c) :=
    (List.perm_insertionSort _ _).mem_iff.mpr (List.mem_filter.mpr ⟨ha, decide_eq_true hcursor⟩)
  have hsorted := List.pairwise_insertionSort (fun b c => name b ≤ name c)
    (items.filter (fun b => BehindCursor name cursor b))
  generalize (items.filter (fun b => BehindCursor name cursor b)).insertionSort
    (fun b c => name b ≤ name c) = fetched at hmem hsorted
  by_cases hmore : limit < fetched.length
  · obtain ⟨pre, x, post, rfl, hpre, hpost⟩ := split_page hlimit hmore
    have hpage : page limit id (pre ++ x :: post) = { rows := pre ++ [x], next := some x } := by
      have htake : (pre ++ x :: post).take limit = pre ++ [x] := by
        rw [hpre, List.append_cons]
        exact List.take_left' (by simp)
      rw [page, if_pos hmore, htake]
      simp
    rw [hpage]
    rcases List.mem_append.mp hmem with hbefore | hbehind
    · exact .inl (List.mem_append_left _ hbefore)
    · rcases List.mem_cons.mp hbehind with rfl | hlater
      · exact .inl (List.mem_append_right _ (List.mem_singleton.mpr rfl))
      · obtain ⟨-, htail, -⟩ := List.pairwise_append.mp hsorted
        have hle := (List.pairwise_cons.mp htail).1 a hlater
        rcases lt_or_eq_of_le hle with hlt | heq
        · exact .inr ⟨x, rfl, hlt⟩
        · exact .inl (List.mem_append_right _ (List.mem_singleton.mpr (hname heq).symm))
  · left
    rw [page, if_neg hmore]
    exact hmem

end Listing

end Keyset
