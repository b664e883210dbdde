import Mathlib.Algebra.Order.Field.Basic
import Mathlib.Algebra.Order.BigOperators.Group.List
import Mathlib.Data.Nat.Cast.Order.Field
import Mathlib.Data.List.Range
import Mathlib.Tactic.Linarith
import Mathlib.Tactic.Ring
import Mathlib.Tactic.NormNum

/-!
The justified rows of the photo timeline, over an arbitrary ordered field. The
loop carries the sum of the ratios of the open row. A row is flushed at the
height that fills the container as soon as that height is small enough, so an
open row at the target height always falls short of the container. That bound
keeps the next height positive and the last, unfilled row inside.
-/

namespace EventLens.Layout

structure JustifiedBox (K : Type) where
  top : K
  left : K
  width : K
  height : K
  deriving DecidableEq

structure JustifiedResult (K : Type) where
  boxes : List (JustifiedBox K)
  containerHeight : K

structure LayoutOptions (K : Type) where
  containerWidth : K
  targetRowHeight : K
  gap : K

/-- What the loop carries from one ratio to the next. -/
structure RowState (K : Type) where
  boxes : List (JustifiedBox K)
  top : K
  rowStart : ℕ
  rowRatioSum : K

section Source

variable {K : Type} [Field K] [LinearOrder K]

/-- The loop of `flushRow`: one box for each ratio of the row, left to right. -/
def rowBoxes (gap top height : K) : K → List K → List (JustifiedBox K)
  | _, [] => []
  | left, ratio :: rest =>
    { top, left, width := ratio * height, height } ::
      rowBoxes gap top height (left + (ratio * height + gap)) rest

/-- The ratios from the row's start up to `stop`. -/
def rowRatios (ratios : List K) (start stop : ℕ) : List K := (ratios.take stop).drop start

def flushRow (ratios : List K) (gap : K) (stop : ℕ) (height : K) (s : RowState K) : RowState K :=
  { boxes := s.boxes ++ rowBoxes gap s.top height 0 (rowRatios ratios s.rowStart stop)
    top := s.top + (height + gap)
    rowStart := stop
    rowRatioSum := 0 }

/-- The height at which the row fills the container. -/
def rowHeight (opts : LayoutOptions K) (s : RowState K) (index : ℕ) : K :=
  (opts.containerWidth - (index - s.rowStart : ℕ) * opts.gap) / s.rowRatioSum

def addToSum (ratio : K) (s : RowState K) : RowState K :=
    { s with rowRatioSum := s.rowRatioSum + ratio }

/-- One turn of the loop over the ratios. -/
def addRatio (ratios : List K) (opts : LayoutOptions K) (s : RowState K) (index : ℕ) : RowState K :=
  let s := addToSum (ratios.getD index 0) s
  if rowHeight opts s index ≤ opts.targetRowHeight then
    flushRow ratios opts.gap (index + 1) (rowHeight opts s index) s
  else s

def emptyRow : RowState K := { boxes := [], top := 0, rowStart := 0, rowRatioSum := 0 }

/-- The state after the first `n` ratios. -/
def scanned (ratios : List K) (opts : LayoutOptions K) (n : ℕ) : RowState K :=
  (List.range n).foldl (addRatio ratios opts) emptyRow

def justifiedLayout (ratios : List K) (opts : LayoutOptions K) : JustifiedResult K :=
  let s := scanned ratios opts ratios.length
  let s :=
    if s.rowStart < ratios.length then flushRow ratios opts.gap ratios.length opts.targetRowHeight s
    else s
  { boxes := s.boxes, containerHeight := max 0 (s.top - opts.gap) }

/-- The ratio the timeline gives an asset; the sides are null until known. -/
def assetRatio (width height : Option ℕ) : K :=
  match width, height with
  | some w, some h => if w ≠ 0 ∧ h ≠ 0 then max (4 / 10) (min (w / h) 3) else 1
  | _, _ => 1

/-- The layouts of the timeline's days, each given by its assets' sides. -/
def layouts (containerWidth : K) (groups : List (List (Option ℕ × Option ℕ))) :
    List (JustifiedResult K) :=
  if containerWidth ≤ 0 then []
  else groups.map (fun items =>
    justifiedLayout (items.map (fun item => assetRatio item.1 item.2))
      { containerWidth, targetRowHeight := 235, gap := 2 })

end Source

section Geometry

variable {K : Type} [Field K] [LinearOrder K]

def JustifiedBox.right (b : JustifiedBox K) : K := b.left + b.width

def JustifiedBox.bottom (b : JustifiedBox K) : K := b.top + b.height

/-- The two boxes have no inner point in common. -/
def Apart (a b : JustifiedBox K) : Prop :=
  a.right ≤ b.left ∨ b.right ≤ a.left ∨ a.bottom ≤ b.top ∨ b.bottom ≤ a.top

/-- A box of the ratio, no higher than the target. -/
structure Shaped (target ratio : K) (b : JustifiedBox K) : Prop where
  width_eq : b.width = ratio * b.height
  height_pos : 0 < b.height
  height_le : b.height ≤ target

/-- Boxes side by side at one height, a gap apart, from the left edge on. -/
structure IsRow (gap : K) (row : List (JustifiedBox K)) : Prop where
  starts : ∃ b, row.head? = some b ∧ b.left = 0
  level : ∀ a ∈ row, ∀ b ∈ row, a.top = b.top ∧ a.height = b.height
  side_by_side : row.IsChain (fun a b => b.left = a.right + gap)

/-- The row's last box ends at the width. -/
def Spans (width : K) (row : List (JustifiedBox K)) : Prop :=
    ∃ b, row.getLast? = some b ∧ b.right = width

/-- All of the second row is a gap or more below all of the first. -/
def Below (gap : K) (upper lower : List (JustifiedBox K)) : Prop :=
  ∀ a ∈ upper, ∀ b ∈ lower, a.bottom + gap ≤ b.top

/-- The boxes are rows one below the other; all but a last one left at the
target height because it falls short span the container. -/
structure InRows (opts : LayoutOptions K) (boxes : List (JustifiedBox K))
    (rows : List (List (JustifiedBox K))) : Prop where
  flatten_eq : rows.flatten = boxes
  is_row : ∀ row ∈ rows, IsRow opts.gap row
  stacked : rows.Pairwise (Below opts.gap)
  spans : ∀ row ∈ rows.dropLast, Spans opts.containerWidth row
  last : ∀ row ∈ rows.getLast?, Spans opts.containerWidth row ∨
    ∀ b ∈ row, b.height = opts.targetRowHeight ∧ b.right < opts.containerWidth

/-- What a justified layout of the ratios is. -/
structure Justified (opts : LayoutOptions K) (ratios : List K) (result : JustifiedResult K) :
    Prop where
  one_each : List.Forall₂ (Shaped opts.targetRowHeight) ratios result.boxes
  apart : result.boxes.Pairwise Apart
  inside : ∀ b ∈ result.boxes, 0 ≤ b.left ∧ b.right ≤ opts.containerWidth
  rows : ∃ rows, InRows opts result.boxes rows
  empty : result.boxes = [] → result.containerHeight = 0
  lowest : result.boxes ≠ [] →
    (∃ b ∈ result.boxes, b.bottom = result.containerHeight) ∧
      ∀ b ∈ result.boxes, b.bottom ≤ result.containerHeight

end Geometry

section RowBoxes

variable {K : Type} [Field K] {gap top height left target : K} {ratios : List K}
  {b : JustifiedBox K}

theorem rowBoxes_shaped [LinearOrder K] (hpos : 0 < height) (hle : height ≤ target) :
    List.Forall₂ (Shaped target) ratios (rowBoxes gap top height left ratios) := by
  induction ratios generalizing left with
  | nil => exact .nil
  | cons ratio rest ih => exact .cons ⟨rfl, hpos, hle⟩ ih

theorem rowBoxes_level (hb : b ∈ rowBoxes gap top height left ratios) :
    b.top = top ∧ b.height = height := by
  induction ratios generalizing left with
  | nil => simp [rowBoxes] at hb
  | cons ratio rest ih =>
    rcases List.mem_cons.mp hb with rfl | hb
    · simp
    · exact ih hb

theorem rowBoxes_side_by_side :
    (rowBoxes gap top height left ratios).IsChain (fun a b => b.left = a.right + gap) := by
  induction ratios generalizing left with
  | nil => exact .nil
  | cons ratio rest ih =>
    cases rest with
    | nil => exact .singleton _
    | cons next rest =>
      refine .cons_cons ?_ ih
      simp only [JustifiedBox.right]
      ring

/-- Where the boxes of a row end, the gap after the last one included. -/
def rowEnd (gap height left : K) (ratios : List K) : K :=
    left + (ratios.sum * height + ratios.length * gap)

theorem rowEnd_cons (ratio : K) (rest : List K) :
    rowEnd gap height left (ratio :: rest) =
    rowEnd gap height (left + (ratio * height + gap)) rest := by
  simp only [rowEnd, List.sum_cons, List.length_cons, Nat.cast_add, Nat.cast_one]
  ring

theorem rowBoxes_last (gap top height left : K) (hne : ratios ≠ []) :
    ∃ b, (rowBoxes gap top height left ratios).getLast? = some b ∧
      b.right + gap = rowEnd gap height left ratios := by
  induction ratios generalizing left with
  | nil => exact absurd rfl hne
  | cons ratio rest ih =>
    rw [rowEnd_cons]
    cases rest with
    | nil =>
      refine ⟨{ top, left, width := ratio * height, height }, rfl, ?_⟩
      simp only [JustifiedBox.right, rowEnd, List.sum_nil, List.length_nil, Nat.cast_zero]
      ring
    | cons next rest =>
      obtain ⟨b, hlast, hend⟩ := ih (left + (ratio * height + gap)) (by simp)
      exact ⟨b, by simpa only [rowBoxes, List.getLast?_cons_cons] using hlast, hend⟩

theorem rowBoxes_isRow (gap top height : K) (hne : ratios ≠ []) :
    IsRow gap (rowBoxes gap top height 0 ratios) where
  starts := by
    cases ratios with
    | nil => exact absurd rfl hne
    | cons ratio rest => exact ⟨_, rfl, rfl⟩
  level := by
    intro a ha b hb
    obtain ⟨hat, hah⟩ := rowBoxes_level ha
    obtain ⟨hbt, hbh⟩ := rowBoxes_level hb
    exact ⟨hat.trans hbt.symm, hah.trans hbh.symm⟩
  side_by_side := rowBoxes_side_by_side

end RowBoxes

section RowRatios

variable {K : Type} {ratios : List K} {start stop : ℕ}

theorem rowRatios_self (start : ℕ) : rowRatios ratios start start = [] := by
  simp [rowRatios]

theorem rowRatios_succ (hstart : start ≤ stop) (hstop : stop < ratios.length) (default : K) :
    rowRatios ratios start (stop + 1) = rowRatios ratios start stop ++
    [ratios.getD stop default] := by
  have htake : ratios.take (stop + 1) = ratios.take stop ++ [ratios.getD stop default] := by
    rw [List.take_add_one, List.getD_eq_getElem?_getD, List.getElem?_eq_getElem hstop]
    rfl
  rw [rowRatios, htake, List.drop_append_of_le_length]
  · rfl
  · simp only [List.length_take]
    omega

theorem rowRatios_length (hstop : stop ≤ ratios.length) :
    (rowRatios ratios start stop).length = stop - start := by
  simp only [rowRatios, List.length_drop, List.length_take]
  omega

theorem take_append_rowRatios (h : start ≤ stop) :
    ratios.take start ++ rowRatios ratios start stop = ratios.take stop := by
  have htake : ratios.take start = (ratios.take stop).take start := by
    rw [List.take_take, Nat.min_eq_left h]
  rw [htake, rowRatios, List.take_append_drop]

theorem mem_of_mem_rowRatios {r : K} (h : r ∈ rowRatios ratios start stop) : r ∈ ratios :=
  List.mem_of_mem_take (List.mem_of_mem_drop h)

variable [Field K] {gap height : K}

theorem rowEnd_succ {s : RowState K} {n : ℕ} (hstart : s.rowStart ≤ n) (hn : n < ratios.length) :
    rowEnd gap height 0 (rowRatios ratios s.rowStart (n + 1)) =
      height * (rowRatios ratios s.rowStart (n + 1)).sum +
        (rowRatios ratios s.rowStart n).length * gap + gap := by
  rw [rowEnd, rowRatios_succ hstart hn 0]
  simp only [List.length_append, List.length_singleton, Nat.cast_add, Nat.cast_one]
  ring

end RowRatios

section Rows

variable {K : Type} [Field K] [LinearOrder K] [IsStrictOrderedRing K] {gap top height left : K}
  {ratios : List K} {b : JustifiedBox K}

theorem le_left_of_mem (hpos : 0 < height) (hgap : 0 ≤ gap) (hratios : ∀ r ∈ ratios, 0 < r)
    (hb : b ∈ rowBoxes gap top height left ratios) : left ≤ b.left := by
  induction ratios generalizing left with
  | nil => simp [rowBoxes] at hb
  | cons ratio rest ih =>
    rcases List.mem_cons.mp hb with rfl | hb
    · simp
    · have hwidth : 0 < ratio * height := mul_pos (hratios ratio List.mem_cons_self) hpos
      have hnext := ih (fun r hr => hratios r (List.mem_cons_of_mem ratio hr)) hb
      linarith

theorem right_le_of_mem (hpos : 0 < height) (hgap : 0 ≤ gap) (hratios : ∀ r ∈ ratios, 0 < r)
    (hb : b ∈ rowBoxes gap top height left ratios) :
    b.right + gap ≤ rowEnd gap height left ratios := by
  induction ratios generalizing left with
  | nil => simp [rowBoxes] at hb
  | cons ratio rest ih =>
    rw [rowEnd_cons]
    have hrest : ∀ r ∈ rest, 0 < r := fun r hr => hratios r (List.mem_cons_of_mem ratio hr)
    rcases List.mem_cons.mp hb with rfl | hb
    · have hsum : 0 ≤ rest.sum * height :=
        mul_nonneg (List.sum_nonneg (fun r hr => (hrest r hr).le)) hpos.le
      have hgaps : 0 ≤ (rest.length : K) * gap := mul_nonneg (Nat.cast_nonneg _) hgap
      simp only [JustifiedBox.right, rowEnd]
      linarith
    · exact ih hrest hb

theorem rowBoxes_apart (hpos : 0 < height) (hgap : 0 ≤ gap) (hratios : ∀ r ∈ ratios, 0 < r) :
    (rowBoxes gap top height left ratios).Pairwise Apart := by
  induction ratios generalizing left with
  | nil => exact .nil
  | cons ratio rest ih =>
    have hrest : ∀ r ∈ rest, 0 < r := fun r hr => hratios r (List.mem_cons_of_mem ratio hr)
    refine .cons ?_ (ih hrest)
    intro b hb
    have hleft := le_left_of_mem hpos hgap hrest hb
    refine .inl ?_
    simp only [JustifiedBox.right]
    linarith

end Rows

section Loop

variable {K : Type} [Field K] [LinearOrder K] {opts : LayoutOptions K}
  {ratios done : List K} {s : RowState K} {rows : List (List (JustifiedBox K))} {height : K} {n : ℕ}

/-- The rows flushed so far, for the ratios done so far. -/
structure Placed (opts : LayoutOptions K) (done : List K) (s : RowState K)
    (rows : List (List (JustifiedBox K))) : Prop where
  one_each : List.Forall₂ (Shaped opts.targetRowHeight) done s.boxes
  apart : s.boxes.Pairwise Apart
  inside : ∀ b ∈ s.boxes, 0 ≤ b.left ∧ b.right ≤ opts.containerWidth
  flatten_eq : rows.flatten = s.boxes
  is_row : ∀ row ∈ rows, IsRow opts.gap row
  stacked : rows.Pairwise (Below opts.gap)
  above : ∀ b ∈ s.boxes, b.bottom + opts.gap ≤ s.top
  deepest :
    (s.boxes = [] ∧ s.top = 0) ∨ opts.gap ≤ s.top ∧ ∃ b ∈ s.boxes, b.bottom + opts.gap = s.top

theorem emptyRow_placed : Placed opts [] emptyRow [] where
  one_each := .nil
  apart := .nil
  inside := by simp [emptyRow]
  flatten_eq := rfl
  is_row := by simp
  stacked := .nil
  above := by simp [emptyRow]
  deepest := .inl ⟨rfl, rfl⟩

theorem Placed.addToSum (h : Placed opts done s rows) (ratio : K) :
    Placed opts done (addToSum ratio s) rows :=
  ⟨h.one_each, h.apart, h.inside, h.flatten_eq, h.is_row, h.stacked, h.above, h.deepest⟩

/-- What the layout is promised: positive sizes, and a gap no wider than any
box at the target height. -/
structure Fair (opts : LayoutOptions K) (ratios : List K) : Prop where
  width_pos : 0 < opts.containerWidth
  target_pos : 0 < opts.targetRowHeight
  gap_nonneg : 0 ≤ opts.gap
  ratio_pos : ∀ r ∈ ratios, 0 < r
  gap_le : ∀ r ∈ ratios, opts.gap ≤ opts.targetRowHeight * r

/-- The loop invariant after `n` ratios. The open row at the target height
falls short of the container. -/
structure Scanning (opts : LayoutOptions K) (ratios : List K) (n : ℕ) (s : RowState K) : Prop where
  start_le : s.rowStart ≤ n
  sum_eq : s.rowRatioSum = (rowRatios ratios s.rowStart n).sum
  short : rowEnd opts.gap opts.targetRowHeight 0 (rowRatios ratios s.rowStart n) <
    opts.containerWidth + opts.gap
  placed : ∃ rows, Placed opts (ratios.take s.rowStart) s rows ∧
    ∀ row ∈ rows, Spans opts.containerWidth row

theorem Scanning.addToSum_sum (h : Scanning opts ratios n s) (hn : n < ratios.length) :
    (addToSum (ratios.getD n 0) s).rowRatioSum = (rowRatios ratios s.rowStart (n + 1)).sum := by
  rw [rowRatios_succ h.start_le hn 0, List.sum_append, List.sum_singleton, ← h.sum_eq]
  rfl

theorem Scanning.rowHeight_eq (h : Scanning opts ratios n s) (hn : n < ratios.length) :
    rowHeight opts (Layout.addToSum (ratios.getD n 0) s) n =
      (opts.containerWidth - (rowRatios ratios s.rowStart n).length * opts.gap) /
        (rowRatios ratios s.rowStart (n + 1)).sum := by
  rw [rowHeight, h.addToSum_sum hn, rowRatios_length hn.le]
  rfl

variable [IsStrictOrderedRing K]

/-- Flushing a row that fits keeps everything in place. -/
theorem Placed.flushRow (h : Placed opts done s rows) (stop : ℕ) (hgap : 0 ≤ opts.gap)
    (hne : rowRatios ratios s.rowStart stop ≠ [])
    (hratios : ∀ r ∈ rowRatios ratios s.rowStart stop, 0 < r)
    (hpos : 0 < height) (hle : height ≤ opts.targetRowHeight)
    (hfits : rowEnd opts.gap height 0 (rowRatios ratios s.rowStart stop) ≤ opts.containerWidth +
    opts.gap) :
    Placed opts (done ++ rowRatios ratios s.rowStart stop) (flushRow ratios opts.gap stop height s)
      (rows ++ [rowBoxes opts.gap s.top height 0 (rowRatios ratios s.rowStart stop)]) := by
  have hbelow :
    ∀ a ∈ s.boxes, ∀ b ∈ rowBoxes opts.gap s.top height 0 (rowRatios ratios s.rowStart stop),
      a.bottom + opts.gap ≤ b.top := by
    intro a ha b hb
    rw [(rowBoxes_level hb).1]
    exact h.above a ha
  have hbottom : ∀ b ∈ rowBoxes opts.gap s.top height 0 (rowRatios ratios s.rowStart stop),
      b.bottom + opts.gap = s.top + (height + opts.gap) := by
    intro b hb
    obtain ⟨htop, hheight⟩ := rowBoxes_level hb
    rw [JustifiedBox.bottom, htop, hheight]
    ring
  have htop : 0 ≤ s.top := by
    rcases h.deepest with ⟨-, hzero⟩ | ⟨hroom, -⟩
    · exact hzero.ge
    · exact hgap.trans hroom
  constructor
  case one_each => exact List.rel_append h.one_each (rowBoxes_shaped hpos hle)
  case apart =>
    refine List.pairwise_append.mpr ⟨h.apart, rowBoxes_apart hpos hgap hratios, ?_⟩
    intro a ha b hb
    have := hbelow a ha b hb
    exact .inr (.inr (.inl (by linarith)))
  case inside =>
    intro b hb
    rcases List.mem_append.mp hb with hb | hb
    · exact h.inside b hb
    · have hright := right_le_of_mem hpos hgap hratios hb
      exact ⟨le_left_of_mem hpos hgap hratios hb, by linarith⟩
  case flatten_eq => simp [Layout.flushRow, h.flatten_eq]
  case is_row =>
    intro row hrow
    rcases List.mem_append.mp hrow with hrow | hrow
    · exact h.is_row row hrow
    · rw [List.mem_singleton.mp hrow]
      exact rowBoxes_isRow _ _ _ hne
  case stacked =>
    refine List.pairwise_append.mpr ⟨h.stacked, List.pairwise_singleton _ _, ?_⟩
    intro row hrow row' hrow' a ha b hb
    rw [List.mem_singleton.mp hrow'] at hb
    refine hbelow a ?_ b hb
    rw [← h.flatten_eq]
    exact List.mem_flatten_of_mem hrow ha
  case above =>
    intro b hb
    rcases List.mem_append.mp hb with hb | hb
    · have := h.above b hb
      simp only [Layout.flushRow]
      linarith
    · exact (hbottom b hb).le
  case deepest =>
    refine .inr ⟨by simp only [Layout.flushRow]; linarith, ?_⟩
    obtain ⟨b, hhead, -⟩ := (rowBoxes_isRow opts.gap s.top height hne).starts
    have hb := List.mem_of_mem_head? hhead
    exact ⟨b, List.mem_append_right _ hb, hbottom b hb⟩

/-- There is room left in the open row for one more gap. -/
theorem Scanning.room_pos (hfair : Fair opts ratios) (h : Scanning opts ratios n s) :
    0 < opts.containerWidth - (rowRatios ratios s.rowStart n).length * opts.gap := by
  have hshort := h.short
  cases hrow : rowRatios ratios s.rowStart n with
  | nil => simpa using hfair.width_pos
  | cons r rest =>
    have hmem : ∀ r' ∈ r :: rest, r' ∈ ratios := fun r' hr' => mem_of_mem_rowRatios (hrow ▸ hr')
    have hrest : 0 ≤ rest.sum :=
      List.sum_nonneg (fun r' hr' => (hfair.ratio_pos r' (hmem r' (List.mem_cons_of_mem r hr'))).le)
    have hfirst := hfair.gap_le r (hmem r List.mem_cons_self)
    have hmore : 0 ≤ rest.sum * opts.targetRowHeight := mul_nonneg hrest hfair.target_pos.le
    rw [hrow] at hshort
    simp only [rowEnd, List.sum_cons] at hshort
    linarith

theorem Scanning.sum_pos (hfair : Fair opts ratios) (h : Scanning opts ratios n s)
    (hn : n < ratios.length) :
    0 < (rowRatios ratios s.rowStart (n + 1)).sum := by
  apply List.sum_pos
  · exact fun r hr => hfair.ratio_pos r (mem_of_mem_rowRatios hr)
  · simp [rowRatios_succ h.start_le hn 0]

/-- At its own height the open row fills the container. -/
theorem Scanning.fills (hfair : Fair opts ratios) (h : Scanning opts ratios n s)
    (hn : n < ratios.length) :
    rowEnd opts.gap (rowHeight opts (Layout.addToSum (ratios.getD n 0) s) n) 0
      (rowRatios ratios s.rowStart (n + 1)) = opts.containerWidth + opts.gap := by
  rw [rowEnd_succ h.start_le hn, h.rowHeight_eq hn, div_mul_cancel₀ _ (h.sum_pos hfair hn).ne']
  ring

theorem Scanning.flush (hfair : Fair opts ratios) (h : Scanning opts ratios n s)
    (hn : n < ratios.length)
    (hle : rowHeight opts (Layout.addToSum (ratios.getD n 0) s) n ≤ opts.targetRowHeight) :
    Scanning opts ratios (n + 1) (flushRow ratios opts.gap (n + 1)
      (rowHeight opts (Layout.addToSum (ratios.getD n 0) s) n)
      (Layout.addToSum (ratios.getD n 0) s)) := by
  obtain ⟨rows, hplaced, hspans⟩ := h.placed
  have hfills := h.fills hfair hn
  have hne : rowRatios ratios s.rowStart (n + 1) ≠ [] := by simp [rowRatios_succ h.start_le hn 0]
  have hpos : 0 < rowHeight opts (Layout.addToSum (ratios.getD n 0) s) n := by
    rw [h.rowHeight_eq hn]
    exact div_pos (h.room_pos hfair) (h.sum_pos hfair hn)
  have hflushed := (hplaced.addToSum (ratios.getD n 0)).flushRow (n + 1) hfair.gap_nonneg hne
    (fun r hr => hfair.ratio_pos r (mem_of_mem_rowRatios hr)) hpos hle hfills.le
  rw [show (Layout.addToSum (ratios.getD n 0) s).rowStart = s.rowStart from rfl,
    take_append_rowRatios (Nat.le_succ_of_le h.start_le)] at hflushed
  refine ⟨le_refl _, by simp [Layout.flushRow, rowRatios_self], ?_, _, hflushed, ?_⟩
  · simpa [Layout.flushRow, rowRatios_self, rowEnd] using
      add_pos_of_pos_of_nonneg hfair.width_pos hfair.gap_nonneg
  · intro row hrow
    rcases List.mem_append.mp hrow with hrow | hrow
    · exact hspans row hrow
    · rw [List.mem_singleton.mp hrow]
      obtain ⟨b, hlast, hend⟩ := rowBoxes_last opts.gap _ _ _ hne
      rw [hfills] at hend
      exact ⟨b, hlast, add_right_cancel hend⟩

/-- A row that would be too high stays open, and falls short at the target height. -/
theorem Scanning.keep (hfair : Fair opts ratios) (h : Scanning opts ratios n s)
    (hn : n < ratios.length)
    (hle : ¬ rowHeight opts (Layout.addToSum (ratios.getD n 0) s) n ≤ opts.targetRowHeight) :
    Scanning opts ratios (n + 1) (Layout.addToSum (ratios.getD n 0) s) := by
  obtain ⟨rows, hplaced, hspans⟩ := h.placed
  refine ⟨Nat.le_succ_of_le h.start_le, h.addToSum_sum hn, ?_, rows, hplaced.addToSum _, hspans⟩
  rw [h.rowHeight_eq hn, not_le, lt_div_iff₀ (h.sum_pos hfair hn)] at hle
  change rowEnd opts.gap opts.targetRowHeight 0 (rowRatios ratios s.rowStart (n + 1)) < _
  rw [rowEnd_succ h.start_le hn]
  linarith

/-- One turn of the loop. -/
theorem Scanning.addRatio (hfair : Fair opts ratios) (h : Scanning opts ratios n s)
    (hn : n < ratios.length) :
    Scanning opts ratios (n + 1) (addRatio ratios opts s n) := by
  unfold Layout.addRatio
  by_cases hle : rowHeight opts (Layout.addToSum (ratios.getD n 0) s) n ≤ opts.targetRowHeight
  · simp only [hle, if_true]
    exact h.flush hfair hn hle
  · simp only [hle, if_false]
    exact h.keep hfair hn hle

theorem scanned_scanning (hfair : Fair opts ratios) (hn : n ≤ ratios.length) :
    Scanning opts ratios n (scanned ratios opts n) := by
  induction n with
  | zero =>
    refine ⟨le_refl 0, by simp [scanned, emptyRow, rowRatios], ?_, [], emptyRow_placed, by simp⟩
    simpa [scanned, emptyRow, rowRatios, rowEnd] using
      add_pos_of_pos_of_nonneg hfair.width_pos hfair.gap_nonneg
  | succ n ih =>
    have hstep := (ih (by omega)).addRatio hfair (by omega)
    rwa [scanned, List.range_succ, List.foldl_append]

theorem Placed.justified (h : Placed opts ratios s rows) (hgap : 0 ≤ opts.gap)
    (hin : InRows opts s.boxes rows) :
    Justified opts ratios { boxes := s.boxes, containerHeight := max 0 (s.top - opts.gap) } where
  one_each := h.one_each
  apart := h.apart
  inside := h.inside
  rows := ⟨rows, hin⟩
  empty := by
    intro hnone
    rcases h.deepest with ⟨-, htop⟩ | ⟨-, b, hb, -⟩
    · simpa [htop] using hgap
    · simp [show s.boxes = [] from hnone] at hb
  lowest := by
    intro hsome
    rcases h.deepest with ⟨hnone, -⟩ | ⟨hroom, b, hb, hbottom⟩
    · exact absurd hnone hsome
    · have hheight : max 0 (s.top - opts.gap) = s.top - opts.gap := max_eq_right (by linarith)
      refine ⟨⟨b, hb, ?_⟩, fun c hc => ?_⟩
      · simp only [hheight]
        linarith
      · have := h.above c hc
        simp only [hheight]
        linarith

/-- Every layout of positive ratios under the promised bound is a justified one. -/
theorem justifiedLayout_justified (hfair : Fair opts ratios) :
    Justified opts ratios (justifiedLayout ratios opts) := by
  have h := scanned_scanning hfair le_rfl
  obtain ⟨rows, hplaced, hspans⟩ := h.placed
  set s := scanned ratios opts ratios.length with hs
  unfold justifiedLayout
  by_cases hopen : s.rowStart < ratios.length
  · simp only [← hs, hopen, if_true]
    have hne : rowRatios ratios s.rowStart ratios.length ≠ [] := by
      apply List.ne_nil_of_length_pos
      rw [rowRatios_length le_rfl]
      omega
    have hpos : ∀ r ∈ rowRatios ratios s.rowStart ratios.length, 0 < r :=
      fun r hr => hfair.ratio_pos r (mem_of_mem_rowRatios hr)
    have hflushed :=
      hplaced.flushRow ratios.length hfair.gap_nonneg hne hpos hfair.target_pos le_rfl h.short.le
    rw [take_append_rowRatios hopen.le, List.take_length] at hflushed
    refine hflushed.justified hfair.gap_nonneg
      ⟨hflushed.flatten_eq, hflushed.is_row, hflushed.stacked, ?_, ?_⟩
    · simpa using hspans
    · intro row hrow
      rw [List.getLast?_append] at hrow
      simp only [List.getLast?_singleton, Option.some_or, Option.mem_def, Option.some.injEq] at hrow
      subst hrow
      refine .inr ?_
      intro b hb
      have hright := right_le_of_mem hfair.target_pos hfair.gap_nonneg hpos hb
      have hshort := h.short
      exact ⟨(rowBoxes_level hb).2, by linarith⟩
  · simp only [← hs, hopen, if_false]
    have hdone : s.rowStart = ratios.length := le_antisymm h.start_le (not_lt.mp hopen)
    rw [hdone, List.take_length] at hplaced
    refine hplaced.justified hfair.gap_nonneg ⟨hplaced.flatten_eq, hplaced.is_row,
      hplaced.stacked, ?_, ?_⟩
    · exact fun row hrow => hspans row (List.dropLast_subset rows hrow)
    · exact fun row hrow => .inl (hspans row (List.mem_of_getLast? hrow))

theorem assetRatio_ge (width height : Option ℕ) : (4 / 10 : K) ≤ assetRatio width height := by
  unfold assetRatio
  split
  · split
    · exact le_max_left _ _
    · norm_num
  · norm_num

/-- What the timeline passes meets the bound: ratios from 0.4 on, rows of 235 and a gap of 2. -/
theorem timeline_fair {containerWidth : K} (hwidth : 0 < containerWidth)
    (items : List (Option ℕ × Option ℕ)) :
    Fair { containerWidth, targetRowHeight := 235, gap := 2 }
      (items.map (fun item => assetRatio item.1 item.2)) where
  width_pos := hwidth
  target_pos := by norm_num
  gap_nonneg := by norm_num
  ratio_pos := by
    intro r hr
    obtain ⟨item, -, rfl⟩ := List.mem_map.mp hr
    have := assetRatio_ge (K := K) item.1 item.2
    linarith
  gap_le := by
    intro r hr
    obtain ⟨item, -, rfl⟩ := List.mem_map.mp hr
    have := assetRatio_ge (K := K) item.1 item.2
    change (2 : K) ≤ 235 * assetRatio item.1 item.2
    linarith

omit [IsStrictOrderedRing K] in
theorem mem_layouts {containerWidth : K} {groups : List (List (Option ℕ × Option ℕ))}
    {result : JustifiedResult K} (h : result ∈ layouts containerWidth groups) :
    0 < containerWidth ∧ ∃ items ∈ groups, result = justifiedLayout
      (items.map (fun item => assetRatio item.1 item.2))
      { containerWidth, targetRowHeight := 235, gap := 2 } := by
  unfold layouts at h
  by_cases hnarrow : containerWidth ≤ 0
  · simp [hnarrow] at h
  · simp only [hnarrow, if_false] at h
    obtain ⟨items, hitems, rfl⟩ := List.mem_map.mp h
    exact ⟨not_le.mp hnarrow, items, hitems, rfl⟩

/-- The layout of any positive ratios is justified when the gap is no wider
than any box at the target height; the timeline's layouts always are. -/
theorem justified_layout_geometry :
    (∀ (ratios : List K) (opts : LayoutOptions K), 0 < opts.containerWidth →
    0 < opts.targetRowHeight →
      0 ≤ opts.gap → (∀ r ∈ ratios, 0 < r) → (∀ r ∈ ratios, opts.gap ≤ opts.targetRowHeight * r) →
      Justified opts ratios (justifiedLayout ratios opts)) ∧
    ∀ (containerWidth : K) (groups : List (List (Option ℕ × Option ℕ))),
      ∀ result ∈ layouts containerWidth groups, ∃ items ∈ groups,
        Justified { containerWidth, targetRowHeight := 235, gap := 2 }
          (items.map (fun item => assetRatio item.1 item.2)) result := by
  refine ⟨?_, ?_⟩
  · intro ratios opts hwidth htarget hgap hpos hle
    exact justifiedLayout_justified ⟨hwidth, htarget, hgap, hpos, hle⟩
  · intro containerWidth groups result hresult
    obtain ⟨hwidth, items, hitems, rfl⟩ := mem_layouts hresult
    exact ⟨items, hitems, justifiedLayout_justified (timeline_fair hwidth items)⟩

/-- Three square photos and a wide one at a width of 700. -/
theorem justified_layout_geometry_four :
    Justified { containerWidth := (700 : ℚ), targetRowHeight := 235, gap := 2 } [1, 1, 1, 3]
      (justifiedLayout [1, 1, 1, 3] { containerWidth := 700, targetRowHeight := 235, gap :=
      2 }) := by
  refine justified_layout_geometry.1 _ _ (by norm_num) (by norm_num) (by norm_num) ?_ ?_
  · simp
  · norm_num

end Loop

end EventLens.Layout
