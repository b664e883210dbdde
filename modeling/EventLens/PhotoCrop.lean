import Mathlib.Algebra.Order.Field.Basic
import Mathlib.Tactic.Linarith
import Mathlib.Tactic.NormNum

/-!
The crop rectangle of the photo editor. Its coordinates are fractions of the
displayed frame, over an arbitrary ordered field. A drag works on the rectangle
it started from and on wherever the pointer is now. Each edge update is one
clamp on one axis, and it keeps the axis inside the frame only because the
axis was inside before: the invariant covers the rectangle at drag start too.
-/

namespace EventLens.Crops

structure Crop (K : Type) where
  x : K
  y : K
  w : K
  h : K
  deriving DecidableEq

inductive DragMode where
  | move | nw | ne | sw | se
  deriving DecidableEq, Repr

/-- The letters looked for in the name of a drag mode. -/
inductive Side where
  | w | e | n | s
  deriving DecidableEq, Repr

/-- Whether the name of the mode has the letter in it. -/
def DragMode.includes : DragMode → Side → Bool
  | .nw, .n | .nw, .w | .ne, .n | .ne, .e | .sw, .s | .sw, .w | .se, .s | .se, .e => true
  | _, _ => false

/-- A pointer position and the stage element's box at that time. -/
structure PointerEvent (K : Type) where
  clientX : K
  clientY : K
  left : K
  top : K
  width : K
  height : K

structure Editor (K : Type) where
  rotation : ℕ
  crop : Crop K
  dragMode : Option DragMode
  dragStartX : K
  dragStartY : K
  dragStartCrop : Crop K

inductive Action (K : Type) where
  | rotateLeft
  | rotateRight
  | applyAspect (ratio : Option K)
  | startDrag (mode : DragMode) (event : PointerEvent K)
  | onDragMove (event : PointerEvent K)
  | endDrag

/-- Named, it leaves no unnamed proof behind where a side is halved. -/
local instance atLeastTwo_two : Nat.AtLeastTwo (nat_lit 2) := inferInstance

section Source

variable {K : Type} [Field K] [LinearOrder K]

/-- The smallest side a corner drag leaves. -/
def minSide : K := 8 / 100

def fullCrop : Crop K := { x := 0, y := 0, w := 1, h := 1 }

/-- A freshly opened editor. -/
def opened : Editor K :=
  { rotation := 0, crop := fullCrop, dragMode := none,
    dragStartX := 0, dragStartY := 0, dragStartCrop := fullCrop }

def resetCrop (ed : Editor K) : Editor K := { ed with crop := fullCrop }

def rotateLeft (ed : Editor K) : Editor K :=
    resetCrop { ed with rotation := (ed.rotation + 270) % 360 }

def rotateRight (ed : Editor K) : Editor K :=
    resetCrop { ed with rotation := (ed.rotation + 90) % 360 }

/-- The largest box of the ratio, centred in the full frame. -/
def applyAspect (ratio : Option K) (ed : Editor K) : Editor K :=
  match ratio with
  | none => resetCrop ed
  | some ratio =>
    let w := if ratio ≥ 1 then 1 else ratio
    let h := if ratio ≥ 1 then 1 / ratio else 1
    { ed with crop := { x := (1 - w) / 2, y := (1 - h) / 2, w, h } }

def toFraction (event : PointerEvent K) : K × K :=
  ((event.clientX - event.left) / event.width, (event.clientY - event.top) / event.height)

def startDrag (mode : DragMode) (event : PointerEvent K) (ed : Editor K) : Editor K :=
  { ed with
    dragMode := some mode
    dragStartX := (toFraction event).1
    dragStartY := (toFraction event).2
    dragStartCrop := ed.crop }

def clamp01 (value : K) : K := min 1 (max 0 value)

/-- The new place of a moved side. -/
def moved (start size delta : K) : K := clamp01 (min (1 - size) (max 0 (start + delta)))

/-- The start of an axis whose near edge is dragged, within the current axis. -/
def nearEdge (start size target : K) : K := clamp01 (min (start + size - minSide) target)

/-- The size of an axis whose far edge is dragged. -/
def farSize (start target : K) : K := clamp01 (max minSide (min (1 - start) target))

/-- One axis of a corner drag: the near edge first, then the far edge. -/
def dragAxis (near far : Bool) (start size delta : K) : K × K :=
  let (c, s) := if near then
      (nearEdge start size (start + delta), start + size - nearEdge start size (start + delta))
    else (start, size)
  if far then (c, farSize c (size + delta)) else (c, s)

def onDragMove (event : PointerEvent K) (ed : Editor K) : Editor K :=
  match ed.dragMode with
  | none => ed
  | some mode =>
    let dx := (toFraction event).1 - ed.dragStartX
    let dy := (toFraction event).2 - ed.dragStartY
    let start := ed.dragStartCrop
    if mode = .move then
      { ed with
        crop := { x := moved start.x start.w dx, y := moved start.y start.h dy, w := start.w, h :=
          start.h } }
    else
      let (cx, cw) := dragAxis (mode.includes .w) (mode.includes .e) start.x start.w dx
      let (cy, ch) := dragAxis (mode.includes .n) (mode.includes .s) start.y start.h dy
      { ed with crop := { x := cx, y := cy, w := cw, h := ch } }

def endDrag (ed : Editor K) : Editor K := { ed with dragMode := none }

def Editor.after (ed : Editor K) : Action K → Editor K
  | .rotateLeft => rotateLeft ed
  | .rotateRight => rotateRight ed
  | .applyAspect ratio => applyAspect ratio ed
  | .startDrag mode event => startDrag mode event ed
  | .onDragMove event => onDragMove event ed
  | .endDrag => endDrag ed

/-- The editor after some actions. -/
def edited (actions : List (Action K)) : Editor K := actions.foldl Editor.after opened

/-- The rectangle lies in the frame and neither side is too small. -/
structure Crop.InFrame (c : Crop K) : Prop where
  x_nonneg : 0 ≤ c.x
  y_nonneg : 0 ≤ c.y
  right_le : c.x + c.w ≤ 1
  bottom_le : c.y + c.h ≤ 1
  w_min : minSide ≤ c.w
  h_min : minSide ≤ c.h

/-- One axis of a crop: a segment of the frame that is not too short. -/
structure AxisInFrame (start size : K) : Prop where
  nonneg : 0 ≤ start
  end_le : start + size ≤ 1
  size_min : minSide ≤ size

theorem Crop.inFrame_iff {c : Crop K} : c.InFrame ↔ AxisInFrame c.x c.w ∧ AxisInFrame c.y c.h := by
  constructor
  · intro h
    exact ⟨⟨h.x_nonneg, h.right_le, h.w_min⟩, ⟨h.y_nonneg, h.bottom_le, h.h_min⟩⟩
  · rintro ⟨hx, hy⟩
    exact ⟨hx.nonneg, hy.nonneg, hx.end_le, hy.end_le, hx.size_min, hy.size_min⟩

theorem clamp01_le {value bound : K} (hbound : 0 ≤ bound) (h : value ≤ bound) :
    clamp01 value ≤ bound :=
  (min_le_right 1 _).trans (max_le hbound h)

theorem le_clamp01 {value bound : K} (hbound : bound ≤ 1) (h : bound ≤ value) :
    bound ≤ clamp01 value :=
  le_min hbound (h.trans (le_max_right 0 value))

end Source

section Axes

variable {K : Type} [Field K] [LinearOrder K] [IsStrictOrderedRing K] {start size delta target : K}

theorem minSide_pos : (0 : K) < minSide := by
  unfold minSide
  positivity

theorem minSide_le_one : (minSide : K) ≤ 1 := by
  unfold minSide
  norm_num

theorem clamp01_nonneg (value : K) : 0 ≤ clamp01 value :=
  le_min zero_le_one (le_max_left 0 value)

theorem fullCrop_axis : AxisInFrame (0 : K) 1 where
  nonneg := le_refl 0
  end_le := by simp
  size_min := minSide_le_one

theorem AxisInFrame.moved (h : AxisInFrame start size) (delta : K) :
    AxisInFrame (moved start size delta) size where
  nonneg := clamp01_nonneg _
  end_le := by
    have hroom : 0 ≤ 1 - size := by linarith [h.nonneg, h.end_le]
    have hle : Crops.moved start size delta ≤ 1 - size := clamp01_le hroom (min_le_left _ _)
    linarith
  size_min := h.size_min

/-- Dragging the near edge keeps the far end where it is. -/
theorem AxisInFrame.nearEdge (h : AxisInFrame start size) (target : K) :
    AxisInFrame (nearEdge start size target) (start + size - nearEdge start size target) where
  nonneg := clamp01_nonneg _
  end_le := by linarith [h.end_le]
  size_min := by
    have hroom : 0 ≤ start + size - minSide := by linarith [h.nonneg, h.size_min]
    have hle : Crops.nearEdge start size target ≤ start + size - minSide :=
      clamp01_le hroom (min_le_left _ _)
    linarith

/-- Dragging the far edge keeps the start where it is. -/
theorem AxisInFrame.farSize (h : AxisInFrame start size) (target : K) :
    AxisInFrame start (farSize start target) where
  nonneg := h.nonneg
  end_le := by
    have hroom : minSide ≤ 1 - start := by linarith [h.end_le, h.size_min]
    have hbound : (0 : K) ≤ 1 - start := minSide_pos.le.trans hroom
    have hle : Crops.farSize start target ≤ 1 - start :=
      clamp01_le hbound (max_le hroom (min_le_left _ _))
    linarith
  size_min := le_clamp01 minSide_le_one (le_max_left _ _)

theorem AxisInFrame.dragAxis (h : AxisInFrame start size) (near far : Bool) (delta : K) :
    AxisInFrame (dragAxis near far start size delta).1 (dragAxis near far start size delta).2 := by
  cases near with
  | false =>
    cases far with
    | false => exact h
    | true => exact h.farSize _
  | true =>
    cases far with
    | false => exact h.nearEdge _
    | true => exact (h.nearEdge (start + delta)).farSize _

/-- A side of an aspect box, centred on its axis. -/
theorem centred_axis (hmin : minSide ≤ size) (hone : size ≤ 1) :
    AxisInFrame ((1 - size) / 2) size where
  nonneg := by linarith
  end_le := by linarith
  size_min := hmin

end Axes

section Runs

variable {K : Type} [Field K] [LinearOrder K] [IsStrictOrderedRing K] {ed : Editor K}

/-- The rectangle and the one the drag in progress started from. -/
structure Editor.Framed (ed : Editor K) : Prop where
  crop : ed.crop.InFrame
  dragStart : ed.dragStartCrop.InFrame

theorem fullCrop_inFrame : (fullCrop : Crop K).InFrame :=
  Crop.inFrame_iff.mpr ⟨fullCrop_axis, fullCrop_axis⟩

theorem opened_framed : (opened : Editor K).Framed := ⟨fullCrop_inFrame, fullCrop_inFrame⟩

theorem Editor.Framed.resetCrop (h : ed.Framed) : (resetCrop ed).Framed :=
    ⟨fullCrop_inFrame, h.dragStart⟩

/-- The ratios whose box has no side below the smallest one. -/
def Action.Fitting : Action K → Prop
  | .applyAspect (some ratio) => minSide ≤ ratio ∧ ratio ≤ 25 / 2
  | _ => True

theorem Editor.Framed.applyAspect {ratio : K} (h : ed.Framed) (hmin : minSide ≤ ratio)
    (hmax : ratio ≤ 25 / 2) :
    (applyAspect (some ratio) ed).Framed := by
  refine ⟨?_, h.dragStart⟩
  have hpos : 0 < ratio := minSide_pos.trans_le hmin
  unfold Crops.applyAspect
  by_cases hwide : ratio ≥ 1
  · simp only [hwide, if_true]
    have hone : 1 / ratio ≤ 1 := (div_le_one hpos).mpr hwide
    have hside : minSide ≤ 1 / ratio := by
      rw [le_div_iff₀ hpos]
      unfold minSide
      linarith
    exact Crop.inFrame_iff.mpr ⟨centred_axis minSide_le_one le_rfl, centred_axis hside hone⟩
  · simp only [hwide, if_false]
    have hone : ratio ≤ 1 := (not_le.mp hwide).le
    exact Crop.inFrame_iff.mpr ⟨centred_axis hmin hone, centred_axis minSide_le_one le_rfl⟩

theorem Editor.Framed.onDragMove (h : ed.Framed) (event : PointerEvent K) :
    (onDragMove event ed).Framed := by
  obtain ⟨hx, hy⟩ := Crop.inFrame_iff.mp h.dragStart
  unfold Crops.onDragMove
  cases hmode : ed.dragMode with
  | none => exact h
  | some mode =>
    refine ⟨?_, ?_⟩
    · by_cases hmove : mode = .move
      · simp only [hmove, if_true]
        exact Crop.inFrame_iff.mpr ⟨hx.moved _, hy.moved _⟩
      · simp only [hmove, if_false]
        exact Crop.inFrame_iff.mpr ⟨hx.dragAxis _ _ _, hy.dragAxis _ _ _⟩
    · by_cases hmove : mode = .move
      · simpa only [hmove, if_true] using h.dragStart
      · simpa only [hmove, if_false] using h.dragStart

/-- What one action preserves. -/
theorem Editor.Framed.after (h : ed.Framed) {action : Action K} (hfit : action.Fitting) :
    (ed.after action).Framed := by
  cases action with
  | rotateLeft => exact ⟨fullCrop_inFrame, h.dragStart⟩
  | rotateRight => exact ⟨fullCrop_inFrame, h.dragStart⟩
  | applyAspect ratio =>
    cases ratio with
    | none => exact h.resetCrop
    | some ratio => exact h.applyAspect hfit.1 hfit.2
  | startDrag mode event => exact ⟨h.crop, h.crop⟩
  | onDragMove event => exact h.onDragMove event
  | endDrag => exact ⟨h.crop, h.dragStart⟩

theorem Editor.Framed.foldl (h : ed.Framed) {actions : List (Action K)}
    (hfit : ∀ a ∈ actions, a.Fitting) :
    (actions.foldl Editor.after ed).Framed := by
  induction actions generalizing ed with
  | nil => exact h
  | cons action rest ih =>
    rw [List.foldl_cons]
    exact ih (h.after (hfit action List.mem_cons_self))
      (fun a ha => hfit a (List.mem_cons_of_mem action ha))

/-- Whatever is done to an editor, in any order and with the pointer anywhere,
the rectangle stays in the frame with sides of at least the minimum. -/
theorem crop_stays_in_frame (actions : List (Action K))
    (hratios : ∀ ratio, Action.applyAspect (some ratio) ∈ actions → 8 / 100 ≤ ratio ∧
    ratio ≤ 25 / 2) :
    0 ≤ (edited actions).crop.x ∧ 0 ≤ (edited actions).crop.y ∧
      (edited actions).crop.x + (edited actions).crop.w ≤ 1 ∧
      (edited actions).crop.y + (edited actions).crop.h ≤ 1 ∧
      8 / 100 ≤ (edited actions).crop.w ∧ 8 / 100 ≤ (edited actions).crop.h := by
  have hfit : ∀ a ∈ actions, a.Fitting := by
    intro a ha
    rcases a with _ | _ | ratio | _ | _ | _
    case applyAspect =>
      cases ratio with
      | none => trivial
      | some ratio => exact hratios ratio ha
    all_goals trivial
  have h := (opened_framed.foldl hfit).crop
  exact ⟨h.x_nonneg, h.y_nonneg, h.right_le, h.bottom_le, h.w_min, h.h_min⟩

/-- A corner dragged far outside the stage after a wide aspect was chosen. -/
theorem crop_stays_in_frame_dragged :
    let actions : List (Action ℚ) :=
      [.applyAspect (some (16 / 9)), .startDrag .nw ⟨0, 10, 0, 0, 100, 50⟩,
        .onDragMove ⟨900, 700, 0, 0, 100, 50⟩]
    0 ≤ (edited actions).crop.x ∧ 0 ≤ (edited actions).crop.y ∧
      (edited actions).crop.x + (edited actions).crop.w ≤ 1 ∧
      (edited actions).crop.y + (edited actions).crop.h ≤ 1 ∧
      8 / 100 ≤ (edited actions).crop.w ∧ 8 / 100 ≤ (edited actions).crop.h := by
  intro actions
  apply crop_stays_in_frame actions
  intro ratio hmem
  have hratio : ratio = 16 / 9 := by simpa [actions] using hmem
  subst hratio
  norm_num

end Runs

end EventLens.Crops
