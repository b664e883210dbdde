import EventLens.Doubles
import EventLens.FaceRecord
import Mathlib.Tactic.FieldSimp
import Mathlib.Tactic.Linarith
import Mathlib.Tactic.Positivity
import Mathlib.Tactic.Ring

/-!
The portrait cut out of a photo around a face. The box is stored for a preview
and scaled to the original; the crop is a square around the rounded middle of
the scaled box, as large as the nearest edge allows. The far edges are kept a
pixel away, so a middle on one of the last two pixels leaves no square at all,
while a box of a single pixel is always large enough. Scaling is done in
doubles; whole numbers are small enough to be exact.
-/

namespace EventLens.Faces

open Doubles

/-- An image has a pixel at least, and sizes are integers of 32 bits. -/
structure ImageDimensions where
  width : ℕ
  height : ℕ
  width_pos : 0 < width := by decide
  height_pos : 0 < height := by decide
  width_lt : width < 2 ^ 31 := by decide
  height_lt : height < 2 ^ 31 := by decide

/-- The image the box was found in, and the one to cut from. -/
structure CropDims where
  old : ImageDimensions
  new : ImageDimensions

structure Crop where
  x : ℤ
  y : ℤ
  width : ℤ
  height : ℤ
deriving DecidableEq, Repr

def clamp (value lo hi : ℤ) : ℤ := min (max value lo) hi

/-- `Math.round`: halves are rounded up. -/
def round (q : ℚ) : ℤ := ⌊q + 1 / 2⌋

def FACE_CROP_ZOOM_OUT : ℚ := rounded (24 / 10)

def cropScale (old new : ℕ) : ℚ := rounded (new / old)

/-- Half the length of the box along one axis, scaled. -/
def halfLength (old new : ℕ) (lo hi : ℤ) : ℚ :=
  rounded (rounded (cropScale old new * (hi - lo)) / 2)

/-- The centre of the box along one axis, scaled, as doubles add it up. -/
def doublesCentre (old new : ℕ) (lo hi : ℤ) : ℚ :=
  rounded (rounded (cropScale old new * lo) + halfLength old new lo hi)

/-- The rounded middle of the box along one axis, scaled. -/
def middle (old new : ℕ) (lo hi : ℤ) : ℤ := round (doublesCentre old new lo hi)

def newHalfSize (dims : ImageDimensions) (middleX middleY targetHalfSize : ℤ) : ℤ :=
  min
    (min (middleX - max 0 (middleX - targetHalfSize)) (middleY - max 0 (middleY - targetHalfSize)))
    (min (min (dims.width - 1 : ℤ) (middleX + targetHalfSize) - middleX)
      (min (dims.height - 1 : ℤ) (middleY + targetHalfSize) - middleY))

/-- `FaceService.getCrop`. -/
def getCrop (dims : CropDims) (box : BoundingBox) : Crop :=
  let clampedX1 := clamp box.x1 0 dims.old.width
  let clampedY1 := clamp box.y1 0 dims.old.height
  let clampedX2 := clamp box.x2 0 dims.old.width
  let clampedY2 := clamp box.y2 0 dims.old.height
  let halfWidth := halfLength dims.old.width dims.new.width clampedX1 clampedX2
  let halfHeight := halfLength dims.old.height dims.new.height clampedY1 clampedY2
  let middleX := middle dims.old.width dims.new.width clampedX1 clampedX2
  let middleY := middle dims.old.height dims.new.height clampedY1 clampedY2
  let targetHalfSize := ⌊rounded (max halfWidth halfHeight * FACE_CROP_ZOOM_OUT)⌋
  let half := newHalfSize dims.new middleX middleY targetHalfSize
  { x := middleX - half, y := middleY - half, width := half * 2, height := half * 2 }

/-- The area `cropToThumbnail` has extracted. -/
def extractedArea (crop : Crop) : Crop :=
  { x := max 0 crop.x, y := max 0 crop.y, width := crop.width, height := crop.height }

/-- The middle of a clamped box along one axis, scaled. -/
def scaledCentre (old new : ℕ) (lo hi : ℤ) : ℚ :=
  (new / old : ℚ) * ((clamp lo 0 old + clamp hi 0 old) / 2)

def CropDims.centreX (dims : CropDims) (box : BoundingBox) : ℚ :=
  scaledCentre dims.old.width dims.new.width box.x1 box.x2

def CropDims.centreY (dims : CropDims) (box : BoundingBox) : ℚ :=
  scaledCentre dims.old.height dims.new.height box.y1 box.y2

/-- The same as doubles add it up. -/
def CropDims.doublesX (dims : CropDims) (box : BoundingBox) : ℚ :=
  doublesCentre dims.old.width dims.new.width (clamp box.x1 0 dims.old.width)
    (clamp box.x2 0 dims.old.width)

def CropDims.doublesY (dims : CropDims) (box : BoundingBox) : ℚ :=
  doublesCentre dims.old.height dims.new.height (clamp box.y1 0 dims.old.height)
    (clamp box.y2 0 dims.old.height)

/-- A square inside the image that contains a point. -/
structure Crop.FramesPoint (crop : Crop) (dims : ImageDimensions) (px py : ℚ) : Prop where
  square : crop.width = crop.height
  positive : 0 < crop.width
  left : 0 ≤ crop.x
  top : 0 ≤ crop.y
  right : crop.x + crop.width ≤ dims.width
  bottom : crop.y + crop.height ≤ dims.height
  insideX : (crop.x : ℚ) ≤ px ∧ px ≤ crop.x + crop.width
  insideY : (crop.y : ℚ) ≤ py ∧ py ≤ crop.y + crop.height

section Rounding

variable {q : ℚ} {n : ℤ}

theorem round_near : |(round q : ℚ) - q| ≤ 1 / 2 := by
  have hle : (⌊q + 1 / 2⌋ : ℚ) ≤ q + 1 / 2 := Int.floor_le _
  have hlt : q + 1 / 2 < ⌊q + 1 / 2⌋ + 1 := Int.lt_floor_add_one _
  rw [abs_le]
  unfold round
  constructor <;> linarith

theorem round_lt_iff : round q < n ↔ q < n - 1 / 2 := by
  rw [round, Int.floor_lt]
  constructor <;> intro h <;> linarith

theorem one_le_round (h : 1 / 2 ≤ q) : 1 ≤ round q := by
  rw [round, Int.le_floor]
  push_cast
  linarith

end Rounding

section Axis

variable {old new : ℕ} {lo hi : ℤ}

theorem clamp_nonneg (value : ℤ) : 0 ≤ clamp value 0 old := by
  unfold clamp
  omega

theorem clamp_le (value : ℤ) : clamp value 0 old ≤ old := min_le_right _ _

section Scaled

variable (hsize : old ≤ new) (h : clamp lo 0 old < clamp hi 0 old)
include hsize h

/-- Scaling up leaves at least the one pixel of the box. -/
theorem one_le_ratio : (1 : ℚ) ≤ new / old := by
  have hpos : (0 : ℤ) < old := by
    have hlo : 0 ≤ clamp lo 0 old := clamp_nonneg lo
    have hhi : clamp hi 0 old ≤ old := clamp_le hi
    omega
  have hold : (0 : ℚ) < old := by exact_mod_cast hpos
  rw [le_div_iff₀ hold, one_mul]
  exact_mod_cast hsize

theorem one_le_cropScale : 1 ≤ cropScale old new := one_le_rounded (one_le_ratio hsize h)

omit hsize in
theorem one_le_length : (1 : ℚ) ≤ (clamp hi 0 old : ℚ) - clamp lo 0 old := by
  have hcast : ((clamp lo 0 old + 1 : ℤ) : ℚ) ≤ clamp hi 0 old := by exact_mod_cast h
  push_cast at hcast
  linarith

theorem one_le_scaledLength :
    1 ≤ rounded (cropScale old new * ((clamp hi 0 old : ℚ) - clamp lo 0 old)) :=
  one_le_rounded (one_le_mul_of_one_le_of_one_le (one_le_cropScale hsize h) (one_le_length h))

theorem half_le_halfLength : 1 / 2 ≤ halfLength old new (clamp lo 0 old) (clamp hi 0 old) := by
  have hlength := one_le_scaledLength hsize h
  exact half_le_rounded (by linarith)

/-- The near end of the box is at the border, or a pixel from it. -/
theorem start_cases :
    cropScale old new * clamp lo 0 old = 0 ∨ 1 ≤ cropScale old new * clamp lo 0 old := by
  have hscale := one_le_cropScale hsize h
  rcases (clamp_nonneg lo : 0 ≤ clamp lo 0 old).eq_or_lt with hzero | hpos
  · left
    rw [← hzero, Int.cast_zero, mul_zero]
  · right
    have hone : (1 : ℚ) ≤ clamp lo 0 old := by exact_mod_cast hpos
    exact one_le_mul_of_one_le_of_one_le hscale hone

theorem start_nonneg : 0 ≤ rounded (cropScale old new * clamp lo 0 old) := by
  rcases start_cases hsize h with hzero | hone
  · rw [hzero, rounded_zero]
  · exact zero_le_one.trans (one_le_rounded hone)

theorem half_le_doublesCentre :
    1 / 2 ≤ doublesCentre old new (clamp lo 0 old) (clamp hi 0 old) := by
  have hstart := start_nonneg hsize h
  have hhalf := half_le_halfLength hsize h
  exact half_le_rounded (by linarith)

/-- The centre that doubles add up is a few roundings from the centre. -/
theorem doublesCentre_within :
    Within 4 (doublesCentre old new (clamp lo 0 old) (clamp hi 0 old))
      (scaledCentre old new lo hi) := by
  have hratio := one_le_ratio hsize h
  have hscale := one_le_cropScale hsize h
  have hlength := one_le_length h
  have hlo : (0 : ℚ) ≤ clamp lo 0 old := by exact_mod_cast clamp_nonneg lo
  have hratioScale : Within 1 (cropScale old new) (new / old) :=
    (within_self _).rounded (by linarith) (by norm_num) (.inr (by linarith))
  have hstart : Within 2 (rounded (cropScale old new * clamp lo 0 old))
      (new / old * clamp lo 0 old) := by
    refine (hratioScale.mul hlo).rounded (by positivity) (by norm_num) ?_
    exact (start_cases hsize h).imp_right fun hone => by linarith
  have hproduct := one_le_mul_of_one_le_of_one_le hscale hlength
  have hscaled : Within 2 (rounded (cropScale old new * ((clamp hi 0 old : ℚ) - clamp lo 0 old)))
      (new / old * ((clamp hi 0 old : ℚ) - clamp lo 0 old)) :=
    (hratioScale.mul (by linarith)).rounded
      (mul_nonneg (by linarith) (by linarith)) (by norm_num) (.inr (by linarith))
  have hhalved := hscaled.mul (c := 1 / 2) (by norm_num)
  rw [← div_eq_mul_one_div, ← div_eq_mul_one_div] at hhalved
  have hnonneg : 0 ≤ (new / old : ℚ) * ((clamp hi 0 old : ℚ) - clamp lo 0 old) / 2 :=
    div_nonneg (mul_nonneg (by linarith) (by linarith)) (by norm_num)
  have hhalf : Within 3 (halfLength old new (clamp lo 0 old) (clamp hi 0 old)) _ :=
    hhalved.rounded hnonneg (by norm_num)
      (.inr (by linarith [one_le_scaledLength hsize h]))
  have hsum := (hstart.mono (by positivity) (by norm_num : 2 ≤ 3)).add hhalf
  have hcentre : scaledCentre old new lo hi = new / old * clamp lo 0 old +
      new / old * ((clamp hi 0 old : ℚ) - clamp lo 0 old) / 2 := by
    unfold scaledCentre
    ring
  rw [hcentre]
  refine hsum.rounded (by positivity) (by norm_num) (.inr ?_)
  linarith [start_nonneg hsize h, half_le_halfLength hsize h]

omit hsize in
/-- The centre is inside the image. -/
theorem scaledCentre_le : scaledCentre old new lo hi ≤ new := by
  have hpos : (0 : ℤ) < old := by
    have hlo : 0 ≤ clamp lo 0 old := clamp_nonneg lo
    have hhi : clamp hi 0 old ≤ old := clamp_le hi
    omega
  have hold : (0 : ℚ) < old := by exact_mod_cast hpos
  have hends : ((clamp lo 0 old + clamp hi 0 old : ℚ)) / 2 ≤ old := by
    have hlo : (clamp lo 0 old : ℚ) ≤ old := by exact_mod_cast clamp_le lo
    have hhi : (clamp hi 0 old : ℚ) ≤ old := by exact_mod_cast clamp_le hi
    linarith
  unfold scaledCentre
  calc (new / old : ℚ) * ((clamp lo 0 old + clamp hi 0 old) / 2)
      ≤ new / old * old := mul_le_mul_of_nonneg_left hends (by positivity)
    _ = new := div_mul_cancel₀ _ hold.ne'

/-- The rounded middle is less than a pixel from the centre. -/
theorem middle_near (hnew : new < 2 ^ 31) :
    |(middle old new (clamp lo 0 old) (clamp hi 0 old) : ℚ) - scaledCentre old new lo hi| ≤ 1 := by
  have hwithin := doublesCentre_within hsize h
  have hle : scaledCentre old new lo hi ≤ new := scaledCentre_le h
  have hcast : (new : ℚ) < 2 ^ 31 := by exact_mod_cast hnew
  unfold Within at hwithin
  obtain ⟨hlow, hhigh⟩ := abs_le.mp hwithin
  have hround :=
    round_near (q := doublesCentre old new (clamp lo 0 old) (clamp hi 0 old))
  obtain ⟨hdown, hup⟩ := abs_le.mp hround
  push_cast at hlow hhigh
  unfold middle
  rw [abs_le]
  constructor <;> linarith

end Scaled

end Axis

section Square

variable {dims : ImageDimensions} {mx my target : ℤ}

/-- The square has a side where both middles are off the border. -/
theorem newHalfSize_pos_iff (hx : 1 ≤ mx) (hy : 1 ≤ my) (ht : 1 ≤ target) :
    0 < newHalfSize dims mx my target ↔ mx < (dims.width - 1 : ℤ) ∧ my < (dims.height - 1 : ℤ) := by
  simp only [newHalfSize, lt_min_iff, lt_sub_iff_add_lt, zero_add, max_lt_iff]
  omega

theorem newHalfSize_le : newHalfSize dims mx my target ≤ mx ∧ newHalfSize dims mx my target ≤ my ∧
    newHalfSize dims mx my target ≤ dims.width - 1 - mx ∧
    newHalfSize dims mx my target ≤ dims.height - 1 - my := by
  have hborder : ∀ {a b c : ℤ}, min (a - 1) (b + c) - b ≤ a - 1 - b := by
    intro a b c
    exact sub_le_sub_right (min_le_left ..) b
  have hinside : ∀ {a b : ℤ}, a - max 0 b ≤ a := fun {a b} => sub_le_self a (le_max_left ..)
  unfold newHalfSize
  exact ⟨(min_le_left ..).trans ((min_le_left ..).trans hinside),
    (min_le_left ..).trans ((min_le_right ..).trans hinside),
    (min_le_right ..).trans ((min_le_left ..).trans hborder),
    (min_le_right ..).trans ((min_le_right ..).trans hborder)⟩

/-- A square reaches a pixel to both sides. -/
theorem reaches_near {q : ℚ} {half : ℤ} (hhalf : 0 < half) (hnear : |(mx : ℚ) - q| ≤ 1) :
    ((mx - half : ℤ) : ℚ) ≤ q ∧ q ≤ ((mx - half : ℤ) : ℚ) + ((half * 2 : ℤ) : ℚ) := by
  obtain ⟨hbelow, habove⟩ := abs_le.mp hnear
  have hone : (1 : ℚ) ≤ half := by exact_mod_cast hhalf
  push_cast
  constructor <;> linarith

end Square

section Crops

variable {dims : CropDims} {box : BoundingBox}

theorem two_le_zoomOut : 2 ≤ FACE_CROP_ZOOM_OUT := by
  have hpow := zpow_le_rounded (k := 1) (q := 24 / 10) (by norm_num) (by norm_num)
  rwa [zpow_one] at hpow

theorem one_le_target {a b : ℚ} (h : 1 / 2 ≤ a) : 1 ≤ ⌊rounded (max a b * FACE_CROP_ZOOM_OUT)⌋ := by
  have hmax : a ≤ max a b := le_max_left a b
  have hproduct : 1 / 2 * 2 ≤ max a b * FACE_CROP_ZOOM_OUT :=
    mul_le_mul (h.trans hmax) two_le_zoomOut (by norm_num) (by linarith)
  rw [Int.le_floor]
  exact_mod_cast one_le_rounded (by linarith)

/-- The crop around the rounded middle of the scaled box. -/
theorem getCrop_eq (dims : CropDims) (box : BoundingBox) : ∃ target half : ℤ,
    target = ⌊rounded (max (halfLength dims.old.width dims.new.width (clamp box.x1 0 dims.old.width)
        (clamp box.x2 0 dims.old.width))
      (halfLength dims.old.height dims.new.height (clamp box.y1 0 dims.old.height)
        (clamp box.y2 0 dims.old.height)) * FACE_CROP_ZOOM_OUT)⌋ ∧
    half = newHalfSize dims.new (round (dims.doublesX box)) (round (dims.doublesY box)) target ∧
    getCrop dims box =
      { x := round (dims.doublesX box) - half
        y := round (dims.doublesY box) - half
        width := half * 2
        height := half * 2 } :=
  ⟨_, _, rfl, rfl, rfl⟩

/-- What is extracted is the crop itself: it never starts outside the image. -/
theorem extractedArea_getCrop (dims : CropDims) (box : BoundingBox) :
    extractedArea (getCrop dims box) = getCrop dims box := by
  obtain ⟨target, half, -, hhalf, hcrop⟩ := getCrop_eq dims box
  obtain ⟨hleft, htop, -, -⟩ := hhalf ▸ newHalfSize_le
  rw [hcrop, extractedArea, max_eq_right (sub_nonneg.mpr hleft), max_eq_right (sub_nonneg.mpr htop)]

/-- A box of positive area gives a square inside the image around its centre
exactly when the centre, as doubles add it up, is more than one and a half
pixels from the far edges. -/
theorem portrait_crop_extractable_iff (dims : CropDims) (box : BoundingBox)
    (hwidth : dims.old.width ≤ dims.new.width) (hheight : dims.old.height ≤ dims.new.height)
    (hx : clamp box.x1 0 dims.old.width < clamp box.x2 0 dims.old.width)
    (hy : clamp box.y1 0 dims.old.height < clamp box.y2 0 dims.old.height) :
    (getCrop dims box).FramesPoint dims.new (dims.centreX box) (dims.centreY box) ↔
      dims.doublesX box < dims.new.width - 3 / 2 ∧ dims.doublesY box < dims.new.height - 3 / 2 := by
  obtain ⟨target, half, htarget, hhalf, hcrop⟩ := getCrop_eq dims box
  have hone : 1 ≤ target := htarget ▸ one_le_target (half_le_halfLength hwidth hx)
  have hmx : 1 ≤ round (dims.doublesX box) := one_le_round (half_le_doublesCentre hwidth hx)
  have hmy : 1 ≤ round (dims.doublesY box) := one_le_round (half_le_doublesCentre hheight hy)
  have hfar : 0 < half ↔
      dims.doublesX box < dims.new.width - 3 / 2 ∧ dims.doublesY box < dims.new.height - 3 / 2 := by
    rw [hhalf, newHalfSize_pos_iff hmx hmy hone, round_lt_iff, round_lt_iff]
    push_cast
    constructor <;> rintro ⟨h₁, h₂⟩ <;> constructor <;> linarith
  obtain ⟨hleft, htop, hright, hbottom⟩ := hhalf ▸ newHalfSize_le
  rw [← hfar, hcrop]
  constructor
  · intro h
    have hpos : 0 < half * 2 := h.positive
    omega
  · intro hpos
    exact
      { square := rfl
        positive := by change 0 < half * 2; omega
        left := sub_nonneg.mpr hleft
        top := sub_nonneg.mpr htop
        right := by change round (dims.doublesX box) - half + half * 2 ≤ _; omega
        bottom := by change round (dims.doublesY box) - half + half * 2 ≤ _; omega
        insideX := reaches_near hpos (middle_near hwidth hx dims.new.width_lt)
        insideY := reaches_near hpos (middle_near hheight hy dims.new.height_lt) }

end Crops

/-- A photo twice as large as its preview. -/
def doubled : CropDims where
  old := { width := 640, height := 480 }
  new := { width := 1280, height := 960 }

theorem portrait_crop_extractable_iff_centred :
    (getCrop doubled { x1 := 300, y1 := 200, x2 := 340, y2 := 250 }).FramesPoint doubled.new
      (doubled.centreX { x1 := 300, y1 := 200, x2 := 340, y2 := 250 })
      (doubled.centreY { x1 := 300, y1 := 200, x2 := 340, y2 := 250 }) :=
  (portrait_crop_extractable_iff doubled { x1 := 300, y1 := 200, x2 := 340, y2 := 250 } (by decide)
    (by decide) (by decide) (by decide)).mpr (by decide +kernel)

/-- The centre of this box is 1206.5, but the doubles add up to a little less. -/
example : (getCrop ⟨{ width := 1440, height := 960 }, { width := 5472, height := 3648 }⟩
    { x1 := 303, y1 := 400, x2 := 332, y2 := 429 }).x = 1074 := by decide +kernel

/-- The last column of the photo, cut from its preview. -/
def edgeBox : BoundingBox := { x1 := 639, y1 := 200, x2 := 640, y2 := 250 }

def unscaled : CropDims where
  old := { width := 640, height := 480 }
  new := { width := 640, height := 480 }

/-- A face at the right edge gives an area of negative size. -/
theorem not_portrait_crop_extractable :
    ¬ ∀ (dims : CropDims) (box : BoundingBox), dims.old.width ≤ dims.new.width →
      dims.old.height ≤ dims.new.height →
      clamp box.x1 0 dims.old.width < clamp box.x2 0 dims.old.width →
      clamp box.y1 0 dims.old.height < clamp box.y2 0 dims.old.height →
      (getCrop dims box).FramesPoint dims.new (dims.centreX box) (dims.centreY box) := by
  intro h
  have hframes := h unscaled edgeBox (by decide) (by decide) (by decide) (by decide)
  have hnegative :
      getCrop unscaled edgeBox = { x := 641, y := 226, width := -2, height := -2 } := by
    decide +kernel
  have hpositive := hframes.positive
  rw [hnegative] at hpositive
  exact absurd hpositive (by decide)

end EventLens.Faces
