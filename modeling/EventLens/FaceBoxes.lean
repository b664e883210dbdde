import EventLens.FaceService
import Mathlib.Tactic.Linarith
import Mathlib.Tactic.Positivity

/-!
Which stored face a detection is taken to be. A box that overlaps another by
more than half of their union covers more than half of it, so no stored face is
taken for two detections that lie apart, whatever the scale of the stored image.
-/

namespace EventLens.Faces

section Overlaps

variable {a b b' c c' d : ℚ}

/-- The length that two intervals share. -/
def shared (a b c d : ℚ) : ℚ := max 0 (min b d - max a c)

theorem shared_nonneg : 0 ≤ shared a b c d := le_max_left _ _

theorem shared_le_left : shared a b c d ≤ max 0 (b - a) :=
  max_le_max le_rfl (sub_le_sub (min_le_left _ _) (le_max_left _ _))

theorem shared_of_pos (h : 0 < shared a b c d) :
    shared a b c d ≤ b - a ∧ shared a b c d ≤ d - c := by
  have hpos : 0 < min b d - max a c := by
    by_contra hle
    rw [not_lt] at hle
    unfold shared at h
    rw [max_eq_left hle] at h
    exact lt_irrefl 0 h
  unfold shared
  rw [max_eq_right hpos.le]
  exact ⟨sub_le_sub (min_le_left _ _) (le_max_left _ _),
    sub_le_sub (min_le_right _ _) (le_max_right _ _)⟩

/-- Two intervals apart share no more with a third one than its length. -/
theorem shared_add_le (h : b' ≤ c) : shared a b c' b' + shared a b c d ≤ max 0 (b - a) := by
  by_cases hfirst : shared a b c' b' ≤ 0
  · have hsecond : shared a b c d ≤ max 0 (b - a) := shared_le_left
    linarith
  by_cases hsecond : shared a b c d ≤ 0
  · have hfirst : shared a b c' b' ≤ max 0 (b - a) := shared_le_left
    linarith
  have hlower : shared a b c' b' ≤ b' - a := by
    have hle : min b b' - max a c' ≤ b' - a := sub_le_sub (min_le_right _ _) (le_max_left _ _)
    refine max_le ?_ hle
    by_contra hneg
    refine hfirst (max_le le_rfl ?_)
    linarith
  have hupper : shared a b c d ≤ b - c := by
    have hle : min b d - max a c ≤ b - c := sub_le_sub (min_le_left _ _) (le_max_right _ _)
    refine max_le ?_ hle
    by_contra hneg
    refine hsecond (max_le le_rfl ?_)
    linarith
  calc shared a b c' b' + shared a b c d
      ≤ (b' - a) + (b - c) := add_le_add hlower hupper
    _ ≤ b - a := by linarith
    _ ≤ max 0 (b - a) := le_max_right _ _

end Overlaps

/-- No point lies inside both boxes. -/
def Apart (b c : BoundingBox) : Prop :=
  b.x2 ≤ c.x1 ∨ c.x2 ≤ b.x1 ∨ b.y2 ≤ c.y1 ∨ c.y2 ≤ b.y1

instance (b c : BoundingBox) : Decidable (Apart b c) := by
  unfold Apart
  infer_instance

section Scaled

variable {f b c : BoundingBox} {w h : ℚ}

/-- The area that a face shares with a scaled box. -/
def sharedArea (f : BoundingBox) (w h : ℚ) (b : BoundingBox) : ℚ :=
  shared f.x1 f.x2 (b.x1 * w) (b.x2 * w) * shared f.y1 f.y2 (b.y1 * h) (b.y2 * h)

def area (f : BoundingBox) : ℚ := (f.x2 - f.x1) * (f.y2 - f.y1)

/-- More than half of the union is more than half of the face. -/
theorem area_lt_of_half (hover : 1 / 2 < iou f w h b) :
    0 < sharedArea f w h b ∧ area f < 2 * sharedArea f w h b := by
  have hiou : iou f w h b = sharedArea f w h b / (area f +
      (b.x2 * w - b.x1 * w) * (b.y2 * h - b.y1 * h) - sharedArea f w h b) := rfl
  have hnonneg : 0 ≤ sharedArea f w h b := mul_nonneg shared_nonneg shared_nonneg
  have hpos : 0 < sharedArea f w h b := by
    refine hnonneg.lt_of_ne fun hzero => ?_
    rw [hiou, ← hzero, zero_div] at hover
    linarith
  have hx : 0 < shared f.x1 f.x2 (b.x1 * w) (b.x2 * w) := by
    refine shared_nonneg.lt_of_ne fun hzero => ?_
    rw [sharedArea, ← hzero, zero_mul] at hpos
    exact lt_irrefl 0 hpos
  have hy : 0 < shared f.y1 f.y2 (b.y1 * h) (b.y2 * h) := by
    refine shared_nonneg.lt_of_ne fun hzero => ?_
    rw [sharedArea, ← hzero, mul_zero] at hpos
    exact lt_irrefl 0 hpos
  obtain ⟨hxf, hxb⟩ := shared_of_pos hx
  obtain ⟨hyf, hyb⟩ := shared_of_pos hy
  have hface : sharedArea f w h b ≤ area f := mul_le_mul hxf hyf hy.le (hx.le.trans hxf)
  have hbox : sharedArea f w h b ≤ (b.x2 * w - b.x1 * w) * (b.y2 * h - b.y1 * h) :=
    mul_le_mul hxb hyb hy.le (hx.le.trans hxb)
  rw [hiou, lt_div_iff₀ (by linarith)] at hover
  exact ⟨hpos, by linarith⟩

/-- Boxes that lie apart share no more with a face than its area. -/
theorem sharedArea_add_le (hw : 0 ≤ w) (hh : 0 ≤ h) (hapart : Apart b c) :
    sharedArea f w h b + sharedArea f w h c ≤
      max 0 ((f.x2 : ℚ) - f.x1) * max 0 ((f.y2 : ℚ) - f.y1) := by
  have hwide : ∀ b c : BoundingBox, b.x2 ≤ c.x1 → sharedArea f w h b + sharedArea f w h c ≤
      max 0 ((f.x2 : ℚ) - f.x1) * max 0 ((f.y2 : ℚ) - f.y1) := by
    intro b c hx
    have hx' : (b.x2 : ℚ) * w ≤ c.x1 * w := mul_le_mul_of_nonneg_right (by exact_mod_cast hx) hw
    calc sharedArea f w h b + sharedArea f w h c
        ≤ shared f.x1 f.x2 (b.x1 * w) (b.x2 * w) * max 0 ((f.y2 : ℚ) - f.y1) +
          shared f.x1 f.x2 (c.x1 * w) (c.x2 * w) * max 0 ((f.y2 : ℚ) - f.y1) :=
        add_le_add (mul_le_mul_of_nonneg_left shared_le_left shared_nonneg)
          (mul_le_mul_of_nonneg_left shared_le_left shared_nonneg)
      _ = (shared f.x1 f.x2 (b.x1 * w) (b.x2 * w) + shared f.x1 f.x2 (c.x1 * w) (c.x2 * w)) *
          max 0 ((f.y2 : ℚ) - f.y1) := (add_mul _ _ _).symm
      _ ≤ _ := mul_le_mul_of_nonneg_right (shared_add_le hx') (le_max_left _ _)
  have htall : ∀ b c : BoundingBox, b.y2 ≤ c.y1 → sharedArea f w h b + sharedArea f w h c ≤
      max 0 ((f.x2 : ℚ) - f.x1) * max 0 ((f.y2 : ℚ) - f.y1) := by
    intro b c hy
    have hy' : (b.y2 : ℚ) * h ≤ c.y1 * h := mul_le_mul_of_nonneg_right (by exact_mod_cast hy) hh
    calc sharedArea f w h b + sharedArea f w h c
        ≤ max 0 ((f.x2 : ℚ) - f.x1) * shared f.y1 f.y2 (b.y1 * h) (b.y2 * h) +
          max 0 ((f.x2 : ℚ) - f.x1) * shared f.y1 f.y2 (c.y1 * h) (c.y2 * h) :=
        add_le_add (mul_le_mul_of_nonneg_right shared_le_left shared_nonneg)
          (mul_le_mul_of_nonneg_right shared_le_left shared_nonneg)
      _ = max 0 ((f.x2 : ℚ) - f.x1) *
          (shared f.y1 f.y2 (b.y1 * h) (b.y2 * h) + shared f.y1 f.y2 (c.y1 * h) (c.y2 * h)) :=
        (mul_add _ _ _).symm
      _ ≤ _ := mul_le_mul_of_nonneg_left (shared_add_le hy') (le_max_left _ _)
  rcases hapart with hx | hx | hy | hy
  · exact hwide b c hx
  · rw [add_comm]
    exact hwide c b hx
  · exact htall b c hy
  · rw [add_comm]
    exact htall c b hy

/-- A face is taken for at most one of two detections that lie apart. -/
theorem not_half_of_apart (hw : 0 ≤ w) (hh : 0 ≤ h) (hapart : Apart b c)
    (hb : 1 / 2 < iou f w h b) : ¬ 1 / 2 < iou f w h c := by
  intro hc
  obtain ⟨hposb, hareab⟩ := area_lt_of_half hb
  obtain ⟨hposc, hareac⟩ := area_lt_of_half hc
  have hsum := sharedArea_add_le (f := f) hw hh hapart
  have hx : 0 < max 0 ((f.x2 : ℚ) - f.x1) := by
    refine (le_max_left _ _).lt_of_ne fun hzero => ?_
    rw [← hzero, zero_mul] at hsum
    linarith
  have hy : 0 < max 0 ((f.y2 : ℚ) - f.y1) := by
    refine (le_max_left _ _).lt_of_ne fun hzero => ?_
    rw [← hzero, mul_zero] at hsum
    linarith
  rw [max_eq_right (lt_max_iff.mp hx |>.resolve_left (lt_irrefl 0)).le,
    max_eq_right (lt_max_iff.mp hy |>.resolve_left (lt_irrefl 0)).le, ← area] at hsum
  linarith

theorem scale_nonneg (detected : ℕ) (stored : Option ℕ) : 0 ≤ scale detected stored := by
  unfold scale
  split <;> positivity

end Scaled

end EventLens.Faces
