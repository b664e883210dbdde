import EventLens.FaceRedetection
import Mathlib.Tactic.FieldSimp
import Mathlib.Tactic.Ring

/-!
A photo whose faces are detected again in a preview of another size. The new
boxes are multiplied by the ratio of the new size to the stored one, so boxes
that come rescaled are scaled twice, away from the stored ones; they find them
again only where the square of the ratio happens to leave them there.
-/

namespace EventLens.Faces

open Programs

/-- The box in an image `k` times as large. -/
def Rescaled (k : ℚ) (f : AssetFace) (d : DetectedFace) : Prop :=
  (d.boundingBox.x1 : ℚ) = k * f.boundingBox.x1 ∧ (d.boundingBox.y1 : ℚ) = k * f.boundingBox.y1 ∧
    (d.boundingBox.x2 : ℚ) = k * f.boundingBox.x2 ∧ (d.boundingBox.y2 : ℚ) = k * f.boundingBox.y2

/-- The stored faces found again, in any order, in an image `k` times as large. -/
structure FoundAgain (k : ℚ) (w h : ℕ) (found : List AssetFace) (detected : DetectedFaces) :
    Prop where
  stored : ∀ f ∈ found, f.imageWidth = w ∧ f.imageHeight = h
  width : (detected.imageWidth : ℚ) = k * w
  height : (detected.imageHeight : ℚ) = k * h
  boxes : ∃ order : List AssetFace, order.Perm found ∧
    List.Forall₂ (Rescaled k) order detected.faces

/-- The handler completes and neither adds nor removes a face. -/
def KeepsFaces (s : FaceStore) (result : Except FaceError JobStatus × FaceStore) : Prop :=
  result.1 = .ok .success ∧ result.2.faces = s.faces ∧ result.2.searches = s.searches

/-- By how much the loop ends up scaling a stored box; a size of zero counts as one. -/
def twiceScaled (k : ℚ) (n : ℕ) : ℚ := if n = 0 then 0 else k * k

/-- The first stored face that overlaps a stored box, scaled twice, by more than half. -/
def landsOn (k : ℚ) (w h : ℕ) (found : List AssetFace) (f : AssetFace) : Option AssetFace :=
  found.find? (fun g => 1 / 2 < iou g.boundingBox (twiceScaled k w) (twiceScaled k h) f.boundingBox)

/-- The boxes scaled twice land on stored faces, each on another one. -/
def LandsApart (k : ℚ) (w h : ℕ) (found : List AssetFace) : Prop :=
  (∀ f ∈ found, (landsOn k w h found f).isSome = true) ∧
    ((found.filterMap (landsOn k w h found)).map AssetFace.id).Nodup

section Scales

variable {k : ℚ} {w h : ℕ} {found : List AssetFace} {detected : DetectedFaces} {f : AssetFace}
  {d : DetectedFace}

theorem scale_rescaled {n m : ℕ} (hn : (m : ℚ) = k * n) :
    k * scale m (some n) = twiceScaled k n := by
  cases n with
  | zero =>
    rw [Nat.cast_zero, mul_zero] at hn
    simp [scale, twiceScaled, hn]
  | succ n =>
    have hpos : ((n + 1 : ℕ) : ℚ) ≠ 0 := by positivity
    simp only [scale, twiceScaled, hn, Nat.succ_ne_zero, ↓reduceIte]
    field_simp

theorem iou_rescaled {g : BoundingBox} {a b : ℚ} (hd : Rescaled k f d) :
    iou g a b d.boundingBox = iou g (k * a) (k * b) f.boundingBox := by
  obtain ⟨hx1, hy1, hx2, hy2⟩ := hd
  have hmul : ∀ x c : ℚ, k * x * c = x * (k * c) := fun x c => by ring
  simp only [iou, hx1, hy1, hx2, hy2, hmul]

/-- What a detection takes is what the stored box lands on. -/
theorem matched_rescaled (hagain : FoundAgain k w h found detected) (hd : Rescaled k f d) :
    matched detected found d = landsOn k w h found f := by
  cases found with
  | nil => rfl
  | cons first rest =>
    obtain ⟨hwidth, hheight⟩ := hagain.stored first List.mem_cons_self
    unfold matched matching landsOn
    simp only [List.head?_cons, Option.map_some, hwidth, hheight, iou_rescaled hd,
      scale_rescaled hagain.width, scale_rescaled hagain.height]

theorem taken_rescaled (hagain : FoundAgain k w h found detected) {order : List AssetFace}
    {ds : List DetectedFace}
    (hds : List.Forall₂ (Rescaled k) order ds) :
    taken detected found ds = order.filterMap (landsOn k w h found) := by
  induction hds with
  | nil => rfl
  | cons hd _ ih =>
    unfold taken at ih ⊢
    rw [List.filterMap_cons, List.filterMap_cons, matched_rescaled hagain hd, ih]

theorem newFaces_eq_nil (assetId : AssetId) {ds : List DetectedFace} {next : FaceId} :
    newFaces assetId detected found ds next = [] ↔
    ∀ d ∈ ds, (matched detected found d).isSome = true := by
  induction ds with
  | nil => exact iff_of_true rfl fun d hd => absurd hd List.not_mem_nil
  | cons d ds ih =>
    rw [newFaces_cons]
    cases hmatched : matched detected found d with
    | some f => simp [ih, hmatched]
    | none => simp [hmatched]

theorem forall_rescaled (hagain : FoundAgain k w h found detected) {order : List AssetFace}
    {ds : List DetectedFace} (hds : List.Forall₂ (Rescaled k) order ds) :
    (∀ d ∈ ds, (matched detected found d).isSome = true) ↔
      ∀ f ∈ order, (landsOn k w h found f).isSome = true := by
  induction hds with
  | nil => simp
  | cons hd _ ih => simp [ih, matched_rescaled hagain hd]

/-- The condition in terms of the detections. -/
theorem landsApart_iff (hagain : FoundAgain k w h found detected) :
    LandsApart k w h found ↔
      (∀ d ∈ detected.faces, (matched detected found d).isSome = true) ∧
      TakenOnce detected found := by
  obtain ⟨order, hperm, hds⟩ := hagain.boxes
  unfold LandsApart TakenOnce
  rw [forall_rescaled hagain hds, taken_rescaled hagain hds,
    ((hperm.filterMap (landsOn k w h found)).map AssetFace.id).nodup_iff]
  simp only [hperm.mem_iff]

/-- A box overlaps itself wholly. -/
theorem iou_self {b : BoundingBox} (hx : b.x1 < b.x2) (hy : b.y1 < b.y2) : iou b 1 1 b = 1 := by
  have hx' : (b.x1 : ℚ) < b.x2 := by exact_mod_cast hx
  have hy' : (b.y1 : ℚ) < b.y2 := by exact_mod_cast hy
  have harea : 0 < ((b.x2 : ℚ) - b.x1) * (b.y2 - b.y1) := mul_pos (by linarith) (by linarith)
  simp only [iou, mul_one, max_self, min_self, max_eq_right (sub_nonneg.mpr hx'.le),
    max_eq_right (sub_nonneg.mpr hy'.le), add_sub_cancel_right]
  exact div_self harea.ne'

/-- Boxes that lie apart enough are found again in an image of the same size. -/
theorem landsApart_one (hw : w ≠ 0) (hh : h ≠ 0) (hfound : (found.map AssetFace.id).Nodup)
    (hproper : ∀ f ∈ found, f.boundingBox.x1 < f.boundingBox.x2 ∧
    f.boundingBox.y1 < f.boundingBox.y2)
    (hpairs : ∀ f ∈ found, ∀ g ∈ found, f ≠ g → iou f.boundingBox 1 1 g.boundingBox ≤ 1 / 2) :
    LandsApart 1 w h found := by
  have hself : ∀ f ∈ found, landsOn 1 w h found f = some f := by
    intro f hf
    simp only [landsOn, twiceScaled, hw, hh, ↓reduceIte, mul_one]
    have hover : 1 / 2 < iou f.boundingBox 1 1 f.boundingBox := by
      rw [iou_self (hproper f hf).1 (hproper f hf).2]
      norm_num
    cases hfind : found.find? (fun g => 1 / 2 < iou g.boundingBox 1 1 f.boundingBox) with
    | none => exact absurd (decide_eq_true hover) (List.find?_eq_none.mp hfind f hf)
    | some g =>
      have hg := List.mem_of_find?_eq_some hfind
      have hhalf : 1 / 2 < iou g.boundingBox 1 1 f.boundingBox := by
        simpa using List.find?_some hfind
      by_contra hne
      have hne' : g ≠ f := fun heq => hne (by rw [heq])
      exact absurd hhalf (not_lt.mpr (hpairs g hg f hf hne'))
  refine ⟨fun f hf => by rw [hself f hf]; rfl, ?_⟩
  have hall : found.filterMap (landsOn 1 w h found) = found := by
    rw [List.filterMap_congr hself, List.filterMap_some]
  rw [hall]
  exact hfound

end Scales

section Rescaling

variable {distance : Embedding → Embedding → ℚ} {detected : DetectedFaces} {ω : FaceOracle}
  {s : FaceStore}
  {assetId : AssetId} {asset : Asset} {k : ℚ} {w h : ℕ}

theorem keepsFaces_of_landsApart (hω : Calm detected ω) (hs : Stored s assetId)
    (hasset : s.getByIdUnscoped assetId = some asset) (hpreview : asset.hasPreview = true)
    (hagain : FoundAgain k w h (s.getByAssetId assetId) detected)
    (hlands : LandsApart k w h (s.getByAssetId assetId)) :
    KeepsFaces s (outcome distance (handleDetectFaces assetId) ω s) := by
  obtain ⟨hall, htaken⟩ := (landsApart_iff hagain).mp hlands
  obtain ⟨result, hresult, hkept, hids, hadd, hembeddings⟩ := reconciled_once hs htaken
  have hnone : result.facesToAdd = [] := hadd.trans ((newFaces_eq_nil assetId).mpr hall)
  have hrows : result.embeddings = [] := by simpa [hnone] using hembeddings
  -- as many stored faces are taken as there are
  have hcount :
    (taken detected (s.getByAssetId assetId) detected.faces).length =
    (s.getByAssetId assetId).length := by
    obtain ⟨order, hperm, hds⟩ := hagain.boxes
    rw [taken, List.filterMap_length_eq_length.mpr hall, ← hds.length_eq, hperm.length_eq]
  have hleft : result.mlFaceIds = [] := by
    refine List.eq_nil_iff_forall_not_mem.mpr fun id hid => ?_
    obtain ⟨f, hf, rfl⟩ := List.mem_map.mp (hids id hid)
    have hfull := List.length_filter_eq_length_iff.mp (hkept.length_eq.trans hcount) f hf
    exact of_decide_eq_true hfull hid
  rw [detect_outcome hω hasset hpreview, hresult, refreshed, if_neg (by simp [hnone, hrows, hleft])]
  exact ⟨rfl, (concluded_rows asset.eventId detected.faces.length result.facesToAdd _).1,
    (concluded_rows asset.eventId detected.faces.length result.facesToAdd _).2.1⟩

end Rescaling

/-! A stored face of 100 by 100 in previews of other sizes. -/

/-- The face of `storedFace` in a preview `n` times a hundredth as large. -/
def enlarged (n : ℕ) : DetectedFaces where
  imageHeight := 10 * n
  imageWidth := 10 * n
  faces := [{ boundingBox := ⟨0, 0, n, n⟩, embedding := "a" }]

theorem enlarged_again (n : ℕ) :
    FoundAgain (n / 100) 1000 1000 (storedFace.getByAssetId 0) (enlarged n) := by
  have hone : storedFace.getByAssetId 0 = storedFace.faces := by decide
  have hsize : ((10 * n : ℕ) : ℚ) = n / 100 * (1000 : ℕ) := by
    push_cast
    ring
  refine ⟨fun f hf => ?_, hsize, hsize, storedFace.faces, hone ▸ List.Perm.refl _, ?_⟩
  · rw [hone] at hf
    simp only [storedFace, List.mem_singleton] at hf
    subst hf
    exact ⟨rfl, rfl⟩
  · refine List.Forall₂.cons ⟨?_, ?_, ?_, ?_⟩ List.Forall₂.nil <;> norm_num

end EventLens.Faces
