import EventLens.FaceReconcile

/-!
A photo whose faces are detected again. The detections take the first stored
face that they overlap by more than half, and one face per detection is left
exactly when no stored face is taken twice.
-/

namespace EventLens.Faces

open Programs

/-- What a detection has become: a stored face that it overlaps, or a new face. -/
def Paired (found : List AssetFace) (d : DetectedFace) (f : AssetFace) : Prop :=
  (f ∈ found ∧ 1 / 2 < iou f.boundingBox 1 1 d.boundingBox) ∨
    ((∀ g ∈ found, g.id ≠ f.id) ∧ f.boundingBox = d.boundingBox)

/-- The handler completes, and the live faces of the asset are one for each detection. -/
structure OneEach (detected : DetectedFaces) (assetId : AssetId) (found : List AssetFace)
    (result : Except FaceError JobStatus × FaceStore) : Prop where
  completed : result.1 = .ok .success
  paired : ∃ fs, List.Forall₂ (Paired found) detected.faces fs ∧
    fs.Perm (result.2.getByAssetId assetId)
  distinct : ((result.2.getByAssetId assetId).map AssetFace.id).Nodup
  embedded : Embedded result.2 assetId
  counted :
    (result.2.asset assetId).map Asset.faceCount =
    some (some (result.2.getByAssetId assetId).length)

/-- The keys of the tables, and one embedding for each stored face of the asset. -/
structure Stored (s : FaceStore) (assetId : AssetId) : Prop where
  keys : (s.faces.map AssetFace.id).Nodup
  fresh : ∀ f ∈ s.faces, f.id < s.nextFace
  owned : ∀ row ∈ s.searches, ∃ f ∈ s.faces, f.id = row.faceId
  embedded : Embedded s assetId

/-- The stored faces were found in an image of this size. -/
def SameSize (detected : DetectedFaces) (found : List AssetFace) : Prop :=
  ∀ f ∈ found, f.imageWidth = detected.imageWidth ∧ f.imageHeight = detected.imageHeight

/-- No two detections take the same stored face. -/
def TakenOnce (detected : DetectedFaces) (found : List AssetFace) : Prop :=
  ((taken detected found detected.faces).map AssetFace.id).Nodup

section Refresh

variable {detected : DetectedFaces} {assetId : AssetId} {s : FaceStore} {asset : Asset}

theorem found_nodup (h : Stored s assetId) : ((s.getByAssetId assetId).map AssetFace.id).Nodup :=
  h.keys.sublist (List.filter_sublist.map _)

theorem unmatched_ids (found : List AssetFace) :
    (unmatched found).mlFaceIds = found.map AssetFace.id := by
  have hall : found.filter (fun f => f.sourceType = .machineLearning) = found := by
    refine List.filter_eq_self.mpr fun f _ => ?_
    cases f.sourceType
    simp
  rw [unmatched, hall]

/-- New faces with their embeddings can be added, and stored faces removed. -/
theorem refreshFaces_isSome (h : Stored s assetId) (hasset : s.asset assetId = some asset)
    {next : FaceId}
    (hnext : s.nextFace ≤ next) {facesToAdd : List AssetFace} {ids : List FaceId}
    {rows : List FaceSearch}
    (hadded : ∀ f ∈ facesToAdd, f.assetId = assetId)
    (hids : facesToAdd.map AssetFace.id = List.range' next facesToAdd.length)
    (hrows : rows.map FaceSearch.faceId = facesToAdd.map AssetFace.id) (n : FaceId) :
    ∃ s', ({ s with nextFace := n } : FaceStore).refreshFaces facesToAdd ids rows = some s' := by
  have hnew : ∀ f ∈ facesToAdd, next ≤ f.id := by
    intro f hf
    have hin : f.id ∈ List.range' next facesToAdd.length := hids ▸ List.mem_map_of_mem hf
    exact (List.mem_range'_1.mp hin).1
  have hnodup : (facesToAdd.map AssetFace.id).Nodup := by
    rw [hids]
    exact List.nodup_range'
  have hface : ∀ id, next ≤ id → s.face id = none := by
    intro id hid
    refine List.find?_eq_none.mpr fun f hf hsame => ?_
    have heq : f.id = id := by simpa using hsame
    exact absurd (heq ▸ h.fresh f hf) (Nat.not_lt.mpr (hnext.trans hid))
  have hembedding : ∀ id, next ≤ id → s.embedding id = none := by
    intro id hid
    refine Option.map_eq_none_iff.mpr (List.find?_eq_none.mpr fun row hrow hsame => ?_)
    obtain ⟨f, hf, howner⟩ := h.owned row hrow
    have heq : row.faceId = id := by simpa using hsame
    exact absurd (heq ▸ howner ▸ h.fresh f hf) (Nat.not_lt.mpr (hnext.trans hid))
  unfold FaceStore.refreshFaces
  rw [if_pos]
  · exact ⟨_, rfl⟩
  · refine ⟨List.all_eq_true.mpr fun f hf => decide_eq_true ⟨?_, hface f.id (hnew f hf)⟩, hnodup,
      List.all_eq_true.mpr fun row hrow => decide_eq_true ?_, hrows ▸ hnodup⟩
    · rw [hadded f hf]
      exact Option.isSome_iff_exists.mpr ⟨asset, hasset⟩
    · have hin : row.faceId ∈ facesToAdd.map AssetFace.id := hrows ▸ List.mem_map_of_mem hrow
      obtain ⟨f, hf, hid⟩ := List.mem_map.mp hin
      refine ⟨?_, Or.inr (List.any_eq_true.mpr ⟨f, hf, decide_eq_true hid⟩)⟩
      rw [← hid]
      exact hembedding f.id (hnew f hf)

/-- A stored face has its embedding already. -/
theorem refreshFaces_none (h : Embedded s assetId) {f : AssetFace} (hf : f ∈ s.getByAssetId assetId)
    {facesToAdd : List AssetFace} {ids : List FaceId} {rows : List FaceSearch} {row : FaceSearch}
    (hrow : row ∈ rows) (hid : row.faceId = f.id) (n : FaceId) :
    ({ s with nextFace := n } : FaceStore).refreshFaces facesToAdd ids rows = none := by
  unfold FaceStore.refreshFaces
  rw [if_neg]
  intro hok
  obtain ⟨-, -, hrows, -⟩ := hok
  have hnone : s.embedding row.faceId = none :=
    (of_decide_eq_true (List.all_eq_true.mp hrows row hrow)).1
  have hmissing := List.find?_eq_none.mp (Option.map_eq_none_iff.mp hnone)
  have hcount := h f hf
  rw [← hid, List.countP_eq_zero.mpr hmissing] at hcount
  omega

theorem concluded_rows (eventId : EventId) (n : ℕ) (facesToAdd : List AssetFace) (s : FaceStore) :
    (concluded assetId eventId n facesToAdd s).faces = s.faces ∧
      (concluded assetId eventId n facesToAdd s).searches = s.searches ∧
      (concluded assetId eventId n facesToAdd s).assets =
      (s.setFacesDetected assetId n).assets := by
  unfold concluded
  split
  · obtain ⟨jobs, hjobs⟩ := queueAll_jobs (s := s.setFacesDetected assetId n)
      (facesToAdd.map (fun f => .faceRecognize f.id false) ++
        [.faceRecognizeQueueAll eventId false, .participantRematch eventId])
    rw [hjobs]
    exact ⟨rfl, rfl, rfl⟩
  · exact ⟨rfl, rfl, rfl⟩

theorem asset_setFacesDetected (n : ℕ) (hasset : s.asset assetId = some asset) :
    (s.setFacesDetected assetId n).asset assetId = some { asset with faceCount := some n } := by
  obtain ⟨-, hid⟩ := FaceStore.asset_mem hasset
  unfold FaceStore.asset FaceStore.setFacesDetected
  rw [List.find?_map]
  have hsame : ((fun a : Asset => decide (a.id = assetId)) ∘
      fun a => if a.id = assetId then { a with faceCount := some n } else a) = fun a =>
        decide (a.id = assetId) := by
    funext a
    by_cases ha : a.id = assetId
    · simp [ha]
    · simp [ha]
  rw [hsame]
  have hfind : s.assets.find? (fun a => decide (a.id = assetId)) = some asset := hasset
  rw [hfind]
  simp [hid]

end Refresh

section Sizes

variable {f box : BoundingBox} {w h : ℚ}

theorem iou_flat_width : ¬ 1 / 2 < iou f 0 h box := by
  intro hhalf
  have hshared := (area_lt_of_half hhalf).1
  have hnone : shared f.x1 f.x2 (box.x1 * 0) (box.x2 * 0) = 0 := by
    rw [mul_zero, mul_zero, shared]
    refine max_eq_left ?_
    have hlow : min (f.x2 : ℚ) 0 ≤ 0 := min_le_right _ _
    have hhigh : 0 ≤ max (f.x1 : ℚ) 0 := le_max_right _ _
    linarith
  rw [sharedArea, hnone, zero_mul] at hshared
  exact lt_irrefl 0 hshared

theorem iou_flat_height : ¬ 1 / 2 < iou f w 0 box := by
  intro hhalf
  have hshared := (area_lt_of_half hhalf).1
  have hnone : shared f.y1 f.y2 (box.y1 * 0) (box.y2 * 0) = 0 := by
    rw [mul_zero, mul_zero, shared]
    refine max_eq_left ?_
    have hlow : min (f.y2 : ℚ) 0 ≤ 0 := min_le_right _ _
    have hhigh : 0 ≤ max (f.y1 : ℚ) 0 := le_max_right _ _
    linarith
  rw [sharedArea, hnone, mul_zero] at hshared
  exact lt_irrefl 0 hshared

theorem scale_self (n : ℕ) : scale n (some n) = 1 ∨ scale n (some n) = 0 := by
  cases n with
  | zero => simp [scale]
  | succ n =>
    left
    simp only [scale]
    exact div_self (by positivity)

/-- At the size of the stored image boxes are compared as they are. -/
theorem matched_sameSize {detected : DetectedFaces} {found : List AssetFace} {d : DetectedFace}
    {f : AssetFace}
    (hsize : SameSize detected found) (hmatched : matched detected found d = some f) :
    f ∈ found ∧ 1 / 2 < iou f.boundingBox 1 1 d.boundingBox := by
  obtain ⟨hf, hhalf⟩ := matched_eq_some hmatched
  refine ⟨hf, ?_⟩
  obtain ⟨first, rest, rfl⟩ := List.exists_cons_of_ne_nil (List.ne_nil_of_mem hf)
  obtain ⟨hwidth, hheight⟩ := hsize first List.mem_cons_self
  simp only [List.head?_cons, Option.map_some, hwidth, hheight] at hhalf
  rcases scale_self detected.imageWidth with hw | hw
  · rcases scale_self detected.imageHeight with hh | hh
    · rwa [hw, hh] at hhalf
    · rw [hh] at hhalf
      exact absurd hhalf iou_flat_height
  · rw [hw] at hhalf
    exact absurd hhalf iou_flat_width

end Sizes

section Redetection

variable {distance : Embedding → Embedding → ℚ} {detected : DetectedFaces} {ω : FaceOracle}
  {s : FaceStore}
  {assetId : AssetId} {asset : Asset}

theorem standIns_paired (h : Stored s assetId) (hsize : SameSize detected (s.getByAssetId assetId))
    (ds : List DetectedFace) {next : FaceId} (hnext : s.nextFace ≤ next) :
    List.Forall₂ (Paired (s.getByAssetId assetId)) ds
      (standIns assetId detected (s.getByAssetId assetId) ds next) := by
  induction ds generalizing next with
  | nil => exact List.Forall₂.nil
  | cons d ds ih =>
    rw [standIns_cons]
    cases hmatched : matched detected (s.getByAssetId assetId) d with
    | some f => exact List.Forall₂.cons (Or.inl (matched_sameSize hsize hmatched)) (ih hnext)
    | none =>
      refine List.Forall₂.cons (Or.inr ⟨fun g hg hid => ?_, rfl⟩) (ih (Nat.le_succ_of_le hnext))
      have hlt := h.fresh g (List.mem_filter.mp hg).1
      rw [hid] at hlt
      exact absurd hlt (Nat.not_lt.mpr hnext)

/-- What is kept of the stored faces is what the detections take. -/
theorem kept_perm {found : List AssetFace} (hfound : (found.map AssetFace.id).Nodup)
    (htaken : TakenOnce detected found) {ids : List FaceId}
    (hids : ∀ id, id ∈ ids ↔ id ∈ found.map AssetFace.id ∧
    id ∉ (taken detected found detected.faces).map AssetFace.id) :
    (found.filter (fun f => f.id ∉ ids)).Perm (taken detected found detected.faces) := by
  refine (List.perm_ext_iff_of_nodup ((List.Nodup.of_map _ hfound).filter _)
    (List.Nodup.of_map _ htaken)).mpr
    fun f => ?_
  have hsub : ∀ f ∈ taken detected found detected.faces, f ∈ found := fun f hf => by
    obtain ⟨d, -, hmatched⟩ := mem_taken.mp hf
    exact (matched_eq_some hmatched).1
  simp only [List.mem_filter, decide_eq_true_eq, hids, not_and, not_not]
  constructor
  · intro hf
    obtain ⟨g, hg, hid⟩ := List.mem_map.mp (hf.2 (List.mem_map_of_mem hf.1))
    exact eq_of_id hfound (hsub g hg) hf.1 hid ▸ hg
  · exact fun hf => ⟨hsub f hf, fun _ => List.mem_map_of_mem hf⟩

/-- A refresh of new faces with their embeddings goes through. -/
theorem refreshed_distinct (h : Stored s assetId) (hrow : s.asset assetId = some asset)
    (eventId : EventId) (n : ℕ)
    {result : Reconciled} {ds : List DetectedFace}
    (hadd : result.facesToAdd = newFaces assetId detected (s.getByAssetId assetId) ds s.nextFace)
    (hembeddings : result.embeddings.map FaceSearch.faceId = result.facesToAdd.map AssetFace.id) :
    ∃ s', refreshed assetId eventId n result (drawn assetId detected s) =
        (.ok .success, concluded assetId eventId n result.facesToAdd s') ∧
      s'.getByAssetId assetId =
        (s.getByAssetId assetId).filter (fun f => f.id ∉ result.mlFaceIds) ++ result.facesToAdd ∧
      Embedded s' assetId ∧ s'.assets = s.assets ∧ (s'.faces.map AssetFace.id).Nodup := by
  have hrows : ∀ f ∈ result.facesToAdd, f.assetId = assetId ∧ f.deleted = false := by
    rw [hadd]
    exact newFaces_rows ds s.nextFace
  unfold refreshed
  split
  · have hids :
      result.facesToAdd.map AssetFace.id = List.range' s.nextFace result.facesToAdd.length := by
      rw [hadd]
      exact newFaces_ids ds s.nextFace
    have hgoes : ∃ s', (drawn assetId detected s).refreshFaces result.facesToAdd result.mlFaceIds
        result.embeddings = some s' :=
      refreshFaces_isSome h hrow le_rfl (fun f hf => (hrows f hf).1) hids hembeddings _
    obtain ⟨s', hrefresh⟩ := hgoes
    have hkeys : ((drawn assetId detected s).faces.map AssetFace.id).Nodup := h.keys
    have hembedded : Embedded (drawn assetId detected s) assetId := h.embedded
    have hlive := refreshFaces_getByAssetId hrows hrefresh
    obtain ⟨-, -, -, -, -, -, hassets⟩ := refreshFaces_eq_some hrefresh
    rw [hrefresh]
    exact ⟨s', rfl, hlive, refreshFaces_embedded hembedded hrows hembeddings hrefresh, hassets,
      refreshFaces_nodup hkeys hrefresh⟩
  · rename_i hnothing
    rw [not_or, not_or, not_not, not_not, not_not] at hnothing
    obtain ⟨hnone, hleft, -⟩ := hnothing
    refine ⟨drawn assetId detected s, rfl, ?_, h.embedded, rfl, h.keys⟩
    rw [hnone, hleft]
    simp [drawn, FaceStore.getByAssetId]

theorem concluded_live (eventId : EventId) (n : ℕ) (facesToAdd : List AssetFace) (s : FaceStore) :
    (concluded assetId eventId n facesToAdd s).getByAssetId assetId = s.getByAssetId assetId := by
  rw [FaceStore.getByAssetId, (concluded_rows eventId n facesToAdd s).1, FaceStore.getByAssetId]

theorem concluded_embedded (eventId : EventId) (n : ℕ) (facesToAdd : List AssetFace)
    (h : Embedded s assetId) :
    Embedded (concluded assetId eventId n facesToAdd s) assetId := by
  unfold Embedded
  rw [concluded_live, (concluded_rows eventId n facesToAdd s).2.1]
  exact h

theorem concluded_count (eventId : EventId) (n : ℕ) (facesToAdd : List AssetFace)
    (hrow : s.asset assetId = some asset) :
    ((concluded assetId eventId n facesToAdd s).asset assetId).map Asset.faceCount =
    some (some n) := by
  have hassets :
    (concluded assetId eventId n facesToAdd s).assets = (s.setFacesDetected assetId n).assets :=
    (concluded_rows eventId n facesToAdd s).2.2
  have hasset : (concluded assetId eventId n facesToAdd s).asset assetId =
      (s.setFacesDetected assetId n).asset assetId := by
    unfold FaceStore.asset
    rw [hassets]
  rw [hasset, asset_setFacesDetected n hrow]
  rfl

/-- A detection whose refresh is not refused takes no stored face twice. -/
theorem takenOnce_of_completed (hω : Calm detected ω) (h : Stored s assetId)
    (hasset : s.getByIdUnscoped assetId = some asset) (hpreview : asset.hasPreview = true)
    (hcompleted : (outcome distance (handleDetectFaces assetId) ω s).1 = .ok .success) :
    TakenOnce detected (s.getByAssetId assetId) := by
  by_contra htwice
  have hleft : (unmatched (s.getByAssetId assetId)).mlFaceIds.Nodup := by
    rw [unmatched_ids]
    exact found_nodup h
  obtain ⟨row, hrow, f, hf, hid⟩ := reconciled_repeated assetId detected.faces
    (unmatched (s.getByAssetId assetId)) s.nextFace hleft htwice
  rw [detect_outcome hω hasset hpreview, refreshed,
    if_pos (Or.inr (Or.inr (List.ne_nil_of_mem hrow))), drawn,
    refreshFaces_none h.embedded hf hrow hid] at hcompleted
  cases hcompleted

/-- What the loop works out when no stored face is taken twice. -/
theorem reconciled_once (h : Stored s assetId)
    (htaken : TakenOnce detected (s.getByAssetId assetId)) :
    ∃ result, reconciled assetId detected (s.getByAssetId assetId) detected.faces
        (unmatched (s.getByAssetId assetId)) s.nextFace = result ∧
      ((s.getByAssetId assetId).filter (fun f => f.id ∉ result.mlFaceIds)).Perm
        (taken detected (s.getByAssetId assetId) detected.faces) ∧
      (∀ id ∈ result.mlFaceIds, id ∈ (s.getByAssetId assetId).map AssetFace.id) ∧
      result.facesToAdd =
      newFaces assetId detected (s.getByAssetId assetId) detected.faces s.nextFace ∧
      result.embeddings.map FaceSearch.faceId = result.facesToAdd.map AssetFace.id := by
  have hthere : ∀ f ∈ taken detected (s.getByAssetId assetId) detected.faces,
      f.id ∈ (unmatched (s.getByAssetId assetId)).mlFaceIds := by
    intro f hf
    obtain ⟨d, -, hmatched⟩ := mem_taken.mp hf
    rw [unmatched_ids]
    exact List.mem_map_of_mem (matched_eq_some hmatched).1
  have hleft : (unmatched (s.getByAssetId assetId)).mlFaceIds.Nodup := by
    rw [unmatched_ids]
    exact found_nodup h
  obtain ⟨hids, hadd, hembeddings⟩ := reconciled_distinct assetId detected.faces
    (unmatched (s.getByAssetId assetId)) s.nextFace htaken hthere hleft
  simp only [unmatched_ids] at hids
  refine ⟨_, rfl, kept_perm (found_nodup h) htaken hids, fun id hid => ((hids id).mp hid).1,
    hadd, ?_⟩
  rw [hembeddings, hadd]
  rfl

/-- Faces that are each taken at most once come out as one for each detection. -/
theorem oneEach_of_takenOnce (hω : Calm detected ω) (h : Stored s assetId)
    (hsize : SameSize detected (s.getByAssetId assetId))
    (hasset : s.getByIdUnscoped assetId = some asset)
    (hpreview : asset.hasPreview = true) (htaken : TakenOnce detected (s.getByAssetId assetId)) :
    OneEach detected assetId (s.getByAssetId assetId)
    (outcome distance (handleDetectFaces assetId) ω s) := by
  have hrow : s.asset assetId = some asset := (Option.filter_eq_some_iff.mp hasset).1
  obtain ⟨result, hresult, hkept, -, hadd, hembeddings⟩ := reconciled_once h htaken
  obtain ⟨s', hrefreshed, hlive, hembedded, hassets, hkeys⟩ :=
    refreshed_distinct h hrow asset.eventId
    detected.faces.length hadd hembeddings
  have hpaired := standIns_paired h hsize detected.faces le_rfl
  have hperm : (standIns assetId detected (s.getByAssetId assetId) detected.faces s.nextFace).Perm
      (s'.getByAssetId assetId) := by
    rw [hlive, hadd]
    exact (standIns_perm detected.faces s.nextFace).trans (List.Perm.append_right _ hkept.symm)
  have hrow' : s'.asset assetId = some asset := by
    unfold FaceStore.asset
    rw [hassets]
    exact hrow
  have hlength : (s'.getByAssetId assetId).length = detected.faces.length := by
    rw [← hperm.length_eq, hpaired.length_eq]
  rw [detect_outcome hω hasset hpreview, hresult, hrefreshed]
  refine ⟨rfl, ⟨_, hpaired, ?_⟩, ?_, concluded_embedded _ _ _ hembedded, ?_⟩
  · simpa only [concluded_live] using hperm
  · simp only [concluded_live]
    exact hkeys.sublist (List.filter_sublist.map _)
  · simp only [concluded_live, hlength]
    exact concluded_count _ _ _ hrow'

/-- A detection of an asset leaves one face for each detected one exactly when no stored
face is taken twice. -/
theorem oneEach_iff (hω : Calm detected ω) (h : Stored s assetId)
    (hsize : SameSize detected (s.getByAssetId assetId))
    (hasset : s.getByIdUnscoped assetId = some asset)
    (hpreview : asset.hasPreview = true) :
    OneEach detected assetId (s.getByAssetId assetId)
    (outcome distance (handleDetectFaces assetId) ω s) ↔
      TakenOnce detected (s.getByAssetId assetId) :=
  ⟨fun hone => takenOnce_of_completed hω h hasset hpreview hone.completed,
    oneEach_of_takenOnce hω h hsize hasset hpreview⟩

end Redetection

/-! A stored face of 100 by 100, and two detections. -/

def storedFace : FaceStore where
  assets := [{ id := 0, eventId := 7, orgId := 3 }]
  faces := [{ id := 0, assetId := 0, imageHeight := 1000, imageWidth := 1000, boundingBox :=
    ⟨0, 0, 100, 100⟩ }]
  searches := [{ faceId := 0, embedding := "a" }]
  nextFace := 1

/-- Two boxes in a photo of 1000 by 1000. -/
def twoBoxes (b c : BoundingBox) : DetectedFaces where
  imageHeight := 1000
  imageWidth := 1000
  faces := [{ boundingBox := b, embedding := "a" }, { boundingBox := c, embedding := "b" }]

def answering (detected : DetectedFaces) : FaceOracle := fun _ => succeeding ⟨1, 1⟩ detected

theorem answering_calm (detected : DetectedFaces) : Calm detected (answering detected) where
  answers _ o := by cases o <;> exact ⟨_, rfl⟩
  detects _ _ := rfl

theorem storedFace_stored : Stored storedFace 0 where
  keys := by decide
  fresh := by decide
  owned := by decide
  embedded := by decide

theorem storedFace_sameSize (b c : BoundingBox) :
    SameSize (twoBoxes b c) (storedFace.getByAssetId 0) := by
  intro f hf
  have hone : storedFace.getByAssetId 0 = storedFace.faces := by decide
  rw [hone] at hf
  simp only [storedFace, List.mem_singleton] at hf
  subst hf
  exact ⟨rfl, rfl⟩

/-- The face again, and another one. -/
theorem oneEach_apart :
    OneEach (twoBoxes ⟨0, 0, 100, 90⟩ ⟨300, 300, 400, 400⟩) 0 (storedFace.getByAssetId 0)
    (outcome (fun _ _ => 0) (handleDetectFaces 0)
    (answering (twoBoxes ⟨0, 0, 100, 90⟩ ⟨300, 300, 400, 400⟩))
      storedFace) := by
  have honce :
    TakenOnce (twoBoxes ⟨0, 0, 100, 90⟩ ⟨300, 300, 400, 400⟩) (storedFace.getByAssetId 0) := by
    unfold TakenOnce
    decide +kernel
  exact (oneEach_iff (answering_calm _) storedFace_stored (storedFace_sameSize _ _) rfl
    rfl).mpr honce

/-- Two detections that each cover sixty per cent of the stored face. -/
theorem not_oneEach :
    ¬ ∀ (distance : Embedding → Embedding → ℚ) detected ω s assetId asset, Calm detected ω →
    Stored s assetId → SameSize detected (s.getByAssetId assetId) →
    s.getByIdUnscoped assetId = some asset →
    asset.hasPreview = true →
    OneEach detected assetId (s.getByAssetId assetId)
    (outcome distance (handleDetectFaces assetId) ω s) := by
  intro h
  have hone :=
    h (fun _ _ => 0) (twoBoxes ⟨0, 0, 100, 60⟩ ⟨0, 40, 100, 100⟩) (answering _) storedFace 0 _
    (answering_calm _) storedFace_stored (storedFace_sameSize _ _) rfl rfl
  have hcompleted := hone.completed
  revert hcompleted
  decide +kernel

end EventLens.Faces
