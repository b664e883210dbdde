import EventLens.FaceBoxes
import EventLens.FaceCleanup

/-!
Detection of one asset by several jobs. A job reads the stored faces, works out
what to add and to remove, and refreshes them in one statement. Jobs that
refresh what they have read leave one face for each detection; a job whose
stored faces have changed meanwhile adds the same faces again.
-/

namespace EventLens.Faces

open Programs Contract

/-- A stored face stands for a detection: it has its box, or one that overlaps
it by more than half at the scale of some stored image. -/
def StandsFor (detected : DetectedFaces) (d : DetectedFace) (f : AssetFace) : Prop :=
  f.boundingBox = d.boundingBox ∨ ∃ width height,
    1 / 2 < iou f.boundingBox (scale detected.imageWidth width) (scale detected.imageHeight height)
      d.boundingBox

/-- One face for each detection. -/
def Complete (detected : DetectedFaces) (rows : List AssetFace) : Prop :=
  ∃ fs, List.Forall₂ (StandsFor detected) detected.faces fs ∧ fs.Perm rows

/-- The detections lie apart from each other. -/
def NonOverlapping (detected : DetectedFaces) : Prop :=
  detected.faces.Pairwise (fun d d' => Apart d.boundingBox d'.boundingBox)

instance (detected : DetectedFaces) : Decidable (NonOverlapping detected) := by
  unfold NonOverlapping
  infer_instance

/-- Every live face of the asset has one embedding. -/
def Embedded (s : FaceStore) (assetId : AssetId) : Prop :=
  ∀ f ∈ s.getByAssetId assetId, s.searches.countP (fun row => row.faceId = f.id) = 1

instance (s : FaceStore) (assetId : AssetId) : Decidable (Embedded s assetId) := by
  unfold Embedded
  infer_instance

/-- One live face with one embedding for each detection, and their number. -/
structure DetectedOnce (detected : DetectedFaces) (assetId : AssetId) (s : FaceStore) : Prop where
  faces : Complete detected (s.getByAssetId assetId)
  embeddings : Embedded s assetId
  faceCount : (s.asset assetId).map Asset.faceCount = some (some detected.faces.length)

def foundIn : FaceEvent → Option (List AssetFace)
  | ⟨.getByAssetId _, .ok rows⟩ => some rows
  | _ => none

/-- The stored faces that a job has read. -/
def foundBy (t : FaceThread) : Option (List AssetFace) := t.past.reverse.findSome? foundIn

/-- Only detections of the asset run, and they find the same faces. -/
def Detecting (detected : DetectedFaces) (assetId : AssetId) (_p : FacePool) (t : FaceThread)
    (e : FaceEvent) : Prop :=
  t.call = .detectFaces assetId ∧ match e with
    | ⟨.detectFaces _, .ok answer⟩ => answer = detected
    | _ => True

/-- A refresh meets the stored faces it was worked out from, or has nothing
left to do. -/
def UpToDate (assetId : AssetId) (p : FacePool) (t : FaceThread) : FaceEvent → Prop
  | ⟨.refreshFaces facesToAdd faceIdsToRemove embeddingsToAdd, .ok _⟩ =>
    foundBy t = some (p.state.getByAssetId assetId) ∨
      facesToAdd = [] ∧ embeddingsToAdd = [] ∧ ∀ f ∈ p.state.faces, f.id ∉ faceIdsToRemove
  | _ => True

instance (detected : DetectedFaces) (assetId : AssetId) (p : FacePool) (t : FaceThread)
    (e : FaceEvent) :
    Decidable (Detecting detected assetId p t e) := by
  unfold Detecting
  split <;> infer_instance

instance (assetId : AssetId) (p : FacePool) (t : FaceThread) (e : FaceEvent) :
    Decidable (UpToDate assetId p t e) := by
  unfold UpToDate
  split <;> infer_instance

/-! The loop over the detections. -/

/-- The stored face that a detection is taken to be. -/
def matched (detected : DetectedFaces) (found : List AssetFace) (d : DetectedFace) :
    Option AssetFace :=
  matching found (scale detected.imageWidth (found.head?.map AssetFace.imageWidth))
    (scale detected.imageHeight (found.head?.map AssetFace.imageHeight)) d.boundingBox

theorem matched_eq_some {detected : DetectedFaces} {found : List AssetFace} {d : DetectedFace}
    {f : AssetFace} (h : matched detected found d = some f) :
    f ∈ found ∧ 1 / 2 < iou f.boundingBox
      (scale detected.imageWidth (found.head?.map AssetFace.imageWidth))
      (scale detected.imageHeight (found.head?.map AssetFace.imageHeight)) d.boundingBox :=
  ⟨List.mem_of_find?_eq_some h, by simpa using List.find?_some h⟩

/-- After some of the detections: what stands for them, and what is left of the
stored faces. -/
structure Reconciling (detected : DetectedFaces) (assetId : AssetId) (found : List AssetFace)
    (past : List DetectedFace) (acc : Reconciled) : Prop where
  standing : ∃ fs, List.Forall₂ (StandsFor detected) past fs ∧
    fs.Perm (found.filter (fun f => f.id ∉ acc.mlFaceIds) ++ acc.facesToAdd)
  added : ∀ f ∈ acc.facesToAdd, f.assetId = assetId ∧ f.deleted = false
  embeddings : acc.embeddings.map FaceSearch.faceId = acc.facesToAdd.map AssetFace.id
  taken : ∀ f ∈ found, f.id ∉ acc.mlFaceIds → ∃ d ∈ past, matched detected found d = some f
  left : acc.mlFaceIds.Nodup

section Loop

variable {detected : DetectedFaces} {assetId : AssetId} {found : List AssetFace}
  {past : List DetectedFace} {acc : Reconciled} {d : DetectedFace}

theorem reconciling_start (hnodup : (found.map AssetFace.id).Nodup) :
    Reconciling detected assetId found []
      { mlFaceIds :=
      (found.filter (fun f => f.sourceType = .machineLearning)).map AssetFace.id } := by
  have hall : found.filter (fun f => f.sourceType = .machineLearning) = found := by
    refine List.filter_eq_self.mpr fun f _ => decide_eq_true ?_
    cases f.sourceType
    rfl
  rw [hall]
  have hnone : ∀ f ∈ found, ¬ f.id ∉ found.map AssetFace.id := fun f hf hout =>
    hout (List.mem_map_of_mem hf)
  refine ⟨⟨[], List.Forall₂.nil, ?_⟩, fun f hf => absurd hf List.not_mem_nil, rfl,
    fun f hf hout => absurd hout (hnone f hf), hnodup⟩
  have hempty : found.filter (fun f => f.id ∉ found.map AssetFace.id) = [] :=
    List.filter_eq_nil_iff.mpr fun f hf => by
      rw [decide_eq_true_eq]
      exact hnone f hf
  rw [hempty]
  exact List.Perm.refl _

/-- A detection that is a stored face. -/
theorem Reconciling.keep (h : Reconciling detected assetId found past acc)
    (hnodup : (found.map AssetFace.id).Nodup) {f : AssetFace}
    (hf : matched detected found d = some f)
    (hleft : f.id ∈ acc.mlFaceIds) :
    Reconciling detected assetId found (past ++ [d])
      { acc with mlFaceIds := acc.mlFaceIds.erase f.id } := by
  obtain ⟨hmem, hhalf⟩ := matched_eq_some hf
  obtain ⟨fs, hstand, hperm⟩ := h.standing
  have hsplit : ∀ g ∈ found, (g.id ∉ acc.mlFaceIds.erase f.id) ↔ g.id ∉ acc.mlFaceIds ∨ g = f := by
    intro g hg
    rw [h.left.mem_erase_iff, not_and_or, not_not, or_comm]
    refine or_congr_right ⟨fun hid => eq_of_id hnodup hg hmem hid, fun heq => heq ▸ rfl⟩
  refine ⟨⟨fs ++ [f], ?_, ?_⟩, h.added, h.embeddings, fun g hg hout => ?_, h.left.erase _⟩
  · exact List.rel_append hstand (List.Forall₂.cons (.inr ⟨_, _, hhalf⟩) List.Forall₂.nil)
  · have hsame : found.filter (fun g => g.id ∉ acc.mlFaceIds.erase f.id) =
        found.filter (fun g => g.id ∉ acc.mlFaceIds ∨ g = f) :=
      List.filter_congr fun g hg => decide_eq_decide.mpr (hsplit g hg)
    have hone : (found.filter (fun g => g.id ∉ acc.mlFaceIds ∨ g = f)).Perm
        (f :: found.filter (fun g => g.id ∉ acc.mlFaceIds)) := by
      have hdistinct : found.Nodup := List.Nodup.of_map _ hnodup
      refine (List.perm_ext_iff_of_nodup (hdistinct.filter _) ?_).mpr fun g => ?_
      · refine List.nodup_cons.mpr ⟨fun hin => ?_, hdistinct.filter _⟩
        exact of_decide_eq_true (List.mem_filter.mp hin).2 hleft
      · simp only [List.mem_filter, List.mem_cons, decide_eq_true_eq]
        constructor
        · rintro ⟨hg, hout | rfl⟩
          · exact .inr ⟨hg, hout⟩
          · exact .inl rfl
        · rintro (rfl | ⟨hg, hout⟩)
          · exact ⟨hmem, .inr rfl⟩
          · exact ⟨hg, .inl hout⟩
    simp only
    rw [hsame]
    calc (fs ++ [f]).Perm (f :: fs) := List.perm_append_singleton f fs
      _ |>.Perm (f :: (found.filter (fun g => g.id ∉ acc.mlFaceIds) ++ acc.facesToAdd)) :=
        hperm.cons f
      _ |>.Perm _ := (hone.append_right acc.facesToAdd).symm
  · rcases (hsplit g hg).mp hout with hout | rfl
    · obtain ⟨d', hd', hmatched⟩ := h.taken g hg hout
      exact ⟨d', List.mem_append_left _ hd', hmatched⟩
    · exact ⟨d, List.mem_append_right _ (List.mem_singleton_self d), hf⟩

/-- A detection that is no stored face. -/
theorem Reconciling.add (h : Reconciling detected assetId found past acc) (faceId : FaceId) :
    Reconciling detected assetId found (past ++ [d])
      { acc with
        facesToAdd := acc.facesToAdd ++ [newFace assetId detected d.boundingBox faceId]
        embeddings := acc.embeddings ++ [{ faceId := faceId, embedding := d.embedding }] } := by
  obtain ⟨fs, hstand, hperm⟩ := h.standing
  refine ⟨⟨fs ++ [newFace assetId detected d.boundingBox faceId], ?_, ?_⟩, fun f hf => ?_, ?_,
    fun f hf hout => ?_, h.left⟩
  · exact List.rel_append hstand (List.Forall₂.cons (.inl rfl) List.Forall₂.nil)
  · rw [← List.append_assoc]
    exact hperm.append_right _
  · rcases List.mem_append.mp hf with hf | hf
    · exact h.added f hf
    · rw [List.mem_singleton.mp hf]
      exact ⟨rfl, rfl⟩
  · rw [List.map_append, List.map_append, h.embeddings]
    rfl
  · obtain ⟨d', hd', hmatched⟩ := h.taken f hf hout
    exact ⟨d', List.mem_append_left _ hd', hmatched⟩

/-- No stored face is taken twice. -/
theorem Reconciling.left_of_matched (h : Reconciling detected assetId found past acc)
    (hapart : ∀ d' ∈ past, Apart d'.boundingBox d.boundingBox) {f : AssetFace}
    (hf : matched detected found d = some f) : f.id ∈ acc.mlFaceIds := by
  by_contra hout
  obtain ⟨hmem, hhalf⟩ := matched_eq_some hf
  obtain ⟨d', hd', hmatched⟩ := h.taken f hmem hout
  exact not_half_of_apart (scale_nonneg _ _) (scale_nonneg _ _) (hapart d' hd')
    (matched_eq_some hmatched).2 hhalf

end Loop

/-! What a job notes and owes. -/

structure Detection where
  ours : Bool
  there : Bool := false
  found : Option (List AssetFace) := none
  settled : Bool := false
  counted : Bool := false

def Detection.note (g : Detection) : FaceEvent → Detection
  | ⟨.getByIdUnscoped _, .ok (some _)⟩ => { g with there := true }
  | ⟨.getByAssetId _, .ok rows⟩ => { g with found := some rows }
  | ⟨.refreshFaces _ _ _, .ok _⟩ => { g with settled := true }
  | ⟨.setFacesDetected _ _, .ok _⟩ => { g with counted := true }
  | _ => g

section Jobs

variable (detected : DetectedFaces) (assetId : AssetId)

def Detection.Permits (g : Detection) : FaceOp → Prop
  | .getByIdUnscoped id => id = assetId
  | .getByAssetId id => id = assetId
  | .refreshFaces facesToAdd faceIdsToRemove embeddingsToAdd => ∃ found ∈ g.found,
      Reconciling detected assetId found detected.faces ⟨facesToAdd, embeddingsToAdd,
        faceIdsToRemove⟩
  | .setFacesDetected id n => id = assetId ∧ n = detected.faces.length ∧ g.there = true ∧
      (g.settled = true ∨ ∃ found ∈ g.found, Complete detected found)
  | .reassignFaces _ _ => False
  | .reassignFacesOfPeople _ _ => False
  | .unassignByEvent _ => False
  | .deletePersons _ => False
  | _ => True

def detecting : Contract FaceOp FaceRes Detection where
  note := Detection.note
  expects _ e := match e with
    | ⟨.detectFaces _, .ok answer⟩ => answer = detected
    | ⟨.getByAssetId _, .ok rows⟩ => (rows.map AssetFace.id).Nodup
    | _ => True
  permits g o := g.ours = true → g.Permits detected assetId o

/-- A job that succeeds has counted the faces. -/
def Counts (_c : FaceCall) (value : FaceOutcome) (g : Detection) : Prop :=
  value = .ok .success → g.ours = true → g.counted = true

variable {detected assetId} {g : Detection}

theorem detecting_unbound {α : Type} (p : FaceProg α) {Q : α → Detection → Prop}
    (hQ : ∀ value g, g.ours = false → Q value g) (hg : g.ours = false) :
    (detecting detected assetId).Follows p Q g := by
  induction p generalizing g with
  | done value => exact hQ value g hg
  | perform o next ih =>
    refine ⟨fun h => ?_, fun r _ => ih r ?_⟩
    · rw [hg] at h
      cases h
    · change (Detection.note g ⟨o, r⟩).ours = false
      unfold Detection.note
      split <;> exact hg

theorem reconcile_follows {found : List AssetFace} {past rest : List DetectedFace}
    {acc : Reconciled}
    {α : Type} {f : Reconciled → Attempt α} {Q : Except FaceError α → Detection → Prop}
    (hapart : NonOverlapping detected) (hnodup : (found.map AssetFace.id).Nodup)
    (hsplit : detected.faces = past ++ rest)
    (hacc : Reconciling detected assetId found past acc)
    (h : ∀ acc, Reconciling detected assetId found detected.faces acc →
      (detecting detected assetId).Follows (f acc).run Q g) (herror : ∀ e g, Q (.error e) g) :
    (detecting detected assetId).Follows (reconcile assetId detected found rest acc >>= f).run
    Q g := by
  induction rest generalizing past acc with
  | nil =>
    rw [List.append_nil] at hsplit
    exact h acc (hsplit ▸ hacc)
  | cons d rest ih =>
    have hnext : detected.faces = (past ++ [d]) ++ rest := by
      rw [hsplit, List.append_assoc]
      rfl
    have hbefore : ∀ d' ∈ past, Apart d'.boundingBox d.boundingBox := by
      intro d' hd'
      unfold NonOverlapping at hapart
      rw [hsplit] at hapart
      exact (List.pairwise_append.mp hapart).2.2 d' hd' d List.mem_cons_self
    rw [reconcile, ← matched]
    cases hmatched : matched detected found d with
    | some stored =>
      have hleft := hacc.left_of_matched hbefore hmatched
      simp only
      rw [if_pos hleft]
      exact ih hnext (hacc.keep hnodup hmatched hleft)
    | none =>
      simp only [bind_assoc]
      refine follows_call (fun _ => trivial) (fun faceId _ => ?_) fun e _ => herror e _
      exact ih hnext (hacc.add faceId)

theorem detectFaces_follows (hapart : NonOverlapping detected) :
    (detecting detected assetId).Follows (handleDetectFaces assetId).run
    (Counts (.detectFaces assetId))
      g := by
  have herror : ∀ e g, Counts (.detectFaces assetId) (.error e) g := fun e g h => by cases h
  have hother : ∀ status g, status ≠ .success → Counts (.detectFaces assetId) (.ok status) g :=
    fun status g hne h => absurd (Except.ok.inj h) hne
  refine follows_call (fun _ => rfl) (fun asset _ => ?_) fun e _ => herror e _
  cases asset with
  | none => exact hother _ _ (by decide)
  | some asset =>
    refine follows_call (fun _ => trivial) (fun hasPreview _ => ?_) fun e _ => herror e _
    cases hasPreview with
    | false => exact hother _ _ (by decide)
    | true =>
      refine follows_call (fun _ => trivial) (fun config _ => ?_) fun e _ => herror e _
      refine follows_call (fun _ => trivial) (fun _ _ => ?_) fun e _ => herror e _
      refine follows_call (fun _ => trivial) (fun answer hanswer => ?_) fun e _ => herror e _
      cases (hanswer : answer = detected)
      refine follows_call (fun _ => rfl) (fun found hfound => ?_) fun e _ => herror e _
      have hnodup : (found.map AssetFace.id).Nodup := hfound
      refine reconcile_follows hapart hnodup rfl (reconciling_start hnodup)
        (fun acc hacc => ?_) herror
      have hrest : ∀ g : Detection, g.there = true →
          (g.settled = true ∨ ∃ found ∈ g.found, Complete detected found) →
          (detecting detected assetId).Follows (do
            call (.setFacesDetected assetId detected.faces.length)
            onlyIf (acc.facesToAdd ≠ []) (call (.queueAll (acc.facesToAdd.map
              (fun f => .faceRecognize f.id false) ++
                [.faceRecognizeQueueAll asset.eventId false, .participantRematch asset.eventId])))
            pure JobStatus.success : Attempt JobStatus).run (Counts (.detectFaces assetId)) g := by
        intro g hthere hsettled
        refine follows_call (fun _ => ⟨rfl, rfl, hthere, hsettled⟩) (fun _ _ => ?_) fun e _ =>
          herror e _
        unfold onlyIf
        split
        · exact follows_call (fun _ => trivial) (fun _ _ _ _ => rfl) fun e _ => herror e _
        · exact fun _ _ => rfl
      unfold onlyIf
      split
      · exact follows_call (fun _ => ⟨found, rfl, hacc⟩) (fun _ _ => hrest _ rfl (.inl rfl))
          fun e _ => herror e _
      · rename_i hnothing
        rw [not_or, not_or, not_not, not_not, not_not] at hnothing
        obtain ⟨hadd, hremove, -⟩ := hnothing
        refine hrest _ rfl (.inr ⟨found, rfl, ?_⟩)
        obtain ⟨fs, hstand, hperm⟩ := hacc.standing
        refine ⟨fs, hstand, ?_⟩
        rw [hadd, hremove, List.append_nil] at hperm
        rwa [List.filter_eq_self.mpr fun f _ => decide_eq_true List.not_mem_nil] at hperm

end Jobs

/-! What a refresh leaves. -/

section Refresh

variable {s s' : FaceStore} {assetId : AssetId} {facesToAdd : List AssetFace}
  {faceIdsToRemove : List FaceId} {embeddingsToAdd : List FaceSearch}

/-- What a refresh that went through has met. -/
theorem refreshFaces_eq_some
    (h : s.refreshFaces facesToAdd faceIdsToRemove embeddingsToAdd = some s') :
    (∀ f ∈ facesToAdd, ∀ row ∈ s.faces, row.id ≠ f.id) ∧ (facesToAdd.map AssetFace.id).Nodup ∧
      (∀ row ∈ embeddingsToAdd, ∀ old ∈ s.searches, old.faceId ≠ row.faceId) ∧
      (embeddingsToAdd.map FaceSearch.faceId).Nodup ∧
      s'.faces = s.faces.filter (fun f => f.id ∉ faceIdsToRemove) ++ facesToAdd ∧
      s'.searches = s.searches.filter (fun row => row.faceId ∉ faceIdsToRemove) ++ embeddingsToAdd ∧
      s'.assets = s.assets := by
  unfold FaceStore.refreshFaces at h
  split at h
  · rename_i hok
    cases h
    obtain ⟨hfaces, hnodup, hembeddings, hnodup'⟩ := hok
    refine ⟨fun f hf row hrow hid => ?_, hnodup, fun row hrow old hold hid => ?_, hnodup', rfl,
      rfl, rfl⟩
    · have hfresh := (of_decide_eq_true (List.all_eq_true.mp hfaces f hf)).2
      exact List.find?_eq_none.mp hfresh row hrow (decide_eq_true hid)
    · have hfresh := (of_decide_eq_true (List.all_eq_true.mp hembeddings row hrow)).1
      exact List.find?_eq_none.mp (Option.map_eq_none_iff.mp hfresh) old hold (decide_eq_true hid)
  · cases h

theorem refreshFaces_nodup (hkeys : (s.faces.map AssetFace.id).Nodup)
    (h : s.refreshFaces facesToAdd faceIdsToRemove embeddingsToAdd = some s') :
    (s'.faces.map AssetFace.id).Nodup := by
  obtain ⟨hfresh, hnodup, -, -, hfaces, -, -⟩ := refreshFaces_eq_some h
  rw [hfaces, List.map_append, List.nodup_append]
  refine ⟨hkeys.sublist (List.filter_sublist.map _), hnodup, fun i hi j hj hij => ?_⟩
  obtain ⟨row, hrow, rfl⟩ := List.mem_map.mp hi
  obtain ⟨f, hf, rfl⟩ := List.mem_map.mp hj
  exact hfresh f hf row (List.mem_filter.mp hrow).1 hij

theorem refreshFaces_getByAssetId (hadded : ∀ f ∈ facesToAdd, f.assetId = assetId ∧
    f.deleted = false)
    (h : s.refreshFaces facesToAdd faceIdsToRemove embeddingsToAdd = some s') :
    s'.getByAssetId assetId =
      (s.getByAssetId assetId).filter (fun f => f.id ∉ faceIdsToRemove) ++ facesToAdd := by
  obtain ⟨-, -, -, -, hfaces, -, -⟩ := refreshFaces_eq_some h
  rw [FaceStore.getByAssetId, hfaces, List.filter_append, FaceStore.getByAssetId,
    List.filter_filter,
    List.filter_filter]
  have hall : facesToAdd.filter (fun f => f.assetId = assetId ∧ f.deleted = false) = facesToAdd :=
    List.filter_eq_self.mpr fun f hf => decide_eq_true (hadded f hf)
  rw [hall]
  exact congrArg (· ++ facesToAdd) (List.filter_congr fun f _ => Bool.and_comm _ _)

theorem refreshFaces_embedded (hembedded : Embedded s assetId)
    (hadded : ∀ f ∈ facesToAdd, f.assetId = assetId ∧ f.deleted = false)
    (hids : embeddingsToAdd.map FaceSearch.faceId = facesToAdd.map AssetFace.id)
    (h : s.refreshFaces facesToAdd faceIdsToRemove embeddingsToAdd = some s') :
    Embedded s' assetId := by
  obtain ⟨hfresh, -, hnone, hnodup, -, hsearches, -⟩ := refreshFaces_eq_some h
  have hcount : ∀ id, embeddingsToAdd.countP (fun row => row.faceId = id) =
      (facesToAdd.map AssetFace.id).count id := by
    intro id
    rw [← hids, List.count_eq_countP, List.countP_map]
    exact List.countP_congr fun row _ => by simp
  intro f hf
  rw [refreshFaces_getByAssetId hadded h] at hf
  rw [hsearches, List.countP_append, hcount]
  rcases List.mem_append.mp hf with hf | hf
  · -- a face that stays keeps its embedding and gets no other
    obtain ⟨hlive, hkept⟩ := List.mem_filter.mp hf
    have hstays : f.id ∉ faceIdsToRemove := of_decide_eq_true hkept
    have hother : (facesToAdd.map AssetFace.id).count f.id = 0 := by
      refine List.count_eq_zero.mpr fun hin => ?_
      obtain ⟨new, hnew, hid⟩ := List.mem_map.mp hin
      exact hfresh new hnew f (List.mem_filter.mp hlive).1 hid.symm
    rw [hother, List.countP_filter, ← hembedded f hlive]
    refine List.countP_congr fun row _ => ?_
    simp only [Bool.and_eq_true, decide_eq_true_eq]
    exact ⟨fun hrow => hrow.1, fun hrow => ⟨hrow, hrow ▸ hstays⟩⟩
  · -- a new face gets one, and had none
    have hin : f.id ∈ facesToAdd.map AssetFace.id := List.mem_map_of_mem hf
    have hone : (facesToAdd.map AssetFace.id).count f.id = 1 :=
      List.count_eq_one_of_mem (hids ▸ hnodup) hin
    have hold : (s.searches.filter (fun row => row.faceId ∉ faceIdsToRemove)).countP
        (fun row => row.faceId = f.id) = 0 := by
      refine List.countP_eq_zero.mpr fun row hrow hid => ?_
      rw [← hids] at hin
      obtain ⟨new, hnew, hnewId⟩ := List.mem_map.mp hin
      exact hnone new hnew row (List.mem_filter.mp hrow).1
        ((of_decide_eq_true hid).trans hnewId.symm)
    omega

/-- A refresh of what was read leaves one face for each detection. -/
theorem refreshFaces_complete {detected : DetectedFaces}
    (hresult : Reconciling detected assetId (s.getByAssetId assetId) detected.faces
      ⟨facesToAdd, embeddingsToAdd, faceIdsToRemove⟩)
    (h : s.refreshFaces facesToAdd faceIdsToRemove embeddingsToAdd = some s') :
    Complete detected (s'.getByAssetId assetId) := by
  rw [refreshFaces_getByAssetId hresult.added h]
  exact hresult.standing

/-- A refresh with nothing left to do leaves the faces as they are. -/
theorem refreshFaces_idle
    (hgone : ∀ f ∈ s.faces, f.id ∉ faceIdsToRemove)
    (h : s.refreshFaces [] faceIdsToRemove [] = some s') :
    s'.getByAssetId assetId = s.getByAssetId assetId := by
  rw [refreshFaces_getByAssetId (fun f hf => absurd hf List.not_mem_nil) h, List.append_nil]
  exact List.filter_eq_self.mpr fun f hf => decide_eq_true (hgone f (List.mem_filter.mp hf).1)

end Refresh

/-! Jobs side by side. -/

/-- What the jobs have read is still stored, or the detections are. -/
structure Settling (detected : DetectedFaces) (assetId : AssetId) (N : Multiset Detection)
    (s : FaceStore) : Prop where
  keys : (s.faces.map AssetFace.id).Nodup
  embedded : Embedded s assetId
  there : ∀ g ∈ N, g.there = true → ∃ row ∈ s.assets, row.id = assetId
  found : ∀ g ∈ N, ∀ found ∈ g.found, s.getByAssetId assetId = found ∨
    Complete detected (s.getByAssetId assetId)
  settled : ∀ g ∈ N, g.settled = true → Complete detected (s.getByAssetId assetId)
  counted :
    ∀ g ∈ N, g.counted = true → Complete detected (s.getByAssetId assetId) ∧ g.there = true ∧
    ∀ row ∈ s.assets, row.id = assetId → row.faceCount = some detected.faces.length

section Steps

variable {detected : DetectedFaces} {assetId : AssetId} {N : Multiset Detection} {g g' : Detection}
  {s s' : FaceStore} {distance : Embedding → Embedding → ℚ}

/-- A statement that touches neither faces nor assets, and what the job notes of
it. -/
theorem Settling.aside (h : Settling detected assetId (g ::ₘ N) s) (hfaces : s'.faces = s.faces)
    (hsearches : s'.searches = s.searches) (hassets : s'.assets = s.assets)
    (hthere : g'.there = true → ∃ row ∈ s.assets, row.id = assetId)
    (hfound : ∀ found ∈ g'.found, s.getByAssetId assetId = found ∨
      Complete detected (s.getByAssetId assetId))
    (hsettled : g'.settled = true → g.settled = true)
    (hcounted : g'.counted = true → g.counted = true ∧ g'.there = true) :
    Settling detected assetId (g' ::ₘ N) s' := by
  have hlive : s'.getByAssetId assetId = s.getByAssetId assetId := by
    rw [FaceStore.getByAssetId, hfaces]
    rfl
  have hme := Multiset.mem_cons_self g N
  refine ⟨hfaces ▸ h.keys, ?_, fun k hk hk' => ?_, fun k hk found hk' => ?_, fun k hk hk' => ?_,
    fun k hk hk' => ?_⟩
  · unfold Embedded
    rw [hlive, hsearches]
    exact h.embedded
  · rw [hassets]
    rcases Multiset.mem_cons.mp hk with rfl | hk
    · exact hthere hk'
    · exact h.there k (Multiset.mem_cons_of_mem hk) hk'
  · rw [hlive]
    rcases Multiset.mem_cons.mp hk with rfl | hk
    · exact hfound found hk'
    · exact h.found k (Multiset.mem_cons_of_mem hk) found hk'
  · rw [hlive]
    rcases Multiset.mem_cons.mp hk with rfl | hk
    · exact h.settled g hme (hsettled hk')
    · exact h.settled k (Multiset.mem_cons_of_mem hk) hk'
  · rw [hlive, hassets]
    rcases Multiset.mem_cons.mp hk with rfl | hk
    · obtain ⟨hcounted', hthere'⟩ := hcounted hk'
      obtain ⟨hcomplete, -, hrows⟩ := h.counted g hme hcounted'
      exact ⟨hcomplete, hthere', hrows⟩
    · exact h.counted k (Multiset.mem_cons_of_mem hk) hk'

theorem Settling.refresh (h : Settling detected assetId (g ::ₘ N) s) {facesToAdd : List AssetFace}
    {faceIdsToRemove : List FaceId} {embeddingsToAdd : List FaceSearch} {found : List AssetFace}
    (hread : g.found = some found)
    (hresult : Reconciling detected assetId found detected.faces
      ⟨facesToAdd, embeddingsToAdd, faceIdsToRemove⟩)
    (hcurrent : s.getByAssetId assetId = found ∨
      facesToAdd = [] ∧ embeddingsToAdd = [] ∧ ∀ f ∈ s.faces, f.id ∉ faceIdsToRemove)
    (hrefresh : s.refreshFaces facesToAdd faceIdsToRemove embeddingsToAdd = some s') :
    Settling detected assetId ({ g with settled := true } ::ₘ N) s' := by
  have hme := Multiset.mem_cons_self g N
  have hcomplete : Complete detected (s'.getByAssetId assetId) := by
    rcases h.found g hme found hread with hsame | hbefore
    · rw [← hsame] at hresult
      exact refreshFaces_complete hresult hrefresh
    · rcases hcurrent with hsame | ⟨rfl, rfl, hgone⟩
      · rw [← hsame] at hresult
        exact refreshFaces_complete hresult hrefresh
      · rw [refreshFaces_idle hgone hrefresh]
        exact hbefore
  obtain ⟨-, -, -, -, -, -, hassets⟩ := refreshFaces_eq_some hrefresh
  have hcases : ∀ k ∈ { g with settled := true } ::ₘ N, ∃ k₀ ∈ g ::ₘ N,
      k₀.there = k.there ∧ k₀.counted = k.counted := by
    intro k hk
    rcases Multiset.mem_cons.mp hk with rfl | hk
    · exact ⟨g, hme, rfl, rfl⟩
    · exact ⟨k, Multiset.mem_cons_of_mem hk, rfl, rfl⟩
  refine ⟨refreshFaces_nodup h.keys hrefresh,
    refreshFaces_embedded h.embedded hresult.added hresult.embeddings hrefresh, fun k hk hk' => ?_,
    fun _ _ _ _ => .inr hcomplete, fun _ _ _ => hcomplete, fun k hk hk' => ?_⟩
  · obtain ⟨k₀, hk₀, hsame, -⟩ := hcases k hk
    rw [hassets]
    exact h.there k₀ hk₀ (hsame.trans hk')
  · obtain ⟨k₀, hk₀, hthere, hsame⟩ := hcases k hk
    obtain ⟨-, hthere', hrows⟩ := h.counted k₀ hk₀ (hsame.trans hk')
    rw [hassets]
    exact ⟨hcomplete, hthere ▸ hthere', hrows⟩

theorem Settling.count (h : Settling detected assetId (g ::ₘ N) s) (hthere : g.there = true)
    (hready : g.settled = true ∨ ∃ found ∈ g.found, Complete detected found) :
    Settling detected assetId ({ g with counted := true } ::ₘ N)
      (s.setFacesDetected assetId detected.faces.length) := by
  have hme := Multiset.mem_cons_self g N
  have hcomplete : Complete detected (s.getByAssetId assetId) := by
    rcases hready with hsettled | ⟨found, hread, hcomplete⟩
    · exact h.settled g hme hsettled
    · rcases h.found g hme found hread with hsame | hbefore
      · rw [hsame]
        exact hcomplete
      · exact hbefore
  have hrows : ∀ row ∈ (s.setFacesDetected assetId detected.faces.length).assets, row.id = assetId →
      row.faceCount = some detected.faces.length := by
    intro row hrow hid
    obtain ⟨before, -, rfl⟩ := List.mem_map.mp hrow
    split at hid
    · rename_i hpicked
      rw [if_pos hpicked]
    · rename_i hpicked
      exact absurd hid hpicked
  have hthereAfter : ∀ k : Detection, (∃ row ∈ s.assets, row.id = assetId) →
      ∃ row ∈ (s.setFacesDetected assetId detected.faces.length).assets, row.id = assetId := by
    rintro k ⟨row, hrow, hid⟩
    refine ⟨_, List.mem_map_of_mem hrow, ?_⟩
    split <;> exact hid
  have hcases : ∀ k ∈ { g with counted := true } ::ₘ N, ∃ k₀ ∈ g ::ₘ N,
      k₀.there = k.there ∧ k₀.found = k.found ∧ (k.counted = true → k.there = true) := by
    intro k hk
    rcases Multiset.mem_cons.mp hk with rfl | hk
    · exact ⟨g, hme, rfl, rfl, fun _ => hthere⟩
    · exact ⟨k, Multiset.mem_cons_of_mem hk, rfl, rfl, fun hc =>
        (h.counted k (Multiset.mem_cons_of_mem hk) hc).2.1⟩
  refine ⟨h.keys, h.embedded, fun k hk hk' => ?_, fun _ _ _ _ => .inr hcomplete,
    fun _ _ _ => hcomplete, fun k hk hk' => ?_⟩
  · obtain ⟨k₀, hk₀, hsame, -⟩ := hcases k hk
    exact hthereAfter k (h.there k₀ hk₀ (hsame.trans hk'))
  · obtain ⟨k₀, -, -, -, hlater⟩ := hcases k hk
    exact ⟨hcomplete, hlater hk', hrows⟩

/-- Each statement of a job keeps it so. -/
theorem Settling.statement (h : Settling detected assetId (g ::ₘ N) s) {o : FaceOp}
    (hpermit : g.Permits detected assetId o) {proposed answer : FaceAnswer o}
    (hstatement : statement distance o proposed s = some (answer, s'))
    (hcurrent : ∀ facesToAdd faceIdsToRemove embeddingsToAdd,
      o = .refreshFaces facesToAdd faceIdsToRemove embeddingsToAdd →
        g.found = some (s.getByAssetId assetId) ∨
          facesToAdd = [] ∧ embeddingsToAdd = [] ∧ ∀ f ∈ s.faces, f.id ∉ faceIdsToRemove) :
    Settling detected assetId (g.note ⟨o, .ok answer⟩ ::ₘ N) s' := by
  have hme := Multiset.mem_cons_self g N
  have hkeep : ∀ s', s'.faces = s.faces → s'.searches = s.searches → s'.assets = s.assets →
      Settling detected assetId (g ::ₘ N) s' := fun s' hfaces hsearches hassets =>
    h.aside hfaces hsearches hassets (h.there g hme) (h.found g hme) id
      fun hc => ⟨hc, (h.counted g hme hc).2.1⟩
  cases o with
  | getByIdUnscoped id =>
    cases hstatement
    cases (hpermit : id = assetId)
    cases hfound : s.getByIdUnscoped assetId with
    | none => exact h
    | some asset =>
      obtain ⟨hmem, hid⟩ := FaceStore.asset_mem (Option.filter_eq_some_iff.mp hfound).1
      exact h.aside rfl rfl rfl (fun _ => ⟨asset, hmem, hid⟩) (h.found g hme) id fun hc => ⟨hc, rfl⟩
  | getByAssetId id =>
    cases hstatement
    cases (hpermit : id = assetId)
    refine h.aside rfl rfl rfl (h.there g hme) (fun found hfound => .inl ?_) id
      fun hc => ⟨hc, (h.counted g hme hc).2.1⟩
    exact Option.some.inj hfound
  | refreshFaces facesToAdd faceIdsToRemove embeddingsToAdd =>
    obtain ⟨after, hafter, heq⟩ := Option.map_eq_some_iff.mp hstatement
    cases heq
    obtain ⟨found, hread, hresult⟩ := hpermit
    refine h.refresh hread hresult ((hcurrent _ _ _ rfl).imp_left fun hsame => ?_) hafter
    exact Option.some.inj (hsame.symm.trans hread)
  | setFacesDetected id n =>
    cases hstatement
    obtain ⟨rfl, rfl, hthere, hready⟩ := hpermit
    exact h.count hthere hready
  | reassignFaces faceIds personId => exact absurd hpermit id
  | reassignFacesOfPeople targetId sourceIds => exact absurd hpermit id
  | unassignByEvent eventId => exact absurd hpermit id
  | deletePersons ids => exact absurd hpermit id
  | queueAll items =>
    cases hstatement
    obtain ⟨jobs, hjobs⟩ := queueAll_jobs (s := s) items
    rw [hjobs]
    exact hkeep _ rfl rfl rfl
  | createPerson eventId orgId faceId =>
    have hcreate : s.createPerson eventId orgId faceId = some (answer, s') := hstatement
    unfold FaceStore.createPerson at hcreate
    split at hcreate
    · cases hcreate
    · cases hcreate
      exact hkeep _ rfl rfl rfl
  | setCover eventId personId faceId =>
    obtain ⟨after, hafter, heq⟩ := Option.map_eq_some_iff.mp hstatement
    cases heq
    unfold FaceStore.setCover at hafter
    split at hafter
    · cases hafter
    · cases hafter
      exact hkeep _ rfl rfl rfl
  | insertMatches inserts =>
    have hinsert : s.insertMatches inserts = some (answer, s') := hstatement
    unfold FaceStore.insertMatches at hinsert
    split at hinsert
    · cases hinsert
      exact hkeep _ rfl rfl rfl
    · cases hinsert
  | _ =>
    cases hstatement
    exact hkeep _ rfl rfl rfl

end Steps

/-- A job of this asset is bound by the contract. -/
def Detection.first (assetId : AssetId) (c : FaceCall) : Detection :=
  { ours := c = .detectFaces assetId }

theorem notes_detection (detected : DetectedFaces) (assetId : AssetId) (t : FaceThread) :
    (t.notes (detecting detected assetId) (Detection.first assetId)).ours =
        decide (t.call = .detectFaces assetId) ∧
      (t.notes (detecting detected assetId) (Detection.first assetId)).found = foundBy t := by
  have hstep : ∀ (g : Detection) (e : FaceEvent),
      (g.note e).ours = g.ours ∧ (g.note e).found = (foundIn e).or g.found := by
    intro g ⟨o, r⟩
    cases r with
    | error e => cases o <;> exact ⟨rfl, rfl⟩
    | ok answer =>
      cases o with
      | getByIdUnscoped id => cases answer <;> exact ⟨rfl, rfl⟩
      | _ => exact ⟨rfl, rfl⟩
  have hfold : ∀ (es : List FaceEvent) (g : Detection), (es.foldl Detection.note g).ours = g.ours ∧
      (es.foldl Detection.note g).found = (es.reverse.findSome? foundIn).or g.found := by
    intro es
    induction es using List.reverseRecOn with
    | nil => exact fun g => ⟨rfl, rfl⟩
    | append_singleton es e ih =>
      intro g
      obtain ⟨hours, hfound⟩ := ih g
      obtain ⟨hours', hfound'⟩ := hstep (es.foldl Detection.note g) e
      rw [List.foldl_append, List.reverse_append]
      refine ⟨hours'.trans hours, hfound'.trans ?_⟩
      rw [hfound, ← Option.or_assoc]
      have hlast : ([e].reverse ++ es.reverse).findSome? foundIn =
          (foundIn e).or (es.reverse.findSome? foundIn) := by
        change (e :: es.reverse).findSome? foundIn = _
        rw [List.findSome?_cons]
        cases foundIn e <;> rfl
      rw [hlast]
  obtain ⟨hours, hfound⟩ := hfold t.past (Detection.first assetId t.call)
  exact ⟨hours, hfound.trans Option.or_none⟩

theorem settling_preserved (pages : ℕ) (distance : Embedding → Embedding → ℚ)
    (detected : DetectedFaces) (assetId : AssetId) :
    Preserves (faceServer distance pages)
      (fun p t e => Detecting detected assetId p t e ∧ UpToDate assetId p t e)
      (detecting detected assetId)
      (Detection.first assetId) Counts (Settling detected assetId) where
  accept c N s s' h hs := by
    cases hs
    refine ⟨h.keys, h.embedded, fun k hk hk' => ?_, fun k hk found hk' => ?_, fun k hk hk' => ?_,
      fun k hk hk' => ?_⟩ <;> rcases Multiset.mem_cons.mp hk with rfl | hk
    · cases hk'
    · exact h.there k hk hk'
    · cases hk'
    · exact h.found k hk found hk'
    · cases hk'
    · exact h.settled k hk hk'
    · cases hk'
    · exact h.counted k hk hk'
  perform p t N o r hnotes h hpermit hP := by
    obtain ⟨hours, hfound⟩ := notes_detection detected assetId t
    generalize t.notes (detecting detected assetId) (Detection.first assetId) = g at *
    obtain ⟨⟨hcall, hsame⟩, hcurrent⟩ := hP
    have hallowed : g.Permits detected assetId o := hpermit (hours.trans (decide_eq_true hcall))
    have hhandler :
      (faceServer distance pages).handler o r p.state = faceHandler distance o r p.state := rfl
    rw [hhandler] at hsame
    change UpToDate assetId p t ⟨o, (faceHandler distance o r p.state).1⟩ at hcurrent
    change (detecting detected assetId).expects g ⟨o, (faceHandler distance o r p.state).1⟩ ∧
      Settling detected assetId (g.note ⟨o, (faceHandler distance o r p.state).1⟩ ::ₘ N)
        (faceHandler distance o r p.state).2
    rcases faceHandler_cases distance o r p.state with ⟨e, hfailed⟩ |
      ⟨proposed, answer, s', -, hs, hdone⟩
    · rw [hfailed]
      have hnothing : g.note ⟨o, .error e⟩ = g := by cases o <;> rfl
      rw [hnothing]
      refine ⟨?_, h⟩
      cases o <;> trivial
    · rw [hdone] at hsame hcurrent ⊢
      refine ⟨?_, h.statement hallowed hs fun facesToAdd faceIdsToRemove embeddingsToAdd heq => ?_⟩
      · cases o with
        | detectFaces id => exact hsame
        | getByAssetId id =>
          cases hs
          exact h.keys.sublist (List.filter_sublist.map _)
        | _ => trivial
      · cases heq
        rw [hfound]
        exact hcurrent
  release _ _ _ _ _ _ _ _ _ hs := by cases hs

/-- Jobs that refresh what they have read leave one face with one embedding for
each detection, and their number. -/
theorem detected_once (pages : ℕ) (distance : Embedding → Embedding → ℚ) {detected : DetectedFaces}
    {assetId : AssetId} {s : FaceStore} {p : FacePool} (hapart : NonOverlapping detected)
    (hkeys : (s.faces.map AssetFace.id).Nodup) (hembedded : Embedded s assetId)
    (h : (faceServer distance pages).Reaches
      (fun p t e => Detecting detected assetId p t e ∧ UpToDate assetId p t e) ⟨[], s⟩ p)
    (hdone : ∃ t ∈ p.threads, t.call = .detectFaces assetId ∧ returned t = some (.ok .success)) :
    DetectedOnce detected assetId p.state := by
  have hcalls :
    ∀ c, (detecting detected assetId).Follows ((faceServer distance pages).prog c) (Counts c)
      (Detection.first assetId c) := by
    intro c
    by_cases hc : c = .detectFaces assetId
    · subst hc
      exact detectFaces_follows hapart
    · refine detecting_unbound _ (fun value g hg _ hours => ?_) (decide_eq_false hc)
      rw [hg] at hours
      cases hours
  have hstart : Settling detected assetId 0 s :=
    { keys := hkeys
      embedded := hembedded
      there := fun g hg => absurd hg (Multiset.notMem_zero g)
      found := fun g hg => absurd hg (Multiset.notMem_zero g)
      settled := fun g hg => absurd hg (Multiset.notMem_zero g)
      counted := fun g hg => absurd hg (Multiset.notMem_zero g) }
  obtain ⟨hobeys, hsettling⟩ :=
    h.invariant hcalls (settling_preserved pages distance detected assetId) rfl hstart
  obtain ⟨t, ht, hcall, hreturned⟩ := hdone
  have hobey := hobeys t ht
  obtain ⟨hours, -⟩ := notes_detection detected assetId t
  have hmem : t.notes (detecting detected assetId) (Detection.first assetId) ∈
      notesOf (detecting detected assetId) (Detection.first assetId) p.threads :=
    mem_notesOf.mpr ⟨t, ht, rfl⟩
  have hcounted :
    (t.notes (detecting detected assetId) (Detection.first assetId)).counted = true := by
    unfold returned at hreturned
    unfold Thread.Obeys at hobey
    cases hrest : t.rest with
    | done value =>
      rw [hrest] at hreturned hobey
      exact hobey (Option.some.inj hreturned) (hours.trans (decide_eq_true hcall))
    | perform o next =>
      rw [hrest] at hreturned
      cases hreturned
  obtain ⟨hcomplete, hthere, hrows⟩ := hsettling.counted _ hmem hcounted
  refine ⟨hcomplete, hsettling.embedded, ?_⟩
  obtain ⟨row, hrow, hid⟩ := hsettling.there _ hmem hthere
  cases hasset : p.state.asset assetId with
  | none => exact absurd (decide_eq_true hid) (List.find?_eq_none.mp hasset row hrow)
  | some asset =>
    obtain ⟨hmem, hid⟩ := FaceStore.asset_mem hasset
    exact congrArg some (hrows asset hmem hid)

/-! Two jobs for a photo with one face. -/

theorem onePhoto_embedded : Embedded onePhoto 0 := by decide

/-- The second job reads what the first one has stored. -/
def detectedInTurn : List FaceMove :=
  .start (.detectFaces 0) :: advancing ⟨1, 1⟩ oneFace 0 10 ++
    .start (.detectFaces 0) :: advancing ⟨1, 1⟩ oneFace 1 7

/-- Both jobs read before either of them stores. -/
def detectedMeanwhile : List FaceMove :=
  .start (.detectFaces 0) :: advancing ⟨1, 1⟩ oneFace 0 7 ++
    .start (.detectFaces 0) :: advancing ⟨1, 1⟩ oneFace 1 10 ++ advancing ⟨1, 1⟩ oneFace 0 3

theorem detected_once_inTurn :
    ∃ p, (faceServer (fun _ _ => 0) 0).play
        (fun p t e => Detecting oneFace 0 p t e ∧ UpToDate 0 p t e) detectedInTurn ⟨[], onePhoto⟩ =
        some p ∧
      (∀ t ∈ p.threads, returned t = some (.ok .success)) ∧ DetectedOnce oneFace 0 p.state := by
  have hrun : ((faceServer (fun _ _ => 0) 0).play
      (fun p t e => Detecting oneFace 0 p t e ∧ UpToDate 0 p t e) detectedInTurn ⟨[], onePhoto⟩).map
        (fun p => p.threads.map fun t => (t.call, returned t)) =
          some [(.detectFaces 0, some (.ok .success)), (.detectFaces 0, some (.ok .success))] := by
    decide +kernel
  obtain ⟨p, hplay, hthreads⟩ := Option.map_eq_some_iff.mp hrun
  have hall : ∀ t ∈ p.threads, t.call = .detectFaces 0 ∧ returned t = some (.ok .success) := by
    intro t ht
    have hmem := List.mem_map_of_mem (f := fun t => (t.call, returned t)) ht
    rw [hthreads] at hmem
    simpa using hmem
  have hdone : ∃ t ∈ p.threads, t.call = .detectFaces 0 ∧ returned t = some (.ok .success) := by
    have hne : p.threads ≠ [] := by
      intro hnil
      rw [hnil] at hthreads
      cases hthreads
    obtain ⟨t, ht⟩ := List.exists_mem_of_ne_nil _ hne
    exact ⟨t, ht, hall t ht⟩
  exact ⟨p, hplay, fun t ht => (hall t ht).2, detected_once 0 _ (by decide) onePhoto_keyed.faces onePhoto_embedded
    (Server.Reaches.start.play detectedInTurn hplay) hdone⟩

/-- Jobs that overlap may store a face twice. -/
theorem not_detected_once : ¬ ∀ pages distance detected assetId s p, NonOverlapping detected →
    (s.faces.map AssetFace.id).Nodup → Embedded s assetId →
    (faceServer distance pages).Reaches (Detecting detected assetId) ⟨[], s⟩ p → p.threads ≠ [] →
    (∀ t ∈ p.threads, t.call = .detectFaces assetId ∧ returned t = some (.ok .success)) →
    DetectedOnce detected assetId p.state := by
  intro h
  let p := ((faceServer (fun _ _ => 0) 0).play (Detecting oneFace 0) detectedMeanwhile
    ⟨[], onePhoto⟩).get (by decide)
  have hplay : (faceServer (fun _ _ => 0) 0).play (Detecting oneFace 0) detectedMeanwhile
      ⟨[], onePhoto⟩ = some p := (Option.some_get _).symm
  have hrest : ∀ t ∈ p.threads, t.call = .detectFaces 0 ∧ returned t = some (.ok .success) := by
    decide
  have hsome : 0 < p.threads.length := by decide
  obtain ⟨⟨fs, hstand, hperm⟩, -, -⟩ := h 0 _ oneFace 0 onePhoto p (by decide) onePhoto_keyed.faces
    onePhoto_embedded (Server.Reaches.start.play detectedMeanwhile hplay)
    (List.ne_nil_of_length_pos hsome) hrest
  have htwo : (p.state.getByAssetId 0).length = 2 := by decide
  have hone : fs.length = 1 := hstand.length_eq.symm
  rw [← hperm.length_eq, hone] at htwo
  omega

end EventLens.Faces
