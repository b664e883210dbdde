import EventLens.Clustering
import EventLens.FaceTurns

/-!
Clustering of an event from scratch. Forced re-clustering takes the persons off
its faces and queues each of them once; recognition then handles the queue in
order. A window that is not full holds every near face, so each job is a step of
clustering from a queue, and what that guarantees holds of the persons.
-/

namespace EventLens.Faces

open Programs Clustering

/-- The embedding of a live face of the event. -/
def FaceStore.clusterable (s : FaceStore) (eventId : EventId) (x : FaceId) : Option Embedding := do
  let f ← s.face x
  let a ← s.asset f.assetId
  let embedding ← s.embedding x
  if a.eventId = eventId ∧ a.deleted = false ∧ f.deleted = false then pure embedding else none

/-- Two faces of the event are within a distance. -/
def FaceStore.near (s : FaceStore) (distance : Embedding → Embedding → ℚ) (eventId : EventId)
    (maxDistance : ℚ) (x y : FaceId) : Prop :=
  ∃ v ∈ s.clusterable eventId x, ∃ w ∈ s.clusterable eventId y, distance w v ≤ maxDistance

instance (s : FaceStore) (distance : Embedding → Embedding → ℚ) (eventId : EventId)
    (maxDistance : ℚ)
    (x y : FaceId) : Decidable (s.near distance eventId maxDistance x y) := by
  unfold FaceStore.near
  infer_instance

/-- At least `minFaces` faces, itself included, are within the distance. -/
def FaceStore.core (s : FaceStore) (distance : Embedding → Embedding → ℚ) (eventId : EventId)
    (config : FacialRecognitionConfig) (x : FaceId) : Prop :=
  config.minFaces ≤ s.faces.countP (fun f => s.near distance eventId config.maxDistance x f.id)

def FaceStore.personOf (s : FaceStore) (x : FaceId) : Option PersonId :=
  (s.face x).bind AssetFace.personId

/-- The persons of the event's faces, and the faces persons were founded for. -/
def FaceStore.labels (s : FaceStore) (eventId : EventId) : Labels FaceId PersonId where
  label x := (s.clusterable eventId x).bind (fun _ => s.personOf x)
  founders := s.persons.filterMap (fun p => p.faceAssetFaceId.map (fun f => (f, p.id)))

/-- The same faces with the same embeddings, possibly of other persons. -/
structure SamePhotos (s s' : FaceStore) : Prop where
  faces : ∃ g : AssetFace → AssetFace, s'.faces = s.faces.map g ∧
    ∀ f, ∃ p, g f = { f with personId := p }
  assets : s'.assets = s.assets
  searches : s'.searches = s.searches

section Same

variable {s s' s'' : FaceStore} {distance : Embedding → Embedding → ℚ} {eventId : EventId}

theorem samePhotos_aside (hfaces : s'.faces = s.faces) (hassets : s'.assets = s.assets)
    (hsearches : s'.searches = s.searches) : SamePhotos s s' := by
  refine ⟨⟨id, ?_, fun f => ⟨f.personId, rfl⟩⟩, hassets, hsearches⟩
  rw [hfaces, List.map_id]

theorem SamePhotos.trans (h : SamePhotos s s') (h' : SamePhotos s' s'') : SamePhotos s s'' := by
  obtain ⟨⟨g, hfaces, hg⟩, hassets, hsearches⟩ := h
  obtain ⟨⟨g', hfaces', hg'⟩, hassets', hsearches'⟩ := h'
  refine ⟨⟨g' ∘ g, ?_, fun f => ?_⟩, hassets'.trans hassets, hsearches'.trans hsearches⟩
  · rw [hfaces', hfaces, List.map_map]
  · obtain ⟨p, hp⟩ := hg f
    obtain ⟨q, hq⟩ := hg' (g f)
    refine ⟨q, hq.trans ?_⟩
    rw [hp]

theorem SamePhotos.face (h : SamePhotos s s') (x : FaceId) :
    ∃ g : AssetFace → AssetFace, s'.face x = (s.face x).map g ∧ ∀ f, ∃ p, g f = { f with personId :=
    p } := by
  obtain ⟨⟨g, hfaces, hg⟩, -, -⟩ := h
  refine ⟨g, ?_, hg⟩
  have hid : ∀ f, (g f).id = f.id := fun f => by
    obtain ⟨p, hp⟩ := hg f
    rw [hp]
  rw [FaceStore.face, hfaces, find?_map_id hid]
  rfl

theorem SamePhotos.clusterable (h : SamePhotos s s') (x : FaceId) :
    s'.clusterable eventId x = s.clusterable eventId x := by
  obtain ⟨g, hface, hg⟩ := h.face x
  unfold FaceStore.clusterable FaceStore.asset FaceStore.embedding
  rw [hface, h.assets, h.searches]
  cases s.face x with
  | none => rfl
  | some f =>
    obtain ⟨p, hp⟩ := hg f
    simp only [Option.map_some, Option.bind_eq_bind, Option.bind_some, hp]

theorem SamePhotos.near (h : SamePhotos s s') (maxDistance : ℚ) :
    s'.near distance eventId maxDistance = s.near distance eventId maxDistance := by
  funext x y
  unfold FaceStore.near
  rw [h.clusterable, h.clusterable]

theorem SamePhotos.ids (h : SamePhotos s s') :
    s'.faces.map AssetFace.id = s.faces.map AssetFace.id := by
  obtain ⟨⟨g, hfaces, hg⟩, -, -⟩ := h
  rw [hfaces]
  refine map_id_map (fun f => ?_) s.faces
  obtain ⟨p, hp⟩ := hg f
  rw [hp]

theorem SamePhotos.core (h : SamePhotos s s') (config : FacialRecognitionConfig) :
    s'.core distance eventId config = s.core distance eventId config := by
  have hcount : ∀ (rows : List AssetFace) (q : FaceId → Bool), rows.countP (fun f => q f.id) =
      (rows.map AssetFace.id).countP q := fun rows q => (List.countP_map (p := q)).symm
  funext x
  unfold FaceStore.core
  rw [hcount s'.faces (fun y => s'.near distance eventId config.maxDistance x y),
    hcount s.faces (fun y => s.near distance eventId config.maxDistance x y), h.ids]
  simp only [h.near]

end Same

/-! What a search finds. -/

section Search

variable {s : FaceStore} {distance : Embedding → Embedding → ℚ} {eventId : EventId} {x y : FaceId}
  {v : Embedding} {options : FaceSearchOptions} {choice : List FaceSearchResult}

theorem face_of_mem (hkeys : (s.faces.map AssetFace.id).Nodup) {f : AssetFace} (hf : f ∈ s.faces) :
    s.face f.id = some f := by
  cases hfound : s.face f.id with
  | none => exact absurd (decide_eq_true rfl) (List.find?_eq_none.mp hfound f hf)
  | some g =>
    obtain ⟨hmem, hid⟩ := FaceStore.face_mem hfound
    rw [eq_of_id hkeys hmem hf hid]

theorem clusterable_eq_some {w : Embedding} (h : s.clusterable eventId x = some w) :
    ∃ f a, s.face x = some f ∧ s.asset f.assetId = some a ∧ s.embedding x = some w ∧
      a.eventId = eventId ∧ a.deleted = false ∧ f.deleted = false := by
  unfold FaceStore.clusterable at h
  obtain ⟨f, hf, h⟩ := Option.bind_eq_some_iff.mp h
  obtain ⟨a, ha, h⟩ := Option.bind_eq_some_iff.mp h
  obtain ⟨w', hw', h⟩ := Option.bind_eq_some_iff.mp h
  split at h
  · rename_i hok
    cases h
    exact ⟨f, a, hf, ha, hw', hok⟩
  · cases h

theorem clusterable_of {f : AssetFace} {a : Asset} {w : Embedding} (hf : s.face x = some f)
    (ha : s.asset f.assetId = some a) (hw : s.embedding x = some w)
    (hlive : a.eventId = eventId ∧ a.deleted = false ∧ f.deleted = false) :
    s.clusterable eventId x = some w := by
  unfold FaceStore.clusterable
  simp only [hf, ha, hw, Option.bind_eq_bind, Option.bind_some]
  rw [if_pos hlive]
  rfl

theorem label_of_face {f : AssetFace} {w : Embedding} (hf : s.face y = some f)
    (hy : s.clusterable eventId y = some w) : (s.labels eventId).label y = f.personId := by
  change (s.clusterable eventId y).bind (fun _ => s.personOf y) = f.personId
  rw [hy, FaceStore.personOf, hf]
  rfl

theorem distance_le_of_key (hits : List FaceSearchResult) (maxDistance : ℚ) (a b : FaceSearchResult)
    (h : toLex (a.distance, hits.idxOf a) ≤ toLex (b.distance, hits.idxOf b))
    (hb : decide (b.distance ≤ maxDistance) = true) : decide (a.distance ≤ maxDistance) = true := by
  refine decide_eq_true (le_trans ?_ (of_decide_eq_true hb))
  rcases Prod.Lex.toLex_le_toLex.mp h with hlt | ⟨heq, -⟩
  · exact hlt.le
  · exact heq.le

/-- What a search for a face finds is near it, with the person it has. -/
theorem near_of_hit (hkeys : (s.faces.map AssetFace.id).Nodup)
    (hx : s.clusterable eventId x = some v)
    (hevent : options.eventId = eventId) (hembedding : options.embedding = v)
    {hit : FaceSearchResult}
    (hhit : hit ∈ s.searchFaces distance options choice) :
    s.near distance eventId options.maxDistance x hit.id ∧
      (s.labels eventId).label hit.id = hit.personId ∧
        (options.hasPerson = true → hit.personId ≠ none) := by
  obtain ⟨hitem, hclose⟩ := Nearest.mem_of_window hhit
  obtain ⟨f, hf, hcandidate⟩ := List.mem_filterMap.mp hitem
  obtain ⟨a, w, ha, hw, ⟨haevent, hadeleted, hfdeleted, hperson⟩, rfl⟩ :=
    candidate_eq_some hcandidate
  have hface := face_of_mem hkeys hf
  have hy : s.clusterable eventId f.id = some w :=
    clusterable_of hface ha hw ⟨haevent.trans hevent, hadeleted, hfdeleted⟩
  have hle := of_decide_eq_true hclose
  simp only [hembedding] at hle
  exact ⟨⟨v, hx, w, hy, hle⟩, label_of_face hface hy, hperson⟩

/-- A face near another is a candidate of its search. -/
theorem candidate_of_near (hx : s.clusterable eventId x = some v)
    (hevent : options.eventId = eventId)
    (hembedding : options.embedding = v) (hy : s.near distance eventId options.maxDistance x y)
    (hperson : options.hasPerson = true → (s.labels eventId).label y ≠ none) :
    ∃ hit ∈ s.faces.filterMap (s.candidate distance options), hit.id = y ∧
      hit.distance ≤ options.maxDistance := by
  obtain ⟨v', hv', w, hw, hle⟩ := hy
  cases hx.symm.trans hv'
  obtain ⟨f, a, hf, ha, hembedded, haevent, hadeleted, hfdeleted⟩ := clusterable_eq_some hw
  obtain ⟨hmem, rfl⟩ := FaceStore.face_mem hf
  rw [label_of_face hf hw] at hperson
  refine ⟨⟨f.id, f.personId, f.assetId, distance w options.embedding⟩, ?_, rfl, hembedding ▸ hle⟩
  refine List.mem_filterMap.mpr ⟨f, hmem, ?_⟩
  unfold FaceStore.candidate
  simp only [ha, hembedded, Option.bind_eq_bind, Option.bind_some]
  rw [if_pos ⟨haevent.trans hevent.symm, hadeleted, hfdeleted, hperson⟩]
  rfl

/-- A window that is not full holds every near face. -/
theorem hit_of_near (hx : s.clusterable eventId x = some v) (hevent : options.eventId = eventId)
    (hembedding : options.embedding = v)
    (hroom : (s.searchFaces distance options choice).length < options.numResults)
    (hy : s.near distance eventId options.maxDistance x y)
    (hperson : options.hasPerson = true → (s.labels eventId).label y ≠ none) :
    ∃ hit ∈ s.searchFaces distance options choice, hit.id = y := by
  obtain ⟨hit, hitem, hid, hle⟩ := candidate_of_near hx hevent hembedding hy hperson
  exact ⟨hit, Nearest.mem_window (distance_le_of_key choice options.maxDistance) hroom hitem
    (decide_eq_true hle), hid⟩

/-- A window is full exactly when there are enough near faces. -/
theorem full_iff (hkeys : (s.faces.map AssetFace.id).Nodup) (hx : s.clusterable eventId x = some v)
    (hevent : options.eventId = eventId) (hembedding : options.embedding = v)
    (hany : options.hasPerson = false) :
    options.numResults ≤ (s.searchFaces distance options choice).length ↔ options.numResults ≤
      s.faces.countP (fun f => s.near distance eventId options.maxDistance x f.id) := by
  have hcount : (s.faces.filterMap (s.candidate distance options)).countP
      (fun hit => hit.distance ≤ options.maxDistance) =
      s.faces.countP (fun f => s.near distance eventId options.maxDistance x f.id) := by
    rw [List.countP_filterMap]
    refine List.countP_congr fun f hf => ?_
    have hface := face_of_mem hkeys hf
    rw [decide_eq_true_eq]
    constructor
    · intro hany
      cases hcandidate : s.candidate distance options f with
      | none =>
        rw [hcandidate] at hany
        cases hany
      | some hit =>
        rw [hcandidate] at hany
        obtain ⟨a, w, ha, hw, ⟨haevent, hadeleted, hfdeleted, -⟩, rfl⟩ :=
          candidate_eq_some hcandidate
        have hle : distance w options.embedding ≤ options.maxDistance := of_decide_eq_true hany
        exact ⟨v, hx, w, clusterable_of hface ha hw ⟨haevent.trans hevent, hadeleted, hfdeleted⟩,
          hembedding ▸ hle⟩
    · rintro ⟨v', hv', w, hw, hle⟩
      cases hx.symm.trans hv'
      obtain ⟨g, a, hg, ha, hembedded, haevent, hadeleted, hfdeleted⟩ := clusterable_eq_some hw
      cases hface.symm.trans hg
      have hcandidate : s.candidate distance options f =
          some ⟨f.id, f.personId, f.assetId, distance w options.embedding⟩ := by
        unfold FaceStore.candidate
        simp only [ha, hembedded, Option.bind_eq_bind, Option.bind_some]
        rw [if_pos ⟨haevent.trans hevent.symm, hadeleted, hfdeleted, fun h => by
          rw [hany] at h; cases h⟩]
        rfl
      rw [hcandidate]
      exact decide_eq_true (hembedding ▸ hle)
  rw [← hcount]
  exact Nearest.le_length_window (distance_le_of_key choice options.maxDistance)

end Search

/-! A recognition job is a step of clustering. -/

/-- What the vector index computes. -/
structure IsDistance (distance : Embedding → Embedding → ℚ) : Prop where
  self : ∀ v, distance v v = 0
  nonneg : ∀ v w, 0 ≤ distance v w
  symm : ∀ v w, distance v w = distance w v

/-- The persons of faces exist. -/
def Referenced (s : FaceStore) : Prop :=
    ∀ f ∈ s.faces, ∀ p ∈ f.personId, ∃ row ∈ s.persons, row.id = p

/-- What a job for a face has done to the tables. -/
structure StepOf (distance : Embedding → Embedding → ℚ) (config : FacialRecognitionConfig)
    (eventId : EventId) (x : FaceId) (deferred : Bool) (s : FaceStore)
    (value : Except FaceError JobStatus) (s' : FaceStore) : Prop where
  returned : ∃ status, value = .ok status
  handled : ∃ added, Handles (s.near distance eventId config.maxDistance)
      (s.core distance eventId config) x deferred (s.labels eventId) (s'.labels eventId) added ∧
    s'.recognitions = s.recognitions ++ added
  photos : SamePhotos s s'
  referenced : Referenced s'
  kept : ∀ y p, s.personOf y = some p → s'.personOf y = some p

section Jobs

variable {s s' : FaceStore} {distance : Embedding → Embedding → ℚ}
  {config : FacialRecognitionConfig}
  {eventId : EventId} {x y : FaceId} {v : Embedding} {deferred : Bool}

theorem stepOf_same {status : JobStatus} (href : Referenced s)
    (h : Handles (s.near distance eventId config.maxDistance)
    (s.core distance eventId config) x deferred
      (s.labels eventId) (s.labels eventId) []) :
    StepOf distance config eventId x deferred s (.ok status) s :=
  ⟨⟨status, rfl⟩, ⟨[], h, (List.append_nil _).symm⟩, samePhotos_aside rfl rfl rfl, href,
    fun _ _ hp => hp⟩

/-- A face that is not one of the event's is left alone. -/
theorem handles_unclusterable (hsize : 1 ≤ config.minFaces) (hx : s.clusterable eventId x = none) :
    Handles (s.near distance eventId config.maxDistance) (s.core distance eventId config) x deferred
      (s.labels eventId) (s.labels eventId) [] := by
  have hfar : ∀ y, ¬ s.near distance eventId config.maxDistance x y := by
    rintro y ⟨v, hv, -⟩
    rw [hx] at hv
    cases hv
  refine Handles.skip ?_ ?_ fun y hy => absurd hy (hfar y)
  · change (s.clusterable eventId x).bind _ = none
    rw [hx]
    rfl
  · have hnone : s.faces.countP (fun f => s.near distance eventId config.maxDistance x f.id) = 0 :=
      List.countP_eq_zero.mpr fun f _ hnear => hfar f.id (of_decide_eq_true hnear)
    unfold FaceStore.core
    omega

/-- The person given to one face. -/
def FaceStore.give (s : FaceStore) (x : FaceId) (p : PersonId) : FaceStore :=
  { s with faces := s.faces.map (fun f => if f.id ∈ [x] then { f with personId := some p } else f) }

theorem give_samePhotos (x : FaceId) (p : PersonId) : SamePhotos s (s.give x p) := by
  refine ⟨⟨_, rfl, fun f => ?_⟩, rfl, rfl⟩
  split
  · exact ⟨some p, rfl⟩
  · exact ⟨f.personId, rfl⟩

theorem face_give (x : FaceId) (p : PersonId) (z : FaceId) : (s.give x p).face z = (s.face z).map
    (fun f => if f.id ∈ [x] then { f with personId := some p } else f) := by
  have hid :
    ∀ f : AssetFace, (if f.id ∈ [x] then { f with personId := some p } else f).id = f.id := by
    intro f
    split <;> rfl
  rw [FaceStore.face, FaceStore.give, find?_map_id hid]
  rfl

theorem personOf_give {p : PersonId} {z : FaceId} (hzx : z ≠ x) :
    (s.give x p).personOf z = s.personOf z := by
  rw [FaceStore.personOf, FaceStore.personOf, face_give]
  cases hf : s.face z with
  | none => rfl
  | some f =>
    obtain ⟨-, hid⟩ := FaceStore.face_mem hf
    simp [hid, hzx]

theorem labels_give {p : PersonId} (hx : s.clusterable eventId x = some v) :
    (s.give x p).labels eventId = (s.labels eventId).assign x p := by
  have hlabel : ((s.give x p).labels eventId).label = ((s.labels eventId).assign x p).label := by
    funext z
    change ((s.give x p).clusterable eventId z).bind (fun _ => (s.give x p).personOf z) = _
    rw [(give_samePhotos x p).clusterable]
    by_cases hzx : z = x
    · subst hzx
      rw [label_assign_self, hx, FaceStore.personOf, face_give]
      obtain ⟨f, -, hf, -⟩ := clusterable_eq_some hx
      obtain ⟨-, hid⟩ := FaceStore.face_mem hf
      simp [hf, hid]
    · rw [label_assign_of_ne hzx, personOf_give hzx]
      rfl
  exact congrArg (fun label => Labels.mk label ((s.labels eventId).founders)) hlabel

theorem reassign_give {p : PersonId} (hperson : ∃ row ∈ s.persons, row.id = p) :
    s.reassign (fun f => f.id ∈ [x]) p = some (s.give x p) := by
  unfold FaceStore.reassign
  rw [if_neg]
  · simp only [decide_eq_true_eq]
    rfl
  · rintro ⟨-, hnone⟩
    obtain ⟨row, hrow, hid⟩ := hperson
    exact List.find?_eq_none.mp hnone row hrow (decide_eq_true hid)

theorem give_referenced {p : PersonId} (href : Referenced s)
    (hperson : ∃ row ∈ s.persons, row.id = p) :
    Referenced (s.give x p) := by
  intro f hf q hq
  obtain ⟨before, hbefore, rfl⟩ := List.mem_map.mp hf
  split at hq
  · cases hq
    exact hperson
  · exact href before hbefore q hq

/-- The end of a job that has chosen a person. -/
theorem ends_give {s₁ : FaceStore} {p : PersonId} {nameEvent : EventId} (hphotos : SamePhotos s s₁)
    (hjobs : s₁.recognitions = s.recognitions) (href : Referenced s₁)
    (hsame : s₁.personOf = s.personOf) (hfree : (s.labels eventId).label x = none)
    (hperson : ∃ row ∈ s₁.persons, row.id = p) (hx : s.clusterable eventId x = some v)
    (h : Handles (s.near distance eventId config.maxDistance)
    (s.core distance eventId config) x deferred
      (s.labels eventId) ((s₁.labels eventId).assign x p) []) :
    Ends distance config (do
      call (.reassignFaces [x] p)
      swallow (call (.nameFromParticipants nameEvent p))
      pure JobStatus.success) s₁ (StepOf distance config eventId x deferred s) := by
  refine ends_call fun _ _ => ⟨(), s₁.give x p, ?_, ?_⟩
  · change (s₁.reassign (fun f => f.id ∈ [x]) p).map _ = _
    rw [reassign_give hperson]
    rfl
  refine ends_swallow fun answer _ => ⟨answer, s₁.give x p, rfl, ends_pure ?_⟩
  refine ⟨⟨.success, rfl⟩, ⟨[], ?_, ?_⟩, hphotos.trans (give_samePhotos x p),
    give_referenced href hperson, fun y q hq => ?_⟩
  · rw [labels_give ((hphotos.clusterable x).trans hx)]
    exact h
  · rw [List.append_nil]
    exact hjobs
  · have hyx : y ≠ x := by
      rintro rfl
      change (s.clusterable eventId y).bind (fun _ => s.personOf y) = none at hfree
      rw [hx, hq] at hfree
      cases hfree
    rw [personOf_give hyx, hsame]
    exact hq

theorem person_of_label {p : PersonId} (href : Referenced s)
    (h : (s.labels eventId).label y = some p) : ∃ row ∈ s.persons, row.id = p := by
  obtain ⟨w, hw, hp⟩ := Option.bind_eq_some_iff.mp h
  obtain ⟨f, hf, hp⟩ := Option.bind_eq_some_iff.mp hp
  exact href f (FaceStore.face_mem hf).1 p hp

/-- A search within an event, by options the guard lets through. -/
theorem ends_searchFaces {α : Type} {options : FaceSearchOptions}
    {f : List FaceSearchResult → Attempt α} {Q : Except FaceError α → FaceStore → Prop}
    (hsize : 1 ≤ options.numResults ∧ options.numResults ≤ 1000)
    (h : ∀ choice, Ends distance config (f (s.searchFaces distance options choice)) s Q) :
    Ends distance config (searchFaces options >>= f) s Q := by
  unfold searchFaces
  rw [if_neg (by omega)]
  exact ends_call fun choice _ => ⟨s.searchFaces distance options choice, s, rfl, h choice⟩

theorem queueAll_same (s : FaceStore) (eventId : EventId) (items : List FaceJob) :
    SamePhotos s (s.queueAll items) ∧
    (s.queueAll items).persons = s.persons ∧
    (s.queueAll items).labels eventId = s.labels eventId := by
  obtain ⟨jobs, hjobs⟩ := queueAll_jobs (s := s) items
  rw [hjobs]
  exact ⟨samePhotos_aside rfl rfl rfl, rfl, rfl⟩

theorem referenced_of (href : Referenced s) (hfaces : s'.faces = s.faces)
    (hpersons : s.persons ⊆ s'.persons) : Referenced s' := by
  intro f hf p hp
  obtain ⟨row, hrow, hid⟩ := href f (hfaces ▸ hf) p hp
  exact ⟨row, hpersons hrow, hid⟩

theorem referenced_queueAll (href : Referenced s) (items : List FaceJob) :
    Referenced (s.queueAll items) := by
  obtain ⟨jobs, hjobs⟩ := queueAll_jobs (s := s) items
  rw [hjobs]
  exact href

/-- The person founded for a face. -/
def FaceStore.newPerson (s : FaceStore) (eventId : EventId) (orgId : OrgId) (faceId : FaceId) :
    Person :=
  { id := s.nextPerson, eventId := eventId, orgId := orgId, faceAssetFaceId := some faceId }

def FaceStore.withPerson (s : FaceStore) (p : Person) : FaceStore :=
  { s with persons := s.persons ++ [p], nextPerson := s.nextPerson + 1 }

theorem createPerson_of_face {personEvent : EventId} {orgId : OrgId} {faceId : FaceId}
    (h : s.face faceId ≠ none) : s.createPerson personEvent orgId faceId =
      some (s.newPerson personEvent orgId faceId,
      s.withPerson (s.newPerson personEvent orgId faceId)) := by
  unfold FaceStore.createPerson
  rw [if_neg h]
  rfl

theorem labels_withPerson {personEvent : EventId} {orgId : OrgId} {faceId : FaceId} :
    ((s.withPerson (s.newPerson personEvent orgId faceId)).labels eventId).assign faceId
    s.nextPerson =
      (s.labels eventId).found faceId s.nextPerson := by
  have hfounders : ((s.withPerson (s.newPerson personEvent orgId faceId)).labels eventId).founders =
      (s.labels eventId).founders ++ [(faceId, s.nextPerson)] := List.filterMap_append
  exact congrArg (Labels.mk (((s.labels eventId).assign faceId s.nextPerson).label)) hfounders

/-- A person is founded for a face that is there. -/
theorem ends_foundPerson {α : Type} {face : FaceForRecognition} {f : PersonId → Attempt α}
    {Q : Except FaceError α → FaceStore → Prop} (href : Referenced s)
    (hthere : s.face face.id ≠ none)
    (hnext : ∀ s₁ p, SamePhotos s s₁ → s₁.personOf = s.personOf →
      s₁.recognitions = s.recognitions → Referenced s₁ → (∃ row ∈ s₁.persons, row.id = p) →
      (s₁.labels eventId).assign face.id p = (s.labels eventId).found face.id p →
      Ends distance config (f p) s₁ Q) :
    Ends distance config (foundPerson face >>= f) s Q := by
  unfold foundPerson
  simp only [bind_assoc, pure_bind]
  refine ends_call fun _ _ => ⟨_, _, createPerson_of_face hthere, ends_call fun _ _ =>
    ⟨(), _, rfl, ?_⟩⟩
  obtain ⟨hphotos, hpersons, hlabels⟩ := queueAll_same
    (s.withPerson (s.newPerson face.eventId face.orgId face.id)) eventId
    [.personThumbnail (s.newPerson face.eventId face.orgId face.id).id,
      .participantRematch face.eventId]
  have hsame : SamePhotos s (s.withPerson (s.newPerson face.eventId face.orgId face.id)) :=
    samePhotos_aside rfl rfl rfl
  refine hnext _ s.nextPerson (hsame.trans hphotos) ?_ ?_ ?_ ?_ ?_
  · obtain ⟨jobs, hjobs⟩ := queueAll_jobs
      (s := s.withPerson (s.newPerson face.eventId face.orgId face.id))
      [.personThumbnail (s.newPerson face.eventId face.orgId face.id).id,
        .participantRematch face.eventId]
    rw [hjobs]
    rfl
  · rw [recognitions_queueAll]
    exact List.append_nil _
  · refine referenced_queueAll ?_ _
    exact referenced_of href rfl (List.subset_append_left _ _)
  · rw [hpersons]
    exact ⟨_, List.mem_append_right _ (List.mem_singleton_self _), rfl⟩
  · rw [hlabels]
    exact labels_withPerson

/-- The person chosen is that of a near face; or the face is core and founds
one; or nobody near has one. -/
theorem ends_choosePerson {α : Type} {face : FaceForRecognition} {hits : List FaceSearchResult}
    {f : Option PersonId → Attempt α} {Q : Except FaceError α → FaceStore → Prop}
    (hkeys : (s.faces.map AssetFace.id).Nodup) (href : Referenced s)
    (hx : s.clusterable eventId x = some v) (hfree : (s.labels eventId).label x = none)
    (hid : face.id = x) (hevent : face.eventId = eventId)
    (hhits : ∀ hit ∈ hits, s.near distance eventId config.maxDistance x hit.id ∧
      (s.labels eventId).label hit.id = hit.personId)
    (hcore : config.minFaces ≤ hits.length ↔ s.core distance eventId config x)
    (hjoin : ∀ y p, s.near distance eventId config.maxDistance x y → y ≠ x →
      (s.labels eventId).label y = some p → Ends distance config (f (some p)) s Q)
    (hfound : s.core distance eventId config x → ∀ s₁ p, SamePhotos s s₁ →
    s₁.personOf = s.personOf →
      s₁.recognitions = s.recognitions → Referenced s₁ → (∃ row ∈ s₁.persons, row.id = p) →
      (s₁.labels eventId).assign x p = (s.labels eventId).found x p →
      Ends distance config (f (some p)) s₁ Q)
    (hleave : ¬ s.core distance eventId config x →
      (∀ y, s.near distance eventId config.maxDistance x y → (s.labels eventId).label y = none) →
      Ends distance config (f none) s Q) :
    Ends distance config (choosePerson face v config hits >>= f) s Q := by
  have hne : ∀ y p, (s.labels eventId).label y = some p → y ≠ x := by
    rintro y p hp rfl
    rw [hfree] at hp
    cases hp
  unfold choosePerson matchedPerson
  cases hmatch : hits.findSome? FaceSearchResult.personId with
  | some p =>
    obtain ⟨hit, hhit, hp⟩ := List.exists_of_findSome?_eq_some hmatch
    obtain ⟨hnear, hlabel⟩ := hhits hit hhit
    exact hjoin hit.id p hnear (hne hit.id p (hlabel.trans hp)) (hlabel.trans hp)
  | none =>
    unfold nearestPerson
    simp only [bind_assoc, pure_bind]
    have hone : (1 : ℕ) ≤ 1 ∧ 1 ≤ 1000 := by decide
    refine ends_searchFaces hone fun choice => ?_
    generalize hoptions :
      (⟨face.eventId, v, 1, config.maxDistance, true⟩ : FaceSearchOptions) = options
    have hsearch : options.eventId = eventId ∧ options.embedding = v ∧ options.numResults = 1 ∧
        options.maxDistance = config.maxDistance ∧ options.hasPerson = true := by
      rw [← hoptions]
      exact ⟨hevent, rfl, rfl, rfl, rfl⟩
    obtain ⟨hoEvent, hoEmbedding, hoSize, hoDistance, hoPerson⟩ := hsearch
    have hnear : ∀ hit ∈ s.searchFaces distance options choice,
        s.near distance eventId config.maxDistance x hit.id ∧
          (s.labels eventId).label hit.id = hit.personId ∧ hit.personId ≠ none := by
      intro hit hhit
      obtain ⟨hclose, hlabel, hperson⟩ := near_of_hit hkeys hx hoEvent hoEmbedding hhit
      rw [hoDistance] at hclose
      exact ⟨hclose, hlabel, hperson hoPerson⟩
    have hall : s.searchFaces distance options choice = [] →
        ∀ y, s.near distance eventId config.maxDistance x y →
          (s.labels eventId).label y = none := by
      intro hempty y hy
      by_contra hlabel
      rw [← hoDistance] at hy
      have hroom : (s.searchFaces distance options choice).length < options.numResults := by
        rw [hempty, hoSize]
        exact Nat.zero_lt_one
      obtain ⟨hit, hhit, -⟩ := hit_of_near hx hoEvent hoEmbedding hroom hy fun _ => hlabel
      rw [hempty] at hhit
      exact absurd hhit List.not_mem_nil
    generalize s.searchFaces distance options choice = found at hnear hall
    cases found with
    | cons hit rest =>
      obtain ⟨hclose, hlabel, hperson⟩ := hnear hit List.mem_cons_self
      obtain ⟨p, hp⟩ := Option.ne_none_iff_exists'.mp hperson
      simp only [List.head?_cons, Option.bind_some, hp]
      exact hjoin hit.id p hclose (hne hit.id p (hlabel.trans hp)) (hlabel.trans hp)
    | nil =>
      have hnone := hall rfl
      change Ends distance config ((if config.minFaces ≤ hits.length then do
          let personId ← foundPerson face
          pure (some personId)
        else pure none) >>= f) s Q
      by_cases hfull : config.minFaces ≤ hits.length
      · rw [if_pos hfull]
        simp only [bind_assoc, pure_bind]
        obtain ⟨row, -, hrow, -⟩ := clusterable_eq_some hx
        have hthere : s.face face.id ≠ none := by
          rw [hid, hrow]
          exact Option.some_ne_none row
        exact ends_foundPerson href hthere (by rw [hid]; exact hfound (hcore.mp hfull))
      · rw [if_neg hfull]
        exact hleave (fun hc => hfull (hcore.mpr hc)) hnone

theorem getForRecognition_eq_some {face : FaceForRecognition}
    (h : s.getForRecognition x = some face) :
    ∃ f a, s.face x = some f ∧ s.asset f.assetId = some a ∧ f.deleted = false ∧ a.deleted = false ∧
      face = ⟨f.id, f.personId, f.sourceType, a.id, a.eventId, a.orgId, s.embedding x⟩ := by
  unfold FaceStore.getForRecognition at h
  obtain ⟨f, hf, h⟩ := Option.bind_eq_some_iff.mp h
  obtain ⟨a, ha, h⟩ := Option.bind_eq_some_iff.mp h
  split at h
  · rename_i hlive
    cases h
    exact ⟨f, a, hf, ha, hlive.1, hlive.2, rfl⟩
  · cases h

theorem clusterable_of_getForRecognition (h : s.clusterable eventId x ≠ none) :
    s.getForRecognition x ≠ none := by
  obtain ⟨w, hw⟩ := Option.ne_none_iff_exists'.mp h
  obtain ⟨f, a, hf, ha, -, -, hadeleted, hfdeleted⟩ := clusterable_eq_some hw
  unfold FaceStore.getForRecognition
  simp [hf, ha, hadeleted, hfdeleted]

/-- The window of a face that is searched for decides whether it is core. -/
theorem core_iff_full {choice : List FaceSearchResult} (hkeys : (s.faces.map AssetFace.id).Nodup)
    (hx : s.clusterable eventId x = some v) :
    config.minFaces ≤
        (s.searchFaces distance ⟨eventId, v, config.minFaces, config.maxDistance,
        false⟩ choice).length ↔
      s.core distance eventId config x := by
  generalize hoptions :
    (⟨eventId, v, config.minFaces, config.maxDistance, false⟩ : FaceSearchOptions) =
    options
  have hfull : options.numResults ≤ (s.searchFaces distance options choice).length ↔
      options.numResults ≤
        s.faces.countP (fun f => s.near distance eventId options.maxDistance x f.id) := by
    refine full_iff hkeys hx ?_ ?_ ?_ <;> rw [← hoptions]
  rw [← hoptions] at hfull ⊢
  exact hfull

/-- A face that is found alone has no other face near. -/
theorem alone_of_window (hdist : IsDistance distance) {choice : List FaceSearchResult}
    (hx : s.clusterable eventId x = some v) (hmany : 1 < config.minFaces)
    (hfew : (s.searchFaces distance ⟨eventId, v, config.minFaces, config.maxDistance, false⟩
      choice).length ≤ 1) (hy : s.near distance eventId config.maxDistance x y) : y = x := by
  have hfind : ∀ z, s.near distance eventId config.maxDistance x z →
      ∃ hit ∈ s.searchFaces distance ⟨eventId, v, config.minFaces, config.maxDistance,
        false⟩ choice,
        hit.id = z := fun z hz =>
    hit_of_near hx rfl rfl (hfew.trans_lt hmany) hz fun h => by cases h
  have hself : s.near distance eventId config.maxDistance x x := by
    obtain ⟨v', hv', w, -, hle⟩ := hy
    refine ⟨v', hv', v', hv', ?_⟩
    rw [hdist.self]
    exact (hdist.nonneg w v').trans hle
  obtain ⟨hit, hhit, rfl⟩ := hfind y hy
  obtain ⟨hit', hhit', hid⟩ := hfind x hself
  have hsame : hit = hit' := by
    obtain ⟨i, hi, rfl⟩ := List.getElem_of_mem hhit
    obtain ⟨j, hj, rfl⟩ := List.getElem_of_mem hhit'
    have hi0 : i = 0 := by omega
    have hj0 : j = 0 := by omega
    subst hi0 hj0
    rfl
  rw [hsame, hid]

/-- Run alone, a recognition job is a step of clustering its event. -/
theorem recognizeFaces_ends (hdist : IsDistance distance)
    (hsize : 1 ≤ config.minFaces ∧ config.minFaces ≤ 1000)
    (hkeys : (s.faces.map AssetFace.id).Nodup)
    (href : Referenced s)
    (hevent : ∀ face, s.getForRecognition x = some face → face.eventId = eventId) :
    Ends distance config (handleRecognizeFaces x deferred) s
      (StepOf distance config eventId x deferred s) := by
  refine ends_call fun _ _ => ⟨s.getForRecognition x, s, rfl, ?_⟩
  cases hface : s.getForRecognition x with
  | none =>
    refine ends_pure (stepOf_same href (handles_unclusterable hsize.1 ?_))
    by_contra hx
    exact clusterable_of_getForRecognition hx hface
  | some face =>
    have hface' := hevent face hface
    obtain ⟨f, a, hf, ha, hfdeleted, hadeleted, rfl⟩ := getForRecognition_eq_some hface
    have haevent : a.eventId = eventId := hface'
    have hid := (FaceStore.face_mem hf).2
    simp only
    rw [if_neg (by cases f.sourceType; simp)]
    cases hv : s.embedding x with
    | none =>
      refine ends_pure (stepOf_same href (handles_unclusterable hsize.1 ?_))
      by_contra hx
      obtain ⟨w, hw⟩ := Option.ne_none_iff_exists'.mp hx
      obtain ⟨-, -, -, -, hw, -⟩ := clusterable_eq_some hw
      rw [hv] at hw
      cases hw
    | some v =>
      have hx : s.clusterable eventId x = some v :=
        clusterable_of hf ha hv ⟨haevent, hadeleted, hfdeleted⟩
      have hlabel := label_of_face hf hx
      simp only
      by_cases hperson : f.personId ≠ none
      · rw [if_pos hperson]
        exact ends_pure (stepOf_same href (Handles.keep (hlabel ▸ hperson)))
      rw [if_neg hperson]
      have hfree : (s.labels eventId).label x = none := hlabel.trans (not_not.mp hperson)
      refine ends_call fun answer hanswer => ⟨answer, s, rfl, ?_⟩
      cases (hanswer : answer = config)
      subst haevent
      refine ends_searchFaces hsize fun choice => ?_
      have hcore : config.minFaces ≤ (s.searchFaces distance
          ⟨a.eventId, v, config.minFaces, config.maxDistance, false⟩ choice).length ↔
            s.core distance a.eventId config x := core_iff_full hkeys hx
      have halone : 1 < config.minFaces → (s.searchFaces distance
          ⟨a.eventId, v, config.minFaces, config.maxDistance, false⟩ choice).length ≤ 1 →
            ∀ y, s.near distance a.eventId config.maxDistance x y → y = x :=
        fun hmany hfew y hy => alone_of_window hdist hx hmany hfew hy
      have hhits : ∀ hit ∈ s.searchFaces distance
          ⟨a.eventId, v, config.minFaces, config.maxDistance, false⟩ choice,
            s.near distance a.eventId config.maxDistance x hit.id ∧
              (s.labels a.eventId).label hit.id = hit.personId := by
        intro hit hhit
        obtain ⟨hclose, hperson, -⟩ := near_of_hit hkeys hx rfl rfl hhit
        exact ⟨hclose, hperson⟩
      generalize s.searchFaces distance _ choice = hits at hcore halone hhits ⊢
      by_cases hlonely : 1 < config.minFaces ∧ hits.length ≤ 1
      · rw [if_pos hlonely]
        refine ends_pure (stepOf_same href (Handles.skip hfree (fun hc => ?_)
          (halone hlonely.1 hlonely.2)))
        have hfull := hcore.mpr hc
        omega
      rw [if_neg hlonely]
      by_cases hdefer : hits.length < config.minFaces ∧ deferred = false
      · rw [if_pos hdefer]
        obtain ⟨hphotos, -, hlabels⟩ := queueAll_same s a.eventId [.faceRecognize x true]
        refine ends_call fun _ _ =>
          ⟨(), _, rfl, ends_pure ⟨⟨_, rfl⟩, ⟨[(x, true)], ?_, ?_⟩, hphotos,
          referenced_queueAll href _, fun y p hp => ?_⟩⟩
        · rw [hlabels]
          refine Handles.defer hfree (fun hc => ?_) hdefer.2
          have hfull := hcore.mpr hc
          omega
        · exact recognitions_queueAll _ s
        · obtain ⟨jobs, hjobs⟩ := queueAll_jobs (s := s) [.faceRecognize x true]
          rw [hjobs]
          exact hp
      rw [if_neg hdefer]
      have hready : s.core distance a.eventId config x ∨ deferred = true := by
        by_cases hfull : config.minFaces ≤ hits.length
        · exact .inl (hcore.mp hfull)
        · cases deferred with
          | true => exact .inr rfl
          | false => exact absurd ⟨by omega, rfl⟩ hdefer
      refine ends_choosePerson hkeys href hx hfree hid rfl hhits hcore (fun y p hy hne hp => ?_)
        (fun hc s₁ p hphotos hsame hjobs href₁ hperson₁ hlabels => ?_) fun hc hnone => ?_
      · refine ends_give (samePhotos_aside rfl rfl rfl) rfl href rfl hfree
          (person_of_label href hp) hx ?_
        exact Handles.join hfree hy hne hp hready
      · refine ends_give hphotos hjobs href₁ hsame hfree hperson₁ hx ?_
        rw [hlabels]
        exact Handles.found hfree hc
      · exact ends_pure (stepOf_same href (Handles.leave hfree hc (hready.resolve_left hc) hnone))

end Jobs

end EventLens.Faces
