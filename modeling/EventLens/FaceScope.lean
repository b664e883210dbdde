import EventLens.FaceService

/-!
Events do not mix. What a call has read tells it which faces, persons, assets
and participants belong to one event, and it writes references within one event
only. None of these rows ever changes its event, so what was read stays true
while other calls run.
-/

namespace EventLens.Faces

open Programs Contract

/-- Rows that a call has seen in an event, and ids it has drawn for faces not
yet stored. -/
structure Known where
  faces : List (FaceId × EventId) := []
  persons : List (PersonId × EventId) := []
  assets : List (AssetId × EventId) := []
  participants : List (ParticipantId × EventId) := []
  drawn : List FaceId := []

namespace Known

/-- The results of a search within an event. -/
def addHits (k : Known) (eventId : EventId) (hits : List FaceSearchResult) : Known :=
  { k with
    faces := k.faces ++ hits.map (fun hit => (hit.id, eventId))
    persons := k.persons ++ hits.filterMap (fun hit => hit.personId.map (fun p => (p, eventId)))
    assets := k.assets ++ hits.map (fun hit => (hit.assetId, eventId)) }

def addParticipants (k : Known) (participants : List Participant) : Known :=
  { k with participants := k.participants ++ participants.map (fun p => (p.id, p.eventId)) }

/-- What an answer tells. -/
def learn (k : Known) : (o : FaceOp) → FaceAnswer o → Known
  | .getForRecognition faceId, r =>
    match (r : Option FaceForRecognition) with
    | some face => { k with faces := k.faces ++ [(faceId, face.eventId), (face.id, face.eventId)] }
    | none => k
  | .searchFaces options, r => k.addHits options.eventId r
  | .createPerson eventId _ _, r => { k with persons := k.persons ++ [((r : Person).id, eventId)] }
  | .getPerson eventId personId, r =>
    match (r : Option Person) with
    | some _ => { k with persons := k.persons ++ [(personId, eventId)] }
    | none => k
  | .getFaceOfPerson personId faceId, r =>
    match (r : Option FaceId) with
    | some _ =>
      { k with
        faces := k.faces ++
          (k.persons.filter (fun known => known.1 = personId)).map
            (fun known => (faceId, known.2)) }
    | none => k
  | .getParticipant _, r => k.addParticipants (r : Option Participant).toList
  | .getMatchableByEvent _, r => k.addParticipants r
  | .randomUUID, r => { k with drawn := k.drawn ++ [(r : FaceId)] }
  | .refreshFaces _ _ _, _ => { k with drawn := [] }
  | _, _ => k

def note (k : Known) : FaceEvent → Known
  | ⟨o, .ok answer⟩ => k.learn o answer
  | ⟨_, .error _⟩ => k

/-- References within one event. -/
def Permits (k : Known) : FaceOp → Prop
  | .refreshFaces facesToAdd _ _ => ∀ f ∈ facesToAdd, f.personId = none ∧ f.id ∈ k.drawn
  | .createPerson eventId _ faceId => (faceId, eventId) ∈ k.faces
  | .reassignFaces faceIds personId =>
    ∃ eventId, (personId, eventId) ∈ k.persons ∧ ∀ f ∈ faceIds, (f, eventId) ∈ k.faces
  | .setCover eventId _ faceId => (faceId, eventId) ∈ k.faces
  | .reassignFacesOfPeople targetId sourceIds =>
    ∃ eventId, (targetId, eventId) ∈ k.persons ∧ ∀ p ∈ sourceIds, (p, eventId) ∈ k.persons
  | .insertMatches inserts =>
    ∀ m ∈ inserts, ∃ eventId, (m.participantId, eventId) ∈ k.participants ∧
      (m.assetId, eventId) ∈ k.assets ∧ ∀ f ∈ m.viaFaceId, (f, eventId) ∈ k.faces
  | _ => True

/-- Nothing read is forgotten. -/
structure Grows (k k' : Known) : Prop where
  faces : k.faces ⊆ k'.faces
  persons : k.persons ⊆ k'.persons
  assets : k.assets ⊆ k'.assets
  participants : k.participants ⊆ k'.participants

theorem Grows.refl (k : Known) : Grows k k :=
  ⟨List.Subset.refl _, List.Subset.refl _, List.Subset.refl _, List.Subset.refl _⟩

theorem Grows.trans {k k' k'' : Known} (h : Grows k k') (h' : Grows k' k'') : Grows k k'' :=
  ⟨List.Subset.trans h.faces h'.faces, List.Subset.trans h.persons h'.persons,
    List.Subset.trans h.assets h'.assets, List.Subset.trans h.participants h'.participants⟩

theorem grows_learn (k : Known) (o : FaceOp) (answer : FaceAnswer o) :
    Grows k (k.learn o answer) := by
  have hleft : ∀ {α : Type} (l l' : List α), l ⊆ l ++ l' := fun l l' => List.subset_append_left l l'
  cases o with
  | getForRecognition faceId =>
    cases answer with
    | none => exact Grows.refl k
    | some face => exact ⟨hleft _ _, List.Subset.refl _, List.Subset.refl _, List.Subset.refl _⟩
  | searchFaces options => exact ⟨hleft _ _, hleft _ _, hleft _ _, List.Subset.refl _⟩
  | createPerson eventId orgId faceId =>
    exact ⟨List.Subset.refl _, hleft _ _, List.Subset.refl _, List.Subset.refl _⟩
  | getPerson eventId personId =>
    cases answer with
    | none => exact Grows.refl k
    | some person => exact ⟨List.Subset.refl _, hleft _ _, List.Subset.refl _, List.Subset.refl _⟩
  | getFaceOfPerson personId faceId =>
    cases answer with
    | none => exact Grows.refl k
    | some face => exact ⟨hleft _ _, List.Subset.refl _, List.Subset.refl _, List.Subset.refl _⟩
  | getParticipant id =>
    exact ⟨List.Subset.refl _, List.Subset.refl _, List.Subset.refl _, hleft _ _⟩
  | getMatchableByEvent eventId =>
    exact ⟨List.Subset.refl _, List.Subset.refl _, List.Subset.refl _, hleft _ _⟩
  | randomUUID =>
    exact ⟨List.Subset.refl _, List.Subset.refl _, List.Subset.refl _, List.Subset.refl _⟩
  | refreshFaces facesToAdd faceIdsToRemove embeddingsToAdd =>
    exact ⟨List.Subset.refl _, List.Subset.refl _, List.Subset.refl _, List.Subset.refl _⟩
  | _ => exact Grows.refl k

end Known

def scope : Contract FaceOp FaceRes Known where
  note := Known.note
  expects _ _ := True
  permits := Known.Permits

/-- The handler keeps within events, whatever it returns. -/
abbrev Scoped {α : Type} (p : Attempt α) (k : Known) : Prop :=
  scope.Follows p.run (fun _ _ => True) k

theorem scoped_call {α : Type} {o : FaceOp} {f : FaceAnswer o → Attempt α} {k : Known}
    (hpermit : k.Permits o) (h : ∀ answer, Scoped (f answer) (k.learn o answer)) :
    Scoped (call o >>= f) k :=
  follows_call hpermit (fun answer _ => h answer) fun _ _ => trivial

theorem scoped_call_bind {α β : Type} {o : FaceOp} {f : FaceAnswer o → Attempt α}
    {g : α → Attempt β} {k : Known} (hpermit : k.Permits o)
    (h : ∀ answer, Scoped (f answer >>= g) (k.learn o answer)) : Scoped
    ((call o >>= f) >>= g) k := by
  refine ⟨hpermit, fun r _ => ?_⟩
  cases r with
  | ok answer => exact h answer
  | error e => trivial

theorem scoped_onlyIf {α : Type} {c : Prop} [Decidable c] {p : Attempt Unit} {f : Unit → Attempt α}
    {k : Known} (hdone : c → Scoped (p >>= f) k) (hskipped : Scoped (f ()) k) :
    Scoped (onlyIf c p >>= f) k := by
  unfold onlyIf
  by_cases hc : c
  · rw [if_pos hc]
    exact hdone hc
  · rw [if_neg hc]
    exact hskipped

section Handlers

variable {k : Known}

theorem reconcile_scoped {assetId : AssetId} {detected : DetectedFaces}
    {existingFaces : List AssetFace} {rest : List DetectedFace} {acc : Reconciled}
    {f : Reconciled → Attempt JobStatus}
    (hacc : ∀ g ∈ acc.facesToAdd, g.personId = none ∧ g.id ∈ k.drawn)
    (h : ∀ acc k, (∀ g ∈ acc.facesToAdd, g.personId = none ∧ g.id ∈ k.drawn) → Scoped (f acc) k) :
    Scoped (reconcile assetId detected existingFaces rest acc >>= f) k := by
  induction rest generalizing acc k with
  | nil => exact h acc k hacc
  | cons d rest ih =>
    rw [reconcile]
    split
    · split
      · exact ih hacc
      · exact ih hacc
    · refine scoped_call_bind trivial fun faceId => ih fun g hg => ?_
      rcases List.mem_append.mp hg with hg | hg
      · obtain ⟨hperson, hdrawn⟩ := hacc g hg
        exact ⟨hperson, List.mem_append_left _ hdrawn⟩
      · rw [List.mem_singleton.mp hg]
        exact ⟨rfl, List.mem_append_right _ (List.mem_singleton_self faceId)⟩

theorem detectFaces_scoped (assetId : AssetId) : Scoped (handleDetectFaces assetId) k := by
  refine scoped_call trivial fun asset => ?_
  cases asset with
  | none => trivial
  | some asset =>
    refine scoped_call trivial fun hasPreview => ?_
    cases hasPreview with
    | false => trivial
    | true =>
      refine scoped_call trivial fun config => scoped_call trivial fun _ =>
        scoped_call trivial fun detected => scoped_call trivial fun existingFaces => ?_
      refine reconcile_scoped (fun _ hg => absurd hg List.not_mem_nil) fun acc k hacc => ?_
      have hrest : ∀ k, Scoped (do
          call (.setFacesDetected assetId detected.faces.length)
          onlyIf (acc.facesToAdd ≠ []) (call (.queueAll (acc.facesToAdd.map
            (fun f => .faceRecognize f.id false) ++
              [.faceRecognizeQueueAll asset.eventId false, .participantRematch asset.eventId])))
          pure JobStatus.success) k :=
        fun k => scoped_call trivial fun _ =>
          scoped_onlyIf (fun _ => scoped_call trivial fun _ => trivial) trivial
      exact scoped_onlyIf (fun _ => scoped_call hacc fun _ => hrest _) (hrest k)

/-- A window within an event. -/
theorem searchFaces_scoped {α : Type} {options : FaceSearchOptions}
    {f : List FaceSearchResult → Attempt α}
    (h : ∀ hits, Scoped (f hits) (k.addHits options.eventId hits)) :
    Scoped (searchFaces options >>= f) k := by
  unfold searchFaces
  split
  · trivial
  · exact scoped_call trivial h

theorem mem_addHits_persons {eventId : EventId} {hits : List FaceSearchResult}
    {hit : FaceSearchResult} {p : PersonId} (hhit : hit ∈ hits) (hp : hit.personId = some p) :
    (p, eventId) ∈ (k.addHits eventId hits).persons := by
  refine List.mem_append_right _ (List.mem_filterMap.mpr ⟨hit, hhit, ?_⟩)
  rw [hp]
  rfl

theorem mem_addHits_faces {eventId : EventId} {hits : List FaceSearchResult}
    {hit : FaceSearchResult} (hhit : hit ∈ hits) :
    (hit.id, eventId) ∈ (k.addHits eventId hits).faces ∧
      (hit.assetId, eventId) ∈ (k.addHits eventId hits).assets :=
  ⟨List.mem_append_right _ (List.mem_map_of_mem hhit),
    List.mem_append_right _ (List.mem_map_of_mem hhit)⟩

theorem grows_addHits (eventId : EventId) (hits : List FaceSearchResult) :
    k.Grows (k.addHits eventId hits) :=
  ⟨List.subset_append_left _ _, List.subset_append_left _ _, List.subset_append_left _ _,
    List.Subset.refl _⟩

theorem foundPerson_scoped {α : Type} {face : FaceForRecognition} {f : PersonId → Attempt α}
    (hface : (face.id, face.eventId) ∈ k.faces)
    (h : ∀ p k', k.Grows k' → (p, face.eventId) ∈ k'.persons → Scoped (f p) k') :
    Scoped (foundPerson face >>= f) k := by
  unfold foundPerson
  simp only [bind_assoc, pure_bind]
  refine scoped_call hface fun newPerson => scoped_call trivial fun _ => ?_
  have hgrows := Known.grows_learn k (.createPerson face.eventId face.orgId face.id) newPerson
  exact h newPerson.id _ hgrows (List.mem_append_right _ (List.mem_singleton_self _))

theorem matchedPerson_scoped {α : Type} {face : FaceForRecognition} {embedding : Embedding}
    {config : FacialRecognitionConfig} {hits : List FaceSearchResult}
    {f : Option PersonId → Attempt α}
    (hhits : ∀ hit ∈ hits, ∀ p ∈ hit.personId, (p, face.eventId) ∈ k.persons)
    (h : ∀ choice k', k.Grows k' → (∀ p ∈ choice, (p, face.eventId) ∈ k'.persons) →
      Scoped (f choice) k') :
    Scoped (matchedPerson face embedding config hits >>= f) k := by
  unfold matchedPerson
  cases hfound : hits.findSome? FaceSearchResult.personId with
  | some personId =>
    obtain ⟨hit, hhit, hperson⟩ := List.exists_of_findSome?_eq_some hfound
    refine h (some personId) k (Known.Grows.refl k) fun p hp => ?_
    cases hp
    exact hhits hit hhit personId hperson
  | none =>
    unfold nearestPerson
    simp only [bind_assoc, pure_bind]
    refine searchFaces_scoped fun found => h _ _ (grows_addHits _ found) fun p hp => ?_
    obtain ⟨hit, hhead, hperson⟩ := Option.bind_eq_some_iff.mp hp
    exact mem_addHits_persons (List.mem_of_mem_head? hhead) hperson

/-- The person chosen for a face is one of its event. -/
theorem choosePerson_scoped {α : Type} {face : FaceForRecognition} {embedding : Embedding}
    {config : FacialRecognitionConfig} {hits : List FaceSearchResult}
    {f : Option PersonId → Attempt α} (hface : (face.id, face.eventId) ∈ k.faces)
    (hhits : ∀ hit ∈ hits, ∀ p ∈ hit.personId, (p, face.eventId) ∈ k.persons)
    (h : ∀ choice k', k.Grows k' → (∀ p ∈ choice, (p, face.eventId) ∈ k'.persons) →
      Scoped (f choice) k') :
    Scoped (choosePerson face embedding config hits >>= f) k := by
  unfold choosePerson
  simp only [bind_assoc]
  refine matchedPerson_scoped hhits fun choice k' hk' hchoice => ?_
  cases choice with
  | some personId => exact h (some personId) k' hk' hchoice
  | none =>
    simp only
    split
    · simp only [bind_assoc, pure_bind]
      refine foundPerson_scoped (hk'.faces hface) fun p k'' hk'' hp => ?_
      refine h (some p) k'' (hk'.trans hk'') fun q hq => ?_
      cases hq
      exact hp
    · exact h none k' hk' hchoice

theorem recognizeFaces_scoped (faceId : FaceId) (deferred : Bool) :
    Scoped (handleRecognizeFaces faceId deferred) k := by
  refine scoped_call trivial fun face => ?_
  cases face with
  | none => trivial
  | some face =>
    have hfaces : (faceId, face.eventId) ∈ (k.learn (.getForRecognition faceId) (some face)).faces ∧
        (face.id, face.eventId) ∈ (k.learn (.getForRecognition faceId) (some face)).faces :=
      ⟨List.mem_append_right _ (by simp), List.mem_append_right _ (by simp)⟩
    generalize k.learn (.getForRecognition faceId) (some face) = k at hfaces
    simp only
    split
    · trivial
    · cases face.embedding with
      | none => trivial
      | some embedding =>
        simp only
        split
        · trivial
        · refine scoped_call trivial fun config => searchFaces_scoped fun hits => ?_
          have hgrows :=
            grows_addHits (k := k.learn (.getConfig face.eventId) config) face.eventId hits
          split
          · trivial
          · split
            · exact scoped_call trivial fun _ => trivial
            · refine choosePerson_scoped (hgrows.faces hfaces.2)
                (fun hit hhit p hp => mem_addHits_persons hhit hp) fun choice k' hk' hchoice => ?_
              cases choice with
              | none => trivial
              | some personId =>
                refine scoped_call ⟨face.eventId, hchoice personId rfl, fun f hf => ?_⟩ fun _ => ?_
                · rw [List.mem_singleton.mp hf]
                  exact hk'.faces (hgrows.faces hfaces.1)
                · refine ⟨trivial, fun r _ => ?_⟩
                  cases r <;> trivial

theorem personCleanup_scoped {α : Type} {f : JobStatus → Attempt α}
    (h : ∀ status k', Scoped (f status) k') : Scoped (handlePersonCleanup >>= f) k := by
  unfold handlePersonCleanup
  simp only [bind_assoc]
  refine scoped_call trivial fun people => ?_
  split
  · exact h .success _
  · simp only [bind_assoc, pure_bind]
    have hrest : ∀ k, Scoped (call (.deletePersons (people.map Person.id)) >>= fun _ =>
        f .success) k := fun k => scoped_call trivial fun _ => h .success _
    exact scoped_onlyIf (fun _ => scoped_call trivial fun _ => hrest _) (hrest _)

theorem queuePages_scoped {α : Type} {eventId : EventId} {pages : ℕ} {afterId : Option FaceId}
    {f : Unit → Attempt α} (h : ∀ k', Scoped (f ()) k') :
    Scoped (queuePages eventId pages afterId >>= f) k := by
  induction pages generalizing afterId k with
  | zero => trivial
  | succ pages ih =>
    rw [queuePages]
    simp only [bind_assoc]
    refine scoped_call trivial fun page => ?_
    split
    · exact h _
    · simp only [bind_assoc]
      exact scoped_call trivial fun _ => ih

theorem queueRecognizeFaces_scoped (pages : ℕ) (eventId : EventId) (force : Bool) :
    Scoped (handleQueueRecognizeFaces pages eventId force) k := by
  have hrest : ∀ k, Scoped (do
      call .prewarmVectorIndex
      queuePages eventId pages none
      call (.queueAll [.participantRematch eventId])
      pure JobStatus.success) k :=
    fun k => scoped_call trivial fun _ => queuePages_scoped fun _ =>
      scoped_call trivial fun _ => trivial
  refine scoped_call trivial fun _ => scoped_onlyIf (fun _ => ?_) (hrest _)
  simp only [bind_assoc, pure_bind]
  exact scoped_call trivial fun _ => personCleanup_scoped fun _ => hrest

theorem setCover_scoped (eventId : EventId) (personId : PersonId) (faceId : FaceId) :
    Scoped (setCover eventId personId faceId) k := by
  refine scoped_call trivial fun person => ?_
  cases person with
  | none => trivial
  | some person =>
    refine scoped_call trivial fun face => ?_
    cases face with
    | none => trivial
    | some face =>
      refine scoped_call (List.mem_append_right _ (List.mem_map.mpr ⟨(personId, eventId), ?_, rfl⟩))
        fun _ => scoped_call trivial fun _ => trivial
      refine List.mem_filter.mpr ⟨List.mem_append_right _ (List.mem_singleton_self _), ?_⟩
      exact decide_eq_true rfl

theorem findSources_scoped {α : Type} {eventId : EventId} {ids : List PersonId}
    {sources : List Person} {f : List Person → Attempt α}
    (h : ∀ sources k', k.Grows k' → (∀ p ∈ ids, (p, eventId) ∈ k'.persons) →
      Scoped (f sources) k') : Scoped (findSources eventId ids sources >>= f) k := by
  induction ids generalizing sources k with
  | nil => exact h sources k (Known.Grows.refl k) fun p hp => absurd hp List.not_mem_nil
  | cons id ids ih =>
    rw [findSources]
    simp only [bind_assoc]
    refine scoped_call trivial fun person => ?_
    cases person with
    | none => trivial
    | some person =>
      have hgrows := Known.grows_learn k (.getPerson eventId id) (some person)
      refine ih fun sources k' hk' hids => h sources k' (hgrows.trans hk') fun p hp => ?_
      rcases List.mem_cons.mp hp with rfl | hp
      · exact hk'.persons (List.mem_append_right _ (List.mem_singleton_self _))
      · exact hids p hp

theorem merge_scoped (eventId : EventId) (personId : PersonId) (ids : List PersonId) :
    Scoped (merge eventId personId ids) k := by
  refine scoped_call trivial fun target => ?_
  cases target with
  | none => trivial
  | some target =>
    have htarget :
      (personId, eventId) ∈ (k.learn (.getPerson eventId personId) (some target)).persons :=
      List.mem_append_right _ (List.mem_singleton_self _)
    simp only
    split
    · trivial
    · refine findSources_scoped fun sources k' hk' hids => ?_
      refine scoped_call ⟨eventId, hk'.persons htarget, hids⟩ fun _ =>
        scoped_call trivial fun _ => ?_
      have hrest : ∀ k, Scoped (do
          onlyIf (target.faceAssetFaceId = none ∨ target.thumbnailKey = "")
            (call (.queueAll [.personThumbnail personId]))
          pure JobStatus.success) k :=
        fun k => scoped_onlyIf (fun _ => scoped_call trivial fun _ => trivial) trivial
      exact scoped_onlyIf (fun _ => scoped_call trivial fun _ => hrest _) (hrest _)

/-- Results of searches within an event, as a call knows them. -/
def HitsKnown (k : Known) (eventId : EventId) (hits : List FaceSearchResult) : Prop :=
  ∀ hit ∈ hits, (hit.id, eventId) ∈ k.faces ∧ (hit.assetId, eventId) ∈ k.assets

theorem HitsKnown.mono {k k' : Known} {eventId : EventId} {hits : List FaceSearchResult}
    (h : HitsKnown k eventId hits) (hk : k.Grows k') : HitsKnown k' eventId hits :=
  fun hit hhit => ⟨hk.faces (h hit hhit).1, hk.assets (h hit hhit).2⟩

theorem hitsKnown_noteBest {eventId : EventId} {best hits : List FaceSearchResult}
    (hbest : HitsKnown k eventId best) (hhits : HitsKnown k eventId hits) :
    HitsKnown k eventId (hits.foldl noteBest best) := by
  induction hits generalizing best with
  | nil => exact hbest
  | cons hit hits ih =>
    refine ih (fun b hb => ?_) fun h hh => hhits h (List.mem_cons_of_mem hit hh)
    unfold noteBest at hb
    split at hb
    · obtain ⟨before, hbefore, rfl⟩ := List.mem_map.mp hb
      split
      · exact ⟨(hbest before hbefore).1, (hhits hit List.mem_cons_self).2⟩
      · exact hbest before hbefore
    · rcases List.mem_append.mp hb with hb | hb
      · exact hbest b hb
      · rw [List.mem_singleton.mp hb]
        exact hhits hit List.mem_cons_self

theorem searchAll_scoped {α : Type} {eventId : EventId} {maxDistance : ℚ}
    {embeddings : List Embedding} {best : List FaceSearchResult}
    {f : List FaceSearchResult → Attempt α} (hbest : HitsKnown k eventId best)
    (h : ∀ best k', k.Grows k' → HitsKnown k' eventId best → Scoped (f best) k') :
    Scoped (searchAll eventId maxDistance embeddings best >>= f) k := by
  induction embeddings generalizing best k with
  | nil => exact h best k (Known.Grows.refl k) hbest
  | cons embedding rest ih =>
    rw [searchAll]
    simp only [bind_assoc]
    refine searchFaces_scoped fun hits => ?_
    have hgrows := grows_addHits (k := k) eventId hits
    refine ih (hitsKnown_noteBest (hbest.mono hgrows) fun hit hhit => mem_addHits_faces hhit) ?_
    exact fun best k' hk' hknown => h best k' (hgrows.trans hk') hknown

theorem matchParticipant_scoped {α : Type} {participant : Participant} {f : ℕ → Attempt α}
    (hparticipant : (participant.id, participant.eventId) ∈ k.participants)
    (h : ∀ n k', k.Grows k' → Scoped (f n) k') : Scoped (matchParticipant participant >>= f) k := by
  unfold matchParticipant
  cases participant.selfieEmbedding with
  | none => exact h 0 k (Known.Grows.refl k)
  | some selfieEmbedding =>
    simp only [bind_assoc]
    refine scoped_call trivial fun config => scoped_call trivial fun selfies => ?_
    refine searchAll_scoped (fun hit hhit => absurd hhit List.not_mem_nil) fun best k' hk' hbest =>
      ?_
    have hrest : ∀ inserted k', k.Grows k' → Scoped (do
        let total ← call (.countMatches participant.id)
        call (.setMatched participant.id (0 < total))
        pure inserted >>= f) k' :=
      fun inserted k' hk' => scoped_call trivial fun _ => scoped_call trivial fun _ =>
        h inserted _ hk'
    unfold insertMatches
    split
    · exact hrest 0 _ hk'
    · refine scoped_call (fun m hm => ?_) fun inserted => hrest inserted _ hk'
      obtain ⟨hit, hhit, rfl⟩ := List.mem_map.mp hm
      refine ⟨participant.eventId, hk'.participants hparticipant, (hbest hit hhit).2,
        fun g hg => ?_⟩
      cases hg
      exact (hbest hit hhit).1

theorem rematchAll_scoped {α : Type} {participants : List Participant} {f : Unit → Attempt α}
    (hparticipants : ∀ p ∈ participants, (p.id, p.eventId) ∈ k.participants)
    (h : ∀ k', Scoped (f ()) k') : Scoped (rematchAll participants >>= f) k := by
  induction participants generalizing k with
  | nil => exact h k
  | cons participant rest ih =>
    rw [rematchAll]
    simp only [bind_assoc]
    refine matchParticipant_scoped (hparticipants participant List.mem_cons_self) fun n k' hk' => ?_
    have hrest : ∀ k'', k'.Grows k'' → Scoped (rematchAll rest >>= f) k'' := fun k'' hk'' =>
      ih fun p hp =>
        hk''.participants (hk'.participants (hparticipants p (List.mem_cons_of_mem _ hp)))
    exact scoped_onlyIf (fun _ => scoped_call trivial fun _ => hrest _ (Known.grows_learn _ _ _))
      (hrest k' (Known.Grows.refl k'))

theorem participantRematch_scoped (eventId : EventId) :
    Scoped (handleParticipantRematch eventId) k := by
  refine scoped_call trivial fun participants => ?_
  split
  · trivial
  · refine rematchAll_scoped
      (fun p hp => List.mem_append_right _ (List.mem_map.mpr ⟨p, hp, rfl⟩)) ?_
    exact fun _ => trivial

theorem matchSelfie_scoped (participantId : ParticipantId) :
    Scoped (matchSelfie participantId) k := by
  refine scoped_call trivial fun participant => ?_
  cases participant with
  | none => trivial
  | some participant =>
    refine matchParticipant_scoped (List.mem_append_right _ (List.mem_singleton_self _)) ?_
    exact fun _ _ _ => scoped_onlyIf (fun _ => scoped_call trivial fun _ => trivial) trivial

/-- Every call keeps within events. -/
theorem call_scoped (pages : ℕ) (c : FaceCall) :
    scope.Follows (c.prog pages) (fun _ _ => True) k := by
  cases c with
  | detectFaces assetId => exact detectFaces_scoped assetId
  | recognizeFaces faceId deferred => exact recognizeFaces_scoped faceId deferred
  | queueRecognizeFaces eventId force => exact queueRecognizeFaces_scoped pages eventId force
  | personCleanup =>
    have hcleanup := personCleanup_scoped (k := k) (f := pure) fun _ _ => trivial
    rwa [bind_pure] at hcleanup
  | setCover eventId personId faceId => exact setCover_scoped eventId personId faceId
  | merge eventId personId ids => exact merge_scoped eventId personId ids
  | participantRematch eventId => exact participantRematch_scoped eventId
  | matchSelfie participantId => exact matchSelfie_scoped participantId

end Handlers

end EventLens.Faces
