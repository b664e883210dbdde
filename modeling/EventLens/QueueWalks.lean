import EventLens.FaceService
import EventLens.SmartSearch

/-!
The walks that queue everything: recognition for the faces of an event without
a person, and embeddings for its assets. Each page is a query behind the last
id of the page before, and other requests and jobs may change the rows between
any two statements. Ids are UUIDs: unique, compared as numbers of 128 bits, so
that a walk behind its last id comes to an end.
-/

namespace EventLens

open Programs KeysetWalks

/-- There are no more ids than this. -/
def UUID_COUNT : ℕ := 2 ^ 128

theorem card_range_uuid : (Finset.range UUID_COUNT).card = UUID_COUNT := Finset.card_range _

namespace Faces

/-- The conditions of the query on a face, but for the cursor. -/
def FaceStore.Unassigned (s : FaceStore) (eventId : EventId) (f : AssetFace) : Prop :=
  (s.asset f.assetId).any (fun a => a.eventId = eventId ∧ a.deleted = false) = true ∧
    f.deleted = false ∧
    f.personId = none ∧ f.sourceType = .machineLearning

/-- The ids of the faces are UUIDs, each of one face. -/
structure FaceStore.FaceKeys (s : FaceStore) : Prop where
  distinct : (s.faces.map AssetFace.id).Nodup
  bounded : ∀ f ∈ s.faces, f.id < UUID_COUNT

def queuedFace : FaceJob → Option FaceId
  | .faceRecognize faceId _ => some faceId
  | _ => none

/-- What a statement counts for: the eligible faces when a page is fetched, and
those whose recognition is queued. -/
def recognitionNotes : Notes FaceId FaceStore FaceOp FaceRes where
  fetched
    | (s, ⟨.getUnassignedFaceIds eventId _ _, .ok _⟩) =>
      some {i | ∃ f ∈ s.faces, f.id = i ∧ s.Unassigned eventId f}
    | _ => none
  taken
    | (_, ⟨.queueAll items, _⟩) => items.filterMap queuedFace
    | _ => []

/-- `queuePages` with pages of any size. -/
def queuePagesBy (size : ℕ) (eventId : EventId) : ℕ → Option FaceId → Attempt Unit :=
  walkPages (fun afterId => call (.getUnassignedFaceIds eventId size afterId))
    (fun page => call (.queueAll (page.map fun id => .faceRecognize id false)))
      (.other "more pages than allowed")

/-- `handleQueueRecognizeFaces` with pages of any size. -/
def handleQueueRecognizeFacesBy (size pages : ℕ) (eventId : EventId) (force : Bool) :
    Attempt JobStatus := do
  call .waitForQueueCompletion
  onlyIf (force = true) (do
    call (.unassignByEvent eventId)
    let _ ← handlePersonCleanup
    pure ())
  call .prewarmVectorIndex
  queuePagesBy size eventId pages none
  call (.queueAll [.participantRematch eventId])
  pure .success

theorem queuePagesBy_page_size (eventId : EventId) (pages : ℕ) (afterId : Option FaceId) :
    queuePagesBy QUEUE_ALL_PAGE_SIZE eventId pages afterId = queuePages eventId pages afterId := by
  induction pages generalizing afterId with
  | zero => rfl
  | succ pages ih =>
    rw [queuePages, queuePagesBy, walkPages]
    refine bind_congr fun page => ?_
    by_cases hpage : page = []
    · rw [if_pos hpage, if_pos hpage]
    · rw [if_neg hpage, if_neg hpage]
      exact bind_congr fun _ => ih page.getLast?

/-- The handler is the walk with pages of a thousand. -/
theorem handleQueueRecognizeFacesBy_page_size (pages : ℕ) (eventId : EventId) (force : Bool) :
    handleQueueRecognizeFacesBy QUEUE_ALL_PAGE_SIZE pages eventId force =
      handleQueueRecognizeFaces pages eventId force := by
  rw [handleQueueRecognizeFacesBy, handleQueueRecognizeFaces, queuePagesBy_page_size]

variable {distance : Embedding → Embedding → ℚ} {eventId : EventId} {size : ℕ}

theorem unassigned_fetches (hsize : 1 ≤ size) :
    Fetches (faceHandler distance) recognitionNotes FaceStore.FaceKeys (Finset.range UUID_COUNT)
      (fun afterId => call (.getUnassignedFaceIds eventId size afterId)) where
  page {cursor seen page} he hvalid := by
    obtain ⟨s, r, rfl, hanswer⟩ := amid_call he
    have hkeys : s.FaceKeys := hvalid _ List.mem_cons_self
    cases r with
    | error e => cases hanswer
    | ok answer =>
      cases hanswer
      refine ⟨{i | ∃ f ∈ s.faces, f.id = i ∧ s.Unassigned eventId f}, rfl, rfl, ?_, ?_⟩
      · refine serves_take hsize hkeys.distinct fun f _ => ?_
        rw [decide_eq_true_iff]
        unfold FaceStore.Unassigned Behind Keyset.BehindCursor
        cases cursor <;> simp [and_assoc]
      · rintro i ⟨f, hf, rfl, -⟩
        exact Finset.mem_range.mpr (hkeys.bounded f hf)
  failed he := by
    obtain ⟨s, r, rfl, -⟩ := amid_call he
    exact ⟨rfl, rfl⟩
  returns _ := returns_call _

theorem recognition_takes : Takes (faceHandler distance) recognitionNotes
    (fun page => call (.queueAll (page.map fun id => .faceRecognize id false))) where
  taken {page seen value} he := by
    obtain ⟨s, r, rfl, -⟩ := amid_call he
    refine ⟨rfl, ?_⟩
    rw [List.flatMap_singleton]
    change (page.map fun id => FaceJob.faceRecognize id false).filterMap queuedFace = page
    rw [List.filterMap_map]
    exact List.filterMap_some
  returns _ := returns_call _

theorem aside_onlyIf {c : Prop} [Decidable c] {p : Attempt Unit}
    (h : Aside (faceHandler distance) recognitionNotes p) :
    Aside (faceHandler distance) recognitionNotes (onlyIf c p) := by
  unfold onlyIf
  split
  · exact h
  · exact aside_pure ()

theorem aside_handlePersonCleanup :
    Aside (faceHandler distance) recognitionNotes handlePersonCleanup := by
  refine (aside_call (fun _ _ => rfl) fun _ _ => rfl).bind fun people => ?_
  split
  · exact aside_pure _
  · refine (aside_onlyIf (aside_call (fun _ _ => rfl) fun _ _ => rfl)).bind fun _ => ?_
    exact (aside_call (fun _ _ => rfl) fun _ _ => rfl).bind fun _ => aside_pure _

theorem queueRecognizeFaces_walksOnce (hsize : 1 ≤ size) {pages : ℕ} (hpages : UUID_COUNT < pages)
    (force : Bool) :
    WalksOnce (faceHandler distance) recognitionNotes FaceStore.FaceKeys
      (handleQueueRecognizeFacesBy size pages eventId force) := by
  have hcall : ∀ o : FaceOp, (∀ s r, recognitionNotes.fetched (s, ⟨o, r⟩) = none) →
      (∀ s r, recognitionNotes.taken (s, ⟨o, r⟩) = []) →
        Aside (faceHandler distance) recognitionNotes (call o) :=
    fun _ hfetched htaken => aside_call hfetched htaken
  refine .after (hcall _ (fun _ _ => rfl) fun _ _ => rfl) fun _ => .after (aside_onlyIf ?_) fun _ =>
    .after (hcall _ (fun _ _ => rfl) fun _ _ => rfl) fun _ => .before ?_ fun _ => ?_
  · refine (hcall _ (fun _ _ => rfl) fun _ _ => rfl).bind fun _ => ?_
    exact aside_handlePersonCleanup.bind fun _ => aside_pure ()
  · exact walksOnce_walkPages (unassigned_fetches hsize) recognition_takes
      (by rwa [card_range_uuid])
  · exact (hcall _ (fun _ _ => rfl) fun _ _ => rfl).bind fun _ => aside_pure _

end Faces

namespace SmartSearch

/-- The ids of the assets are UUIDs, each of one asset. -/
structure SearchStore.AssetKeys (s : SearchStore) : Prop where
  distinct : (s.assets.map fun a => a.id).Nodup
  bounded : ∀ a ∈ s.assets, a.id < UUID_COUNT

def embedding : SearchJob → Option ℕ
  | .smartSearch assetId => some assetId

/-- What a statement counts for: the eligible assets when a page is fetched, and
those whose embedding is queued. -/
def embeddingNotes : Notes ℕ SearchStore SearchOp SearchRes where
  fetched
    | (s, ⟨.getProcessedAssetIds eventId onlyMissing _ _, .ok _⟩) =>
      some {i | ∃ a ∈ s.assets, a.id = i ∧ s.Processed eventId onlyMissing a}
    | _ => none
  taken
    | (_, ⟨.queueAll items, _⟩) => items.filterMap embedding
    | _ => []

variable {eventId size : ℕ} {force : Bool}

theorem processed_fetches (hsize : 1 ≤ size) :
    Fetches searchHandler embeddingNotes SearchStore.AssetKeys (Finset.range UUID_COUNT)
      (fun afterId => call (.getProcessedAssetIds eventId (!force) size afterId)) where
  page {cursor seen page} he hvalid := by
    obtain ⟨s, r, rfl, hanswer⟩ := amid_call he
    have hkeys : s.AssetKeys := hvalid _ List.mem_cons_self
    cases r with
    | error e => cases hanswer
    | ok answer =>
      cases hanswer
      refine ⟨{i | ∃ a ∈ s.assets, a.id = i ∧ s.Processed eventId (!force) a}, rfl, rfl, ?_, ?_⟩
      · exact serves_take hsize hkeys.distinct fun a _ => decide_eq_true_iff
      · rintro i ⟨a, ha, rfl, -⟩
        exact Finset.mem_range.mpr (hkeys.bounded a ha)
  failed he := by
    obtain ⟨s, r, rfl, -⟩ := amid_call he
    exact ⟨rfl, rfl⟩
  returns _ := returns_call _

theorem embedding_takes : Takes searchHandler embeddingNotes
    (fun page => call (.queueAll (page.map fun id => .smartSearch id))) where
  taken {page seen value} he := by
    obtain ⟨s, r, rfl, -⟩ := amid_call he
    refine ⟨rfl, ?_⟩
    rw [List.flatMap_singleton]
    change (page.map fun id => SearchJob.smartSearch id).filterMap embedding = page
    rw [List.filterMap_map]
    exact List.filterMap_some
  returns _ := returns_call _

theorem queueAll_walksOnce (hsize : 1 ≤ size) {pages : ℕ} (hpages : UUID_COUNT < pages) :
    WalksOnce searchHandler embeddingNotes SearchStore.AssetKeys
    (handleQueueAllBy size pages eventId force) :=
  .before (walksOnce_walkPages (processed_fetches hsize) embedding_takes (by rwa [card_range_uuid]))
    fun _ => aside_pure _

end SmartSearch

/-- Both walks, with pages of any size and whatever changes between their
statements: they come to an end, and queue each id once that is eligible at
every page, and none that is eligible at none. -/
theorem queue_walks_exact {size : ℕ} (hsize : 1 ≤ size) {pages : ℕ} (hpages : UUID_COUNT < pages)
    (eventId : ℕ)
    (force : Bool) :
    (∀ distance,
    WalksOnce (Faces.faceHandler distance) Faces.recognitionNotes Faces.FaceStore.FaceKeys
        (Faces.handleQueueRecognizeFacesBy size pages eventId force)) ∧
      WalksOnce SmartSearch.searchHandler SmartSearch.embeddingNotes
      SmartSearch.SearchStore.AssetKeys
        (SmartSearch.handleQueueAllBy size pages eventId force) :=
  ⟨fun _ => Faces.queueRecognizeFaces_walksOnce hsize hpages force,
    SmartSearch.queueAll_walksOnce hsize hpages⟩

/-! An event with three faces. Before the second page is fetched, the first of
them gets a person, and two more are found, one of them behind the cursor. The
assets of the event get their embeddings meanwhile. -/

def galaFace (id : ℕ) (personId : Option ℕ) : Faces.AssetFace :=
  { id := id, assetId := 5, imageHeight := 1, imageWidth := 1, boundingBox :=
    ⟨0, 0, 1, 1⟩, personId := personId }

def galaFaces (n : ℕ) : Faces.FaceStore :=
  { assets := [{ id := 5, eventId := 1, orgId := 1 }]
    faces := if n < 4 then [galaFace 7 none, galaFace 2 none, galaFace 4 none]
      else [galaFace 7 none, galaFace 9 none, galaFace 2 (some 3), galaFace 4 none,
        galaFace 3 none] }

def galaAnswers : Oracle Faces.FaceOp Faces.FaceRes
  | _, .waitForQueueCompletion => .ok ()
  | _, .prewarmVectorIndex => .ok ()
  | _, .getUnassignedFaceIds _ _ _ => .ok []
  | _, .queueAll _ => .ok ()
  | _, _ => .error (.other "unreachable")

def galaRun : List (Faces.FaceStore × Faces.FaceEvent) × Except Faces.FaceError Faces.JobStatus :=
  watch (Faces.faceHandler fun _ _ => 0)
    (Faces.handleQueueRecognizeFacesBy 2 (UUID_COUNT + 1) 1 false).run
    galaAnswers galaFaces

def galaAsset (id : ℕ) : Media.AssetRow :=
  { id := id
    eventId := 1
    orgId := 1
    storageKey := Media.StorageKeys.original 1 1 id ".jpg"
    type := .image
    originalFilename := "a.jpg"
    checksum := ""
    fileSize := 1
    mimeType := "image/jpeg"
    status := .processed
    source := .upload }

def galaAssets (n : ℕ) : SmartSearch.SearchStore :=
  { assets := [galaAsset 6, galaAsset 5, galaAsset 8], smartSearch := if n < 2 then [] else [5, 8] }

def galaSearchAnswers : Oracle SmartSearch.SearchOp SmartSearch.SearchRes
  | _, .getProcessedAssetIds _ _ _ _ => .ok []
  | _, .queueAll _ => .ok ()

def galaSearchRun : List (SmartSearch.SearchStore × SmartSearch.SearchEvent) ×
    Except SmartSearch.SearchError Media.JobStatus :=
  watch SmartSearch.searchHandler (SmartSearch.handleQueueAllBy 2 (UUID_COUNT + 1) 1 false).run
    galaSearchAnswers galaAssets

theorem queue_walks_exact_gala :
    galaRun.1.flatMap Faces.recognitionNotes.taken = [2, 4, 7, 9] ∧ galaRun.2 = .ok .success ∧
      TakesEach (galaRun.1.filterMap Faces.recognitionNotes.fetched)
        (galaRun.1.flatMap Faces.recognitionNotes.taken) (∃ status, galaRun.2 = .ok status) ∧
      galaSearchRun.1.flatMap SmartSearch.embeddingNotes.taken = [5, 6] ∧
      galaSearchRun.2 = .ok .success ∧
      TakesEach (galaSearchRun.1.filterMap SmartSearch.embeddingNotes.fetched)
        (galaSearchRun.1.flatMap SmartSearch.embeddingNotes.taken)
        (∃ status, galaSearchRun.2 = .ok status) := by
  have hpages : UUID_COUNT < UUID_COUNT + 1 := Nat.lt_succ_self _
  have hsize : 1 ≤ 2 := by decide
  have hwalks := queue_walks_exact hsize hpages 1 false
  have hfaces : ∀ entry ∈ galaRun.1, entry.1.FaceKeys := by
    intro entry hentry
    obtain ⟨n, o, rfl⟩ := mem_watch hentry
    change (galaFaces n).FaceKeys
    unfold galaFaces
    split <;> exact ⟨by decide, by decide⟩
  have hassets : ∀ entry ∈ galaSearchRun.1, entry.1.AssetKeys := by
    intro entry hentry
    obtain ⟨n, o, rfl⟩ := mem_watch hentry
    change (galaAssets n).AssetKeys
    unfold galaAssets
    split <;> exact ⟨by decide, by decide⟩
  refine ⟨rfl, rfl, ?_, rfl, rfl, ?_⟩
  · exact (hwalks.1 (fun _ _ => 0) _ _ (amid_watch _ _ _ _) hfaces).1
  · exact (hwalks.2 _ _ (amid_watch _ _ _ _) hassets).1

end EventLens
