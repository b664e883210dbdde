import EventLens.FaceRecord
import EventLens.Pools

/-!
The face pipeline: detection, recognition, re-clustering, cleanup, the review
of persons and the matching of participants, statement by statement. Every
statement may fail; what it does when it succeeds is fixed by the tables.
Detections and settings are answered from outside.
-/

namespace EventLens.Faces

open Programs

inductive JobStatus
  | success | failed | skipped
deriving DecidableEq, Repr

inductive FaceError
  | notFound (text : String)
  | badRequest (text : String)
  | invalid (text : String)
  | constraint
  | other (text : String)
deriving DecidableEq, Repr

inductive FaceOp
  | getByIdUnscoped (assetId : AssetId)
  | getFiles (assetId : AssetId)
  | getConfig (eventId : EventId)
  | downloadToFile (assetId : AssetId)
  | detectFaces (assetId : AssetId)
  | getByAssetId (assetId : AssetId)
  | randomUUID
  | refreshFaces (facesToAdd : List AssetFace) (faceIdsToRemove : List FaceId)
      (embeddingsToAdd : List FaceSearch)
  | setFacesDetected (assetId : AssetId) (faceCount : ℕ)
  | queueAll (items : List FaceJob)
  | getForRecognition (faceId : FaceId)
  | searchFaces (options : FaceSearchOptions)
  | createPerson (eventId : EventId) (orgId : OrgId) (faceAssetFaceId : FaceId)
  | reassignFaces (faceIds : List FaceId) (newPersonId : PersonId)
  | nameFromParticipants (eventId : EventId) (personId : PersonId)
  | waitForQueueCompletion
  | unassignByEvent (eventId : EventId)
  | prewarmVectorIndex
  | getUnassignedFaceIds (eventId : EventId) (limit : ℕ) (afterId : Option FaceId)
  | getAllWithoutFaces
  | deletePersons (ids : List PersonId)
  | getPerson (eventId : EventId) (personId : PersonId)
  | getFaceOfPerson (personId : PersonId) (faceId : FaceId)
  | setCover (eventId : EventId) (personId : PersonId) (faceId : FaceId)
  | reassignFacesOfPeople (targetId : PersonId) (sourceIds : List PersonId)
  | getParticipant (id : ParticipantId)
  | getMatchableByEvent (eventId : EventId)
  | getSelfies (id : ParticipantId)
  | insertMatches (inserts : List ParticipantMatch)
  | countMatches (id : ParticipantId)
  | setMatched (id : ParticipantId) (flag : Bool)
deriving DecidableEq, Repr

/-- What a statement answers when it succeeds. -/
abbrev FaceAnswer : FaceOp → Type
  | .getByIdUnscoped _ => Option Asset
  | .getFiles _ => Bool
  | .getConfig _ => FacialRecognitionConfig
  | .detectFaces _ => DetectedFaces
  | .getByAssetId _ => List AssetFace
  | .randomUUID => FaceId
  | .getForRecognition _ => Option FaceForRecognition
  | .searchFaces _ => List FaceSearchResult
  | .createPerson _ _ _ => Person
  | .getUnassignedFaceIds _ _ _ => List FaceId
  | .getAllWithoutFaces => List Person
  | .getPerson _ _ => Option Person
  | .getFaceOfPerson _ _ => Option FaceId
  | .getParticipant _ => Option Participant
  | .getMatchableByEvent _ => List Participant
  | .getSelfies _ => List ParticipantSelfie
  | .insertMatches _ => ℕ
  | .countMatches _ => ℕ
  | _ => Unit

abbrev FaceRes (o : FaceOp) : Type := Except FaceError (FaceAnswer o)

abbrev FaceProg := Prog FaceOp FaceRes
abbrev FaceEvent := Event FaceOp FaceRes
abbrev Attempt := ExceptT FaceError FaceProg

variable (distance : Embedding → Embedding → ℚ)

/-- The statement on the tables; nothing where a constraint refuses it. The
proposed answer stands for what the tables do not determine. -/
def statement : (o : FaceOp) → FaceAnswer o → FaceStore → Option (FaceAnswer o × FaceStore)
  | .getByIdUnscoped assetId, _, s => some (s.getByIdUnscoped assetId, s)
  | .getFiles assetId, _, s => some ((s.asset assetId).any Asset.hasPreview, s)
  | .getByAssetId assetId, _, s => some (s.getByAssetId assetId, s)
  | .randomUUID, _, s => some (s.nextFace, { s with nextFace := s.nextFace + 1 })
  | .refreshFaces facesToAdd faceIdsToRemove embeddingsToAdd, _, s =>
    (s.refreshFaces facesToAdd faceIdsToRemove embeddingsToAdd).map (fun s' => ((), s'))
  | .setFacesDetected assetId faceCount, _, s => some ((), s.setFacesDetected assetId faceCount)
  | .queueAll items, _, s => some ((), s.queueAll items)
  | .getForRecognition faceId, _, s => some (s.getForRecognition faceId, s)
  | .searchFaces options, choice, s => some (s.searchFaces distance options choice, s)
  | .createPerson eventId orgId faceAssetFaceId, _, s =>
    s.createPerson eventId orgId faceAssetFaceId
  | .reassignFaces faceIds newPersonId, _, s =>
    (s.reassign (fun f => f.id ∈ faceIds) newPersonId).map (fun s' => ((), s'))
  | .unassignByEvent eventId, _, s => some ((), s.unassignByEvent eventId)
  | .getUnassignedFaceIds eventId limit afterId, _, s =>
    some (s.getUnassignedFaceIds eventId limit afterId, s)
  | .getAllWithoutFaces, _, s => some (s.getAllWithoutFaces, s)
  | .deletePersons ids, _, s => some ((), s.deletePersons ids)
  | .getPerson eventId personId, _, s => some (s.getPerson eventId personId, s)
  | .getFaceOfPerson personId faceId, _, s => some (s.getFaceOfPerson personId faceId, s)
  | .setCover eventId personId faceId, _, s =>
    (s.setCover eventId personId faceId).map (fun s' => ((), s'))
  | .reassignFacesOfPeople targetId sourceIds, _, s =>
    (s.reassign (fun f => f.personId.any (fun p => p ∈ sourceIds)) targetId).map
      (fun s' => ((), s'))
  | .getParticipant id, _, s => some (s.getParticipant id, s)
  | .getMatchableByEvent eventId, _, s => some (s.getMatchableByEvent eventId, s)
  | .getSelfies id, _, s => some (s.getSelfies id, s)
  | .insertMatches inserts, _, s => s.insertMatches inserts
  | .countMatches id, _, s => some (s.countMatches id, s)
  | .setMatched id flag, _, s => some ((), s.setMatched id flag)
  | .getConfig _, answer, s => some (answer, s)
  | .downloadToFile _, answer, s => some (answer, s)
  | .detectFaces _, answer, s => some (answer, s)
  | .nameFromParticipants _ _, answer, s => some (answer, s)
  | .waitForQueueCompletion, answer, s => some (answer, s)
  | .prewarmVectorIndex, answer, s => some (answer, s)

def faceHandler : Handler FaceOp FaceRes FaceStore
  | _, .error e, s => (.error e, s)
  | o, .ok answer, s =>
    match statement distance o answer s with
    | some (answer, s') => (.ok answer, s')
    | none => (.error .constraint, s)

/-- A statement fails and changes nothing, or does its work. -/
theorem faceHandler_cases (o : FaceOp) (r : FaceRes o) (s : FaceStore) :
    (∃ e, faceHandler distance o r s = (.error e, s)) ∨
      ∃ proposed answer s', r = .ok proposed ∧ statement distance o proposed s = some (answer, s') ∧
        faceHandler distance o r s = (.ok answer, s') := by
  cases r with
  | error e => exact .inl ⟨e, rfl⟩
  | ok proposed =>
    cases hstatement : statement distance o proposed s with
    | none =>
      refine .inl ⟨.constraint, ?_⟩
      rw [faceHandler, hstatement]
    | some result =>
      refine .inr ⟨proposed, result.1, result.2, rfl, hstatement, ?_⟩
      rw [faceHandler, hstatement]

/-! Programs. -/

/-- One statement of a handler; its failure ends the handler. -/
def call (o : FaceOp) : Attempt (FaceAnswer o) := .mk (.perform o .done)

/-- An `if` without `else`. -/
def onlyIf (c : Prop) [Decidable c] (p : Attempt Unit) : Attempt Unit := if c then p else pure ()

/-- A `try` that swallows what goes wrong. -/
def swallow {α : Type} (p : Attempt α) : Attempt Unit := liftM (do
  let _ ← p.run
  pure () : FaceProg Unit)

/-- The overlap of two boxes over their union, the box of the face being scaled. -/
def iou (face : BoundingBox) (widthScale heightScale : ℚ) (box : BoundingBox) : ℚ :=
  let x1 := max (face.x1 : ℚ) (box.x1 * widthScale)
  let y1 := max (face.y1 : ℚ) (box.y1 * heightScale)
  let x2 := min (face.x2 : ℚ) (box.x2 * widthScale)
  let y2 := min (face.y2 : ℚ) (box.y2 * heightScale)
  let intersection := max 0 (x2 - x1) * max 0 (y2 - y1)
  let area1 := ((face.x2 - face.x1) * (face.y2 - face.y1) : ℚ)
  let area2 :=
    (box.x2 * widthScale - box.x1 * widthScale) * (box.y2 * heightScale - box.y1 * heightScale)
  intersection / (area1 + area2 - intersection)

/-- What a detection has worked out so far: faces and embeddings to add, and the
stored faces that no detected face has matched yet. -/
structure Reconciled where
  facesToAdd : List AssetFace := []
  embeddings : List FaceSearch := []
  mlFaceIds : List FaceId
deriving DecidableEq, Repr

/-- A size of zero counts as one. -/
def scale (detected : ℕ) (stored : Option ℕ) : ℚ :=
  (detected : ℚ) / (match stored with
    | some (n + 1) => (n + 1 : ℕ)
    | _ => 1)

/-- The stored face that a detected one is taken to be. -/
def matching (existingFaces : List AssetFace) (widthScale heightScale : ℚ) (box : BoundingBox) :
    Option AssetFace :=
  existingFaces.find? (fun f => 1 / 2 < iou f.boundingBox widthScale heightScale box)

def newFace (assetId : AssetId) (detected : DetectedFaces) (box : BoundingBox) (faceId : FaceId) :
    AssetFace :=
  { id := faceId
    assetId := assetId
    imageHeight := detected.imageHeight
    imageWidth := detected.imageWidth
    boundingBox := box }

/-- The detected faces one after the other, against the stored ones. -/
def reconcile (assetId : AssetId) (detected : DetectedFaces) (existingFaces : List AssetFace) :
    List DetectedFace → Reconciled → Attempt Reconciled
  | [], acc => pure acc
  | d :: rest, acc =>
    let widthScale := scale detected.imageWidth (existingFaces.head?.map AssetFace.imageWidth)
    let heightScale := scale detected.imageHeight (existingFaces.head?.map AssetFace.imageHeight)
    match matching existingFaces widthScale heightScale d.boundingBox with
    | some f =>
      if f.id ∈ acc.mlFaceIds then
        reconcile assetId detected existingFaces rest
          { acc with mlFaceIds := acc.mlFaceIds.erase f.id }
      else
        reconcile assetId detected existingFaces rest
          { acc with embeddings :=
            acc.embeddings ++ [{ faceId := f.id, embedding := d.embedding }] }
    | none => do
      let faceId ← call .randomUUID
      reconcile assetId detected existingFaces rest
        { acc with
          facesToAdd := acc.facesToAdd ++ [newFace assetId detected d.boundingBox faceId]
          embeddings := acc.embeddings ++ [{ faceId := faceId, embedding := d.embedding }] }

def handleDetectFaces (assetId : AssetId) : Attempt JobStatus := do
  match ← call (.getByIdUnscoped assetId) with
  | none => pure .skipped
  | some asset =>
    if (← call (.getFiles assetId)) = false then pure .failed
    else do
      let _ ← call (.getConfig asset.eventId)
      call (.downloadToFile assetId)
      let detected ← call (.detectFaces assetId)
      let existingFaces ← call (.getByAssetId assetId)
      let mlFaceIds :=
        (existingFaces.filter (fun f => f.sourceType = .machineLearning)).map AssetFace.id
      let result ← reconcile assetId detected existingFaces detected.faces { mlFaceIds :=
        mlFaceIds }
      onlyIf (result.facesToAdd ≠ [] ∨ result.mlFaceIds ≠ [] ∨ result.embeddings ≠ [])
        (call (.refreshFaces result.facesToAdd result.mlFaceIds result.embeddings))
      call (.setFacesDetected assetId detected.faces.length)
      onlyIf (result.facesToAdd ≠ [])
        (call (.queueAll (result.facesToAdd.map (fun f => .faceRecognize f.id false) ++
          [.faceRecognizeQueueAll asset.eventId false, .participantRematch asset.eventId])))
      pure .success

/-- The search refuses a window of none or of more than a thousand. -/
def searchFaces (options : FaceSearchOptions) : Attempt (List FaceSearchResult) :=
  if options.numResults < 1 ∨ 1000 < options.numResults then
    throw (.invalid s!"Invalid value for 'numResults': {options.numResults}")
  else call (.searchFaces options)

/-- The person of the nearest face that has one. -/
def nearestPerson (face : FaceForRecognition) (embedding : Embedding)
    (config : FacialRecognitionConfig) : Attempt (Option PersonId) := do
  let found ← searchFaces
    { eventId := face.eventId, embedding := embedding, numResults := 1,
      maxDistance := config.maxDistance, hasPerson := true }
  pure (found.head?.bind FaceSearchResult.personId)

def foundPerson (face : FaceForRecognition) : Attempt PersonId := do
  let newPerson ← call (.createPerson face.eventId face.orgId face.id)
  call (.queueAll [.personThumbnail newPerson.id, .participantRematch face.eventId])
  pure newPerson.id

/-- The person of one of these matches, or of the nearest face that has one. -/
def matchedPerson (face : FaceForRecognition) (embedding : Embedding)
    (config : FacialRecognitionConfig) (hits : List FaceSearchResult) : Attempt (Option PersonId) :=
  match hits.findSome? FaceSearchResult.personId with
  | some personId => pure (some personId)
  | none => nearestPerson face embedding config

/-- The person a face with these matches is given, founded for it if it is a
core face and none of them has one. -/
def choosePerson (face : FaceForRecognition) (embedding : Embedding)
    (config : FacialRecognitionConfig) (hits : List FaceSearchResult) :
    Attempt (Option PersonId) := do
  match ← matchedPerson face embedding config hits with
  | some personId => pure (some personId)
  | none =>
    if config.minFaces ≤ hits.length then do
      let personId ← foundPerson face
      pure (some personId)
    else pure none

def handleRecognizeFaces (faceId : FaceId) (deferred : Bool) : Attempt JobStatus := do
  match ← call (.getForRecognition faceId) with
  | none => pure .failed
  | some face =>
    if face.sourceType ≠ .machineLearning then pure .skipped
    else match face.embedding with
      | none => pure .failed
      | some embedding =>
        if face.personId ≠ none then pure .skipped
        else do
          let config ← call (.getConfig face.eventId)
          let hits ← searchFaces
            { eventId := face.eventId, embedding := embedding, numResults := config.minFaces,
              maxDistance := config.maxDistance }
          if 1 < config.minFaces ∧ hits.length ≤ 1 then pure .skipped
          else if hits.length < config.minFaces ∧ deferred = false then do
            call (.queueAll [.faceRecognize faceId true])
            pure .skipped
          else do
            match ← choosePerson face embedding config hits with
            | none => pure .success
            | some personId => do
              call (.reassignFaces [faceId] personId)
              swallow (call (.nameFromParticipants face.eventId personId))
              pure .success

def handlePersonCleanup : Attempt JobStatus := do
  let people ← call .getAllWithoutFaces
  if people = [] then pure .success
  else do
    let keys := (people.map Person.thumbnailKey).filter (fun key => key ≠ "")
    onlyIf (keys ≠ []) (call (.queueAll [.cleanupKeys keys]))
    call (.deletePersons (people.map Person.id))
    pure .success

def QUEUE_ALL_PAGE_SIZE : ℕ := 1000

/-- The unassigned faces, page by page; an error where the pages allowed do not
suffice. -/
def queuePages (eventId : EventId) : ℕ → Option FaceId → Attempt Unit
  | 0, _ => throw (.other "more pages than allowed")
  | pages + 1, afterId => do
    let page ← call (.getUnassignedFaceIds eventId QUEUE_ALL_PAGE_SIZE afterId)
    if page = [] then pure ()
    else do
      call (.queueAll (page.map (fun id => .faceRecognize id false)))
      queuePages eventId pages page.getLast?

def handleQueueRecognizeFaces (pages : ℕ) (eventId : EventId) (force : Bool) :
    Attempt JobStatus := do
  call .waitForQueueCompletion
  onlyIf (force = true) (do
    call (.unassignByEvent eventId)
    let _ ← handlePersonCleanup
    pure ())
  call .prewarmVectorIndex
  queuePages eventId pages none
  call (.queueAll [.participantRematch eventId])
  pure .success

/-! The review of persons. -/

def personNotFound : FaceError := .notFound "Person not found"

def setCover (eventId : EventId) (personId : PersonId) (faceId : FaceId) : Attempt JobStatus := do
  match ← call (.getPerson eventId personId) with
  | none => throw personNotFound
  | some _ =>
    match ← call (.getFaceOfPerson personId faceId) with
    | none => throw (.badRequest "That face does not belong to this person")
    | some _ => do
      call (.setCover eventId personId faceId)
      call (.queueAll [.personThumbnail personId])
      pure .success

/-- Every source must belong to this event. -/
def findSources (eventId : EventId) : List PersonId → List Person → Attempt (List Person)
  | [], sources => pure sources
  | id :: ids, sources => do
    match ← call (.getPerson eventId id) with
    | none => throw (.notFound s!"Person {id} not found in this event")
    | some source => findSources eventId ids (sources ++ [source])

def merge (eventId : EventId) (personId : PersonId) (ids : List PersonId) : Attempt JobStatus := do
  match ← call (.getPerson eventId personId) with
  | none => throw personNotFound
  | some target =>
    let sourceIds := ids.eraseDups.filter (fun id => id ≠ personId)
    if sourceIds = [] then throw (.badRequest "Nothing to merge")
    else do
      let sources ← findSources eventId sourceIds []
      call (.reassignFacesOfPeople personId sourceIds)
      call (.deletePersons sourceIds)
      let keys := (sources.map Person.thumbnailKey).filter (fun key => key ≠ "")
      onlyIf (keys ≠ []) (call (.queueAll [.cleanupKeys keys]))
      onlyIf (target.faceAssetFaceId = none ∨ target.thumbnailKey = "")
        (call (.queueAll [.personThumbnail personId]))
      pure .success

/-! The matching of participants. -/

def MATCH_NUM_RESULTS : ℕ := 200

/-- The smallest distance for each face, in the order the faces were found. -/
def noteBest (best : List FaceSearchResult) (hit : FaceSearchResult) : List FaceSearchResult :=
  if best.any (fun b => b.id = hit.id) then
    best.map (fun b => if b.id = hit.id ∧ hit.distance < b.distance then
      { b with assetId := hit.assetId, distance := hit.distance } else b)
  else best ++ [hit]

def searchAll (eventId : EventId) (maxDistance : ℚ) : List Embedding → List FaceSearchResult →
    Attempt (List FaceSearchResult)
  | [], best => pure best
  | embedding :: rest, best => do
    let hits ← searchFaces
      { eventId := eventId, embedding := embedding, numResults := MATCH_NUM_RESULTS,
        maxDistance := maxDistance }
    searchAll eventId maxDistance rest (hits.foldl noteBest best)

def insertMatches (inserts : List ParticipantMatch) : Attempt ℕ :=
  if inserts = [] then pure 0 else call (.insertMatches inserts)

def matchParticipant (participant : Participant) : Attempt ℕ :=
  match participant.selfieEmbedding with
  | none => pure 0
  | some selfieEmbedding => do
    let config ← call (.getConfig participant.eventId)
    let selfies ← call (.getSelfies participant.id)
    let own := selfies.filterMap ParticipantSelfie.embedding
    let embeddings := if own = [] then [selfieEmbedding] else own
    let best ← searchAll participant.eventId config.maxDistance embeddings []
    let inserted ← insertMatches (best.map (fun hit =>
      { participantId := participant.id, assetId := hit.assetId, viaFaceId := some hit.id,
        distance := hit.distance }))
    let total ← call (.countMatches participant.id)
    call (.setMatched participant.id (0 < total))
    pure inserted

def rematchAll : List Participant → Attempt Unit
  | [] => pure ()
  | participant :: rest => do
    let newMatches ← matchParticipant participant
    onlyIf (0 < newMatches)
      (call (.queueAll [if participant.notified then .sendDigest participant.id
      else .sendGalleryEmail participant.id]))
    rematchAll rest

def handleParticipantRematch (eventId : EventId) : Attempt JobStatus := do
  let participants ← call (.getMatchableByEvent eventId)
  if participants = [] then pure .skipped
  else do
    rematchAll participants
    pure .success

/-- The end of the processing of a selfie. -/
def matchSelfie (participantId : ParticipantId) : Attempt JobStatus := do
  match ← call (.getParticipant participantId) with
  | none => pure .skipped
  | some participant => do
    let newMatches ← matchParticipant participant
    onlyIf (0 < newMatches) (call (.queueAll [.sendGalleryEmail participantId]))
    pure .success

/-! Jobs and requests side by side. -/

inductive FaceCall
  | detectFaces (assetId : AssetId)
  | recognizeFaces (faceId : FaceId) (deferred : Bool)
  | queueRecognizeFaces (eventId : EventId) (force : Bool)
  | personCleanup
  | setCover (eventId : EventId) (personId : PersonId) (faceId : FaceId)
  | merge (eventId : EventId) (personId : PersonId) (ids : List PersonId)
  | participantRematch (eventId : EventId)
  | matchSelfie (participantId : ParticipantId)
deriving DecidableEq, Repr

abbrev FaceOutcome := Except FaceError JobStatus

def FaceCall.prog (pages : ℕ) : FaceCall → FaceProg FaceOutcome
  | .detectFaces assetId => (handleDetectFaces assetId).run
  | .recognizeFaces faceId deferred => (handleRecognizeFaces faceId deferred).run
  | .queueRecognizeFaces eventId force => (handleQueueRecognizeFaces pages eventId force).run
  | .personCleanup => handlePersonCleanup.run
  | .setCover eventId personId faceId => (Faces.setCover eventId personId faceId).run
  | .merge eventId personId ids => (Faces.merge eventId personId ids).run
  | .participantRematch eventId => (handleParticipantRematch eventId).run
  | .matchSelfie participantId => (Faces.matchSelfie participantId).run

/-- Any call may start at any time, and calls that returned stay as they are. -/
def faceServer (pages : ℕ) : Server FaceCall FaceOp FaceRes FaceStore FaceOutcome where
  handler := faceHandler distance
  prog := FaceCall.prog pages
  accept _ s := some s
  release _ _ _ _ := none

abbrev FaceThread := Thread FaceCall FaceOp FaceRes FaceOutcome
abbrev FacePool := Pool FaceCall FaceOp FaceRes FaceStore FaceOutcome
abbrev FaceMove := Move FaceCall FaceOp FaceRes

/-- Every statement succeeds; the settings and the detections are the given
ones, and the tables answer the rest. -/
def succeeding (config : FacialRecognitionConfig) (detected : DetectedFaces) :
    (o : FaceOp) → FaceRes o
  | .getConfig _ => .ok config
  | .detectFaces _ => .ok detected
  | .getByIdUnscoped _ => .ok none
  | .getFiles _ => .ok false
  | .getByAssetId _ => .ok []
  | .randomUUID => .ok (0 : ℕ)
  | .getForRecognition _ => .ok none
  | .searchFaces _ => .ok []
  | .createPerson _ _ _ => .ok { id := 0, eventId := 0, orgId := 0 }
  | .getUnassignedFaceIds _ _ _ => .ok []
  | .getAllWithoutFaces => .ok []
  | .getPerson _ _ => .ok none
  | .getFaceOfPerson _ _ => .ok none
  | .getParticipant _ => .ok none
  | .getMatchableByEvent _ => .ok []
  | .getSelfies _ => .ok []
  | .insertMatches _ => .ok (0 : ℕ)
  | .countMatches _ => .ok (0 : ℕ)
  | .downloadToFile _ => .ok ()
  | .refreshFaces _ _ _ => .ok ()
  | .setFacesDetected _ _ => .ok ()
  | .queueAll _ => .ok ()
  | .reassignFaces _ _ => .ok ()
  | .nameFromParticipants _ _ => .ok ()
  | .waitForQueueCompletion => .ok ()
  | .unassignByEvent _ => .ok ()
  | .prewarmVectorIndex => .ok ()
  | .deletePersons _ => .ok ()
  | .setCover _ _ _ => .ok ()
  | .reassignFacesOfPeople _ _ => .ok ()
  | .setMatched _ _ => .ok ()

/-- So many statements of one call, all of them successful. -/
def advancing (config : FacialRecognitionConfig) (detected : DetectedFaces) (thread n : ℕ) :
    List FaceMove :=
  List.replicate n (.perform thread (succeeding config detected))

def oneFace : DetectedFaces :=
  { imageHeight := 10
    imageWidth := 10
    faces := [{ boundingBox := { x1 := 0, y1 := 0, x2 := 4, y2 := 4 }, embedding := "face" }] }

def noFaces : DetectedFaces := { imageHeight := 10, imageWidth := 10, faces := [] }

/-- One statement inside a handler: the next ones follow if it succeeds. -/
theorem follows_call {γ α : Type} {C : Contract FaceOp FaceRes γ} {o : FaceOp}
    {f : FaceAnswer o → Attempt α} {Q : Except FaceError α → γ → Prop} {g : γ}
    (hpermit : C.permits g o)
    (hok : ∀ answer, C.expects g ⟨o, .ok answer⟩ →
      C.Follows (f answer).run Q (C.note g ⟨o, .ok answer⟩))
    (herror : ∀ e, C.expects g ⟨o, .error e⟩ → Q (.error e) (C.note g ⟨o, .error e⟩)) :
    C.Follows (call o >>= f).run Q g := by
  refine ⟨hpermit, fun r hr => ?_⟩
  cases r with
  | ok answer => exact hok answer hr
  | error e => exact herror e hr

end EventLens.Faces
