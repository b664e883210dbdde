import EventLens.Nearest
import Mathlib.Algebra.Order.Ring.Unbundled.Rat
import Mathlib.Data.Rat.Defs

/-!
The tables of the face pipeline: assets, the faces found in them with their
embeddings, the persons they are clustered into, participants with their
selfies and matches, and the jobs queued by it all. Ids are numbers, given out
in order. Rows that go take their references along as the foreign keys say.
-/

namespace EventLens.Faces

abbrev EventId := ℕ
abbrev OrgId := ℕ
abbrev AssetId := ℕ
abbrev FaceId := ℕ
abbrev PersonId := ℕ
abbrev ParticipantId := ℕ
/-- A vector, in the text form of the database. -/
abbrev Embedding := String

structure BoundingBox where
  x1 : ℤ
  y1 : ℤ
  x2 : ℤ
  y2 : ℤ
deriving DecidableEq, Repr

inductive FaceSourceType
  | machineLearning
deriving DecidableEq, Repr

/-- A row of `asset`. `faceCount` is set with `facesDetectedAt`. -/
structure Asset where
  id : AssetId
  eventId : EventId
  orgId : OrgId
  hasPreview : Bool := true
  faceCount : Option ℕ := none
  deleted : Bool := false
deriving DecidableEq, Repr

/-- A row of `asset_face`. -/
structure AssetFace where
  id : FaceId
  assetId : AssetId
  personId : Option PersonId := none
  imageHeight : ℕ
  imageWidth : ℕ
  boundingBox : BoundingBox
  sourceType : FaceSourceType := .machineLearning
  deleted : Bool := false
deriving DecidableEq, Repr

/-- A row of `face_search`. -/
structure FaceSearch where
  faceId : FaceId
  embedding : Embedding
deriving DecidableEq, Repr

structure Person where
  id : PersonId
  eventId : EventId
  orgId : OrgId
  faceAssetFaceId : Option FaceId := none
  thumbnailKey : String := ""
deriving DecidableEq, Repr

structure Participant where
  id : ParticipantId
  eventId : EventId
  selfieEmbedding : Option Embedding := none
  notified : Bool := false
  matched : Bool := false
  deleted : Bool := false
deriving DecidableEq, Repr

structure ParticipantSelfie where
  participantId : ParticipantId
  ordinal : ℕ
  embedding : Option Embedding := none
deriving DecidableEq, Repr

structure ParticipantMatch where
  participantId : ParticipantId
  assetId : AssetId
  viaFaceId : Option FaceId
  distance : ℚ
deriving DecidableEq, Repr

inductive FaceJob
  | faceRecognize (faceId : FaceId) (deferred : Bool)
  | faceRecognizeQueueAll (eventId : EventId) (force : Bool)
  | participantRematch (eventId : EventId)
  | personThumbnail (personId : PersonId)
  | cleanupKeys (keys : List String)
  | sendDigest (participantId : ParticipantId)
  | sendGalleryEmail (participantId : ParticipantId)
deriving DecidableEq, Repr

/-- What a queued job is told apart by. -/
inductive JobId
  | rematch (eventId : EventId)
  | digest (participantId : ParticipantId)
  | queueAll (eventId : EventId)
deriving DecidableEq, Repr

/-- The job ids and deduplication ids of `getJobOptions`. -/
def FaceJob.jobId : FaceJob → Option JobId
  | .participantRematch eventId => some (.rematch eventId)
  | .sendDigest participantId => some (.digest participantId)
  | .faceRecognizeQueueAll eventId _ => some (.queueAll eventId)
  | _ => none

structure FacialRecognitionConfig where
  maxDistance : ℚ
  minFaces : ℕ
deriving DecidableEq, Repr

structure DetectedFace where
  boundingBox : BoundingBox
  embedding : Embedding
deriving DecidableEq, Repr

structure DetectedFaces where
  imageHeight : ℕ
  imageWidth : ℕ
  faces : List DetectedFace
deriving DecidableEq, Repr

structure FaceForRecognition where
  id : FaceId
  personId : Option PersonId
  sourceType : FaceSourceType
  assetId : AssetId
  eventId : EventId
  orgId : OrgId
  embedding : Option Embedding
deriving DecidableEq, Repr

structure FaceSearchOptions where
  eventId : EventId
  embedding : Embedding
  numResults : ℕ
  maxDistance : ℚ
  hasPerson : Bool := false
deriving DecidableEq, Repr

structure FaceSearchResult where
  id : FaceId
  personId : Option PersonId
  assetId : AssetId
  distance : ℚ
deriving DecidableEq, Repr

/-- The tables, the queued jobs, the ids of jobs that the job store holds beside
them (running, or failed and kept), and the ids given out next. -/
structure FaceStore where
  assets : List Asset := []
  faces : List AssetFace := []
  searches : List FaceSearch := []
  persons : List Person := []
  participants : List Participant := []
  selfies : List ParticipantSelfie := []
  matchRows : List ParticipantMatch := []
  jobs : List FaceJob := []
  held : List JobId := []
  nextFace : FaceId := 0
  nextPerson : PersonId := 0
deriving DecidableEq, Repr

namespace FaceStore

variable (s : FaceStore)

def asset (id : AssetId) : Option Asset := s.assets.find? (fun a => a.id = id)

def face (id : FaceId) : Option AssetFace := s.faces.find? (fun f => f.id = id)

def person (id : PersonId) : Option Person := s.persons.find? (fun p => p.id = id)

def embedding (id : FaceId) : Option Embedding :=
  (s.searches.find? (fun row => row.faceId = id)).map FaceSearch.embedding

/-- The event of the face's asset. -/
def eventOf (f : AssetFace) : Option EventId := (s.asset f.assetId).map Asset.eventId

def getByIdUnscoped (assetId : AssetId) : Option Asset :=
  (s.asset assetId).filter (fun a => a.deleted = false)

def getByAssetId (assetId : AssetId) : List AssetFace :=
  s.faces.filter (fun f => f.assetId = assetId ∧ f.deleted = false)

/-- The face, its asset and its embedding. -/
def getForRecognition (faceId : FaceId) : Option FaceForRecognition := do
  let f ← s.face faceId
  let a ← s.asset f.assetId
  if f.deleted = false ∧ a.deleted = false then
    pure
      { id := f.id
        personId := f.personId
        sourceType := f.sourceType
        assetId := a.id
        eventId := a.eventId
        orgId := a.orgId
        embedding := s.embedding faceId }
  else none

def getUnassignedFaceIds (eventId : EventId) (limit : ℕ) (afterId : Option FaceId) : List FaceId :=
  (((s.faces.filter (fun f => (s.asset f.assetId).any (fun a => a.eventId = eventId ∧
      a.deleted = false) ∧ f.deleted = false ∧ f.personId = none ∧
      f.sourceType = .machineLearning ∧ afterId.all (fun k => k < f.id))).map
    AssetFace.id).insertionSort (fun i j => i ≤ j)).take limit

/-- A live face of the event with its distance from an embedding. -/
def candidate (distance : Embedding → Embedding → ℚ) (options : FaceSearchOptions)
    (f : AssetFace) : Option FaceSearchResult := do
  let a ← s.asset f.assetId
  let embedding ← s.embedding f.id
  if a.eventId = options.eventId ∧ a.deleted = false ∧ f.deleted = false ∧
      (options.hasPerson = true → f.personId ≠ none) then
    pure
      { id := f.id
        personId := f.personId
        assetId := f.assetId
        distance := distance embedding options.embedding }
  else none

/-- The common table expression: ordered by distance, equal distances in an
order of the database's choice, and cut; then what is within the distance. -/
def searchFaces (distance : Embedding → Embedding → ℚ) (options : FaceSearchOptions)
    (choice : List FaceSearchResult) : List FaceSearchResult :=
  Nearest.window (fun hit => toLex (hit.distance, choice.idxOf hit))
    (fun hit => hit.distance ≤ options.maxDistance) options.numResults
    (s.faces.filterMap (s.candidate distance options))

/-- `ON DELETE SET NULL` for persons and matches, `ON DELETE CASCADE` for the
embedding. -/
def removeFaces (ids : List FaceId) : FaceStore :=
  { s with
    faces := s.faces.filter (fun f => f.id ∉ ids)
    searches := s.searches.filter (fun row => row.faceId ∉ ids)
    persons := s.persons.map (fun p =>
      { p with faceAssetFaceId := p.faceAssetFaceId.filter (fun f => f ∉ ids) })
    matchRows :=
      s.matchRows.map (fun m => { m with viaFaceId := m.viaFaceId.filter (fun f => f ∉ ids) }) }

/-- One statement: it fails where a face or an embedding is there already, or
the asset or the face it is for is not. -/
def refreshFaces (facesToAdd : List AssetFace) (faceIdsToRemove : List FaceId)
    (embeddingsToAdd : List FaceSearch) : Option FaceStore :=
  if facesToAdd.all (fun f => (s.asset f.assetId).isSome ∧ s.face f.id = none) ∧
      (facesToAdd.map AssetFace.id).Nodup ∧
      embeddingsToAdd.all (fun row => s.embedding row.faceId = none ∧
        ((s.face row.faceId).isSome ∧ row.faceId ∉ faceIdsToRemove ∨
          facesToAdd.any (fun f => f.id = row.faceId))) ∧
      (embeddingsToAdd.map FaceSearch.faceId).Nodup then
    let kept := s.removeFaces faceIdsToRemove
    some { kept with
      faces := kept.faces ++ facesToAdd
      searches := kept.searches ++ embeddingsToAdd }
  else none

def setFacesDetected (assetId : AssetId) (faceCount : ℕ) : FaceStore :=
  { s with
    assets :=
      s.assets.map (fun a => if a.id = assetId then { a with faceCount := some faceCount } else a) }

/-- Nothing where the person is gone. -/
def reassign (ids : AssetFace → Bool) (newPersonId : PersonId) : Option FaceStore :=
  if s.faces.any ids = true ∧ s.person newPersonId = none then none
  else some { s with
    faces := s.faces.map (fun f => if ids f then { f with personId := some newPersonId } else f) }

def unassignByEvent (eventId : EventId) : FaceStore :=
  { s with
    faces := s.faces.map (fun f =>
      if f.sourceType = .machineLearning ∧
          (s.asset f.assetId).any (fun a => a.eventId = eventId ∧ a.deleted = false) then
        { f with personId := none }
      else f) }

/-- Nothing where the cover face is gone. -/
def createPerson (eventId : EventId) (orgId : OrgId) (faceAssetFaceId : FaceId) :
    Option (Person × FaceStore) :=
  if s.face faceAssetFaceId = none then none
  else
    let p : Person :=
      { id := s.nextPerson, eventId := eventId, orgId := orgId, faceAssetFaceId :=
        some faceAssetFaceId }
    some (p, { s with persons := s.persons ++ [p], nextPerson := s.nextPerson + 1 })

def getPerson (eventId : EventId) (personId : PersonId) : Option Person :=
  (s.person personId).filter (fun p => p.eventId = eventId)

def getAllWithoutFaces : List Person :=
  s.persons.filter (fun p => !s.faces.any (fun f => f.personId = some p.id ∧ f.deleted = false))

/-- The faces of a person that goes lose it. -/
def deletePersons (ids : List PersonId) : FaceStore :=
  { s with
    persons := s.persons.filter (fun p => p.id ∉ ids)
    faces := s.faces.map (fun f => { f with personId := f.personId.filter (fun p => p ∉ ids) }) }

def getFaceOfPerson (personId : PersonId) (faceId : FaceId) : Option FaceId :=
  (s.faces.find? (fun f => f.id = faceId ∧ f.personId = some personId ∧ f.deleted = false)).map
    AssetFace.id

/-- Nothing where the person or the face is gone. -/
def setCover (eventId : EventId) (personId : PersonId) (faceId : FaceId) : Option FaceStore :=
  if s.getPerson eventId personId = none ∨ s.face faceId = none then none
  else some { s with
    persons := s.persons.map (fun p =>
      if p.id = personId ∧ p.eventId = eventId then { p with faceAssetFaceId := some faceId }
        else p) }

def getParticipant (id : ParticipantId) : Option Participant :=
  s.participants.find? (fun p => p.id = id ∧ p.deleted = false)

def getMatchableByEvent (eventId : EventId) : List Participant :=
  s.participants.filter (fun p => p.eventId = eventId ∧ p.selfieEmbedding ≠ none ∧
    p.deleted = false)

def getSelfies (id : ParticipantId) : List ParticipantSelfie :=
  (s.selfies.filter (fun row => row.participantId = id)).insertionSort
    (fun a b => a.ordinal ≤ b.ordinal)

/-- A match that is there already is kept. -/
def addMatch (rows : List ParticipantMatch) (m : ParticipantMatch) : List ParticipantMatch :=
  if rows.any (fun r => r.participantId = m.participantId ∧ r.assetId = m.assetId) then rows
  else rows ++ [m]

/-- Nothing where the participant, the asset or the face is gone. -/
def insertMatches (inserts : List ParticipantMatch) : Option (ℕ × FaceStore) :=
  if inserts.all (fun m => (s.participants.any (fun p => p.id = m.participantId)) ∧
      (s.asset m.assetId).isSome ∧ m.viaFaceId.all (fun f => (s.face f).isSome)) then
    let rows := inserts.foldl addMatch s.matchRows
    some (rows.length - s.matchRows.length, { s with matchRows := rows })
  else none

def countMatches (id : ParticipantId) : ℕ := s.matchRows.countP (fun m => m.participantId = id)

def setMatched (id : ParticipantId) (flag : Bool) : FaceStore :=
  { s with participants :=
    s.participants.map (fun p => if p.id = id then { p with matched := flag } else p) }

/-- A job whose id the job store has is not added. -/
def queueJob (s : FaceStore) (job : FaceJob) : FaceStore :=
  match job.jobId with
  | some id =>
    if id ∈ s.held ∨ s.jobs.any (fun j => j.jobId = some id) then s else { s with jobs :=
      s.jobs ++ [job] }
  | none => { s with jobs := s.jobs ++ [job] }

def queueAll (items : List FaceJob) : FaceStore := items.foldl queueJob s

end FaceStore

end EventLens.Faces
