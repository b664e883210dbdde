import EventLens.AssetListing
import EventLens.FaceService
import EventLens.ImportService

/-!
The tables behind the participant galleries, and what happens to them: events
with their sharing toggles, assets with their derived files, faces, persons,
participants with the hashes of their gallery tokens, and matches. A matching
searches first and inserts later, so searches that are still to be inserted are
part of the state.
-/

namespace EventLens.Galleries

open Faces (AssetId FaceId PersonId ParticipantId AssetFace ParticipantMatch FaceSearchResult)
open Import (AssetType)

abbrev Date := ℤ
abbrev OrgId := ℕ
abbrev EventId := ℕ
abbrev Digest := String

structure Organization where
  id : OrgId
  name : String
deriving DecidableEq, Repr

structure EventRow where
  id : EventId
  orgId : OrgId
  name : String
  startsAt : Option Date := none
  endsAt : Option Date := none
  participantsSeeAllPhotos : Bool := false
  participantsCanDownloadAll : Bool := false
  expiresAt : Option Date := none
  purgedAt : Option Date := none
  deletedAt : Option Date := none
deriving DecidableEq, Repr

def isEventExpired (event : EventRow) (now : Date) : Prop := ∃ t ∈ event.expiresAt, t ≤ now

instance (event : EventRow) (now : Date) : Decidable (isEventExpired event now) :=
  inferInstanceAs (Decidable (∃ t ∈ event.expiresAt, t ≤ now))

def isEventPurged (event : EventRow) : Bool := event.purgedAt.isSome

inductive AssetStatus
  | staged | stored | processed | failed
deriving DecidableEq, Repr

structure Asset extends Assets.Asset ℕ where
  type : AssetType
  status : AssetStatus := .staged
  originalFilename : String
  createdAt : Date
  width : Option ℕ := none
  height : Option ℕ := none
  thumbhash : Option String := none
  storageKey : String
deriving DecidableEq

inductive AssetFileType
  | preview | thumbnail | encodedVideo
deriving DecidableEq, Repr

/-- A row of `asset_file`, unique for asset and type. -/
structure AssetFile where
  assetId : AssetId
  type : AssetFileType
  storageKey : String
deriving DecidableEq, Repr

structure Person where
  id : PersonId
  eventId : EventId
  name : String := ""
  isHidden : Bool := false
  faceAssetFaceId : Option FaceId := none
deriving DecidableEq, Repr

inductive ParticipantStatus
  | processing | noFace | pendingMatch | matched
deriving DecidableEq, Repr

structure Participant where
  id : ParticipantId
  eventId : EventId
  email : String
  name : String
  galleryTokenHash : Digest
  status : ParticipantStatus := .processing
  galleryOpenedAt : Option Date := none
  awaitingResultNotice : Bool := false
  deletedAt : Option Date := none
deriving DecidableEq, Repr

/-- The tables, the searches whose matches are still to be inserted, the clock
and the ids given out next. -/
structure GalleryStore where
  organizations : List Organization := []
  events : List EventRow := []
  assets : List Asset := []
  files : List AssetFile := []
  faces : List AssetFace := []
  persons : List Person := []
  participants : List Participant := []
  matchRows : List ParticipantMatch := []
  searched : List (List ParticipantMatch) := []
  clock : Date := 0
  nextEvent : EventId := 0
  nextAsset : AssetId := 0
  nextFace : FaceId := 0
  nextPerson : PersonId := 0
  nextParticipant : ParticipantId := 0

/-! What requests and jobs write. -/

/-- The columns of an event that the galleries read, as the event update and the
expiry sweep set them. -/
structure UpdateEvent where
  name : Option String := none
  expiresAt : Option (Option Date) := none
  purgedAt : Option Date := none
  participantsSeeAllPhotos : Option Bool := none
  participantsCanDownloadAll : Option Bool := none
deriving DecidableEq, Repr

def UpdateEvent.apply (dto : UpdateEvent) (event : EventRow) : EventRow :=
  { event with
    name := dto.name.getD event.name
    expiresAt := dto.expiresAt.getD event.expiresAt
    purgedAt := dto.purgedAt.or event.purgedAt
    participantsSeeAllPhotos := dto.participantsSeeAllPhotos.getD event.participantsSeeAllPhotos
    participantsCanDownloadAll :=
      dto.participantsCanDownloadAll.getD event.participantsCanDownloadAll }

/-- What media processing and detection write into an asset. -/
structure UpdateAsset where
  status : Option AssetStatus := none
  capturedAt : Option (Option Date) := none
  width : Option ℕ := none
  height : Option ℕ := none
  thumbhash : Option String := none
  facesDetected : Option (Date × ℕ) := none
deriving DecidableEq, Repr

def UpdateAsset.apply (dto : UpdateAsset) (asset : Asset) : Asset :=
  { asset with
    status := dto.status.getD asset.status
    capturedAt := dto.capturedAt.getD asset.capturedAt
    width := dto.width.or asset.width
    height := dto.height.or asset.height
    thumbhash := dto.thumbhash.or asset.thumbhash
    facesDetectedAt := (dto.facesDetected.map Prod.fst).or asset.facesDetectedAt
    faceCount := (dto.facesDetected.map Prod.snd).getD asset.faceCount }

structure UpdatePerson where
  name : Option String := none
  isHidden : Option Bool := none
  faceAssetFaceId : Option FaceId := none
deriving DecidableEq, Repr

def UpdatePerson.apply (dto : UpdatePerson) (person : Person) : Person :=
  { person with
    name := dto.name.getD person.name
    isHidden := dto.isHidden.getD person.isHidden
    faceAssetFaceId := dto.faceAssetFaceId.or person.faceAssetFaceId }

structure ParticipantUpsert where
  eventId : EventId
  email : String
  name : String
  galleryTokenHash : Digest
deriving DecidableEq, Repr

/-- What the upsert sets in a row that is there already. -/
def ParticipantUpsert.resubmit (dto : ParticipantUpsert) (p : Participant) : Participant :=
  { p with
    name := dto.name
    galleryTokenHash := dto.galleryTokenHash
    status := .processing
    awaitingResultNotice := false }

structure UpdateParticipant where
  status : Option ParticipantStatus := none
  galleryTokenHash : Option Digest := none
  galleryOpenedAt : Option Date := none
  awaitingResultNotice : Option Bool := none
deriving DecidableEq, Repr

def UpdateParticipant.apply (dto : UpdateParticipant) (p : Participant) : Participant :=
  { p with
    status := dto.status.getD p.status
    galleryTokenHash := dto.galleryTokenHash.getD p.galleryTokenHash
    galleryOpenedAt := dto.galleryOpenedAt.or p.galleryOpenedAt
    awaitingResultNotice := dto.awaitingResultNotice.getD p.awaitingResultNotice }

/-- One change of the tables. A search is told what the vector index found: ids
of faces with their distances. -/
inductive Change
  | createOrganization (name : String)
  | createEvent (orgId : OrgId) (name : String)
  | updateEvent (eventId : EventId) (dto : UpdateEvent)
  | softDeleteEvent (eventId : EventId)
  | removeEvent (eventId : EventId)
  | createAsset (eventId : EventId) (type : AssetType) (originalFilename storageKey : String)
  | updateAsset (assetId : AssetId) (dto : UpdateAsset)
  | upsertFile (file : AssetFile)
  | deleteMany (eventId : EventId) (ids : List AssetId)
  | refreshFaces (facesToAdd : List AssetFace) (faceIdsToRemove : List FaceId)
  | createPerson (eventId : EventId) (faceAssetFaceId : FaceId)
  | updatePerson (eventId : EventId) (personId : PersonId) (dto : UpdatePerson)
  | reassignFaces (faceIds : List FaceId) (newPersonId : Option PersonId)
  | deletePersons (ids : List PersonId)
  | upsertParticipant (dto : ParticipantUpsert)
  | updateParticipant (participantId : ParticipantId) (dto : UpdateParticipant)
  | softDeleteAndScrub (participantId : ParticipantId)
  | eraseParticipant (participantId : ParticipantId)
  | searchMatches (participantId : ParticipantId) (found : List (FaceId × ℚ))
  | insertMatches (index : ℕ)
  | tick (now : Date)
deriving DecidableEq, Repr

namespace GalleryStore

variable (s : GalleryStore)

def organization (id : OrgId) : Option Organization := s.organizations.find? (fun o => o.id = id)

def event (id : EventId) : Option EventRow := s.events.find? (fun e => e.id = id)

def getEvent (id : EventId) : Option EventRow :=
  s.events.find? (fun e => e.id = id ∧ e.deletedAt = none)

def asset (id : AssetId) : Option Asset := s.assets.find? (fun a => a.id = id)

/-- `AssetRepository.getById`. -/
def getAsset (eventId : EventId) (assetId : AssetId) : Option Asset :=
  s.assets.find? (fun a => a.id = assetId ∧ a.eventId = eventId ∧ a.deletedAt = none)

def face (id : FaceId) : Option AssetFace := s.faces.find? (fun f => f.id = id)

def person (id : PersonId) : Option Person := s.persons.find? (fun p => p.id = id)

/-- `PersonRepository.getById`. -/
def getPerson (eventId : EventId) (personId : PersonId) : Option Person :=
  s.persons.find? (fun p => p.id = personId ∧ p.eventId = eventId)

def participant (id : ParticipantId) : Option Participant :=
  s.participants.find? (fun p => p.id = id ∧ p.deletedAt = none)

/-- `ParticipantRepository.getByTokenHash`. -/
def getByTokenHash (tokenHash : Digest) : Option Participant :=
  s.participants.find? (fun p => p.galleryTokenHash = tokenHash ∧ p.deletedAt = none)

def isMatchedAsset (participantId : ParticipantId) (assetId : AssetId) : Bool :=
  s.matchRows.any (fun m => m.participantId = participantId ∧ m.assetId = assetId)

/-- A live face of a live asset of the event. -/
def candidate (eventId : EventId) (faceId : FaceId) (distance : ℚ) : Option FaceSearchResult := do
  let f ← s.face faceId
  let a ← s.asset f.assetId
  if a.eventId = eventId ∧ a.deletedAt = none ∧ f.deleted = false then
    pure { id := f.id, personId := f.personId, assetId := f.assetId, distance := distance }
  else none

/-- The matches of a participant's search, within the participant's event. -/
def matchesFor (p : Participant) (found : List (FaceId × ℚ)) : List ParticipantMatch :=
  ((found.filterMap (fun hit => s.candidate p.eventId hit.1 hit.2)).foldl Faces.noteBest []).map
    (fun best =>
      { participantId := p.id
        assetId := best.assetId
        viaFaceId := some best.id
        distance := best.distance })

/-- `ON DELETE SET NULL` for persons and matches. -/
def removeFaces (faceIds : List FaceId) : GalleryStore :=
  { s with
    faces := s.faces.filter (fun f => f.id ∉ faceIds)
    persons := s.persons.map (fun p =>
      { p with faceAssetFaceId := p.faceAssetFaceId.filter (fun f => f ∉ faceIds) })
    matchRows := s.matchRows.map (fun m =>
      { m with viaFaceId := m.viaFaceId.filter (fun f => f ∉ faceIds) }) }

/-- New faces get the next ids. -/
def addFaces (facesToAdd : List AssetFace) : GalleryStore :=
  { s with
    faces := s.faces ++ facesToAdd.zipIdx.map (fun new => { new.1 with id := s.nextFace + new.2 })
    nextFace := s.nextFace + facesToAdd.length }

/-- `ON DELETE CASCADE` for everything of the event, and what hangs on that. -/
def removeEvent (eventId : EventId) : GalleryStore :=
  let gone := (s.assets.filter (fun a => a.eventId = eventId)).map (fun a => a.id)
  let erased := (s.participants.filter (fun p => p.eventId = eventId)).map Participant.id
  let faceless := s.removeFaces ((s.faces.filter (fun f => f.assetId ∈ gone)).map AssetFace.id)
  { faceless with
    events := s.events.filter (fun e => e.id ≠ eventId)
    assets := s.assets.filter (fun a => a.eventId ≠ eventId)
    files := s.files.filter (fun f => f.assetId ∉ gone)
    persons := faceless.persons.filter (fun p => p.eventId ≠ eventId)
    participants := s.participants.filter (fun p => p.eventId ≠ eventId)
    matchRows := faceless.matchRows.filter (fun m => m.assetId ∉ gone ∧ m.participantId ∉ erased) }

def upsertFile (file : AssetFile) : GalleryStore :=
  if s.files.any (fun f => f.assetId = file.assetId ∧ f.type = file.type) then
    { s with
      files := s.files.map (fun f =>
        if f.assetId = file.assetId ∧ f.type = file.type then { f with storageKey :=
          file.storageKey } else f) }
  else { s with files := s.files ++ [file] }

def softDeleteMany (eventId : EventId) (ids : List AssetId) : GalleryStore :=
  { s with
    assets := s.assets.map (fun a =>
      if a.eventId = eventId ∧ a.id ∈ ids ∧ a.deletedAt = none
        then { a with deletedAt := some s.clock }
      else a) }

def updateParticipant (participantId : ParticipantId) (dto : UpdateParticipant) : GalleryStore :=
  { s with
    participants := s.participants.map (fun p => if p.id = participantId then dto.apply p else p) }

/-- The live row of the address takes the new submission; else a new row does. -/
def upsertParticipant (dto : ParticipantUpsert) : GalleryStore :=
  let conflicts := fun p : Participant =>
    p.eventId = dto.eventId ∧ p.email.toLower = dto.email.toLower ∧ p.deletedAt = none
  if s.participants.any (fun p => conflicts p) then
    { s with participants :=
      s.participants.map (fun p => if conflicts p then dto.resubmit p else p) }
  else
    { s with
      participants := s.participants ++
        [{ id := s.nextParticipant
           eventId := dto.eventId
           email := dto.email
           name := dto.name
           galleryTokenHash := dto.galleryTokenHash }]
      nextParticipant := s.nextParticipant + 1 }

/-- Nothing where a participant, an asset or a face is gone. -/
def insertMatches (inserts : List ParticipantMatch) : GalleryStore :=
  if inserts.all (fun m => s.participants.any (fun p => p.id = m.participantId) ∧
      (s.asset m.assetId).isSome ∧ m.viaFaceId.all (fun f => (s.face f).isSome)) then
    { s with matchRows := inserts.foldl Faces.FaceStore.addMatch s.matchRows }
  else s

/-- One change. A statement that a foreign key refuses changes nothing. -/
def apply : Change → GalleryStore
  | .createOrganization name =>
    { s with organizations := s.organizations ++ [{ id := s.organizations.length, name := name }] }
  | .createEvent orgId name =>
    if (s.organization orgId).isSome then
      { s with
        events := s.events ++ [{ id := s.nextEvent, orgId := orgId, name := name }]
        nextEvent := s.nextEvent + 1 }
    else s
  | .updateEvent eventId dto =>
    { s with events := s.events.map (fun e => if e.id = eventId then dto.apply e else e) }
  | .softDeleteEvent eventId =>
    { s with
      events :=
        s.events.map (fun e => if e.id = eventId then { e with deletedAt := some s.clock } else e) }
  | .removeEvent eventId => s.removeEvent eventId
  | .createAsset eventId type originalFilename storageKey =>
    match s.event eventId with
    | none => s
    | some event =>
      { s with
        assets := s.assets ++
          [{ id := s.nextAsset
             eventId := eventId
             orgId := event.orgId
             type := type
             originalFilename := originalFilename
             createdAt := s.clock
             storageKey := storageKey }]
        nextAsset := s.nextAsset + 1 }
  | .updateAsset assetId dto =>
    { s with assets := s.assets.map (fun a => if a.id = assetId then dto.apply a else a) }
  | .upsertFile file => if (s.asset file.assetId).isSome then s.upsertFile file else s
  | .deleteMany eventId ids => s.softDeleteMany eventId ids
  | .refreshFaces facesToAdd faceIdsToRemove =>
    if facesToAdd.all (fun f => (s.asset f.assetId).isSome) then
      (s.removeFaces faceIdsToRemove).addFaces facesToAdd
    else s
  | .createPerson eventId faceAssetFaceId =>
    if (s.event eventId).isSome ∧ (s.face faceAssetFaceId).isSome then
      { s with
        persons := s.persons ++
          [{ id := s.nextPerson, eventId := eventId, faceAssetFaceId := some faceAssetFaceId }]
        nextPerson := s.nextPerson + 1 }
    else s
  | .updatePerson eventId personId dto =>
    { s with
      persons := s.persons.map (fun p =>
        if p.id = personId ∧ p.eventId = eventId then dto.apply p else p) }
  | .reassignFaces faceIds newPersonId =>
    if newPersonId.all (fun p => (s.person p).isSome) then
      { s with
        faces := s.faces.map (fun f => if f.id ∈ faceIds then { f with personId :=
          newPersonId } else f) }
    else s
  | .deletePersons ids =>
    { s with
      persons := s.persons.filter (fun p => p.id ∉ ids)
      faces := s.faces.map (fun f => { f with personId := f.personId.filter (fun p => p ∉ ids) }) }
  | .upsertParticipant dto => if (s.event dto.eventId).isSome then s.upsertParticipant dto else s
  | .updateParticipant participantId dto => s.updateParticipant participantId dto
  | .softDeleteAndScrub participantId =>
    { s with
      participants := s.participants.map (fun p =>
        if p.id = participantId then { p with deletedAt := some s.clock } else p) }
  | .eraseParticipant participantId =>
    { s with
      participants := s.participants.filter (fun p => p.id ≠ participantId)
      matchRows := s.matchRows.filter (fun m => m.participantId ≠ participantId) }
  | .searchMatches participantId found =>
    match s.participant participantId with
    | none => s
    | some p => { s with searched := s.searched ++ [s.matchesFor p found] }
  | .insertMatches index =>
    match s.searched[index]? with
    | none => s
    | some inserts => { s.insertMatches inserts with searched := s.searched.eraseIdx index }
  | .tick now => { s with clock := max s.clock now }

end GalleryStore

/-- The tables after these changes, from empty ones. -/
def after (changes : List Change) : GalleryStore := changes.foldl GalleryStore.apply {}

end EventLens.Galleries
