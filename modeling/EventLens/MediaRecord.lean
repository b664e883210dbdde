import EventLens.ImportService
import EventLens.Keyset
import Mathlib

/-!
Objects and the rows that name them. An asset has its original, and a row for
each derivative; people and participants have pictures of their own. All keys
of an event begin alike, and the bucket lists them page by page. Deleted assets
stay for a grace period; the rows of an event go with it.
-/

namespace EventLens.Media

open Import (AssetType)

/-- The folders of an event. -/
inductive Folder
  | original | person | preview | selfie | thumb | video
deriving DecidableEq, Repr

def Folder.rank : Folder → ℕ
  | .original => 0
  | .person => 1
  | .preview => 2
  | .selfie => 3
  | .thumb => 4
  | .video => 5

/-- `org/<orgId>/event/<eventId>/<folder>/<id>…`. -/
structure StorageKey where
  orgId : ℕ
  eventId : ℕ
  folder : Folder
  id : ℕ
  index : ℕ := 0
  ext : String := ""
deriving DecidableEq, Repr

structure EventPrefix where
  orgId : ℕ
  eventId : ℕ
deriving DecidableEq, Repr

namespace StorageKeys

def original (orgId eventId assetId : ℕ) (ext : String) : StorageKey :=
  { orgId := orgId, eventId := eventId, folder := .original, id := assetId, ext := ext }

def preview (orgId eventId assetId : ℕ) : StorageKey :=
  { orgId := orgId, eventId := eventId, folder := .preview, id := assetId }

def thumb (orgId eventId assetId : ℕ) : StorageKey :=
  { orgId := orgId, eventId := eventId, folder := .thumb, id := assetId }

def video (orgId eventId assetId : ℕ) : StorageKey :=
  { orgId := orgId, eventId := eventId, folder := .video, id := assetId }

def person (orgId eventId personId : ℕ) : StorageKey :=
  { orgId := orgId, eventId := eventId, folder := .person, id := personId }

def selfie (orgId eventId participantId index : ℕ) : StorageKey :=
  { orgId := orgId, eventId := eventId, folder := .selfie, id := participantId, index := index }

def eventPrefix (orgId eventId : ℕ) : EventPrefix := { orgId := orgId, eventId := eventId }

end StorageKeys

namespace StorageKey

def under (key : StorageKey) (p : EventPrefix) : Bool :=
    key.orgId = p.orgId ∧ key.eventId = p.eventId

/-- The asset that the object belongs to. -/
def assetId? (key : StorageKey) : Option ℕ :=
  match key.folder with
  | .original | .preview | .thumb | .video => some key.id
  | .person | .selfie => none

/-- The text of the key. -/
def text (key : StorageKey) : String :=
  s!"org/{key.orgId}/event/{key.eventId}/" ++
    match key.folder with
    | .original => s!"original/{key.id}{key.ext}"
    | .preview => s!"preview/{key.id}.jpeg"
    | .thumb => s!"thumb/{key.id}.webp"
    | .video => s!"video/{key.id}.mp4"
    | .person => s!"person/{key.id}.jpeg"
    | .selfie =>
      if key.index = 0 then s!"selfie/{key.id}.jpg" else s!"selfie/{key.id}-{key.index}.jpg"

/-- Objects are listed in the order of their texts; the parts that follow only
keep keys apart. -/
def name (key : StorageKey) : String ×ₗ ℕ ×ₗ ℕ ×ₗ ℕ ×ₗ ℕ ×ₗ ℕ ×ₗ String :=
  toLex (key.text, toLex (key.orgId, toLex (key.eventId, toLex (key.folder.rank,
    toLex (key.id, toLex (key.index, key.ext))))))

theorem name_injective : Function.Injective name := by
  intro a b h
  obtain ⟨orgId, eventId, folder, id, index, ext⟩ := a
  obtain ⟨orgId', eventId', folder', id', index', ext'⟩ := b
  simp only [name, EmbeddingLike.apply_eq_iff_eq, Prod.mk.injEq] at h
  obtain ⟨-, rfl, rfl, hfolder, rfl, rfl, rfl⟩ := h
  cases folder <;> cases folder' <;> first | rfl | cases hfolder

end StorageKey

inductive AssetStatus
  | staged | stored | processed | failed
deriving DecidableEq, Repr

inductive AssetSource
  | upload | gDrive | oneDrive
deriving DecidableEq, Repr

inductive AssetFileType
  | preview | thumbnail | encodedVideo
deriving DecidableEq, Repr

structure EventRow where
  id : ℕ
  orgId : ℕ
  slug : String
  deletedAt : Option ℕ := none
deriving DecidableEq, Repr

/-- What never changes about an asset. -/
structure AssetIdentity where
  id : ℕ
  eventId : ℕ
  orgId : ℕ
  storageKey : StorageKey
deriving DecidableEq, Repr

structure AssetRow extends AssetIdentity where
  type : AssetType
  originalFilename : String
  checksum : String
  fileSize : ℕ
  mimeType : String
  status : AssetStatus
  source : AssetSource
  deletedAt : Option ℕ := none
deriving DecidableEq, Repr

structure FileRow where
  assetId : ℕ
  type : AssetFileType
  storageKey : StorageKey
deriving DecidableEq, Repr

/-- `coverAssetId` is the asset of the cover face. -/
structure PersonRow where
  id : ℕ
  eventId : ℕ
  orgId : ℕ
  coverAssetId : Option ℕ := none
  thumbnailKey : Option StorageKey := none
deriving DecidableEq, Repr

structure ParticipantRow where
  id : ℕ
  eventId : ℕ
  email : String
  name : String
  phone : Option String
  selfieKey : StorageKey
  deletedAt : Option ℕ := none
deriving DecidableEq, Repr

structure SelfieRow where
  participantId : ℕ
  ordinal : ℕ
  storageKey : StorageKey
deriving DecidableEq, Repr

inductive ItemStatus
  | pending | downloading | done | skippedDuplicate | failed
deriving DecidableEq, Repr

/-- An item with the organisation, the event and the provider of its import. -/
structure ImportItem where
  id : ℕ
  orgId : ℕ
  eventId : ℕ
  source : AssetSource
  cancelled : Bool := false
  remoteName : String
  status : ItemStatus := .pending
  assetId : Option ℕ := none
deriving DecidableEq, Repr

inductive JobItem
  | assetProcess (assetId : ℕ)
  | videoTranscode (assetId : ℕ)
  | faceDetect (assetId : ℕ)
  | smartSearch (assetId : ℕ)
  | personThumbnail (personId : ℕ)
  | importFile (importItemId : ℕ)
  | sendSelfieReceived (participantId : ℕ)
  | selfieProcess (participantId : ℕ)
  | cleanupKeys (keys : List StorageKey)
  | cleanupPrefix (pfx : EventPrefix)
deriving DecidableEq, Repr

/-- The tables, the bucket, and the jobs under their numbers. The assets that a
reconciliation has dropped are put down with the number of its cleanup job. -/
structure MediaStore where
  events : List EventRow := []
  assets : List AssetRow := []
  files : List FileRow := []
  exifs : List ℕ := []
  persons : List PersonRow := []
  participants : List ParticipantRow := []
  selfies : List SelfieRow := []
  items : List ImportItem := []
  bucket : List StorageKey := []
  jobs : List (ℕ × JobItem) := []
  failed : List (ℕ × JobItem) := []
  reconciled : List (ℕ × ℕ) := []
  clock : ℕ := 0
  nextUuid : ℕ := 0
  nextJob : ℕ := 0
deriving DecidableEq, Repr

/-- `GRACE_PERIOD_MS`. -/
def gracePeriodMs : ℕ := 7 * 24 * 60 * 60 * 1000

/-- `DELETE_BATCH`. -/
def deleteBatch : ℕ := 1000

namespace MediaStore

variable (s : MediaStore)

def getEvent (eventId : ℕ) : Option EventRow :=
  s.events.find? (fun event => event.id = eventId ∧ event.deletedAt = none)

def getBySlug (slug : String) : Option EventRow :=
  s.events.find? (fun event => event.slug = slug ∧ event.deletedAt = none)

def findByChecksum (eventId : ℕ) (checksum : String) : Option AssetRow :=
  s.assets.find? (fun a => a.eventId = eventId ∧ a.checksum = checksum ∧ a.deletedAt = none)

def getByIdUnscoped (assetId : ℕ) : Option AssetRow :=
  s.assets.find? (fun a => a.id = assetId ∧ a.deletedAt = none)

def hasEvent (eventId : ℕ) : Bool := s.events.any (fun event => event.id = eventId)

def hasAsset (assetId : ℕ) : Bool := s.assets.any (fun a => a.id = assetId)

def insertAsset (row : AssetRow) : MediaStore := { s with assets := s.assets ++ [row] }

def updateAssets (p : AssetRow → Bool) (f : AssetRow → AssetRow) : MediaStore :=
  { s with assets := s.assets.map (fun a => if p a then f a else a) }

def setStatus (assetId : ℕ) (status : AssetStatus) : MediaStore :=
  s.updateAssets (fun a => a.id = assetId) (fun a => { a with status := status })

/-- `INSERT … ON CONFLICT (asset_id, type) DO UPDATE`. -/
def upsertFile (file : FileRow) : MediaStore :=
  { s with
    files := s.files.filter (fun f => ¬ (f.assetId = file.assetId ∧ f.type = file.type)) ++ [file] }

def getFiles (assetId : ℕ) : List FileRow := s.files.filter (fun f => f.assetId = assetId)

/-- The assets that a deletion of these ids takes. -/
def deletes (eventId : ℕ) (ids : List ℕ) (a : AssetRow) : Bool :=
  a.eventId = eventId ∧ a.id ∈ ids ∧ a.deletedAt = none

def softDeleteMany (eventId : ℕ) (ids : List ℕ) : List AssetRow × MediaStore :=
  ((s.assets.filter (deletes eventId ids)).map (fun a => { a with deletedAt := some s.clock }),
    s.updateAssets (deletes eventId ids) (fun a => { a with deletedAt := some s.clock }))

/-- `deletedAt is not null and deletedAt < cutoff`. -/
def past (cutoff : ℕ) (deletedAt : Option ℕ) : Bool := deletedAt.any (fun t => t < cutoff)

/-- The rows that reference no asset any more go with it. -/
def keepAssets (keep : AssetRow → Bool) : MediaStore :=
  { s with
    assets := s.assets.filter keep
    files := s.files.filter (fun f => (s.assets.filter keep).any (fun a => a.id = f.assetId))
    exifs := s.exifs.filter (fun assetId => (s.assets.filter keep).any (fun a => a.id = assetId)) }

/-- The events go, and with them all rows that reference them. -/
def dropEvents (ids : List ℕ) : MediaStore :=
  { s.keepAssets (fun a => a.eventId ∉ ids) with
    events := s.events.filter (fun event => event.id ∉ ids)
    persons := s.persons.filter (fun person => person.eventId ∉ ids)
    participants := s.participants.filter (fun g => g.eventId ∉ ids)
    selfies := s.selfies.filter (fun row =>
      (s.participants.filter (fun g => g.eventId ∉ ids)).any (fun g => g.id = row.participantId))
    items := s.items.filter (fun item => item.eventId ∉ ids) }

def hardDelete (orgId eventId : ℕ) : MediaStore :=
  if s.events.any (fun event => event.id = eventId ∧
    event.orgId = orgId) then s.dropEvents [eventId] else s

/-- The assets of these ids that are there are put down as reconciled. -/
def deleteAssets (ids : List ℕ) (job : ℕ) : MediaStore :=
  { s.keepAssets (fun a => a.id ∉ ids) with
    reconciled :=
      s.reconciled ++ (s.assets.filter (fun a => a.id ∈ ids)).map (fun a => (a.id, job)) }

def putFile (key : StorageKey) : MediaStore :=
  { s with bucket := s.bucket.filter (fun k => k ≠ key) ++ [key] }

def deleteKeys (keys : List StorageKey) : MediaStore :=
  { s with bucket := s.bucket.filter (fun k => k ∉ keys) }

/-- `ListObjectsV2`, a thousand at most. -/
def listObjects (pfx : EventPrefix) (cursor : Option StorageKey) :
    Keyset.Page StorageKey StorageKey :=
  Keyset.listing StorageKey.name 1000 (s.bucket.filter (fun key => key.under pfx)) cursor

def queue (job : JobItem) : MediaStore :=
  { s with
    jobs := s.jobs ++ [(s.nextJob, job)]
    nextJob := s.nextJob + 1 }

def setThumbnailKey (personId : ℕ) (key : StorageKey) : MediaStore :=
  { s with persons := s.persons.map (fun person =>
      if person.id = personId then { person with thumbnailKey := some key } else person) }

/-- The person with the live asset of the cover face. -/
def getThumbnailData (personId : ℕ) : Option (PersonRow × AssetRow) :=
  (s.persons.find? (fun person => person.id = personId)).bind (fun person =>
    (person.coverAssetId.bind s.getByIdUnscoped).map (fun asset => (person, asset)))

def markItem (id : ℕ) (status : ItemStatus) (assetId : Option ℕ) : MediaStore :=
  { s with items := s.items.map (fun item =>
      if item.id = id then { item with status := status, assetId :=
        assetId <|> item.assetId } else item) }

end MediaStore

end EventLens.Media
