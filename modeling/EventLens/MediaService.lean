import EventLens.IngestRecord
import EventLens.MediaRecord
import EventLens.ParticipantService

/-!
What brings objects into the bucket and takes them away: uploads, imports,
derivatives, portraits and selfies on one side, deletions with their cleanup
jobs and the reconciliation on the other. Storage and the image tools may fail;
the database refuses what its constraints refuse. A job that fails goes back to
the queue or is given up.
-/

namespace EventLens.Media

open Programs
open Import (AssetType extname guessMime toLowerCase)
open Ingest (StagedUpload)

inductive MediaError
  | notFound (text : String)
  | badRequest (text : String)
  | payloadTooLarge (text : String)
  | tooManyRequests (text : String)
  | checksumConstraint (text : String)
  | rateLimited
  | failed (text : String)
deriving DecidableEq, Repr

/-- Steps of the image and video tools. -/
inductive MediaWork
  | probe
  | extractVideoFrame
  | getImageDimensions
  | decodePreview
  | generatePreview
  | generateThumbnail
  | generateThumbhash
  | transcode
  | cropToThumbnail
deriving DecidableEq, Repr

structure ParticipantUpsert where
  eventId : ℕ
  email : String
  name : String
  phone : Option String
  selfieKey : StorageKey
deriving DecidableEq, Repr

inductive MediaOp
  | getEvent (eventId : ℕ)
  | getActiveEvent (slug : String)
  | findByChecksum (eventId : ℕ) (checksum : String)
  | assertStorageAvailable (orgId size : ℕ)
  | randomUUID
  | putFile (key : StorageKey)
  | create (row : AssetRow)
  | deleteKeys (keys : List StorageKey)
  | listObjects (pfx : EventPrefix) (cursor : Option StorageKey)
  | queue (job : JobItem)
  | getByIdUnscoped (assetId : ℕ)
  | getById (eventId assetId : ℕ)
  | downloadToFile (key : StorageKey)
  | work (task : MediaWork)
  | extractExif
  | upsertExif (assetId : ℕ)
  | updateCapturedAt (assetId : ℕ)
  | upsertFile (file : FileRow)
  | updateProcessed (assetId : ℕ)
  | setStatus (assetId : ℕ) (status : AssetStatus)
  | getThumbnailData (personId : ℕ)
  | getFiles (assetId : ℕ)
  | setThumbnailKey (personId : ℕ) (key : StorageKey)
  | consumeIp (clientIp : String)
  | consumeEmail (eventId : ℕ) (email : String)
  | upsertParticipant (dto : ParticipantUpsert)
  | replaceSelfies (participantId : ℕ) (keys : List StorageKey)
  | getItem (importItemId : ℕ)
  | markItem (importItemId : ℕ) (status : ItemStatus) (assetId : Option ℕ)
  | fetchRemote (item : ImportItem)
  | softDeleteMany (eventId : ℕ) (ids : List ℕ)
  | now
  | deletedEvents (cutoff : ℕ)
  | deletedAssets (cutoff : ℕ)
  | deleteAssets (ids : List ℕ) (job : ℕ)
  | deleteEvents (ids : List ℕ)
  | hardDelete (orgId eventId : ℕ)
deriving DecidableEq, Repr

abbrev MediaRes : MediaOp → Type
  | .getEvent _ => Option EventRow
  | .getActiveEvent _ => Except MediaError EventRow
  | .findByChecksum _ _ | .getByIdUnscoped _ | .getById _ _ => Option AssetRow
  | .assertStorageAvailable _ _ | .putFile _ | .create _ | .deleteKeys _ |
    .downloadToFile _ | .work _
  | .upsertExif _ | .updateCapturedAt _ | .upsertFile _ | .updateProcessed _ |
    .replaceSelfies _ _ =>
    Except MediaError Unit
  | .randomUUID | .queue _ | .now => ℕ
  | .listObjects _ _ => Except MediaError (Keyset.Page StorageKey StorageKey)
  | .extractExif => Except MediaError Bool
  | .setStatus _ _ | .setThumbnailKey _ _ | .markItem _ _ _ | .deleteAssets _ _ | .deleteEvents _
  | .hardDelete _ _ => Unit
  | .getThumbnailData _ => Option (PersonRow × AssetRow)
  | .getFiles _ => List FileRow
  | .consumeIp _ | .consumeEmail _ _ => Bool
  | .upsertParticipant _ => Except MediaError ℕ
  | .getItem _ => Option ImportItem
  | .fetchRemote _ => Except MediaError (String × ℕ)
  | .softDeleteMany _ _ | .deletedAssets _ => List AssetRow
  | .deletedEvents _ => List EventRow

abbrev MediaProg := Prog MediaOp MediaRes
abbrev MediaEvent := Event MediaOp MediaRes

def foreignKey : MediaError := .failed "insert or update violates foreign key constraint"
def noResult : MediaError := .failed "no result"

namespace MediaStore

variable (s : MediaStore)

/-- The insertion of an asset is refused for a live asset with this checksum in
the event, and for an event that is not there. -/
def create (row : AssetRow) : Except MediaError MediaStore :=
  if s.findByChecksum row.eventId row.checksum ≠ none then
    .error (.checksumConstraint "duplicate key value violates unique constraint")
  else if s.hasEvent row.eventId then .ok (s.insertAsset row)
  else .error foreignKey

/-- A statement that needs the asset to be there. -/
def onAsset (assetId : ℕ) (e : MediaError) (after : MediaStore) : Except MediaError MediaStore :=
  if s.hasAsset assetId then .ok after else .error e

def resubmitted (dto : ParticipantUpsert) (g : ParticipantRow) : ParticipantRow :=
  { g with
    name := dto.name
    phone := dto.phone
    selfieKey := dto.selfieKey }

/-- `INSERT … ON CONFLICT (event_id, email) WHERE deleted_at IS NULL DO UPDATE`. -/
def upsertParticipant (dto : ParticipantUpsert) : Except MediaError (ℕ × MediaStore) :=
  match s.participants.find? (fun g =>
      g.eventId = dto.eventId ∧ g.email.toLower = dto.email.toLower ∧ g.deletedAt = none) with
  | some g => .ok (g.id, { s with participants := s.participants.map (fun row =>
      if row.id = g.id then resubmitted dto row else row) })
  | none =>
    if s.hasEvent dto.eventId then
      .ok (s.nextUuid,
        { s with
          participants := s.participants ++
            [{ id := s.nextUuid
               eventId := dto.eventId
               email := dto.email
               name := dto.name
               phone := dto.phone
               selfieKey := dto.selfieKey }]
          nextUuid := s.nextUuid + 1 })
    else .error foreignKey

def selfieRows (participantId : ℕ) (keys : List StorageKey) : List SelfieRow :=
  keys.zipIdx.map (fun numbered => ⟨participantId, numbered.2, numbered.1⟩)

def clearSelfies (participantId : ℕ) : MediaStore :=
  { s with selfies := s.selfies.filter (fun row => row.participantId ≠ participantId) }

def hasParticipant (participantId : ℕ) : Bool := s.participants.any (fun g => g.id = participantId)

def replaceSelfies (participantId : ℕ) (keys : List StorageKey) : Except MediaError MediaStore :=
  if s.hasParticipant participantId then
    .ok { s.clearSelfies participantId with
      selfies := (s.clearSelfies participantId).selfies ++ selfieRows participantId keys }
  else .error foreignKey

end MediaStore

/-- A statement that the constraints may refuse. -/
def stated (after : Except MediaError MediaStore) (s : MediaStore) :
    Except MediaError Unit × MediaStore :=
  match after with
  | .error e => (.error e, s)
  | .ok s' => (.ok (), s')

/-- A call of the storage, which may fail. -/
def attempted (r : Except MediaError Unit) (after : MediaStore) (s : MediaStore) :
    Except MediaError Unit × MediaStore :=
  match r with
  | .error e => (.error e, s)
  | .ok _ => (.ok (), after)

def mediaHandler : Handler MediaOp MediaRes MediaStore
  | .getEvent eventId, _, s => (s.getEvent eventId, s)
  | .getActiveEvent slug, r, s =>
    match r, s.getBySlug slug with
    | .error e, _ => (.error e, s)
    | .ok _, none => (.error (.notFound "Event not found"), s)
    | .ok _, some event => (.ok event, s)
  | .findByChecksum eventId checksum, _, s => (s.findByChecksum eventId checksum, s)
  | .assertStorageAvailable _ _, r, s => (r, s)
  | .randomUUID, _, s => (s.nextUuid, { s with nextUuid := s.nextUuid + 1 })
  | .putFile key, r, s => attempted r (s.putFile key) s
  | .create row, _, s => stated (s.create row) s
  | .deleteKeys keys, r, s => attempted r (s.deleteKeys keys) s
  | .listObjects pfx cursor, r, s =>
    match r with
    | .error e => (.error e, s)
    | .ok _ => (.ok (s.listObjects pfx cursor), s)
  | .queue job, _, s => (s.nextJob, s.queue job)
  | .getByIdUnscoped assetId, _, s => (s.getByIdUnscoped assetId, s)
  | .getById eventId assetId, _, s =>
    ((s.getByIdUnscoped assetId).filter (fun a => a.eventId = eventId), s)
  | .downloadToFile key, r, s =>
    if key ∈ s.bucket then (r, s) else (.error (.failed "NoSuchKey"), s)
  | .work _, r, s => (r, s)
  | .extractExif, r, s => (r, s)
  | .upsertExif assetId, _, s =>
    stated (s.onAsset assetId foreignKey
      { s with exifs := s.exifs.filter (fun id => id ≠ assetId) ++ [assetId] }) s
  | .updateCapturedAt assetId, _, s => stated (s.onAsset assetId noResult s) s
  | .upsertFile file, _, s => stated (s.onAsset file.assetId foreignKey (s.upsertFile file)) s
  | .updateProcessed assetId, _, s =>
    stated (s.onAsset assetId noResult (s.setStatus assetId .processed)) s
  | .setStatus assetId status, _, s => ((), s.setStatus assetId status)
  | .getThumbnailData personId, _, s => (s.getThumbnailData personId, s)
  | .getFiles assetId, _, s => (s.getFiles assetId, s)
  | .setThumbnailKey personId key, _, s => ((), s.setThumbnailKey personId key)
  | .consumeIp _, r, s => (r, s)
  | .consumeEmail _ _, r, s => (r, s)
  | .upsertParticipant dto, _, s =>
    match s.upsertParticipant dto with
    | .error e => (.error e, s)
    | .ok (id, s') => (.ok id, s')
  | .replaceSelfies participantId keys, _, s => stated (s.replaceSelfies participantId keys) s
  | .getItem importItemId, _, s => (s.items.find? (fun item => item.id = importItemId), s)
  | .markItem importItemId status assetId, _, s => ((), s.markItem importItemId status assetId)
  | .fetchRemote _, r, s => (r, s)
  | .softDeleteMany eventId ids, _, s => s.softDeleteMany eventId ids
  | .now, _, s => (s.clock, s)
  | .deletedEvents cutoff, _, s =>
    (s.events.filter (fun event => MediaStore.past cutoff event.deletedAt), s)
  | .deletedAssets cutoff, _, s =>
    (s.assets.filter (fun a => MediaStore.past cutoff a.deletedAt), s)
  | .deleteAssets ids job, _, s => ((), s.deleteAssets ids job)
  | .deleteEvents ids, _, s => ((), s.dropEvents ids)
  | .hardDelete orgId eventId, _, s => ((), s.hardDelete orgId eventId)

/-! Single operations. -/

abbrev call (o : MediaOp) : MediaProg (MediaRes o) := .perform o .done

/-- A request or job that may throw. -/
abbrev Attempt := ExceptT MediaError MediaProg

/-- An operation that answers with what it throws. -/
abbrev getActiveEvent (slug : String) : Attempt EventRow :=
    .mk (.perform (.getActiveEvent slug) .done)
abbrev assertStorageAvailable (orgId size : ℕ) : Attempt Unit :=
  .mk (.perform (.assertStorageAvailable orgId size) .done)
abbrev putFile (key : StorageKey) : Attempt Unit := .mk (.perform (.putFile key) .done)
abbrev create (row : AssetRow) : Attempt Unit := .mk (.perform (.create row) .done)
abbrev deleteObjects (keys : List StorageKey) : Attempt Unit :=
    .mk (.perform (.deleteKeys keys) .done)
abbrev listObjects (pfx : EventPrefix) (cursor : Option StorageKey) :
    Attempt (Keyset.Page StorageKey StorageKey) := .mk (.perform (.listObjects pfx cursor) .done)
abbrev downloadToFile (key : StorageKey) : Attempt Unit :=
    .mk (.perform (.downloadToFile key) .done)
abbrev work (task : MediaWork) : Attempt Unit := .mk (.perform (.work task) .done)
abbrev extractExif : Attempt Bool := .mk (.perform .extractExif .done)
abbrev upsertExif (assetId : ℕ) : Attempt Unit := .mk (.perform (.upsertExif assetId) .done)
abbrev updateCapturedAt (assetId : ℕ) : Attempt Unit :=
    .mk (.perform (.updateCapturedAt assetId) .done)
abbrev upsertFile (file : FileRow) : Attempt Unit := .mk (.perform (.upsertFile file) .done)
abbrev updateProcessed (assetId : ℕ) : Attempt Unit :=
    .mk (.perform (.updateProcessed assetId) .done)
abbrev upsertParticipant (dto : ParticipantUpsert) : Attempt ℕ :=
    .mk (.perform (.upsertParticipant dto) .done)
abbrev replaceSelfies (participantId : ℕ) (keys : List StorageKey) : Attempt Unit :=
  .mk (.perform (.replaceSelfies participantId keys) .done)
abbrev fetchRemote (item : ImportItem) : Attempt (String × ℕ) :=
    .mk (.perform (.fetchRemote item) .done)

/-- An operation that cannot fail. -/
def perform (o : MediaOp) : Attempt (MediaRes o) := .mk (.perform o fun r => .done (.ok r))

/-! The storage repository. -/

def deleteBatches : ℕ → List StorageKey → Attempt Unit
  | 0, _ => pure ()
  | n + 1, keys =>
    if keys = [] then pure ()
    else do
      deleteObjects (keys.take deleteBatch)
      deleteBatches n (keys.drop deleteBatch)

def deleteKeys (keys : List StorageKey) : Attempt Unit := deleteBatches keys.length keys

/-- The listing goes on as long as there is fuel. -/
def deletePrefix (pfx : EventPrefix) : ℕ → Option StorageKey → Attempt Unit
  | 0, _ => throw (.failed "unended")
  | n + 1, cursor => do
    let list ← listObjects pfx cursor
    deleteKeys list.rows
    match list.next with
    | none => pure ()
    | some last => deletePrefix pfx n (some last)

/-- `Promise.all` of the puts: each is tried, and the first error is thrown. The
puts still under way when one fails stay part of the call, and what it does about
the failure comes after them. -/
def putAll : List StorageKey → Attempt Unit
  | [] => pure ()
  | key :: keys => .mk (do
    let r ← call (.putFile key)
    let rest ← (putAll keys).run
    pure (r.bind fun _ => rest))

/-! Jobs. -/

inductive JobStatus
  | success | failed | skipped
deriving DecidableEq, Repr

def queueAll : List JobItem → MediaProg Unit
  | [] => pure ()
  | job :: jobs => do
    let _ ← call (.queue job)
    queueAll jobs

def handleCleanupKeys (keys : List StorageKey) : Attempt JobStatus :=
  if keys = [] then pure .skipped
  else do
    deleteKeys keys
    pure .success

def handleCleanupPrefix (fuel : ℕ) (pfx : EventPrefix) : Attempt JobStatus := do
  deletePrefix pfx fuel none
  pure .success

/-- The keys of the assets and of their files, read asset by asset. -/
def collectKeys : List AssetRow → MediaProg (List StorageKey)
  | [] => pure []
  | asset :: assets => do
    let files ← call (.getFiles asset.id)
    let keys ← collectKeys assets
    pure (asset.storageKey :: files.map FileRow.storageKey ++ keys)

def handleStorageReconcile : MediaProg JobStatus := do
  let now ← call .now
  let events ← call (.deletedEvents (now - gracePeriodMs))
  let assets ← call (.deletedAssets (now - gracePeriodMs))
  let keys ← collectKeys assets
  if assets = [] then
    queueAll (events.map
      (fun event => .cleanupPrefix (StorageKeys.eventPrefix event.orgId event.id)))
  else do
    let job ← call (.queue (.cleanupKeys keys))
    queueAll (events.map
      (fun event => .cleanupPrefix (StorageKeys.eventPrefix event.orgId event.id)))
    call (.deleteAssets (assets.map (fun a => a.id)) job)
  if events = [] then pure .success
  else do
    call (.deleteEvents (events.map EventRow.id))
    pure .success

/-- The key of each derivative. -/
def derivativeKey (asset : AssetIdentity) : AssetFileType → StorageKey
  | .preview => StorageKeys.preview asset.orgId asset.eventId asset.id
  | .thumbnail => StorageKeys.thumb asset.orgId asset.eventId asset.id
  | .encodedVideo => StorageKeys.video asset.orgId asset.eventId asset.id

def derivative (asset : AssetIdentity) (type : AssetFileType) : FileRow :=
  { assetId := asset.id, type := type, storageKey := derivativeKey asset type }

/-- Probe and still frame of a video; dimensions and exif of an image. -/
def inspect (asset : AssetRow) : Attempt Unit :=
  if asset.type = .video then do
    work .probe
    work .extractVideoFrame
  else do
    work .getImageDimensions
    let captured ← extractExif
    upsertExif asset.id
    if captured then updateCapturedAt asset.id else pure ()

def processAsset (asset : AssetRow) : Attempt Unit := do
  downloadToFile asset.storageKey
  inspect asset
  work .decodePreview
  work .generatePreview
  work .generateThumbnail
  work .generateThumbhash
  putAll [derivativeKey asset.toAssetIdentity .preview,
    derivativeKey asset.toAssetIdentity .thumbnail]
  upsertFile (derivative asset.toAssetIdentity .preview)
  upsertFile (derivative asset.toAssetIdentity .thumbnail)
  updateProcessed asset.id
  liftM (queueAll ([.faceDetect asset.id, .smartSearch asset.id] ++
    if asset.type = .video then [.videoTranscode asset.id] else []))

def handleAssetProcess (assetId : ℕ) : MediaProg JobStatus := do
  match ← call (.getByIdUnscoped assetId) with
  | none => pure .skipped
  | some asset =>
    match ← (processAsset asset).run with
    | .ok _ => pure .success
    | .error _ =>
      call (.setStatus assetId .failed)
      pure .failed

def transcodeVideo (asset : AssetRow) : Attempt Unit := do
  downloadToFile asset.storageKey
  work .transcode
  putFile (derivativeKey asset.toAssetIdentity .encodedVideo)
  upsertFile (derivative asset.toAssetIdentity .encodedVideo)

def handleVideoTranscode (assetId : ℕ) : MediaProg JobStatus := do
  match ← call (.getByIdUnscoped assetId) with
  | none => pure .skipped
  | some asset =>
    if asset.type ≠ .video then pure .skipped
    else
      match ← (transcodeVideo asset).run with
      | .ok _ => pure .success
      | .error _ => pure .failed

/-- The portrait is cropped from the original. -/
def handlePersonThumbnail (personId : ℕ) : Attempt JobStatus := do
  match ← perform (.getThumbnailData personId) with
  | none => pure .failed
  | some (person, asset) =>
    let _ ← perform (.getFiles asset.id)
    downloadToFile asset.storageKey
    work .getImageDimensions
    work .cropToThumbnail
    putFile (StorageKeys.person person.orgId person.eventId personId)
    perform (.setThumbnailKey personId (StorageKeys.person person.orgId person.eventId personId))
    pure .success

def importedRow (item : ImportItem) (checksum : String) (size assetId : ℕ) : AssetRow :=
  { id := assetId
    eventId := item.eventId
    orgId := item.orgId
    type := if "video/".toList.isPrefixOf (guessMime item.remoteName).toList then .video else .image
    originalFilename := item.remoteName
    checksum := checksum
    fileSize := size
    mimeType := guessMime item.remoteName
    status := .stored
    source := item.source
    storageKey := StorageKeys.original item.orgId item.eventId assetId
      (toLowerCase (extname item.remoteName)) }

/-- The row of an object just put; a loser of the race for the checksum takes
its object away again. -/
def storeRow (row : AssetRow) : Attempt Bool :=
  .mk (do
    match ← (create row).run with
    | .ok _ => pure (.ok true)
    | .error (.checksumConstraint _) =>
      let _ ← (deleteKeys [row.storageKey]).run
      pure (.ok false)
    | .error e => pure (.error e))

def importFile (item : ImportItem) : Attempt JobStatus := do
  perform (.markItem item.id .downloading none)
  let (checksum, size) ← fetchRemote item
  match ← perform (.findByChecksum item.eventId checksum) with
  | some existing =>
    perform (.markItem item.id .skippedDuplicate (some existing.id))
    pure .success
  | none =>
    let assetId ← perform .randomUUID
    let row := importedRow item checksum size assetId
    putFile row.storageKey
    if ← storeRow row then
      let _ ← perform (.queue (.assetProcess assetId))
      perform (.markItem item.id .done (some assetId))
      pure .success
    else
      let winner ← perform (.findByChecksum item.eventId checksum)
      perform (.markItem item.id .skippedDuplicate (winner.map (fun a => a.id)))
      pure .success

def handleImportFile (importItemId : ℕ) : MediaProg JobStatus := do
  match ← call (.getItem importItemId) with
  | none => pure .skipped
  | some item =>
    if item.status ≠ .pending ∨ item.cancelled then pure .skipped
    else
      match ← (importFile item).run with
      | .ok status => pure status
      | .error .rateLimited =>
        call (.markItem importItemId .pending none)
        pure .failed
      | .error _ =>
        call (.markItem importItemId .failed none)
        pure .success

/-! Requests. -/

inductive UploadStatus
  | created | duplicate
deriving DecidableEq, Repr

def uploadedRow (event : EventRow) (eventId : ℕ) (staged : StagedUpload) (assetId : ℕ) : AssetRow :=
  { id := assetId
    eventId := eventId
    orgId := event.orgId
    type := if "video/".toList.isPrefixOf staged.mimeType.toList then .video else .image
    originalFilename := staged.originalFilename
    checksum := staged.checksum
    fileSize := staged.size
    mimeType := staged.mimeType
    status := .stored
    source := .upload
    storageKey := StorageKeys.original event.orgId eventId assetId
      (toLowerCase (extname staged.originalFilename)) }

def uploadAsset (eventId : ℕ) (staged : StagedUpload) : Attempt (ℕ × UploadStatus) := do
  match ← perform (.getEvent eventId) with
  | none => throw (.notFound "Event not found")
  | some event =>
    match ← perform (.findByChecksum eventId staged.checksum) with
    | some existing => pure (existing.id, .duplicate)
    | none =>
      assertStorageAvailable event.orgId staged.size
      let assetId ← perform .randomUUID
      let row := uploadedRow event eventId staged assetId
      putFile row.storageKey
      if ← storeRow row then
        let _ ← perform (.queue (.assetProcess assetId))
        pure (assetId, .created)
      else
        match ← perform (.findByChecksum eventId staged.checksum) with
        | some winner => pure (winner.id, .duplicate)
        | none => throw (.checksumConstraint "duplicate key value violates unique constraint")

structure Submission where
  slug : String
  email : String
  name : String
  phone : Option String
  staged : List StagedUpload
  clientIp : String
deriving DecidableEq, Repr

def checkStaged : List StagedUpload → Except MediaError Unit
  | [] => .ok ()
  | file :: files =>
    if ¬ file.mimeType.startsWith "image/" then .error (.badRequest "Selfie must be an image")
    else if Selfies.maxSelfieBytes < file.size then .error (.payloadTooLarge "Selfie exceeds 15 MB")
    else checkStaged files

def validate (staged : List StagedUpload) : Except MediaError Unit :=
  if staged = [] then .error (.badRequest "Missing selfie file")
  else if Selfies.maxSelfies < staged.length then
    .error (.badRequest s!"Please submit at most {Selfies.maxSelfies} photos")
  else checkStaged staged

def storeSelfies (dto : Submission) (event : EventRow) : Attempt ℕ := do
  let uuid ← perform .randomUUID
  let keys :=
    (List.range dto.staged.length).map
    (fun index => StorageKeys.selfie event.orgId event.id uuid index)
  putAll keys
  let participantId ← upsertParticipant
    { eventId := event.id
      email := dto.email
      name := dto.name.trimAscii.toString
      phone := Selfies.trimmed dto.phone
      selfieKey := StorageKeys.selfie event.orgId event.id uuid 0 }
  replaceSelfies participantId keys
  liftM (queueAll [.sendSelfieReceived participantId, .selfieProcess participantId])
  pure participantId

def submitSelfie (dto : Submission) : Attempt ℕ :=
  match validate dto.staged with
  | .error e => throw e
  | .ok _ => do
    let event ← getActiveEvent dto.slug
    if ¬ (← perform (.consumeIp dto.clientIp)) then throw (.tooManyRequests "Too many requests")
    else if ¬ (← perform (.consumeEmail event.id dto.email.toLower)) then
      throw (.tooManyRequests "Too many requests")
    else storeSelfies dto event

/-- The row goes once the deletion of the objects is queued. -/
def remove (orgId eventId : ℕ) (confirmation : String) : Attempt Unit := do
  match ← perform (.getEvent eventId) with
  | none => throw (.notFound "Event not found")
  | some event =>
    if event.orgId ≠ orgId then throw (.notFound "Event not found")
    else if confirmation ≠ event.slug then
      throw (.badRequest s!"Type the event's slug ({event.slug}) to confirm deletion")
    else
      let _ ← perform (.queue (.cleanupPrefix (StorageKeys.eventPrefix orgId eventId)))
      perform (.hardDelete orgId eventId)

def deleteMany (eventId : ℕ) (ids : List ℕ) : MediaProg ℕ := do
  let deleted ← if ids = [] then pure [] else call (.softDeleteMany eventId ids)
  let keys ← collectKeys deleted
  if keys = [] then pure deleted.length
  else do
    let _ ← call (.queue (.cleanupKeys keys))
    pure deleted.length

/-- `runJob` with `thumbnails`. -/
def runJob (eventId assetId : ℕ) : Attempt Unit := do
  match ← perform (.getById eventId assetId) with
  | none => throw (.notFound "Asset not found")
  | some _ =>
    perform (.setStatus assetId .stored)
    let _ ← perform (.queue (.assetProcess assetId))
    pure ()

/-! Requests and jobs side by side. -/

inductive MediaCall
  | job (number : ℕ) (item : JobItem)
  | storageReconcile
  | uploadAsset (eventId : ℕ) (staged : StagedUpload)
  | submitSelfie (dto : Submission)
  | remove (orgId eventId : ℕ) (confirmation : String)
  | deleteMany (eventId : ℕ) (ids : List ℕ)
  | runJob (eventId assetId : ℕ)
  | elapse (ms : ℕ)
deriving DecidableEq, Repr

inductive MediaReply
  | status (status : JobStatus)
  | refused (e : MediaError)
  | uploaded (assetId : ℕ) (status : UploadStatus)
  | submitted (participantId : ℕ)
  | removed
  | deleted (count : ℕ)
  | queued
  | elapsed
deriving DecidableEq, Repr

def replying {α : Type} (reply : α → MediaReply) (p : Attempt α) : MediaProg MediaReply := do
  match ← p.run with
  | .ok a => pure (reply a)
  | .error e => pure (.refused e)

/-- The jobs of other services touch no object of an asset or an event. -/
def JobItem.prog (fuel : ℕ) : JobItem → MediaProg MediaReply
  | .assetProcess assetId => do pure (.status (← handleAssetProcess assetId))
  | .videoTranscode assetId => do pure (.status (← handleVideoTranscode assetId))
  | .personThumbnail personId => replying .status (handlePersonThumbnail personId)
  | .importFile importItemId => do pure (.status (← handleImportFile importItemId))
  | .cleanupKeys keys => replying .status (handleCleanupKeys keys)
  | .cleanupPrefix pfx => replying .status (handleCleanupPrefix fuel pfx)
  | .faceDetect _ | .smartSearch _ | .sendSelfieReceived _ | .selfieProcess _ =>
    pure (.status .success)

def MediaCall.prog (fuel : ℕ) : MediaCall → MediaProg MediaReply
  | .job _ item => item.prog fuel
  | .storageReconcile => do pure (.status (← handleStorageReconcile))
  | .uploadAsset eventId staged =>
    replying (fun result => .uploaded result.1 result.2) (Media.uploadAsset eventId staged)
  | .submitSelfie dto => replying .submitted (Media.submitSelfie dto)
  | .remove orgId eventId confirmation =>
    replying (fun _ => .removed) (Media.remove orgId eventId confirmation)
  | .deleteMany eventId ids => do pure (.deleted (← Media.deleteMany eventId ids))
  | .runJob eventId assetId => replying (fun _ => .queued) (Media.runJob eventId assetId)
  | .elapse _ => pure .elapsed

/-- A job that ends so is tried again, or given up. -/
def MediaReply.fails : MediaReply → Bool
  | .status .failed | .refused _ => true
  | _ => false

/-- A job starts when it is queued; the reconciliation when it is scheduled. -/
def mediaServer (fuel : ℕ) : Server MediaCall MediaOp MediaRes MediaStore MediaReply where
  handler := mediaHandler
  prog := MediaCall.prog fuel
  accept
    | .job number item, s =>
      if (number, item) ∈ s.jobs
        then some { s with jobs := s.jobs.filter (fun j => j ≠ (number, item)) }
      else none
    | .elapse ms, s => some { s with clock := s.clock + ms }
    | _, s => some s
  release
    | .job number item, reply, again, s =>
      if reply.fails then
        if again then some { s with jobs := s.jobs ++ [(number, item)] }
        else some { s with failed := s.failed ++ [(number, item)] }
      else some s
    | _, _, _, s => some s

abbrev MediaThread := Thread MediaCall MediaOp MediaRes MediaReply
abbrev MediaPool := Pool MediaCall MediaOp MediaRes MediaStore MediaReply
abbrev MediaMove := Move MediaCall MediaOp MediaRes

end EventLens.Media
