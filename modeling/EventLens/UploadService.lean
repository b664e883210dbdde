import EventLens.IngestService
import EventLens.Interference

/-!
One upload, statement by statement, where every statement may fail: the event,
the lookup of the checksum, the quota, the object, the row, the job, and the
removal of the object again. A statement that fails changes nothing.
-/

namespace EventLens.Uploads

open Programs
open Import (extname originalKey)
open Ingest
  (AssetRow EventRow Organization StagedUpload UploadResult UploadStatus limitsFor uploadedRow
  formatBytes planName upgradeHint putObject removeObjects)

inductive UploadError
  | notFound (text : String)
  | badRequest (text : String)
  | assetChecksumConstraint
  | other (text : String)
deriving DecidableEq, Repr

def isAssetChecksumConstraint (e : UploadError) : Bool := e = .assetChecksumConstraint

/-- The tables, the bucket, the staged files, and the assets whose processing was queued. -/
structure UploadStore where
  orgs : List Organization := []
  events : List EventRow := []
  assets : List AssetRow := []
  bucket : List (String × String) := []
  staged : List (String × String) := []
  processing : List String := []
deriving DecidableEq, Repr

namespace UploadStore

variable (s : UploadStore)

def getById (eventId : String) : Option EventRow :=
  s.events.find? (fun event => event.id = eventId ∧ event.deleted = false)

def findByChecksum (eventId checksum : String) : Option AssetRow :=
  s.assets.find? (fun a => a.eventId = eventId ∧ a.checksum = checksum ∧ a.deleted = false)

def getOrg (orgId : String) : Option Organization := s.orgs.find? (fun org => org.id = orgId)

/-- What the live assets of the live events of an organisation take up. -/
def getOrgStorageBytes (orgId : String) : ℕ :=
  ((s.assets.filter (fun a => a.deleted = false ∧ s.events.any (fun event =>
    event.id = a.eventId ∧ event.orgId = orgId ∧ event.deleted = false))).map AssetRow.fileSize).sum

def countForOrg (orgId : String) : ℕ :=
  s.events.countP (fun event => event.orgId = orgId ∧ event.deleted = false)

def stagedFile (path : String) : Option String :=
  (s.staged.find? (fun file => file.1 = path)).map Prod.snd

end UploadStore

inductive UploadOp
  | getById (eventId : String)
  | findByChecksum (eventId checksum : String)
  | getOrg (orgId : String)
  | getOrgStorageBytes (orgId : String)
  | countForOrg (orgId : String)
  | randomUUID
  | putFile (path storageKey mimeType : String)
  | createAsset (row : AssetRow)
  | queueAssetProcess (assetId : String)
  | deleteKeys (storageKeys : List String)
  | unlink (path : String)
deriving DecidableEq, Repr

/-- What a statement answers when it succeeds. -/
abbrev UploadAnswer : UploadOp → Type
  | .getById _ => Option EventRow
  | .findByChecksum _ _ => Option AssetRow
  | .getOrg _ => Option Organization
  | .getOrgStorageBytes _ | .countForOrg _ => ℕ
  | .randomUUID => String
  | _ => Unit

abbrev UploadRes (o : UploadOp) : Type := Except UploadError (UploadAnswer o)

abbrev UploadProg := Prog UploadOp UploadRes
abbrev UploadEvent := Event UploadOp UploadRes
abbrev Attempt := ExceptT UploadError UploadProg

/-- The row, where no live asset of the event has the checksum and the event is there. -/
def insertAsset (row : AssetRow) (s : UploadStore) : Except UploadError Unit × UploadStore :=
  if s.findByChecksum row.eventId row.checksum ≠ none then (.error .assetChecksumConstraint, s)
  else if s.events.any (fun event => event.id = row.eventId) then
    (.ok (), { s with assets := s.assets ++ [row] })
  else (.error (.other "error: insert or update violates foreign key constraint"), s)

/-- A statement that does not fail from outside. -/
def statement : (o : UploadOp) → UploadAnswer o → UploadStore → UploadRes o × UploadStore
  | .getById eventId, _, s => (.ok (s.getById eventId), s)
  | .findByChecksum eventId checksum, _, s => (.ok (s.findByChecksum eventId checksum), s)
  | .getOrg orgId, _, s => (.ok (s.getOrg orgId), s)
  | .getOrgStorageBytes orgId, _, s => (.ok (s.getOrgStorageBytes orgId), s)
  | .countForOrg orgId, _, s => (.ok (s.countForOrg orgId), s)
  | .randomUUID, assetId, s => (.ok assetId, s)
  | .putFile path storageKey _, _, s =>
    match s.stagedFile path with
    | some content => (.ok (), { s with bucket := putObject storageKey content s.bucket })
    | none => (.error (.other "Error: ENOENT: no such file or directory"), s)
  | .createAsset row, _, s => insertAsset row s
  | .queueAssetProcess assetId, _, s => (.ok (), { s with processing := s.processing ++ [assetId] })
  | .deleteKeys storageKeys, _, s =>
    (.ok (), { s with bucket := removeObjects storageKeys s.bucket })
  | .unlink path, _, s => (.ok (), { s with staged := removeObjects [path] s.staged })

def UploadError.text : UploadError → String
  | .notFound text | .badRequest text | .other text => text
  | .assetChecksumConstraint => "error: duplicate key value violates unique constraint"

/-- A statement that fails from outside changes nothing, and its error is no constraint's. -/
def uploadHandler : Handler UploadOp UploadRes UploadStore
  | _, .error e, s => (.error (.other e.text), s)
  | o, .ok answer, s => statement o answer s

/-- One statement; its failure ends the handler. -/
def call (o : UploadOp) : Attempt (UploadAnswer o) := .mk (.perform o .done)

/-- A `catch` that ignores what went wrong. -/
def ignoring (p : Attempt Unit) : Attempt Unit := liftM (do
  let _ ← p.run
  pure () : UploadProg Unit)

/-- A `try` around a part of the handler. -/
def tried {α : Type} (p : Attempt α) : Attempt (Except UploadError α) := liftM p.run

def discard (stagingPath : String) : Attempt Unit := ignoring (call (.unlink stagingPath))

/-- Whether the incoming file would put the organisation over its limit. -/
def assertStorageAvailable (orgId : String) (incomingBytes : ℕ) : Attempt Unit := do
  match ← call (.getOrg orgId) with
  | none => throw (.badRequest "Organization not found")
  | some org =>
    let usedBytes ← call (.getOrgStorageBytes orgId)
    let _ ← call (.countForOrg orgId)
    let limitBytes := (limitsFor org).storageBytes
    if usedBytes + incomingBytes ≤ limitBytes then pure ()
    else throw (.badRequest (s!"Storage limit reached — {formatBytes usedBytes} of " ++
      s!"{formatBytes limitBytes} used on the {planName org.plan} plan. " ++
      s!"{upgradeHint org.plan}"))

/-- The row and its job. -/
def createAsset (row : AssetRow) (stagingPath : String) : Attempt UploadResult := do
  call (.createAsset row)
  discard stagingPath
  call (.queueAssetProcess row.id)
  pure { id := row.id, status := .created }

/-- Another request inserted the same checksum first. -/
def answerWinner (row : AssetRow) (stagingPath : String) (e : UploadError) :
    Attempt UploadResult := do
  ignoring (call (.deleteKeys [row.storageKey]))
  discard stagingPath
  match ← call (.findByChecksum row.eventId row.checksum) with
  | some winner => pure { id := winner.id, status := .duplicate }
  | none => throw e

/-- What the insertion and the queueing came to. -/
def answerUpload (row : AssetRow) (stagingPath : String) :
    Except UploadError UploadResult → Attempt UploadResult
  | .ok result => pure result
  | .error e => if isAssetChecksumConstraint e then answerWinner row stagingPath e else throw e

theorem answerUpload_constraint {row : AssetRow} {stagingPath : String} {e : UploadError}
    (h : isAssetChecksumConstraint e = true) :
    answerUpload row stagingPath (.error e) = answerWinner row stagingPath e := by
  simp [answerUpload, h]

theorem answerUpload_other {row : AssetRow} {stagingPath : String} {e : UploadError}
    (h : isAssetChecksumConstraint e = false) :
    answerUpload row stagingPath (.error e) = throw e := by
  simp [answerUpload, h]

def storeUpload (event : EventRow) (eventId : String) (staged : StagedUpload) :
    Attempt UploadResult := do
  let assetId ← call .randomUUID
  let row := uploadedRow event eventId staged assetId
  call (.putFile staged.stagingPath row.storageKey row.mimeType)
  answerUpload row staged.stagingPath (← tried (createAsset row staged.stagingPath))

def uploadAsset (eventId : String) (staged : StagedUpload) : Attempt UploadResult := do
  match ← call (.getById eventId) with
  | none => do
    discard staged.stagingPath
    throw (.notFound "Event not found")
  | some event =>
    match ← call (.findByChecksum eventId staged.checksum) with
    | some existing => do
      discard staged.stagingPath
      pure { id := existing.id, status := .duplicate }
    | none =>
      match ← tried (assertStorageAvailable event.orgId staged.size) with
      | .error e => do
        discard staged.stagingPath
        throw e
      | .ok _ => storeUpload event eventId staged

end EventLens.Uploads
