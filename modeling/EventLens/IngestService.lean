import EventLens.IngestRecord
import EventLens.ImportQueue

/-!
Uploads, cloud imports, event creation and deletion side by side, with the
cleanup jobs that deletions queue. The programs of the import run as they are,
with the asset table, the bucket and the staged files answering for themselves.
Providers, storage and the database may fail; what they do when they succeed is
fixed.
-/

namespace EventLens.Ingest

open Programs
open Import (ImportOp ImportRes ImportCall ImportError ImportProg AssetType Verdict importHandler
  importServer extname originalKey toLowerCase)

inductive IngestOp
  | imports (o : ImportOp)
  | getEvent (eventId : String)
  | getOrg (orgId : String)
  | getOrgStorageBytes (orgId : String)
  | countForOrg (orgId : String)
  | createAsset (row : AssetRow)
  | getBySlug (slug : String)
  | createEvent (orgId : String) (dto : CreateEvent)
  | hardDelete (orgId eventId : String)
  | softDeleteMany (eventId : String) (ids : List String)
  | queueCleanup (job : Cleanup)
  | listObjects (pfx : String) (cursor : Option String)
deriving DecidableEq, Repr

abbrev IngestRes : IngestOp → Type
  | .imports o => ImportRes o
  | .getEvent _ | .getBySlug _ => Option EventRow
  | .getOrg _ => Option Organization
  | .getOrgStorageBytes _ | .countForOrg _ => ℕ
  | .createAsset _ => Except ImportError Unit
  | .createEvent _ _ => Except ImportError EventRow
  | .softDeleteMany _ _ => List AssetRow
  | .hardDelete _ _ | .queueCleanup _ => Unit
  | .listObjects _ _ => Except ImportError (Keyset.Page String String)

abbrev IngestProg := Prog IngestOp IngestRes
abbrev IngestEvent := Event IngestOp IngestRes

/-- A request that may throw. -/
abbrev Attempt := ExceptT IngestError IngestProg

/-- The insertion of an asset: the database may fail, and it refuses a live
asset with this checksum in the event and an event that is not there. -/
def insertRow (row : AssetRow) (r : Except ImportError Unit) (s : IngestStore) :
    Except ImportError Unit × IngestStore :=
  match r with
  | .error (.other text) => (.error (.other text), s)
  | _ =>
    if s.findByChecksum row.eventId row.checksum ≠ none then
      (.error (.assetChecksumConstraint "error: duplicate key value violates unique constraint"), s)
    else if s.events.any (fun event => event.id = row.eventId) then (.ok (), s.insertAsset row)
    else (.error (.other "error: insert or update violates foreign key constraint"), s)

def stagedFile (s : IngestStore) (path : String) : Option String :=
  (s.staged.find? (fun file => file.1 = path)).map Prod.snd

def remoteFile (s : IngestStore) (fileId : String) : Option String :=
  (s.remote.find? (fun file => file.1 = fileId)).map Prod.snd

def noFile : ImportError := .other "Error: ENOENT: no such file or directory"

/-- The operations of the import on assets, objects and files; the others are
those of the import tables. -/
def importedHandler : (o : ImportOp) → ImportRes o → IngestStore → ImportRes o × IngestStore
  | .downloadToFile _ fileId path, r, s =>
    match r with
    | .error e => (.error e, s)
    | .ok _ =>
      match remoteFile s fileId with
      | some content => (.ok (), { s with staged := putObject path content s.staged })
      | none => (.error (.other "Error: Not Found"), s)
  | .hashFile path, r, s =>
    match r with
    | .error e => (.error e, s)
    | .ok _ =>
      match stagedFile s path with
      | some content => (.ok content, s)
      | none => (.error noFile, s)
  | .findByChecksum eventId checksum, r, s =>
    match r with
    | .ok _ => (.ok ((s.findByChecksum eventId checksum).map AssetRow.id), s)
    | .error e => (.error e, s)
  | .randomUUID, _, s => (toString s.nextUuid, { s with nextUuid := s.nextUuid + 1 })
  | .putFile path key _, r, s =>
    match r with
    | .error e => (.error e, s)
    | .ok _ =>
      match stagedFile s path with
      | some content => (.ok (), s.putFile key content)
      | none => (.error noFile, s)
  | .createAsset asset, r, s => insertRow (importedRow asset) r s
  | .deleteKeys keys, r, s =>
    (r, { s with
      bucket := match r with
        | .ok _ => removeObjects keys s.bucket
        | .error _ => s.bucket })
  | .removeFile path, _, s => ((), { s with staged := removeObjects [path] s.staged })
  | o, r, s =>
    let answer := importHandler o r s.toImportWorld
    (answer.1, { s with toImportWorld := answer.2 })

/-- A download fails, or stages what the file holds. -/
theorem downloadToFile_cases (token fileId path : String) (r : Except ImportError Unit)
    (s : IngestStore) :
    (∃ e, importedHandler (.downloadToFile token fileId path) r s = (.error e, s)) ∨
      ∃ content, remoteFile s fileId = some content ∧
        importedHandler (.downloadToFile token fileId path) r s =
          (.ok (), { s with staged := putObject path content s.staged }) := by
  cases r with
  | error e => exact .inl ⟨e, rfl⟩
  | ok _ =>
    have hanswer : importedHandler (.downloadToFile token fileId path) (.ok ()) s =
        match remoteFile s fileId with
        | some content => (.ok (), { s with staged := putObject path content s.staged })
        | none => (.error (.other "Error: Not Found"), s) := rfl
    rw [hanswer]
    cases remoteFile s fileId with
    | none => exact .inl ⟨_, rfl⟩
    | some content => exact .inr ⟨content, rfl, rfl⟩

theorem hashFile_cases (path : String) (r : Except ImportError String) (s : IngestStore) :
    (∃ e, importedHandler (.hashFile path) r s = (.error e, s)) ∨
      ∃ content, stagedFile s path = some content ∧
        importedHandler (.hashFile path) r s = (.ok content, s) := by
  cases r with
  | error e => exact .inl ⟨e, rfl⟩
  | ok text =>
    have hanswer : importedHandler (.hashFile path) (.ok text) s =
        match stagedFile s path with
        | some content => (.ok content, s)
        | none => (.error noFile, s) := rfl
    rw [hanswer]
    cases stagedFile s path with
    | none => exact .inl ⟨_, rfl⟩
    | some content => exact .inr ⟨content, rfl, rfl⟩

theorem putFile_cases (path key mimeType : String) (r : Except ImportError Unit)
    (s : IngestStore) :
    (∃ e, importedHandler (.putFile path key mimeType) r s = (.error e, s)) ∨
      ∃ content, stagedFile s path = some content ∧
        importedHandler (.putFile path key mimeType) r s = (.ok (), s.putFile key content) := by
  cases r with
  | error e => exact .inl ⟨e, rfl⟩
  | ok _ =>
    have hanswer : importedHandler (.putFile path key mimeType) (.ok ()) s =
        match stagedFile s path with
        | some content => (.ok (), s.putFile key content)
        | none => (.error noFile, s) := rfl
    rw [hanswer]
    cases stagedFile s path with
    | none => exact .inl ⟨_, rfl⟩
    | some content => exact .inr ⟨content, rfl, rfl⟩

/-- An insertion does nothing, or adds one row. -/
theorem insertRow_cases (row : AssetRow) (r : Except ImportError Unit) (s : IngestStore) :
    (∃ e, insertRow row r s = (.error e, s)) ∨
      insertRow row r s = (.ok (), s.insertAsset row) ∧
        s.findByChecksum row.eventId row.checksum = none ∧
        ∃ event ∈ s.events, event.id = row.eventId := by
  unfold insertRow
  split
  · exact .inl ⟨_, rfl⟩
  · by_cases htaken : s.findByChecksum row.eventId row.checksum = none
    · rw [if_neg (not_not.mpr htaken)]
      split
      · rename_i hevent
        obtain ⟨event, hevent, hid⟩ := List.any_eq_true.mp hevent
        exact .inr ⟨rfl, htaken, event, hevent, of_decide_eq_true hid⟩
      · exact .inl ⟨_, rfl⟩
    · rw [if_pos htaken]
      exact .inl ⟨_, rfl⟩

def ingestHandler : Handler IngestOp IngestRes IngestStore
  | .imports o, r, s => importedHandler o r s
  | .getEvent eventId, _, s => (s.getEvent eventId, s)
  | .getOrg orgId, _, s => (s.getOrg orgId, s)
  | .getOrgStorageBytes orgId, _, s => (s.getOrgStorageBytes orgId, s)
  | .countForOrg orgId, _, s => (s.countForOrg orgId, s)
  | .createAsset row, r, s => insertRow row r s
  | .getBySlug slug, _, s => (s.getBySlug slug, s)
  | .createEvent orgId dto, r, s =>
    match r with
    | .error e => (.error e, s)
    | .ok _ =>
      if s.slugTaken dto.slug then
        (.error (.other "error: duplicate key value violates unique constraint"), s)
      else (.ok { id := toString s.nextUuid, orgId := orgId, name := dto.name, slug := dto.slug },
        s.createEvent orgId dto)
  | .hardDelete orgId eventId, _, s => ((), s.hardDelete orgId eventId)
  | .softDeleteMany eventId ids, _, s => (s.selected eventId ids, s.softDeleteMany eventId ids)
  | .queueCleanup job, _, s => ((), { s with cleanups := s.cleanups ++ [job] })
  | .listObjects pfx cursor, r, s =>
    match r with
    | .error e => (.error e, s)
    | .ok _ => (.ok (s.listObjects pfx cursor), s)

/-! Single operations. -/

abbrev call (o : IngestOp) : IngestProg (IngestRes o) := .perform o .done

/-- An operation whose failure the request throws. -/
def throwing {α : Type} (p : IngestProg (Except ImportError α)) : Attempt α :=
  .mk (do
    match ← p with
    | .ok a => pure (.ok a)
    | .error e => pure (.error (.failed e)))

/-- A `try` around one call. -/
def tried {α : Type} (p : Attempt α) : Attempt (Except IngestError α) := liftM p.run

def findByChecksum (eventId checksum : String) : Attempt (Option String) :=
  throwing (call (.imports (.findByChecksum eventId checksum)))

def putFile (path key mimeType : String) : Attempt Unit :=
  throwing (call (.imports (.putFile path key mimeType)))

def queueAssetProcess (assetId : String) : Attempt Unit :=
  throwing (call (.imports (.queueAssetProcess assetId)))

/-- `asset.create`, with the checksum collision told apart from other errors. -/
def create (row : AssetRow) : Attempt (Option ImportError) :=
  .mk (do
    match ← call (.createAsset row) with
    | .ok _ => pure (.ok none)
    | .error (.assetChecksumConstraint text) => pure (.ok (some (.assetChecksumConstraint text)))
    | .error e => pure (.error (.failed e)))

def discard (path : String) : IngestProg Unit := call (.imports (.removeFile path))

/-! Quotas. -/

def megabyte : ℕ := 1024 * 1024

/-- Tenths, without a zero after the point. -/
def tenths (n : ℕ) : String := if n % 10 = 0 then toString (n / 10) else s!"{n / 10}.{n % 10}"

/-- Rounded to whole gigabytes from ten on, to tenths below, to megabytes below
one. -/
def formatBytes (bytes : ℕ) : String :=
  if bytes < gigabyte then s!"{(2 * bytes + megabyte) / (2 * megabyte)} MB"
  else if bytes < 10 * gigabyte then s!"{tenths ((20 * bytes + gigabyte) / (2 * gigabyte))} GB"
  else s!"{(2 * bytes + gigabyte) / (2 * gigabyte)} GB"

def planName : OrgPlan → String
  | .starter => "starter"
  | .pro => "pro"
  | .enterprise => "enterprise"

def upgradeHint : OrgPlan → String
  | .starter => "Upgrade to Pro for 10 GB and 5 events."
  | .pro => "Upgrade to Enterprise for more."
  | .enterprise => "Contact your administrator to raise this limit."

structure QuotaStatus where
  plan : OrgPlan
  usedBytes : ℕ
  limitBytes : ℕ
  usedEvents : ℕ
  eventLimit : ℕ
deriving DecidableEq, Repr

def getStatus (orgId : String) : Attempt QuotaStatus := do
  match ← call (.getOrg orgId) with
  | none => throw (.badRequest "Organization not found")
  | some org =>
    let usedBytes ← call (.getOrgStorageBytes orgId)
    let usedEvents ← call (.countForOrg orgId)
    pure
      { plan := org.plan
        usedBytes := usedBytes
        limitBytes := (limitsFor org).storageBytes
        usedEvents := usedEvents
        eventLimit := (limitsFor org).events }

/-- Whether the incoming file would put the organisation over its limit. -/
def assertStorageAvailable (orgId : String) (incomingBytes : ℕ) : Attempt Unit := do
  let status ← getStatus orgId
  if status.usedBytes + incomingBytes ≤ status.limitBytes then pure ()
  else throw (.badRequest (s!"Storage limit reached — {formatBytes status.usedBytes} of " ++
    s!"{formatBytes status.limitBytes} used on the {planName status.plan} plan. " ++
    s!"{upgradeHint status.plan}"))

def assertEventAvailable (orgId : String) : Attempt Unit := do
  let status ← getStatus orgId
  if status.usedEvents < status.eventLimit then pure ()
  else throw (.badRequest (s!"Event limit reached — {status.usedEvents} of " ++
    s!"{status.eventLimit} events on the {planName status.plan} plan. " ++
    s!"{upgradeHint status.plan}"))

/-! Requests. -/

def uploadedRow (event : EventRow) (eventId : String) (staged : StagedUpload) (assetId : String) :
    AssetRow :=
  { id := assetId
    eventId := eventId
    orgId := event.orgId
    type := if "video/".toList.isPrefixOf staged.mimeType.toList then .video else .image
    originalFilename := staged.originalFilename
    checksum := staged.checksum
    fileSize := staged.size
    mimeType := staged.mimeType
    source := .upload
    storageKey :=
      originalKey event.orgId eventId assetId (toLowerCase (extname staged.originalFilename)) }

/-- Store the staged file, or answer with the asset that won the insert. -/
def storeUpload (event : EventRow) (eventId : String) (staged : StagedUpload) :
    Attempt UploadResult := do
  let assetId ← call (.imports .randomUUID)
  let row := uploadedRow event eventId staged assetId
  putFile staged.stagingPath row.storageKey row.mimeType
  match ← create row with
  | none =>
    discard staged.stagingPath
    queueAssetProcess row.id
    pure { id := row.id, status := .created }
  | some e =>
    let _ ← call (.imports (.deleteKeys [row.storageKey]))
    discard staged.stagingPath
    match ← findByChecksum eventId staged.checksum with
    | some winner => pure { id := winner, status := .duplicate }
    | none => throw (.failed e)

def uploadAsset (eventId : String) (staged : StagedUpload) : Attempt UploadResult := do
  match ← call (.getEvent eventId) with
  | none =>
    discard staged.stagingPath
    throw (.notFound "Event not found")
  | some event =>
    match ← findByChecksum eventId staged.checksum with
    | some existing =>
      discard staged.stagingPath
      pure { id := existing, status := .duplicate }
    | none =>
      match ← tried (assertStorageAvailable event.orgId staged.size) with
      | .error e =>
        discard staged.stagingPath
        throw e
      | .ok _ => storeUpload event eventId staged

def createEvent (orgId : String) (dto : CreateEvent) : Attempt EventRow := do
  assertEventAvailable orgId
  if (← call (.getBySlug dto.slug)) ≠ none then throw (.badRequest "Slug already in use")
  else throwing (call (.createEvent orgId dto))

def getScoped (orgId eventId : String) : Attempt EventRow := do
  match ← call (.getEvent eventId) with
  | none => throw (.notFound "Event not found")
  | some event =>
    if event.orgId ≠ orgId then throw (.notFound "Event not found") else pure event

/-- `StorageKeys.eventPrefix`. -/
def eventPrefix (orgId eventId : String) : String := s!"org/{orgId}/event/{eventId}/"

def removeEvent (orgId eventId confirmation : String) : Attempt Unit := do
  let event ← getScoped orgId eventId
  if confirmation ≠ event.slug then
    throw (.badRequest s!"Type the event's slug ({event.slug}) to confirm deletion")
  else do
    call (.queueCleanup (.cleanupPrefix (eventPrefix orgId eventId)))
    call (.hardDelete orgId eventId)

def deleteMany (eventId : String) (ids : List String) : IngestProg ℕ := do
  let deleted ← if ids = [] then pure [] else call (.softDeleteMany eventId ids)
  if deleted = [] then pure 0
  else do
    call (.queueCleanup (.cleanupKeys (deleted.map AssetRow.storageKey)))
    pure deleted.length

/-! The storage cleanup. -/

def deleteBatch : ℕ := 1000

def deleteBatches : ℕ → List String → Attempt Unit
  | 0, _ => pure ()
  | n + 1, keys =>
    if keys = [] then pure ()
    else do
      throwing (call (.imports (.deleteKeys (keys.take deleteBatch))))
      deleteBatches n (keys.drop deleteBatch)

def deleteKeys (keys : List String) : Attempt Unit := deleteBatches keys.length keys

/-- The listing goes on as long as there is fuel. -/
def deletePrefix (pfx : String) : ℕ → Option String → Attempt Unit
  | 0, _ => throw (.failed (.other "unended"))
  | n + 1, cursor => do
    let list ← throwing (call (.listObjects pfx cursor))
    deleteKeys list.rows
    match list.next with
    | none => pure ()
    | some last => deletePrefix pfx n (some last)

def handleCleanupKeys (keys : List String) : Attempt Verdict :=
  if keys = [] then pure .skipped
  else do
    deleteKeys keys
    pure .success

def handleCleanupPrefix (fuel : ℕ) (pfx : String) : Attempt Verdict := do
  deletePrefix pfx fuel none
  pure .success

def handleCleanup (fuel : ℕ) : Cleanup → Attempt Verdict
  | .cleanupKeys keys => handleCleanupKeys keys
  | .cleanupPrefix pfx => handleCleanupPrefix fuel pfx

/-! Requests and jobs side by side. -/

/-- A program of the import in the whole system. -/
def inSystem {α : Type} (p : ImportProg α) : IngestProg α :=
  p.embed .imports (fun _ r => r)

def replying {α : Type} (reply : α → IngestReply) (p : Attempt α) : IngestProg IngestReply := do
  match ← p.run with
  | .ok a => pure (reply a)
  | .error e => pure (.refused e)

def IngestCall.prog (fuel : ℕ) : IngestCall → IngestProg IngestReply
  | .imports c => do pure (.imports (← inSystem (c.prog fuel)))
  | .uploadAsset eventId staged => replying .uploaded (Ingest.uploadAsset eventId staged)
  | .createEvent orgId dto => replying .eventCreated (Ingest.createEvent orgId dto)
  | .removeEvent orgId eventId confirmation =>
    replying (fun _ => .eventRemoved) (Ingest.removeEvent orgId eventId confirmation)
  | .deleteMany eventId ids => do pure (.deleted (← Ingest.deleteMany eventId ids))
  | .cleanup job => replying .cleaned (handleCleanup fuel job)

/-- No file is staged under the path, and it is none of the import's. -/
def freshPath (s : IngestStore) (path : String) : Bool :=
  s.staged.all (fun file => file.1 ≠ path) && !"import-".toList.isPrefixOf path.toList

/-- The file of an upload is staged before the request is handled. A cleanup job
that was queued may be delivered at any time, and again after it has run. -/
def ingestServer (fuel : ℕ) : Server IngestCall IngestOp IngestRes IngestStore IngestReply where
  handler := ingestHandler
  prog := IngestCall.prog fuel
  accept
    | .imports c, s =>
      ((importServer fuel).accept c s.toImportWorld).map (fun w => { s with toImportWorld := w })
    | .uploadAsset _ file, s =>
      if freshPath s file.stagingPath then
        some { s with staged := s.staged ++ [(file.stagingPath, file.checksum)] }
      else none
    | .cleanup job, s => if job ∈ s.cleanups then some s else none
    | _, s => some s
  release
    | .imports c, .imports verdict, again, s =>
      ((importServer fuel).release c verdict again s.toImportWorld).map
        (fun w => { s with toImportWorld := w })
    | c, reply, _, s => some { s with answered := s.answered ++ [(c, reply)] }

abbrev IngestThread := Thread IngestCall IngestOp IngestRes IngestReply
abbrev IngestPool := Pool IngestCall IngestOp IngestRes IngestStore IngestReply
abbrev IngestMove := Move IngestCall IngestOp IngestRes

/-- Every service answers; a file that an import fetches has this size. -/
def obliging (size : ℕ) : (o : ImportOp) → ImportRes o
  | .createJob _ => 0
  | .getJob _ => none
  | .getItem _ => none
  | .getExistingByRemoteIds _ _ _ => []
  | .insertItems _ => .ok []
  | .pendingItemIds _ => []
  | .countRemaining _ => 0
  | .queueImportFiles _ => .ok ()
  | .queueAssetProcess _ => .ok ()
  | .requireEvent _ => .ok "studio"
  | .requireAccount _ _ => .ok ("account", .gDrive)
  | .getFreshAccessToken _ => .ok "token"
  | .listFilesPage _ _ _ => .ok { files := [] }
  | .makeStagingFolder | .downloadToFile _ _ _ | .putFile _ _ _ | .createAsset _ => .ok ()
  | .deleteKeys _ => .ok ()
  | .hashFile _ => .ok ""
  | .fileSize _ => .ok size
  | .findByChecksum _ _ => .ok none
  | .randomUUID => ""
  | .updateJob _ _ | .repointItem _ _ _ | .markItem _ _ | .incrementCounter _ _
  | .queueImportFolder _ | .rateLimitQueue _ | .removeFile _ => ()

def willing (size : ℕ) : (o : IngestOp) → IngestRes o
  | .imports o => obliging size o
  | .getEvent _ | .getBySlug _ => none
  | .getOrg _ => none
  | .getOrgStorageBytes _ | .countForOrg _ => 0
  | .createAsset _ => .ok ()
  | .createEvent _ dto => .ok { id := "", orgId := "", name := dto.name, slug := dto.slug }
  | .softDeleteMany _ _ => []
  | .hardDelete _ _ | .queueCleanup _ => ()
  | .listObjects _ _ => .ok { rows := [], next := none }

/-- The call performs so many operations. -/
def performs (answers : (o : IngestOp) → IngestRes o) (i count : ℕ) : List IngestMove :=
  List.replicate count (.perform i answers)

def wholeCall (answers : (o : IngestOp) → IngestRes o) (c : IngestCall) (i count : ℕ) :
    List IngestMove := .start c :: performs answers i count ++ [.leave i false]

end EventLens.Ingest
