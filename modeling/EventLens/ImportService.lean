import EventLens.ImportRecord

/-!
The cloud import pipeline. Every statement on the import tables and every call
of the provider, the asset store and the job store is one operation, so that
workers interleave statement by statement. The import tables answer for
themselves; the rest answers from outside and may fail.
-/

namespace EventLens.Import

open Programs

inductive AssetType
  | image | video
deriving DecidableEq, Repr

/-- The asset row an imported file becomes; its status is `stored`. -/
structure NewAsset where
  id : String
  eventId : String
  orgId : String
  type : AssetType
  originalFilename : String
  checksum : String
  fileSize : ℕ
  mimeType : String
  source : CloudProvider
  storageKey : String
deriving DecidableEq, Repr

inductive ImportOp
  | createJob (job : NewJob)
  | getJob (importJobId : JobId)
  | updateJob (importJobId : JobId) (dto : JobChange)
  | getItem (importItemId : ItemId)
  | getExistingByRemoteIds (eventId : String) (provider : CloudProvider) (remoteIds : List String)
  | insertItems (items : List NewItem)
  | repointItem (itemId : ItemId) (importJobId : JobId) (dto : Repoint)
  | markItem (importItemId : ItemId) (dto : ItemChange)
  | pendingItemIds (importJobId : JobId)
  | incrementCounter (importJobId : JobId) (counter : Counter)
  | countRemaining (importJobId : JobId)
  | queueImportFolder (importJobId : JobId)
  | queueImportFiles (importItemIds : List ItemId)
  | queueAssetProcess (assetId : String)
  | rateLimitQueue (ms : ℕ)
  | requireEvent (eventId : String)
  | requireAccount (orgId accountId : String)
  | getFreshAccessToken (accountId : String)
  | listFilesPage (accessToken folderId : String) (pageToken : Option String)
  | makeStagingFolder
  | downloadToFile (accessToken fileId destPath : String)
  | hashFile (path : String)
  | fileSize (path : String)
  | findByChecksum (eventId checksum : String)
  | randomUUID
  | putFile (path storageKey mimeType : String)
  | createAsset (asset : NewAsset)
  | deleteKeys (storageKeys : List String)
  | removeFile (path : String)
deriving DecidableEq, Repr

/-- The answer of each operation. -/
abbrev ImportRes : ImportOp → Type
  | .createJob _ => JobId
  | .getJob _ => Option ImportJob
  | .getItem _ => Option ImportItem
  | .getExistingByRemoteIds _ _ _ => List ImportItem
  | .insertItems _ => Except ImportError (List ImportItem)
  | .pendingItemIds _ => List ItemId
  | .countRemaining _ => ℕ
  | .queueImportFiles _ => Except String Unit
  | .queueAssetProcess _ => Except ImportError Unit
  | .requireEvent _ => Except ImportError String
  | .requireAccount _ _ => Except ImportError (String × CloudProvider)
  | .getFreshAccessToken _ => Except ImportError String
  | .listFilesPage _ _ _ => Except ImportError RemoteListingPage
  | .makeStagingFolder | .downloadToFile _ _ _ | .putFile _ _ _ | .createAsset _ | .deleteKeys _ =>
    Except ImportError Unit
  | .hashFile _ => Except ImportError String
  | .fileSize _ => Except ImportError ℕ
  | .findByChecksum _ _ => Except ImportError (Option String)
  | .randomUUID => String
  | .updateJob _ _ | .repointItem _ _ _ | .markItem _ _ | .incrementCounter _ _
  | .queueImportFolder _ | .rateLimitQueue _ | .removeFile _ => Unit

abbrev ImportProg := Prog ImportOp ImportRes
abbrev ImportEvent := Event ImportOp ImportRes

/-- The body of a `try`. -/
abbrev Attempt := ExceptT ImportError ImportProg

/-- The effect of each statement on the tables and the queue. A page of new
items is inserted whole or, when it breaks the unique key, not at all. -/
def importHandler : Handler ImportOp ImportRes ImportWorld
  | .createJob job, _, w => (w.nextJobId, { w with toTables := w.addJob job })
  | .getJob k, _, w => (findRow ImportJob.id k w.jobs, w)
  | .updateJob k dto, _, w => ((), { w with toTables := w.updateJobs k dto.apply })
  | .getItem k, _, w => (findRow ImportItem.id k w.items, w)
  | .getExistingByRemoteIds eventId provider remoteIds, _, w =>
    (w.items.filter (fun i => i.eventId = eventId ∧ i.provider = provider ∧
      i.remoteId ∈ remoteIds), w)
  | .insertItems items, _, w =>
    let rows := freshRows w.nextItemId items
    if uniqueFiles (w.items ++ rows) then
      (.ok rows, { w with toTables := w.addItems items })
    else
      (.error (.other "error: duplicate key value violates unique constraint"), w)
  | .repointItem k importJobId dto, _, w =>
    ((), { w with toTables := w.updateItems k (dto.apply importJobId) })
  | .markItem k dto, _, w => ((), { w with toTables := w.updateItems k dto.apply })
  | .pendingItemIds k, _, w =>
    ((w.items.filter (fun i => i.importJobId = k ∧ i.status = .pending)).map (fun i => i.id), w)
  | .incrementCounter k counter, _, w =>
    ((), { w with toTables := w.updateJobs k (ImportJob.bump counter) })
  | .countRemaining k, _, w =>
    (w.items.countP (fun i => i.importJobId = k ∧ i.status.remaining), w)
  | .queueImportFolder k, _, w => ((), { w with queue := w.queue ++ [.importFolder k] })
  | .queueImportFiles ks, r, w =>
    match r with
    | .ok _ => (.ok (), { w with queue := w.queue ++ ks.map .importFile })
    | .error text => (.error text, w)
  | .queueAssetProcess _, r, w => (r, w)
  | .rateLimitQueue _, _, w => ((), w)
  | .requireEvent _, r, w => (r, w)
  | .requireAccount _ _, r, w => (r, w)
  | .getFreshAccessToken _, r, w => (r, w)
  | .listFilesPage _ _ _, r, w => (r, w)
  | .makeStagingFolder, r, w => (r, w)
  | .downloadToFile _ _ _, r, w => (r, w)
  | .hashFile _, r, w => (r, w)
  | .fileSize _, r, w => (r, w)
  | .findByChecksum _ _, r, w => (r, w)
  | .randomUUID, r, w => (r, w)
  | .putFile _ _ _, r, w => (r, w)
  | .createAsset _, r, w => (r, w)
  | .deleteKeys _, r, w => (r, w)
  | .removeFile _, _, w => ((), w)

/-! Single operations under the source's names. -/

abbrev createJob (job : NewJob) : ImportProg JobId := .perform (.createJob job) .done
abbrev getJob (k : JobId) : ImportProg (Option ImportJob) := .perform (.getJob k) .done
abbrev updateJob (k : JobId) (dto : JobChange) : ImportProg Unit :=
    .perform (.updateJob k dto) .done
abbrev getItem (k : ItemId) : ImportProg (Option ImportItem) := .perform (.getItem k) .done
abbrev getExistingByRemoteIds (eventId : String) (provider : CloudProvider)
    (remoteIds : List String) : ImportProg (List ImportItem) :=
  .perform (.getExistingByRemoteIds eventId provider remoteIds) .done
abbrev repointItem (k : ItemId) (importJobId : JobId) (dto : Repoint) : ImportProg Unit :=
  .perform (.repointItem k importJobId dto) .done
abbrev markItem (k : ItemId) (dto : ItemChange) : ImportProg Unit :=
    .perform (.markItem k dto) .done
abbrev pendingItemIds (k : JobId) : ImportProg (List ItemId) := .perform (.pendingItemIds k) .done
abbrev incrementCounter (k : JobId) (counter : Counter) : ImportProg Unit :=
  .perform (.incrementCounter k counter) .done
abbrev countRemaining (k : JobId) : ImportProg ℕ := .perform (.countRemaining k) .done
abbrev queueImportFolder (k : JobId) : ImportProg Unit := .perform (.queueImportFolder k) .done
abbrev rateLimitQueue (ms : ℕ) : ImportProg Unit := .perform (.rateLimitQueue ms) .done
abbrev randomUUID : ImportProg String := .perform .randomUUID .done
/-- A failure is swallowed. -/
abbrev deleteKeys (storageKeys : List String) : ImportProg Unit :=
  .perform (.deleteKeys storageKeys) fun _ => .done ()
abbrev removeFile (path : String) : ImportProg Unit := .perform (.removeFile path) .done

/-! Operations that may throw. -/

abbrev requireEvent (eventId : String) : Attempt String :=
    .mk (.perform (.requireEvent eventId) .done)
abbrev requireAccount (orgId accountId : String) : Attempt (String × CloudProvider) :=
  .mk (.perform (.requireAccount orgId accountId) .done)
abbrev getFreshAccessToken (accountId : String) : Attempt String :=
  .mk (.perform (.getFreshAccessToken accountId) .done)
abbrev listFilesPage (accessToken folderId : String) (pageToken : Option String) :
    Attempt RemoteListingPage :=
    .mk (.perform (.listFilesPage accessToken folderId pageToken) .done)
abbrev makeStagingFolder : Attempt Unit := .mk (.perform .makeStagingFolder .done)
abbrev downloadToFile (accessToken fileId destPath : String) : Attempt Unit :=
  .mk (.perform (.downloadToFile accessToken fileId destPath) .done)
abbrev hashFile (path : String) : Attempt String := .mk (.perform (.hashFile path) .done)
abbrev fileSize (path : String) : Attempt ℕ := .mk (.perform (.fileSize path) .done)
abbrev findByChecksum (eventId checksum : String) : Attempt (Option String) :=
  .mk (.perform (.findByChecksum eventId checksum) .done)
abbrev putFile (path storageKey mimeType : String) : Attempt Unit :=
  .mk (.perform (.putFile path storageKey mimeType) .done)
/-- An error of the job store is no rate limit of the provider. -/
def queueImportFiles (ks : List ItemId) : Attempt Unit :=
  .mk (.perform (.queueImportFiles ks) fun
    | .ok _ => .done (.ok ())
    | .error text => .done (.error (.other text)))
abbrev queueAssetProcess (assetId : String) : Attempt Unit :=
  .mk (.perform (.queueAssetProcess assetId) .done)

/-- A page without new items inserts nothing. -/
def insertItems (items : List NewItem) : Attempt (List ImportItem) :=
  if items = [] then pure [] else .mk (.perform (.insertItems items) .done)

/-- `asset.create`, with the checksum collision told apart from other errors. -/
def createAsset (asset : NewAsset) : Attempt Bool :=
  .mk (.perform (.createAsset asset) fun
    | .ok _ => .done (.ok true)
    | .error (.assetChecksumConstraint _) => .done (.ok false)
    | .error e => .done (.error e))

/-! Listing. -/

/-- `/^(image|video)\//`. -/
def importable (mimeType : String) : Bool :=
  "image/".toList.isPrefixOf mimeType.toList || "video/".toList.isPrefixOf mimeType.toList

def mediaOf (page : RemoteListingPage) : List RemoteFile :=
  page.files.filter (fun file => importable file.mimeType)

/-- The last of the existing rows with this remote id. -/
def byRemoteId (existing : List ImportItem) (remoteId : String) : Option ImportItem :=
  existing.reverse.find? (fun item => item.remoteId = remoteId)

def newItem (job : ImportJob) (file : RemoteFile) : NewItem :=
  { importJobId := job.id
    eventId := job.eventId
    provider := job.provider
    remoteId := file.id
    remoteName := file.name
    remoteSize := file.size
    remoteChecksum := file.checksum }

/-- The content is in the event already, and is the same. -/
def unchanged (known : ImportItem) (file : RemoteFile) : Bool :=
  (known.status = .done || known.status = .skippedDuplicate) &&
    known.remoteChecksum = file.checksum && file.checksum.isSome

/-- One pass over the files of a page: the rows to insert and the number of
files counted as skipped. -/
def classify (job : ImportJob) (existing : List ImportItem) :
    List RemoteFile → List NewItem → ℕ → ImportProg (List NewItem × ℕ)
  | [], toInsert, skipped => pure (toInsert, skipped)
  | file :: files, toInsert, skipped =>
    match byRemoteId existing file.id with
    | none => classify job existing files (toInsert ++ [newItem job file]) skipped
    | some known =>
      if unchanged known file then do
        repointItem known.id job.id { status := .skippedDuplicate }
        classify job existing files toInsert (skipped + 1)
      else do
        repointItem known.id job.id { status := .pending, file := some file }
        classify job existing files toInsert skipped

/-- The numbers of files listed and of files skipped on one page. -/
def upsertListingPage (job : ImportJob) (files : List RemoteFile) : Attempt (ℕ × ℕ) :=
  if files = [] then pure (0, 0)
  else do
    let existing ← getExistingByRemoteIds job.eventId job.provider (files.map (fun f => f.id))
    let (toInsert, skipped) ← classify job existing files [] 0
    let _ ← insertItems toInsert
    pure (files.length, skipped)

/-- A page token that JavaScript takes for true. -/
def truthyToken (token : Option String) : Option String := token.filter (fun t => t ≠ "")

/-- The pages from one folder on, at most `fuel` of them: `none` when more
remain. Both loops of the source are one, over the folders still queued. -/
def listPages (job : ImportJob) : ℕ → List String → String → Option String → ℕ → ℕ →
    Attempt (Option (ℕ × ℕ))
  | 0, _, _, _, _, _ => pure none
  | fuel + 1, folderQueue, folderId, pageToken, listed, skipped => do
    let account ← requireAccount job.orgId job.cloudAccountId
    let accessToken ← getFreshAccessToken account.1
    let page ← listFilesPage accessToken folderId pageToken
    let folderQueue := if job.recursive then folderQueue ++ page.subfolderIds else folderQueue
    let outcome ← upsertListingPage job (mediaOf page)
    let listed := listed + outcome.1
    let skipped := skipped + outcome.2
    match truthyToken page.nextPageToken, folderQueue with
    | some token, queue => listPages job fuel queue folderId (some token) listed skipped
    | none, folder :: rest => listPages job fuel rest folder none listed skipped
    | none, [] => pure (some (listed, skipped))

/-- The job moves on once its listing is complete, and the files to fetch are
queued. -/
def fanOut (importJobId : JobId) (listed skipped : ℕ) : Attempt Verdict := do
  let pending ← pendingItemIds importJobId
  if pending = [] then
    updateJob importJobId { status := .done, totals := some (listed, skipped) }
    pure .success
  else
    updateJob importJobId { status := .importing, totals := some (listed, skipped) }
    queueImportFiles pending
    pure .success

def listFolder (importJobId : JobId) (job : ImportJob) (fuel : ℕ) : Attempt Verdict := do
  match ← listPages job fuel [] job.folderRemoteId none 0 0 with
  | none => pure .unended
  | some (listed, skipped) => fanOut importJobId listed skipped

def handleImportFolder (fuel : ℕ) (importJobId : JobId) : ImportProg Verdict := do
  match ← getJob importJobId with
  | none => pure .skipped
  | some job =>
    if job.status = .cancelled then pure .skipped
    else
      match ← (listFolder importJobId job fuel).run with
      | .ok verdict => pure verdict
      | .error (.rateLimit ms) => do
        rateLimitQueue ms
        pure .rateLimited
      | .error e => do
        updateJob importJobId { status := .failed, error := some e.text }
        pure .failed

/-! Importing one file. -/

/-- The extension of the last part of a path, with its dot. -/
def extname (filename : String) : String :=
  let base := (filename.toList.reverse.dropWhile (fun c => c = '/')).takeWhile (fun c => c ≠ '/')
  let ext := base.takeWhile (fun c => c ≠ '.')
  match base.drop ext.length with
  | [] | [_] => ""
  | _ :: _ => if base = ['.', '.'] then "" else "." ++ String.ofList ext.reverse

def mimeTypes : List (String × String) :=
  [(".jpg", "image/jpeg"), (".jpeg", "image/jpeg"), (".png", "image/png"),
    (".webp", "image/webp"), (".gif", "image/gif"), (".heic", "image/heic"),
    (".bmp", "image/bmp"), (".tif", "image/tiff"), (".tiff", "image/tiff"),
    (".mp4", "video/mp4"), (".mov", "video/quicktime"), (".mkv", "video/x-matroska"),
    (".webm", "video/webm"), (".avi", "video/x-msvideo")]

/-- `toLowerCase` as far as the table of extensions can tell: of the letters
that are not ASCII only the Kelvin sign becomes one of its letters. -/
def toLowerCase (s : String) : String :=
  String.ofList (s.toList.map (fun c => if c = Char.ofNat 0x212A then 'k' else c.toLower))

def guessMime (filename : String) : String :=
  (mimeTypes.lookup (toLowerCase (extname filename))).getD "application/octet-stream"

/-- `StorageKeys.original`. -/
def originalKey (orgId eventId assetId ext : String) : String :=
  s!"org/{orgId}/event/{eventId}/original/{assetId}{ext}"

def stagingPath (importItemId : ItemId) : String := s!"import-{importItemId}"

/-- Whether no pending or downloading item of the job remains, after one more
file is counted. -/
def bumpCounter (importJobId : JobId) (counter : Counter) : ImportProg Bool := do
  incrementCounter importJobId counter
  let remaining ← countRemaining importJobId
  pure (remaining = 0)

def finishItem (importJobId : JobId) (counter : Counter) : ImportProg Unit := do
  let finished ← bumpCounter importJobId counter
  if finished then
    match ← getJob importJobId with
    | some job =>
      if job.status = .importing then updateJob importJobId { status := .done } else pure ()
    | none => pure ()
  else pure ()

/-- The content is an asset of the event already. -/
def linkExisting (importItemId : ItemId) (job : ImportJob) (assetId : Option String) :
    Attempt Verdict := do
  markItem importItemId { status := .skippedDuplicate, assetId := some assetId }
  finishItem job.id .skippedFiles
  pure .success

/-- The asset row that the downloaded file becomes. -/
def assetOf (job : ImportJob) (item : ImportItem) (assetId checksum : String) (size : ℕ) :
    NewAsset :=
  let mimeType := guessMime item.remoteName
  { id := assetId
    eventId := job.eventId
    orgId := job.orgId
    type := if "video/".toList.isPrefixOf mimeType.toList then .video else .image
    originalFilename := item.remoteName
    checksum := checksum
    fileSize := size
    mimeType := mimeType
    source := job.provider
    storageKey :=
      originalKey job.orgId job.eventId assetId (toLowerCase (extname item.remoteName)) }

/-- Store the downloaded file, or link to the asset that won the insert. -/
def storeFile (importItemId : ItemId) (job : ImportJob) (item : ImportItem)
    (checksum : String) (size : ℕ) : Attempt Verdict := do
  let assetId ← randomUUID
  let asset := assetOf job item assetId checksum size
  putFile (stagingPath importItemId) asset.storageKey asset.mimeType
  if ← createAsset asset then
    queueAssetProcess assetId
    markItem importItemId { status := .done, assetId := some (some assetId) }
    finishItem job.id .doneFiles
    pure .success
  else
    deleteKeys [asset.storageKey]
    let winner ← findByChecksum job.eventId checksum
    linkExisting importItemId job winner

/-- The body of the `try` of `handleImportFile`. -/
def importFile (importItemId : ItemId) (job : ImportJob) (item : ImportItem) :
    Attempt Verdict := do
  markItem importItemId { status := .downloading }
  let account ← requireAccount job.orgId job.cloudAccountId
  let accessToken ← getFreshAccessToken account.1
  makeStagingFolder
  downloadToFile accessToken item.remoteId (stagingPath importItemId)
  let checksum ← hashFile (stagingPath importItemId)
  let size ← fileSize (stagingPath importItemId)
  match ← findByChecksum job.eventId checksum with
  | some existing => linkExisting importItemId job (some existing)
  | none => storeFile importItemId job item checksum size

/-- A rate limit puts the item back, any other failure is the item's own. -/
def recoverFile (importItemId : ItemId) (job : ImportJob) :
    Except ImportError Verdict → ImportProg Verdict
  | .ok verdict => pure verdict
  | .error (.rateLimit ms) => do
    markItem importItemId { status := .pending }
    rateLimitQueue ms
    pure .rateLimited
  | .error e => do
    markItem importItemId { status := .failed, error := some (some e.text) }
    finishItem job.id .failedFiles
    pure .success

def handleImportFile (importItemId : ItemId) : ImportProg Verdict := do
  match ← getItem importItemId with
  | none => pure .skipped
  | some item =>
    if item.status ≠ .pending then pure .skipped
    else
      match ← getJob item.importJobId with
      | none => pure .skipped
      | some job =>
        if job.status = .cancelled then pure .skipped
        else
          let outcome ← (importFile importItemId job item).run
          let verdict ← recoverFile importItemId job outcome
          removeFile (stagingPath importItemId)
          pure verdict

/-! The import API. -/

/-- A job as the dialog asks for it, its event and account resolved. -/
def createImport (job : NewJob) : ImportProg Verdict := do
  let resolved ← (do
    let orgId ← requireEvent job.eventId
    let account ← requireAccount orgId job.cloudAccountId
    pure { job with orgId := orgId, cloudAccountId := account.1, provider := account.2 } :
      Attempt NewJob).run
  match resolved with
  | .error e => pure (.refused e.text)
  | .ok row => do
    let importJobId ← createJob row
    queueImportFolder importJobId
    pure .success

def statusName : ImportJobStatus → String
  | .listing => "listing"
  | .importing => "importing"
  | .done => "done"
  | .failed => "failed"
  | .cancelled => "cancelled"

def cancel (eventId : String) (importJobId : JobId) : ImportProg Verdict := do
  match (← getJob importJobId).filter (fun job => job.eventId = eventId) with
  | none => pure (.refused "Import not found")
  | some job =>
    if job.status ≠ .listing ∧ job.status ≠ .importing then
      pure (.refused s!"Import is already {statusName job.status}")
    else do
      updateJob importJobId { status := .cancelled }
      pure .success

def ImportCall.prog (fuel : ℕ) : ImportCall → ImportProg Verdict
  | .importFolder importJobId => handleImportFolder fuel importJobId
  | .importFile importItemId => handleImportFile importItemId
  | .createImport job => Import.createImport job
  | .cancel eventId importJobId => Import.cancel eventId importJobId

/-! What the listing of pages leaves alone. -/

/-- Statements of the listing of pages. -/
def ImportOp.pages : ImportOp → Bool
  | .requireAccount _ _ | .getFreshAccessToken _ | .listFilesPage _ _ _
  | .getExistingByRemoteIds _ _ _ | .insertItems _ | .repointItem _ _ _ => true
  | _ => false

section Pages

variable {bad : ImportOp → Prop}

theorem classify_avoids (hbad : ∀ o, o.pages = true → ¬ bad o) (job : ImportJob)
    (existing : List ImportItem) (files : List RemoteFile) (toInsert : List NewItem)
    (skipped : ℕ) : (classify job existing files toInsert skipped).Avoids bad := by
  induction files generalizing toInsert skipped with
  | nil => trivial
  | cons file files ih =>
    rw [classify]
    split
    · exact ih _ _
    · split
      · exact ⟨hbad _ rfl, fun _ => ih _ _⟩
      · exact ⟨hbad _ rfl, fun _ => ih _ _⟩

theorem upsertListingPage_avoids (hbad : ∀ o, o.pages = true → ¬ bad o) (job : ImportJob)
    (files : List RemoteFile) : (upsertListingPage job files).run.Avoids bad := by
  rw [upsertListingPage]
  split
  · trivial
  · refine ⟨hbad _ rfl, fun existing => ?_⟩
    refine Prog.avoids_lift (classify_avoids hbad job existing files [] 0) fun sorted => ?_
    refine Prog.avoids_attempt ?_ fun _ => trivial
    rw [insertItems]
    split
    · trivial
    · exact ⟨hbad _ rfl, fun _ => trivial⟩

theorem listPages_avoids (hbad : ∀ o, o.pages = true → ¬ bad o) (job : ImportJob) (fuel : ℕ)
    (folderQueue : List String) (folderId : String) (pageToken : Option String)
    (listed skipped : ℕ) :
    (listPages job fuel folderQueue folderId pageToken listed skipped).run.Avoids bad := by
  induction fuel generalizing folderQueue folderId pageToken listed skipped with
  | zero => trivial
  | succ fuel ih =>
    refine ⟨hbad _ rfl, fun account => ?_⟩
    cases account with
    | error e => trivial
    | ok account =>
    refine ⟨hbad _ rfl, fun accessToken => ?_⟩
    cases accessToken with
    | error e => trivial
    | ok accessToken =>
    refine ⟨hbad _ rfl, fun page => ?_⟩
    cases page with
    | error e => trivial
    | ok page =>
    refine Prog.avoids_attempt (upsertListingPage_avoids hbad job _) fun outcome => ?_
    generalize (if job.recursive then folderQueue ++ page.subfolderIds else folderQueue) = queue
    split
    · exact ih _ _ _ _ _
    · exact ih _ _ _ _ _
    · trivial

end Pages

end EventLens.Import
