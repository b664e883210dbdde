import EventLens.Programs
import EventLens.Rows

/-!
The data of the cloud import: the rows of the import tables, what the cloud
providers answer and the statements of the import repository. The job store's
waiting import work stands beside the tables. Ids that the database generates
are numbers, the ids of other tables and of the provider are strings. Columns
that only the progress panel shows are left out.
-/

namespace EventLens.Import

open Programs

abbrev JobId := ℕ
abbrev ItemId := ℕ

inductive CloudProvider
  | gDrive | oneDrive
deriving DecidableEq, Repr

inductive ImportJobStatus
  | listing | importing | done | failed | cancelled
deriving DecidableEq, Repr

inductive ImportItemStatus
  | pending | downloading | done | skippedDuplicate | failed
deriving DecidableEq, Repr

/-- A row of `import_job`. -/
structure ImportJob where
  id : JobId
  eventId : String
  orgId : String
  cloudAccountId : String
  provider : CloudProvider
  folderRemoteId : String
  recursive : Bool
  status : ImportJobStatus := .listing
  totalFiles : ℕ := 0
  doneFiles : ℕ := 0
  skippedFiles : ℕ := 0
  failedFiles : ℕ := 0
  error : Option String := none
deriving DecidableEq, Repr

/-- A row of `import_item`. -/
structure ImportItem where
  id : ItemId
  importJobId : JobId
  eventId : String
  provider : CloudProvider
  remoteId : String
  remoteName : String
  remoteSize : Option ℕ
  remoteChecksum : Option String
  status : ImportItemStatus := .pending
  assetId : Option String := none
  error : Option String := none
deriving DecidableEq, Repr

/-- The row of a new item, before the database gives it an id. -/
structure NewItem where
  importJobId : JobId
  eventId : String
  provider : CloudProvider
  remoteId : String
  remoteName : String
  remoteSize : Option ℕ
  remoteChecksum : Option String
deriving DecidableEq, Repr

/-- The row of a new job, before the database gives it an id. -/
structure NewJob where
  eventId : String
  orgId : String
  cloudAccountId : String
  provider : CloudProvider
  folderRemoteId : String
  recursive : Bool
deriving DecidableEq, Repr

def NewItem.row (n : NewItem) (id : ItemId) : ImportItem :=
  { id := id
    importJobId := n.importJobId
    eventId := n.eventId
    provider := n.provider
    remoteId := n.remoteId
    remoteName := n.remoteName
    remoteSize := n.remoteSize
    remoteChecksum := n.remoteChecksum }

def NewJob.row (n : NewJob) (id : JobId) : ImportJob :=
  { id := id
    eventId := n.eventId
    orgId := n.orgId
    cloudAccountId := n.cloudAccountId
    provider := n.provider
    folderRemoteId := n.folderRemoteId
    recursive := n.recursive }

structure RemoteFile where
  id : String
  name : String
  size : Option ℕ
  checksum : Option String
  mimeType : String
deriving DecidableEq, Repr

structure RemoteListingPage where
  files : List RemoteFile
  subfolderIds : List String := []
  nextPageToken : Option String := none
deriving DecidableEq, Repr

/-- What a call that fails throws. -/
inductive ImportError
  | rateLimit (retryAfterMs : ℕ)
  | assetChecksumConstraint (text : String)
  | other (text : String)
deriving DecidableEq, Repr

/-- The error as the template literal prints it, cut to the column. -/
def ImportError.text : ImportError → String
  | .rateLimit ms =>
    s!"Error: Provider rate limit — retry after {ms} ms"
  | .assetChecksumConstraint text => String.ofList (text.toList.take 1000)
  | .other text => String.ofList (text.toList.take 1000)

inductive Counter
  | doneFiles | skippedFiles | failedFiles
deriving DecidableEq, Repr

/-- The counter that an item of this final status belongs in. -/
def ImportItemStatus.counter : ImportItemStatus → Option Counter
  | .done => some .doneFiles
  | .skippedDuplicate => some .skippedFiles
  | .failed => some .failedFiles
  | .pending | .downloading => none

/-- `status IN ('pending', 'downloading')`. -/
def ImportItemStatus.remaining : ImportItemStatus → Bool
  | .pending | .downloading => true
  | .done | .skippedDuplicate | .failed => false

/-- The columns an update of a job sets. -/
structure JobChange where
  status : ImportJobStatus
  totals : Option (ℕ × ℕ) := none
  error : Option String := none
deriving DecidableEq, Repr

/-- `totals` are the new `totalFiles` and `skippedFiles`. -/
def JobChange.apply (dto : JobChange) (job : ImportJob) : ImportJob :=
  { job with
    status := dto.status
    totalFiles := (dto.totals.map Prod.fst).getD job.totalFiles
    skippedFiles := (dto.totals.map Prod.snd).getD job.skippedFiles
    error := dto.error.or job.error }

/-- The columns an update of an item sets. -/
structure ItemChange where
  status : ImportItemStatus
  assetId : Option (Option String) := none
  error : Option (Option String) := none
deriving DecidableEq, Repr

def ItemChange.apply (dto : ItemChange) (item : ImportItem) : ImportItem :=
  { item with
    status := dto.status
    assetId := dto.assetId.getD item.assetId
    error := dto.error.getD item.error }

/-- The columns a re-pointed item gets besides its new job: those of the
remote file when it is to be imported again. -/
structure Repoint where
  status : ImportItemStatus
  file : Option RemoteFile := none
deriving DecidableEq, Repr

def Repoint.apply (dto : Repoint) (importJobId : JobId) (item : ImportItem) : ImportItem :=
  match dto.file with
  | none => { item with importJobId := importJobId, status := dto.status }
  | some file =>
    { item with
      importJobId := importJobId
      status := dto.status
      remoteChecksum := file.checksum
      remoteName := file.name
      remoteSize := file.size
      error := none }

def ImportJob.bump (counter : Counter) (job : ImportJob) : ImportJob :=
  match counter with
  | .doneFiles => { job with doneFiles := job.doneFiles + 1 }
  | .skippedFiles => { job with skippedFiles := job.skippedFiles + 1 }
  | .failedFiles => { job with failedFiles := job.failedFiles + 1 }

/-- Work waiting in the import queue, and the calls of the import API. -/
inductive ImportCall
  | importFolder (importJobId : JobId)
  | importFile (importItemId : ItemId)
  | createImport (job : NewJob)
  | cancel (eventId : String) (importJobId : JobId)
deriving DecidableEq, Repr

/-- How a call ends. A handler that throws the queue's rate limit error goes
back to waiting; `unended` is a listing longer than the pages allowed to it. -/
inductive Verdict
  | success | skipped | failed | rateLimited | refused (text : String) | unended
deriving DecidableEq, Repr

/-- The import tables, and the ids the database gives out next. -/
structure Tables where
  jobs : List ImportJob := []
  items : List ImportItem := []
  nextJobId : JobId := 0
  nextItemId : ItemId := 0
deriving DecidableEq, Repr

/-- The import tables, the waiting import work and the calls that ended. -/
structure ImportWorld extends Tables where
  queue : List ImportCall := []
  ended : List (ImportCall × Verdict) := []
deriving DecidableEq, Repr

def Tables.updateJobs (t : Tables) (k : JobId) (f : ImportJob → ImportJob) : Tables :=
  { t with jobs := updateRow ImportJob.id k f t.jobs }

def Tables.updateItems (t : Tables) (k : ItemId) (f : ImportItem → ImportItem) : Tables :=
  { t with items := updateRow ImportItem.id k f t.items }

def Tables.addJob (t : Tables) (job : NewJob) : Tables :=
  { t with jobs := t.jobs ++ [job.row t.nextJobId], nextJobId := t.nextJobId + 1 }

/-- The rows of new items under consecutive fresh ids. -/
def freshRows (next : ItemId) : List NewItem → List ImportItem
  | [] => []
  | n :: rows => n.row next :: freshRows (next + 1) rows

/-- `UNIQUE (event_id, provider, remote_id)`. -/
def ImportItem.sameFile (a b : ImportItem) : Prop :=
  a.eventId = b.eventId ∧ a.provider = b.provider ∧ a.remoteId = b.remoteId

instance (a b : ImportItem) : Decidable (a.sameFile b) :=
  inferInstanceAs (Decidable (_ ∧ _ ∧ _))

def uniqueFiles (items : List ImportItem) : Prop :=
  items.Pairwise (fun a b => ¬ a.sameFile b)

instance (items : List ImportItem) : Decidable (uniqueFiles items) :=
  inferInstanceAs (Decidable (items.Pairwise _))

def Tables.addItems (t : Tables) (items : List NewItem) : Tables :=
  { t with
    items := t.items ++ freshRows t.nextItemId items
    nextItemId := t.nextItemId + items.length }

end EventLens.Import
