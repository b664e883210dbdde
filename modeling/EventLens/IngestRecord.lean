import EventLens.ImportService
import EventLens.Keyset
import Mathlib

/-!
The tables that bring media into an event: organisations and their limits,
events, assets, beside the import tables, the bucket and the staged files. A
file is kept as the SHA-1 of its bytes. The partial unique index on the live
assets of an event refuses a second asset with the same checksum.
-/

namespace EventLens.Ingest

open Import (CloudProvider AssetType NewAsset ImportError ImportWorld ImportCall Verdict)

inductive OrgPlan
  | starter | pro | enterprise
deriving DecidableEq, Repr

structure PlanLimits where
  storageBytes : ℕ
  events : ℕ
deriving DecidableEq, Repr

def gigabyte : ℕ := 1024 * 1024 * 1024

/-- `PLAN_LIMITS`. -/
def planLimits : OrgPlan → PlanLimits
  | .starter => { storageBytes := 2 * gigabyte, events := 1 }
  | .pro => { storageBytes := 10 * gigabyte, events := 5 }
  | .enterprise => { storageBytes := 50 * gigabyte, events := 10 }

structure Organization where
  id : String
  plan : OrgPlan
  storageLimitBytes : Option ℕ := none
  eventLimit : Option ℕ := none
deriving DecidableEq, Repr

/-- What a negotiated limit leaves open is the plan's. -/
def limitsFor (org : Organization) : PlanLimits :=
  { storageBytes := org.storageLimitBytes.getD (planLimits org.plan).storageBytes
    events := org.eventLimit.getD (planLimits org.plan).events }

structure EventRow where
  id : String
  orgId : String
  name : String
  slug : String
  deleted : Bool := false
deriving DecidableEq, Repr

structure CreateEvent where
  name : String
  slug : String
deriving DecidableEq, Repr

inductive AssetSource
  | upload
  | cloud (provider : CloudProvider)
deriving DecidableEq, Repr

structure AssetRow where
  id : String
  eventId : String
  orgId : String
  type : AssetType
  originalFilename : String
  checksum : String
  fileSize : ℕ
  mimeType : String
  source : AssetSource
  storageKey : String
  deleted : Bool := false
deriving DecidableEq, Repr

def importedRow (asset : NewAsset) : AssetRow :=
  { id := asset.id
    eventId := asset.eventId
    orgId := asset.orgId
    type := asset.type
    originalFilename := asset.originalFilename
    checksum := asset.checksum
    fileSize := asset.fileSize
    mimeType := asset.mimeType
    source := .cloud asset.source
    storageKey := asset.storageKey }

/-- A file that the upload middleware has staged. -/
structure StagedUpload where
  stagingPath : String
  originalFilename : String
  mimeType : String
  size : ℕ
  checksum : String
deriving DecidableEq, Repr

inductive UploadStatus
  | created | duplicate
deriving DecidableEq, Repr

structure UploadResult where
  id : String
  status : UploadStatus
deriving DecidableEq, Repr

inductive IngestError
  | notFound (text : String)
  | badRequest (text : String)
  | failed (e : ImportError)
deriving DecidableEq, Repr

/-- The jobs of the storage cleanup: objects by their keys, or all under a key
prefix. -/
inductive Cleanup
  | cleanupKeys (keys : List String)
  | cleanupPrefix (pfx : String)
deriving DecidableEq, Repr

/-- Requests that bring media or events in or take them away, the calls of the
cloud import and the jobs of the storage cleanup. -/
inductive IngestCall
  | imports (c : ImportCall)
  | uploadAsset (eventId : String) (staged : StagedUpload)
  | createEvent (orgId : String) (dto : CreateEvent)
  | removeEvent (orgId eventId confirmation : String)
  | deleteMany (eventId : String) (ids : List String)
  | cleanup (job : Cleanup)
deriving DecidableEq, Repr

inductive IngestReply
  | imports (verdict : Verdict)
  | refused (e : IngestError)
  | uploaded (result : UploadResult)
  | eventCreated (event : EventRow)
  | eventRemoved
  | deleted (count : ℕ)
  | cleaned (verdict : Verdict)
deriving DecidableEq, Repr

/-- The tables, the bucket with its objects, the staged files, the files of the
cloud accounts, the cleanup jobs that were queued, the answered requests and
the number of the next UUID. -/
structure IngestStore extends ImportWorld where
  orgs : List Organization := []
  events : List EventRow := []
  assets : List AssetRow := []
  bucket : List (String × String) := []
  staged : List (String × String) := []
  remote : List (String × String) := []
  cleanups : List Cleanup := []
  answered : List (IngestCall × IngestReply) := []
  nextUuid : ℕ := 0
deriving DecidableEq, Repr

/-- Files under their paths, or objects under their keys: one of each name. -/
def putObject (name content : String) (objects : List (String × String)) : List (String × String) :=
  objects.filter (fun object => object.1 ≠ name) ++ [(name, content)]

def removeObjects (names : List String) (objects : List (String × String)) :
    List (String × String) :=
  objects.filter (fun object => object.1 ∉ names)

namespace IngestStore

def getOrg (s : IngestStore) (orgId : String) : Option Organization :=
  s.orgs.find? (fun org => org.id = orgId)

def getEvent (s : IngestStore) (eventId : String) : Option EventRow :=
  s.events.find? (fun event => event.id = eventId ∧ event.deleted = false)

def getBySlug (s : IngestStore) (slug : String) : Option EventRow :=
  s.events.find? (fun event => event.slug = slug ∧ event.deleted = false)

def findByChecksum (s : IngestStore) (eventId checksum : String) : Option AssetRow :=
  s.assets.find? (fun a => a.eventId = eventId ∧ a.checksum = checksum ∧ a.deleted = false)

/-- The event is there, not deleted, and of this organisation. -/
def liveEvent (s : IngestStore) (orgId eventId : String) : Bool :=
  s.events.any (fun event => event.id = eventId ∧ event.orgId = orgId ∧ event.deleted = false)

/-- The assets that count for an organisation. -/
def liveAssets (s : IngestStore) (orgId : String) : List AssetRow :=
  s.assets.filter (fun a => a.deleted = false ∧ s.liveEvent orgId a.eventId)

def getOrgStorageBytes (s : IngestStore) (orgId : String) : ℕ :=
  ((s.liveAssets orgId).map AssetRow.fileSize).sum

def countForOrg (s : IngestStore) (orgId : String) : ℕ :=
  s.events.countP (fun event => event.orgId = orgId ∧ event.deleted = false)

def insertAsset (s : IngestStore) (row : AssetRow) : IngestStore :=
  { s with assets := s.assets ++ [row] }

/-- `UNIQUE (slug)`, deleted events included. -/
def slugTaken (s : IngestStore) (slug : String) : Bool :=
    s.events.any (fun event => event.slug = slug)

def createEvent (s : IngestStore) (orgId : String) (dto : CreateEvent) : IngestStore :=
  { s with
    events := s.events ++
      [{ id := toString s.nextUuid, orgId := orgId, name := dto.name, slug := dto.slug }]
    nextUuid := s.nextUuid + 1 }

/-- The event goes, and with it its assets and its imports. -/
def hardDelete (s : IngestStore) (orgId eventId : String) : IngestStore :=
  if s.events.any (fun event => event.id = eventId ∧ event.orgId = orgId) then
    { s with
      events := s.events.filter (fun event => event.id ≠ eventId)
      assets := s.assets.filter (fun a => a.eventId ≠ eventId)
      jobs := s.jobs.filter (fun job => job.eventId ≠ eventId)
      items := s.items.filter (fun item => item.eventId ≠ eventId) }
  else s

/-- The live assets of these ids. -/
def selected (s : IngestStore) (eventId : String) (ids : List String) : List AssetRow :=
  s.assets.filter (fun a => a.eventId = eventId ∧ a.id ∈ ids ∧ a.deleted = false)

def softDeleteMany (s : IngestStore) (eventId : String) (ids : List String) : IngestStore :=
  { s with
    assets := s.assets.map (fun a =>
      if a.eventId = eventId ∧ a.id ∈ ids then { a with deleted := true } else a) }

def putFile (s : IngestStore) (key content : String) : IngestStore :=
  { s with bucket := putObject key content s.bucket }

/-- `ListObjectsV2`, a thousand at most. -/
def listObjects (s : IngestStore) (pfx : String) (cursor : Option String) :
    Keyset.Page String String :=
  Keyset.listing id 1000
    ((s.bucket.map Prod.fst).filter (fun key => pfx.toList.isPrefixOf key.toList)) cursor

end IngestStore

end EventLens.Ingest
