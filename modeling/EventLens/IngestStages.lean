import EventLens.IngestService
import EventLens.StorageKeys

/-!
The stages a call goes through that brings media or an event in: the content it
has identified, the free space its check has seen, the asset id it has drawn,
the object it has put, the row it has inserted. Every call performs only what
its stage permits.
-/

namespace EventLens.Ingest

open Programs Contract
open Import (ImportOp ImportRes ImportCall ImportError ImportProg ImportJob ImportItem
  ImportItemStatus ItemId NewAsset Verdict Extension stagingPath originalKey extname
  extension_extname)

inductive Origin
  | upload (path : String)
  | item (x : ItemId)
deriving DecidableEq, Repr

/-- Content on its way into an event. -/
structure Load where
  eventId : String
  orgId : String
  checksum : String
  size : ℕ
  origin : Origin
deriving DecidableEq, Repr

def Load.path (l : Load) : String :=
  match l.origin with
  | .upload path => path
  | .item x => stagingPath x

inductive Stage
  | idle
  | asked (eventId : String) (file : StagedUpload)
  | starting (x : ItemId)
  | chosen (x : ItemId) (item : ImportItem)
  | admitted (x : ItemId) (item : ImportItem) (job : ImportJob)
  | fetched (x : ItemId) (item : ImportItem) (job : ImportJob)
  | hashed (x : ItemId) (item : ImportItem) (job : ImportJob) (checksum : String)
  | looking (l : Load)
  | weighing (l : Load) (org : Option Organization) (used : Option ℕ)
  | unseen (l : Load) (used : Option ℕ)
  | drawn (l : Load) (used : Option ℕ) (id : String)
  | placed (l : Load) (used : Option ℕ) (id key : String)
  | stored (l : Load) (id key : String)
  | lost (l : Load) (id key : String)
  | cleared (l : Load)
  | linking (l : Load) (winner : Option String)
  | marked (l : Load) (x : ItemId) (status : ImportItemStatus) (assetId : Option String)
  | failed (x : ItemId)
  | planning (orgId : String) (org : Option Organization)
  | planned (orgId : String) (count : ℕ)
deriving DecidableEq, Repr

/-- The stage of a call that has failed to bring this in. -/
def Load.failed (l : Load) : Stage :=
  match l.origin with
  | .upload _ => .idle
  | .item x => .failed x

namespace Stage

/-- The stage after an insertion was answered. -/
def insertion (l : Load) (id key : String) : Except ImportError Unit → Stage
  | .ok _ => .stored l id key
  | .error (.assetChecksumConstraint _) => .lost l id key
  | .error _ => l.failed

/-- The stage after an event. -/
def note : Stage → IngestEvent → Stage
  | .asked eventId file, ⟨.getEvent _, r⟩ =>
    match (r : Option EventRow) with
    | some event => .looking
        { eventId := eventId
          orgId := event.orgId
          checksum := file.checksum
          size := file.size
          origin := .upload file.stagingPath }
    | none => .idle
  | .starting x, ⟨.imports (.getItem _), r⟩ =>
    match (r : Option ImportItem) with
    | some item => if item.status = .pending then .chosen x item else .idle
    | none => .idle
  | .chosen x item, ⟨.imports (.getJob _), r⟩ =>
    match (r : Option ImportJob) with
    | some job => if job.status = .cancelled then .idle else .admitted x item job
    | none => .idle
  | .admitted x item job, ⟨.imports (.requireAccount _ _), r⟩ =>
    match (r : Except ImportError (String × Import.CloudProvider)) with
    | .ok _ => .admitted x item job
    | .error _ => .failed x
  | .admitted x item job, ⟨.imports (.getFreshAccessToken _), r⟩ =>
    match (r : Except ImportError String) with
    | .ok _ => .admitted x item job
    | .error _ => .failed x
  | .admitted x item job, ⟨.imports .makeStagingFolder, r⟩ =>
    match (r : Except ImportError Unit) with
    | .ok _ => .admitted x item job
    | .error _ => .failed x
  | .admitted x item job, ⟨.imports (.downloadToFile _ _ _), r⟩ =>
    match (r : Except ImportError Unit) with
    | .ok _ => .fetched x item job
    | .error _ => .failed x
  | .fetched x item job, ⟨.imports (.hashFile _), r⟩ =>
    match (r : Except ImportError String) with
    | .ok checksum => .hashed x item job checksum
    | .error _ => .failed x
  | .hashed x _ job checksum, ⟨.imports (.fileSize _), r⟩ =>
    match (r : Except ImportError ℕ) with
    | .ok size => .looking
        { eventId := job.eventId
          orgId := job.orgId
          checksum := checksum
          size := size
          origin := .item x }
    | .error _ => .failed x
  | .looking l, ⟨.imports (.findByChecksum _ _), r⟩ =>
    match (r : Except ImportError (Option String)), l.origin with
    | .ok (some existing), _ => .linking l (some existing)
    | .ok none, .upload _ => .weighing l none none
    | .ok none, .item _ => .unseen l none
    | .error _, _ => l.failed
  | .weighing l _ used, ⟨.getOrg _, org⟩ =>
    match (org : Option Organization) with
    | some org => .weighing l (some org) used
    | none => .idle
  | .weighing l org _, ⟨.getOrgStorageBytes _, used⟩ => .weighing l org (some used)
  | .weighing l org used, ⟨.countForOrg _, _⟩ =>
    match org, used with
    | some org, some used =>
      if used + l.size ≤ (limitsFor org).storageBytes then .unseen l (some used) else .idle
    | _, _ => .idle
  | .unseen l used, ⟨.imports .randomUUID, id⟩ => .drawn l used id
  | .drawn l used id, ⟨.imports (.putFile _ key _), r⟩ =>
    match (r : Except ImportError Unit) with
    | .ok _ => .placed l used id key
    | .error _ => l.failed
  | .placed l _ id key, ⟨.createAsset _, r⟩ => insertion l id key r
  | .placed l _ id key, ⟨.imports (.createAsset _), r⟩ => insertion l id key r
  | .stored l id key, ⟨.imports (.queueAssetProcess _), r⟩ =>
    match (r : Except ImportError Unit) with
    | .ok _ => .stored l id key
    | .error _ => l.failed
  | .lost l _ _, ⟨.imports (.deleteKeys _), _⟩ => .cleared l
  | .cleared l, ⟨.imports (.findByChecksum _ _), r⟩ =>
    match (r : Except ImportError (Option String)) with
    | .ok winner => .linking l winner
    | .error _ => l.failed
  | .stored l _ _, ⟨.imports (.markItem x dto), _⟩ => .marked l x dto.status (dto.assetId.getD none)
  | .linking l _, ⟨.imports (.markItem x dto), _⟩ => .marked l x dto.status (dto.assetId.getD none)
  | .planning orgId _, ⟨.getOrg _, org⟩ =>
    match (org : Option Organization) with
    | some org => .planning orgId (some org)
    | none => .idle
  | .planning orgId org, ⟨.countForOrg _, count⟩ =>
    match (org : Option Organization) with
    | some org => if (count : ℕ) < (limitsFor org).events then .planned orgId count else .idle
    | none => .idle
  | .planned _ _, ⟨.createEvent _ _, _⟩ => .idle
  | s, _ => s

end Stage

/-- Operations that bring an asset or an event in. -/
def IngestOp.inserts : IngestOp → Bool
  | .createAsset _ | .imports (.createAsset _) | .createEvent _ _ => true
  | _ => false

/-- The key under which an asset of this id is kept. -/
def OriginalOf (l : Load) (id key : String) : Prop :=
  ∃ ext, Extension ext ∧ key = originalKey l.orgId l.eventId id ext

/-- The row that the content becomes. -/
structure RowOf (l : Load) (id key : String) (row : AssetRow) : Prop where
  id : row.id = id
  eventId : row.eventId = l.eventId
  checksum : row.checksum = l.checksum
  fileSize : row.fileSize = l.size
  storageKey : row.storageKey = key
  live : row.deleted = false

/-- What a worker performs after its item is marked. -/
def finishing (x : ItemId) : ImportOp → Prop
  | .incrementCounter _ _ | .countRemaining _ | .getJob _ | .rateLimitQueue _ => True
  | .updateJob _ dto => dto.status = .done
  | .removeFile path => path = stagingPath x
  | _ => False

/-- The operations a stage permits. -/
def Stage.Permits : Stage → IngestOp → Prop
  | .idle, o => o.inserts = false
  | .asked eventId _, .getEvent k => k = eventId
  | .starting x, .imports (.getItem k) => k = x
  | .chosen _ item, .imports (.getJob k) => k = item.importJobId
  | .admitted x _ _, .imports (.markItem k dto) => k = x ∧ dto = { status := .downloading }
  | .admitted _ _ _, .imports (.requireAccount _ _) => True
  | .admitted _ _ _, .imports (.getFreshAccessToken _) => True
  | .admitted _ _ _, .imports .makeStagingFolder => True
  | .admitted x item _, .imports (.downloadToFile _ fileId path) =>
      fileId = item.remoteId ∧ path = stagingPath x
  | .fetched x _ _, .imports (.hashFile path) => path = stagingPath x
  | .hashed x _ _ _, .imports (.fileSize path) => path = stagingPath x
  | .looking l, .imports (.findByChecksum eventId checksum) =>
      eventId = l.eventId ∧ checksum = l.checksum
  | .weighing l _ _, .getOrg k | .weighing l _ _, .getOrgStorageBytes k
  | .weighing l _ _, .countForOrg k => k = l.orgId
  | .unseen _ _, .imports .randomUUID => True
  | .drawn l _ id, .imports (.putFile path key _) => path = l.path ∧ OriginalOf l id key
  | .placed l _ id key, .createAsset row => l.origin = .upload l.path ∧ RowOf l id key row
  | .placed l used id key, .imports (.createAsset asset) =>
      used = none ∧ RowOf l id key (importedRow asset)
  | .stored l _ _, .imports (.removeFile path) => path = l.path
  | .stored _ _ _, .imports (.queueAssetProcess _) => True
  | .stored l id _, .imports (.markItem k dto) => l.origin = .item k ∧
      dto = { status := .done, assetId := some (some id) }
  | .lost _ _ key, .imports (.deleteKeys keys) => keys = [key]
  | .cleared l, .imports (.removeFile path) => path = l.path
  | .cleared l, .imports (.findByChecksum eventId checksum) =>
      eventId = l.eventId ∧ checksum = l.checksum
  | .linking l _, .imports (.removeFile path) => path = l.path
  | .linking l winner, .imports (.markItem k dto) => l.origin = .item k ∧
      dto = { status := .skippedDuplicate, assetId := some winner }
  | .marked _ x _ _, .imports o => finishing x o
  | .failed x, .imports (.markItem k dto) => k = x ∧ (dto.status = .failed ∨ dto.status = .pending)
  | .failed x, .imports o => finishing x o
  | .planning orgId _, .getOrg k | .planning orgId _, .countForOrg k => k = orgId
  | .planning _ _, .getOrgStorageBytes _ => True
  | .planned _ _, .getBySlug _ => True
  | .planned orgId _, .createEvent k _ => k = orgId
  | _, _ => False

def stages : Contract IngestOp IngestRes Stage where
  note := Stage.note
  expects _ _ := True
  permits := Stage.Permits

/-- The same for the programs of the import. -/
abbrev importStages : Contract ImportOp ImportRes Stage :=
  stages.within IngestOp.imports (fun _ r => r)

def IngestCall.first : IngestCall → Stage
  | .imports (.importFile x) => .starting x
  | .imports _ | .removeEvent _ _ _ | .deleteMany _ _ | .cleanup _ => .idle
  | .uploadAsset eventId file => .asked eventId file
  | .createEvent orgId _ => .planning orgId none

/-- How an upload ends that is answered. -/
def UploadEnd (result : UploadResult) (g : Stage) : Prop :=
  match result.status with
  | .created => ∃ l key, g = .stored l result.id key
  | .duplicate => ∃ l, g = .linking l (some result.id)

/-- How a worker ends. -/
def WorkerEnd (x : ItemId) (verdict : Verdict) (g : Stage) : Prop :=
  g = .idle ∨ g = .failed x ∨ ∃ l status assetId, g = .marked l x status assetId ∧
    verdict = .success

/-- How a call ends. -/
def IngestCall.Post : IngestCall → IngestReply → Stage → Prop
  | .uploadAsset _ _, reply, g =>
    (∃ e, reply = .refused e ∧ (g = .idle ∨ ∃ l, g = .linking l none)) ∨
      ∃ result, reply = .uploaded result ∧ UploadEnd result g
  | .imports (.importFile x), reply, g =>
    ∃ verdict, reply = .imports verdict ∧ WorkerEnd x verdict g
  | .imports _, reply, _ => ∃ verdict, reply = .imports verdict
  | _, _, _ => True

/-! Every call keeps to its stages. -/

section Follows

variable {g : Stage} {l : Load} {x : ItemId}

/-- The item has been marked for good, or is to be. -/
def Stage.Ending (x : ItemId) (g : Stage) : Prop :=
  g = .failed x ∨ ∃ l status assetId, g = .marked l x status assetId

theorem follows_finishing {α : Type} {o : ImportOp} {next : ImportRes o → ImportProg α}
    {Q : α → Stage → Prop} (hg : g.Ending x) (ho : finishing x o)
    (h : ∀ r, importStages.Follows (next r) Q g) : importStages.Follows (.perform o next) Q g := by
  rcases hg with rfl | ⟨l, status, assetId, rfl⟩
  · refine ⟨?_, fun r _ => h r⟩
    cases o <;> first | exact ho | cases ho
  · exact ⟨ho, fun r _ => h r⟩

theorem finishItem_follows (hg : g.Ending x) (j : Import.JobId) (counter : Import.Counter) :
    importStages.Follows (Import.finishItem j counter) (fun _ g' => g' = g) g := by
  refine follows_finishing hg trivial fun _ => follows_finishing hg trivial fun remaining => ?_
  change importStages.Follows (if decide (remaining = 0) = true then _ else _) _ g
  split
  · refine follows_finishing hg trivial fun job => ?_
    cases job with
    | none => rfl
    | some job =>
      change importStages.Follows (if job.status = .importing then _ else _) _ g
      split
      · exact follows_finishing hg rfl fun _ => rfl
      · rfl
  · rfl

/-- How the body of the `try` of a worker may end. -/
def FileBody (x : ItemId) (r : Except ImportError Verdict) (g : Stage) : Prop :=
  match r with
  | .ok verdict => verdict = .success ∧ ∃ l status assetId, g = .marked l x status assetId
  | .error _ => g = .failed x

theorem linkExisting_follows {job : ImportJob} {winner : Option String} (hl : l.origin = .item x) :
    importStages.Follows (Import.linkExisting x job winner).run (FileBody x)
    (.linking l winner) := by
  refine ⟨⟨hl, rfl⟩, fun _ _ => ?_⟩
  refine (follows_lift _ _ _ _ _).mpr ?_
  refine follows_mono _ ?_ _ _
    (finishItem_follows (x := x) (.inr ⟨l, .skippedDuplicate, winner, rfl⟩) job.id .skippedFiles)
  rintro _ _ rfl
  exact ⟨rfl, l, _, _, rfl⟩

theorem failed_item (hl : l.origin = .item x) : l.failed = .failed x := by
  rw [Load.failed, hl]

theorem path_item (hl : l.origin = .item x) : l.path = stagingPath x := by
  rw [Load.path, hl]

theorem storeFile_follows {job : ImportJob} {item : ImportItem} {checksum : String} {size : ℕ}
    (hl : l = ⟨job.eventId, job.orgId, checksum, size, .item x⟩) :
    importStages.Follows (Import.storeFile x job item checksum size).run (FileBody x)
      (.unseen l none) := by
  have horigin : l.origin = .item x := by rw [hl]
  have hfailed := failed_item horigin
  refine ⟨trivial, fun id _ => ⟨⟨(path_item horigin).symm, ?_⟩, fun stored _ => ?_⟩⟩
  · rw [hl]
    exact ⟨_, (extension_extname _).toLowerCase, rfl⟩
  cases stored with
  | error e => exact hfailed
  | ok _ =>
    refine ⟨⟨rfl, ?_⟩, fun created _ => ?_⟩
    · rw [hl]
      exact ⟨rfl, rfl, rfl, rfl, rfl, rfl⟩
    cases created with
    | ok _ =>
      refine ⟨trivial, fun queued _ => ?_⟩
      cases queued with
      | error e => exact hfailed
      | ok _ =>
        refine ⟨⟨horigin, rfl⟩, fun _ _ => ?_⟩
        refine (follows_lift _ _ _ _ _).mpr ?_
        refine follows_mono _ ?_ _ _
          (finishItem_follows (x := x) (.inr ⟨l, .done, some id, rfl⟩) job.id .doneFiles)
        rintro _ _ rfl
        exact ⟨rfl, l, _, _, rfl⟩
    | error e =>
      cases e with
      | rateLimit ms => exact hfailed
      | other text => exact hfailed
      | assetChecksumConstraint text =>
        refine ⟨rfl, fun _ _ => ⟨?_, fun winner _ => ?_⟩⟩
        · rw [hl]
          exact ⟨rfl, rfl⟩
        cases winner with
        | error e => exact hfailed
        | ok winner => exact linkExisting_follows horigin

theorem importFile_follows {job : ImportJob} {item : ImportItem} :
    importStages.Follows (Import.importFile x job item).run (FileBody x)
    (.admitted x item job) := by
  refine ⟨⟨rfl, rfl⟩, fun _ _ => ⟨trivial, fun account _ => ?_⟩⟩
  cases account with
  | error e => rfl
  | ok account =>
  refine ⟨trivial, fun accessToken _ => ?_⟩
  cases accessToken with
  | error e => rfl
  | ok accessToken =>
  refine ⟨trivial, fun made _ => ?_⟩
  cases made with
  | error e => rfl
  | ok _ =>
  refine ⟨⟨rfl, rfl⟩, fun downloaded _ => ?_⟩
  cases downloaded with
  | error e => rfl
  | ok _ =>
  refine ⟨rfl, fun checksum _ => ?_⟩
  cases checksum with
  | error e => rfl
  | ok checksum =>
  refine ⟨rfl, fun size _ => ?_⟩
  cases size with
  | error e => rfl
  | ok size =>
  refine ⟨⟨rfl, rfl⟩, fun existing _ => ?_⟩
  cases existing with
  | error e => rfl
  | ok existing =>
  cases existing with
  | some assetId => exact linkExisting_follows rfl
  | none => exact storeFile_follows rfl

theorem recoverFile_follows {job : ImportJob} {r : Except ImportError Verdict}
    (h : FileBody x r g) :
    importStages.Follows (Import.recoverFile x job r) (WorkerEnd x) g := by
  cases r with
  | ok verdict =>
    obtain ⟨rfl, l, status, assetId, rfl⟩ := h
    exact .inr (.inr ⟨l, status, assetId, rfl, rfl⟩)
  | error e =>
    obtain rfl : g = .failed x := h
    have hfinish : importStages.Follows (do
        Import.finishItem job.id .failedFiles
        pure .success : ImportProg Verdict) (WorkerEnd x) (.failed x) := by
      refine follows_seq _ (finishItem_follows (x := x) (.inl rfl) job.id .failedFiles) ?_
      rintro _ _ rfl
      exact .inr (.inl rfl)
    cases e with
    | rateLimit ms => exact ⟨⟨rfl, .inr rfl⟩, fun _ _ => ⟨trivial, fun _ _ => .inr (.inl rfl)⟩⟩
    | other text => exact ⟨⟨rfl, .inl rfl⟩, fun _ _ => hfinish⟩
    | assetChecksumConstraint text => exact ⟨⟨rfl, .inl rfl⟩, fun _ _ => hfinish⟩

theorem handleImportFile_follows (x : ItemId) :
    importStages.Follows (Import.handleImportFile x) (WorkerEnd x) (.starting x) := by
  refine ⟨rfl, fun r _ => ?_⟩
  cases r with
  | none => exact .inl rfl
  | some item =>
    change importStages.Follows (if item.status ≠ .pending then _ else _) _
      (if item.status = .pending then _ else _)
    by_cases hpending : item.status = .pending
    · rw [if_pos hpending, if_neg (not_not.mpr hpending)]
      refine ⟨rfl, fun r _ => ?_⟩
      cases r with
      | none => exact .inl rfl
      | some job =>
        change importStages.Follows (if job.status = .cancelled then _ else _) _
          (if job.status = .cancelled then _ else _)
        by_cases hcancelled : job.status = .cancelled
        · rw [if_pos hcancelled, if_pos hcancelled]
          exact .inl rfl
        · rw [if_neg hcancelled, if_neg hcancelled]
          refine follows_seq _ importFile_follows fun outcome g hbody => ?_
          refine follows_seq _ (recoverFile_follows hbody) fun verdict g hpost => ?_
          have hremove : importStages.permits g (.removeFile (stagingPath x)) := by
            rcases hpost with rfl | rfl | ⟨l, status, assetId, rfl, -⟩
            · rfl
            · rfl
            · rfl
          refine ⟨hremove, fun _ _ => ?_⟩
          rcases hpost with rfl | rfl | ⟨l, status, assetId, rfl, hverdict⟩
          · exact .inl rfl
          · exact .inr (.inl rfl)
          · exact .inr (.inr ⟨l, status, assetId, rfl, hverdict⟩)
    · rw [if_neg hpending, if_pos hpending]
      exact .inl rfl

/-! Uploads. -/

/-- The end of an upload, answered or not. -/
def UploadBody (r : Except IngestError UploadResult) (g : Stage) : Prop :=
  match r with
  | .ok result => UploadEnd result g
  | .error _ => g = .idle ∨ ∃ l, g = .linking l none

theorem storeUpload_follows {event : EventRow} {eventId : String} {file : StagedUpload}
    {used : Option ℕ} (hl : l = ⟨eventId, event.orgId, file.checksum, file.size,
      .upload file.stagingPath⟩) :
    stages.Follows (storeUpload event eventId file).run UploadBody (.unseen l used) := by
  have hpath : file.stagingPath = l.path := by rw [hl, Load.path]
  have horigin : l.origin = .upload l.path := by rw [← hpath, hl]
  have hfailed : l.failed = .idle := by rw [hl, Load.failed]
  refine ⟨trivial, fun id _ => ⟨⟨hpath, ?_⟩, fun stored _ => ?_⟩⟩
  · rw [hl]
    exact ⟨_, (extension_extname _).toLowerCase, rfl⟩
  cases stored with
  | error e => exact .inl hfailed
  | ok _ =>
    refine ⟨⟨horigin, ?_⟩, fun created _ => ?_⟩
    · rw [hl]
      exact ⟨rfl, rfl, rfl, rfl, rfl, rfl⟩
    cases created with
    | ok _ =>
      refine ⟨hpath, fun _ _ => ⟨trivial, fun queued _ => ?_⟩⟩
      cases queued with
      | error e => exact .inl hfailed
      | ok _ => exact ⟨l, _, rfl⟩
    | error e =>
      cases e with
      | rateLimit ms => exact .inl hfailed
      | other text => exact .inl hfailed
      | assetChecksumConstraint text =>
        refine ⟨rfl, fun _ _ => ⟨hpath, fun _ _ => ⟨?_, fun winner _ => ?_⟩⟩⟩
        · rw [hl]
          exact ⟨rfl, rfl⟩
        cases winner with
        | error e => exact .inl hfailed
        | ok winner =>
          cases winner with
          | none => exact .inr ⟨l, rfl⟩
          | some winner => exact ⟨l, rfl⟩

theorem uploadAsset_follows (eventId : String) (file : StagedUpload) :
    stages.Follows (uploadAsset eventId file).run UploadBody (.asked eventId file) := by
  refine ⟨rfl, fun event _ => ?_⟩
  cases event with
  | none => exact ⟨rfl, fun _ _ => .inl rfl⟩
  | some event =>
    refine ⟨⟨rfl, rfl⟩, fun existing _ => ?_⟩
    cases existing with
    | error e => exact .inl rfl
    | ok existing =>
    cases existing with
    | some existing => exact ⟨rfl, fun _ _ => ⟨_, rfl⟩⟩
    | none =>
      refine ⟨rfl, fun org _ => ?_⟩
      cases org with
      | none => exact ⟨rfl, fun _ _ => .inl rfl⟩
      | some org =>
        refine ⟨rfl, fun used _ => ⟨rfl, fun count _ => ?_⟩⟩
        change stages.Follows (ExceptT.run ((liftM (ExceptT.run (if used + file.size ≤
          (limitsFor org).storageBytes then _ else _ : Attempt Unit)) :
            Attempt (Except IngestError Unit)) >>= _)) _
          (if used + file.size ≤ (limitsFor org).storageBytes then _ else _)
        by_cases hfits : used + file.size ≤ (limitsFor org).storageBytes
        · rw [if_pos hfits, if_pos hfits]
          exact storeUpload_follows rfl
        · rw [if_neg hfits, if_neg hfits]
          exact ⟨rfl, fun _ _ => .inl rfl⟩

/-! Everything else. -/

theorem follows_idle {α : Type} {p : IngestProg α} (h : p.Avoids (fun o => o.inserts = true)) :
    stages.Follows p (fun _ g => g = .idle) .idle := by
  induction p with
  | done value => rfl
  | perform o next ih =>
    obtain ⟨hinserts, hnext⟩ := h
    exact ⟨Bool.eq_false_of_not_eq_true hinserts, fun r _ => ih r (hnext r)⟩

theorem createEvent_follows (orgId : String) (dto : CreateEvent) :
    stages.Follows (createEvent orgId dto).run (fun _ _ => True) (.planning orgId none) := by
  refine ⟨rfl, fun org _ => ?_⟩
  cases org with
  | none => trivial
  | some org =>
    refine ⟨trivial, fun used _ => ⟨rfl, fun count _ => ?_⟩⟩
    change stages.Follows (ExceptT.run ((if count < (limitsFor org).events then _ else _ :
      Attempt Unit) >>= _)) _ (if count < (limitsFor org).events then _ else _)
    by_cases hfree : count < (limitsFor org).events
    · rw [if_pos hfree, if_pos hfree]
      refine ⟨trivial, fun taken _ => ?_⟩
      change stages.Follows (ExceptT.run (if taken ≠ none then _ else _)) _ _
      split
      · trivial
      · refine ⟨rfl, fun created _ => ?_⟩
        cases created <;> trivial
    · rw [if_neg hfree, if_neg hfree]
      trivial

/-- Statements of the listing of a folder, and of a cancellation. -/
def lists : ImportOp → Bool
  | .getJob _ | .updateJob _ _ | .getExistingByRemoteIds _ _ _ | .insertItems _
  | .repointItem _ _ _ | .pendingItemIds _ | .queueImportFiles _ | .rateLimitQueue _
  | .requireAccount _ _ | .getFreshAccessToken _ | .listFilesPage _ _ _ => true
  | _ => false

/-- Statements that take an event or assets away. -/
def IngestOp.takesAway : IngestOp → Bool
  | .getEvent _ | .hardDelete _ _ | .softDeleteMany _ _ | .queueCleanup _ => true
  | _ => false

/-- Statements of the storage cleanup. -/
def IngestOp.sweeps : IngestOp → Bool
  | .imports (.deleteKeys _) | .listObjects _ _ => true
  | _ => false

section Avoids

variable {bad : IngestOp → Prop}

theorem deleteBatches_avoids (hbad : ∀ o, o.sweeps = true → ¬ bad o) (n : ℕ) (keys : List String) :
    (deleteBatches n keys).run.Avoids bad := by
  induction n generalizing keys with
  | zero => trivial
  | succ n ih =>
    rw [deleteBatches]
    split
    · trivial
    · refine ⟨hbad _ rfl, fun r => ?_⟩
      cases r with
      | error e => trivial
      | ok _ => exact ih _

theorem deletePrefix_avoids (hbad : ∀ o, o.sweeps = true → ¬ bad o) (pfx : String) (n : ℕ)
    (cursor : Option String) : (deletePrefix pfx n cursor).run.Avoids bad := by
  induction n generalizing cursor with
  | zero => trivial
  | succ n ih =>
    refine ⟨hbad _ rfl, fun r => ?_⟩
    cases r with
    | error e => trivial
    | ok list =>
      refine Prog.avoids_attempt (deleteBatches_avoids hbad list.rows.length list.rows) fun _ => ?_
      cases list.next with
      | none => trivial
      | some last => exact ih (some last)

theorem handleCleanup_avoids (hbad : ∀ o, o.sweeps = true → ¬ bad o) (fuel : ℕ) (job : Cleanup) :
    (handleCleanup fuel job).run.Avoids bad := by
  cases job with
  | cleanupKeys keys =>
    change (handleCleanupKeys keys).run.Avoids bad
    rw [handleCleanupKeys]
    split
    · trivial
    · exact Prog.avoids_attempt (deleteBatches_avoids hbad keys.length keys) fun _ => trivial
  | cleanupPrefix pfx =>
    exact Prog.avoids_attempt (deletePrefix_avoids hbad pfx fuel none) fun _ => trivial

theorem removeEvent_avoids (hbad : ∀ o, o.takesAway = true → ¬ bad o)
    (orgId eventId confirmation : String) :
    (removeEvent orgId eventId confirmation).run.Avoids bad := by
  refine ⟨hbad _ rfl, fun event => ?_⟩
  cases event with
  | none => trivial
  | some event =>
    change Prog.Avoids _ (ExceptT.run ((if event.orgId ≠ orgId then _ else _ :
      Attempt EventRow) >>= _))
    split
    · trivial
    · change Prog.Avoids _ (ExceptT.run (if confirmation ≠ event.slug then _ else _))
      split
      · trivial
      · exact ⟨hbad _ rfl, fun _ => ⟨hbad _ rfl, fun _ => trivial⟩⟩

theorem deleteMany_avoids (hbad : ∀ o, o.takesAway = true → ¬ bad o) (eventId : String)
    (ids : List String) : (deleteMany eventId ids).Avoids bad := by
  have hrest : ∀ deleted : List AssetRow, (if deleted = [] then pure 0 else do
      call (.queueCleanup (.cleanupKeys (deleted.map AssetRow.storageKey)))
      pure deleted.length : IngestProg ℕ).Avoids bad := by
    intro deleted
    split
    · trivial
    · exact ⟨hbad _ rfl, fun _ => trivial⟩
  rw [deleteMany]
  split
  · exact hrest []
  · exact ⟨hbad _ rfl, hrest⟩

end Avoids

/-- Operations of the import that bring something in. -/
def brings (o : ImportOp) : Prop := (IngestOp.imports o).inserts = true

section ListingAvoids

variable {bad : ImportOp → Prop}

theorem lists_of_pages {o : ImportOp} (ho : o.pages = true) : lists o = true := by
  cases o <;> first | rfl | cases ho

theorem fanOut_avoids (hbad : ∀ o, lists o = true → ¬ bad o) (j : Import.JobId)
    (listed skipped : ℕ) : (Import.fanOut j listed skipped).run.Avoids bad := by
  refine ⟨hbad _ rfl, fun pending => ?_⟩
  change Prog.Avoids _ (ExceptT.run (if pending = [] then _ else _))
  split
  · exact ⟨hbad _ rfl, fun _ => trivial⟩
  · refine ⟨hbad _ rfl, fun _ => ⟨hbad _ rfl, fun queued => ?_⟩⟩
    cases queued <;> trivial

theorem handleImportFolder_avoids (hbad : ∀ o, lists o = true → ¬ bad o) (fuel : ℕ)
    (j : Import.JobId) : (Import.handleImportFolder fuel j).Avoids bad := by
  refine ⟨hbad _ rfl, fun job => ?_⟩
  cases job with
  | none => trivial
  | some job =>
    change Prog.Avoids _ (if job.status = .cancelled then _ else _)
    split
    · trivial
    · refine Prog.avoids_bind ?_ fun outcome => ?_
      · refine Prog.avoids_attempt
          (Import.listPages_avoids (fun o ho => hbad o (lists_of_pages ho)) job fuel []
            job.folderRemoteId none 0 0) ?_
        rintro (_ | ⟨listed, skipped⟩)
        · trivial
        · exact fanOut_avoids hbad j listed skipped
      · cases outcome with
        | ok verdict => trivial
        | error e => cases e <;> exact ⟨hbad _ rfl, fun _ => trivial⟩

theorem cancel_avoids (hbad : ∀ o, lists o = true → ¬ bad o) (eventId : String)
    (j : Import.JobId) : (Import.cancel eventId j).Avoids bad := by
  refine ⟨hbad _ rfl, fun r => ?_⟩
  simp only [Prog.bind_done]
  cases r.filter (fun job => job.eventId = eventId) with
  | none => trivial
  | some job =>
    change Prog.Avoids _ (if _ then _ else _)
    split
    · trivial
    · exact ⟨hbad _ rfl, fun _ => trivial⟩

end ListingAvoids

theorem lists_not_brings (o : ImportOp) (ho : lists o = true) : ¬ brings o := by
  intro hbrings
  cases o <;> first | exact absurd ho Bool.false_ne_true | exact absurd hbrings Bool.false_ne_true

theorem takesAway_not_inserts (o : IngestOp) (ho : o.takesAway = true) : ¬ o.inserts = true := by
  intro hinserts
  cases o <;> first | exact absurd ho Bool.false_ne_true | exact absurd hinserts Bool.false_ne_true

theorem sweeps_not_inserts (o : IngestOp) (ho : o.sweeps = true) : ¬ o.inserts = true := by
  intro hinserts
  cases o with
  | imports o =>
    cases o <;>
      first | exact absurd ho Bool.false_ne_true | exact absurd hinserts Bool.false_ne_true
  | _ => first | exact absurd ho Bool.false_ne_true | exact absurd hinserts Bool.false_ne_true

theorem createImport_avoids (job : Import.NewJob) : (Import.createImport job).Avoids brings := by
  refine ⟨Bool.false_ne_true, fun orgId => ?_⟩
  cases orgId with
  | error e => trivial
  | ok orgId =>
  refine ⟨Bool.false_ne_true, fun account => ?_⟩
  cases account with
  | error e => trivial
  | ok account => exact ⟨Bool.false_ne_true, fun _ => ⟨Bool.false_ne_true, fun _ => trivial⟩⟩

theorem follows_brings {α : Type} {p : ImportProg α} (h : p.Avoids brings) :
    importStages.Follows p (fun _ g => g = .idle) .idle := by
  induction p with
  | done value => rfl
  | perform o next ih =>
    obtain ⟨hbrings, hnext⟩ := h
    exact ⟨Bool.eq_false_of_not_eq_true hbrings, fun r _ => ih r (hnext r)⟩

theorem inSystem_follows {α : Type} {p : ImportProg α} {Q : α → Stage → Prop}
    (h : importStages.Follows p Q g) : stages.Follows (inSystem p) Q g :=
  follows_embed stages (fun _ _ => rfl) h

theorem imports_follows {c : ImportCall} (fuel : ℕ) {Q : Verdict → Stage → Prop}
    (h : importStages.Follows (c.prog fuel) Q g) :
    stages.Follows ((IngestCall.imports c).prog fuel)
      (fun reply g => ∃ verdict, reply = .imports verdict ∧ Q verdict g) g :=
  follows_seq stages (inSystem_follows h) fun verdict _ hg => ⟨verdict, rfl, hg⟩

theorem replying_follows {α : Type} {reply : α → IngestReply} {p : Attempt α}
    {Q : IngestReply → Stage → Prop}
    (h : stages.Follows p.run (fun r g => match r with
      | .ok a => Q (reply a) g
      | .error e => Q (.refused e) g) g) : stages.Follows (replying reply p) Q g := by
  refine follows_seq stages h fun r g hr => ?_
  cases r <;> exact hr

theorem call_follows (fuel : ℕ) (c : IngestCall) : stages.Follows (c.prog fuel) c.Post c.first := by
  cases c with
  | imports c =>
    cases c with
    | importFile x => exact imports_follows fuel (handleImportFile_follows x)
    | importFolder j =>
      refine follows_mono _ ?_ _ _
        (imports_follows fuel (follows_brings (handleImportFolder_avoids lists_not_brings fuel j)))
      exact fun _ _ h => ⟨h.choose, h.choose_spec.1⟩
    | createImport job =>
      refine follows_mono _ ?_ _ _ (imports_follows fuel (follows_brings (createImport_avoids job)))
      exact fun _ _ h => ⟨h.choose, h.choose_spec.1⟩
    | cancel eventId j =>
      refine follows_mono _ ?_ _ _
        (imports_follows fuel (follows_brings (cancel_avoids lists_not_brings eventId j)))
      exact fun _ _ h => ⟨h.choose, h.choose_spec.1⟩
  | uploadAsset eventId file =>
    refine replying_follows (follows_mono _ ?_ _ _ (uploadAsset_follows eventId file))
    intro r g hr
    cases r with
    | ok result => exact .inr ⟨result, rfl, hr⟩
    | error e => exact .inl ⟨e, rfl, hr⟩
  | createEvent orgId dto =>
    refine replying_follows (follows_mono _ ?_ _ _ (createEvent_follows orgId dto))
    intro r g _
    cases r <;> trivial
  | removeEvent orgId eventId confirmation =>
    have hidle := follows_idle (removeEvent_avoids takesAway_not_inserts orgId eventId confirmation)
    refine replying_follows (follows_mono _ ?_ _ _ hidle)
    intro r g _
    cases r <;> trivial
  | deleteMany eventId ids =>
    exact follows_seq _ (follows_idle (deleteMany_avoids takesAway_not_inserts eventId ids)) fun _ _
      _ => trivial
  | cleanup job =>
    have hidle := follows_idle (handleCleanup_avoids sweeps_not_inserts fuel job)
    refine replying_follows (follows_mono _ ?_ _ _ hidle)
    intro r g _
    cases r <;> trivial

end Follows

end EventLens.Ingest
