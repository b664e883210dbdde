import EventLens.ImportService
import Mathlib.Data.List.Perm.Basic

/-!
The stages an import call goes through. A stage is what the events of a call
so far commit it to: a listing that has captured its pending items owes their
queueing, a worker that has marked its item owes the count. Every handler
performs only what its stage permits, and returns in a stage that fits its
verdict.
-/

namespace EventLens.Import

open Programs Contract

/-- What a listing has gathered: the job as it read it, the media files of
its pages, the rows it found for the current page and the rows as it left
them. -/
structure Progress where
  job : ImportJob
  named : List RemoteFile := []
  known : List ImportItem := []
  settled : List ImportItem := []

inductive Stage
  | opening (j : JobId)
  | listing (j : JobId) (p : Progress)
  | captured (j : JobId) (p : Progress) (pending : List ItemId)
  | promised (j : JobId) (pending : List ItemId)
  | listed (j : JobId)
  | broken (j : JobId)
  | starting (x : ItemId)
  | chosen (x : ItemId) (j : JobId)
  | admitted (x : ItemId) (j : JobId)
  | downloading (x : ItemId) (j : JobId)
  | backed (x : ItemId)
  | finished (x : ItemId) (j : JobId) (status : ImportItemStatus)
  | counted (x : ItemId) (j : JobId)
  | emptied (x : ItemId) (j : JobId)
  | closing (x : ItemId) (j : JobId)
  | ordering
  | created (j : JobId)
  | stopping (j : JobId)
  | over

/-- The stage a call starts in. -/
def ImportCall.first : ImportCall → Stage
  | .importFolder j => .opening j
  | .importFile x => .starting x
  | .createImport _ => .ordering
  | .cancel _ j => .stopping j

def Progress.find (p : Progress) (x : ItemId) : Option ImportItem :=
  findRow ImportItem.id x p.known

/-- A row of the page has been re-pointed. -/
def Progress.repointed (p : Progress) (x : ItemId) (status : ImportItemStatus) : Progress :=
  { p with settled := p.settled ++ ((p.find x).map (fun i => { i with status := status })).toList }

/-- The stage after an event. -/
def Stage.note : Stage → ImportEvent → Stage
  | .opening j, ⟨.getJob _, r⟩ =>
    match (r : Option ImportJob) with
    | some job => if job.status = .cancelled then .over else .listing j { job := job }
    | none => .over
  | .listing j p, ⟨.listFilesPage _ _ _, r⟩ =>
    match (r : Except ImportError RemoteListingPage) with
    | .ok page => .listing j { p with named := p.named ++ mediaOf page }
    | .error _ => .listing j p
  | .listing j p, ⟨.getExistingByRemoteIds _ _ _, rows⟩ => .listing j { p with known := rows }
  | .listing j p, ⟨.repointItem x _ dto, _⟩ => .listing j (p.repointed x dto.status)
  | .listing j p, ⟨.insertItems _, r⟩ =>
    match (r : Except ImportError (List ImportItem)) with
    | .ok rows => .listing j { p with settled := p.settled ++ rows }
    | .error _ => .listing j p
  | .listing j p, ⟨.pendingItemIds _, ids⟩ => .captured j p ids
  | .listing j _, ⟨.updateJob _ _, _⟩ => .broken j
  | .captured j _ ids, ⟨.updateJob _ _, _⟩ => if ids = [] then .listed j else .promised j ids
  | .promised j ids, ⟨.queueImportFiles _, r⟩ =>
    match (r : Except String Unit) with
    | .ok _ => .listed j
    | .error _ => .promised j ids
  | .promised j _, ⟨.updateJob _ _, _⟩ => .broken j
  | .starting x, ⟨.getItem _, r⟩ =>
    match (r : Option ImportItem) with
    | some item => if item.status = .pending then .chosen x item.importJobId else .over
    | none => .over
  | .chosen x j, ⟨.getJob _, r⟩ =>
    match (r : Option ImportJob) with
    | some job => if job.status = .cancelled then .over else .admitted x j
    | none => .over
  | .admitted x j, ⟨.markItem _ _, _⟩ => .downloading x j
  | .downloading x j, ⟨.markItem _ dto, _⟩ =>
    if dto.status = .pending then .backed x else .finished x j dto.status
  | .finished x j _, ⟨.incrementCounter _ _, _⟩ => .counted x j
  | .counted x j, ⟨.countRemaining _, n⟩ => if (n : ℕ) = 0 then .emptied x j else .over
  | .emptied x j, ⟨.getJob _, r⟩ =>
    if (r : Option ImportJob).any (fun job => job.status = .importing) then .closing x j else .over
  | .closing _ _, ⟨.updateJob _ _, _⟩ => .over
  | .ordering, ⟨.createJob _, j⟩ => .created j
  | .created _, ⟨.queueImportFolder _, _⟩ => .over
  | s, _ => s

section Stages

variable {j k : JobId} {x y : ItemId}

theorem Stage.note_opening (job : ImportJob) : (Stage.opening j).note ⟨.getJob k, some job⟩ =
    if job.status = .cancelled then .over else .listing j { job := job } :=
  rfl

theorem Stage.note_captured (p : Progress) (ids : List ItemId) (dto : JobChange) (r : Unit) :
    (Stage.captured j p ids).note ⟨.updateJob k dto, r⟩ =
      if ids = [] then .listed j else .promised j ids :=
  rfl

theorem Stage.note_starting (item : ImportItem) :
    (Stage.starting x).note ⟨.getItem y, some item⟩ =
      if item.status = .pending then .chosen x item.importJobId else .over :=
  rfl

theorem Stage.note_chosen (job : ImportJob) : (Stage.chosen x j).note ⟨.getJob k, some job⟩ =
    if job.status = .cancelled then .over else .admitted x j :=
  rfl

theorem Stage.note_downloading (dto : ItemChange) (r : Unit) :
    (Stage.downloading x j).note ⟨.markItem y dto, r⟩ =
      if dto.status = .pending then .backed x else .finished x j dto.status :=
  rfl

end Stages

/-- Operations that neither touch the tables and the queue nor tell a listing
about its folder. -/
def ImportOp.outside : ImportOp → Bool
  | .queueAssetProcess _ | .rateLimitQueue _ | .requireEvent _ | .requireAccount _ _
  | .getFreshAccessToken _ | .makeStagingFolder | .downloadToFile _ _ _ | .hashFile _
  | .fileSize _ | .findByChecksum _ _ | .randomUUID | .putFile _ _ _ | .createAsset _
  | .deleteKeys _ | .removeFile _ => true
  | _ => false

/-- What is known about the remote folder of a job: the pages it may answer
and the files its listing names once it is complete. -/
structure Remote where
  pages : JobId → String → Option String → RemoteListingPage → Prop
  listing : ImportJob → Option (List RemoteFile)

/-- The files named so far begin the listing. -/
def Progress.Within (V : Remote) (p : Progress) : Prop :=
  ∀ files, V.listing p.job = some files → p.named <+: files

/-- Every named file has a row, and the listing is complete. -/
def Progress.Complete (V : Remote) (p : Progress) : Prop :=
  (p.settled.map (fun i => i.remoteId)).Perm (p.named.map (fun f => f.id)) ∧
    ∀ files, V.listing p.job = some files → p.named = files

/-- The rows left as skipped. -/
def Progress.skips (p : Progress) : ℕ := p.settled.countP (fun i => i.status = .skippedDuplicate)

/-- A row the listing may re-point: found for the current page, for a file it
has named and, when every file is named once, has not dealt with yet. -/
def Progress.MayRepoint (p : Progress) (x : ItemId) : Prop :=
  ∃ i, p.find x = some i ∧
    i.remoteId ∈ p.named.map (fun f => f.id) ∧
    ((p.named.map (fun f => f.id)).Nodup → i.remoteId ∉ p.settled.map (fun i => i.remoteId))

/-- The operations a stage permits. -/
def Stage.Permits (V : Remote) (s : Stage) (o : ImportOp) : Prop :=
  o.outside ∨
    match s, o with
    | .opening j, .getJob k => k = j
    | .listing _ _, .listFilesPage _ _ _ => True
    | .listing _ p, .getExistingByRemoteIds eventId provider _ =>
      eventId = p.job.eventId ∧ provider = p.job.provider
    | .listing j p, .repointItem x k dto =>
      k = j ∧ (dto.status = .pending ∨ dto.status = .skippedDuplicate) ∧ p.Within V ∧
        p.MayRepoint x
    | .listing j p, .insertItems rows =>
      p.Within V ∧ ∀ n ∈ rows, n.importJobId = j ∧ n.eventId = p.job.eventId ∧
        n.provider = p.job.provider ∧ n.remoteId ∈ p.named.map (fun f => f.id)
    | .listing j p, .pendingItemIds k => k = j ∧ p.Complete V
    | .listing j _, .updateJob k dto => k = j ∧ dto.status = .failed ∧ dto.totals = none
    | .captured j p ids, .updateJob k dto =>
      k = j ∧ dto.totals = some (p.settled.length, p.skips) ∧
        dto.status = (if ids = [] then .done else .importing)
    | .promised _ ids, .queueImportFiles ks => ks = ids
    | .promised j _, .updateJob k dto => k = j ∧ dto.status = .failed ∧ dto.totals = none
    | .starting x, .getItem y => y = x
    | .chosen _ j, .getJob k => k = j
    | .admitted x _, .markItem y dto => y = x ∧ dto.status = .downloading
    | .downloading x _, .markItem y dto => y = x ∧ dto.status ≠ .downloading
    | .finished _ j status, .incrementCounter k counter =>
      k = j ∧ status.counter = some counter
    | .counted _ j, .countRemaining k => k = j
    | .emptied _ j, .getJob k => k = j
    | .closing _ j, .updateJob k dto => k = j ∧ dto.status = .done ∧ dto.totals = none
    | .ordering, .createJob _ => True
    | .created j, .queueImportFolder k => k = j
    | .stopping j, .getJob k => k = j
    | .stopping j, .updateJob k dto => k = j ∧ dto.status = .cancelled ∧ dto.totals = none
    | _, _ => False

/-- What a call counts on in an answer: rows are those asked for, and a page
is one the remote folder may answer. -/
def Stage.Expects (V : Remote) (s : Stage) : ImportEvent → Prop
  | ⟨.getJob k, r⟩ => ∀ job, (r : Option ImportJob) = some job → job.id = k
  | ⟨.getExistingByRemoteIds _ _ _, r⟩ =>
    ((r : List ImportItem).map (fun i => i.id)).Nodup
  | ⟨.insertItems rows, r⟩ =>
    ∀ out, (r : Except ImportError (List ImportItem)) = .ok out →
      out.map (fun i => i.remoteId) = rows.map (fun n => n.remoteId) ∧
        ∀ i ∈ out, i.status = .pending
  | ⟨.listFilesPage _ folderId pageToken, r⟩ =>
    ∀ page j p, (r : Except ImportError RemoteListingPage) = .ok page → s = .listing j p →
      V.pages j folderId pageToken page
  | _ => True

def stages (V : Remote) : Contract ImportOp ImportRes Stage where
  note := Stage.note
  expects := Stage.Expects V
  permits := Stage.Permits V

/-- The stages that fit the verdict of a call. -/
def ImportCall.Post : ImportCall → Verdict → Stage → Prop
  | _, .unended, _ => True
  | .importFolder j, .success, s => s = .listed j
  | .importFolder _, .skipped, s => s = .over
  | .importFolder j, .rateLimited, s => ∃ p, s = .listing j p
  | .importFolder j, .failed, s => s = .broken j
  | .importFile x, .rateLimited, s => s = .backed x
  | .importFile _, .success, s | .importFile _, .skipped, s => s = .over
  | .createImport _, .success, s => s = .over
  | .createImport _, .refused _, s => s = .ordering
  | .cancel _ j, .success, s | .cancel _ j, .refused _, s => s = .stopping j
  | _, _, _ => False

/-! Every handler keeps to its stages. -/

section Follows

variable {V : Remote} {Q : Verdict → Stage → Prop}

theorem note_outside {o : ImportOp} (ho : o.outside = true) (s : Stage) (r : ImportRes o) :
    s.note ⟨o, r⟩ = s := by
  cases o <;> first | (cases s <;> rfl) | cases ho

/-- An operation outside leaves the stage as it is. -/
theorem follows_outside {α : Type} {o : ImportOp} {next : ImportRes o → ImportProg α}
    {Q : α → Stage → Prop} {s : Stage} (ho : o.outside = true)
    (h : ∀ r, (stages V).Follows (next r) Q s) : (stages V).Follows (.perform o next) Q s := by
  refine ⟨.inl ho, fun r _ => ?_⟩
  change (stages V).Follows (next r) Q (s.note ⟨o, r⟩)
  rw [note_outside ho]
  exact h r

theorem finishItem_follows (x : ItemId) {j : JobId} {counter : Counter}
    (status : ImportItemStatus) (h : status.counter = some counter) :
    (stages V).Follows (finishItem j counter) (fun _ s => s = .over) (.finished x j status) := by
  refine ⟨.inr ⟨rfl, h⟩, fun _ _ => ⟨.inr rfl, fun n _ => ?_⟩⟩
  cases n with
  | succ n => rfl
  | zero =>
    refine ⟨.inr rfl, fun r _ => ?_⟩
    cases r with
    | none => rfl
    | some job =>
      change (stages V).Follows
        (if job.status = .importing then updateJob j { status := .done } else pure ()) _
        (if decide (job.status = .importing) = true then .closing x j else .over)
      by_cases hs : job.status = .importing
      · rw [if_pos hs, if_pos (decide_eq_true hs)]
        exact ⟨.inr ⟨rfl, rfl, rfl⟩, fun _ _ => rfl⟩
      · rw [if_neg hs, if_neg (mt of_decide_eq_true hs)]
        rfl

/-- How the body of the `try` of a worker may end: with the item marked and
counted, or with an error before that. -/
def FileBody (x : ItemId) (j : JobId) (r : Except ImportError Verdict) (s : Stage) : Prop :=
  match r with
  | .ok verdict => verdict = .success ∧ s = .over
  | .error _ => s = .downloading x j

theorem linkExisting_follows {x : ItemId} {job : ImportJob} {assetId : Option String} :
    (stages V).Follows (linkExisting x job assetId).run (FileBody x job.id)
      (.downloading x job.id) := by
  refine ⟨.inr ⟨rfl, by simp⟩, fun _ _ => ?_⟩
  refine (follows_lift _ _ _ _ _).mpr ?_
  refine follows_mono _ ?_ _ _ (finishItem_follows x .skippedDuplicate rfl)
  rintro _ _ rfl
  exact ⟨rfl, rfl⟩

theorem storeFile_follows {x : ItemId} {job : ImportJob} {item : ImportItem} {checksum : String}
    {size : ℕ} :
    (stages V).Follows (storeFile x job item checksum size).run (FileBody x job.id)
      (.downloading x job.id) := by
  refine follows_outside rfl fun assetId => follows_outside rfl fun stored => ?_
  cases stored with
  | error e => rfl
  | ok _ =>
    refine follows_outside rfl fun created => ?_
    cases created with
    | ok _ =>
      refine follows_outside rfl fun queued => ?_
      cases queued with
      | error e => rfl
      | ok _ =>
        refine ⟨.inr ⟨rfl, by simp⟩, fun _ _ => ?_⟩
        refine (follows_lift _ _ _ _ _).mpr ?_
        refine follows_mono _ ?_ _ _ (finishItem_follows x .done rfl)
        rintro _ _ rfl
        exact ⟨rfl, rfl⟩
    | error e =>
      cases e with
      | rateLimit ms => rfl
      | other text => rfl
      | assetChecksumConstraint text =>
        refine follows_outside rfl fun _ => follows_outside rfl fun winner => ?_
        cases winner with
        | error e => rfl
        | ok winner => exact linkExisting_follows

theorem importFile_follows {x : ItemId} {job : ImportJob} {item : ImportItem} :
    (stages V).Follows (importFile x job item).run (FileBody x job.id) (.admitted x job.id) := by
  refine ⟨.inr ⟨rfl, rfl⟩, fun _ _ => follows_outside rfl fun account => ?_⟩
  cases account with
  | error e => rfl
  | ok account =>
  refine follows_outside rfl fun accessToken => ?_
  cases accessToken with
  | error e => rfl
  | ok accessToken =>
  refine follows_outside rfl fun made => ?_
  cases made with
  | error e => rfl
  | ok _ =>
  refine follows_outside rfl fun downloaded => ?_
  cases downloaded with
  | error e => rfl
  | ok _ =>
  refine follows_outside rfl fun checksum => ?_
  cases checksum with
  | error e => rfl
  | ok checksum =>
  refine follows_outside rfl fun size => ?_
  cases size with
  | error e => rfl
  | ok size =>
  refine follows_outside rfl fun existing => ?_
  cases existing with
  | error e => rfl
  | ok existing =>
  cases existing with
  | some assetId => exact linkExisting_follows
  | none => exact storeFile_follows

theorem recoverFile_follows {x : ItemId} {job : ImportJob} {r : Except ImportError Verdict}
    {s : Stage} (h : FileBody x job.id r s) :
    (stages V).Follows (recoverFile x job r) ((ImportCall.importFile x).Post) s := by
  cases r with
  | ok verdict =>
    obtain ⟨rfl, rfl⟩ := h
    rfl
  | error e =>
    cases h
    cases e with
    | rateLimit ms => exact ⟨.inr ⟨rfl, by simp⟩, fun _ _ => follows_outside rfl fun _ => rfl⟩
    | other text =>
      refine ⟨.inr ⟨rfl, by simp⟩, fun _ _ => ?_⟩
      change (stages V).Follows (finishItem job.id .failedFiles >>= _) _ _
      refine follows_seq _ (finishItem_follows x .failed rfl) ?_
      rintro _ _ rfl
      rfl
    | assetChecksumConstraint text =>
      refine ⟨.inr ⟨rfl, by simp⟩, fun _ _ => ?_⟩
      change (stages V).Follows (finishItem job.id .failedFiles >>= _) _ _
      refine follows_seq _ (finishItem_follows x .failed rfl) ?_
      rintro _ _ rfl
      rfl

theorem handleImportFile_follows (x : ItemId) :
    (stages V).Follows (handleImportFile x) ((ImportCall.importFile x).Post) (.starting x) := by
  refine ⟨.inr rfl, fun r _ => ?_⟩
  cases r with
  | none => rfl
  | some item =>
    change (stages V).Follows (if item.status ≠ .pending then _ else _) _
      (if item.status = .pending then _ else _)
    by_cases hpending : item.status = .pending
    · rw [if_pos hpending, if_neg (not_not.mpr hpending)]
      refine ⟨.inr rfl, fun r hjob => ?_⟩
      cases r with
      | none => rfl
      | some job =>
        change (stages V).Follows (if job.status = .cancelled then _ else _) _
          (if job.status = .cancelled then _ else _)
        by_cases hcancelled : job.status = .cancelled
        · rw [if_pos hcancelled, if_pos hcancelled]
          rfl
        · rw [if_neg hcancelled, if_neg hcancelled, ← hjob job rfl]
          refine follows_seq _ importFile_follows fun outcome s hbody => ?_
          refine follows_seq _ (recoverFile_follows hbody) fun verdict s hpost => ?_
          exact follows_outside rfl fun _ => hpost
    · rw [if_neg hpending, if_pos hpending]
      rfl

theorem createImport_follows (job : NewJob) :
    (stages V).Follows (createImport job) ((ImportCall.createImport job).Post) .ordering := by
  refine follows_outside rfl fun orgId => ?_
  cases orgId with
  | error e => rfl
  | ok orgId =>
  refine follows_outside rfl fun account => ?_
  cases account with
  | error e => rfl
  | ok account => exact ⟨.inr trivial, fun j _ => ⟨.inr rfl, fun _ _ => rfl⟩⟩

theorem cancel_follows (eventId : String) (j : JobId) :
    (stages V).Follows (cancel eventId j) ((ImportCall.cancel eventId j).Post) (.stopping j) := by
  refine ⟨.inr rfl, fun r _ => ?_⟩
  simp only [Prog.bind_done]
  cases r.filter (fun job => job.eventId = eventId) with
  | none => rfl
  | some job =>
    change (stages V).Follows (if _ then _ else _) _ _
    split
    · rfl
    · exact ⟨.inr ⟨rfl, rfl, rfl⟩, fun _ _ => rfl⟩

/-! Listing. -/

/-- Where the pass over a page stands: the rows re-pointed so far, the rows to
insert and the files still to come make up the files named. -/
structure Sorting (V : Remote) (job : ImportJob) (p : Progress) (toInsert : List NewItem)
    (files : List RemoteFile) : Prop where
  job_eq : p.job = job
  nodup : (p.known.map (fun i => i.id)).Nodup
  within : p.Within V
  dealt : (p.settled.map (fun i => i.remoteId) ++
    (toInsert.map (fun n => n.remoteId) ++ files.map (fun f => f.id))).Perm
      (p.named.map (fun f => f.id))
  rows : ∀ n ∈ toInsert, n.importJobId = job.id ∧ n.eventId = job.eventId ∧
    n.provider = job.provider ∧ n.remoteId ∈ p.named.map (fun f => f.id)

namespace Sorting

variable {job : ImportJob} {p : Progress} {toInsert : List NewItem} {file : RemoteFile}
  {files : List RemoteFile}

theorem named (h : Sorting V job p toInsert (file :: files)) :
    file.id ∈ p.named.map (fun f => f.id) :=
  h.dealt.subset (by simp)

theorem insert (h : Sorting V job p toInsert (file :: files)) :
    Sorting V job p (toInsert ++ [newItem job file]) files where
  job_eq := h.job_eq
  nodup := h.nodup
  within := h.within
  dealt := by simpa [newItem] using h.dealt
  rows := by
    intro n hn
    rcases List.mem_append.mp hn with hn | hn
    · exact h.rows n hn
    · cases List.mem_singleton.mp hn
      exact ⟨rfl, rfl, rfl, h.named⟩

variable {known : ImportItem}

theorem find_known (h : Sorting V job p toInsert files)
    (hknown : byRemoteId p.known file.id = some known) : p.find known.id = some known :=
  findRow_of_mem h.nodup (List.mem_reverse.mp (List.mem_of_find?_eq_some hknown))

theorem remoteId_known (hknown : byRemoteId p.known file.id = some known) :
    known.remoteId = file.id := by
  simpa using List.find?_some hknown

theorem settled_repointed (h : Sorting V job p toInsert files)
    (hknown : byRemoteId p.known file.id = some known) (status : ImportItemStatus) :
    (p.repointed known.id status).settled = p.settled ++ [{ known with status := status }] := by
  simp [Progress.repointed, h.find_known hknown]

theorem repoint (h : Sorting V job p toInsert (file :: files))
    (hknown : byRemoteId p.known file.id = some known) (status : ImportItemStatus) :
    Sorting V job (p.repointed known.id status) toInsert files where
  job_eq := h.job_eq
  nodup := h.nodup
  within := h.within
  dealt := by
    rw [h.settled_repointed hknown, List.map_append, List.map_singleton, remoteId_known hknown,
      List.append_assoc]
    refine List.Perm.trans (List.Perm.append_left _ ?_) h.dealt
    rw [List.map_cons, List.singleton_append]
    exact List.perm_middle.symm
  rows := h.rows

theorem mayRepoint (h : Sorting V job p toInsert (file :: files))
    (hknown : byRemoteId p.known file.id = some known) : p.MayRepoint known.id := by
  refine ⟨known, h.find_known hknown, ?_, fun hnodup => ?_⟩
  · rw [remoteId_known hknown]
    exact h.named
  · have hall := h.dealt.nodup_iff.mpr hnodup
    rw [remoteId_known hknown]
    intro hmem
    exact (List.nodup_append.mp hall).2.2 _ hmem _ (by simp) rfl

end Sorting

/-- A pass over the files of a page leaves the listing where every file of the
page has been dealt with or is to be inserted. -/
theorem classify_follows {job : ImportJob} {files : List RemoteFile} {p : Progress}
    {toInsert : List NewItem} (skipped : ℕ) (h : Sorting V job p toInsert files) :
    (stages V).Follows (classify job p.known files toInsert skipped)
      (fun out s => ∃ p', s = .listing job.id p' ∧ Sorting V job p' out.1 [] ∧
        p'.named = p.named ∧ p'.skips + skipped = p.skips + out.2) (.listing job.id p) := by
  induction files generalizing p toInsert skipped with
  | nil => exact ⟨p, rfl, h, rfl, rfl⟩
  | cons file files ih =>
    cases hknown : byRemoteId p.known file.id with
    | none =>
      rw [classify, hknown]
      exact ih skipped h.insert
    | some known =>
      rw [classify, hknown]
      change (stages V).Follows (if unchanged known file then _ else _) _ _
      split
      · refine ⟨.inr ⟨rfl, .inr rfl, h.within, h.mayRepoint hknown⟩, fun _ _ => ?_⟩
        refine follows_mono _ ?_ _ _ (ih (skipped + 1)
          (h.repoint hknown .skippedDuplicate))
        rintro out s ⟨p', rfl, hsorting, hnamed, hskips⟩
        refine ⟨p', rfl, hsorting, hnamed, ?_⟩
        simp only [Progress.skips, h.settled_repointed hknown, List.countP_append] at hskips ⊢
        simp at hskips
        omega
      · refine ⟨.inr ⟨rfl, .inl rfl, h.within, h.mayRepoint hknown⟩, fun _ _ => ?_⟩
        refine follows_mono _ ?_ _ _ (ih skipped (h.repoint hknown .pending))
        rintro out s ⟨p', rfl, hsorting, hnamed, hskips⟩
        refine ⟨p', rfl, hsorting, hnamed, ?_⟩
        simp only [Progress.skips, h.settled_repointed hknown, List.countP_append] at hskips ⊢
        simp at hskips
        omega

/-- Where a listing stands between two pages. -/
structure Between (job : ImportJob) (p : Progress) : Prop where
  job_eq : p.job = job
  dealt : (p.settled.map (fun i => i.remoteId)).Perm (p.named.map (fun f => f.id))

/-- How the body of the `try` of a listing may end before the listing is
complete. -/
def Listing (j : JobId) (Q : Progress → Prop) (s : Stage) : Prop := ∃ p, s = .listing j p ∧ Q p

theorem insertItems_follows {job : ImportJob} {p : Progress} {toInsert : List NewItem}
    (h : Sorting V job p toInsert []) :
    (stages V).Follows (insertItems toInsert).run
      (fun r s => match r with
        | .ok _ => Listing job.id (fun p' => Between job p' ∧ p'.named = p.named ∧
            p'.skips = p.skips) s
        | .error _ => Listing job.id (fun _ => True) s) (.listing job.id p) := by
  have hdealt := h.dealt
  rw [List.map_nil, List.append_nil] at hdealt
  by_cases hempty : toInsert = []
  · subst hempty
    exact ⟨p, rfl, ⟨h.job_eq, by simpa using hdealt⟩, rfl, rfl⟩
  · rw [insertItems, if_neg hempty]
    refine ⟨.inr ⟨h.within, fun n hn => ?_⟩, fun r hr => ?_⟩
    · rw [h.job_eq]
      exact h.rows n hn
    · cases r with
      | error e => exact ⟨p, rfl, trivial⟩
      | ok out =>
        obtain ⟨hids, hpending⟩ := hr out rfl
        have hskips : out.countP (fun i => i.status = .skippedDuplicate) = 0 :=
          List.countP_eq_zero.mpr fun i hi => by simp [hpending i hi]
        refine ⟨_, rfl, ⟨h.job_eq, ?_⟩, rfl, ?_⟩
        · rw [List.map_append, hids]
          exact hdealt
        · simp only [Progress.skips, List.countP_append, hskips, Nat.add_zero]

theorem upsertListingPage_follows {job : ImportJob} {files : List RemoteFile} {p : Progress}
    (hjob : p.job = job) (hwithin : p.Within V)
    (hdealt : (p.settled.map (fun i => i.remoteId) ++ files.map (fun f => f.id)).Perm
      (p.named.map (fun f => f.id))) :
    (stages V).Follows (upsertListingPage job files).run
      (fun r s => match r with
        | .ok (listed, skipped) => Listing job.id (fun p' => Between job p' ∧
            p'.named = p.named ∧ p'.skips = p.skips + skipped ∧ listed = files.length) s
        | .error _ => Listing job.id (fun _ => True) s) (.listing job.id p) := by
  subst hjob
  rw [upsertListingPage]
  by_cases hempty : files = []
  · subst hempty
    rw [if_pos rfl]
    exact ⟨p, rfl, ⟨rfl, by simpa using hdealt⟩, rfl, rfl, rfl⟩
  · rw [if_neg hempty]
    refine ⟨.inr ⟨rfl, rfl⟩, fun existing hnodup => ?_⟩
    have hsorting : Sorting V p.job { p with known := existing } [] files :=
      { job_eq := rfl, nodup := hnodup, within := hwithin, dealt := hdealt, rows := by simp }
    refine (follows_lift _ _ _ _ _).mpr (follows_mono _ ?_ _ _
      (classify_follows 0 hsorting))
    rintro ⟨toInsert, skipped⟩ s ⟨p₁, rfl, hsorting₁, hnamed₁, hskips₁⟩
    refine (follows_attempt _ _ _ _ _).mpr (follows_mono _ ?_ _ _ (insertItems_follows hsorting₁))
    rintro r s hr
    cases r with
    | error e => exact hr
    | ok out =>
      obtain ⟨p₂, rfl, hbetween, hnamed₂, hskips₂⟩ := hr
      refine ⟨p₂, rfl, hbetween, hnamed₂.trans hnamed₁, ?_, rfl⟩
      rw [hskips₂]
      exact hskips₁

/-- The files that the pages of a folder name, at most `fuel` pages of them. -/
def walk (remote : String → Option String → RemoteListingPage) (recursive : Bool) :
    ℕ → List String → String → Option String → Option (List RemoteFile)
  | 0, _, _, _ => none
  | fuel + 1, folderQueue, folderId, pageToken =>
    let page := remote folderId pageToken
    let folderQueue := if recursive then folderQueue ++ page.subfolderIds else folderQueue
    let rest := match truthyToken page.nextPageToken, folderQueue with
      | some token, queue => walk remote recursive fuel queue folderId (some token)
      | none, folder :: queue => walk remote recursive fuel queue folder none
      | none, [] => some []
    rest.map (fun files => mediaOf page ++ files)

/-- A folder whose listing is known answers the same pages at every attempt. -/
def Remote.Steady (V : Remote) (fuel : ℕ) : Prop :=
  ∀ job files, V.listing job = some files → ∃ remote,
    (∀ folderId pageToken page, V.pages job.id folderId pageToken page →
      page = remote folderId pageToken) ∧
    walk remote job.recursive fuel [] job.folderRemoteId none = some files

/-- The rest of a listing, from one page on. -/
def Ahead (V : Remote) (job : ImportJob) (p : Progress) (fuel : ℕ) (folderQueue : List String)
    (folderId : String) (pageToken : Option String) : Prop :=
  ∀ files, V.listing job = some files → ∃ remote rest,
    (∀ folderId pageToken page, V.pages job.id folderId pageToken page →
      page = remote folderId pageToken) ∧
    walk remote job.recursive fuel folderQueue folderId pageToken = some rest ∧
    files = p.named ++ rest

/-- What is ahead after a page: its next page, the next folder, or nothing. -/
def AheadOf (V : Remote) (job : ImportJob) (p : Progress) (fuel : ℕ) (folderId : String) :
    Option String → List String → Prop
  | some token, folderQueue => Ahead V job p fuel folderQueue folderId (some token)
  | none, folder :: rest => Ahead V job p fuel rest folder none
  | none, [] => ∀ files, V.listing job = some files → p.named = files

theorem ahead_page {job : ImportJob} {p q : Progress} {fuel : ℕ} {folderQueue : List String}
    {folderId : String} {pageToken : Option String} {page : RemoteListingPage}
    (h : Ahead V job p (fuel + 1) folderQueue folderId pageToken)
    (hpage : V.pages job.id folderId pageToken page) (hnamed : q.named = p.named ++ mediaOf page) :
    AheadOf V job q fuel folderId (truthyToken page.nextPageToken)
      (if job.recursive then folderQueue ++ page.subfolderIds else folderQueue) := by
  have hwalk : ∀ files, V.listing job = some files → ∃ remote rest,
      (∀ folderId pageToken page, V.pages job.id folderId pageToken page →
        page = remote folderId pageToken) ∧
      (match truthyToken page.nextPageToken,
          (if job.recursive then folderQueue ++ page.subfolderIds else folderQueue) with
        | some token, queue => walk remote job.recursive fuel queue folderId (some token)
        | none, folder :: queue => walk remote job.recursive fuel queue folder none
        | none, [] => some []) = some rest ∧ files = q.named ++ rest := by
    intro files hfiles
    obtain ⟨remote, rest, hpages, hwalk, rfl⟩ := h files hfiles
    obtain rfl := hpages _ _ _ hpage
    obtain ⟨rest', hrest', rfl⟩ := Option.map_eq_some_iff.mp hwalk
    exact ⟨remote, rest', hpages, hrest', by rw [hnamed, List.append_assoc]⟩
  generalize truthyToken page.nextPageToken = token at hwalk ⊢
  generalize (if job.recursive then folderQueue ++ page.subfolderIds else folderQueue) = queue
    at hwalk ⊢
  cases token with
  | some token => exact hwalk
  | none =>
    cases queue with
    | cons folder queue => exact hwalk
    | nil =>
      intro files hfiles
      obtain ⟨remote, rest, -, hrest, hfiles⟩ := hwalk files hfiles
      cases hrest
      simpa using hfiles.symm

theorem within_of_ahead {job : ImportJob} {p : Progress} {fuel : ℕ} {folderId : String}
    {token : Option String} {queue : List String} (hjob : p.job = job)
    (h : AheadOf V job p fuel folderId token queue) : p.Within V := by
  intro files hfiles
  rw [hjob] at hfiles
  cases token with
  | some token =>
    obtain ⟨_, rest, -, -, rfl⟩ := h files hfiles
    exact List.prefix_append _ _
  | none =>
    cases queue with
    | cons folder queue =>
      obtain ⟨_, rest, -, -, rfl⟩ := h files hfiles
      exact List.prefix_append _ _
    | nil =>
      have hsame : p.named = files := h files hfiles
      exact hsame ▸ List.prefix_rfl

/-- How the pages of a listing end: all listed, the fuel used up, or an error. -/
def Pages (V : Remote) (job : ImportJob) (r : Except ImportError (Option (ℕ × ℕ))) (s : Stage) :
    Prop :=
  match r with
  | .ok (some (listed, skipped)) => Listing job.id (fun p => p.Complete V ∧
      listed = p.settled.length ∧ skipped = p.skips) s
  | .ok none => True
  | .error _ => Listing job.id (fun _ => True) s

theorem listPages_follows {job : ImportJob} {fuel : ℕ} {folderQueue : List String}
    {folderId : String} {pageToken : Option String} {p : Progress} (hbetween : Between job p)
    (hahead : Ahead V job p fuel folderQueue folderId pageToken) :
    (stages V).Follows
      (listPages job fuel folderQueue folderId pageToken p.settled.length p.skips).run
      (Pages V job) (.listing job.id p) := by
  induction fuel generalizing folderQueue folderId pageToken p with
  | zero => trivial
  | succ fuel ih =>
    refine follows_outside rfl fun account => ?_
    cases account with
    | error e => exact ⟨p, rfl, trivial⟩
    | ok account =>
    refine follows_outside rfl fun accessToken => ?_
    cases accessToken with
    | error e => exact ⟨p, rfl, trivial⟩
    | ok accessToken =>
    refine ⟨.inr trivial, fun page hpage => ?_⟩
    cases page with
    | error e => exact ⟨p, rfl, trivial⟩
    | ok page =>
    have hpage : V.pages job.id folderId pageToken page := hpage page _ p rfl rfl
    have hnext := ahead_page (q := { p with named := p.named ++ mediaOf page }) hahead hpage rfl
    change (stages V).Follows (upsertListingPage job (mediaOf page) >>= _).run _
      (.listing job.id { p with named := p.named ++ mediaOf page })
    refine (follows_attempt _ _ _ _ _).mpr (follows_mono _ ?_ _ _
      (upsertListingPage_follows hbetween.job_eq (within_of_ahead hbetween.job_eq hnext) ?_))
    · rintro r s hr
      cases r with
      | error e => exact hr
      | ok outcome =>
        obtain ⟨p', rfl, hbetween', hnamed, hskips, hlisted⟩ := hr
        have hlength : p.settled.length + outcome.1 = p'.settled.length := by
          have h₁ := hbetween.dealt.length_eq
          have h₂ := hbetween'.dealt.length_eq
          simp only [List.length_map, hnamed, List.length_append] at h₁ h₂
          omega
        have hskips' : p.skips + outcome.2 = p'.skips := hskips.symm
        have hnext' := ahead_page (q := p') hahead hpage hnamed
        simp only [hlength, hskips']
        generalize truthyToken page.nextPageToken = token at hnext' ⊢
        generalize (if job.recursive then folderQueue ++ page.subfolderIds else folderQueue) = queue
          at hnext' ⊢
        cases token with
        | some token => exact ih hbetween' hnext'
        | none =>
          cases queue with
          | cons folder queue => exact ih hbetween' hnext'
          | nil =>
            refine ⟨p', rfl, ⟨hbetween'.dealt, ?_⟩, rfl, rfl⟩
            rw [hbetween'.job_eq]
            exact hnext'
    · rw [List.map_append]
      exact hbetween.dealt.append_right _

/-- How the body of the `try` of a listing may end. -/
def FolderBody (j : JobId) (r : Except ImportError Verdict) (s : Stage) : Prop :=
  match r with
  | .ok .success => s = .listed j
  | .ok .unended => True
  | .ok _ => False
  | .error (.rateLimit _) => ∃ p, s = .listing j p
  | .error _ => (∃ p, s = .listing j p) ∨ ∃ ids, s = .promised j ids

theorem folderBody_error {j : JobId} {p : Progress} (e : ImportError) :
    FolderBody j (.error e) (.listing j p) := by
  cases e with
  | rateLimit ms => exact ⟨p, rfl⟩
  | assetChecksumConstraint text => exact .inl ⟨p, rfl⟩
  | other text => exact .inl ⟨p, rfl⟩

theorem fanOut_follows {j : JobId} {p : Progress} (h : p.Complete V) :
    (stages V).Follows (fanOut j p.settled.length p.skips).run (FolderBody j) (.listing j p) := by
  refine ⟨.inr ⟨rfl, h⟩, fun ids _ => ?_⟩
  change (stages V).Follows (ExceptT.run (if ids = [] then _ else _)) _ (.captured j p ids)
  by_cases hids : ids = []
  · rw [if_pos hids]
    refine ⟨.inr ⟨rfl, rfl, (if_pos hids).symm⟩, fun _ _ => ?_⟩
    change FolderBody j _ (if ids = [] then _ else _)
    rw [if_pos hids]
    rfl
  · rw [if_neg hids]
    refine ⟨.inr ⟨rfl, rfl, (if_neg hids).symm⟩, fun _ _ => ?_⟩
    change (stages V).Follows (queueImportFiles ids >>= _).run _ (if ids = [] then _ else _)
    rw [if_neg hids]
    refine ⟨.inr rfl, fun r _ => ?_⟩
    cases r with
    | ok _ => rfl
    | error text => exact .inr ⟨ids, rfl⟩

theorem listFolder_follows {job : ImportJob} {fuel : ℕ} (hV : V.Steady fuel) :
    (stages V).Follows (listFolder job.id job fuel).run (FolderBody job.id)
      (.listing job.id { job := job }) := by
  have hahead : Ahead V job { job := job } fuel [] job.folderRemoteId none := by
    intro files hfiles
    obtain ⟨remote, hpages, hwalk⟩ := hV job files hfiles
    exact ⟨remote, files, hpages, hwalk, rfl⟩
  have hbetween : Between job { job := job } := { job_eq := rfl, dealt := List.Perm.refl _ }
  refine (follows_attempt _ _ _ _ _).mpr (follows_mono _ ?_ _ _
    (listPages_follows hbetween hahead))
  rintro r s hr
  cases r with
  | error e =>
    obtain ⟨p, rfl, -⟩ := hr
    exact folderBody_error e
  | ok out =>
    cases out with
    | none => trivial
    | some out =>
      obtain ⟨p, rfl, hcomplete, hlisted, hskipped⟩ := hr
      change (stages V).Follows (fanOut job.id out.1 out.2).run _ _
      rw [hlisted, hskipped]
      exact fanOut_follows hcomplete

theorem handleImportFolder_follows {fuel : ℕ} (hV : V.Steady fuel) (j : JobId) :
    (stages V).Follows (handleImportFolder fuel j) ((ImportCall.importFolder j).Post)
      (.opening j) := by
  refine ⟨.inr rfl, fun r hjob => ?_⟩
  cases r with
  | none => rfl
  | some job =>
    obtain rfl := hjob job rfl
    change (stages V).Follows (if job.status = .cancelled then _ else _) _
      (if job.status = .cancelled then _ else _)
    by_cases hcancelled : job.status = .cancelled
    · rw [if_pos hcancelled, if_pos hcancelled]
      rfl
    · rw [if_neg hcancelled, if_neg hcancelled]
      refine follows_seq _ (listFolder_follows hV) fun r s hr => ?_
      cases r with
      | ok verdict => cases verdict <;> first | exact hr | cases hr
      | error e =>
        cases e with
        | rateLimit ms => exact follows_outside rfl fun _ => hr
        | other text =>
          obtain ⟨p, rfl⟩ | ⟨ids, rfl⟩ := hr
          · exact ⟨.inr ⟨rfl, rfl, rfl⟩, fun _ _ => rfl⟩
          · exact ⟨.inr ⟨rfl, rfl, rfl⟩, fun _ _ => rfl⟩
        | assetChecksumConstraint text =>
          obtain ⟨p, rfl⟩ | ⟨ids, rfl⟩ := hr
          · exact ⟨.inr ⟨rfl, rfl, rfl⟩, fun _ _ => rfl⟩
          · exact ⟨.inr ⟨rfl, rfl, rfl⟩, fun _ _ => rfl⟩

/-- Every call keeps to its stages. -/
theorem prog_follows {fuel : ℕ} (hV : V.Steady fuel) (c : ImportCall) :
    (stages V).Follows (c.prog fuel) c.Post c.first := by
  cases c with
  | importFolder j => exact handleImportFolder_follows hV j
  | importFile x => exact handleImportFile_follows x
  | createImport job => exact createImport_follows job
  | cancel eventId j => exact cancel_follows eventId j

end Follows

end EventLens.Import
