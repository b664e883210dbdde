import EventLens.IngestStages
import EventLens.Observing

/-!
What a call has in its hands beside its stage: the staged file that is its own
until it removes it, the event that it has resolved for a new import, the keys
of the assets that it has deleted, the cleanup job that it runs. Only a call on
its way to an asset stages or stores files; objects are deleted by a call that
takes back its own, and by a cleanup job, which deletes those it is for.
-/

namespace EventLens.Ingest

open Programs Contract
open Import (ImportOp ImportRes ImportCall ImportProg ImportJob ImportItem ItemId Verdict
  stagingPath)

structure Hand where
  path : Option String := none
  asked : Option String := none
  removed : List String := []
  job : Option Cleanup := none
deriving DecidableEq, Repr

/-- The objects that the job deletes. -/
def Cleanup.Covers : Cleanup → String → Prop
  | .cleanupKeys keys, key => key ∈ keys
  | .cleanupPrefix pfx, key => pfx.toList <+: key.toList

namespace Hand

def note (h : Hand) : IngestEvent → Hand
  | ⟨.imports (.removeFile _), _⟩ => { h with path := none }
  | ⟨.imports (.requireEvent eventId), r⟩ =>
    match (r : Except Import.ImportError String) with
    | .ok _ => { h with asked := some eventId }
    | .error _ => h
  | ⟨.softDeleteMany _ _, rows⟩ =>
    { h with removed := (rows : List AssetRow).map AssetRow.storageKey }
  | _ => h

/-- Only the own file is staged or removed, a new import is of the event that
was resolved, and the objects of assets are left to a cleanup by the call that
has deleted these. -/
def Permits (h : Hand) : IngestOp → Prop
  | .imports (.downloadToFile _ _ path) => h.path = some path
  | .imports (.removeFile path) => h.path = some path
  | .imports (.createJob job) => h.asked = some job.eventId
  | .queueCleanup (.cleanupKeys keys) => keys = h.removed
  | _ => True

/-- Deletions of a cleanup job. -/
def Sweeps (h : Hand) : IngestOp → Prop
  | .imports (.deleteKeys keys) => ∃ job ∈ h.job, ∀ key ∈ keys, job.Covers key
  | _ => False

end Hand

/-- A listing has only keys under its prefix. -/
def Listed : IngestEvent → Prop
  | ⟨.listObjects pfx _, r⟩ =>
    ∀ list, (r : Except Import.ImportError (Keyset.Page String String)) = .ok list →
      ∀ key ∈ list.rows, pfx.toList <+: key.toList
  | _ => True

/-- Operations that stage, store or delete a file on the way to an asset. -/
def IngestOp.places : IngestOp → Bool
  | .imports (.downloadToFile _ _ _) | .imports (.putFile _ _ _) | .imports (.deleteKeys _) => true
  | _ => false

/-- Operations that not every call may perform. -/
def IngestOp.special : IngestOp → Bool
  | .imports (.removeFile _) | .imports (.createJob _) | .queueCleanup _ => true
  | o => o.places

abbrev HandNote := Stage × Hand

def hands : Contract IngestOp IngestRes HandNote where
  note g e := (g.1.note e, g.2.note e)
  expects _ e := Listed e
  permits g o := g.2.Permits o ∧ (o.places = false ∨ g.1 ≠ .idle ∨ g.2.Sweeps o)

abbrev importHands : Contract ImportOp ImportRes HandNote :=
  hands.within IngestOp.imports (fun _ r => r)

def IngestCall.hand : IngestCall → Hand
  | .uploadAsset _ file => { path := some file.stagingPath }
  | .imports (.importFile x) => { path := some (stagingPath x) }
  | .cleanup job => { job := some job }
  | _ => {}

def IngestCall.start (c : IngestCall) : HandNote := (c.first, c.hand)

/-! Every call keeps its hands to itself. -/

theorem plain_permits (g : HandNote) (o : IngestOp) (h : ¬ o.special = true) :
    hands.permits g o := by
  cases o with
  | imports o =>
    cases o with
    | downloadToFile token fileId path => exact absurd rfl h
    | putFile path key mimeType => exact absurd rfl h
    | deleteKeys keys => exact absurd rfl h
    | removeFile path => exact absurd rfl h
    | createJob job => exact absurd rfl h
    | _ => exact ⟨trivial, .inl rfl⟩
  | queueCleanup job => exact absurd rfl h
  | _ => exact ⟨trivial, .inl rfl⟩

theorem lists_plain (o : ImportOp) (ho : lists o = true) :
    ¬ (IngestOp.imports o).special = true := by
  intro hspecial
  cases o <;> first | exact absurd ho Bool.false_ne_true | exact absurd hspecial Bool.false_ne_true

abbrev special (o : ImportOp) : Prop := (IngestOp.imports o).special = true

theorem path_plain {o : IngestOp} (ho : ¬ o.special = true) (h : Hand) (r : IngestRes o) :
    (h.note ⟨o, r⟩).path = h.path := by
  cases o with
  | imports o =>
    cases o with
    | removeFile path => exact absurd rfl ho
    | requireEvent eventId => cases r <;> rfl
    | _ => rfl
  | _ => rfl

section Follows

variable {g : HandNote} {x : ItemId}

/-- Plain operations leave the staged file where it is. -/
theorem follows_plain {α : Type} {p : ImportProg α} (h : p.Avoids special) :
    importHands.Follows p (fun _ g' => g'.2.path = g.2.path) g := by
  induction p generalizing g with
  | done value => rfl
  | perform o next ih =>
    obtain ⟨ho, hnext⟩ := h
    refine ⟨plain_permits g (.imports o) ho, fun r _ => ?_⟩
    refine follows_mono _ (fun _ g' hpath => ?_) _ _ (ih r (hnext r))
    exact hpath.trans (path_plain ho g.2 r)

theorem finishItem_avoids (j : Import.JobId) (counter : Import.Counter) :
    (Import.finishItem j counter).Avoids special := by
  refine ⟨Bool.false_ne_true, fun _ => ⟨Bool.false_ne_true, fun remaining => ?_⟩⟩
  change Prog.Avoids _ (if decide (remaining = 0) = true then _ else _)
  split
  · refine ⟨Bool.false_ne_true, fun job => ?_⟩
    cases job with
    | none => trivial
    | some job =>
      change Prog.Avoids _ (if job.status = .importing then _ else _)
      split
      · exact ⟨Bool.false_ne_true, fun _ => trivial⟩
      · trivial
  · trivial

theorem linkExisting_avoids (job : ImportJob) (winner : Option String) :
    (Import.linkExisting x job winner).run.Avoids special :=
  ⟨Bool.false_ne_true, fun _ =>
    Prog.avoids_lift (finishItem_avoids job.id .skippedFiles) fun _ => trivial⟩

theorem recoverFile_avoids (job : ImportJob) (r : Except Import.ImportError Verdict) :
    (Import.recoverFile x job r).Avoids special := by
  have hfinish : (do
      Import.finishItem job.id .failedFiles
      pure .success : ImportProg Verdict).Avoids special :=
    Prog.avoids_bind (finishItem_avoids job.id .failedFiles) fun _ => trivial
  cases r with
  | ok verdict => trivial
  | error e =>
    cases e with
    | rateLimit ms => exact ⟨Bool.false_ne_true, fun _ => ⟨Bool.false_ne_true, fun _ => trivial⟩⟩
    | other text => exact ⟨Bool.false_ne_true, fun _ => hfinish⟩
    | assetChecksumConstraint text => exact ⟨Bool.false_ne_true, fun _ => hfinish⟩

/-- The file of the worker is still its own. -/
def Holding (x : ItemId) (g : HandNote) : Prop := g.2.path = some (stagingPath x)

theorem storeFile_holding {job : ImportJob} {item : ImportItem} {checksum : String} {size : ℕ}
    {l : Load} {used : Option ℕ} {h : Hand} (hpath : h.path = some (stagingPath x)) :
    importHands.Follows (Import.storeFile x job item checksum size).run (fun _ => Holding x)
      (.unseen l used, h) := by
  refine ⟨⟨trivial, .inl rfl⟩, fun id _ => ⟨⟨trivial, .inr (.inl ?_)⟩, fun stored _ => ?_⟩⟩
  · exact Stage.noConfusion
  cases stored with
  | error e => exact hpath
  | ok _ =>
    refine ⟨⟨trivial, .inl rfl⟩, fun created _ => ?_⟩
    cases created with
    | ok _ =>
      refine ⟨⟨trivial, .inl rfl⟩, fun queued _ => ?_⟩
      cases queued with
      | error e => exact hpath
      | ok _ =>
        refine ⟨⟨trivial, .inl rfl⟩, fun _ _ => (follows_lift _ _ _ _ _).mpr ?_⟩
        refine follows_mono _ ?_ _ _ (follows_plain (finishItem_avoids job.id .doneFiles))
        exact fun _ _ hkept => hkept.trans hpath
    | error e =>
      cases e with
      | rateLimit ms => exact hpath
      | other text => exact hpath
      | assetChecksumConstraint text =>
        refine ⟨⟨trivial, .inr (.inl Stage.noConfusion)⟩,
          fun _ _ => ⟨⟨trivial, .inl rfl⟩, fun winner _ => ?_⟩⟩
        cases winner with
        | error e => exact hpath
        | ok winner =>
          refine follows_mono _ ?_ _ _ (follows_plain (linkExisting_avoids job winner))
          exact fun _ _ hkept => hkept.trans hpath

theorem importFile_holding {job : ImportJob} {item : ImportItem} {h : Hand}
    (hpath : h.path = some (stagingPath x)) :
    importHands.Follows (Import.importFile x job item).run (fun _ => Holding x)
      (.admitted x item job, h) := by
  refine ⟨⟨trivial, .inl rfl⟩, fun _ _ => ⟨⟨trivial, .inl rfl⟩, fun account _ => ?_⟩⟩
  cases account with
  | error e => exact hpath
  | ok account =>
  refine ⟨⟨trivial, .inl rfl⟩, fun accessToken _ => ?_⟩
  cases accessToken with
  | error e => exact hpath
  | ok accessToken =>
  refine ⟨⟨trivial, .inl rfl⟩, fun made _ => ?_⟩
  cases made with
  | error e => exact hpath
  | ok _ =>
  refine ⟨⟨hpath, .inr (.inl Stage.noConfusion)⟩, fun downloaded _ => ?_⟩
  cases downloaded with
  | error e => exact hpath
  | ok _ =>
  refine ⟨⟨trivial, .inl rfl⟩, fun checksum _ => ?_⟩
  cases checksum with
  | error e => exact hpath
  | ok checksum =>
  refine ⟨⟨trivial, .inl rfl⟩, fun size _ => ?_⟩
  cases size with
  | error e => exact hpath
  | ok size =>
  refine ⟨⟨trivial, .inl rfl⟩, fun existing _ => ?_⟩
  cases existing with
  | error e => exact hpath
  | ok existing =>
  cases existing with
  | some assetId =>
    refine follows_mono _ ?_ _ _ (follows_plain (linkExisting_avoids job _))
    exact fun _ _ hkept => hkept.trans hpath
  | none => exact storeFile_holding hpath

theorem handleImportFile_hands (x : ItemId) :
    importHands.Follows (Import.handleImportFile x) (fun _ _ => True)
      (.starting x, { path := some (stagingPath x) }) := by
  refine ⟨⟨trivial, .inl rfl⟩, fun r _ => ?_⟩
  cases r with
  | none => trivial
  | some item =>
    change importHands.Follows (if item.status ≠ .pending then _ else _) _
      (if item.status = .pending then _ else _, _)
    by_cases hpending : item.status = .pending
    · rw [if_pos hpending, if_neg (not_not.mpr hpending)]
      refine ⟨⟨trivial, .inl rfl⟩, fun r _ => ?_⟩
      cases r with
      | none => trivial
      | some job =>
        change importHands.Follows (if job.status = .cancelled then _ else _) _
          (if job.status = .cancelled then _ else _, _)
        by_cases hcancelled : job.status = .cancelled
        · rw [if_pos hcancelled]
          trivial
        · rw [if_neg hcancelled, if_neg hcancelled]
          refine follows_seq _ (importFile_holding rfl) fun outcome g hheld => ?_
          refine follows_seq _ (follows_plain (recoverFile_avoids job outcome)) fun verdict g'
            hkept => ?_
          exact ⟨⟨hkept.trans hheld, .inl rfl⟩, fun _ _ => trivial⟩
    · rw [if_pos hpending]
      trivial

theorem createImport_hands (job : Import.NewJob) :
    importHands.Follows (Import.createImport job) (fun _ _ => True) (.idle, {}) := by
  refine ⟨⟨trivial, .inl rfl⟩, fun orgId _ => ?_⟩
  cases orgId with
  | error e => trivial
  | ok orgId =>
  refine ⟨⟨trivial, .inl rfl⟩, fun account _ => ?_⟩
  cases account with
  | error e => trivial
  | ok account =>
    exact ⟨⟨rfl, .inl rfl⟩, fun _ _ => ⟨⟨trivial, .inl rfl⟩, fun _ _ => trivial⟩⟩

/-! Uploads. -/

theorem storeUpload_hands {event : EventRow} {eventId : String} {file : StagedUpload} {l : Load}
    {used : Option ℕ} {h : Hand} (hpath : h.path = some file.stagingPath) :
    hands.Follows (storeUpload event eventId file).run (fun _ _ => True) (.unseen l used, h) := by
  refine ⟨⟨trivial, .inl rfl⟩, fun id _ =>
    ⟨⟨trivial, .inr (.inl Stage.noConfusion)⟩, fun stored _ => ?_⟩⟩
  cases stored with
  | error e => trivial
  | ok _ =>
    refine ⟨⟨trivial, .inl rfl⟩, fun created _ => ?_⟩
    cases created with
    | ok _ =>
      refine ⟨⟨hpath, .inl rfl⟩, fun _ _ => ⟨⟨trivial, .inl rfl⟩, fun queued _ => ?_⟩⟩
      cases queued <;> trivial
    | error e =>
      cases e with
      | rateLimit ms => trivial
      | other text => trivial
      | assetChecksumConstraint text =>
        refine ⟨⟨trivial, .inr (.inl Stage.noConfusion)⟩,
          fun _ _ => ⟨⟨hpath, .inl rfl⟩, fun _ _ => ?_⟩⟩
        refine ⟨⟨trivial, .inl rfl⟩, fun winner _ => ?_⟩
        rcases winner with e | (_ | winner) <;> trivial

theorem uploadAsset_hands (eventId : String) (file : StagedUpload) :
    hands.Follows (uploadAsset eventId file).run (fun _ _ => True)
      (.asked eventId file, { path := some file.stagingPath }) := by
  refine ⟨⟨trivial, .inl rfl⟩, fun event _ => ?_⟩
  cases event with
  | none => exact ⟨⟨rfl, .inl rfl⟩, fun _ _ => trivial⟩
  | some event =>
    refine ⟨⟨trivial, .inl rfl⟩, fun existing _ => ?_⟩
    cases existing with
    | error e => trivial
    | ok existing =>
    cases existing with
    | some existing => exact ⟨⟨rfl, .inl rfl⟩, fun _ _ => trivial⟩
    | none =>
      refine ⟨⟨trivial, .inl rfl⟩, fun org _ => ?_⟩
      cases org with
      | none => exact ⟨⟨rfl, .inl rfl⟩, fun _ _ => trivial⟩
      | some org =>
        refine ⟨⟨trivial, .inl rfl⟩, fun used _ => ⟨⟨trivial, .inl rfl⟩, fun count _ => ?_⟩⟩
        change hands.Follows (ExceptT.run ((liftM (ExceptT.run (if used + file.size ≤
          (limitsFor org).storageBytes then _ else _ : Attempt Unit)) :
            Attempt (Except IngestError Unit)) >>= _)) _
          (if used + file.size ≤ (limitsFor org).storageBytes then _ else _, _)
        by_cases hfits : used + file.size ≤ (limitsFor org).storageBytes
        · rw [if_pos hfits, if_pos hfits]
          exact storeUpload_hands rfl
        · rw [if_neg hfits, if_neg hfits]
          exact ⟨⟨rfl, .inl rfl⟩, fun _ _ => trivial⟩

/-! Everything else. -/

theorem createEvent_avoids (orgId : String) (dto : CreateEvent) :
    (createEvent orgId dto).run.Avoids (fun o => o.special = true) := by
  refine ⟨Bool.false_ne_true, fun org => ?_⟩
  cases org with
  | none => trivial
  | some org =>
    refine ⟨Bool.false_ne_true, fun used => ⟨Bool.false_ne_true, fun count => ?_⟩⟩
    change Prog.Avoids _ (ExceptT.run ((if count < (limitsFor org).events then _ else _ :
      Attempt Unit) >>= _))
    split
    · refine ⟨Bool.false_ne_true, fun taken => ?_⟩
      change Prog.Avoids _ (ExceptT.run (if taken ≠ none then _ else _))
      split
      · trivial
      · refine ⟨Bool.false_ne_true, fun created => ?_⟩
        cases created <;> trivial
    · trivial

theorem removeEvent_hands (orgId eventId confirmation : String) :
    hands.Follows (removeEvent orgId eventId confirmation).run (fun _ _ => True) g := by
  refine ⟨⟨trivial, .inl rfl⟩, fun event _ => ?_⟩
  cases event with
  | none => trivial
  | some event =>
    change hands.Follows (ExceptT.run ((if event.orgId ≠ orgId then _ else _ :
      Attempt EventRow) >>= _)) _ _
    split
    · trivial
    · change hands.Follows (ExceptT.run (if confirmation ≠ event.slug then _ else _)) _ _
      split
      · trivial
      · exact ⟨⟨trivial, .inl rfl⟩, fun _ _ => ⟨⟨trivial, .inl rfl⟩, fun _ _ => trivial⟩⟩

theorem deleteMany_hands (eventId : String) (ids : List String) :
    hands.Follows (deleteMany eventId ids) (fun _ _ => True) g := by
  rw [deleteMany]
  split
  · trivial
  · refine ⟨⟨trivial, .inl rfl⟩, fun deleted _ => ?_⟩
    change hands.Follows (if deleted = [] then _ else _) _ _
    split
    · trivial
    · exact ⟨⟨rfl, .inl rfl⟩, fun _ _ => trivial⟩

section Cleanup

variable {h : Hand} {job : Cleanup}

theorem deleteBatches_hands (hjob : h.job = some job) (n : ℕ) (keys : List String)
    (hkeys : ∀ key ∈ keys, job.Covers key) :
    hands.Follows (deleteBatches n keys).run (fun _ g => g = (.idle, h)) (.idle, h) := by
  induction n generalizing keys with
  | zero => rfl
  | succ n ih =>
    rw [deleteBatches]
    split
    · rfl
    · refine ⟨⟨trivial, .inr (.inr ⟨job, hjob, fun key hkey => ?_⟩)⟩, fun r _ => ?_⟩
      · exact hkeys key (List.mem_of_mem_take hkey)
      · cases r with
        | error e => rfl
        | ok _ => exact ih _ fun key hkey => hkeys key (List.mem_of_mem_drop hkey)

theorem deletePrefix_hands {pfx : String} (hjob : h.job = some (.cleanupPrefix pfx)) (n : ℕ)
    (cursor : Option String) :
    hands.Follows (deletePrefix pfx n cursor).run (fun _ _ => True) (.idle, h) := by
  induction n generalizing cursor with
  | zero => trivial
  | succ n ih =>
    refine ⟨⟨trivial, .inl rfl⟩, fun r hlisted => ?_⟩
    cases r with
    | error e => trivial
    | ok list =>
      refine (follows_attempt hands _ _ _ _).mpr (follows_mono _ ?_ _ _
        (deleteBatches_hands hjob list.rows.length list.rows (hlisted list rfl)))
      rintro r _ rfl
      cases r with
      | error e => trivial
      | ok _ =>
        cases list.next with
        | none => trivial
        | some last => exact ih (some last)

theorem handleCleanup_hands (fuel : ℕ) (hjob : h.job = some job) :
    hands.Follows (handleCleanup fuel job).run (fun _ _ => True) (.idle, h) := by
  cases job with
  | cleanupKeys keys =>
    change hands.Follows (handleCleanupKeys keys).run _ _
    rw [handleCleanupKeys]
    split
    · trivial
    · refine (follows_attempt hands _ _ _ _).mpr (follows_mono _ ?_ _ _
        (deleteBatches_hands hjob keys.length keys fun _ hkey => hkey))
      intro r _ _
      cases r <;> trivial
  | cleanupPrefix pfx =>
    refine (follows_attempt hands _ _ _ _).mpr (follows_mono _ ?_ _ _
      (deletePrefix_hands hjob fuel none))
    intro r _ _
    cases r <;> trivial

end Cleanup

theorem imports_hands {c : ImportCall} (fuel : ℕ)
    (h : importHands.Follows (c.prog fuel) (fun _ _ => True) g) :
    hands.Follows ((IngestCall.imports c).prog fuel) (fun _ _ => True) g :=
  follows_seq hands (follows_embed hands (fun _ _ => rfl) h) fun _ _ _ => trivial

theorem replying_hands {α : Type} {reply : α → IngestReply} {p : Attempt α}
    (h : hands.Follows p.run (fun _ _ => True) g) :
    hands.Follows (replying reply p) (fun _ _ => True) g := by
  refine follows_seq hands h fun r g _ => ?_
  cases r <;> trivial

theorem call_hands (fuel : ℕ) (c : IngestCall) :
    hands.Follows (c.prog fuel) (fun _ _ => True) c.start := by
  have hplain : ∀ {α : Type} {p : ImportProg α} {g : HandNote}, p.Avoids special →
      importHands.Follows p (fun _ _ => True) g := fun h =>
    follows_mono _ (fun _ _ _ => trivial) _ _ (follows_plain h)
  cases c with
  | imports c =>
    refine imports_hands fuel ?_
    cases c with
    | importFile x => exact handleImportFile_hands x
    | importFolder j => exact hplain (handleImportFolder_avoids lists_plain fuel j)
    | createImport job => exact createImport_hands job
    | cancel eventId j => exact hplain (cancel_avoids lists_plain eventId j)
  | uploadAsset eventId file => exact replying_hands (uploadAsset_hands eventId file)
  | createEvent orgId dto =>
    exact replying_hands (follows_avoids hands plain_permits (createEvent_avoids orgId dto) _)
  | removeEvent orgId eventId confirmation =>
    exact replying_hands (removeEvent_hands orgId eventId confirmation)
  | deleteMany eventId ids =>
    exact follows_seq hands (deleteMany_hands eventId ids) fun _ _ _ => trivial
  | cleanup job => exact replying_hands (handleCleanup_hands fuel rfl)

end Follows

end EventLens.Ingest
