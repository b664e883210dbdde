import EventLens.AssetSweep

/-!
What the removal of an event leaves in the bucket. The deletion of everything
under the prefix of the event is queued before its rows go. An object under the
prefix is safe to be deleted while the event is there and nobody has queued its
cleanup, while a cleanup waits, and while one in progress has not passed it. A
writer that puts an object later, when the cleanup is already at work, leaves it
behind for good.
-/

namespace EventLens.Media

open Programs Contract MediaStore Keyset

def EventRow.pfx (event : EventRow) : EventPrefix := StorageKeys.eventPrefix event.orgId event.id

def StorageKey.pfx (key : StorageKey) : EventPrefix :=
    { orgId := key.orgId, eventId := key.eventId }

theorem StorageKey.under_iff (key : StorageKey) (p : EventPrefix) :
    key.under p = true ↔ key.pfx = p := by
  obtain ⟨orgId, eventId⟩ := p
  simp [StorageKey.under, StorageKey.pfx]

/-- The prefix whose objects the call deletes. -/
def MediaCall.cleans : MediaCall → Option EventPrefix
  | .job _ (.cleanupPrefix pfx) => some pfx
  | _ => none

def listedPage : MediaEvent → Option (Page StorageKey StorageKey)
  | ⟨.listObjects _ _, r⟩ => (r : Except MediaError (Page StorageKey StorageKey)).toOption
  | _ => none

/-- The listing that this page belongs to has gone past the object. -/
def PassedBy (key : StorageKey) (e : MediaEvent) : Prop :=
  ∃ page ∈ listedPage e, ∀ last ∈ page.next, ¬ last.name < key.name

instance (key : StorageKey) (e : MediaEvent) : Decidable (PassedBy key e) := by
  unfold PassedBy
  infer_instance

namespace MediaPool

variable (p : MediaPool)

/-- A cleanup of the prefix waits, is in progress or was given up. -/
def Cleaning (pfx : EventPrefix) : Prop :=
  (∃ n, (n, JobItem.cleanupPrefix pfx) ∈ p.state.jobs ++ p.state.failed) ∨
    ∃ t ∈ p.threads, ∃ n, t.call = .job n (.cleanupPrefix pfx)

/-- The object is still to be deleted with its event: a cleanup waits, one in
progress has not listed as far, or the event is there and no call in progress
has queued its cleanup. -/
def ToClean (key : StorageKey) : Prop :=
  (∃ job ∈ p.state.jobs, job.2 = .cleanupPrefix key.pfx) ∨
    (∃ t ∈ p.threads, t.call.cleans = some key.pfx ∧ ∀ e ∈ t.past, ¬ PassedBy key e) ∨
    (∃ event ∈ p.state.events, event.pfx = key.pfx) ∧
      ∀ t ∈ p.threads, ∀ e ∈ t.past, e.1 ≠ .queue (.cleanupPrefix key.pfx)

instance (key : StorageKey) : Decidable (p.ToClean key) :=
  inferInstanceAs (Decidable (_ ∨ _ ∨ _ ∧ _))

end MediaPool

/-- Nothing is left of the events that have gone since, once the cleanup of
their prefix is done. -/
def LeavesNothing (p₀ p : MediaPool) : Prop :=
  ∀ event ∈ p₀.state.events, event ∉ p.state.events → ¬ MediaPool.Cleaning p event.pfx →
    ∀ key ∈ p.state.bucket, key.under event.pfx = false

def MediaOp.puts : MediaOp → Option StorageKey
  | .putFile key => some key
  | _ => none

/-- An object is put only while it is still to be deleted with its event. -/
def InTime (p : MediaPool) (_t : MediaThread) (e : MediaEvent) : Prop :=
  ∀ key ∈ e.1.puts, MediaPool.ToClean p key

instance (p : MediaPool) (t : MediaThread) (e : MediaEvent) : Decidable (InTime p t e) := by
  unfold InTime
  infer_instance

/-! What a call has queued, listed and deleted. -/

/-- `cursor` and `rows` are where the deletion of a prefix stands. -/
structure Clearing where
  call : MediaCall
  sent : List EventPrefix := []
  events : List EventRow := []
  cursor : Option StorageKey := none
  rows : List StorageKey := []
  ended : Bool := false

namespace Clearing

def first (c : MediaCall) : Clearing := { call := c }

def note (g : Clearing) : MediaEvent → Clearing
  | ⟨.queue (.cleanupPrefix pfx), _⟩ => { g with sent := pfx :: g.sent }
  | ⟨.deletedEvents _, r⟩ => { g with events := (r : List EventRow) }
  | ⟨.listObjects _ _, r⟩ =>
    match (r : Except MediaError (Page StorageKey StorageKey)) with
    | .ok page =>
      { g with
        rows := page.rows
        cursor := page.next
        ended := page.next.isNone }
    | .error _ => g
  | ⟨.deleteKeys keys, r⟩ =>
    match (r : Except MediaError Unit) with
    | .ok _ => { g with rows := g.rows.filter (fun key => key ∉ keys) }
    | .error _ => g
  | _ => g

def Permits (g : Clearing) : MediaOp → Prop
  | .listObjects pfx cursor =>
    (∃ n, g.call = .job n (.cleanupPrefix pfx)) ∧ cursor = g.cursor ∧ g.rows = [] ∧ g.ended = false
  | .hardDelete orgId eventId => StorageKeys.eventPrefix orgId eventId ∈ g.sent
  | .deleteEvents ids => ids = g.events.map EventRow.id ∧ ∀ event ∈ g.events, event.pfx ∈ g.sent
  | _ => True

end Clearing

def clearing : Contract MediaOp MediaRes Clearing where
  note := Clearing.note
  expects _ _ := True
  permits := Clearing.Permits

/-- A cleanup that is done has reached the end of the listing. -/
def Cleared (c : MediaCall) (reply : MediaReply) (g : Clearing) : Prop :=
  g.call = c ∧ ∀ n pfx, c = .job n (.cleanupPrefix pfx) → reply.fails = false → g.ended = true ∧
    g.rows = []

theorem clearing_call (g : Clearing) (e : MediaEvent) : (g.note e).call = g.call := by
  unfold Clearing.note
  split <;> first | rfl | (split <;> rfl)

/-! Calls that neither list objects nor drop events. -/

def MediaOp.erases : MediaOp → Prop
  | .listObjects _ _ | .hardDelete _ _ | .deleteEvents _ => True
  | _ => False

section Sparing

variable {α β : Type}

theorem spares_call {o : MediaOp} (h : ¬ o.erases) : (call o).Avoids MediaOp.erases :=
  ⟨h, fun _ => trivial⟩

theorem spares_perform {o : MediaOp} (h : ¬ o.erases) : (perform o).run.Avoids MediaOp.erases :=
  ⟨h, fun _ => trivial⟩

theorem spares_queueAll (jobs : List JobItem) : (queueAll jobs).Avoids MediaOp.erases := by
  induction jobs with
  | nil => trivial
  | cons job jobs ih => exact ⟨id, fun _ => ih⟩

theorem spares_putAll (keys : List StorageKey) : (putAll keys).run.Avoids MediaOp.erases := by
  induction keys with
  | nil => trivial
  | cons key keys ih =>
    exact Prog.avoids_bind (spares_call (o := .putFile key) id) fun r =>
      Prog.avoids_bind ih fun _ => trivial

theorem spares_deleteBatches (n : ℕ) (keys : List StorageKey) :
    (deleteBatches n keys).run.Avoids MediaOp.erases := by
  induction n generalizing keys with
  | zero => trivial
  | succ n ih =>
    rw [deleteBatches]
    split
    · trivial
    · exact Prog.avoids_attempt (spares_call id) fun _ => ih _

theorem spares_collectKeys (assets : List AssetRow) :
    (collectKeys assets).Avoids MediaOp.erases := by
  induction assets with
  | nil => trivial
  | cons asset assets ih =>
    exact Prog.avoids_bind (spares_call (o := .getFiles asset.id) id) fun files =>
      Prog.avoids_bind ih fun _ => trivial

theorem spares_inspect (asset : AssetRow) : (inspect asset).run.Avoids MediaOp.erases := by
  rw [inspect]
  split
  · exact Prog.avoids_attempt (spares_call id) fun _ => spares_call id
  · refine Prog.avoids_attempt (spares_call id) fun _ =>
      Prog.avoids_attempt (spares_call id) fun captured => ?_
    refine Prog.avoids_attempt (spares_call id) fun _ => ?_
    cases captured with
    | true => exact spares_call id
    | false => trivial

theorem spares_processAsset (asset : AssetRow) :
    (processAsset asset).run.Avoids MediaOp.erases := by
  rw [processAsset]
  refine Prog.avoids_attempt (spares_call id) fun _ =>
    Prog.avoids_attempt (spares_inspect asset) fun _ => ?_
  refine Prog.avoids_attempt (spares_call id) fun _ =>
    Prog.avoids_attempt (spares_call id) fun _ => ?_
  refine Prog.avoids_attempt (spares_call id) fun _ =>
    Prog.avoids_attempt (spares_call id) fun _ => ?_
  refine Prog.avoids_attempt (spares_putAll _) fun _ =>
    Prog.avoids_attempt (spares_call id) fun _ => ?_
  refine Prog.avoids_attempt (spares_call id) fun _ =>
    Prog.avoids_attempt (spares_call id) fun _ => ?_
  exact Prog.avoids_bind (spares_queueAll _) fun _ => trivial

theorem spares_handleAssetProcess (assetId : ℕ) :
    (handleAssetProcess assetId).Avoids MediaOp.erases := by
  refine Prog.avoids_bind (spares_call (o := .getByIdUnscoped assetId) id) fun asset => ?_
  cases asset with
  | none => trivial
  | some asset =>
    refine Prog.avoids_bind (spares_processAsset asset) fun r => ?_
    cases r with
    | ok _ => trivial
    | error e => exact ⟨id, fun _ => trivial⟩

theorem spares_handleVideoTranscode (assetId : ℕ) :
    (handleVideoTranscode assetId).Avoids MediaOp.erases := by
  refine Prog.avoids_bind (spares_call (o := .getByIdUnscoped assetId) id) fun asset => ?_
  cases asset with
  | none => trivial
  | some asset =>
    change Prog.Avoids _ (if asset.type ≠ .video then pure JobStatus.skipped else _)
    split
    · trivial
    · refine Prog.avoids_bind (p := (transcodeVideo asset).run) ?_ fun r => ?_
      · rw [transcodeVideo]
        refine Prog.avoids_attempt (spares_call id) fun _ =>
          Prog.avoids_attempt (spares_call id) fun _ => ?_
        exact Prog.avoids_attempt (spares_call id) fun _ => spares_call id
      · cases r <;> trivial

theorem spares_handlePersonThumbnail (personId : ℕ) :
    (handlePersonThumbnail personId).run.Avoids MediaOp.erases := by
  refine ⟨id, fun data => ?_⟩
  cases data with
  | none => trivial
  | some data =>
    refine ⟨id, fun _ => Prog.avoids_attempt (spares_call id) fun _ => ?_⟩
    refine Prog.avoids_attempt (spares_call id) fun _ =>
      Prog.avoids_attempt (spares_call id) fun _ => ?_
    exact Prog.avoids_attempt (spares_call id) fun _ => ⟨id, fun _ => trivial⟩

theorem spares_storeRow (row : AssetRow) : (storeRow row).run.Avoids MediaOp.erases := by
  refine Prog.avoids_bind (p := (create row).run) (spares_call id) fun r => ?_
  cases r with
  | ok _ => trivial
  | error e =>
    cases e with
    | checksumConstraint text => exact Prog.avoids_bind (spares_deleteBatches _ _) fun _ => trivial
    | _ => trivial

theorem spares_importFile (item : ImportItem) : (importFile item).run.Avoids MediaOp.erases := by
  rw [importFile]
  refine Prog.avoids_attempt (spares_perform id) fun _ =>
    Prog.avoids_attempt (spares_call id) fun fetched => ?_
  refine Prog.avoids_attempt (spares_perform id) fun existing => ?_
  cases existing with
  | some existing => exact Prog.avoids_attempt (spares_perform id) fun _ => trivial
  | none =>
    refine Prog.avoids_attempt (spares_perform id) fun assetId =>
      Prog.avoids_attempt (spares_call id) fun _ => ?_
    refine Prog.avoids_attempt (spares_storeRow _) fun won => ?_
    cases won with
    | true => exact ⟨id, fun _ => ⟨id, fun _ => trivial⟩⟩
    | false => exact ⟨id, fun _ => ⟨id, fun _ => trivial⟩⟩

theorem spares_handleImportFile (importItemId : ℕ) :
    (handleImportFile importItemId).Avoids MediaOp.erases := by
  refine Prog.avoids_bind (spares_call (o := .getItem importItemId) id) fun item => ?_
  cases item with
  | none => trivial
  | some item =>
    change Prog.Avoids _ (if item.status ≠ .pending ∨
      item.cancelled = true then pure JobStatus.skipped else _)
    split
    · trivial
    · refine Prog.avoids_bind (spares_importFile item) fun r => ?_
      cases r with
      | ok _ => trivial
      | error e => cases e <;> exact ⟨id, fun _ => trivial⟩

theorem spares_uploadAsset (eventId : ℕ) (staged : Ingest.StagedUpload) :
    (uploadAsset eventId staged).run.Avoids MediaOp.erases := by
  refine ⟨id, fun event => ?_⟩
  cases event with
  | none => trivial
  | some event =>
    refine ⟨id, fun existing => ?_⟩
    cases existing with
    | some existing => trivial
    | none =>
      refine Prog.avoids_attempt (spares_call id) fun _ =>
        Prog.avoids_attempt (spares_perform id) fun assetId => ?_
      refine Prog.avoids_attempt (spares_call id) fun _ =>
        Prog.avoids_attempt (spares_storeRow _) fun won => ?_
      cases won with
      | true => exact ⟨id, fun _ => trivial⟩
      | false =>
        refine ⟨id, fun winner => ?_⟩
        cases winner <;> trivial

theorem spares_submitSelfie (dto : Submission) : (submitSelfie dto).run.Avoids MediaOp.erases := by
  rw [submitSelfie]
  split
  · trivial
  · refine Prog.avoids_attempt (spares_call id) fun event =>
      Prog.avoids_attempt (spares_perform id) fun byIp => ?_
    cases byIp with
    | false => trivial
    | true =>
      refine Prog.avoids_attempt (spares_perform id) fun byEmail => ?_
      cases byEmail with
      | false => trivial
      | true =>
        change (storeSelfies dto event).run.Avoids MediaOp.erases
        rw [storeSelfies]
        refine Prog.avoids_attempt (spares_perform id) fun uuid =>
          Prog.avoids_attempt (spares_putAll _) fun _ => ?_
        refine Prog.avoids_attempt (spares_call id) fun _ =>
          Prog.avoids_attempt (spares_call id) fun _ => ?_
        exact Prog.avoids_lift (spares_queueAll _) fun _ => trivial

theorem spares_deleteMany (eventId : ℕ) (ids : List ℕ) :
    (deleteMany eventId ids).Avoids MediaOp.erases := by
  have hrest : ∀ deleted : List AssetRow, (do
      let keys ← collectKeys deleted
      if keys = [] then pure deleted.length
      else do
        let _ ← call (.queue (.cleanupKeys keys))
        pure deleted.length : MediaProg ℕ).Avoids MediaOp.erases := by
    intro deleted
    refine Prog.avoids_bind (spares_collectKeys deleted) fun keys => ?_
    split
    · trivial
    · exact ⟨id, fun _ => trivial⟩
  rw [deleteMany]
  split
  · exact hrest []
  · exact ⟨id, fun deleted => hrest deleted⟩

theorem spares_runJob (eventId assetId : ℕ) :
    (runJob eventId assetId).run.Avoids MediaOp.erases := by
  refine ⟨id, fun asset => ?_⟩
  cases asset with
  | none => trivial
  | some asset => exact ⟨id, fun _ => ⟨id, fun _ => trivial⟩⟩

theorem spares_replying {reply : α → MediaReply} {p : Attempt α} (h : p.run.Avoids MediaOp.erases) :
    (replying reply p).Avoids MediaOp.erases :=
  Prog.avoids_bind h fun r => by cases r <;> trivial

end Sparing

/-! Each call follows the contract. -/

section Courses

variable {α : Type} {g : Clearing}

theorem permits_spared {o : MediaOp} (h : ¬ o.erases) : g.Permits o := by
  cases o <;> first | trivial | exact absurd trivial h

theorem follows_spared {p : MediaProg α} (h : p.Avoids MediaOp.erases) :
    clearing.Follows p (fun _ g' => g'.call = g.call) g := by
  induction p generalizing g with
  | done value => rfl
  | perform o next ih =>
    refine ⟨permits_spared h.1, fun r _ => ?_⟩
    exact follows_mono _ (fun _ g' hg => hg.trans (clearing_call g ⟨o, r⟩)) _ _ (ih r (h.2 r))

theorem starts_spared {p : MediaProg α} {c : MediaCall} (h : p.Avoids MediaOp.erases) :
    clearing.Follows p (fun _ g' => g'.call = c) (.first c) := follows_spared (g := .first c) h

theorem follows_collectKeys (assets : List AssetRow) :
    clearing.Follows (collectKeys assets) (fun _ g' => g' = g) g := by
  induction assets with
  | nil => rfl
  | cons asset assets ih =>
    refine ⟨trivial, fun files _ => ?_⟩
    change clearing.Follows (collectKeys assets >>= _) _ g
    exact follows_seq _ ih fun keys g' hg => hg

/-- The cleanups of these events are queued. -/
theorem follows_queuePrefixes (events : List EventRow) :
    clearing.Follows (queueAll (events.map (fun event => .cleanupPrefix event.pfx)))
      (fun _ g' => ∃ sent, g' = { g with sent := sent } ∧ (∀ pfx ∈ g.sent, pfx ∈ sent) ∧
        ∀ event ∈ events, event.pfx ∈ sent) g := by
  induction events generalizing g with
  | nil => exact ⟨g.sent, rfl, fun _ h => h, fun event hevent => absurd hevent List.not_mem_nil⟩
  | cons event events ih =>
    refine ⟨trivial, fun n _ => ?_⟩
    refine follows_mono _ (fun _ g' hg => ?_) _ _ (ih (g := { g with sent := event.pfx :: g.sent }))
    obtain ⟨sent, rfl, hkept, hsent⟩ := hg
    refine ⟨sent, rfl, fun pfx hpfx => hkept pfx (List.mem_cons_of_mem _ hpfx),
      fun other hother => ?_⟩
    rcases List.mem_cons.mp hother with rfl | hother
    · exact hkept _ List.mem_cons_self
    · exact hsent other hother

theorem follows_deleteBatches (n : ℕ) (keys : List StorageKey) :
    clearing.Follows (deleteBatches n keys).run
      (fun r g' => ∃ rows, g' = { g with rows := rows } ∧
        (r = .ok () → keys.length ≤ n → ∀ key ∈ rows, key ∈ g.rows ∧ key ∉ keys)) g := by
  induction n generalizing keys g with
  | zero =>
    refine ⟨g.rows, rfl, fun _ hlength key hkey => ⟨hkey, ?_⟩⟩
    rw [List.eq_nil_of_length_eq_zero (Nat.le_zero.mp hlength)]
    exact List.not_mem_nil
  | succ n ih =>
    rw [deleteBatches]
    split
    · rename_i hnil
      refine ⟨g.rows, rfl, fun _ _ key hkey => ⟨hkey, ?_⟩⟩
      rw [hnil]
      exact List.not_mem_nil
    · rename_i hsome
      refine ⟨trivial, fun r _ => ?_⟩
      cases r with
      | error e => exact ⟨g.rows, rfl, fun hok => by cases hok⟩
      | ok _ =>
        refine follows_mono _ (fun r g' hg => ?_) _ _ (ih (keys.drop deleteBatch)
          (g := { g with rows := g.rows.filter (fun key => key ∉ keys.take deleteBatch) }))
        obtain ⟨rows, rfl, hrows⟩ := hg
        refine ⟨rows, rfl, fun hok hlength key hkey => ?_⟩
        have hdrop : (keys.drop deleteBatch).length ≤ n := by
          rw [List.length_drop, deleteBatch]
          omega
        obtain ⟨hmem, hlater⟩ := hrows hok hdrop key hkey
        obtain ⟨hmem, hfirst⟩ := List.mem_filter.mp hmem
        have hnot : key ∉ keys.take deleteBatch := by simpa using hfirst
        refine ⟨hmem, fun hkey => ?_⟩
        rw [← List.take_append_drop deleteBatch keys] at hkey
        exact (List.mem_append.mp hkey).elim hnot hlater

theorem follows_deletePrefix {n : ℕ} {pfx : EventPrefix} (fuel : ℕ) {cursor : Option StorageKey}
    (hcall : g.call = .job n (.cleanupPrefix pfx)) (hcursor : g.cursor = cursor)
    (hrows : g.rows = [])
    (hended : g.ended = false) :
    clearing.Follows (deletePrefix pfx fuel cursor).run
      (fun r g' => g'.call = g.call ∧ (r = .ok () → g'.ended = true ∧ g'.rows = [])) g := by
  induction fuel generalizing g cursor with
  | zero => exact ⟨rfl, nofun⟩
  | succ fuel ih =>
    refine ⟨⟨⟨n, hcall⟩, hcursor.symm, hrows, hended⟩, fun r _ => ?_⟩
    cases r with
    | error e => exact ⟨rfl, nofun⟩
    | ok page =>
      refine (follows_attempt _ _ _ _ _).mpr
        (follows_mono _ ?_ _ _ (follows_deleteBatches page.rows.length page.rows
        (g := { g with
          rows := page.rows
          cursor := page.next
          ended := page.next.isNone })))
      rintro r g' ⟨rows, rfl, hdeleted⟩
      cases r with
      | error e => exact ⟨rfl, nofun⟩
      | ok _ =>
        have hnone : rows = [] := List.eq_nil_iff_forall_not_mem.mpr fun key hkey =>
          (hdeleted rfl le_rfl key hkey).2 (hdeleted rfl le_rfl key hkey).1
        cases hnext : page.next with
        | none => exact ⟨rfl, fun _ => ⟨rfl, hnone⟩⟩
        | some last =>
          exact ih (g := { g with
            rows := rows
            cursor := some last
            ended := false }) hcall rfl hnone rfl

theorem follows_remove (orgId eventId : ℕ) (confirmation : String) :
    clearing.Follows (remove orgId eventId confirmation).run (fun _ g' => g'.call = g.call) g := by
  refine ⟨trivial, fun event _ => ?_⟩
  cases event with
  | none => rfl
  | some event =>
    change clearing.Follows (ExceptT.run (if event.orgId ≠ orgId then _ else _)) _ g
    split
    · rfl
    · split
      · rfl
      · exact ⟨trivial, fun _ _ => ⟨List.mem_cons_self, fun _ _ => rfl⟩⟩

theorem follows_handleStorageReconcile :
    clearing.Follows handleStorageReconcile (fun _ g' => g'.call = g.call) g := by
  refine ⟨trivial, fun now _ => ⟨trivial, fun events _ => ⟨trivial, fun assets _ => ?_⟩⟩⟩
  change clearing.Follows (collectKeys assets >>= _) _ { g with events := (events : List EventRow) }
  refine follows_seq _ (follows_collectKeys assets) fun keys g' hg => ?_
  subst hg
  have hswept : ∀ f : MediaProg JobStatus,
      (∀ sent : List EventPrefix, (∀ event ∈ (events : List EventRow), event.pfx ∈ sent) →
        clearing.Follows f (fun _ g' => g'.call = g.call) { g with
          events := (events : List EventRow)
          sent := sent }) →
      clearing.Follows (if (assets : List AssetRow) = [] then
          queueAll ((events : List EventRow).map (fun event => .cleanupPrefix event.pfx)) >>=
            fun _ => f
        else do
          let job ← call (.queue (.cleanupKeys keys))
          queueAll ((events : List EventRow).map (fun event => .cleanupPrefix event.pfx))
          let _ ← call (.deleteAssets ((assets : List AssetRow).map (fun a => a.id)) job)
          f) (fun _ g' => g'.call = g.call) { g with events := (events : List EventRow) } := by
    intro f hf
    split
    · refine follows_seq _ (follows_queuePrefixes _) fun _ g' hg => ?_
      obtain ⟨sent, rfl, -, hsent⟩ := hg
      exact hf sent hsent
    · refine ⟨trivial, fun job _ => ?_⟩
      change clearing.Follows (queueAll _ >>= _) _ { g with events := (events : List EventRow) }
      refine follows_seq _ (follows_queuePrefixes _) fun _ g' hg => ?_
      obtain ⟨sent, rfl, -, hsent⟩ := hg
      exact ⟨trivial, fun _ _ => hf sent hsent⟩
  split
  · exact hswept (pure .success) fun _ _ => rfl
  · exact hswept (do
      call (.deleteEvents ((events : List EventRow).map EventRow.id))
      pure .success) fun _ hsent => ⟨⟨rfl, hsent⟩, fun _ _ => rfl⟩

/-- A call that is no cleanup of a prefix has nothing to have reached. -/
theorem cleared_of_other {c : MediaCall} {reply : MediaReply} (h : g.call = c)
    (hc : ∀ n pfx, c ≠ .job n (.cleanupPrefix pfx)) : Cleared c reply g :=
  ⟨h, fun n pfx hcall => absurd hcall (hc n pfx)⟩

theorem replying_clears {reply : α → MediaReply} {p : Attempt α} {Q : MediaReply → Clearing → Prop}
    (h : clearing.Follows p.run (fun r g' => Q (match r with
      | .ok a => reply a
      | .error e => .refused e) g') g) : clearing.Follows (replying reply p) Q g := by
  refine follows_seq _ h fun r g' hg => ?_
  cases r with
  | ok a => exact hg
  | error e => exact hg

theorem job_clears (fuel n : ℕ) (item : JobItem) :
    clearing.Follows (item.prog fuel) (Cleared (.job n item)) (.first (.job n item)) := by
  have hspared : (item.prog fuel).Avoids MediaOp.erases → (∀ pfx, item ≠ .cleanupPrefix pfx) →
      clearing.Follows (item.prog fuel) (Cleared (.job n item)) (.first (.job n item)) := by
    intro h hitem
    refine follows_mono _ (fun _ g' hg => cleared_of_other hg fun m pfx hsame => ?_) _ _
      (starts_spared h)
    cases hsame
    exact hitem pfx rfl
  cases item with
  | assetProcess assetId =>
    exact hspared (Prog.avoids_bind (spares_handleAssetProcess assetId) fun _ => trivial) fun _
      hsame => by cases hsame
  | videoTranscode assetId =>
    exact hspared (Prog.avoids_bind (spares_handleVideoTranscode assetId) fun _ => trivial) fun _
      hsame => by cases hsame
  | personThumbnail personId =>
    exact hspared (spares_replying (spares_handlePersonThumbnail personId)) fun _ hsame => by
      cases hsame
  | importFile importItemId =>
    exact hspared (Prog.avoids_bind (spares_handleImportFile importItemId) fun _ => trivial) fun _
      hsame => by cases hsame
  | cleanupKeys keys =>
    refine hspared (spares_replying ?_) fun _ hsame => by cases hsame
    rw [handleCleanupKeys]
    split
    · trivial
    · exact Prog.avoids_attempt (spares_deleteBatches _ _) fun _ => trivial
  | cleanupPrefix pfx =>
    refine replying_clears ((follows_attempt _ _ _ _ _).mpr (follows_mono _ (fun r g' hg => ?_) _ _
      (follows_deletePrefix fuel (g := .first (.job n (.cleanupPrefix pfx))) rfl rfl rfl rfl)))
    obtain ⟨hcall, hdone⟩ := hg
    cases r with
    | ok _ => exact ⟨hcall, fun _ _ _ _ => hdone rfl⟩
    | error e => exact ⟨hcall, fun _ _ _ hfails => by cases hfails⟩
  | _ => exact cleared_of_other rfl fun _ _ hsame => by cases hsame

theorem calls_clear (fuel : ℕ) (c : MediaCall) :
    clearing.Follows (c.prog fuel) (Cleared c) (.first c) := by
  have hother : clearing.Follows (c.prog fuel) (fun _ g' => g'.call = c) (.first c) →
      (∀ n item, c ≠ .job n item) → clearing.Follows (c.prog fuel) (Cleared c) (.first c) :=
        fun h hc =>
    follows_mono _ (fun _ g' hg => cleared_of_other hg fun n pfx => hc n (.cleanupPrefix pfx)) _ _ h
  cases c with
  | job n item => exact job_clears fuel n item
  | storageReconcile =>
    exact hother (follows_seq _ follows_handleStorageReconcile fun _ g' hg => hg) fun _ _ => nofun
  | uploadAsset eventId staged =>
    exact hother (starts_spared (spares_replying (spares_uploadAsset eventId staged))) fun _ _ =>
      nofun
  | submitSelfie dto =>
    exact hother (starts_spared (spares_replying (spares_submitSelfie dto))) fun _ _ => nofun
  | remove orgId eventId confirmation =>
    refine hother (replying_clears ?_) fun _ _ => nofun
    exact follows_mono _ (fun _ _ hg => hg) _ _ (follows_remove orgId eventId confirmation)
  | deleteMany eventId ids =>
    exact hother (starts_spared (Prog.avoids_bind (spares_deleteMany eventId ids) fun _ => trivial))
      fun _ _ => nofun
  | runJob eventId assetId =>
    exact hother (starts_spared (spares_replying (spares_runJob eventId assetId))) fun _ _ => nofun
  | elapse ms => exact hother rfl fun _ _ => nofun

end Courses

/-! Every object under the prefix of an event is safe to be deleted. -/

section Safety

/-- Where the deletion of the object stands: nobody has queued it yet, a cleanup
waits, or one in progress has it on its page or ahead. -/
def Safe (N : Multiset Clearing) (s : MediaStore) (event : EventRow) (key : StorageKey) : Prop :=
  (event ∈ s.events ∧ ∀ g ∈ N, event.pfx ∉ g.sent) ∨
    (∃ n, (n, JobItem.cleanupPrefix event.pfx) ∈ s.jobs ++ s.failed) ∨
    ∃ g ∈ N, (∃ n, g.call = .job n (.cleanupPrefix event.pfx)) ∧
      (key ∈ g.rows ∨ g.ended = false ∧ BehindCursor StorageKey.name g.cursor key)

structure Guarded (all : List EventRow) (N : Multiset Clearing) (s : MediaStore) : Prop where
  events : ∀ event ∈ s.events, event ∈ all
  listed : ∀ g ∈ N, ∀ event ∈ g.events, event ∈ all
  safe : ∀ event ∈ all, ∀ key ∈ s.bucket, key.pfx = event.pfx → Safe N s event key

variable {all : List EventRow} {N : Multiset Clearing} {s s' : MediaStore} {g g' : Clearing}
  {event : EventRow} {key : StorageKey}

/-- A step of a call that leaves the events and the cleanups where they are, or
adds to these. -/
theorem Safe.advances (h : Safe (g ::ₘ N) s event key)
    (hevents : event ∈ s.events → event ∈ s'.events)
    (hjobs : ∀ n, (n, JobItem.cleanupPrefix event.pfx) ∈ s.jobs ++ s.failed →
      (n, JobItem.cleanupPrefix event.pfx) ∈ s'.jobs ++ s'.failed)
    (hsent : event.pfx ∉ g.sent → event.pfx ∉ g'.sent) (hcall : g'.call = g.call)
    (hrows : key ∈ g.rows ∨ g.ended = false ∧ BehindCursor StorageKey.name g.cursor key →
      key ∈ g'.rows ∨ g'.ended = false ∧ BehindCursor StorageKey.name g'.cursor key) :
    Safe (g' ::ₘ N) s' event key := by
  rcases h with ⟨hthere, hunsent⟩ | ⟨n, hjob⟩ | ⟨x, hx, hcleanup, hahead⟩
  · refine .inl ⟨hevents hthere, fun x hx => ?_⟩
    rcases Multiset.mem_cons.mp hx with rfl | hx
    · exact hsent (hunsent g (Multiset.mem_cons_self _ _))
    · exact hunsent x (Multiset.mem_cons_of_mem hx)
  · exact .inr (.inl ⟨n, hjobs n hjob⟩)
  · rcases Multiset.mem_cons.mp hx with rfl | hx
    · exact .inr (.inr ⟨g', Multiset.mem_cons_self _ _, hcall ▸ hcleanup, hrows hahead⟩)
    · exact .inr (.inr ⟨x, Multiset.mem_cons_of_mem hx, hcleanup, hahead⟩)

/-- A step that neither adds objects nor drops events, and notes nothing. -/
theorem Guarded.frame (h : Guarded all (g ::ₘ N) s) (hevents : s'.events = s.events)
    (hbucket : ∀ key ∈ s'.bucket, key ∈ s.bucket)
    (hjobs : ∀ n pfx, (n, JobItem.cleanupPrefix pfx) ∈ s.jobs ++ s.failed →
      (n, JobItem.cleanupPrefix pfx) ∈ s'.jobs ++ s'.failed) : Guarded all (g ::ₘ N) s' where
  events event hevent := h.events event (hevents ▸ hevent)
  listed := h.listed
  safe event hevent key hkey hunder := (h.safe event hevent key (hbucket key hkey) hunder).advances
    (fun hthere => hevents ▸ hthere) (fun n => hjobs n _) id rfl id

theorem Guarded.aside (h : Guarded all (g ::ₘ N) s) (hevents : s'.events = s.events)
    (hbucket : s'.bucket = s.bucket)
    (hjobs : s'.jobs = s.jobs) (hfailed : s'.failed = s.failed) : Guarded all (g ::ₘ N) s' :=
  h.frame hevents (fun key hkey => hbucket ▸ hkey) fun n pfx hjob => by
    rw [hjobs, hfailed]; exact hjob

theorem Guarded.stated {after : Except MediaError MediaStore} (h : Guarded all (g ::ₘ N) s)
    (hafter : ∀ s', after = .ok s' → s'.events = s.events ∧ s'.bucket = s.bucket ∧
    s'.jobs = s.jobs ∧
      s'.failed = s.failed) : Guarded all (g ::ₘ N) (Media.stated after s).2 := by
  cases after with
  | error e => exact h
  | ok s' =>
    obtain ⟨hevents, hbucket, hjobs, hfailed⟩ := hafter s' rfl
    exact h.aside hevents hbucket hjobs hfailed

/-- An object is put in time. -/
theorem Guarded.putObject (h : Guarded all (g ::ₘ N) s)
    (hintime : ∀ event ∈ all, key.pfx = event.pfx → Safe (g ::ₘ N) s event key) :
    Guarded all (g ::ₘ N) (s.putFile key) where
  events := h.events
  listed := h.listed
  safe event hevent k hk hunder := by
    rw [MediaStore.putFile] at hk
    rcases List.mem_append.mp hk with hk | hk
    · exact h.safe event hevent k (List.mem_of_mem_filter hk) hunder
    · cases List.mem_singleton.mp hk
      exact hintime event hevent hunder

theorem Guarded.removeObjects (h : Guarded all (g ::ₘ N) s) (keys : List StorageKey) :
    Guarded all ({ g with rows := g.rows.filter (fun key => key ∉ keys) } ::ₘ N)
    (s.deleteKeys keys) where
  events := h.events
  listed x hx := by
    rcases Multiset.mem_cons.mp hx with rfl | hx
    · exact h.listed g (Multiset.mem_cons_self _ _)
    · exact h.listed x (Multiset.mem_cons_of_mem hx)
  safe event hevent key hkey hunder := by
    obtain ⟨hmem, hkept⟩ := List.mem_filter.mp hkey
    refine (h.safe event hevent key hmem hunder).advances id (fun _ hjob => hjob) id rfl
      fun hahead => ?_
    exact hahead.imp_left fun hrow => List.mem_filter.mpr ⟨hrow, hkept⟩

/-- The next page of a listing: what was ahead is on it or ahead of it. -/
theorem Guarded.listObjects {n : ℕ} {pfx : EventPrefix} (h : Guarded all (g ::ₘ N) s)
    (hcall : g.call = .job n (.cleanupPrefix pfx)) (hrows : g.rows = []) :
    Guarded all ({ g with
      rows := (s.listObjects pfx g.cursor).rows
      cursor := (s.listObjects pfx g.cursor).next
      ended := (s.listObjects pfx g.cursor).next.isNone } ::ₘ N) s where
  events := h.events
  listed x hx := by
    rcases Multiset.mem_cons.mp hx with rfl | hx
    · exact h.listed g (Multiset.mem_cons_self _ _)
    · exact h.listed x (Multiset.mem_cons_of_mem hx)
  safe event hevent key hkey hunder := by
    rcases h.safe event hevent key hkey hunder with ⟨hthere, hunsent⟩ | hjob |
      ⟨x, hx, ⟨m, hcleanup⟩, hahead⟩
    · refine .inl ⟨hthere, fun x hx => ?_⟩
      rcases Multiset.mem_cons.mp hx with rfl | hx
      · exact hunsent g (Multiset.mem_cons_self _ _)
      · exact hunsent x (Multiset.mem_cons_of_mem hx)
    · exact .inr (.inl hjob)
    · rcases Multiset.mem_cons.mp hx with rfl | hx
      · have hpfx : pfx = event.pfx := by
          rw [hcall] at hcleanup
          cases hcleanup
          rfl
        refine .inr (.inr ⟨_, Multiset.mem_cons_self _ _, ⟨m, hcleanup⟩, ?_⟩)
        rw [hrows] at hahead
        obtain ⟨-, hbehind⟩ := hahead.resolve_left List.not_mem_nil
        have hlisted : key ∈ s.bucket.filter (fun key => key.under pfx) :=
          List.mem_filter.mpr ⟨hkey, (key.under_iff pfx).mpr (hunder.trans hpfx.symm)⟩
        have hreached : key ∈ (s.listObjects pfx x.cursor).rows ∨
            ∃ last ∈ (s.listObjects pfx x.cursor).next, last.name < key.name :=
          listed_or_behind StorageKey.name_injective (by decide) hlisted hbehind
        rcases hreached with hrow | ⟨last, hnext, hlast⟩
        · exact .inl hrow
        · refine .inr ⟨?_, fun other hother => ?_⟩
          · rw [show (s.listObjects pfx x.cursor).next = some last from hnext]
            rfl
          · cases hnext.symm.trans hother
            exact hlast
      · exact .inr (.inr ⟨x, Multiset.mem_cons_of_mem hx, ⟨m, hcleanup⟩, hahead⟩)

/-- A cleanup is queued. -/
theorem Guarded.queuePrefix (h : Guarded all (g ::ₘ N) s) (pfx : EventPrefix) :
    Guarded all ({ g with sent := pfx :: g.sent } ::ₘ N) (s.queue (.cleanupPrefix pfx)) where
  events := h.events
  listed x hx := by
    rcases Multiset.mem_cons.mp hx with rfl | hx
    · exact h.listed g (Multiset.mem_cons_self _ _)
    · exact h.listed x (Multiset.mem_cons_of_mem hx)
  safe event hevent key hkey hunder := by
    by_cases hthis : event.pfx = pfx
    · refine .inr (.inl ⟨s.nextJob, List.mem_append_left _ (List.mem_append_right _ ?_)⟩)
      rw [hthis]
      exact List.mem_singleton.mpr rfl
    · refine (h.safe event hevent key hkey hunder).advances id (fun n hjob => ?_)
        (fun hunsent hsent => ?_) rfl id
      · rcases List.mem_append.mp hjob with hjob | hjob
        · exact List.mem_append_left _ (List.mem_append_left _ hjob)
        · exact List.mem_append_right _ hjob
      · exact (List.mem_cons.mp hsent).elim hthis hunsent

theorem Guarded.listEvents (h : Guarded all (g ::ₘ N) s) {events : List EventRow}
    (hevents : ∀ event ∈ events, event ∈ s.events) : Guarded all ({ g with events :=
    events } ::ₘ N) s where
  events := h.events
  listed x hx := by
    rcases Multiset.mem_cons.mp hx with rfl | hx
    · exact fun event hevent => h.events event (hevents event hevent)
    · exact h.listed x (Multiset.mem_cons_of_mem hx)
  safe event hevent key hkey hunder :=
    (h.safe event hevent key hkey hunder).advances id (fun _ hjob => hjob) id rfl id

/-- Events go whose cleanup the call has queued. -/
theorem Guarded.dropEvents (h : Guarded all (g ::ₘ N) s) {ids : List ℕ}
    (hsent : ∀ event ∈ s.events, event.id ∈ ids → event.pfx ∈ g.sent) :
    Guarded all (g ::ₘ N) (s.dropEvents ids) where
  events event hevent := h.events event (List.mem_of_mem_filter hevent)
  listed := h.listed
  safe event hevent key hkey hunder := by
    rcases h.safe event hevent key hkey hunder with ⟨hthere, hunsent⟩ | hjob | hcleanup
    · refine .inl ⟨List.mem_filter.mpr ⟨hthere, decide_eq_true fun hid => ?_⟩, hunsent⟩
      exact hunsent g (Multiset.mem_cons_self _ _) (hsent event hthere hid)
    · exact .inr (.inl hjob)
    · exact .inr (.inr hcleanup)

/-- Statements that reach the events, the bucket and the queue at most through
what the notes tell of them. -/
theorem Guarded.performs {o : MediaOp} {r : MediaRes o} (hall : (all.map EventRow.id).Nodup)
    (h : Guarded all (g ::ₘ N) s) (hpermit : g.Permits o)
    (hintime : ∀ key ∈ o.puts, ∀ event ∈ all, key.pfx = event.pfx → Safe (g ::ₘ N) s event key) :
    Guarded all (g.note ⟨o, (mediaHandler o r s).1⟩ ::ₘ N) (mediaHandler o r s).2 := by
  have hone : ∀ a ∈ all, ∀ b ∈ all, a.id = b.id → a = b := fun a ha b hb =>
    List.inj_on_of_nodup_map hall ha hb
  cases o with
  | getActiveEvent slug =>
    have hsame : (mediaHandler (.getActiveEvent slug) r s).2 = s := by
      cases r with
      | error e => rfl
      | ok _ => cases hevent : s.getBySlug slug <;> simp [mediaHandler, hevent]
    rw [hsame]
    exact h
  | randomUUID => exact h.aside rfl rfl rfl rfl
  | putFile key =>
    cases r with
    | error e => exact h
    | ok _ => exact h.putObject (hintime key rfl)
  | create row =>
    refine h.stated fun s' hs' => ?_
    rcases create_cases (s := s) row with hcreated | ⟨e, hrefused⟩
    · rw [hcreated] at hs'
      cases hs'
      exact ⟨rfl, rfl, rfl, rfl⟩
    · rw [hrefused] at hs'
      cases hs'
  | deleteKeys keys =>
    cases r with
    | error e => exact h
    | ok _ => exact h.removeObjects keys
  | listObjects pfx cursor =>
    obtain ⟨⟨n, hcall⟩, rfl, hrows, -⟩ := hpermit
    cases r with
    | error e => exact h
    | ok _ => exact h.listObjects hcall hrows
  | queue job =>
    cases job with
    | cleanupPrefix pfx => exact h.queuePrefix pfx
    | _ =>
      refine h.frame rfl (fun _ hkey => hkey) fun n pfx hjob => ?_
      exact (List.mem_append.mp hjob).elim
        (fun hjob => List.mem_append_left _ (List.mem_append_left _ hjob))
        (fun hjob => List.mem_append_right _ hjob)
  | downloadToFile key =>
    rw [mediaHandler]
    split <;> exact h
  | upsertExif assetId =>
    refine h.stated fun s' hs' => ?_
    rw [eq_of_onAsset hs']
    exact ⟨rfl, rfl, rfl, rfl⟩
  | updateCapturedAt assetId =>
    refine h.stated fun s' hs' => ?_
    rw [eq_of_onAsset hs']
    exact ⟨rfl, rfl, rfl, rfl⟩
  | upsertFile file =>
    refine h.stated fun s' hs' => ?_
    rw [eq_of_onAsset hs']
    exact ⟨rfl, rfl, rfl, rfl⟩
  | updateProcessed assetId =>
    refine h.stated fun s' hs' => ?_
    rw [eq_of_onAsset hs']
    exact ⟨rfl, rfl, rfl, rfl⟩
  | setStatus assetId status => exact h.aside rfl rfl rfl rfl
  | setThumbnailKey personId key => exact h.aside rfl rfl rfl rfl
  | upsertParticipant dto =>
    rw [mediaHandler, MediaStore.upsertParticipant]
    cases s.participants.find? (fun g =>
        g.eventId = dto.eventId ∧ g.email.toLower = dto.email.toLower ∧ g.deletedAt = none) with
    | some row => exact h.aside rfl rfl rfl rfl
    | none =>
      cases hevent : s.hasEvent dto.eventId with
      | true => exact h.aside rfl rfl rfl rfl
      | false => exact h
  | replaceSelfies participantId keys =>
    refine h.stated fun s' hs' => ?_
    rw [MediaStore.replaceSelfies] at hs'
    split at hs'
    · cases hs'
      exact ⟨rfl, rfl, rfl, rfl⟩
    · cases hs'
  | markItem importItemId status assetId => exact h.aside rfl rfl rfl rfl
  | softDeleteMany eventId ids => exact h.aside rfl rfl rfl rfl
  | deletedEvents cutoff => exact h.listEvents fun event hevent => List.mem_of_mem_filter hevent
  | deleteAssets ids job => exact h.aside rfl rfl rfl rfl
  | deleteEvents ids =>
    obtain ⟨rfl, hsent⟩ := hpermit
    refine h.dropEvents fun event hevent hid => ?_
    obtain ⟨listed, hlisted, hsame⟩ := List.mem_map.mp hid
    rw [← hone listed (h.listed g (Multiset.mem_cons_self _ _) listed hlisted) event
      (h.events event hevent) hsame]
    exact hsent listed hlisted
  | hardDelete orgId eventId =>
    rw [mediaHandler, MediaStore.hardDelete]
    split
    · rename_i hfound
      obtain ⟨found, hmem, hfound⟩ := List.any_eq_true.mp hfound
      obtain ⟨hid, horg⟩ := of_decide_eq_true hfound
      refine h.dropEvents fun event hevent hthis => ?_
      have hsame : event = found := hone event (h.events event hevent) found (h.events found hmem)
        ((List.mem_singleton.mp hthis).trans hid.symm)
      rw [hsame, EventRow.pfx, hid, horg]
      exact hpermit
    · exact h
  | _ => exact h

/-- A cleanup that starts has everything ahead of it. -/
theorem Guarded.starts {c : MediaCall} {fuel : ℕ} (h : Guarded all N s)
    (haccept : (mediaServer fuel).accept c s = some s') :
    Guarded all (Clearing.first c ::ₘ N) s' := by
  have hkept : s'.events = s.events ∧ s'.bucket = s.bucket ∧
      ∀ n pfx, (n, JobItem.cleanupPrefix pfx) ∈ s.jobs ++ s.failed →
        (n, JobItem.cleanupPrefix pfx) ∈ s'.jobs ++ s'.failed ∨
          c = .job n (.cleanupPrefix pfx) := by
    cases c with
    | job m item =>
      simp only [mediaServer] at haccept
      split at haccept
      · cases haccept
        refine ⟨rfl, rfl, fun n pfx hjob => ?_⟩
        by_cases hthis : (n, JobItem.cleanupPrefix pfx) = (m, item)
        · cases hthis
          exact .inr rfl
        · refine .inl ((List.mem_append.mp hjob).elim (fun hjob => List.mem_append_left _ ?_)
            fun hjob => List.mem_append_right _ hjob)
          exact List.mem_filter.mpr ⟨hjob, decide_eq_true hthis⟩
      · cases haccept
    | _ =>
      cases haccept
      exact ⟨rfl, rfl, fun _ _ hjob => .inl hjob⟩
  obtain ⟨hevents, hbucket, hjobs⟩ := hkept
  refine ⟨fun event hevent => h.events event (hevents ▸ hevent), fun x hx => ?_,
    fun event hevent key hkey hunder => ?_⟩
  · rcases Multiset.mem_cons.mp hx with rfl | hx
    · exact fun event hevent => absurd hevent List.not_mem_nil
    · exact h.listed x hx
  · rcases h.safe event hevent key (hbucket ▸ hkey) hunder with ⟨hthere, hunsent⟩ | ⟨n, hjob⟩ |
      ⟨x, hx, hahead⟩
    · refine .inl ⟨hevents ▸ hthere, fun x hx => ?_⟩
      rcases Multiset.mem_cons.mp hx with rfl | hx
      · exact List.not_mem_nil
      · exact hunsent x hx
    · rcases hjobs n event.pfx hjob with hjob | rfl
      · exact .inr (.inl ⟨n, hjob⟩)
      · exact .inr
          (.inr ⟨_, Multiset.mem_cons_self _ _, ⟨n, rfl⟩, .inr ⟨rfl, fun last hlast => by
          cases hlast⟩⟩)
    · exact .inr (.inr ⟨x, Multiset.mem_cons_of_mem hx, hahead⟩)

/-- A cleanup that returns has passed everything, or is tried again or given up. -/
theorem Guarded.leaves {c : MediaCall} {reply : MediaReply} {again : Bool} {fuel : ℕ}
    (h : Guarded all (g ::ₘ N) s) (hcleared : Cleared c reply g)
    (hrelease : (mediaServer fuel).release c reply again s = some s') : Guarded all N s' := by
  obtain ⟨hcall, hdone⟩ := hcleared
  have hkept : s'.events = s.events ∧ s'.bucket = s.bucket ∧
      (∀ n pfx, (n, JobItem.cleanupPrefix pfx) ∈ s.jobs ++ s.failed →
        (n, JobItem.cleanupPrefix pfx) ∈ s'.jobs ++ s'.failed) ∧
      ∀ n pfx, c = .job n (.cleanupPrefix pfx) → reply.fails = true →
        (n, JobItem.cleanupPrefix pfx) ∈ s'.jobs ++ s'.failed := by
    cases c with
    | job m item =>
      simp only [mediaServer] at hrelease
      split at hrelease
      · split at hrelease
        · cases hrelease
          refine ⟨rfl, rfl, fun n pfx hjob => ?_, fun n pfx hsame _ => ?_⟩
          · exact (List.mem_append.mp hjob).elim
              (fun hjob => List.mem_append_left _ (List.mem_append_left _ hjob))
              fun hjob => List.mem_append_right _ hjob
          · cases hsame
            exact List.mem_append_left _ (List.mem_append_right _ (List.mem_singleton.mpr rfl))
        · cases hrelease
          refine ⟨rfl, rfl, fun n pfx hjob => ?_, fun n pfx hsame _ => ?_⟩
          · exact (List.mem_append.mp hjob).elim (fun hjob => List.mem_append_left _ hjob)
              fun hjob => List.mem_append_right _ (List.mem_append_left _ hjob)
          · cases hsame
            exact List.mem_append_right _ (List.mem_append_right _ (List.mem_singleton.mpr rfl))
      · rename_i hfails
        cases hrelease
        exact ⟨rfl, rfl, fun _ _ hjob => hjob, fun _ _ _ hfail => absurd hfail hfails⟩
    | _ =>
      cases hrelease
      exact ⟨rfl, rfl, fun _ _ hjob => hjob, fun _ _ hsame => by cases hsame⟩
  obtain ⟨hevents, hbucket, hjobs, hagain⟩ := hkept
  refine ⟨fun event hevent => h.events event (hevents ▸ hevent),
    fun x hx => h.listed x (Multiset.mem_cons_of_mem hx), fun event hevent key hkey hunder => ?_⟩
  rcases h.safe event hevent key (hbucket ▸ hkey) hunder with ⟨hthere, hunsent⟩ | ⟨n, hjob⟩ |
    ⟨x, hx, ⟨n, hcleanup⟩, hahead⟩
  · exact .inl ⟨hevents ▸ hthere, fun x hx => hunsent x (Multiset.mem_cons_of_mem hx)⟩
  · exact .inr (.inl ⟨n, hjobs n _ hjob⟩)
  · rcases Multiset.mem_cons.mp hx with rfl | hx
    · have hthis := hcall.symm.trans hcleanup
      cases hfails : reply.fails with
      | true => exact .inr (.inl ⟨n, hagain n _ hthis hfails⟩)
      | false =>
        obtain ⟨hended, hrows⟩ := hdone n _ hthis hfails
        rw [hended, hrows] at hahead
        exact absurd (hahead.resolve_left List.not_mem_nil).1 (fun hunended => by cases hunended)
    · exact .inr (.inr ⟨x, hx, ⟨n, hcleanup⟩, hahead⟩)

end Safety

theorem clearing_notes_call (t : MediaThread) :
    (t.notes clearing Clearing.first).call = t.call := by
  have hkept :
    ∀ (past : List MediaEvent) (g : Clearing), (past.foldl clearing.note g).call = g.call := by
    intro past
    induction past with
    | nil => exact fun _ => rfl
    | cons e past ih => exact fun g => (ih _).trans (clearing_call g e)
  exact hkept t.past _

theorem sent_note {g : Clearing} {e : MediaEvent} {pfx : EventPrefix} (h : pfx ∈ (g.note e).sent) :
    pfx ∈ g.sent ∨ e.1 = .queue (.cleanupPrefix pfx) := by
  unfold Clearing.note at h
  split at h
  · rcases List.mem_cons.mp h with rfl | h
    · exact .inr rfl
    · exact .inl h
  all_goals first | exact .inl h | (split at h <;> exact .inl h)

/-- What a call has noted as queued, it has queued. -/
theorem sent_past {t : MediaThread} {pfx : EventPrefix}
    (h : pfx ∈ (t.notes clearing Clearing.first).sent) :
    ∃ e ∈ t.past, e.1 = .queue (.cleanupPrefix pfx) := by
  have hfrom : ∀ (past : List MediaEvent) (g : Clearing), pfx ∈ (past.foldl clearing.note g).sent →
      pfx ∈ g.sent ∨ ∃ e ∈ past, e.1 = .queue (.cleanupPrefix pfx) := by
    intro past
    induction past with
    | nil => exact fun _ h => .inl h
    | cons e past ih =>
      intro g h
      rcases ih _ h with h | ⟨other, hother, hqueued⟩
      · exact (sent_note h).imp_right fun hqueued => ⟨e, List.mem_cons_self, hqueued⟩
      · exact .inr ⟨other, List.mem_cons_of_mem _ hother, hqueued⟩
  exact (hfrom t.past _ h).resolve_left List.not_mem_nil

theorem ahead_note {g : Clearing} {e : MediaEvent} {key : StorageKey} (he : ¬ PassedBy key e)
    (h : g.ended = false ∧ BehindCursor StorageKey.name g.cursor key) :
    (g.note e).ended = false ∧ BehindCursor StorageKey.name (g.note e).cursor key := by
  obtain ⟨o, r⟩ := e
  cases o with
  | listObjects pfx cursor =>
    cases r with
    | error _ => exact h
    | ok page =>
      have hpage : ∃ last, page.next = some last ∧ last.name < key.name := by
        by_contra hnone
        exact he ⟨page, rfl, fun last hnext hlast => hnone ⟨last, hnext, hlast⟩⟩
      obtain ⟨last, hnext, hlast⟩ := hpage
      refine ⟨by rw [Clearing.note, hnext]; rfl, fun other hother => ?_⟩
      cases hnext.symm.trans hother
      exact hlast
  | queue job => cases job <;> exact h
  | deleteKeys keys => cases r <;> exact h
  | _ => exact h

theorem call_of_cleans {c : MediaCall} {pfx : EventPrefix} (h : c.cleans = some pfx) :
    ∃ n, c = .job n (.cleanupPrefix pfx) := by
  unfold MediaCall.cleans at h
  split at h
  · cases h
    exact ⟨_, rfl⟩
  · cases h

/-- A listing that has not gone past the object has it ahead. -/
theorem ahead_past {t : MediaThread} {key : StorageKey} (h : ∀ e ∈ t.past, ¬ PassedBy key e) :
    (t.notes clearing Clearing.first).ended = false ∧
      BehindCursor StorageKey.name (t.notes clearing Clearing.first).cursor key := by
  have hfrom : ∀ (past : List MediaEvent) (g : Clearing), (∀ e ∈ past, ¬ PassedBy key e) →
      g.ended = false ∧ BehindCursor StorageKey.name g.cursor key →
      (past.foldl clearing.note g).ended = false ∧
        BehindCursor StorageKey.name (past.foldl clearing.note g).cursor key := by
    intro past
    induction past with
    | nil => exact fun _ _ h => h
    | cons e past ih =>
      exact fun g h hg =>
        ih _ (fun e' he' => h e' (List.mem_cons_of_mem _ he'))
        (ahead_note (h e List.mem_cons_self) hg)
  exact hfrom t.past _ h ⟨rfl, nofun⟩

/-- What is put in time is safe to be deleted. -/
theorem safe_of_inTime {all : List EventRow} {p : MediaPool} {key : StorageKey} {event : EventRow}
    (hall : (all.map EventRow.id).Nodup)
    (h : Guarded all (notesOf clearing Clearing.first p.threads) p.state)
    (hclean : MediaPool.ToClean p key)
    (hevent : event ∈ all) (hunder : key.pfx = event.pfx) :
    Safe (notesOf clearing Clearing.first p.threads) p.state event key := by
  rcases hclean with ⟨⟨n, item⟩, hjob, hitem⟩ | ⟨t, ht, hcleans, hahead⟩ |
    ⟨⟨there, hthere, hsame⟩, hunsent⟩
  · refine .inr (.inl ⟨n, List.mem_append_left _ ?_⟩)
    rw [← hunder, ← hitem]
    exact hjob
  · refine .inr (.inr ⟨_, mem_notesOf.mpr ⟨t, ht, rfl⟩, ?_, .inr (ahead_past hahead)⟩)
    obtain ⟨n, hcall⟩ := call_of_cleans hcleans
    exact ⟨n, by rw [clearing_notes_call, hcall, hunder]⟩
  · rw [hunder] at hsame hunsent
    have hid : there.id = event.id := congrArg EventPrefix.eventId hsame
    have hone : there = event := List.inj_on_of_nodup_map hall (h.events there hthere) hevent hid
    refine .inl ⟨hone ▸ hthere, fun g hg hsent => ?_⟩
    obtain ⟨t, ht, rfl⟩ := mem_notesOf.mp hg
    obtain ⟨e, he, hqueued⟩ := sent_past hsent
    exact hunsent t ht e he hqueued

theorem guarded_kept (fuel : ℕ) {all : List EventRow} (hall : (all.map EventRow.id).Nodup) :
    Preserves (mediaServer fuel) InTime clearing Clearing.first Cleared (Guarded all) where
  accept _ _ _ _ h haccept := h.starts haccept
  perform p t N o r hnotes h hpermit hintime := by
    refine ⟨trivial, h.performs hall hpermit fun key hkey event hevent hunder => ?_⟩
    rw [← hnotes] at h ⊢
    exact safe_of_inTime hall h (hintime key hkey) hevent hunder
  release _ _ _ _ _ _ _ h hcleared hrelease := h.leaves hcleared hrelease

def uploading : List MediaMove := .start (.uploadAsset 1 partyPhoto) :: mediaPerforms 0 4

/-- The removal, and the cleanup of the prefix. -/
def removing (i : ℕ) : List MediaMove :=
  .start (.remove 2 1 "party") ::
    (mediaPerforms i 3 ++ [.leave i false, .start (.job 0 (.cleanupPrefix party.pfx))] ++
    mediaPerforms i 1 ++ [.leave i false])

/-- The upload has found the event and its quota when the event goes; its object
comes after the cleanup, and its row is refused. -/
def putTooLate : List MediaMove := uploading ++ removing 1 ++ mediaPerforms 0 2 ++ [.leave 0 false]

/-- The event is removed when the object is put; the cleanup comes after it. -/
def putInTime : List MediaMove :=
  uploading ++ .start (.remove 2 1 "party") ::
    (mediaPerforms 1 3 ++ [.leave 1 false] ++ mediaPerforms 0 2 ++
    [.leave 0 false] ++ mediaCall 2 (.job 0 (.cleanupPrefix party.pfx)))

end EventLens.Media
