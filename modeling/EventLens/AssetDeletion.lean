import EventLens.MediaService

/-!
Deleted assets and their objects. A deletion queues the removal of the objects
there are rows for, while jobs of the asset may still put others. Every object
of an asset is its original, has a row, or is owed a row by the job that put
it; so the reconciliation, which runs when those jobs have finished, collects
them all before it drops the asset.
-/

namespace EventLens.Media

open Programs Contract MediaStore
open Ingest (StagedUpload)

def JobItem.assetId? : JobItem → Option ℕ
  | .assetProcess assetId | .videoTranscode assetId => some assetId
  | _ => none

/-- The asset that a call processes or transcodes. -/
def MediaCall.assetId? : MediaCall → Option ℕ
  | .job _ item => item.assetId?
  | _ => none

/-- No put, listing or deletion of objects has failed. -/
def succeeds : MediaEvent → Bool
  | ⟨.putFile _, r⟩ | ⟨.deleteKeys _, r⟩ =>
    match (r : Except MediaError Unit) with
    | .ok _ => true
    | .error _ => false
  | ⟨.listObjects _ _, r⟩ =>
    match (r : Except MediaError (Keyset.Page StorageKey StorageKey)) with
    | .ok _ => true
    | .error _ => false
  | _ => true

/-- No job of an asset is in progress after its grace period. -/
def InGrace (p : MediaPool) : Prop :=
  ∀ t ∈ p.threads, ∀ a ∈ t.call.assetId?, ∀ row ∈ p.state.assets, row.id = a →
    ∀ deletedAt ∈ row.deletedAt, p.state.clock ≤ deletedAt + gracePeriodMs

instance (p : MediaPool) : Decidable (InGrace p) := by
  unfold InGrace
  infer_instance

def Timely (p : MediaPool) (_t : MediaThread) (e : MediaEvent) : Prop :=
    succeeds e = true ∧ InGrace p

instance (p : MediaPool) (t : MediaThread) (e : MediaEvent) : Decidable (Timely p t e) := by
  unfold Timely
  infer_instance

namespace MediaStore

variable (s : MediaStore)

/-- A live asset has this original, or one of its derivatives is there. -/
def Referenced (key : StorageKey) : Prop :=
  ∃ row ∈ s.assets, row.deletedAt = none ∧
    (key = row.storageKey ∨ ∃ f ∈ s.files, f.assetId = row.id ∧ f.storageKey = key)

/-- Each object of an asset has its row, and cleanups are queued for deleted
assets only. -/
structure Tidy : Prop where
  ids : (s.assets.map (fun row => row.id)).Nodup
  below : ∀ row ∈ s.assets, row.id < s.nextUuid
  originals : ∀ row ∈ s.assets, row.storageKey.assetId? = some row.id
  files : ∀ f ∈ s.files, ∃ row ∈ s.assets, row.id = f.assetId ∧
    f = derivative row.toAssetIdentity f.type
  objects : ∀ key ∈ s.bucket, ∀ a ∈ key.assetId?, a < s.nextUuid ∧
    ∀ row ∈ s.assets, row.id = a → key = row.storageKey ∨ ∃ f ∈ s.files, f.storageKey = key
  cleanups :
    ∀ n keys, (n, JobItem.cleanupKeys keys) ∈ s.jobs ++ s.failed → ∀ key ∈ keys, ∀ a ∈ key.assetId?,
    a < s.nextUuid ∧ ∀ row ∈ s.assets, row.id = a → row.deletedAt ≠ none
  reconciled : s.reconciled = []

end MediaStore

/-- The job waits, is in progress or was given up. -/
def MediaPool.hasJob (p : MediaPool) (n : ℕ) : Prop :=
  (∃ item, (n, item) ∈ p.state.jobs ++ p.state.failed) ∨ ∃ t ∈ p.threads, ∃ item,
    t.call = .job n item

/-! What a call has seen and owes. -/

/-- `owed` are the objects put without a row; what is listed for deletion is
read file by file and collected; `left` is what a cleanup has yet to delete. -/
structure Doing where
  call : MediaCall
  asset : Option AssetIdentity := none
  drawn : Option ℕ := none
  owed : List StorageKey := []
  cutoff : Option ℕ := none
  listed : List AssetIdentity := []
  read : List ℕ := []
  collected : List StorageKey := []
  queued : Option ℕ := none
  left : List StorageKey := []

namespace Doing

def first (c : MediaCall) : Doing :=
  { call := c
    left := match c with
      | .job _ (.cleanupKeys keys) => keys
      | _ => [] }

variable (g : Doing)

def put (key : StorageKey) : Doing :=
  if key.assetId?.isSome then { g with owed := g.owed ++ [key] } else g

def without (keys : List StorageKey) : Doing :=
  { g with
    owed := g.owed.filter (fun key => key ∉ keys)
    left := g.left.filter (fun key => key ∉ keys) }

def gather (assetId : ℕ) (files : List FileRow) : Doing :=
  { g with
    read := assetId :: g.read
    collected := g.collected ++ (g.listed.filter (fun ident => ident.id = assetId)).flatMap
      (fun ident => ident.storageKey :: files.map FileRow.storageKey) }

def note (g : Doing) : MediaEvent → Doing
  | ⟨.getByIdUnscoped _, r⟩ =>
    { g with asset := (r : Option AssetRow).map AssetRow.toAssetIdentity }
  | ⟨.randomUUID, r⟩ => { g with drawn := some (r : ℕ) }
  | ⟨.putFile key, r⟩ =>
    match (r : Except MediaError Unit) with
    | .ok _ => g.put key
    | .error _ => g
  | ⟨.create _, r⟩ =>
    match (r : Except MediaError Unit) with
    | .ok _ => { g with drawn := none, owed := [] }
    | .error _ => g
  | ⟨.upsertFile file, r⟩ =>
    match (r : Except MediaError Unit) with
    | .ok _ => { g with owed := g.owed.filter (fun key => key ≠ file.storageKey) }
    | .error _ => { g with owed := [] }
  | ⟨.deleteKeys keys, r⟩ =>
    match (r : Except MediaError Unit) with
    | .ok _ => g.without keys
    | .error _ => g
  | ⟨.now, r⟩ => { g with cutoff := some ((r : ℕ) - gracePeriodMs) }
  | ⟨.softDeleteMany _ _, r⟩ =>
    { g with listed := (r : List AssetRow).map AssetRow.toAssetIdentity }
  | ⟨.deletedAssets _, r⟩ => { g with listed := (r : List AssetRow).map AssetRow.toAssetIdentity }
  | ⟨.getFiles assetId, r⟩ => g.gather assetId (r : List FileRow)
  | ⟨.queue (.cleanupKeys _), r⟩ => { g with queued := some (r : ℕ) }
  | _ => g

/-- The object is of the asset that the call holds, or of the one it brings. -/
def Owns (key : StorageKey) : Prop :=
  ∀ a ∈ key.assetId?, (∃ ident ∈ g.asset, ident.id = a) ∨ g.drawn = some a

def Permits (g : Doing) : MediaOp → Prop
  | .getByIdUnscoped assetId => g.call.assetId? = some assetId ∧ g.owed = []
  | .randomUUID => g.drawn = none ∧ g.owed = []
  | .putFile key => g.Owns key
  | .create row => g.drawn = some row.id ∧ row.storageKey.assetId? = some row.id ∧
      ∀ key ∈ g.owed, key = row.storageKey
  | .upsertFile file => g.drawn = none ∧ ∃ ident ∈ g.asset, ∃ type, file = derivative ident type
  | .deleteKeys keys => ∀ n all, g.call = .job n (.cleanupKeys all) → ∀ key ∈ keys, key ∈ all
  | .now => g.listed = []
  | .softDeleteMany _ _ => g.read = [] ∧ g.collected = [] ∧ g.queued = none ∧ g.cutoff = none
  | .deletedAssets cutoff =>
    g.read = [] ∧ g.collected = [] ∧ g.queued = none ∧ g.cutoff = some cutoff
  | .getFiles _ => g.queued = none
  | .queue (.cleanupKeys keys) => (∀ key, key ∈ keys ↔ key ∈ g.collected)
  | .deleteAssets ids job =>
    ids = g.listed.map AssetIdentity.id ∧ g.queued = some job ∧ g.cutoff ≠ none ∧
      ∀ ident ∈ g.listed, ident.id ∈ g.read
  | _ => True

end Doing

/-- Rows of one id are rows of one asset. -/
def consistent : MediaEvent → Prop
  | ⟨.softDeleteMany _ _, r⟩ | ⟨.deletedAssets _, r⟩ =>
    ∀ a ∈ (r : List AssetRow), ∀ b ∈ (r : List AssetRow), a.id = b.id →
      a.toAssetIdentity = b.toAssetIdentity
  | _ => True

def doing : Contract MediaOp MediaRes Doing where
  note := Doing.note
  expects _ e := succeeds e = true ∧ consistent e
  permits := Doing.Permits

/-- What holds of a call that returns. -/
def Finished (c : MediaCall) (reply : MediaReply) (g : Doing) : Prop :=
  g.call = c ∧ g.left = [] ∧ (∀ key ∈ g.owed, key.assetId? = g.drawn) ∧
    ∀ n keys, c = .job n (.cleanupKeys keys) → reply.fails = false

/-! Each call follows the contract. -/

section Follows

variable {α β : Type} {g : Doing} {c : MediaCall}

/-- Operations that leave the notes as they are. -/
def MediaOp.quiet : MediaOp → Bool
  | .getByIdUnscoped _ | .randomUUID | .putFile _ | .create _ | .upsertFile _ | .deleteKeys _ | .now
  | .softDeleteMany _ _ | .deletedAssets _ | .getFiles _ | .queue (.cleanupKeys _) |
    .deleteAssets _ _ => false
  | _ => true

theorem quiet_spec {o : MediaOp} (h : o.quiet = true) :
    g.Permits o ∧ ∀ r, g.note ⟨o, r⟩ = g := by
  cases o with
  | queue job =>
    cases job with
    | cleanupKeys keys => cases h
    | _ => exact ⟨trivial, fun _ => rfl⟩
  | _ => first | exact ⟨trivial, fun _ => rfl⟩ | cases h

theorem follows_quiet {p : MediaProg α} (h : p.Avoids (fun o => o.quiet = false)) :
    doing.Follows p (fun _ g' => g' = g) g := by
  induction p with
  | done value => rfl
  | perform o next ih =>
    have hquiet : o.quiet = true := eq_true_of_ne_false h.1
    obtain ⟨hpermit, hnote⟩ := quiet_spec (g := g) hquiet
    refine ⟨hpermit, fun r _ => ?_⟩
    change doing.Follows (next r) _ (g.note ⟨o, r⟩)
    rw [hnote]
    exact ih r (h.2 r)

/-- A quiet part of an attempt, and what comes after it. -/
theorem follows_after {p : Attempt α} {f : α → Attempt β} {Q : Except MediaError β → Doing → Prop}
    (hp : p.run.Avoids (fun o => o.quiet = false)) (hok : ∀ a, doing.Follows (f a).run Q g)
    (herror : ∀ e, Q (.error e) g) : doing.Follows (p >>= f).run Q g := by
  refine (follows_attempt _ _ _ _ _).mpr (follows_mono _ ?_ _ _ (follows_quiet hp))
  intro r g' hg
  subst hg
  cases r with
  | ok a => exact hok a
  | error e => exact herror e

theorem quiet_queueAll {jobs : List JobItem} (h : ∀ job ∈ jobs, (MediaOp.queue job).quiet = true) :
    (queueAll jobs).Avoids (fun o => o.quiet = false) := by
  induction jobs with
  | nil => trivial
  | cons job jobs ih =>
    refine ⟨fun hloud => ?_, fun _ => ih fun j hj => h j (List.mem_cons_of_mem _ hj)⟩
    exact Bool.false_ne_true (Eq.trans (Eq.symm hloud) (h job List.mem_cons_self))

theorem quiet_inspect (asset : AssetRow) :
    (inspect asset).run.Avoids (fun o => o.quiet = false) := by
  rw [inspect]
  split
  · refine ⟨by decide, fun r => ?_⟩
    cases r with
    | error e => trivial
    | ok _ => exact ⟨by decide, fun _ => trivial⟩
  · refine ⟨by decide, fun r => ?_⟩
    cases r with
    | error e => trivial
    | ok _ =>
      refine ⟨by decide, fun r => ?_⟩
      cases r with
      | error e => trivial
      | ok captured =>
        refine ⟨fun hloud => Bool.false_ne_true (Eq.symm hloud), fun r => ?_⟩
        cases r with
        | error e => trivial
        | ok _ =>
          cases captured with
          | false => trivial
          | true => exact ⟨fun hloud => Bool.false_ne_true (Eq.symm hloud), fun _ => trivial⟩

/-- Nothing is owed or left to delete. -/
def Doing.Settled (g : Doing) (c : MediaCall) : Prop := g.call = c ∧ g.owed = [] ∧ g.left = []

theorem finished_of_settled {reply : MediaReply} (h : g.Settled c)
    (hc : ∀ n keys, c ≠ .job n (.cleanupKeys keys)) :
    Finished c reply g := by
  obtain ⟨rfl, howed, hleft⟩ := h
  refine ⟨rfl, hleft, fun key hkey => ?_, fun n keys hcall => absurd hcall (hc n keys)⟩
  rw [howed] at hkey
  cases hkey

theorem quiet_work (task : MediaWork) : (work task).run.Avoids (fun o => o.quiet = false) :=
  ⟨fun hloud => Bool.false_ne_true (Eq.symm hloud), fun _ => trivial⟩

theorem quiet_downloadToFile (key : StorageKey) :
    (downloadToFile key).run.Avoids (fun o => o.quiet = false) :=
  ⟨fun hloud => Bool.false_ne_true (Eq.symm hloud), fun _ => trivial⟩

theorem owns_derivative {ident : AssetIdentity} (h : g.asset = some ident) (type : AssetFileType) :
    g.Owns (derivativeKey ident type) := by
  intro a ha
  refine .inl ⟨ident, h, ?_⟩
  cases type <;> exact Option.some.inj ha

/-- The row of the last object still owed, or the database's refusal. -/
theorem upsertFile_follows {ident : AssetIdentity} (hdrawn : g.drawn = none)
    (h : g.asset = some ident)
    (type : AssetFileType) {f : Unit → Attempt α} {Q : Except MediaError α → Doing → Prop}
    (hok : doing.Follows (f ()).run Q
      { g with owed := g.owed.filter (fun key => key ≠ derivativeKey ident type) })
    (herror : ∀ e, Q (.error e) { g with owed := [] }) :
    doing.Follows (upsertFile (derivative ident type) >>= f).run Q g := by
  refine ⟨⟨hdrawn, ident, h, type, rfl⟩, fun r _ => ?_⟩
  cases r with
  | error e => exact herror e
  | ok _ => exact hok

theorem owns_put {key other : StorageKey} (h : g.Owns key) : (g.put other).Owns key := by
  rw [Doing.put]
  split
  · exact h
  · exact h

theorem putAll_follows {keys : List StorageKey} (howns : ∀ key ∈ keys, g.Owns key) :
    doing.Follows (putAll keys).run (fun r g' => r = .ok () ∧ g' = keys.foldl Doing.put g) g := by
  induction keys generalizing g with
  | nil => exact ⟨rfl, rfl⟩
  | cons key keys ih =>
    refine ⟨howns key List.mem_cons_self, fun r hr => ?_⟩
    cases r with
    | error e => cases hr.1
    | ok _ =>
      have hrest : ∀ k ∈ keys, (g.put key).Owns k :=
        fun k hk => owns_put (howns k (List.mem_cons_of_mem _ hk))
      change doing.Follows
        ((putAll keys).run >>= fun rest => pure (Except.bind (.ok ()) fun _ => rest)) _ (g.put key)
      refine (follows_bind _ _ _ _ _).mpr (follows_mono _ ?_ _ _ (ih hrest))
      intro r g' hg
      obtain ⟨rfl, rfl⟩ := hg
      exact ⟨rfl, rfl⟩

/-- Objects are put, and what comes after that. -/
theorem follows_putAll {keys : List StorageKey} {f : Unit → Attempt α}
    {Q : Except MediaError α → Doing → Prop}
    (howns : ∀ key ∈ keys, g.Owns key) (hok : doing.Follows (f ()).run Q (keys.foldl Doing.put g)) :
    doing.Follows (putAll keys >>= f).run Q g := by
  refine (follows_attempt _ _ _ _ _).mpr (follows_mono _ ?_ _ _ (putAll_follows howns))
  intro r g' hg
  obtain ⟨rfl, rfl⟩ := hg
  exact hok

theorem processAsset_follows {asset : AssetRow} (hasset : g.asset = some asset.toAssetIdentity)
    (hdrawn : g.drawn = none) (h : g.Settled c) :
    doing.Follows (processAsset asset).run (fun _ g' => g'.Settled c) g := by
  obtain ⟨hcall, howed, hleft⟩ := h
  rw [processAsset]
  refine follows_after (quiet_downloadToFile _) (fun _ => ?_) (fun e => ⟨hcall, howed, hleft⟩)
  refine follows_after (quiet_inspect asset) (fun _ => ?_) (fun e => ⟨hcall, howed, hleft⟩)
  refine follows_after (quiet_work _) (fun _ => ?_) (fun e => ⟨hcall, howed, hleft⟩)
  refine follows_after (quiet_work _) (fun _ => ?_) (fun e => ⟨hcall, howed, hleft⟩)
  refine follows_after (quiet_work _) (fun _ => ?_) (fun e => ⟨hcall, howed, hleft⟩)
  refine follows_after (quiet_work _) (fun _ => ?_) (fun e => ⟨hcall, howed, hleft⟩)
  refine follows_putAll (fun key hkey => ?_) ?_
  · rcases List.mem_cons.mp hkey with rfl | hkey
    · exact owns_derivative hasset .preview
    · rw [List.mem_singleton.mp hkey]
      exact owns_derivative hasset .thumbnail
  change doing.Follows _ _ { g with owed :=
    (g.owed ++ [derivativeKey asset.toAssetIdentity .preview]) ++
    [derivativeKey asset.toAssetIdentity .thumbnail] }
  rw [howed]
  refine upsertFile_follows (by exact hdrawn)
    (by exact hasset) .preview ?_ (fun e => ⟨hcall, rfl, hleft⟩)
  refine upsertFile_follows (by exact hdrawn)
    (by exact hasset) .thumbnail ?_ (fun e => ⟨hcall, rfl, hleft⟩)
  have hnone : (([] ++ [derivativeKey asset.toAssetIdentity .preview] ++
      [derivativeKey asset.toAssetIdentity .thumbnail]).filter
        (fun key => key ≠ derivativeKey asset.toAssetIdentity .preview)).filter
        (fun key => key ≠ derivativeKey asset.toAssetIdentity .thumbnail) = [] := by
    simp
  rw [hnone]
  refine follows_after ⟨fun hloud => Bool.false_ne_true (Eq.symm hloud), fun _ => trivial⟩
    (fun _ => ?_)
    (fun e => ⟨hcall, rfl, hleft⟩)
  have hjobs : (queueAll ([.faceDetect asset.id, .smartSearch asset.id] ++
      if asset.type = .video then [.videoTranscode asset.id] else [])).Avoids (fun o =>
        o.quiet = false) := by
    refine quiet_queueAll fun job hjob => ?_
    split at hjob
    · simp only [List.cons_append, List.nil_append, List.mem_cons, List.not_mem_nil,
        or_false] at hjob
      rcases hjob with rfl | rfl | rfl <;> rfl
    · simp only [List.append_nil, List.mem_cons, List.not_mem_nil, or_false] at hjob
      rcases hjob with rfl | rfl <;> rfl
  have hlifted :=
    Prog.avoids_bind hjobs (f :=
    fun a => Prog.done (Except.ok (ε := MediaError) a)) fun _ => trivial
  refine follows_mono _ (fun r g' hg => ?_) _ _ (follows_quiet hlifted)
  subst hg
  exact ⟨hcall, rfl, hleft⟩

theorem handleAssetProcess_follows {assetId : ℕ} (h : g.Settled c) (hdrawn : g.drawn = none)
    (hc : c.assetId? = some assetId) :
    doing.Follows (handleAssetProcess assetId) (fun _ g' => g'.Settled c) g := by
  obtain ⟨rfl, howed, hleft⟩ := h
  refine ⟨⟨hc, howed⟩, fun r _ => ?_⟩
  cases r with
  | none => exact ⟨rfl, howed, hleft⟩
  | some asset =>
    have hheld : { g with asset := some asset.toAssetIdentity }.Settled g.call :=
      ⟨rfl, howed, hleft⟩
    change doing.Follows ((processAsset asset).run >>= _)
      _ { g with asset := some asset.toAssetIdentity }
    refine follows_seq _ (processAsset_follows rfl hdrawn hheld) fun r g' hg => ?_
    cases r with
    | ok _ => exact hg
    | error e => exact ⟨trivial, fun _ _ => hg⟩

theorem handleVideoTranscode_follows {assetId : ℕ} (h : g.Settled c) (hdrawn : g.drawn = none)
    (hc : c.assetId? = some assetId) :
    doing.Follows (handleVideoTranscode assetId) (fun _ g' => g'.Settled c) g := by
  obtain ⟨rfl, howed, hleft⟩ := h
  refine ⟨⟨hc, howed⟩, fun r _ => ?_⟩
  cases r with
  | none => exact ⟨rfl, howed, hleft⟩
  | some asset =>
    change doing.Follows (if asset.type ≠ .video then pure JobStatus.skipped else _) _ _
    split
    · exact ⟨rfl, howed, hleft⟩
    refine follows_seq _ (R := fun _ g' => g'.Settled g.call) ?_ fun r g' hg => ?_
    · rw [transcodeVideo]
      refine follows_after (quiet_downloadToFile _) (fun _ => ?_) (fun e => ⟨rfl, howed, hleft⟩)
      refine follows_after (quiet_work _) (fun _ => ?_) (fun e => ⟨rfl, howed, hleft⟩)
      refine ⟨owns_derivative (by rfl) .encodedVideo, fun r hr => ?_⟩
      cases r with
      | error e => cases hr.1
      | ok _ =>
        change doing.Follows _ _ { g with
          asset := some asset.toAssetIdentity
          owed := g.owed ++ [derivativeKey asset.toAssetIdentity .encodedVideo] }
        rw [howed]
        refine ⟨⟨hdrawn, asset.toAssetIdentity, rfl, .encodedVideo, rfl⟩, fun r _ => ?_⟩
        cases r with
        | error e => exact ⟨rfl, rfl, hleft⟩
        | ok _ =>
          refine ⟨rfl, ?_, hleft⟩
          change ([] ++ [derivativeKey asset.toAssetIdentity .encodedVideo]).filter
            (fun key => key ≠ derivativeKey asset.toAssetIdentity .encodedVideo) = []
          simp
    · cases r with
      | ok _ => exact hg
      | error e => exact hg

/-- Pictures of people and participants are owed no row. -/
theorem put_other {k : StorageKey} (h : k.assetId? = none) : g.Owns k ∧ g.put k = g := by
  refine ⟨fun a ha => ?_, ?_⟩
  · rw [h] at ha
    cases ha
  · rw [Doing.put, h]
    rfl

theorem handlePersonThumbnail_follows (personId : ℕ) (h : g.Settled c) (hqueued : g.queued = none) :
    doing.Follows (handlePersonThumbnail personId).run (fun _ g' => g'.Settled c) g := by
  refine ⟨trivial, fun r _ => ?_⟩
  cases r with
  | none => exact h
  | some data =>
    obtain ⟨person, asset⟩ := data
    refine ⟨hqueued, fun files _ => ?_⟩
    have hgathered : (g.gather asset.id files).Settled c := h
    refine follows_after (g := g.gather asset.id files) (quiet_downloadToFile _) (fun _ => ?_)
      (fun e => hgathered)
    refine follows_after (quiet_work _) (fun _ => ?_) (fun e => hgathered)
    refine follows_after (quiet_work _) (fun _ => ?_) (fun e => hgathered)
    have hother := put_other (g := g.gather asset.id files)
      (k := StorageKeys.person person.orgId person.eventId personId) rfl
    refine ⟨hother.1, fun r hr => ?_⟩
    cases r with
    | error e => cases hr.1
    | ok _ =>
      refine ⟨trivial, fun _ _ => ?_⟩
      change ((g.gather asset.id files).put _).Settled c
      rw [hother.2]
      exact hgathered

/-- What is still owed a row is of the asset that the call brings. -/
def Doing.Resting (g : Doing) (c : MediaCall) : Prop :=
  g.call = c ∧ g.left = [] ∧ ∀ key ∈ g.owed, key.assetId? = g.drawn

theorem resting_of_settled (h : g.Settled c) : g.Resting c := by
  obtain ⟨hcall, howed, hleft⟩ := h
  refine ⟨hcall, hleft, fun key hkey => ?_⟩
  rw [howed] at hkey
  cases hkey

theorem finished_of_resting {reply : MediaReply} (h : g.Resting c)
    (hc : ∀ n keys, c ≠ .job n (.cleanupKeys keys)) :
    Finished c reply g := by
  obtain ⟨rfl, hleft, howed⟩ := h
  exact ⟨rfl, hleft, howed, fun n keys hcall => absurd hcall (hc n keys)⟩

theorem without_nil : g.without [] = g := by
  simp [Doing.without]

theorem without_append (keys others : List StorageKey) :
    (g.without keys).without others = g.without (keys ++ others) := by
  simp only [Doing.without, List.filter_filter, List.mem_append, not_or, Bool.decide_and]
  congr 1 <;> refine List.filter_congr fun key _ => Bool.and_comm _ _

theorem deleteBatches_follows (n : ℕ) {keys : List StorageKey}
    (hpermit : ∀ k all, g.call = .job k (.cleanupKeys all) → ∀ key ∈ keys, key ∈ all) :
    doing.Follows (deleteBatches n keys).run
      (fun r g' => r = .ok () ∧ ∃ gone, g' = g.without gone ∧
      (keys.length ≤ n → ∀ key ∈ keys, key ∈ gone)) g := by
  induction n generalizing keys g with
  | zero =>
    refine ⟨rfl, [], without_nil.symm, fun hlength key hkey => ?_⟩
    rw [List.eq_nil_of_length_eq_zero (Nat.le_zero.mp hlength)] at hkey
    cases hkey
  | succ n ih =>
    rw [deleteBatches]
    split
    · rename_i hnil
      refine ⟨rfl, [], without_nil.symm, fun _ key hkey => ?_⟩
      rw [hnil] at hkey
      cases hkey
    · rename_i hsome
      have htake :
        ∀ k all, g.call = .job k (.cleanupKeys all) → ∀ key ∈ keys.take deleteBatch, key ∈ all :=
        fun k all hcall key hkey => hpermit k all hcall key (List.mem_of_mem_take hkey)
      refine ⟨htake, fun r hr => ?_⟩
      cases r with
      | error e => cases hr.1
      | ok _ =>
        have hdrop : ∀ k all, (g.without (keys.take deleteBatch)).call = .job k (.cleanupKeys all) →
            ∀ key ∈ keys.drop deleteBatch, key ∈ all :=
          fun k all hcall key hkey => hpermit k all hcall key (List.mem_of_mem_drop hkey)
        refine follows_mono _ (fun r g' hg => ?_) _ _ (ih hdrop)
        obtain ⟨rfl, gone, rfl, hgone⟩ := hg
        refine ⟨rfl, keys.take deleteBatch ++ gone, without_append _ _, fun hlength key hkey => ?_⟩
        have hsplit : key ∈ keys.take deleteBatch ++ keys.drop deleteBatch := by
          rw [List.take_append_drop]
          exact hkey
        rcases List.mem_append.mp hsplit with hfirst | hrest
        · exact List.mem_append_left _ hfirst
        · refine List.mem_append_right _ (hgone ?_ key hrest)
          rw [List.length_drop, deleteBatch]
          omega

theorem deleteKeys_follows {keys : List StorageKey}
    (hpermit : ∀ k all, g.call = .job k (.cleanupKeys all) → ∀ key ∈ keys, key ∈ all) :
    doing.Follows (deleteKeys keys).run
      (fun r g' => r = .ok () ∧ ∃ gone, g' = g.without gone ∧ ∀ key ∈ keys, key ∈ gone) g := by
  refine follows_mono _ (fun r g' hg => ?_) _ _ (deleteBatches_follows keys.length hpermit)
  obtain ⟨hr, gone, hg', hgone⟩ := hg
  exact ⟨hr, gone, hg', hgone le_rfl⟩

theorem handleCleanupKeys_follows {n : ℕ} {keys : List StorageKey}
    (hcall : g.call = .job n (.cleanupKeys keys))
    (howed : g.owed = []) (hleft : g.left = keys) :
    doing.Follows (handleCleanupKeys keys).run
      (fun r g' => (∃ status, r = .ok status ∧ status ≠ .failed) ∧
      g'.Settled (.job n (.cleanupKeys keys))) g := by
  rw [handleCleanupKeys]
  split
  · rename_i hnil
    exact ⟨⟨.skipped, rfl, by decide⟩, hcall, howed, hleft.trans hnil⟩
  · have hpermit : ∀ k all, g.call = .job k (.cleanupKeys all) → ∀ key ∈ keys, key ∈ all := by
      intro k all hcall' key hkey
      rw [hcall] at hcall'
      cases hcall'
      exact hkey
    refine (follows_attempt _ _ _ _ _).mpr (follows_mono _ ?_ _ _ (deleteKeys_follows hpermit))
    intro r g' hg
    obtain ⟨rfl, gone, rfl, hgone⟩ := hg
    refine ⟨⟨.success, rfl, by decide⟩, hcall, ?_, ?_⟩
    · change g.owed.filter _ = []
      rw [howed]
      rfl
    · change g.left.filter _ = []
      rw [hleft]
      exact List.filter_eq_nil_iff.mpr fun key hkey hkept =>
        of_decide_eq_true hkept (hgone key hkey)

theorem settled_without (h : g.Settled c) (gone : List StorageKey) :
    (g.without gone).Settled c := by
  obtain ⟨hcall, howed, hleft⟩ := h
  refine ⟨hcall, ?_, ?_⟩
  · change g.owed.filter _ = []
    rw [howed]
    rfl
  · change g.left.filter _ = []
    rw [hleft]
    rfl

theorem deletePrefix_follows (pfx : EventPrefix) (fuel : ℕ) {cursor : Option StorageKey}
    (h : g.Settled c)
    (hc : ∀ n keys, c ≠ .job n (.cleanupKeys keys)) :
    doing.Follows (deletePrefix pfx fuel cursor).run (fun _ g' => g'.Settled c) g := by
  induction fuel generalizing cursor g with
  | zero => exact h
  | succ fuel ih =>
    refine ⟨trivial, fun r hr => ?_⟩
    cases r with
    | error e => cases hr.1
    | ok page =>
      have hpermit : ∀ k all, g.call = .job k (.cleanupKeys all) → ∀ key ∈ page.rows, key ∈ all :=
        fun k all hcall => absurd (h.1.symm.trans hcall) (hc k all)
      refine (follows_attempt _ _ _ _ _).mpr (follows_mono _ ?_ _ _ (deleteKeys_follows hpermit))
      intro r g' hg
      obtain ⟨rfl, gone, rfl, -⟩ := hg
      have hgone := settled_without h gone
      cases page.next with
      | none => exact hgone
      | some last => exact ih hgone

theorem storeRow_follows {row : AssetRow} (hcall : g.call = c)
    (hc : ∀ n keys, c ≠ .job n (.cleanupKeys keys))
    (hleft : g.left = []) (hdrawn : g.drawn = some row.id)
    (hkey : row.storageKey.assetId? = some row.id)
    (howed : g.owed = [row.storageKey]) :
    doing.Follows (storeRow row).run (fun _ g' => g'.Resting c) g := by
  have hone : ∀ key ∈ g.owed, key = row.storageKey := by
    intro key hmem
    rw [howed] at hmem
    exact List.mem_singleton.mp hmem
  have hresting : g.Resting c := ⟨hcall, hleft, fun key hmem => by rw [hone key hmem, hkey, hdrawn]⟩
  refine ⟨⟨hdrawn, hkey, hone⟩, fun r _ => ?_⟩
  cases r with
  | ok _ => exact resting_of_settled ⟨hcall, rfl, hleft⟩
  | error e =>
    cases e with
    | checksumConstraint text =>
      have hpermit :
        ∀ k all, g.call = .job k (.cleanupKeys all) → ∀ key ∈ [row.storageKey], key ∈ all :=
        fun k all hcall' => absurd (hcall.symm.trans hcall') (hc k all)
      change doing.Follows
        ((deleteKeys [row.storageKey]).run >>=
        fun _ => pure (Except.ok (ε := MediaError) false)) _ g
      refine follows_seq _ (deleteKeys_follows hpermit) fun r g' hg => ?_
      obtain ⟨-, gone, rfl, hgone⟩ := hg
      refine resting_of_settled ⟨hcall, ?_, ?_⟩
      · change g.owed.filter _ = []
        exact List.filter_eq_nil_iff.mpr fun key hmem hkept =>
          of_decide_eq_true hkept (hone key hmem ▸ hgone _ (List.mem_singleton.mpr rfl))
      · change g.left.filter _ = []
        rw [hleft]
        rfl
    | _ => exact hresting

theorem put_original {k : StorageKey} {a : ℕ} (hkey : k.assetId? = some a)
    (hdrawn : g.drawn = some a) :
    g.Owns k ∧ g.put k = { g with owed := g.owed ++ [k] } := by
  refine ⟨fun b hb => ?_, ?_⟩
  · rw [hkey] at hb
    cases hb
    exact .inr hdrawn
  · rw [Doing.put, hkey]
    rfl

theorem uploadAsset_follows (eventId : ℕ) (staged : StagedUpload) (h : g.Settled c)
    (hdrawn : g.drawn = none)
    (hc : ∀ n keys, c ≠ .job n (.cleanupKeys keys)) :
    doing.Follows (uploadAsset eventId staged).run (fun _ g' => g'.Resting c) g := by
  have hresting := resting_of_settled h
  refine ⟨trivial, fun event _ => ?_⟩
  cases event with
  | none => exact hresting
  | some event =>
    refine ⟨trivial, fun existing _ => ?_⟩
    cases existing with
    | some existing => exact hresting
    | none =>
      refine ⟨trivial, fun r _ => ?_⟩
      cases r with
      | error e => exact hresting
      | ok _ =>
        refine ⟨⟨hdrawn, h.2.1⟩, fun assetId _ => ?_⟩
        have hput := put_original (g := { g with drawn := some (assetId : ℕ) })
          (k := (uploadedRow event eventId staged assetId).storageKey) rfl rfl
        refine ⟨hput.1, fun r hr => ?_⟩
        cases r with
        | error e => cases hr.1
        | ok _ =>
          change doing.Follows
            (ExceptT.run (storeRow (uploadedRow event eventId staged assetId) >>= _)) _
            ({ g with drawn := some (assetId : ℕ) }.put
              (uploadedRow event eventId staged assetId).storageKey)
          rw [hput.2, h.2.1]
          refine (follows_attempt _ _ _ _ _).mpr (follows_mono _ ?_ _ _
            (storeRow_follows h.1 hc h.2.2 rfl rfl rfl))
          intro r g' hg
          cases r with
          | error e => exact hg
          | ok won =>
            cases won with
            | true => exact ⟨trivial, fun _ _ => hg⟩
            | false =>
              refine ⟨trivial, fun winner _ => ?_⟩
              cases winner with
              | none => exact hg
              | some winner => exact hg

theorem importFile_follows (item : ImportItem) (h : g.Settled c) (hdrawn : g.drawn = none)
    (hc : ∀ n keys, c ≠ .job n (.cleanupKeys keys)) :
    doing.Follows (importFile item).run (fun _ g' => g'.Resting c) g := by
  have hresting := resting_of_settled h
  refine ⟨trivial, fun _ _ => ⟨trivial, fun r _ => ?_⟩⟩
  cases r with
  | error e => exact hresting
  | ok fetched =>
    obtain ⟨checksum, size⟩ := fetched
    refine ⟨trivial, fun existing _ => ?_⟩
    cases existing with
    | some existing => exact ⟨trivial, fun _ _ => hresting⟩
    | none =>
      refine ⟨⟨hdrawn, h.2.1⟩, fun assetId _ => ?_⟩
      have hput := put_original (g := { g with drawn := some (assetId : ℕ) })
        (k := (importedRow item checksum size assetId).storageKey) rfl rfl
      refine ⟨hput.1, fun r hr => ?_⟩
      cases r with
      | error e => cases hr.1
      | ok _ =>
        change doing.Follows
          (ExceptT.run (storeRow (importedRow item checksum size assetId) >>= _)) _
          ({ g with drawn := some (assetId : ℕ) }.put
            (importedRow item checksum size assetId).storageKey)
        rw [hput.2, h.2.1]
        refine (follows_attempt _ _ _ _ _).mpr (follows_mono _ ?_ _ _
          (storeRow_follows h.1 hc h.2.2 rfl rfl rfl))
        intro r g' hg
        cases r with
        | error e => exact hg
        | ok won =>
          cases won with
          | true => exact ⟨trivial, fun _ _ => ⟨trivial, fun _ _ => hg⟩⟩
          | false => exact ⟨trivial, fun _ _ => ⟨trivial, fun _ _ => hg⟩⟩

theorem handleImportFile_follows (importItemId : ℕ) (h : g.Settled c) (hdrawn : g.drawn = none)
    (hc : ∀ n keys, c ≠ .job n (.cleanupKeys keys)) :
    doing.Follows (handleImportFile importItemId) (fun _ g' => g'.Resting c) g := by
  refine ⟨trivial, fun item _ => ?_⟩
  cases item with
  | none => exact resting_of_settled h
  | some item =>
    change doing.Follows (if item.status ≠ .pending ∨
      item.cancelled = true then pure JobStatus.skipped else _) _ g
    split
    · exact resting_of_settled h
    refine follows_seq _ (importFile_follows item h hdrawn hc) fun r g' hg => ?_
    cases r with
    | ok status => exact hg
    | error e => cases e <;> exact ⟨trivial, fun _ _ => hg⟩

theorem foldl_put_others {keys : List StorageKey} (h : ∀ key ∈ keys, key.assetId? = none) :
    keys.foldl Doing.put g = g := by
  induction keys with
  | nil => rfl
  | cons key keys ih =>
    rw [List.foldl_cons, (put_other (h key List.mem_cons_self)).2]
    exact ih fun k hk => h k (List.mem_cons_of_mem _ hk)

theorem storeSelfies_follows (dto : Submission) (event : EventRow) (h : g.Settled c)
    (hdrawn : g.drawn = none) :
    doing.Follows (storeSelfies dto event).run (fun _ g' => g'.Settled c) g := by
  refine ⟨⟨hdrawn, h.2.1⟩, fun uuid _ => ?_⟩
  have hkeys : ∀ key ∈ (List.range dto.staged.length).map
      (fun index => StorageKeys.selfie event.orgId event.id uuid index), key.assetId? = none := by
    intro key hkey
    obtain ⟨index, -, rfl⟩ := List.mem_map.mp hkey
    rfl
  have hdrew : { g with drawn := some (uuid : ℕ) }.Settled c := h
  change doing.Follows (ExceptT.run (putAll _ >>= _)) _ { g with drawn := some (uuid : ℕ) }
  refine follows_putAll (fun key hkey => (put_other (hkeys key hkey)).1) ?_
  rw [foldl_put_others hkeys]
  refine ⟨trivial, fun r _ => ?_⟩
  cases r with
  | error e => exact hdrew
  | ok participantId =>
    refine ⟨trivial, fun r _ => ?_⟩
    cases r with
    | error e => exact hdrew
    | ok _ => exact ⟨trivial, fun _ _ => ⟨trivial, fun _ _ => hdrew⟩⟩

theorem submitSelfie_follows (dto : Submission) (h : g.Settled c) (hdrawn : g.drawn = none) :
    doing.Follows (submitSelfie dto).run (fun _ g' => g'.Settled c) g := by
  rw [submitSelfie]
  split
  · exact h
  · refine ⟨trivial, fun event _ => ?_⟩
    cases event with
    | error e => exact h
    | ok event =>
      refine ⟨trivial, fun byIp _ => ?_⟩
      cases byIp with
      | false => exact h
      | true =>
        refine ⟨trivial, fun byEmail _ => ?_⟩
        cases byEmail with
        | false => exact h
        | true => exact storeSelfies_follows dto event h hdrawn

/-- The assets are read one by one, and what was read of them is collected. -/
theorem collectKeys_follows {assets : List AssetRow} (hqueued : g.queued = none)
    (hlisted : ∀ a ∈ assets, a.toAssetIdentity ∈ g.listed)
    (hsame : ∀ i ∈ g.listed, ∀ j ∈ g.listed, i.id = j.id → i = j) :
    doing.Follows (collectKeys assets)
      (fun keys g' => ∃ read more, g' = { g with read := read, collected := g.collected ++ more } ∧
        (∀ key, key ∈ keys ↔ key ∈ more) ∧ (∀ a ∈ assets, a.id ∈ read) ∧
        ∀ id ∈ g.read, id ∈ read) g := by
  induction assets generalizing g with
  | nil => exact ⟨g.read, [], by simp, by simp, by simp, fun _ h => h⟩
  | cons asset assets ih =>
    refine ⟨hqueued, fun files _ => ?_⟩
    have hrest := ih (g := g.gather asset.id files) hqueued
      (fun a ha => hlisted a (List.mem_cons_of_mem _ ha)) hsame
    change doing.Follows (collectKeys assets >>= _) _ (g.gather asset.id files)
    refine follows_seq _ hrest fun keys g' hg => ?_
    obtain ⟨read, more, rfl, hkeys, hread, hkept⟩ := hg
    have hhere := hlisted asset List.mem_cons_self
    refine ⟨read, (g.listed.filter (fun ident => ident.id = asset.id)).flatMap
      (fun ident => ident.storageKey :: (files : List FileRow).map FileRow.storageKey) ++ more,
      by simp only [Doing.gather, List.append_assoc], fun key => ?_, fun a ha => ?_,
        fun id hid => ?_⟩
    · rw [List.mem_append, List.mem_append, hkeys key]
      refine or_congr_left ⟨fun hkey => ?_, fun hkey => ?_⟩
      · exact List.mem_flatMap.mpr ⟨asset.toAssetIdentity,
          List.mem_filter.mpr ⟨hhere, decide_eq_true rfl⟩, hkey⟩
      · obtain ⟨ident, hident, hkey⟩ := List.mem_flatMap.mp hkey
        obtain ⟨hmem, hid⟩ := List.mem_filter.mp hident
        rw [hsame ident hmem _ hhere (of_decide_eq_true hid)] at hkey
        exact hkey
    · rcases List.mem_cons.mp ha with rfl | ha
      · exact hkept _ List.mem_cons_self
      · exact hread a ha
    · exact hkept id (List.mem_cons_of_mem _ hid)

theorem deleteMany_follows (eventId : ℕ) (ids : List ℕ) (h : g.Settled c) (hlisted : g.listed = [])
    (hread : g.read = []) (hcollected : g.collected = []) (hqueued : g.queued = none)
    (hcutoff : g.cutoff = none) :
    doing.Follows (deleteMany eventId ids) (fun _ g' => g'.Settled c) g := by
  have hrest :
    ∀ (deleted : List AssetRow) (g : Doing), g.Settled c → g.queued = none → g.collected = [] →
      g.listed = deleted.map AssetRow.toAssetIdentity →
      (∀ a ∈ deleted, ∀ b ∈ deleted, a.id = b.id → a.toAssetIdentity = b.toAssetIdentity) →
      doing.Follows (do
        let keys ← collectKeys deleted
        if keys = [] then pure deleted.length
        else do
          let _ ← call (.queue (.cleanupKeys keys))
          pure deleted.length) (fun _ g' => g'.Settled c) g := by
    intro deleted g h hqueued hcollected hlisted hsame
    refine follows_seq _ (collectKeys_follows hqueued (fun a ha => ?_) fun i hi j hj hij => ?_)
      fun keys g' hg => ?_
    · rw [hlisted]
      exact List.mem_map_of_mem ha
    · rw [hlisted] at hi hj
      obtain ⟨a, ha, rfl⟩ := List.mem_map.mp hi
      obtain ⟨b, hb, rfl⟩ := List.mem_map.mp hj
      exact hsame a ha b hb hij
    obtain ⟨read, more, rfl, hkeys, -, -⟩ := hg
    split
    · exact h
    · refine ⟨fun key => ?_, fun _ _ => h⟩
      rw [hcollected]
      exact hkeys key
  rw [deleteMany]
  split
  · exact hrest [] g h hqueued hcollected hlisted (by simp)
  · refine ⟨⟨hread, hcollected, hqueued, hcutoff⟩, fun deleted hdeleted => ?_⟩
    exact hrest deleted { g with listed :=
      (deleted : List AssetRow).map AssetRow.toAssetIdentity } h hqueued
      hcollected rfl hdeleted.2

theorem handleStorageReconcile_follows (h : g.Settled c) (hlisted : g.listed = [])
    (hread : g.read = [])
    (hcollected : g.collected = []) (hqueued : g.queued = none) :
    doing.Follows handleStorageReconcile (fun _ g' => g'.Settled c) g := by
  refine ⟨hlisted, fun now _ => ⟨trivial, fun events _ => ?_⟩⟩
  refine ⟨⟨hread, hcollected, hqueued, rfl⟩, fun assets hassets => ?_⟩
  change doing.Follows (collectKeys assets >>= _) _ { g with
    cutoff := some ((now : ℕ) - gracePeriodMs)
    listed := (assets : List AssetRow).map AssetRow.toAssetIdentity }
  refine follows_seq _ (collectKeys_follows hqueued (fun a ha => ?_) fun i hi j hj hij => ?_)
    fun keys g' hg => ?_
  · exact List.mem_map_of_mem (f := AssetRow.toAssetIdentity) ha
  · obtain ⟨a, ha, rfl⟩ := List.mem_map.mp hi
    obtain ⟨b, hb, rfl⟩ := List.mem_map.mp hj
    exact hassets.2 a ha b hb hij
  obtain ⟨read, more, rfl, hkeys, hreads, -⟩ := hg
  have hprefixes : (queueAll (events.map (fun event =>
      JobItem.cleanupPrefix (StorageKeys.eventPrefix event.orgId event.id)))).Avoids (fun o =>
        o.quiet = false) := by
    refine quiet_queueAll fun job hjob => ?_
    obtain ⟨event, -, rfl⟩ := List.mem_map.mp hjob
    rfl
  have hswept : ∀ f : Unit → MediaProg JobStatus,
      (∀ g : Doing, g.Settled c → doing.Follows (f ()) (fun _ g' => g'.Settled c) g) →
      doing.Follows (if assets = [] then queueAll (events.map (fun event =>
          JobItem.cleanupPrefix (StorageKeys.eventPrefix event.orgId event.id))) >>= f
        else do
          let job ← call (.queue (.cleanupKeys keys))
          queueAll (events.map
            (fun event => JobItem.cleanupPrefix (StorageKeys.eventPrefix event.orgId event.id)))
          let r ← call (.deleteAssets ((assets : List AssetRow).map (fun a => a.id)) job)
          f r) (fun _ g' => g'.Settled c) { g with
        cutoff := some ((now : ℕ) - gracePeriodMs)
        listed := (assets : List AssetRow).map AssetRow.toAssetIdentity
        read := read
        collected := g.collected ++ more } := by
    intro f hf
    split
    · refine follows_seq _ (follows_quiet hprefixes) fun _ g' hg => ?_
      subst hg
      exact hf _ h
    · refine ⟨fun key => ?_, fun job _ => ?_⟩
      · rw [hcollected]
        exact hkeys key
      · change doing.Follows (queueAll _ >>= _) _ _
        refine follows_seq _ (follows_quiet hprefixes) fun _ g' hg => ?_
        subst hg
        refine ⟨⟨?_, rfl, Option.some_ne_none _, fun ident hident => ?_⟩, fun _ _ => hf _ h⟩
        · exact (List.map_map ..).symm
        · obtain ⟨a, ha, rfl⟩ := List.mem_map.mp hident
          exact hreads a ha
  split
  · exact hswept (fun _ => pure .success) fun _ hg => hg
  · exact hswept (fun _ => do
      call (.deleteEvents (events.map EventRow.id))
      pure .success) fun _ hg => ⟨trivial, fun _ _ => hg⟩

theorem remove_follows (orgId eventId : ℕ) (confirmation : String) (h : g.Settled c) :
    doing.Follows (remove orgId eventId confirmation).run (fun _ g' => g'.Settled c) g := by
  refine ⟨trivial, fun event _ => ?_⟩
  cases event with
  | none => exact h
  | some event =>
    change doing.Follows (ExceptT.run (if event.orgId ≠ orgId then _ else _)) _ g
    split
    · exact h
    · split
      · exact h
      · exact ⟨trivial, fun _ _ => ⟨trivial, fun _ _ => h⟩⟩

theorem runJob_follows (eventId assetId : ℕ) (h : g.Settled c) :
    doing.Follows (runJob eventId assetId).run (fun _ g' => g'.Settled c) g := by
  refine ⟨trivial, fun asset _ => ?_⟩
  cases asset with
  | none => exact h
  | some asset => exact ⟨trivial, fun _ _ => ⟨trivial, fun _ _ => h⟩⟩

theorem replying_follows {reply : α → MediaReply} {p : Attempt α} {Q : MediaReply → Doing → Prop}
    (h : doing.Follows p.run (fun r g' => Q (match r with
      | .ok a => reply a
      | .error e => .refused e) g') g) : doing.Follows (replying reply p) Q g := by
  refine follows_seq _ h fun r g' hg => ?_
  cases r with
  | ok a => exact hg
  | error e => exact hg

theorem job_follows (fuel n : ℕ) (item : JobItem) :
    doing.Follows (item.prog fuel) (Finished (.job n item)) (.first (.job n item)) := by
  cases item with
  | assetProcess assetId =>
    have hc : ∀ k keys, MediaCall.job n (.assetProcess assetId) ≠ .job k (.cleanupKeys keys) :=
      fun _ _ => nofun
    exact follows_seq _ (handleAssetProcess_follows ⟨rfl, rfl, rfl⟩ rfl rfl) fun _ g' hg =>
      finished_of_settled hg hc
  | videoTranscode assetId =>
    have hc : ∀ k keys, MediaCall.job n (.videoTranscode assetId) ≠ .job k (.cleanupKeys keys) :=
      fun _ _ => nofun
    exact follows_seq _ (handleVideoTranscode_follows ⟨rfl, rfl, rfl⟩ rfl rfl) fun _ g' hg =>
      finished_of_settled hg hc
  | personThumbnail personId =>
    have hc : ∀ k keys, MediaCall.job n (.personThumbnail personId) ≠ .job k (.cleanupKeys keys) :=
      fun _ _ => nofun
    exact replying_follows (follows_mono _ (fun _ _ hg => finished_of_settled hg hc) _ _
      (handlePersonThumbnail_follows personId ⟨rfl, rfl, rfl⟩ rfl))
  | importFile importItemId =>
    have hc : ∀ k keys, MediaCall.job n (.importFile importItemId) ≠ .job k (.cleanupKeys keys) :=
      fun _ _ => nofun
    exact follows_seq _ (handleImportFile_follows importItemId ⟨rfl, rfl, rfl⟩ rfl hc) fun _
      g' hg =>
      finished_of_resting hg hc
  | cleanupKeys keys =>
    refine replying_follows (follows_mono _ (fun r g' hg => ?_) _ _
      (handleCleanupKeys_follows (g := .first (.job n (.cleanupKeys keys))) rfl rfl rfl))
    obtain ⟨⟨status, rfl, hstatus⟩, hcall, howed, hleft⟩ := hg
    refine ⟨hcall, hleft, fun key hkey => ?_, fun k all _ => ?_⟩
    · rw [howed] at hkey
      cases hkey
    · cases status with
      | failed => exact absurd rfl hstatus
      | _ => rfl
  | cleanupPrefix pfx =>
    have hc : ∀ k keys, MediaCall.job n (.cleanupPrefix pfx) ≠ .job k (.cleanupKeys keys) :=
      fun _ _ => nofun
    refine replying_follows ?_
    refine (follows_attempt _ _ _ _ _).mpr (follows_mono _ (fun r g' hg => ?_) _ _
      (deletePrefix_follows pfx fuel (c := .job n (.cleanupPrefix pfx)) ⟨rfl, rfl, rfl⟩ hc))
    cases r with
    | ok _ => exact finished_of_settled hg hc
    | error e => exact finished_of_settled hg hc
  | _ => exact ⟨rfl, rfl, fun key hkey => absurd hkey List.not_mem_nil, fun _ _ => nofun⟩

theorem calls_follow (fuel : ℕ) (c : MediaCall) :
    doing.Follows (c.prog fuel) (Finished c) (.first c) := by
  cases c with
  | job n item => exact job_follows fuel n item
  | storageReconcile =>
    exact follows_seq _ (handleStorageReconcile_follows ⟨rfl, rfl, rfl⟩ rfl rfl rfl rfl) fun _
      g' hg =>
      finished_of_settled hg fun _ _ => nofun
  | uploadAsset eventId staged =>
    have hc : ∀ n keys, MediaCall.uploadAsset eventId staged ≠ .job n (.cleanupKeys keys) :=
      fun _ _ => nofun
    exact replying_follows (follows_mono _ (fun _ _ hg => finished_of_resting hg hc) _ _
      (uploadAsset_follows eventId staged ⟨rfl, rfl, rfl⟩ rfl hc))
  | submitSelfie dto =>
    have hc : ∀ n keys, MediaCall.submitSelfie dto ≠ .job n (.cleanupKeys keys) := fun _ _ => nofun
    exact replying_follows (follows_mono _ (fun _ _ hg => finished_of_settled hg hc) _ _
      (submitSelfie_follows dto ⟨rfl, rfl, rfl⟩ rfl))
  | remove orgId eventId confirmation =>
    have hc : ∀ n keys, MediaCall.remove orgId eventId confirmation ≠ .job n (.cleanupKeys keys) :=
      fun _ _ => nofun
    exact replying_follows (follows_mono _ (fun _ _ hg => finished_of_settled hg hc) _ _
      (remove_follows orgId eventId confirmation ⟨rfl, rfl, rfl⟩))
  | deleteMany eventId ids =>
    exact follows_seq _ (deleteMany_follows eventId ids ⟨rfl, rfl, rfl⟩ rfl rfl rfl rfl rfl) fun _
      g' hg =>
      finished_of_settled hg fun _ _ => nofun
  | runJob eventId assetId =>
    have hc : ∀ n keys, MediaCall.runJob eventId assetId ≠ .job n (.cleanupKeys keys) :=
      fun _ _ => nofun
    exact replying_follows (follows_mono _ (fun _ _ hg => finished_of_settled hg hc) _ _
      (runJob_follows eventId assetId ⟨rfl, rfl, rfl⟩))
  | elapse ms => exact ⟨rfl, rfl, fun key hkey => absurd hkey List.not_mem_nil, fun _ _ => nofun⟩

end Follows

end EventLens.Media
