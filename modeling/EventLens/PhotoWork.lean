import EventLens.MediaService

/-!
What the work on a photo has come to. A call that brings an asset puts its
object, files its row and owes it a job; the job files the derivatives it has
put before it calls the asset processed, and owes the jobs that follow. What a
call lists for deletion belongs to deleted assets, or to an event that it is
about to drop.
-/

namespace EventLens.Photos

open Programs Contract Media
open Ingest (StagedUpload)

/-- `asset` is the asset that the call holds, `drawn` the id of the one it
brings; `held` are objects it has put and `filed` the derivatives it has rows
for. It is idle if there is nothing for it to do, and has ended with the status
it has set. It owes the queue some jobs, has seen some events, of which the
doomed ones lose their objects, and lists and collects what is deleted. -/
structure Work where
  call : MediaCall
  asset : Option (AssetIdentity × Import.AssetType) := none
  idle : Bool := false
  drawn : Option ℕ := none
  held : List StorageKey := []
  filed : List AssetFileType := []
  ended : Option AssetStatus := none
  owes : List JobItem := []
  seen : List EventPrefix := []
  doomed : List EventPrefix := []
  listed : List ℕ := []
  collected : List StorageKey := []
  paged : List StorageKey := []

def prefixOf (event : EventRow) : EventPrefix := StorageKeys.eventPrefix event.orgId event.id

def transcodes : MediaCall → Bool
  | .job _ (.videoTranscode _) => true
  | _ => false

/-- The jobs that follow the processing of an asset. -/
def followUps (assetId : ℕ) (type : Import.AssetType) : List JobItem :=
  [.faceDetect assetId, .smartSearch assetId] ++ if type =
    .video then [.videoTranscode assetId] else []

/-- The asset that a job is for. -/
def assetOf : MediaCall → Option ℕ
  | .job _ (.assetProcess assetId) | .job _ (.videoTranscode assetId) => some assetId
  | _ => none

/-- The object is the asset's original. -/
def Original (row : AssetRow) : Prop :=
  ∃ ext, row.storageKey = StorageKeys.original row.orgId row.eventId row.id ext

namespace Work

def first (c : MediaCall) : Work := { call := c }

variable (g : Work)

def takes (row : Option AssetRow) : Work :=
  { g with
    asset := row.map (fun row => (row.toAssetIdentity, row.type))
    idle := row.all (fun row => transcodes g.call ∧ row.type ≠ .video) }

def queues (job : JobItem) : Work :=
  { g with
    owes := g.owes.filter (fun owed => owed ≠ job)
    doomed := match job with
      | .cleanupPrefix pfx => pfx :: g.doomed
      | _ => g.doomed }

def lists (rows : List AssetRow) : Work :=
  { g with
    listed := rows.map (fun row => row.id)
    collected := rows.map (fun row => row.storageKey) }

def note (g : Work) : MediaEvent → Work
  | ⟨.getEvent _, r⟩ => { g with seen := (r : Option EventRow).toList.map prefixOf ++ g.seen }
  | ⟨.deletedEvents _, r⟩ => { g with seen := (r : List EventRow).map prefixOf ++ g.seen }
  | ⟨.getByIdUnscoped _, r⟩ => g.takes r
  | ⟨.randomUUID, r⟩ => { g with drawn := some (r : ℕ) }
  | ⟨.putFile key, r⟩ =>
    match (r : Except MediaError Unit) with
    | .ok _ => { g with held := key :: g.held }
    | .error _ => g
  | ⟨.create row, r⟩ =>
    match (r : Except MediaError Unit) with
    | .ok _ => { g with drawn := none, owes := .assetProcess row.id :: g.owes }
    | .error _ => g
  | ⟨.deleteKeys keys, r⟩ =>
    match (r : Except MediaError Unit) with
    | .ok _ => { g with held := g.held.filter (fun key => key ∉ keys) }
    | .error _ => g
  | ⟨.upsertFile file, r⟩ =>
    match (r : Except MediaError Unit) with
    | .ok _ => { g with filed := file.type :: g.filed }
    | .error _ => g
  | ⟨.updateProcessed assetId, r⟩ =>
    match (r : Except MediaError Unit) with
    | .ok _ => { g with
        ended := some .processed
        owes := g.asset.elim [] (fun held => followUps assetId held.2) }
    | .error _ => g
  | ⟨.setStatus assetId .stored, _⟩ => { g with owes := .assetProcess assetId :: g.owes }
  | ⟨.setStatus _ status, _⟩ => { g with ended := some status }
  | ⟨.queue job, _⟩ => g.queues job
  | ⟨.softDeleteMany _ _, r⟩ | ⟨.deletedAssets _, r⟩ => g.lists r
  | ⟨.getFiles assetId, r⟩ =>
    if assetId ∈ g.listed then
      { g with collected := g.collected ++ (r : List FileRow).map FileRow.storageKey }
    else g
  | ⟨.listObjects _ _, r⟩ =>
    match (r : Except MediaError (Keyset.Page StorageKey StorageKey)) with
    | .ok page => { g with paged := page.rows }
    | .error _ => g
  | ⟨.deleteEvents ids, _⟩ => { g with doomed := g.doomed.filter (fun pfx => pfx.eventId ∉ ids) }
  | ⟨.hardDelete orgId eventId, _⟩ =>
    { g with doomed := g.doomed.filter (fun pfx => pfx ≠ StorageKeys.eventPrefix orgId eventId) }
  | _ => g

/-- The object is not of a live asset, or of the asset that the call brings. -/
def MayDelete (key : StorageKey) : Prop :=
  key.assetId? = g.drawn ∨ key ∈ g.paged ∨ ∃ n keys, g.call = .job n (.cleanupKeys keys) ∧
    key ∈ keys

def Permits (g : Work) : MediaOp → Prop
  | .getByIdUnscoped assetId => assetOf g.call = some assetId ∧ g.asset = none ∧ g.filed = []
  | .randomUUID => g.drawn = none
  | .putFile key => ∀ a, key.assetId? = some a →
      (∃ held, g.asset = some held ∧ held.1.id = a) ∨ g.drawn = some a
  | .create row =>
    g.drawn = some row.id ∧ Original row ∧ row.storageKey ∈ g.held ∧ row.status = .stored
  | .deleteKeys keys => ∀ key ∈ keys, g.MayDelete key
  | .upsertFile file => ∃ held, g.asset = some held ∧ ∃ type, file = derivative held.1 type ∧
      file.storageKey ∈ g.held
  | .updateProcessed assetId => (∃ n, g.call = .job n (.assetProcess assetId)) ∧
      (∃ held, g.asset = some held ∧ held.1.id = assetId) ∧ g.owes = [] ∧
      .preview ∈ g.filed ∧ .thumbnail ∈ g.filed
  | .setStatus assetId status => (status = .failed ∧ ∃ n, g.call = .job n (.assetProcess assetId)) ∨
      status = .stored ∧ ∃ eventId, g.call = .runJob eventId assetId
  | .queue (.cleanupKeys keys) => ∀ key ∈ keys, key ∈ g.collected
  | .queue (.cleanupPrefix pfx) => pfx ∈ g.seen
  | .listObjects pfx _ => ∃ n, g.call = .job n (.cleanupPrefix pfx)
  | _ => True

end Work

/-- Rows are of the asset and the event that was asked for. -/
def answered : MediaEvent → Prop
  | ⟨.getByIdUnscoped assetId, r⟩ => ∀ row, (r : Option AssetRow) = some row → row.id = assetId
  | ⟨.getEvent eventId, r⟩ => ∀ event, (r : Option EventRow) = some event → event.id = eventId
  | _ => True

def photoWork : Contract MediaOp MediaRes Work where
  note := Work.note
  expects _ e := answered e
  permits := Work.Permits

/-- The call owes nothing and has dropped what it was to drop. -/
structure Work.Free (g : Work) (c : MediaCall) : Prop where
  call : g.call = c
  owes : g.owes = []
  doomed : g.doomed = []

/-- What holds of a call that returns: a job that has done nothing for its asset
had nothing to do, or fails. -/
structure Work.Over (c : MediaCall) (reply : MediaReply) (g : Work) : Prop extends g.Free c where
  processed : ∀ n a, c = .job n (.assetProcess a) → (g.ended = none ∧ g.idle = true) ∨
    g.ended = some .processed ∨ (g.ended = some .failed ∧ reply.fails = true)
  transcoded : ∀ n a, c = .job n (.videoTranscode a) → g.ended = none ∧
    (g.idle = true ∨ .encodedVideo ∈ g.filed ∨ reply.fails = true)

/-! Each call follows the contract. -/

section Follows

variable {α β : Type} {g : Work} {c : MediaCall}

/-- Operations that leave the notes as they are. -/
def unnoted : MediaOp → Bool
  | .getEvent _ | .deletedEvents _ | .getByIdUnscoped _ | .randomUUID | .putFile _ | .create _
  | .deleteKeys _ | .upsertFile _ | .updateProcessed _ | .setStatus _ _ | .queue _ |
    .softDeleteMany _ _
  | .deletedAssets _ | .getFiles _ | .listObjects _ _ | .deleteEvents _ | .hardDelete _ _ => false
  | _ => true

theorem unnoted_spec {o : MediaOp} (h : unnoted o = true) :
    g.Permits o ∧ ∀ r, g.note ⟨o, r⟩ = g := by
  cases o with
  | _ => first | exact ⟨trivial, fun _ => rfl⟩ | cases h

theorem follows_unnoted {p : MediaProg α} (h : p.Avoids (fun o => unnoted o = false)) :
    photoWork.Follows p (fun _ g' => g' = g) g := by
  induction p with
  | done value => rfl
  | perform o next ih =>
    obtain ⟨hpermit, hnote⟩ := unnoted_spec (g := g) (eq_true_of_ne_false h.1)
    refine ⟨hpermit, fun r _ => ?_⟩
    change photoWork.Follows (next r) _ (g.note ⟨o, r⟩)
    rw [hnote]
    exact ih r (h.2 r)

/-- A part of an attempt that is not noted, and what comes after it. -/
theorem follows_past {p : Attempt α} {f : α → Attempt β} {Q : Except MediaError β → Work → Prop}
    (hp : p.run.Avoids (fun o => unnoted o = false)) (hok : ∀ a, photoWork.Follows (f a).run Q g)
    (herror : ∀ e, Q (.error e) g) : photoWork.Follows (p >>= f).run Q g := by
  refine (follows_attempt _ _ _ _ _).mpr (follows_mono _ ?_ _ _ (follows_unnoted hp))
  intro r g' hg
  subst hg
  cases r with
  | ok a => exact hok a
  | error e => exact herror e

theorem unnoted_downloadToFile (key : StorageKey) :
    (downloadToFile key).run.Avoids (fun o => unnoted o = false) :=
  ⟨Bool.noConfusion, fun _ => trivial⟩

theorem unnoted_work (task : MediaWork) : (work task).run.Avoids (fun o => unnoted o = false) :=
  ⟨Bool.noConfusion, fun _ => trivial⟩

theorem unnoted_inspect (asset : AssetRow) :
    (inspect asset).run.Avoids (fun o => unnoted o = false) := by
  have hupdate : (updateCapturedAt asset.id).run.Avoids (fun o => unnoted o = false) :=
    ⟨Bool.noConfusion, fun _ => trivial⟩
  rw [inspect]
  split
  · exact Prog.avoids_attempt (unnoted_work .probe) fun _ => unnoted_work .extractVideoFrame
  · refine Prog.avoids_attempt (unnoted_work .getImageDimensions) fun _ => ?_
    refine Prog.avoids_attempt (p :=
      extractExif) ⟨Bool.noConfusion, fun _ => trivial⟩ fun captured => ?_
    refine Prog.avoids_attempt (p :=
      upsertExif asset.id) ⟨Bool.noConfusion, fun _ => trivial⟩ fun _ => ?_
    split
    · exact hupdate
    · trivial

theorem over_of_free {reply : MediaReply} (h : g.Free c) (hc : assetOf c = none) : g.Over c reply :=
  { h with
    processed := fun n a hcall => by
      rw [hcall] at hc
      cases hc
    transcoded := fun n a hcall => by
      rw [hcall] at hc
      cases hc }

/-! Objects that are put. -/

/-- More objects are held. -/
def Work.holds (g : Work) (more : List StorageKey) : Work := { g with held := more ++ g.held }

/-- The object is of the asset that the call holds or brings. -/
def Work.Owns (g : Work) (key : StorageKey) : Prop :=
  ∀ a, key.assetId? = some a → (∃ held, g.asset = some held ∧ held.1.id = a) ∨ g.drawn = some a

theorem putAll_work {keys : List StorageKey} (howns : ∀ key ∈ keys, g.Owns key) :
    photoWork.Follows (putAll keys).run
      (fun r g' => ∃ more, g' = g.holds more ∧ (r = .ok () → ∀ key ∈ keys, key ∈ more)) g := by
  induction keys generalizing g with
  | nil => exact ⟨[], rfl, fun _ _ h => absurd h List.not_mem_nil⟩
  | cons key keys ih =>
    refine ⟨howns key List.mem_cons_self, fun r _ => ?_⟩
    have hrest := fun k hk => howns k (List.mem_cons_of_mem key hk)
    cases r with
    | error e =>
      change photoWork.Follows
        ((putAll keys).run >>= fun rest => pure (Except.bind (.error e) fun _ => rest)) _ g
      refine follows_seq _ (ih (g := g) hrest) fun r g' hg => ?_
      obtain ⟨more, rfl, -⟩ := hg
      exact ⟨more, rfl, fun hok => by cases hok⟩
    | ok _ =>
      change photoWork.Follows
        ((putAll keys).run >>= fun rest => pure (Except.bind (.ok ()) fun _ => rest)) _
        (g.holds [key])
      refine follows_seq _ (ih (g := g.holds [key]) hrest) fun r g' hg => ?_
      obtain ⟨more, rfl, hmore⟩ := hg
      refine ⟨more ++ [key], by simp [Work.holds], fun hok k hk => ?_⟩
      rcases List.mem_cons.mp hk with rfl | hk
      · exact List.mem_append_right _ (List.mem_singleton_self k)
      · exact List.mem_append_left _ (hmore hok k hk)

/-- What is put for the asset that the call holds. -/
theorem owns_derivativeOf {ident : AssetIdentity} {type : Import.AssetType}
    (h : g.asset = some (ident, type))
    (fileType : AssetFileType) : g.Owns (derivativeKey ident fileType) := by
  intro a ha
  refine .inl ⟨(ident, type), h, ?_⟩
  cases fileType <;> exact Option.some.inj ha

theorem owns_other {key : StorageKey} (h : key.assetId? = none) : g.Owns key := by
  intro a ha
  rw [h] at ha
  cases ha

/-- The row of a derivative that was put. -/
theorem upsertFile_work {ident : AssetIdentity} {type : Import.AssetType} {fileType : AssetFileType}
    (h : g.asset = some (ident, type)) (hheld : derivativeKey ident fileType ∈ g.held)
    {f : Unit → Attempt α} {Q : Except MediaError α → Work → Prop}
    (hok : photoWork.Follows (f ()).run Q { g with filed := fileType :: g.filed })
    (herror : ∀ e, Q (.error e) g) :
    photoWork.Follows (upsertFile (derivative ident fileType) >>= f).run Q g := by
  refine ⟨⟨(ident, type), h, fileType, rfl, hheld⟩, fun r _ => ?_⟩
  cases r with
  | error e => exact herror e
  | ok _ => exact hok

/-! Jobs of an asset. -/

theorem queueAll_work {jobs : List JobItem}
    (hjobs : ∀ job ∈ jobs, ∀ keys pfx, job ≠ .cleanupKeys keys ∧
    job ≠ .cleanupPrefix pfx) :
    photoWork.Follows (queueAll jobs)
      (fun _ g' => g' = { g with owes := g.owes.filter (fun owed => owed ∉ jobs) }) g := by
  induction jobs generalizing g with
  | nil =>
    have hall : g.owes.filter (fun owed => owed ∉ ([] : List JobItem)) = g.owes := by simp
    change g = _
    rw [hall]
  | cons job jobs ih =>
    have hjob := hjobs job List.mem_cons_self
    have hplain : g.Permits (.queue job) ∧
        g.queues job = { g with owes := g.owes.filter (fun owed => owed ≠ job) } := by
      cases job with
      | cleanupKeys keys => exact absurd rfl (hjob keys ⟨0, 0⟩).1
      | cleanupPrefix pfx => exact absurd rfl (hjob [] pfx).2
      | _ => exact ⟨trivial, rfl⟩
    refine ⟨hplain.1, fun r _ => ?_⟩
    change photoWork.Follows (queueAll jobs) _ (g.queues job)
    rw [hplain.2]
    refine follows_mono _ (fun _ g' hg => ?_) _ _
      (ih (g := { g with owes := g.owes.filter (fun owed => owed ≠ job) })
        fun j hj => hjobs j (List.mem_cons_of_mem _ hj))
    have hfilter : (g.owes.filter (fun owed => owed ≠ job)).filter (fun owed => owed ∉ jobs) =
        g.owes.filter (fun owed => owed ∉ job :: jobs) := by
      rw [List.filter_filter]
      refine List.filter_congr fun owed _ => Bool.eq_iff_iff.mpr ?_
      simp [and_comm]
    rw [hg, hfilter]

theorem owes_queued (jobs : List JobItem) : jobs.filter (fun owed => owed ∉ jobs) = [] :=
  List.filter_eq_nil_iff.mpr fun _ howed hkept => of_decide_eq_true hkept howed

theorem processAsset_work {n : ℕ} {asset : AssetRow}
    (hcall : g.call = .job n (.assetProcess asset.id))
    (hasset : g.asset = some (asset.toAssetIdentity, asset.type)) (h : g.Free c) :
    photoWork.Follows (processAsset asset).run
      (fun r g' => g'.Free c ∧ (r = .ok () → g'.ended = some .processed)) g := by
  have herror : ∀ {g' : Work}, g'.Free c → ∀ e : MediaError,
      g'.Free c ∧
        ((Except.error e : Except MediaError Unit) = .ok () → g'.ended = some .processed) :=
    fun hfree e => ⟨hfree, fun hok => by cases hok⟩
  rw [processAsset]
  refine follows_past (unnoted_downloadToFile _) (fun _ => ?_) (herror h)
  refine follows_past (unnoted_inspect asset) (fun _ => ?_) (herror h)
  refine follows_past (unnoted_work _) (fun _ => ?_) (herror h)
  refine follows_past (unnoted_work _) (fun _ => ?_) (herror h)
  refine follows_past (unnoted_work _) (fun _ => ?_) (herror h)
  refine follows_past (unnoted_work _) (fun _ => ?_) (herror h)
  have howns :
    ∀ key ∈ [derivativeKey asset.toAssetIdentity .preview,
    derivativeKey asset.toAssetIdentity .thumbnail],
      g.Owns key := by
    intro key hkey
    rcases List.mem_cons.mp hkey with rfl | hkey
    · exact owns_derivativeOf hasset .preview
    · rw [List.mem_singleton.mp hkey]
      exact owns_derivativeOf hasset .thumbnail
  refine (follows_attempt _ _ _ _ _).mpr (follows_mono _ ?_ _ _ (putAll_work howns))
  intro r g' hg
  obtain ⟨more, rfl, hmore⟩ := hg
  have hfree : (g.holds more).Free c := ⟨h.call, h.owes, h.doomed⟩
  cases r with
  | error e => exact herror hfree e
  | ok _ =>
    have hpreview := hmore rfl _ List.mem_cons_self
    have hthumbnail := hmore rfl _ (List.mem_cons_of_mem _ (List.mem_singleton_self _))
    refine upsertFile_work (g :=
      g.holds more) hasset (List.mem_append_left _ hpreview) ?_ (herror hfree)
    refine upsertFile_work (g := { g.holds more with filed := .preview :: g.filed }) hasset
      (List.mem_append_left _ hthumbnail) ?_ (herror ⟨h.call, h.owes, h.doomed⟩)
    refine ⟨⟨⟨n, hcall⟩, ⟨_, hasset, rfl⟩, h.owes, ?_, ?_⟩, fun r _ => ?_⟩
    · exact List.mem_cons_of_mem _ List.mem_cons_self
    · exact List.mem_cons_self
    cases r with
    | error e => exact ⟨⟨h.call, h.owes, h.doomed⟩, fun hok => by cases hok⟩
    | ok _ =>
      have hplain : ∀ job ∈ followUps asset.id asset.type, ∀ keys pfx, job ≠ .cleanupKeys keys ∧
          job ≠ .cleanupPrefix pfx := by
        intro job hjob keys pfx
        rw [followUps] at hjob
        split at hjob
        · simp only [List.cons_append, List.nil_append, List.mem_cons, List.not_mem_nil,
            or_false] at hjob
          rcases hjob with rfl | rfl | rfl <;> exact ⟨JobItem.noConfusion, JobItem.noConfusion⟩
        · simp only [List.append_nil, List.mem_cons, List.not_mem_nil, or_false] at hjob
          rcases hjob with rfl | rfl <;> exact ⟨JobItem.noConfusion, JobItem.noConfusion⟩
      change photoWork.Follows
        (queueAll (followUps asset.id asset.type) >>= fun a => Prog.done (Except.ok a)) _ _
      refine follows_seq _ (queueAll_work hplain) fun _ g' hg => ?_
      subst hg
      refine ⟨⟨h.call, ?_, h.doomed⟩, fun _ => rfl⟩
      change ((g.asset.elim [] (fun held => followUps asset.id held.2)).filter _) = []
      rw [hasset]
      exact owes_queued _

theorem handleAssetProcess_work {n assetId : ℕ} (hcall : g.call = .job n (.assetProcess assetId))
    (hasset : g.asset = none) (hfiled : g.filed = []) (hended : g.ended = none) (h : g.Free c) :
    photoWork.Follows (handleAssetProcess assetId)
    (fun status g' => g'.Free c ∧ ((g'.ended = none ∧ g'.idle = true) ∨
      g'.ended = some .processed ∨ (g'.ended = some .failed ∧ status = .failed))) g := by
  refine ⟨⟨by rw [hcall]; rfl, hasset, hfiled⟩, fun r hr => ?_⟩
  have htaken : ∀ row, (g.takes row).Free c := fun row => ⟨h.call, h.owes, h.doomed⟩
  cases r with
  | none => exact ⟨htaken none, .inl ⟨hended, rfl⟩⟩
  | some asset =>
    obtain rfl : asset.id = assetId := hr asset rfl
    change photoWork.Follows ((processAsset asset).run >>= _) _ (g.takes (some asset))
    refine follows_seq _ (processAsset_work (g :=
      g.takes (some asset)) hcall rfl (htaken _)) fun r g' hg => ?_
    obtain ⟨hfree, hok⟩ := hg
    cases r with
    | ok _ => exact ⟨hfree, .inr (.inl (hok rfl))⟩
    | error e =>
      refine ⟨.inl ⟨rfl, n, ?_⟩,
        fun _ _ => ⟨⟨hfree.call, hfree.owes, hfree.doomed⟩, .inr (.inr ⟨rfl, rfl⟩)⟩⟩
      rw [hfree.call, ← h.call, hcall]

theorem handleVideoTranscode_work {n assetId : ℕ}
    (hcall : g.call = .job n (.videoTranscode assetId))
    (hasset : g.asset = none) (hfiled : g.filed = []) (hended : g.ended = none) (h : g.Free c) :
    photoWork.Follows (handleVideoTranscode assetId) (fun status g' => g'.Free c ∧ g'.ended = none ∧
      (g'.idle = true ∨ .encodedVideo ∈ g'.filed ∨ status = .failed)) g := by
  refine ⟨⟨by rw [hcall]; rfl, hasset, hfiled⟩, fun r hr => ?_⟩
  have htaken : ∀ row, (g.takes row).Free c := fun row => ⟨h.call, h.owes, h.doomed⟩
  cases r with
  | none => exact ⟨htaken none, hended, .inl rfl⟩
  | some asset =>
    change photoWork.Follows (if asset.type ≠ .video then pure JobStatus.skipped else _) _
      (g.takes (some asset))
    split
    · rename_i htype
      refine ⟨htaken _, hended, .inl ?_⟩
      change decide (transcodes g.call = true ∧ asset.type ≠ .video) = true
      rw [hcall]
      exact decide_eq_true ⟨rfl, htype⟩
    · refine follows_seq _ (R := fun r g' => g'.Free c ∧ g'.ended = none ∧
        (r = .ok () → .encodedVideo ∈ g'.filed)) ?_ fun r g' hg => ?_
      · have herror :
          ∀ {g' : Work}, g'.Free c → g'.ended = none → ∀ e : MediaError, g'.Free c ∧
          g'.ended = none ∧
            ((Except.error e : Except MediaError Unit) = .ok () → .encodedVideo ∈ g'.filed) :=
          fun hfree hnone e => ⟨hfree, hnone, fun hok => by cases hok⟩
        rw [transcodeVideo]
        refine follows_past (unnoted_downloadToFile _) (fun _ => ?_) (herror (htaken _) hended)
        refine follows_past (unnoted_work _) (fun _ => ?_) (herror (htaken _) hended)
        refine ⟨owns_derivativeOf rfl .encodedVideo, fun r _ => ?_⟩
        cases r with
        | error e => exact herror (htaken _) hended e
        | ok _ =>
          refine ⟨⟨(asset.toAssetIdentity, asset.type), rfl, .encodedVideo, rfl,
            List.mem_cons_self⟩,
            fun r _ => ?_⟩
          cases r with
          | error e => exact ⟨⟨h.call, h.owes, h.doomed⟩, hended, fun hok => by cases hok⟩
          | ok _ => exact ⟨⟨h.call, h.owes, h.doomed⟩, hended, fun _ => List.mem_cons_self⟩
      · obtain ⟨hfree, hnone, hok⟩ := hg
        cases r with
        | ok _ => exact ⟨hfree, hnone, .inr (.inl (hok rfl))⟩
        | error e => exact ⟨hfree, hnone, .inr (.inr rfl)⟩

theorem handlePersonThumbnail_work (personId : ℕ) (hlisted : g.listed = []) (h : g.Free c) :
    photoWork.Follows (handlePersonThumbnail personId).run (fun _ g' => g'.Free c) g := by
  refine ⟨trivial, fun r _ => ?_⟩
  cases r with
  | none => exact h
  | some data =>
    obtain ⟨person, asset⟩ := data
    refine ⟨trivial, fun files _ => ?_⟩
    have hsame : g.note ⟨.getFiles asset.id, files⟩ = g := by
      have hnot : asset.id ∉ g.listed := by simp [hlisted]
      exact if_neg hnot
    change photoWork.Follows _ _ (g.note ⟨.getFiles asset.id, files⟩)
    rw [hsame]
    refine follows_past (unnoted_downloadToFile _) (fun _ => ?_) (fun _ => h)
    refine follows_past (unnoted_work _) (fun _ => ?_) (fun _ => h)
    refine follows_past (unnoted_work _) (fun _ => ?_) (fun _ => h)
    refine ⟨owns_other rfl, fun r _ => ?_⟩
    cases r with
    | error e => exact h
    | ok _ => exact ⟨trivial, fun _ _ => ⟨h.call, h.owes, h.doomed⟩⟩

/-! Deletions. -/

theorem deleteBatches_work (n : ℕ) {keys : List StorageKey}
    (hmay : ∀ key ∈ keys, ∀ held, ({ g with held := held } : Work).MayDelete key) :
    photoWork.Follows (deleteBatches n keys).run (fun _ g' => ∃ held, g' = { g with held :=
    held }) g := by
  induction n generalizing keys g with
  | zero => exact ⟨g.held, rfl⟩
  | succ n ih =>
    rw [deleteBatches]
    split
    · exact ⟨g.held, rfl⟩
    · refine ⟨fun key hkey => hmay key (List.mem_of_mem_take hkey) g.held, fun r _ => ?_⟩
      cases r with
      | error e => exact ⟨g.held, rfl⟩
      | ok _ =>
        refine follows_mono _ (fun _ g' hg => ?_) _ _
          (ih (g := { g with held := g.held.filter (fun key => key ∉ keys.take deleteBatch) })
            fun key hkey held => hmay key (List.mem_of_mem_drop hkey) held)
        obtain ⟨held, rfl⟩ := hg
        exact ⟨held, rfl⟩

theorem deleteKeys_work {keys : List StorageKey} (hmay : ∀ key ∈ keys, g.MayDelete key) :
    photoWork.Follows (deleteKeys keys).run (fun _ g' => ∃ held, g' = { g with held := held }) g :=
  deleteBatches_work keys.length fun key hkey _ => hmay key hkey

theorem Work.Free.without (h : g.Free c) (held : List StorageKey) :
    ({ g with held := held } : Work).Free c :=
  ⟨h.call, h.owes, h.doomed⟩

theorem handleCleanupKeys_work {n : ℕ} {keys : List StorageKey}
    (hcall : g.call = .job n (.cleanupKeys keys))
    (h : g.Free c) : photoWork.Follows (handleCleanupKeys keys).run (fun _ g' => g'.Free c) g := by
  rw [handleCleanupKeys]
  split
  · exact h
  · have hmay : ∀ key ∈ keys, g.MayDelete key := fun key hkey => .inr (.inr ⟨n, keys, hcall, hkey⟩)
    refine (follows_attempt _ _ _ _ _).mpr (follows_mono _ ?_ _ _ (deleteKeys_work hmay))
    intro r g' hg
    obtain ⟨held, rfl⟩ := hg
    cases r <;> exact h.without held

theorem deletePrefix_work {n : ℕ} {pfx : EventPrefix} (fuel : ℕ) (cursor : Option StorageKey)
    (hcall : g.call = .job n (.cleanupPrefix pfx)) (h : g.Free c) :
    photoWork.Follows (deletePrefix pfx fuel cursor).run (fun _ g' => g'.Free c) g := by
  induction fuel generalizing cursor g with
  | zero => exact h
  | succ fuel ih =>
    refine ⟨⟨n, hcall⟩, fun r _ => ?_⟩
    cases r with
    | error e => exact h
    | ok page =>
      have hmay : ∀ key ∈ page.rows, ({ g with paged := page.rows } : Work).MayDelete key :=
        fun key hkey => .inr (.inl hkey)
      refine (follows_attempt _ _ _ _ _).mpr (follows_mono _ ?_ _ _ (deleteKeys_work hmay))
      intro r g' hg
      obtain ⟨held, rfl⟩ := hg
      have hfree : ({ g with paged := page.rows, held := held } : Work).Free c :=
        ⟨h.call, h.owes, h.doomed⟩
      cases r with
      | error e => exact hfree
      | ok _ =>
        cases page.next with
        | none => exact hfree
        | some last => exact ih (some last) hcall hfree

theorem collectKeys_work {assets : List AssetRow} (hlisted : ∀ a ∈ assets, a.id ∈ g.listed)
    (hkeys : ∀ a ∈ assets, a.storageKey ∈ g.collected) :
    photoWork.Follows (collectKeys assets) (fun keys g' => ∃ more,
      g' = { g with collected := g.collected ++ more } ∧ ∀ key ∈ keys, key ∈ g'.collected) g := by
  induction assets generalizing g with
  | nil => exact ⟨[], by simp, fun _ h => absurd h List.not_mem_nil⟩
  | cons asset assets ih =>
    refine ⟨trivial, fun files _ => ?_⟩
    have hgathered : g.note ⟨.getFiles asset.id, files⟩ =
        { g with collected := g.collected ++ (files : List FileRow).map FileRow.storageKey } :=
      if_pos (hlisted asset List.mem_cons_self)
    change photoWork.Follows (collectKeys assets >>= _) _ (g.note ⟨.getFiles asset.id, files⟩)
    rw [hgathered]
    refine follows_seq _ (ih (g := { g with
        collected := g.collected ++ (files : List FileRow).map FileRow.storageKey })
      (fun a ha => hlisted a (List.mem_cons_of_mem _ ha))
      fun a ha => List.mem_append_left _ (hkeys a (List.mem_cons_of_mem _ ha))) fun keys g' hg => ?_
    obtain ⟨more, rfl, hmore⟩ := hg
    refine ⟨(files : List FileRow).map FileRow.storageKey ++ more, by
      simp only [List.append_assoc], ?_⟩
    intro key hkey
    rcases List.mem_append.mp hkey with hkey | hkey
    · rcases List.mem_cons.mp hkey with rfl | hfile
      · exact List.mem_append_left _ (List.mem_append_left _ (hkeys asset List.mem_cons_self))
      · exact List.mem_append_left _ (List.mem_append_right _ hfile)
    · exact hmore key hkey

theorem collectListed_work (rows : List AssetRow) :
    photoWork.Follows (collectKeys rows) (fun keys g' => ∃ more,
      g' = { g.lists rows with collected := (g.lists rows).collected ++ more } ∧
        ∀ key ∈ keys, key ∈ g'.collected) (g.lists rows) :=
  collectKeys_work (fun _ ha => List.mem_map_of_mem ha) fun _ ha => List.mem_map_of_mem ha

theorem deleteMany_work (eventId : ℕ) (ids : List ℕ) (h : g.Free c) :
    photoWork.Follows (deleteMany eventId ids) (fun _ g' => g'.Free c) g := by
  rw [deleteMany]
  split
  · exact h
  · refine ⟨trivial, fun deleted _ => ?_⟩
    change photoWork.Follows (collectKeys deleted >>= _) _ (g.lists deleted)
    refine follows_seq _ (collectListed_work deleted) fun keys g' hg => ?_
    obtain ⟨more, rfl, hmore⟩ := hg
    split
    · exact ⟨h.call, h.owes, h.doomed⟩
    · refine ⟨hmore, fun _ _ => ⟨h.call, ?_, h.doomed⟩⟩
      change g.owes.filter _ = []
      rw [h.owes]
      rfl

/-- The events whose objects are queued for deletion are about to be dropped. -/
theorem queuePrefixes_work {events : List EventRow}
    (hseen : ∀ event ∈ events, prefixOf event ∈ g.seen)
    (howes : g.owes = []) :
    photoWork.Follows
    (queueAll
    (events.map (fun event => .cleanupPrefix (StorageKeys.eventPrefix event.orgId event.id))))
      (fun _ g' => ∃ doomed, g' = { g with doomed := doomed } ∧
        ∀ pfx ∈ doomed, pfx ∈ g.doomed ∨ ∃ event ∈ events, prefixOf event = pfx) g := by
  induction events generalizing g with
  | nil => exact ⟨g.doomed, rfl, fun pfx hpfx => .inl hpfx⟩
  | cons event events ih =>
    refine ⟨hseen event List.mem_cons_self, fun _ _ => ?_⟩
    have hqueued : g.queues (.cleanupPrefix (prefixOf event)) =
        { g with doomed := prefixOf event :: g.doomed } := by
      simp [Work.queues, howes]
    change photoWork.Follows (queueAll _) _ (g.queues (.cleanupPrefix (prefixOf event)))
    rw [hqueued]
    refine follows_mono _ (fun _ g' hg => ?_) _ _ (ih (g :=
      { g with doomed := prefixOf event :: g.doomed })
      (fun e he => hseen e (List.mem_cons_of_mem _ he)) howes)
    obtain ⟨doomed, rfl, hdoomed⟩ := hg
    refine ⟨doomed, rfl, fun pfx hpfx => ?_⟩
    rcases hdoomed pfx hpfx with hold | ⟨e, he, hsame⟩
    · rcases List.mem_cons.mp hold with rfl | hold
      · exact .inr ⟨event, List.mem_cons_self, rfl⟩
      · exact .inl hold
    · exact .inr ⟨e, List.mem_cons_of_mem _ he, hsame⟩

theorem handleStorageReconcile_work (hcall : g.call = c) (howes : g.owes = [])
    (hdoomed : g.doomed = []) :
    photoWork.Follows handleStorageReconcile (fun _ g' => g'.Free c) g := by
  refine ⟨trivial, fun now _ => ⟨trivial, fun events _ => ⟨trivial, fun assets _ => ?_⟩⟩⟩
  have hfinish : ∀ g' : Work, g'.call = c → g'.owes = [] →
      (∀ pfx ∈ g'.doomed, ∃ event ∈ (events : List EventRow), prefixOf event = pfx) →
      photoWork.Follows (if events = [] then pure JobStatus.success
        else do
          call (.deleteEvents (events.map EventRow.id))
          pure .success) (fun _ g' => g'.Free c) g' := by
    intro g' hcall howes hdoomed
    split
    · rename_i hnone
      refine ⟨hcall, howes, List.eq_nil_iff_forall_not_mem.mpr fun pfx hpfx => ?_⟩
      obtain ⟨event, hevent, -⟩ := hdoomed pfx hpfx
      rw [hnone] at hevent
      cases hevent
    · refine ⟨trivial, fun _ _ => ⟨hcall, howes, ?_⟩⟩
      refine List.filter_eq_nil_iff.mpr fun pfx hpfx hkept => ?_
      obtain ⟨event, hevent, rfl⟩ := hdoomed pfx hpfx
      exact of_decide_eq_true hkept (List.mem_map_of_mem hevent)
  have hqueue :
    ∀ (g' : Work) (f : Unit → MediaProg JobStatus), g'.call = c → g'.owes = [] → g'.doomed = [] →
      (∀ event ∈ (events : List EventRow), prefixOf event ∈ g'.seen) →
      (∀ g'' : Work, g''.call = c → g''.owes = [] →
        (∀ pfx ∈ g''.doomed, ∃ event ∈ (events : List EventRow), prefixOf event = pfx) →
        photoWork.Follows (f ()) (fun _ g' => g'.Free c) g'') →
      photoWork.Follows (queueAll (events.map (fun event =>
        JobItem.cleanupPrefix (StorageKeys.eventPrefix event.orgId event.id))) >>= f) (fun _ g' =>
          g'.Free c) g' := by
    intro g' f hcall howes hdoomed hseen hf
    refine follows_seq _ (queuePrefixes_work hseen howes) fun _ g'' hg => ?_
    obtain ⟨doomed, rfl, hprefixes⟩ := hg
    refine hf { g' with doomed := doomed } hcall howes fun pfx hpfx => ?_
    rcases hprefixes pfx hpfx with hold | hevent
    · rw [hdoomed] at hold
      cases hold
    · exact hevent
  have hseen :
    ∀ event ∈ (events : List EventRow),
    prefixOf event ∈ (events : List EventRow).map prefixOf ++ g.seen :=
    fun event hevent => List.mem_append_left _ (List.mem_map_of_mem hevent)
  change photoWork.Follows (collectKeys assets >>= _) _
    (({ g with seen := (events : List EventRow).map prefixOf ++ g.seen } : Work).lists assets)
  refine follows_seq _ (collectListed_work _) fun keys g' hg => ?_
  obtain ⟨more, rfl, hmore⟩ := hg
  have hswept :
    ∀ (g' : Work) (f : Unit → MediaProg JobStatus), g'.call = c → g'.owes = [] → g'.doomed = [] →
      (∀ event ∈ (events : List EventRow), prefixOf event ∈ g'.seen) →
        (∀ key ∈ keys, key ∈ g'.collected) →
      (∀ g'' : Work, g''.call = c → g''.owes = [] →
        (∀ pfx ∈ g''.doomed, ∃ event ∈ (events : List EventRow), prefixOf event = pfx) →
        photoWork.Follows (f ()) (fun _ g' => g'.Free c) g'') →
      photoWork.Follows (if assets = [] then queueAll (events.map (fun event =>
          JobItem.cleanupPrefix (StorageKeys.eventPrefix event.orgId event.id))) >>= f
        else do
          let job ← call (.queue (.cleanupKeys keys))
          queueAll (events.map
            (fun event => JobItem.cleanupPrefix (StorageKeys.eventPrefix event.orgId event.id)))
          let r ← call (.deleteAssets ((assets : List AssetRow).map (fun a => a.id)) job)
          f r) (fun _ g' => g'.Free c) g' := by
    intro g' f hcall howes hdoomed hseen hkeys hf
    split
    · exact hqueue g' f hcall howes hdoomed hseen hf
    · refine ⟨hkeys, fun job _ => ?_⟩
      refine hqueue (g'.queues (.cleanupKeys keys)) (fun _ => do
        let r ← call (.deleteAssets ((assets : List AssetRow).map (fun a => a.id)) job)
        f r) hcall ?_ hdoomed hseen fun g'' hcall howes hdoomed =>
          ⟨trivial, fun _ _ => hf g'' hcall howes hdoomed⟩
      change g'.owes.filter _ = []
      rw [howes]
      rfl
  split
  · rename_i hnone
    refine hswept _ (fun _ => pure .success) hcall howes hdoomed hseen hmore fun g'' hcall howes
      hdoomed => ?_
    have hfinal := hfinish g'' hcall howes hdoomed
    rw [if_pos hnone] at hfinal
    exact hfinal
  · rename_i hsome
    refine hswept _ (fun _ => do
      call (.deleteEvents (events.map EventRow.id))
      pure .success) hcall howes hdoomed hseen hmore fun g'' hcall howes hdoomed => ?_
    have hfinal := hfinish g'' hcall howes hdoomed
    rw [if_neg hsome] at hfinal
    exact hfinal

theorem remove_work (orgId eventId : ℕ) (confirmation : String) (h : g.Free c) :
    photoWork.Follows (remove orgId eventId confirmation).run (fun _ g' => g'.Free c) g := by
  refine ⟨trivial, fun r hr => ?_⟩
  cases r with
  | none => exact ⟨h.call, h.owes, h.doomed⟩
  | some event =>
    obtain rfl : event.id = eventId := hr event rfl
    have hseen : ({ g with seen := [prefixOf event] ++ g.seen } : Work).Free c :=
      ⟨h.call, h.owes, h.doomed⟩
    change photoWork.Follows (ExceptT.run (if event.orgId ≠ orgId then _ else _)) _
      { g with seen := [prefixOf event] ++ g.seen }
    split
    · exact hseen
    · rename_i horg
      obtain rfl : event.orgId = orgId := not_not.mp horg
      split
      · exact hseen
      · refine ⟨List.mem_append_left _ (List.mem_singleton_self _),
          fun _ _ => ⟨trivial, fun _ _ => ⟨h.call, ?_, ?_⟩⟩⟩
        · change g.owes.filter _ = []
          rw [h.owes]
          rfl
        · change (StorageKeys.eventPrefix event.orgId event.id :: g.doomed).filter
            (fun pfx => pfx ≠ StorageKeys.eventPrefix event.orgId event.id) = []
          rw [h.doomed]
          simp

/-! Uploads and imports. -/

/-- The row of an object that the call has put. -/
theorem storeRow_work {row : AssetRow} (hdrawn : g.drawn = some row.id) (horiginal : Original row)
    (hheld : row.storageKey ∈ g.held) (hstatus : row.status = .stored) (h : g.Free c) :
    photoWork.Follows (storeRow row).run (fun r g' => g'.call = c ∧ g'.doomed = [] ∧
      g'.owes = if r = .ok true then [.assetProcess row.id] else []) g := by
  refine ⟨⟨hdrawn, horiginal, hheld, hstatus⟩, fun r _ => ?_⟩
  cases r with
  | ok _ =>
    refine ⟨h.call, h.doomed, ?_⟩
    change .assetProcess row.id :: g.owes = _
    rw [h.owes, if_pos rfl]
  | error e =>
    cases e with
    | checksumConstraint text =>
      obtain ⟨ext, hkey⟩ := horiginal
      have hmay : ∀ key ∈ [row.storageKey], g.MayDelete key := by
        intro key hmem
        rw [List.mem_singleton.mp hmem]
        refine .inl ?_
        rw [hdrawn, hkey]
        rfl
      change photoWork.Follows ((deleteKeys [row.storageKey]).run >>= fun _ =>
        pure (Except.ok (ε := MediaError) false)) _ g
      refine follows_seq _ (deleteKeys_work hmay) fun r g' hg => ?_
      obtain ⟨held, rfl⟩ := hg
      exact ⟨h.call, h.doomed, h.owes⟩
    | _ => exact ⟨h.call, h.doomed, h.owes⟩

/-- The job that the call owes is queued. -/
theorem free_queued {assetId : ℕ} (hcall : g.call = c) (hdoomed : g.doomed = [])
    (howes : g.owes = [.assetProcess assetId]) : (g.queues (.assetProcess assetId)).Free c := by
  refine ⟨hcall, ?_, hdoomed⟩
  change g.owes.filter _ = []
  rw [howes]
  simp

theorem uploadAsset_work (eventId : ℕ) (staged : StagedUpload) (hdrawn : g.drawn = none)
    (h : g.Free c) :
    photoWork.Follows (uploadAsset eventId staged).run (fun _ g' => g'.Free c) g := by
  refine ⟨trivial, fun event _ => ?_⟩
  cases event with
  | none => exact ⟨h.call, h.owes, h.doomed⟩
  | some event =>
    refine ⟨trivial, fun existing _ => ?_⟩
    cases existing with
    | some existing => exact ⟨h.call, h.owes, h.doomed⟩
    | none =>
      refine ⟨trivial, fun r _ => ?_⟩
      cases r with
      | error e => exact ⟨h.call, h.owes, h.doomed⟩
      | ok _ =>
        refine ⟨hdrawn, fun assetId _ => ⟨fun a ha => .inr ha, fun r _ => ?_⟩⟩
        cases r with
        | error e => exact ⟨h.call, h.owes, h.doomed⟩
        | ok _ =>
          refine (follows_attempt _ _ _ _ _).mpr (follows_mono _ ?_ _ _
            (storeRow_work rfl ⟨_, rfl⟩ List.mem_cons_self rfl ⟨h.call, h.owes, h.doomed⟩))
          intro r g' hg
          obtain ⟨hcall, hdoomed, howes⟩ := hg
          cases r with
          | error e => exact ⟨hcall, howes, hdoomed⟩
          | ok won =>
            cases won with
            | true => exact ⟨trivial, fun _ _ => free_queued hcall hdoomed howes⟩
            | false =>
              refine ⟨trivial, fun winner _ => ?_⟩
              cases winner with
              | none => exact ⟨hcall, howes, hdoomed⟩
              | some winner => exact ⟨hcall, howes, hdoomed⟩

theorem importFile_work (item : ImportItem) (hdrawn : g.drawn = none) (h : g.Free c) :
    photoWork.Follows (importFile item).run (fun _ g' => g'.Free c) g := by
  refine ⟨trivial, fun _ _ => ⟨trivial, fun r _ => ?_⟩⟩
  cases r with
  | error e => exact h
  | ok fetched =>
    obtain ⟨checksum, size⟩ := fetched
    refine ⟨trivial, fun existing _ => ?_⟩
    cases existing with
    | some existing => exact ⟨trivial, fun _ _ => h⟩
    | none =>
      refine ⟨hdrawn, fun assetId _ => ⟨fun a ha => .inr ha, fun r _ => ?_⟩⟩
      cases r with
      | error e => exact ⟨h.call, h.owes, h.doomed⟩
      | ok _ =>
        refine (follows_attempt _ _ _ _ _).mpr (follows_mono _ ?_ _ _
          (storeRow_work rfl ⟨_, rfl⟩ List.mem_cons_self rfl ⟨h.call, h.owes, h.doomed⟩))
        intro r g' hg
        obtain ⟨hcall, hdoomed, howes⟩ := hg
        cases r with
        | error e => exact ⟨hcall, howes, hdoomed⟩
        | ok won =>
          cases won with
          | true =>
            exact ⟨trivial, fun _ _ => ⟨trivial, fun _ _ => free_queued hcall hdoomed howes⟩⟩
          | false => exact ⟨trivial, fun _ _ => ⟨trivial, fun _ _ => ⟨hcall, howes, hdoomed⟩⟩⟩

theorem handleImportFile_work (importItemId : ℕ) (hdrawn : g.drawn = none) (h : g.Free c) :
    photoWork.Follows (handleImportFile importItemId) (fun _ g' => g'.Free c) g := by
  refine ⟨trivial, fun item _ => ?_⟩
  cases item with
  | none => exact h
  | some item =>
    change photoWork.Follows (if item.status ≠ .pending ∨
      item.cancelled = true then pure JobStatus.skipped else _) _ g
    split
    · exact h
    refine follows_seq _ (importFile_work item hdrawn h) fun r g' hg => ?_
    cases r with
    | ok status => exact hg
    | error e => cases e <;> exact ⟨trivial, fun _ _ => hg⟩

theorem storeSelfies_work (dto : Submission) (event : EventRow) (hdrawn : g.drawn = none)
    (h : g.Free c) :
    photoWork.Follows (storeSelfies dto event).run (fun _ g' => g'.Free c) g := by
  refine ⟨hdrawn, fun uuid _ => ?_⟩
  have hothers : ∀ key ∈ (List.range dto.staged.length).map
      (fun index => StorageKeys.selfie event.orgId event.id uuid index),
      ({ g with drawn := some (uuid : ℕ) } : Work).Owns key := by
    intro key hkey
    obtain ⟨index, -, rfl⟩ := List.mem_map.mp hkey
    exact owns_other rfl
  refine (follows_attempt _ _ _ _ _).mpr (follows_mono _ ?_ _ _ (putAll_work hothers))
  intro r g' hg
  obtain ⟨more, rfl, -⟩ := hg
  cases r with
  | error e => exact ⟨h.call, h.owes, h.doomed⟩
  | ok _ =>
    refine ⟨trivial, fun r _ => ?_⟩
    cases r with
    | error e => exact ⟨h.call, h.owes, h.doomed⟩
    | ok participantId =>
      refine ⟨trivial, fun r _ => ?_⟩
      cases r with
      | error e => exact ⟨h.call, h.owes, h.doomed⟩
      | ok _ =>
        refine ⟨trivial, fun _ _ => ⟨trivial, fun _ _ => ⟨h.call, ?_, h.doomed⟩⟩⟩
        change (g.owes.filter _).filter _ = []
        rw [h.owes]
        rfl

theorem submitSelfie_work (dto : Submission) (hdrawn : g.drawn = none) (h : g.Free c) :
    photoWork.Follows (submitSelfie dto).run (fun _ g' => g'.Free c) g := by
  rw [submitSelfie]
  split
  · exact h
  · refine ⟨trivial, fun event _ => ?_⟩
    cases event with
    | error e => exact h
    | ok event =>
      refine ⟨trivial, fun byIp _ => ?_⟩
      cases byIp with
      | false => exact h
      | true =>
        refine ⟨trivial, fun byEmail _ => ?_⟩
        cases byEmail with
        | false => exact h
        | true => exact storeSelfies_work dto event hdrawn h

theorem runJob_work (eventId assetId : ℕ) (h : g.Free (.runJob eventId assetId)) :
    photoWork.Follows (runJob eventId assetId).run
      (fun _ g' => g'.Free (.runJob eventId assetId)) g := by
  refine ⟨trivial, fun asset _ => ?_⟩
  cases asset with
  | none => exact h
  | some asset =>
    refine ⟨.inr ⟨rfl, eventId, h.call⟩, fun _ _ => ⟨trivial, fun _ _ => ?_⟩⟩
    refine free_queued (g := { g with owes := .assetProcess assetId :: g.owes }) h.call h.doomed ?_
    rw [h.owes]

/-! All calls. -/

theorem replying_work {reply : α → MediaReply} {p : Attempt α} (hc : assetOf c = none)
    (h : photoWork.Follows p.run (fun _ g' => g'.Free c) g) :
    photoWork.Follows (replying reply p) (Work.Over c) g := by
  refine follows_seq _ h fun r g' hg => ?_
  cases r <;> exact over_of_free hg hc

theorem first_free (c : MediaCall) : (Work.first c).Free c := ⟨rfl, rfl, rfl⟩

theorem job_work (fuel n : ℕ) (item : JobItem) :
    photoWork.Follows (item.prog fuel) (Work.Over (.job n item)) (.first (.job n item)) := by
  have hfree := first_free (.job n item)
  cases item with
  | assetProcess assetId =>
    refine follows_seq _ (handleAssetProcess_work rfl rfl rfl rfl hfree) fun status g' hg => ?_
    obtain ⟨hfree, hdone⟩ := hg
    refine { hfree with
      processed :=
        fun k a _ => hdone.imp_right fun hended => hended.imp_right fun hfailed => ⟨hfailed.1, ?_⟩
      transcoded := fun k a hcall => by cases hcall }
    rw [hfailed.2]
    rfl
  | videoTranscode assetId =>
    refine follows_seq _ (handleVideoTranscode_work rfl rfl rfl rfl hfree) fun status g' hg => ?_
    obtain ⟨hfree, hended, hdone⟩ := hg
    refine { hfree with
      processed := fun k a hcall => by cases hcall
      transcoded :=
        fun k a _ => ⟨hended, hdone.imp_right fun hfiled => hfiled.imp_right fun hfailed => ?_⟩ }
    rw [hfailed]
    rfl
  | personThumbnail personId =>
    exact replying_work rfl (handlePersonThumbnail_work personId rfl hfree)
  | importFile importItemId =>
    exact follows_seq _ (handleImportFile_work importItemId rfl hfree) fun _ g' hg =>
      over_of_free hg rfl
  | cleanupKeys keys => exact replying_work rfl (handleCleanupKeys_work rfl hfree)
  | cleanupPrefix pfx =>
    refine replying_work rfl ?_
    refine (follows_attempt _ _ _ _ _).mpr (follows_mono _ (fun r g' hg => ?_) _ _
      (deletePrefix_work fuel none rfl hfree))
    cases r <;> exact hg
  | _ => exact over_of_free hfree rfl

theorem calls_work (fuel : ℕ) (c : MediaCall) :
    photoWork.Follows (c.prog fuel) (Work.Over c) (.first c) := by
  have hfree := first_free c
  cases c with
  | job n item => exact job_work fuel n item
  | storageReconcile =>
    exact follows_seq _ (handleStorageReconcile_work rfl rfl rfl) fun _ g' hg => over_of_free hg rfl
  | uploadAsset eventId staged =>
    exact replying_work rfl (uploadAsset_work eventId staged rfl hfree)
  | submitSelfie dto => exact replying_work rfl (submitSelfie_work dto rfl hfree)
  | remove orgId eventId confirmation =>
    exact replying_work rfl (remove_work orgId eventId confirmation hfree)
  | deleteMany eventId ids =>
    exact follows_seq _ (deleteMany_work eventId ids hfree) fun _ g' hg => over_of_free hg rfl
  | runJob eventId assetId => exact replying_work rfl (runJob_work eventId assetId hfree)
  | elapse ms => exact over_of_free hfree rfl

end Follows

end EventLens.Photos
