import EventLens.Histories
import EventLens.ParticipantService
import Mathlib.Data.List.Dedup

/-!
Erasure of a participant, by an organizer or by the retention sweep, after any
history of submissions. The organizer's removal queues the deletion of the
primary photo only, and a new submission drops the rows of the one before it
without deleting its objects. So the removal is complete exactly for a single
submission of a single photo, and the sweep exactly for a single submission.
-/

namespace EventLens.Selfies

open Programs Contract

abbrev ParticipantEpisode :=
    Episode ParticipantCall ParticipantOp ParticipantRes ParticipantStore Answer

/-- The objects stored in the course of a call. -/
def storedKeys (trace : List ParticipantEvent) : List SelfieKey :=
  trace.filterMap (fun e => match e.1 with
    | .putFile _ key _ => some key
    | _ => none)

/-- The objects of each submission of a participant, in order. -/
def submissionsOf (es : List ParticipantEpisode) (id : ParticipantId) : List (List SelfieKey) :=
  es.filterMap (fun e => match e.answer with
    | .ok (.submitted k) => if k = id then some (storedKeys e.trace) else none
    | _ => none)

/-- Every queued deletion of objects has run. -/
def drain (s : ParticipantStore) : ParticipantStore :=
  s.jobs.foldl (fun s job => match job with
    | .cleanupKeys keys => s.deleteKeys keys
    | _ => s) s

/-- Nothing of the participant's submissions is left. -/
structure Erased (sets : List (List SelfieKey)) (id : ParticipantId) (s : ParticipantStore) :
    Prop where
  objects : ∀ keys ∈ sets, ∀ key ∈ keys, key ∉ s.bucket
  selfies : ∀ row ∈ s.selfies, row.participantId ≠ id
  embedding : ∀ p ∈ s.participants, p.id = id → p.selfieEmbedding = none

def ParticipantCall.cleaned : ParticipantCall → Option (List SelfieKey)
  | .cleanupKeys keys => some keys
  | _ => none

/-- A deletion of objects runs only when it was queued. -/
def RunsQueued (_past : List ParticipantEpisode) (e : ParticipantEpisode) : Prop :=
  ∀ keys ∈ e.call.cleaned, .cleanupKeys keys ∈ e.before.jobs

instance (past : List ParticipantEpisode) (e : ParticipantEpisode) :
    Decidable (RunsQueued past e) := by
  unfold RunsQueued
  infer_instance

/-- An organizer's removal leaves nothing of a participant's submissions. -/
def RemovalErases (V : Services) : Prop :=
  ∀ (es : List ParticipantEpisode) (s s' : ParticipantStore) (p : Participant) (eventId : String)
    (trace : List ParticipantEvent),
    History (participantHandler V) (ParticipantCall.prog V) {} es s → Throughout RunsQueued es →
    p ∈ s.participants → p.deletedAt = none →
    Exec (participantHandler V) (ParticipantCall.prog V (.remove eventId p.id)) s trace
      (.ok .removed) s' →
    Erased (submissionsOf es p.id) p.id (drain s')

/-- A sweep that takes a participant leaves nothing of the submissions. -/
def SweepErases (V : Services) : Prop :=
  ∀ (es : List ParticipantEpisode) (s s' : ParticipantStore) (p : Participant) (answer : Answer)
    (trace : List ParticipantEvent),
    History (participantHandler V) (ParticipantCall.prog V) {} es s → Throughout RunsQueued es →
    p ∈ s.participants → p.deletedAt = none →
    Exec (participantHandler V) (ParticipantCall.prog V .selfieRetentionSweep) s trace answer s' →
    (∀ q ∈ s'.participants, q.id = p.id → q.deletedAt ≠ none) →
    Erased (submissionsOf es p.id) p.id (drain s')

/-! What a live participant's submissions have left. -/

/-- The objects the selfie rows of a participant name. -/
def ParticipantStore.keysOf (s : ParticipantStore) (id : ParticipantId) : List SelfieKey :=
  (s.selfies.filter (fun row => row.participantId = id)).map (fun row => row.storageKey)

/-- All objects are in the bucket and no deletion is queued for them; the row
and the selfie rows hold the last submission. -/
structure Kept (sets : List (List SelfieKey)) (p : Participant) (s : ParticipantStore) : Prop where
  last : ∃ earlier keys, sets = earlier ++ [keys] ∧ p.selfieKey = keys.head? ∧
    s.keysOf p.id = keys
  nonempty : ∀ keys ∈ sets, keys ≠ []
  nodup : sets.flatten.Nodup
  stored : ∀ key ∈ sets.flatten, key ∈ s.bucket
  uncleaned : ∀ key ∈ sets.flatten, ∀ keys, .cleanupKeys keys ∈ s.jobs → key ∉ keys

structure Ledger (sets : ParticipantId → List (List SelfieKey)) (s : ParticipantStore) : Prop where
  ids : (s.participants.map Participant.id).Nodup
  below : ∀ p ∈ s.participants, p.id < s.nextParticipant
  unused : ∀ id, s.nextParticipant ≤ id → sets id = []
  fresh : ∀ id, ∀ key ∈ (sets id).flatten, key.participantId < s.nextUuid
  apart : ∀ id id', id ≠ id' → ∀ key ∈ (sets id).flatten, key ∉ (sets id').flatten
  queued : ∀ keys, .cleanupKeys keys ∈ s.jobs → ∀ key ∈ keys, key.participantId < s.nextUuid
  live : ∀ p ∈ s.participants, p.deletedAt = none → Kept (sets p.id) p s

theorem ledger_empty : Ledger (fun _ => []) {} where
  ids := List.nodup_nil
  below _ hp := absurd hp List.not_mem_nil
  unused _ _ := rfl
  fresh _ _ hkey := absurd hkey List.not_mem_nil
  apart _ _ _ _ hkey := absurd hkey List.not_mem_nil
  queued _ hks := absurd hks List.not_mem_nil
  live _ hp := absurd hp List.not_mem_nil

section Drain

variable {s : ParticipantStore} {key : SelfieKey}

theorem mem_drain_bucket : key ∈ (drain s).bucket ↔
    key ∈ s.bucket ∧ ∀ keys, .cleanupKeys keys ∈ s.jobs → key ∉ keys := by
  rw [drain]
  generalize s.jobs = jobs
  induction jobs generalizing s with
  | nil => simp
  | cons job jobs ih =>
    rw [List.foldl_cons, ih]
    cases job with
    | cleanupKeys keys =>
      simp only [ParticipantStore.deleteKeys, List.mem_filter, decide_eq_true_eq, List.mem_cons,
        ParticipantJob.cleanupKeys.injEq, forall_eq_or_imp, and_assoc]
    | _ => simp

theorem drain_tables : (drain s).selfies = s.selfies ∧ (drain s).participants = s.participants := by
  rw [drain]
  generalize s.jobs = jobs
  induction jobs generalizing s with
  | nil => exact ⟨rfl, rfl⟩
  | cons job jobs ih =>
    rw [List.foldl_cons]
    obtain ⟨hselfies, hparticipants⟩ := ih (s := match job with
      | .cleanupKeys keys => s.deleteKeys keys
      | _ => s)
    rw [hselfies, hparticipants]
    cases job <;> exact ⟨rfl, rfl⟩

end Drain

/-! Calls made one after another. -/

section Solo

variable (V : Services)

theorem participantHandler_lawful : Lawful (participantHandler V) := by
  intro o r s
  cases o with
  | now => simp [participantHandler, ParticipantStore.tick]
  | putFile path key mimeType => cases r <;> rfl
  | getObject key => by_cases hkey : key ∈ s.bucket <;> simp [participantHandler, hkey]
  | writeWorkFile id ordinal key => cases r <;> rfl
  | detectFaces id ordinal =>
    cases r with
    | error e => rfl
    | ok seen =>
      simp only [participantHandler]
      cases s.workFile id ordinal with
      | none => rfl
      | some f => cases hphoto : f.photo <;> simp [hphoto]
  | searchFaces eventId embedding maxDistance =>
    simp only [participantHandler, Prod.mk.injEq, and_true]
    exact List.filter_eq_self.mpr fun face hface => (List.mem_filter.mp hface).2
  | insertSelfies id keys =>
    simp only [participantHandler]
  | insertMatches inserts =>
    cases r with
    | error e => rfl
    | ok r => simp [participantHandler, ParticipantStore.tick]
  | _ => rfl

/-- A call that is alone on the tables. -/
abbrev solo : Contract ParticipantOp ParticipantRes (ParticipantStore × List ParticipantEvent) :=
  alone (participantHandler V) (fun _ _ => True) (fun _ _ => True)

variable {V} {α : Type} {s s' : ParticipantStore} {past trace : List ParticipantEvent}

theorem solo_perform {o : ParticipantOp} {next : ParticipantRes o → ParticipantProg α}
    {Q : α → ParticipantStore × List ParticipantEvent → Prop}
    (h : ∀ r, (participantHandler V o r s).1 = r →
      (solo V).Follows (next r) Q ((participantHandler V o r s).2, past ++ [⟨o, r⟩])) :
    (solo V).Follows (.perform o next) Q (s, past) :=
  ⟨trivial, fun r hr => h r hr.1⟩

theorem exec_solo {p : ParticipantProg α} {value : α}
    {Q : α → ParticipantStore × List ParticipantEvent → Prop}
    (he : Exec (participantHandler V) p s trace value s') (h : (solo V).Follows p Q (s, [])) :
    Q value (s', trace) :=
  (exec_follows (participantHandler_lawful V) he h fun _ _ _ _ => trivial).2

end Solo

/-! Calls that leave submissions alone. -/

/-- Operations on objects, on the selfie rows and on who there is. -/
def ParticipantOp.erasing : ParticipantOp → Prop
  | .randomUUID | .putFile _ _ _ | .upsert _ | .deleteSelfies _ | .insertSelfies _ _
  | .deleteParticipant _ | .scrub _ | .queue (.cleanupKeys _) | .deleteKeys _ => True
  | _ => False

section Quiet

variable {V : Services} {sets : ParticipantId → List (List SelfieKey)}
  {keys : List (List SelfieKey)} {p p' : Participant} {s s' : ParticipantStore}

theorem Kept.congr (h : Kept keys p s) (hid : p'.id = p.id) (hkey : p'.selfieKey = p.selfieKey)
    (hselfies : s'.keysOf p.id = s.keysOf p.id) (hbucket : ∀ key ∈ s.bucket, key ∈ s'.bucket)
    (hjobs : ∀ ks, .cleanupKeys ks ∈ s'.jobs → .cleanupKeys ks ∈ s.jobs) : Kept keys p' s' where
  last := by
    rw [hid, hkey, hselfies]
    exact h.last
  nonempty := h.nonempty
  nodup := h.nodup
  stored key hmem := hbucket key (h.stored key hmem)
  uncleaned key hmem ks hks := h.uncleaned key hmem ks (hjobs ks hks)

theorem keysOf_setSelfieEmbedding (id : SelfieId) (embedding : Option Embedding)
    (k : ParticipantId) : (s.setSelfieEmbedding id embedding).keysOf k = s.keysOf k := by
  simp only [ParticipantStore.keysOf, ParticipantStore.setSelfieEmbedding, updateRow,
    List.filter_map,
    List.map_map]
  have hsame : ∀ row : ParticipantSelfie,
      (if row.id = id then { row with embedding := embedding } else row).participantId =
          row.participantId ∧
        (if row.id = id then { row with embedding := embedding } else row).storageKey =
          row.storageKey := by
    intro row
    split <;> exact ⟨rfl, rfl⟩
  simp [Function.comp_def, hsame]

/-- A change of the tables that keeps who there is, whose rows name what, the
bucket and the queued deletions. -/
theorem Ledger.congr (h : Ledger sets s)
    (hids : s'.participants.map Participant.id = s.participants.map Participant.id)
    (hpeople : ∀ p' ∈ s'.participants, ∃ p ∈ s.participants, p'.id = p.id ∧
      p'.selfieKey = p.selfieKey ∧ p'.deletedAt = p.deletedAt)
    (hselfies : ∀ k, s'.keysOf k = s.keysOf k) (hbucket : s'.bucket = s.bucket)
    (hjobs : ∀ ks, .cleanupKeys ks ∈ s'.jobs → .cleanupKeys ks ∈ s.jobs)
    (hnext : s'.nextParticipant = s.nextParticipant) (huuid : s'.nextUuid = s.nextUuid) :
    Ledger sets s' where
  ids := by
    rw [hids]
    exact h.ids
  below p' hp' := by
    obtain ⟨p, hp, hid, -⟩ := hpeople p' hp'
    rw [hid, hnext]
    exact h.below p hp
  unused := by
    rw [hnext]
    exact h.unused
  fresh := by
    rw [huuid]
    exact h.fresh
  apart := h.apart
  queued ks hks := by
    rw [huuid]
    exact h.queued ks (hjobs ks hks)
  live p' hp' hlive := by
    obtain ⟨p, hp, hid, hkey, hdeleted⟩ := hpeople p' hp'
    rw [hdeleted] at hlive
    rw [hid]
    exact (h.live p hp hlive).congr hid hkey (hselfies _) (fun key hmem => hbucket ▸ hmem) hjobs

theorem ledger_op {o : ParticipantOp} (ho : ¬ o.erasing) (r : ParticipantRes o)
    (h : Ledger sets s) : Ledger sets (participantHandler V o r s).2 := by
  have hself : ∀ p' ∈ s.participants, ∃ p ∈ s.participants, p'.id = p.id ∧
      p'.selfieKey = p.selfieKey ∧ p'.deletedAt = p.deletedAt := fun p hp => ⟨p, hp, rfl, rfl, rfl⟩
  cases o with
  | update id dto =>
    refine h.congr (map_updateRow fun _ => rfl) ?_ (fun _ => rfl) rfl (fun _ hks => hks) rfl rfl
    intro p' hp'
    rcases mem_updateRow.mp hp' with ⟨p, hp, -, rfl⟩ | ⟨hp, -⟩
    · exact ⟨p, hp, rfl, rfl, rfl⟩
    · exact ⟨p', hp, rfl, rfl, rfl⟩
  | setSelfieEmbedding id embedding =>
    exact h.congr rfl hself (keysOf_setSelfieEmbedding id embedding) rfl (fun _ hks => hks) rfl rfl
  | queue job =>
    obtain ⟨jobs, hadd, -, hjobs⟩ := s.addJob_jobs job
    have hcleanup : ∀ ks, .cleanupKeys ks ∈ jobs → .cleanupKeys ks ∈ s.jobs := by
      intro ks hks
      rcases hjobs _ hks with hks | rfl
      · exact hks
      · exact absurd trivial ho
    change Ledger sets (s.addJob job)
    rw [hadd]
    exact h.congr rfl hself (fun _ => rfl) rfl hcleanup rfl rfl
  | insertMatches inserts =>
    cases r with
    | error e => exact h
    | ok r => exact h.congr rfl hself (fun _ => rfl) rfl (fun _ hks => hks) rfl rfl
  | send id template counted =>
    cases r <;> exact h.congr rfl hself (fun _ => rfl) rfl (fun _ hks => hks) rfl rfl
  | writeWorkFile id ordinal key =>
    cases r <;> exact h.congr rfl hself (fun _ => rfl) rfl (fun _ hks => hks) rfl rfl
  | removeWorkDir id => exact h.congr rfl hself (fun _ => rfl) rfl (fun _ hks => hks) rfl rfl
  | detectFaces id ordinal =>
    rw [detectFaces_same]
    exact h
  | now => exact h.congr rfl hself (fun _ => rfl) rfl (fun _ hks => hks) rfl rfl
  | deleteEmails id => exact h.congr rfl hself (fun _ => rfl) rfl (fun _ hks => hks) rfl rfl
  | randomUUID => exact absurd trivial ho
  | putFile path key mimeType => exact absurd trivial ho
  | upsert dto => exact absurd trivial ho
  | deleteSelfies id => exact absurd trivial ho
  | insertSelfies id keys => exact absurd trivial ho
  | deleteParticipant id => exact absurd trivial ho
  | scrub id => exact absurd trivial ho
  | deleteKeys keys => exact absurd trivial ho
  | _ => exact h

end Quiet

/-! Submission. -/

section Submission

variable {V : Services} {s : ParticipantStore} {past : List ParticipantEvent}

theorem storedKeys_append (es es' : List ParticipantEvent) :
    storedKeys (es ++ es') = storedKeys es ++ storedKeys es' := List.filterMap_append

/-- A call that throws without touching anything but the bucket. -/
def Stranded (s s' : ParticipantStore) : Prop :=
  ∃ uuid extra, s.nextUuid ≤ uuid ∧
    s' = { s with nextUuid := uuid, bucket := s.bucket ++ extra }

theorem stranded_refl (s : ParticipantStore) : Stranded s s :=
  ⟨s.nextUuid, [], le_rfl, by simp⟩

theorem putFiles_solo (files : List (StagedUpload × SelfieKey)) :
    (solo V).Follows (putFiles files).run
      (fun r g => match r with
        | .ok _ => g.1 = { s with bucket := s.bucket ++ files.map Prod.snd } ∧
            storedKeys g.2 = storedKeys past ++ files.map Prod.snd
        | .error _ => ∃ extra, g.1 = { s with bucket := s.bucket ++ extra }) (s, past) := by
  induction files generalizing s past with
  | nil => exact ⟨by simp, by simp⟩
  | cons file files ih =>
    refine solo_perform fun r hr => ?_
    cases r with
    | error e => exact ⟨[], by simp [participantHandler]⟩
    | ok _ =>
      refine follows_mono _ ?_ _ _ ih
      rintro (e | _) g hg
      · obtain ⟨extra, hstate⟩ := hg
        exact ⟨file.2 :: extra, by rw [hstate]; simp [participantHandler]⟩
      · obtain ⟨hstate, hkeys⟩ := hg
        refine ⟨by rw [hstate]; simp [participantHandler], ?_⟩
        rw [hkeys, storedKeys_append]
        simp [storedKeys]

/-- The tables after a submission. -/
def ParticipantStore.submit (s : ParticipantStore) (dto : ParticipantUpsert)
    (keys : List SelfieKey) :
    ParticipantStore :=
  let stored := { s with nextUuid := s.nextUuid + 1, bucket := s.bucket ++ keys }
  let id := (stored.upsert dto).1.id
  ((((stored.upsert dto).2.deleteSelfies id).insertSelfies id keys).addJob
    (.sendSelfieReceived id)).addJob (.selfieProcess id)

/-- The keys of one submission are new, and different from each other. -/
structure FreshKeys (s : ParticipantStore) (keys : List SelfieKey) : Prop where
  nonempty : keys ≠ []
  nodup : keys.Nodup
  uuid : ∀ key ∈ keys, key.participantId = s.nextUuid

theorem mem_selfieKeys {orgId eventId : String} {uuid index : ℕ} {staged : List StagedUpload}
    {key : SelfieKey} (h : key ∈ selfieKeys orgId eventId uuid index staged) :
    key.participantId = uuid ∧ index ≤ key.index := by
  induction staged generalizing index with
  | nil => cases h
  | cons file staged ih =>
    rcases List.mem_cons.mp h with rfl | h
    · exact ⟨rfl, le_rfl⟩
    · obtain ⟨huuid, hindex⟩ := ih h
      exact ⟨huuid, by omega⟩

theorem nodup_selfieKeys (orgId eventId : String) (uuid index : ℕ) (staged : List StagedUpload) :
    (selfieKeys orgId eventId uuid index staged).Nodup := by
  induction staged generalizing index with
  | nil => exact List.nodup_nil
  | cons file staged ih =>
    refine List.nodup_cons.mpr ⟨fun hmem => ?_, ih (index + 1)⟩
    have hindex : index + 1 ≤ index := (mem_selfieKeys hmem).2
    omega

theorem map_snd_zip_selfieKeys (orgId eventId : String) (uuid index : ℕ)
    (staged : List StagedUpload) :
    (staged.zip (selfieKeys orgId eventId uuid index staged)).map Prod.snd =
      selfieKeys orgId eventId uuid index staged := by
  induction staged generalizing index with
  | nil => rfl
  | cons file staged ih => simp [selfieKeys, ih]

/-- The rows are free once they have been deleted. -/
theorem free_deleteSelfies (id : ParticipantId) (count : ℕ) :
    (s.deleteSelfies id).free id count = true := by
  simp only [ParticipantStore.free, ParticipantStore.deleteSelfies, List.all_eq_true,
    List.mem_filter,
    decide_eq_true_eq, Bool.or_eq_true]
  exact fun row hrow => .inl hrow.2

theorem storeSelfies_solo {dto : Submission} (hstaged : dto.staged ≠ []) (orgId eventId : String)
    (hpast : storedKeys past = []) :
    (solo V).Follows (storeSelfies dto orgId eventId).run
      (fun r g => match r with
        | .ok id => ∃ up keys, FreshKeys s keys ∧ some up.selfieKey = keys.head? ∧
            id = (({ s with nextUuid := s.nextUuid + 1, bucket := s.bucket ++ keys } :
              ParticipantStore).upsert up).1.id ∧
            g.1 = s.submit up keys ∧ storedKeys g.2 = keys
        | .error _ => Stranded s g.1) (s, past) := by
  refine solo_perform fun uuid huuid => ?_
  obtain rfl : s.nextUuid = uuid := huuid
  refine (follows_attempt _ _ _ _ _).mpr (follows_mono _ ?_ _ _ (putFiles_solo _))
  rintro (e | _) ⟨s₁, past₁⟩ hput
  · obtain ⟨extra, rfl⟩ := hput
    exact ⟨s.nextUuid + 1, extra, by omega, rfl⟩
  obtain ⟨rfl, hkeys⟩ := hput
  rw [map_snd_zip_selfieKeys] at hkeys ⊢
  have hfresh : FreshKeys s (selfieKeys orgId eventId s.nextUuid 0 dto.staged) := by
    refine ⟨?_, nodup_selfieKeys .., fun key hkey => (mem_selfieKeys hkey).1⟩
    cases hcase : dto.staged with
    | nil => exact absurd hcase hstaged
    | cons file files => simp [selfieKeys]
  generalize selfieKeys orgId eventId s.nextUuid 0 dto.staged = keys at hkeys hfresh ⊢
  refine solo_perform fun participant hparticipant => ?_
  obtain rfl : (ParticipantStore.upsert
      { s with nextUuid := s.nextUuid + 1, bucket := s.bucket ++ keys } _).1 = participant :=
    hparticipant
  refine solo_perform fun _ _ => ?_
  change (solo V).Follows (ExceptT.run ((if keys = [] then _ else _ : Attempt Unit) >>= _)) _ _
  rw [if_neg hfresh.nonempty]
  refine solo_perform fun written hwritten => ?_
  have hinsert : ∀ (s₁ : ParticipantStore) (id : ParticipantId),
      participantHandler V (.insertSelfies id keys) written (s₁.deleteSelfies id) =
        (.ok (), (s₁.deleteSelfies id).insertSelfies id keys) :=
    fun s₁ id => if_pos (free_deleteSelfies id keys.length)
  have hdelete : ∀ (s₁ : ParticipantStore) (id : ParticipantId) r,
      (participantHandler V (.deleteSelfies id) r s₁).2 = s₁.deleteSelfies id := fun _ _ _ => rfl
  rw [hdelete, hinsert] at hwritten ⊢
  obtain rfl : Except.ok () = written := hwritten
  refine solo_perform fun _ _ => solo_perform fun _ _ => ?_
  refine ⟨_, keys, hfresh, ?_, rfl, rfl, ?_⟩
  · cases keys with
    | nil => exact absurd rfl hfresh.nonempty
    | cons key keys => rfl
  · simp only [storedKeys_append, hkeys, hpast]
    simp [storedKeys]

theorem submitSelfie_solo (dto : Submission) :
    (solo V).Follows (submitSelfie dto).run
      (fun r g => match r with
        | .ok id => ∃ up keys, FreshKeys s keys ∧ some up.selfieKey = keys.head? ∧
            id = (({ s with nextUuid := s.nextUuid + 1, bucket := s.bucket ++ keys } :
              ParticipantStore).upsert up).1.id ∧
            g.1 = s.submit up keys ∧ storedKeys g.2 = keys
        | .error _ => Stranded s g.1) (s, []) := by
  have hchecked : ∀ staged : List StagedUpload, checkStaged staged = pure () ∨
      ∃ e, checkStaged staged = throw e := by
    intro staged
    induction staged with
    | nil => exact .inl rfl
    | cons file files ih =>
      rw [checkStaged]
      split
      · exact .inr ⟨_, rfl⟩
      split
      · exact .inr ⟨_, rfl⟩
      · exact ih
  rw [submitSelfie, validate]
  by_cases hstaged : dto.staged = []
  · rw [if_pos hstaged]
    exact stranded_refl s
  rw [if_neg hstaged]
  split
  · exact stranded_refl s
  rcases hchecked dto.staged with hok | ⟨e, herror⟩
  · rw [hok]
    refine solo_perform fun event _ => ?_
    cases event with
    | error e => exact stranded_refl s
    | ok event =>
      refine solo_perform fun byIp _ => ?_
      cases byIp with
      | false => exact stranded_refl s
      | true =>
        refine solo_perform fun byEmail _ => ?_
        cases byEmail with
        | false => exact stranded_refl s
        | true => exact storeSelfies_solo hstaged event.1 event.2 rfl
  · rw [herror]
    exact stranded_refl s

end Submission

section Submitted

variable {sets : ParticipantId → List (List SelfieKey)} {s s' : ParticipantStore}
  {up : ParticipantUpsert} {keys : List SelfieKey}

theorem storageKey_selfieRows (keys : List SelfieKey) (id : ParticipantId) (next : SelfieId)
    (ordinal : ℕ) :
    (ParticipantStore.selfieRows id next ordinal keys).map (fun row => row.storageKey) = keys ∧
      ∀ row ∈ ParticipantStore.selfieRows id next ordinal keys, row.participantId = id := by
  induction keys generalizing next ordinal with
  | nil => exact ⟨rfl, nofun⟩
  | cons key keys ih =>
    obtain ⟨hkeys, hid⟩ := ih (next + 1) (ordinal + 1)
    refine ⟨by rw [ParticipantStore.selfieRows, List.map_cons, hkeys], fun row hrow => ?_⟩
    rcases List.mem_cons.mp hrow with rfl | hrow
    · rfl
    · exact hid row hrow

/-- What a new set of selfies leaves of the sets of all participants. -/
theorem keysOf_insertSelfies (s : ParticipantStore) (keys : List SelfieKey) (id k : ParticipantId) :
    ((s.deleteSelfies id).insertSelfies id keys).keysOf k = if k =
    id then keys else s.keysOf k := by
  obtain ⟨hkeys, hid⟩ := storageKey_selfieRows keys id s.nextSelfie 0
  simp only [ParticipantStore.keysOf, ParticipantStore.insertSelfies,
    ParticipantStore.deleteSelfies,
    List.filter_append, List.map_append, List.filter_filter]
  by_cases hk : k = id
  · subst hk
    have hnone : s.selfies.filter (fun row => decide (row.participantId = k) &&
        decide (row.participantId ≠ k)) = [] := by
      refine List.filter_eq_nil_iff.mpr fun row _ => ?_
      by_cases hrow : row.participantId = k <;> simp [hrow]
    have hall := List.filter_eq_self.mpr fun row hrow => decide_eq_true (hid row hrow)
    rw [hnone, hall, hkeys, if_pos rfl]
    rfl
  · have hnone : (ParticipantStore.selfieRows id s.nextSelfie 0 keys).filter
        (fun row => decide (row.participantId = k)) = [] := by
      refine List.filter_eq_nil_iff.mpr fun row hrow => ?_
      rw [hid row hrow]
      simpa using Ne.symm hk
    rw [hnone, if_neg hk, List.map_nil, List.append_nil]
    refine congrArg _ (List.filter_congr fun row _ => ?_)
    by_cases hrow : row.participantId = k
    · simp [hrow, hk]
    · simp [hrow]

/-- The tables after a submission, apart from the participants and the rows of
the selfies. -/
theorem submit_rest (s : ParticipantStore) (up : ParticipantUpsert) (keys : List SelfieKey) :
    (s.submit up keys).bucket = s.bucket ++ keys ∧
      (s.submit up keys).nextUuid = s.nextUuid + 1 ∧
      ∀ ks, .cleanupKeys ks ∈ (s.submit up keys).jobs → .cleanupKeys ks ∈ s.jobs := by
  rw [ParticipantStore.submit, ParticipantStore.upsert_rest]
  refine ⟨rfl, rfl, fun ks hks => ?_⟩
  rcases List.mem_append.mp hks with hks | hks
  · rcases List.mem_append.mp hks with hks | hks
    · exact hks
    · cases List.mem_singleton.mp hks
  · cases List.mem_singleton.mp hks

theorem upsert_row : (s.upsert up).1 = match s.conflicting up with
    | some p => ParticipantStore.resubmitted up p
    | none => ParticipantStore.newParticipant up s.nextParticipant := by
  rw [ParticipantStore.upsert]
  cases s.conflicting up <;> rfl

/-- Another submission by a participant who may have made some before. -/
theorem Kept.submitted {earlier : List (List SelfieKey)} {p : Participant}
    (hkeys : FreshKeys s keys) (hrow : p.selfieKey = keys.head?) (hselfies : s'.keysOf p.id = keys)
    (hbucket : s'.bucket = s.bucket ++ keys)
    (hjobs : ∀ ks, .cleanupKeys ks ∈ s'.jobs → .cleanupKeys ks ∈ s.jobs)
    (hnonempty : ∀ ks ∈ earlier, ks ≠ []) (hnodup : earlier.flatten.Nodup)
    (hstored : ∀ key ∈ earlier.flatten, key ∈ s.bucket)
    (huncleaned : ∀ key ∈ earlier.flatten, ∀ ks, .cleanupKeys ks ∈ s.jobs → key ∉ ks)
    (hfresh : ∀ key ∈ earlier.flatten, key.participantId < s.nextUuid)
    (hqueued : ∀ ks, .cleanupKeys ks ∈ s.jobs → ∀ key ∈ ks, key.participantId < s.nextUuid) :
    Kept (earlier ++ [keys]) p s' where
  last := ⟨earlier, keys, rfl, hrow, hselfies⟩
  nonempty ks hks := by
    rcases List.mem_append.mp hks with hks | hks
    · exact hnonempty ks hks
    · rw [List.mem_singleton.mp hks]
      exact hkeys.nonempty
  nodup := by
    rw [List.flatten_append, List.flatten_singleton]
    refine hnodup.append hkeys.nodup fun key hold hnew => ?_
    have hlt := hfresh key hold
    rw [hkeys.uuid key hnew] at hlt
    omega
  stored key hkey := by
    rw [List.flatten_append, List.flatten_singleton] at hkey
    rw [hbucket]
    exact List.mem_append.mpr ((List.mem_append.mp hkey).imp_left (hstored key))
  uncleaned key hkey ks hks hmem := by
    rw [List.flatten_append, List.flatten_singleton] at hkey
    rcases List.mem_append.mp hkey with hold | hnew
    · exact huncleaned key hold ks (hjobs ks hks) hmem
    · have hlt := hqueued ks (hjobs ks hks) key hmem
      rw [hkeys.uuid key hnew] at hlt
      omega

/-- The sets of all participants after one more submission. -/
def withSet (sets : ParticipantId → List (List SelfieKey)) (id : ParticipantId)
    (keys : List SelfieKey) : ParticipantId → List (List SelfieKey) :=
  fun k => sets k ++ if k = id then [keys] else []

theorem withSet_self (id : ParticipantId) : withSet sets id keys id = sets id ++ [keys] := by
  rw [withSet, if_pos rfl]

theorem withSet_other {id k : ParticipantId} (hk : k ≠ id) : withSet sets id keys k = sets k := by
  rw [withSet, if_neg hk, List.append_nil]

theorem mem_withSet {id k : ParticipantId} {key : SelfieKey}
    (h : key ∈ (withSet sets id keys k).flatten) :
    key ∈ (sets k).flatten ∨ k = id ∧ key ∈ keys := by
  by_cases hk : k = id
  · subst hk
    rw [withSet_self, List.flatten_append, List.flatten_singleton] at h
    exact (List.mem_append.mp h).imp_right fun hkey => ⟨rfl, hkey⟩
  · rw [withSet_other hk] at h
    exact .inl h

/-- What the sets of the participant of a submission were before it. -/
structure Prior (earlier : List (List SelfieKey)) (s : ParticipantStore) : Prop where
  nonempty : ∀ ks ∈ earlier, ks ≠ []
  nodup : earlier.flatten.Nodup
  stored : ∀ key ∈ earlier.flatten, key ∈ s.bucket
  uncleaned : ∀ key ∈ earlier.flatten, ∀ ks, .cleanupKeys ks ∈ s.jobs → key ∉ ks

theorem Kept.prior {earlier : List (List SelfieKey)} {p : Participant} (h : Kept earlier p s) :
    Prior earlier s :=
  ⟨h.nonempty, h.nodup, h.stored, h.uncleaned⟩

theorem prior_nil : Prior [] s := ⟨nofun, List.nodup_nil, nofun, nofun⟩

/-- Who there is after the upsert. -/
structure Upserted (id : ParticipantId) (up : ParticipantUpsert) (s s' : ParticipantStore) :
    Prop where
  ids : (s'.participants.map Participant.id).Nodup
  below : ∀ p ∈ s'.participants, p.id < s'.nextParticipant
  unused : ∀ k, s'.nextParticipant ≤ k → s.nextParticipant ≤ k ∧ k ≠ id
  rows : ∀ p ∈ s'.participants, p.id = id ∧ p.selfieKey = some up.selfieKey ∨
    p ∈ s.participants ∧ p.id ≠ id

theorem Ledger.upserted (h : Ledger sets s) (up : ParticipantUpsert) :
    Upserted (s.upsert up).1.id up s (s.upsert up).2 ∧ Prior (sets (s.upsert up).1.id) s := by
  obtain ⟨hids, hbelow⟩ := s.ids_upsert up h.ids h.below
  rcases s.upsert_cases up with ⟨p, hp, hlive, hrow, hpeople, hnext⟩ | ⟨hrow, hpeople, hnext⟩
  · have hid : (s.upsert up).1.id = p.id := by
      rw [hrow]
      rfl
    rw [hid]
    refine ⟨⟨hids, hbelow, ?_, ?_⟩, (h.live p hp hlive).prior⟩
    · intro k hk
      rw [hnext] at hk
      have hlt := h.below p hp
      exact ⟨hk, by rintro rfl; exact absurd hlt (Nat.not_lt.mpr hk)⟩
    · intro q hq
      rw [hpeople] at hq
      rcases mem_updateRow.mp hq with ⟨before, hbefore, hbid, rfl⟩ | ⟨hq, hne⟩
      · exact .inl ⟨hbid, rfl⟩
      · exact .inr ⟨hq, hne⟩
  · have hid : (s.upsert up).1.id = s.nextParticipant := congrArg Participant.id hrow
    rw [hid, h.unused _ le_rfl]
    refine ⟨⟨hids, hbelow, ?_, ?_⟩, prior_nil⟩
    · intro k hk
      rw [hnext] at hk
      exact ⟨Nat.le_of_succ_le hk, Nat.ne_of_gt hk⟩
    · intro q hq
      rw [hpeople] at hq
      rcases List.mem_append.mp hq with hq | hq
      · exact .inr ⟨hq, Nat.ne_of_lt (h.below q hq)⟩
      · rw [List.mem_singleton.mp hq]
        exact .inl ⟨rfl, rfl⟩

theorem Ledger.submit (h : Ledger sets s) (hkeys : FreshKeys s keys)
    (hhead : some up.selfieKey = keys.head?) :
    Ledger (withSet sets (({ s with nextUuid := s.nextUuid + 1, bucket := s.bucket ++ keys } :
      ParticipantStore).upsert up).1.id keys) (s.submit up keys) := by
  obtain ⟨hbucket, huuid, hjobs⟩ := submit_rest s up keys
  have hstored : Ledger sets { s with nextUuid := s.nextUuid + 1, bucket := s.bucket ++ keys } := by
    refine ⟨h.ids, h.below, h.unused, fun k key hkey => Nat.lt_succ_of_lt (h.fresh k key hkey),
      h.apart, fun ks hks key hkey => Nat.lt_succ_of_lt (h.queued ks hks key hkey), ?_⟩
    intro p hp hlive
    exact (h.live p hp hlive).congr rfl rfl rfl (fun key hkey => List.mem_append_left _ hkey)
      fun _ hks => hks
  obtain ⟨hpeople, -⟩ := hstored.upserted up
  have hprior := (h.upserted up).2
  have hrow : (({ s with nextUuid := s.nextUuid + 1, bucket := s.bucket ++ keys } :
      ParticipantStore).upsert up).1.id = (s.upsert up).1.id := by
    rw [upsert_row, upsert_row]
    rfl
  have hselfies : ∀ k, (s.submit up keys).keysOf k = if k = (s.upsert up).1.id then keys
      else s.keysOf k := by
    intro k
    have hinsert := keysOf_insertSelfies (ParticipantStore.upsert
      { s with nextUuid := s.nextUuid + 1, bucket :=
        s.bucket ++ keys } up).2 keys (s.upsert up).1.id k
    rw [ParticipantStore.upsert_rest] at hinsert
    rw [ParticipantStore.submit, hrow, ParticipantStore.upsert_rest]
    exact hinsert
  have hnew : ∀ k, ∀ key ∈ (sets k).flatten, key ∉ keys := by
    intro k key hold hkey
    have hlt := h.fresh k key hold
    rw [hkeys.uuid key hkey] at hlt
    omega
  rw [hrow] at hpeople ⊢
  generalize (s.upsert up).1.id = id at hpeople hprior hselfies
  refine ⟨hpeople.ids, hpeople.below, ?_, ?_, ?_, ?_, ?_⟩
  · intro k hk
    obtain ⟨hold, hne⟩ := hpeople.unused k hk
    rw [withSet_other hne]
    exact h.unused k hold
  · intro k key hkey
    rw [huuid]
    rcases mem_withSet hkey with hold | ⟨-, hkey⟩
    · exact Nat.lt_succ_of_lt (h.fresh k key hold)
    · rw [hkeys.uuid key hkey]
      exact Nat.lt_succ_self _
  · intro k k' hne key hkey hkey'
    rcases mem_withSet hkey with hold | ⟨hk, hkey⟩
    · rcases mem_withSet hkey' with hold' | ⟨-, hkey'⟩
      · exact h.apart k k' hne key hold hold'
      · exact hnew k key hold hkey'
    · rcases mem_withSet hkey' with hold' | ⟨hk', -⟩
      · exact hnew k' key hold' hkey
      · exact hne (hk.trans hk'.symm)
  · intro ks hks key hkey
    rw [huuid]
    exact Nat.lt_succ_of_lt (h.queued ks (hjobs ks hks) key hkey)
  · intro p hp hlive
    rcases hpeople.rows p hp with ⟨hid, hkey⟩ | ⟨hold, hne⟩
    · rw [hid, withSet_self]
      refine Kept.submitted hkeys (hkey.trans hhead) ?_ hbucket hjobs hprior.nonempty hprior.nodup
        hprior.stored hprior.uncleaned (h.fresh id) h.queued
      rw [hid, hselfies, if_pos rfl]
    · rw [withSet_other hne]
      refine (h.live p hold hlive).congr rfl rfl ?_ ?_ hjobs
      · rw [hselfies, if_neg hne]
      · intro key hkey
        rw [hbucket]
        exact List.mem_append_left _ hkey

end Submitted

/-! Erasure. -/

section Erasure

variable {V : Services} {sets : ParticipantId → List (List SelfieKey)} {s s' : ParticipantStore}
  {p : Participant} {past : List ParticipantEvent}

theorem Kept.key {earlier : List (List SelfieKey)} (h : Kept earlier p s) :
    ∃ key, p.selfieKey = some key ∧ key ∈ s.keysOf p.id ∧
      ∀ key ∈ s.keysOf p.id, key ∈ earlier.flatten := by
  obtain ⟨before, keys, rfl, hkey, hselfies⟩ := h.last
  cases keys with
  | nil => exact absurd rfl (h.nonempty [] (by simp))
  | cons key keys =>
    refine ⟨key, hkey, ?_, fun k hk => ?_⟩
    · rw [hselfies]
      exact List.mem_cons_self ..
    · rw [hselfies] at hk
      rw [List.flatten_append, List.flatten_singleton]
      exact List.mem_append_right _ hk

/-- The tables after a removal. -/
def ParticipantStore.removed (s : ParticipantStore) (id : ParticipantId) (key : SelfieKey) :
    ParticipantStore :=
  let queued := s.addJob (.cleanupKeys [key])
  ParticipantStore.deleteParticipant
    { queued with emails := queued.emails.filter (fun e => e.participantId ≠ id) } id

theorem remove_solo (h : Ledger sets s) (eventId : String) (id : ParticipantId) :
    (solo V).Follows (remove eventId id).run
      (fun r g => match r with
        | .ok _ => ∃ p ∈ s.participants, ∃ key, p.id = id ∧ p.deletedAt = none ∧
            p.selfieKey = some key ∧ g.1 = s.removed id key
        | .error _ => g.1 = s) (s, past) := by
  refine solo_perform fun r hr => ?_
  obtain rfl : s.getById id = r := hr
  cases hread : s.getById id with
  | none => rfl
  | some p =>
    obtain ⟨hrow, hlive⟩ := Option.filter_eq_some_iff.mp hread
    obtain ⟨hp, rfl⟩ := mem_of_findRow hrow
    have hnull : p.deletedAt = none := by simpa using hlive
    obtain ⟨key, hkey, -⟩ := (h.live p hp hnull).key
    change (solo V).Follows (ExceptT.run ((if p.eventId ≠ eventId then _ else _ : Attempt _) >>= _))
      _ _
    split
    · rfl
    · simp only [pure_bind, hkey]
      refine solo_perform fun _ _ => solo_perform fun _ _ => solo_perform fun _ _ => ?_
      exact ⟨p, hp, key, rfl, hnull, hkey, rfl⟩

theorem keysOf_deleted {id k : ParticipantId} (hk : k ≠ id) (s : ParticipantStore) :
    (s.deleteSelfies id).keysOf k = s.keysOf k := by
  simp only [ParticipantStore.keysOf, ParticipantStore.deleteSelfies, List.filter_filter]
  refine congrArg _ (List.filter_congr fun row _ => ?_)
  by_cases hrow : row.participantId = k
  · simp [hrow, hk]
  · simp [hrow]

theorem Ledger.removed (h : Ledger sets s) (hp : p ∈ s.participants) (hlive : p.deletedAt = none)
    {key : SelfieKey} (hkey : p.selfieKey = some key) : Ledger sets (s.removed p.id key) := by
  have hown : key ∈ (sets p.id).flatten := by
    obtain ⟨key', hkey', hmem, hset⟩ := (h.live p hp hlive).key
    rw [hkey] at hkey'
    cases hkey'
    exact hset _ hmem
  have hpeople : ∀ q ∈ (s.removed p.id key).participants, q ∈ s.participants ∧ q.id ≠ p.id := by
    intro q hq
    obtain ⟨hq, hne⟩ := List.mem_filter.mp hq
    exact ⟨hq, by simpa using hne⟩
  have hjobs : ∀ ks, .cleanupKeys ks ∈ (s.removed p.id key).jobs →
      .cleanupKeys ks ∈ s.jobs ∨ ks = [key] := by
    intro ks hks
    rcases List.mem_append.mp hks with hks | hks
    · exact .inl hks
    · exact .inr (ParticipantJob.cleanupKeys.inj (List.mem_singleton.mp hks))
  refine ⟨?_, fun q hq => h.below q (hpeople q hq).1, h.unused, h.fresh, h.apart, ?_, ?_⟩
  · exact h.ids.sublist (List.Sublist.map _ List.filter_sublist)
  · intro ks hks k hk
    rcases hjobs ks hks with hks | rfl
    · exact h.queued ks hks k hk
    · rw [List.mem_singleton.mp hk]
      exact h.fresh p.id key hown
  · intro q hq hq'
    obtain ⟨hmem, hne⟩ := hpeople q hq
    have hkept := h.live q hmem hq'
    refine ⟨?_, hkept.nonempty, hkept.nodup, hkept.stored, ?_⟩
    · have hsame : (s.removed p.id key).keysOf q.id = s.keysOf q.id := keysOf_deleted hne s
      rw [hsame]
      exact hkept.last
    · intro k hk ks hks hcleaned
      rcases hjobs ks hks with hks | rfl
      · exact hkept.uncleaned k hk ks hks hcleaned
      · rw [List.mem_singleton.mp hcleaned] at hk
        exact h.apart q.id p.id hne key hk hown

/-- The last one of several sets without repetition holds all keys only when it
is the only set. -/
theorem eq_singleton_of_flatten {sets : List (List SelfieKey)} {keys : List SelfieKey}
    (hne : ∀ ks ∈ sets, ks ≠ []) (hnodup : sets.flatten.Nodup) {earlier : List (List SelfieKey)}
    (hsets : sets = earlier ++ [keys]) (hall : ∀ key ∈ sets.flatten, key ∈ keys) :
    sets = [keys] := by
  subst hsets
  cases earlier with
  | nil => rfl
  | cons first earlier =>
    cases first with
    | nil => exact absurd rfl (hne [] (by simp))
    | cons key first =>
      have hmem := hall key (by simp)
      rw [List.flatten_append, List.flatten_singleton] at hnodup
      exact absurd rfl ((List.nodup_append.mp hnodup).2.2 key (by simp) key hmem)

theorem erased_removed_iff (h : Ledger sets s) (hp : p ∈ s.participants)
    (hlive : p.deletedAt = none)
    {key : SelfieKey} (hkey : p.selfieKey = some key) :
    Erased (sets p.id) p.id (drain (s.removed p.id key)) ↔ ∃ key, sets p.id = [[key]] := by
  have hkept := h.live p hp hlive
  obtain ⟨earlier, keys, hsets, hhead, hselfies⟩ := hkept.last
  have hbucket : ∀ k ∈ (sets p.id).flatten, k ∈ (drain (s.removed p.id key)).bucket ↔ k ≠ key := by
    intro k hk
    rw [mem_drain_bucket]
    constructor
    · rintro ⟨-, hclean⟩ rfl
      exact hclean [k] (List.mem_append_right _ (List.mem_singleton_self _))
        (List.mem_singleton_self _)
    · intro hne
      refine ⟨hkept.stored k hk, fun ks hks hmem => ?_⟩
      rcases List.mem_append.mp hks with hks | hks
      · exact hkept.uncleaned k hk ks hks hmem
      · obtain rfl := ParticipantJob.cleanupKeys.inj (List.mem_singleton.mp hks)
        exact hne (List.mem_singleton.mp hmem)
  obtain ⟨hrows, hpeople⟩ := drain_tables (s := s.removed p.id key)
  constructor
  · intro herased
    have hall : ∀ k ∈ (sets p.id).flatten, k = key := by
      intro k hk
      obtain ⟨ks, hks, hmem⟩ := List.mem_flatten.mp hk
      exact not_not.mp fun hne => herased.objects ks hks k hmem ((hbucket k hk).mpr hne)
    have honly : sets p.id = [keys] := by
      refine eq_singleton_of_flatten hkept.nonempty hkept.nodup hsets fun k hk => ?_
      rw [hall k hk]
      rw [hkey] at hhead
      exact List.mem_of_head? hhead.symm
    rw [honly, List.flatten_singleton] at hall
    have hkeys := hkept.nodup
    rw [honly, List.flatten_singleton] at hkeys
    refine ⟨key, ?_⟩
    rw [honly]
    cases keys with
    | nil => exact absurd rfl (hkept.nonempty [] (by simp [honly]))
    | cons a rest =>
      cases rest with
      | nil => rw [hall a (List.mem_cons_self ..)]
      | cons b rest =>
        have ha := hall a (List.mem_cons_self ..)
        have hb := hall b (by simp)
        rw [ha, hb] at hkeys
        simp at hkeys
  · rintro ⟨only, honly⟩
    have hlast : key = only := by
      rw [honly] at hsets
      cases earlier with
      | nil =>
        obtain rfl := (List.singleton_inj.mp hsets).symm
        rw [hkey] at hhead
        exact Option.some.inj hhead
      | cons first earlier => simp at hsets
    refine ⟨fun ks hks k hk hmem => ?_, fun row hrow => ?_, fun q hq hid => ?_⟩
    · rw [honly] at hks
      rw [List.mem_singleton.mp hks] at hk
      have hk' := List.mem_singleton.mp hk
      refine (hbucket k ?_).mp hmem (hk'.trans hlast.symm)
      rw [honly, hk']
      simp
    · rw [hrows] at hrow
      simpa using (List.mem_filter.mp hrow).2
    · rw [hpeople] at hq
      exact absurd hid (by simpa using (List.mem_filter.mp hq).2)

/-! The retention sweep. -/

/-- The tables after these participants have been scrubbed. -/
structure Scrubbed (ids : List ParticipantId) (s s' : ParticipantStore) : Prop where
  bucket : s'.bucket = s.bucket
  jobs : s'.jobs = s.jobs
  nextParticipant : s'.nextParticipant = s.nextParticipant
  nextUuid : s'.nextUuid = s.nextUuid
  same : s'.participants.map Participant.id = s.participants.map Participant.id
  people : ∀ p ∈ s'.participants, p ∈ s.participants ∧ p.id ∉ ids ∨
    p.id ∈ ids ∧ p.deletedAt ≠ none ∧ p.selfieEmbedding = none
  selfies : s'.selfies = s.selfies.filter (fun row => row.participantId ∉ ids)

theorem scrubbed_nil (s : ParticipantStore) : Scrubbed [] s s where
  bucket := rfl
  jobs := rfl
  nextParticipant := rfl
  nextUuid := rfl
  same := rfl
  people p hp := .inl ⟨hp, List.not_mem_nil⟩
  selfies := (List.filter_eq_self.mpr fun _ _ => by simp).symm

theorem Scrubbed.cons {id : ParticipantId} {ids : List ParticipantId} {t : Date}
    (h : Scrubbed ids (((s.deleteSelfies id).tick t).scrub id) s') : Scrubbed (id :: ids) s s' where
  bucket := h.bucket
  jobs := h.jobs
  nextParticipant := h.nextParticipant
  nextUuid := h.nextUuid
  same := h.same.trans (map_updateRow fun _ => rfl)
  people p hp := by
    rcases h.people p hp with ⟨hmem, hout⟩ | ⟨hin, hgone⟩
    · rcases mem_updateRow.mp hmem with ⟨before, _, hid, rfl⟩ | ⟨hmem, hne⟩
      · exact .inr ⟨List.mem_cons.mpr (.inl hid), nofun, rfl⟩
      · refine .inl ⟨hmem, fun hin => ?_⟩
        rcases List.mem_cons.mp hin with hid | hin
        · exact hne hid
        · exact hout hin
    · exact .inr ⟨List.mem_cons_of_mem _ hin, hgone⟩
  selfies := by
    rw [h.selfies]
    change (s.selfies.filter _).filter _ = _
    rw [List.filter_filter]
    refine List.filter_congr fun row _ => ?_
    by_cases hrow : row.participantId = id <;> simp [hrow]

theorem scrubAll_solo (expired : List Participant) :
    (solo V).Follows (scrubAll expired).run
      (fun _ g => Scrubbed (expired.map (fun p => p.id)) s g.1) (s, past) := by
  induction expired generalizing s past with
  | nil => exact scrubbed_nil s
  | cons p expired ih =>
    refine solo_perform fun _ _ => solo_perform fun t _ => solo_perform fun _ _ => ?_
    refine follows_mono _ ?_ _ _ ih
    intro _ g hg
    exact hg.cons

theorem mem_distinct {keys : List SelfieKey} {key : SelfieKey} :
    key ∈ distinct keys ↔ key ∈ keys := by
  rw [distinct, List.mem_reverse, List.mem_dedup, List.mem_reverse]

/-- The keys that the sweep queues for deletion. -/
def sweptKeys (s : ParticipantStore) (expired : List Participant) : List SelfieKey :=
  distinct (expired.filterMap (fun p => p.selfieKey) ++
    s.listSelfieKeys (expired.map (fun p => p.id)))

/-- The tables after a sweep. -/
def Swept (s s' : ParticipantStore) : Prop :=
  ∃ t expired jobs, (∀ p ∈ expired, p ∈ s.participants ∧ p.deletedAt = none) ∧
    (∀ ks, .cleanupKeys ks ∈ jobs ↔
      .cleanupKeys ks ∈ s.jobs ∨ ks = sweptKeys s expired ∧ ks ≠ []) ∧
    Scrubbed (expired.map (fun p => p.id)) { s.tick t with jobs := jobs } s'

theorem sweep_solo :
    (solo V).Follows handleSelfieRetentionSweep.run (fun _ g => Swept s g.1) (s, past) := by
  refine solo_perform fun t _ => solo_perform fun expired hexpired => ?_
  have hlive : ∀ p ∈ expired, p ∈ s.participants ∧ p.deletedAt = none := by
    intro p hp
    rw [← hexpired] at hp
    obtain ⟨hmem, hcond⟩ := List.mem_filter.mp hp
    simp only [decide_eq_true_eq] at hcond
    exact ⟨hmem, hcond.2.1⟩
  change (solo V).Follows (ExceptT.run (if expired = [] then _ else _)) _ _
  by_cases hnone : expired = []
  · rw [if_pos hnone, hnone]
    refine ⟨t, [], s.jobs, fun _ hp => absurd hp List.not_mem_nil, fun ks => ?_, scrubbed_nil _⟩
    simp [sweptKeys, ParticipantStore.listSelfieKeys, distinct]
  · rw [if_neg hnone]
    refine solo_perform fun extra hextra => ?_
    obtain rfl : (s.tick t).listSelfieKeys (expired.map (fun p => p.id)) = extra := hextra
    change (solo V).Follows (ExceptT.run (if sweptKeys s expired ≠ [] then _ else _)) _ _
    by_cases hkeys : sweptKeys s expired ≠ []
    · rw [if_pos hkeys]
      refine solo_perform fun _ _ => ?_
      refine (follows_attempt _ _ _ _ _).mpr (follows_mono _ ?_ _ _ (scrubAll_solo expired))
      rintro (e | _) g hg
      all_goals
        refine ⟨t, expired, s.jobs ++ [ParticipantJob.cleanupKeys (sweptKeys s expired)], hlive,
          fun ks => ?_, hg⟩
        simp only [List.mem_append, List.mem_singleton, ParticipantJob.cleanupKeys.injEq]
        refine or_congr_right ⟨fun hks => ⟨hks, hks ▸ hkeys⟩, fun hks => hks.1⟩
    · rw [if_neg hkeys]
      refine (follows_attempt _ _ _ _ _).mpr (follows_mono _ ?_ _ _ (scrubAll_solo expired))
      rintro (e | _) g hg
      all_goals
        refine ⟨t, expired, s.jobs, hlive, fun ks => ⟨.inl, fun hks => ?_⟩, hg⟩
        rcases hks with hks | ⟨hks, hne⟩
        · exact hks
        · exact absurd (hks ▸ hne) hkeys

theorem mem_sweptKeys (h : Ledger sets s) {expired : List Participant}
    (hlive : ∀ p ∈ expired, p ∈ s.participants ∧ p.deletedAt = none) {key : SelfieKey} :
    key ∈ sweptKeys s expired ↔ ∃ p ∈ expired, key ∈ s.keysOf p.id := by
  rw [sweptKeys, mem_distinct, List.mem_append, List.mem_filterMap]
  constructor
  · rintro (⟨p, hp, hkey⟩ | hrow)
    · obtain ⟨hmem, hnull⟩ := hlive p hp
      obtain ⟨own, hown, hrow, -⟩ := (h.live p hmem hnull).key
      rw [hown] at hkey
      cases hkey
      exact ⟨p, hp, hrow⟩
    · obtain ⟨row, hmem, rfl⟩ := List.mem_map.mp hrow
      obtain ⟨hrow, hid⟩ := List.mem_filter.mp hmem
      obtain ⟨p, hp, hrowId⟩ := List.mem_map.mp (of_decide_eq_true hid)
      refine ⟨p, hp, List.mem_map.mpr ⟨row, List.mem_filter.mpr ⟨hrow, ?_⟩, rfl⟩⟩
      exact decide_eq_true hrowId.symm
  · rintro ⟨p, hp, hkey⟩
    obtain ⟨row, hmem, rfl⟩ := List.mem_map.mp hkey
    obtain ⟨hrow, hid⟩ := List.mem_filter.mp hmem
    refine .inr (List.mem_map.mpr ⟨row, List.mem_filter.mpr ⟨hrow, decide_eq_true ?_⟩, rfl⟩)
    rw [of_decide_eq_true hid]
    exact List.mem_map.mpr ⟨p, hp, rfl⟩

theorem Ledger.sweptKeys_own (h : Ledger sets s) {expired : List Participant}
    (hlive : ∀ p ∈ expired, p ∈ s.participants ∧ p.deletedAt = none) {key : SelfieKey}
    (hkey : key ∈ sweptKeys s expired) :
    ∃ p ∈ expired, key ∈ s.keysOf p.id ∧ key ∈ (sets p.id).flatten := by
  obtain ⟨p, hp, hmem⟩ := (mem_sweptKeys h hlive).mp hkey
  obtain ⟨hp', hnull⟩ := hlive p hp
  obtain ⟨-, -, -, hset⟩ := (h.live p hp' hnull).key
  exact ⟨p, hp, hmem, hset key hmem⟩

theorem keysOf_scrubbed {ids : List ParticipantId} (h : Scrubbed ids s s') {k : ParticipantId}
    (hk : k ∉ ids) : s'.keysOf k = s.keysOf k := by
  rw [ParticipantStore.keysOf, ParticipantStore.keysOf, h.selfies, List.filter_filter]
  refine congrArg _ (List.filter_congr fun row _ => ?_)
  by_cases hrow : row.participantId = k
  · simp [hrow, hk]
  · simp [hrow]

theorem Ledger.swept (h : Ledger sets s) (hswept : Swept s s') : Ledger sets s' := by
  obtain ⟨t, expired, jobs, hlive, hjobs, hscrubbed⟩ := hswept
  have hqueued : ∀ ks, .cleanupKeys ks ∈ s'.jobs →
      .cleanupKeys ks ∈ s.jobs ∨ ks = sweptKeys s expired := by
    intro ks hks
    rw [hscrubbed.jobs] at hks
    exact ((hjobs ks).mp hks).imp_right And.left
  have hsame : s'.participants.map Participant.id = s.participants.map Participant.id :=
    hscrubbed.same
  refine ⟨?_, ?_, ?_, ?_, h.apart, ?_, ?_⟩
  · rw [hsame]
    exact h.ids
  · intro q hq
    have hmem : q.id ∈ s.participants.map Participant.id := by
      rw [← hsame]
      exact List.mem_map_of_mem hq
    obtain ⟨before, hbefore, hid⟩ := List.mem_map.mp hmem
    rw [← hid, hscrubbed.nextParticipant]
    exact h.below before hbefore
  · rw [hscrubbed.nextParticipant]
    exact h.unused
  · rw [hscrubbed.nextUuid]
    exact h.fresh
  · intro ks hks key hkey
    rw [hscrubbed.nextUuid]
    rcases hqueued ks hks with hks | rfl
    · exact h.queued ks hks key hkey
    · obtain ⟨p, -, -, hset⟩ := h.sweptKeys_own hlive hkey
      exact h.fresh p.id key hset
  · intro q hq hnull
    rcases hscrubbed.people q hq with ⟨hmem, hout⟩ | ⟨-, hgone, -⟩
    · have hkept := h.live q hmem hnull
      refine ⟨?_, hkept.nonempty, hkept.nodup, ?_, ?_⟩
      · rw [keysOf_scrubbed hscrubbed hout]
        exact hkept.last
      · rw [hscrubbed.bucket]
        exact hkept.stored
      · intro key hkey ks hks hcleaned
        rcases hqueued ks hks with hks | rfl
        · exact hkept.uncleaned key hkey ks hks hcleaned
        · obtain ⟨p, hp, -, hset⟩ := h.sweptKeys_own hlive hcleaned
          have hne : q.id ≠ p.id := fun hid => hout (List.mem_map.mpr ⟨p, hp, hid.symm⟩)
          exact h.apart q.id p.id hne key hkey hset
    · exact absurd hnull hgone

theorem erased_swept_iff (h : Ledger sets s) (hp : p ∈ s.participants) (hnull : p.deletedAt = none)
    (hswept : Swept s s') (hgone : ∀ q ∈ s'.participants, q.id = p.id → q.deletedAt ≠ none) :
    Erased (sets p.id) p.id (drain s') ↔ ∃ keys, sets p.id = [keys] := by
  obtain ⟨t, expired, jobs, hlive, hjobs, hscrubbed⟩ := hswept
  have hkept := h.live p hp hnull
  obtain ⟨earlier, keys, hsets, -, hselfies⟩ := hkept.last
  have hexpired : p ∈ expired := by
    have hmem : p.id ∈ s'.participants.map Participant.id := by
      rw [hscrubbed.same]
      exact List.mem_map_of_mem hp
    obtain ⟨q, hq, hid⟩ := List.mem_map.mp hmem
    rcases hscrubbed.people q hq with ⟨hbefore, -⟩ | ⟨hin, -, -⟩
    · rw [row_unique h.ids hbefore hp hid] at hq
      exact absurd hnull (hgone p hq rfl)
    · obtain ⟨before, hbefore, hbid⟩ := List.mem_map.mp hin
      rw [row_unique h.ids (hlive before hbefore).1 hp (hbid.trans hid)] at hbefore
      exact hbefore
  have hbucket : ∀ k ∈ (sets p.id).flatten, k ∈ (drain s').bucket ↔ k ∉ keys := by
    intro k hk
    rw [mem_drain_bucket, hscrubbed.bucket, hscrubbed.jobs]
    constructor
    · rintro ⟨-, hclean⟩ hmem
      have hcleaned : k ∈ sweptKeys s expired := by
        rw [mem_sweptKeys h hlive]
        exact ⟨p, hexpired, hselfies ▸ hmem⟩
      exact hclean _ ((hjobs _).mpr (.inr ⟨rfl, List.ne_nil_of_mem hcleaned⟩)) hcleaned
    · intro hout
      refine ⟨hkept.stored k hk, fun ks hks hmem => ?_⟩
      rcases (hjobs ks).mp hks with hks | ⟨rfl, -⟩
      · exact hkept.uncleaned k hk ks hks hmem
      · obtain ⟨q, hq, hrow, hset⟩ := h.sweptKeys_own hlive hmem
        by_cases hid : p.id = q.id
        · rw [← hid, hselfies] at hrow
          exact hout hrow
        · exact h.apart p.id q.id hid k hk hset
  obtain ⟨hrows, hpeople⟩ := drain_tables (s := s')
  have hids : p.id ∈ expired.map (fun p => p.id) := List.mem_map_of_mem hexpired
  constructor
  · intro herased
    refine ⟨keys, eq_singleton_of_flatten hkept.nonempty hkept.nodup hsets fun k hk => ?_⟩
    obtain ⟨ks, hks, hmem⟩ := List.mem_flatten.mp hk
    exact not_not.mp fun hout => herased.objects ks hks k hmem ((hbucket k hk).mpr hout)
  · rintro ⟨only, honly⟩
    have hlast : keys = only := by
      rw [honly] at hsets
      cases earlier with
      | nil => exact (List.singleton_inj.mp hsets).symm
      | cons first earlier => simp at hsets
    refine ⟨fun ks hks k hk hmem => ?_, fun row hrow => ?_, fun q hq hid => ?_⟩
    · rw [honly] at hks
      rw [List.mem_singleton.mp hks] at hk
      refine (hbucket k ?_).mp hmem (hlast ▸ hk)
      rw [honly, List.flatten_singleton]
      exact hk
    · rw [hrows, hscrubbed.selfies] at hrow
      have hout := (List.mem_filter.mp hrow).2
      rw [decide_eq_true_eq] at hout
      intro hid
      rw [hid] at hout
      exact hout hids
    · rw [hpeople] at hq
      rcases hscrubbed.people q hq with ⟨-, hout⟩ | ⟨-, -, hembedding⟩
      · rw [hid] at hout
        exact absurd hids hout
      · exact hembedding

end Erasure

/-! Whole histories. -/

section Calls

variable {V : Services} {sets : ParticipantId → List (List SelfieKey)} {s s' : ParticipantStore}

theorem Stranded.ledger (h : Ledger sets s) (hstranded : Stranded s s') : Ledger sets s' := by
  obtain ⟨uuid, extra, huuid, rfl⟩ := hstranded
  refine ⟨h.ids, h.below, h.unused, fun k key hkey => (h.fresh k key hkey).trans_le huuid, h.apart,
    fun ks hks key hkey => (h.queued ks hks key hkey).trans_le huuid, fun p hp hlive => ?_⟩
  exact (h.live p hp hlive).congr rfl rfl rfl (fun key hkey => List.mem_append_left _ hkey)
    fun _ hks => hks

theorem Ledger.cleaned (h : Ledger sets s) {ks : List SelfieKey} (hks : .cleanupKeys ks ∈ s.jobs) :
    Ledger sets (s.deleteKeys ks) := by
  refine ⟨h.ids, h.below, h.unused, h.fresh, h.apart, h.queued, fun p hp hlive => ?_⟩
  have hkept := h.live p hp hlive
  refine ⟨hkept.last, hkept.nonempty, hkept.nodup, fun key hkey => ?_, hkept.uncleaned⟩
  exact List.mem_filter.mpr
    ⟨hkept.stored key hkey, decide_eq_true (hkept.uncleaned key hkey ks hks)⟩

theorem quiet_searchAll (eventId : String) (maxDistance : ℚ) (embeddings : List Embedding)
    (best : List Hit) :
    (searchAll V eventId maxDistance embeddings best).run.Avoids ParticipantOp.erasing := by
  induction embeddings generalizing best with
  | nil => trivial
  | cons embedding embeddings ih => exact ⟨fun h => h, fun faces => ih _⟩

theorem quiet_matchParticipant (p : Participant) :
    (matchParticipant V p).run.Avoids ParticipantOp.erasing := by
  rw [matchParticipant]
  split
  · trivial
  · refine ⟨fun h => h, fun maxDistance => ⟨fun h => h, fun selfies => ?_⟩⟩
    refine Prog.avoids_attempt (quiet_searchAll ..) fun best =>
      Prog.avoids_attempt ?_ fun inserted => ?_
    · rw [insertMatches]
      split
      · trivial
      · refine ⟨fun h => h, fun r => ?_⟩
        cases r <;> trivial
    · exact ⟨fun h => h, fun total => ⟨fun h => h, fun _ => trivial⟩⟩

theorem quiet_downloadToFile (key : SelfieKey) (id : ParticipantId) (ordinal : ℕ) :
    (downloadToFile key id ordinal).run.Avoids ParticipantOp.erasing := by
  refine ⟨fun h => h, fun got => ?_⟩
  cases got with
  | error e => trivial
  | ok _ => exact ⟨fun h => h, fun written => by cases written <;> trivial⟩

theorem quiet_embedAll (id : ParticipantId) (selfies : List ParticipantSelfie) (embedded : ℕ) :
    (embedAll id selfies embedded).run.Avoids ParticipantOp.erasing := by
  induction selfies generalizing embedded with
  | nil => trivial
  | cons selfie selfies ih =>
    refine Prog.avoids_attempt (quiet_downloadToFile ..) fun _ => ⟨fun h => h, fun faces => ?_⟩
    cases faces with
    | error e => trivial
    | ok faces =>
      simp only [Prog.bind_done, ExceptT.bindCont]
      cases largest faces with
      | none => exact ⟨fun h => h, fun _ => ih _⟩
      | some face =>
        refine ⟨fun h => h, fun _ => ?_⟩
        change Prog.Avoids _ (ExceptT.run (if embedded = 0 then _ else _))
        split
        · exact ⟨fun h => h, fun _ => ih _⟩
        · exact ih _

theorem quiet_matchAll (participants : List Participant) :
    (matchAll V participants).run.Avoids ParticipantOp.erasing := by
  induction participants with
  | nil => trivial
  | cons p participants ih =>
    refine Prog.avoids_attempt (quiet_matchParticipant p) fun newMatches => ?_
    change Prog.Avoids _ (ExceptT.run (if 0 < newMatches then _ else _))
    split
    · refine ⟨fun h => ?_, fun _ => ih⟩
      split at h <;> exact h
    · exact ih

theorem quiet_loadContext (id : ParticipantId) :
    (loadContext id).run.Avoids ParticipantOp.erasing := by
  refine ⟨fun h => h, fun participant => ?_⟩
  cases participant with
  | none => trivial
  | some participant =>
    refine ⟨fun h => h, fun there => ?_⟩
    cases there <;> trivial

theorem quiet_handleSendGalleryEmail (id : ParticipantId) :
    (handleSendGalleryEmail id).run.Avoids ParticipantOp.erasing := by
  refine Prog.avoids_attempt (quiet_loadContext id) fun participant => ?_
  cases participant with
  | none => trivial
  | some participant =>
    refine ⟨fun h => h, fun counted => ?_⟩
    change Prog.Avoids _ (ExceptT.run (if counted = [] then _ else _))
    split
    · trivial
    split
    · trivial
    · refine ⟨fun h => h, fun sent => ?_⟩
      cases sent with
      | false => trivial
      | true => exact ⟨fun h => h, fun t => ⟨fun h => h, fun _ => trivial⟩⟩

theorem quiet_handleSendDigest (id : ParticipantId) :
    (handleSendDigest id).run.Avoids ParticipantOp.erasing := by
  refine Prog.avoids_attempt (quiet_loadContext id) fun participant => ?_
  cases participant with
  | none => trivial
  | some participant =>
    simp only
    cases participant.notifiedFirstAt with
    | none => exact quiet_handleSendGalleryEmail id
    | some first =>
      refine ⟨fun h => h, fun t => ?_⟩
      change Prog.Avoids _ (ExceptT.run (if _ < _ then _ else _))
      split
      · trivial
      · refine ⟨fun h => h, fun counted => ?_⟩
        change Prog.Avoids _ (ExceptT.run (if counted = [] then _ else _))
        split
        · trivial
        · refine ⟨fun h => h, fun sent => ?_⟩
          cases sent with
          | false => trivial
          | true => exact ⟨fun h => h, fun t => ⟨fun h => h, fun _ => trivial⟩⟩

theorem quiet_finishSelfie (id : ParticipantId) (embedded : ℕ) :
    (finishSelfie V id embedded).run.Avoids ParticipantOp.erasing := by
  rw [finishSelfie]
  split
  · exact ⟨fun h => h, fun _ => ⟨fun h => h, fun _ => trivial⟩⟩
  · refine ⟨fun h => h, fun updated => ?_⟩
    cases updated with
    | none => trivial
    | some updated =>
      refine Prog.avoids_attempt (quiet_matchParticipant updated) fun newMatches => ?_
      change Prog.Avoids _ (ExceptT.run (if 0 < newMatches then _ else _))
      split
      · exact ⟨fun h => h, fun _ => trivial⟩
      · trivial

theorem quiet_andRemoveWorkDir (id : ParticipantId) {p : Attempt JobStatus}
    (hp : p.run.Avoids ParticipantOp.erasing) :
    (andRemoveWorkDir id p).run.Avoids ParticipantOp.erasing :=
  Prog.avoids_bind hp fun _ => ⟨fun h => h, fun _ => trivial⟩

theorem quiet_handleSelfieProcess (id : ParticipantId) :
    (handleSelfieProcess V id).run.Avoids ParticipantOp.erasing := by
  refine ⟨fun h => h, fun participant => ?_⟩
  cases participant with
  | none => trivial
  | some participant =>
    change Prog.Avoids _ (ExceptT.run (if participant.selfieKey = none then _ else _))
    split
    · trivial
    · refine ⟨fun h => h, fun _ => ⟨fun h => h, fun selfies => ?_⟩⟩
      refine quiet_andRemoveWorkDir id ⟨fun h => h, fun made => ?_⟩
      cases made with
      | error e => trivial
      | ok _ =>
        exact Prog.avoids_attempt (quiet_embedAll ..) fun embedded => quiet_finishSelfie id embedded

theorem ledger_exec {α : Type} {p : ParticipantProg α} {trace : List ParticipantEvent} {value : α}
    (hp : p.Avoids ParticipantOp.erasing) (he : Exec (participantHandler V) p s trace value s')
    (h : Ledger sets s) : Ledger sets s' := by
  induction he with
  | done value s => exact h
  | perform o next r rest ih =>
    obtain ⟨ho, hnext⟩ := hp
    exact ih (hnext _) (ledger_op ho r h)

theorem exec_reply {α : Type} {f : α → Reply} {p : Attempt α} {trace : List ParticipantEvent}
    {answer : Answer} (he : Exec (participantHandler V) (f <$> p).run s trace answer s') :
    ∃ r : Except HttpError α, answer = r.map f ∧
    Exec (participantHandler V) p.run s trace r s' := by
  obtain ⟨first, r, s₁, rest, rfl, hp, hrest⟩ := exec_bind.mp he
  cases r with
  | ok a =>
    obtain ⟨rfl, rfl, rfl⟩ := exec_done.mp hrest
    exact ⟨.ok a, rfl, by rwa [List.append_nil]⟩
  | error e =>
    obtain ⟨rfl, rfl, rfl⟩ := exec_done.mp hrest
    exact ⟨.error e, rfl, by rwa [List.append_nil]⟩

theorem submissionsOf_submitted {past : List ParticipantEpisode} {e : ParticipantEpisode}
    {id : ParticipantId} (h : e.answer = .ok (.submitted id)) :
    submissionsOf (past ++ [e]) = withSet (submissionsOf past) id (storedKeys e.trace) := by
  funext k
  simp only [submissionsOf, withSet, List.filterMap_append, List.filterMap_cons, h,
    List.filterMap_nil]
  by_cases hk : id = k
  · simp [hk]
  · simp [hk, Ne.symm hk]

theorem submissionsOf_other {past : List ParticipantEpisode} {e : ParticipantEpisode}
    (h : ∀ id, e.answer ≠ .ok (.submitted id)) :
    submissionsOf (past ++ [e]) = submissionsOf past := by
  funext k
  rw [submissionsOf, List.filterMap_append, List.filterMap_cons]
  split
  · simp [submissionsOf]
  · rename_i keys hkeys
    split at hkeys
    · rename_i id hanswer
      exact absurd hanswer (h id)
    · cases hkeys

/-- A call that answers with the outcome of a job. -/
theorem status_not_submitted {r : Except HttpError JobStatus} (id : ParticipantId) :
    r.map Reply.status ≠ .ok (.submitted id) := by
  cases r <;> nofun

theorem ledger_call {past : List ParticipantEpisode} {e : ParticipantEpisode}
    (h : Ledger (submissionsOf past) e.before) (hqueued : RunsQueued past e)
    (he : Exec (participantHandler V)
    (ParticipantCall.prog V e.call) e.before e.trace e.answer s') :
    Ledger (submissionsOf (past ++ [e])) s' := by
  obtain ⟨call, before, trace, answer⟩ := e
  have hquiet : ∀ {p : Attempt JobStatus}, p.run.Avoids ParticipantOp.erasing →
      Exec (participantHandler V) (Reply.status <$> p).run before trace answer s' →
      Ledger (submissionsOf (past ++ [⟨call, before, trace, answer⟩])) s' := by
    intro p hp he
    obtain ⟨r, rfl, hrun⟩ := exec_reply he
    rw [submissionsOf_other status_not_submitted]
    exact ledger_exec hp hrun h
  cases call with
  | submitSelfie dto =>
    obtain ⟨r, hanswer, hrun⟩ := exec_reply he
    have hdone := exec_solo hrun (submitSelfie_solo dto)
    cases r with
    | ok id =>
      obtain ⟨up, keys, hkeys, hhead, rfl, hstate, hstored⟩ := hdone
      rw [submissionsOf_submitted hanswer]
      change Ledger (withSet _ _ (storedKeys trace)) s'
      obtain rfl : s' = before.submit up keys := hstate
      obtain rfl : storedKeys trace = keys := hstored
      exact h.submit hkeys hhead
    | error e =>
      obtain rfl : answer = .error e := hanswer
      have hnone : ∀ id, (Except.error e : Answer) ≠ .ok (.submitted id) := fun _ => nofun
      rw [submissionsOf_other hnone]
      exact Stranded.ledger h hdone
  | selfieProcess id => exact hquiet (quiet_handleSelfieProcess id) he
  | participantRematch eventId =>
    refine hquiet (p := handleParticipantRematch V eventId) ⟨fun h => h, fun participants => ?_⟩ he
    change Prog.Avoids _ (ExceptT.run (if participants = [] then _ else _))
    split
    · trivial
    · exact quiet_matchAll participants
  | participantMatchSweep =>
    exact hquiet (p := handleParticipantMatchSweep V)
      ⟨fun h => h, fun pending => quiet_matchAll pending⟩ he
  | sendGalleryEmail id => exact hquiet (quiet_handleSendGalleryEmail id) he
  | sendDigest id => exact hquiet (quiet_handleSendDigest id) he
  | remove eventId id =>
    obtain ⟨r, rfl, hrun⟩ := exec_reply he
    have hdone := exec_solo hrun (remove_solo h eventId id)
    rw [submissionsOf_other (by cases r <;> nofun)]
    cases r with
    | ok _ =>
      obtain ⟨p, hp, key, rfl, hnull, hkey, hstate⟩ := hdone
      obtain rfl : s' = before.removed p.id key := hstate
      exact h.removed hp hnull hkey
    | error e =>
      obtain rfl : s' = before := hdone
      exact h
  | selfieRetentionSweep =>
    obtain ⟨r, rfl, hrun⟩ := exec_reply he
    rw [submissionsOf_other status_not_submitted]
    exact h.swept (exec_solo hrun sweep_solo)
  | cleanupKeys keys =>
    obtain ⟨r, rfl, hrun⟩ := exec_reply he
    rw [submissionsOf_other status_not_submitted]
    rw [handleCleanupKeys] at hrun
    split at hrun
    · obtain ⟨-, -, rfl⟩ := exec_done.mp hrun
      exact h
    · obtain ⟨_, rest, -, hrest⟩ := exec_perform.mp hrun
      obtain ⟨-, -, rfl⟩ := exec_done.mp hrest
      exact h.cleaned (hqueued keys rfl)

theorem ledger_history {es : List ParticipantEpisode}
    (hist : History (participantHandler V) (ParticipantCall.prog V) {} es s)
    (hqueued : Throughout RunsQueued es) : Ledger (submissionsOf es) s :=
  hist.invariant (I := fun es s => Ledger (submissionsOf es) s) ledger_empty
    (fun _ _ _ h hstep he => ledger_call h hstep he) hqueued

end Calls

/-- After a removal, or a sweep that takes the participant, nothing of the
submissions is left exactly when there was one submission, and for a removal of
one photo. -/
theorem erasure_complete_iff (V : Services) {es : List ParticipantEpisode} {s s' : ParticipantStore}
    (hist : History (participantHandler V) (ParticipantCall.prog V) {} es s)
    (hqueued : Throughout RunsQueued es) {p : Participant} (hp : p ∈ s.participants)
    (hlive : p.deletedAt = none) {trace : List ParticipantEvent} :
    (∀ eventId, Exec (participantHandler V) (ParticipantCall.prog V (.remove eventId p.id)) s trace
        (.ok .removed) s' →
      (Erased (submissionsOf es p.id) p.id (drain s') ↔ ∃ key, submissionsOf es p.id = [[key]])) ∧
    ∀ answer, Exec (participantHandler V) (ParticipantCall.prog V .selfieRetentionSweep) s trace
        answer s' →
      (∀ q ∈ s'.participants, q.id = p.id → q.deletedAt ≠ none) →
      (Erased (submissionsOf es p.id) p.id (drain s') ↔
      ∃ keys, submissionsOf es p.id = [keys]) := by
  have h := ledger_history hist hqueued
  refine ⟨fun eventId he => ?_, fun answer he hgone => ?_⟩
  · obtain ⟨r, hanswer, hrun⟩ := exec_reply he
    have hdone := exec_solo hrun (remove_solo h eventId p.id)
    cases r with
    | ok _ =>
      obtain ⟨q, hq, key, hid, hnull, hkey, hstate⟩ := hdone
      obtain rfl := row_unique h.ids hq hp hid
      obtain rfl : s' = s.removed q.id key := hstate
      exact erased_removed_iff h hp hlive hkey
    | error e => cases hanswer
  · obtain ⟨r, -, hrun⟩ := exec_reply he
    exact erased_swept_iff h hp hlive (exec_solo hrun sweep_solo) hgone

/-! A removal and a sweep on concrete submissions. -/

section Runs

/-- No faces anywhere, and an event that ended at instant 0. -/
def faceless : Services where
  detect _ := []
  distance _ _ := 0
  maxDistance _ := 0
  endsAt _ := some 0
  active _ := true

def photos (count : ℕ) : Submission where
  slug := "gala"
  email := "ada"
  name := "Ada"
  phone := none
  staged := List.replicate count ⟨"staged", "image/jpeg", 1⟩
  clientIp := "::1"

/-- Submissions of so many photos each, one after another. -/
def submitted (counts : List ℕ) : List ParticipantEpisode × ParticipantStore :=
  play (participantHandler faceless) (ParticipantCall.prog faceless)
    (counts.map (fun count => (.submitSelfie (photos count), fun _ => willing 0 []))) {}

def afterCall (counts : List ℕ) (call : ParticipantCall) :
    Outcome ParticipantOp ParticipantRes ParticipantStore Answer :=
  run (participantHandler faceless) (call.prog faceless)
    (fun _ => willing (31 * 24 * 60 * 60 * 1000) []) (submitted counts).2

theorem history_submitted (counts : List ℕ) :
    History (participantHandler faceless) (ParticipantCall.prog faceless) {} (submitted counts).1
      (submitted counts).2 := history_play _ _

theorem exec_afterCall (counts : List ℕ) (call : ParticipantCall) (answer : Answer)
    (h : (afterCall counts call).value = answer) :
    Exec (participantHandler faceless) (call.prog faceless) (submitted counts).2
      (afterCall counts call).trace answer (afterCall counts call).state :=
  h ▸ exec_run _ _ _ _

/-- The participant of these submissions. -/
theorem exists_guest (counts : List ℕ)
    (h : ((submitted counts).2.participants.head?.map (fun p => (p.id, p.deletedAt))) =
      some (0, none)) :
    ∃ p ∈ (submitted counts).2.participants, p.id = 0 ∧ p.deletedAt = none := by
  obtain ⟨p, hp, hvalue⟩ := Option.map_eq_some_iff.mp h
  obtain ⟨hid, hlive⟩ := Prod.mk.inj hvalue
  exact ⟨p, List.mem_of_head? hp, hid, hlive⟩

/-- Two photos before a removal, two submissions before a sweep. -/
theorem not_erasure_complete : ¬ RemovalErases faceless ∧ ¬ SweepErases faceless := by
  constructor
  · intro h
    obtain ⟨p, hp, hid, hlive⟩ := exists_guest [2] (by decide +kernel)
    have hrun := exec_afterCall [2] (.remove "gala" 0) (.ok .removed) (by decide +kernel)
    have herased := h _ _ _ p "gala" _ (history_submitted [2]) (by decide) hp hlive
      (hid ▸ hrun)
    rw [hid] at herased
    exact herased.objects [⟨"studio", "gala", 0, 0⟩, ⟨"studio", "gala", 0, 1⟩] (by decide +kernel)
      ⟨"studio", "gala", 0, 1⟩ (by decide) (by decide +kernel)
  · intro h
    obtain ⟨p, hp, hid, hlive⟩ := exists_guest [1, 1] (by decide +kernel)
    have herased := h _ _ _ p _ _ (history_submitted [1, 1]) (by decide) hp hlive
      (exec_afterCall [1, 1] .selfieRetentionSweep _ rfl) (by rw [hid]; decide +kernel)
    rw [hid] at herased
    exact herased.objects [⟨"studio", "gala", 0, 0⟩] (by decide +kernel)
      ⟨"studio", "gala", 0, 0⟩ (by decide) (by decide +kernel)

/-- One submission: of one photo before a removal, of three before a sweep. -/
theorem erasure_complete_iff_once :
    Erased (submissionsOf (submitted [1]).1 0) 0 (drain (afterCall [1] (.remove "gala" 0)).state) ∧
      Erased (submissionsOf (submitted [3]).1 0) 0
        (drain (afterCall [3] .selfieRetentionSweep).state) := by
  constructor
  · obtain ⟨p, hp, hid, hlive⟩ := exists_guest [1] (by decide +kernel)
    have hrun := exec_afterCall [1] (.remove "gala" 0) (.ok .removed) (by decide +kernel)
    have herased := (erasure_complete_iff faceless (history_submitted [1]) (by decide) hp
      hlive).1 "gala" (hid ▸ hrun)
    rw [hid] at herased
    exact herased.mpr ⟨⟨"studio", "gala", 0, 0⟩, by decide +kernel⟩
  · obtain ⟨p, hp, hid, hlive⟩ := exists_guest [3] (by decide +kernel)
    have hrun := exec_afterCall [3] .selfieRetentionSweep _ rfl
    have herased := (erasure_complete_iff faceless (history_submitted [3]) (by decide) hp
      hlive).2 _ hrun (by rw [hid]; decide +kernel)
    rw [hid] at herased
    exact herased.mpr
      ⟨[⟨"studio", "gala", 0, 0⟩, ⟨"studio", "gala", 0, 1⟩, ⟨"studio", "gala", 0, 2⟩],
      by decide +kernel⟩

end Runs

end EventLens.Selfies
