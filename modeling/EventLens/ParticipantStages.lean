import EventLens.ParticipantService

/-!
The stages a call of the participant flow goes through: the selfies it still
has to embed, the participant it matches and what its searches have found, the
announcement it owes, the matches its digest has counted. Every call performs
only what its stage permits.
-/

namespace EventLens.Selfies

open Programs Contract

/-- What follows the matching of a participant: nothing more, or the other
participants of the job. -/
abbrev After := Option (List Participant)

/-- A search of the face index and its answer. -/
structure Search where
  eventId : String
  embedding : Embedding
  maxDistance : ℚ
  faces : List IndexedFace
deriving DecidableEq, Repr

inductive Stage
  | idle
  | submitting
  | replacing (id : ParticipantId)
  | selecting
  | processing (id : ParticipantId)
  | embedding (id : ParticipantId) (stored : Option (ParticipantSelfie × DetectedFace))
      (selfies : List ParticipantSelfie)
  | detected (id : ParticipantId) (selfie : ParticipantSelfie) (face : Option DetectedFace)
      (selfies : List ParticipantSelfie)
  | matching (p : Participant) (primary : Embedding) (selfies : Option (List ParticipantSelfie))
      (found : List Search) (after : After)
  | matched (p : Participant) (inserted : ℕ) (after : After)
  | announcing (p : Participant) (after : After)
  | mailing (id : ParticipantId) (ofDigest : Bool)
  | loading (id : ParticipantId)
  | throttling (id : ParticipantId) (since : Date)
  | due (id : ParticipantId) (since : Date)
  | counted (id : ParticipantId) (rows : List MatchRow)
  | sent (id : ParticipantId) (rows : List MatchRow)
  | stamping (id : ParticipantId) (rows : List MatchRow) (sentAt : Date)
  | refused (id : ParticipantId)
  | over (id : ParticipantId)
  | erasing
deriving DecidableEq

namespace Stage

/-- The next participant that has an embedding. -/
def next : List Participant → Stage
  | [] => .idle
  | p :: todo =>
    match truthy p.selfieEmbedding with
    | none => next todo
    | some primary => .matching p primary none [] (some todo)

def resume : After → Stage
  | none => .idle
  | some todo => next todo

/-- The stage of a job that turns to this participant. -/
def chosen (p : Participant) (after : After) : Stage :=
  match truthy p.selfieEmbedding with
  | none => resume after
  | some primary => .matching p primary none [] after

/-- The stage after an event. -/
def note : Stage → ParticipantEvent → Stage
  | .submitting, ⟨.upsert _, r⟩ => .replacing (r : Participant).id
  | .replacing _, ⟨.insertSelfies _ _, _⟩ => .idle
  | .selecting, ⟨.getMatchableByEvent _, participants⟩ => next participants
  | .selecting, ⟨.getPendingForSweep, participants⟩ => next participants
  | .processing id, ⟨.getSelfies _, selfies⟩ => .embedding id none selfies
  | .embedding id _ selfies, ⟨.detectFaces _ _, r⟩ =>
    match (r : Except HttpError (List DetectedFace)), selfies with
    | .ok faces, selfie :: selfies => .detected id selfie (largest faces) selfies
    | _, _ => .idle
  | .embedding id _ selfies, ⟨.update _ _, _⟩ => .embedding id none selfies
  | .embedding _ _ _, ⟨.getById _, r⟩ =>
    match (r : Option Participant) with
    | some p => chosen p none
    | none => .idle
  | .detected id selfie face selfies, ⟨.setSelfieEmbedding _ _, _⟩ =>
    .embedding id (face.map (fun face => (selfie, face))) selfies
  | .matching p primary _ found after, ⟨.getSelfies _, selfies⟩ =>
    .matching p primary (some selfies) found after
  | .matching p primary selfies found after, ⟨.searchFaces eventId e maxDistance, faces⟩ =>
    .matching p primary selfies (found ++ [⟨eventId, e, maxDistance, faces⟩]) after
  | .matching p _ _ _ after, ⟨.insertMatches _, r⟩ =>
    match (r : Except HttpError (Date × ℕ)) with
    | .ok (_, inserted) => .matched p inserted after
    | .error _ => .idle
  | .matching p _ _ _ after, ⟨.countMatches _ _, _⟩ => .matched p 0 after
  | .matched p inserted after, ⟨.update _ _, _⟩ =>
    if 0 < inserted then .announcing p after else resume after
  | .announcing _ after, ⟨.queue _, _⟩ => resume after
  | .loading id, ⟨.getById _, r⟩ =>
    match (r : Option Participant) with
    | none => .over id
    | some p =>
      match p.notifiedFirstAt with
      | none => .mailing id true
      | some first => .throttling id (p.lastNotifiedAt.getD first)
  | .throttling id since, ⟨.eventExists _, r⟩ =>
    match (r : Bool) with
    | true => .throttling id since
    | false => .over id
  | .throttling id since, ⟨.now, t⟩ =>
    if (t : Date) - since < digestThrottleMs then .over id else .due id since
  | .due id _, ⟨.countMatches _ _, rows⟩ =>
    if (rows : List MatchRow) = [] then .over id else .counted id rows
  | .counted id rows, ⟨.send _ _ _, r⟩ =>
    match (r : Bool) with
    | true => .sent id rows
    | false => .refused id
  | .sent id rows, ⟨.now, t⟩ => .stamping id rows t
  | .stamping id _ _, ⟨.update _ _, _⟩ => .over id
  | s, _ => s

/-- A digest asks when the last mail went out, if one did. -/
theorem note_loaded (id k : ParticipantId) (p : Participant) :
    (loading id).note ⟨.getById k, some p⟩ =
      p.notifiedFirstAt.elim (mailing id true) fun first =>
        throttling id (p.lastNotifiedAt.getD first) := by
  change (match p.notifiedFirstAt with
    | none => mailing id true
    | some first => throttling id (p.lastNotifiedAt.getD first)) = _
  cases p.notifiedFirstAt <;> rfl

end Stage

/-- The face of a match came out of one of these searches. -/
def HitOf (V : Services) (p : Participant) (found : List Search) (m : MatchInsert) : Prop :=
  m.participantId = p.id ∧ ∃ search ∈ found, ∃ face ∈ search.faces, m.viaFaceId = face.id ∧
    m.assetId = face.assetId ∧ m.distance = V.distance face.embedding search.embedding

/-- The mail that new matches of a participant lead to. -/
def announcement (p : Participant) : After → ParticipantJob
  | none => .sendGalleryEmail p.id
  | some _ => if p.notifiedFirstAt ≠ none then .sendDigest p.id else .sendGalleryEmail p.id

/-- The operations a stage permits. -/
def Stage.Permits (V : Services) : Stage → ParticipantOp → Prop
  | .idle, .queue job => ∀ id, job ≠ .sendDigest id
  | .idle, .removeWorkDir _ => True
  | .submitting, .getActiveEvent _ | .submitting, .consumeIp _ | .submitting, .consumeEmail _ _
  | .submitting, .randomUUID | .submitting, .putFile _ _ _ | .submitting, .upsert _ => True
  | .replacing id, .deleteSelfies k => k = id
  | .replacing id, .insertSelfies k keys => k = id ∧ keys ≠ []
  | .selecting, .getMatchableByEvent _ | .selecting, .getPendingForSweep => True
  | .processing id, .getById k | .processing id, .getSelfies k => k = id
  | .processing _, .getConfig _ => True
  | .embedding id _ _, .makeWorkDir k | .embedding id _ _, .removeWorkDir k => k = id
  | .embedding _ _ selfies, .getObject key =>
      (selfies.map fun row => row.storageKey).head? = some key
  | .embedding id _ selfies, .writeWorkFile k ordinal key => k = id ∧
      (selfies.map fun row => (row.ordinal, row.storageKey)).head? = some (ordinal, key)
  | .embedding id _ selfies, .detectFaces k ordinal => k = id ∧
      (selfies.map fun row => row.ordinal).head? = some ordinal
  | .embedding id stored selfies, .update k dto => k = id ∧
      ((∃ selfie face, stored = some (selfie, face) ∧
          dto = { selfieEmbedding := some (some face.embedding) }) ∨
        selfies = [] ∧ dto = { status := some .noFace })
  | .embedding id _ selfies, .queue job => selfies = [] ∧ job = .sendNoFaceEmail id
  | .embedding id _ selfies, .getById k => selfies = [] ∧ k = id
  | .detected _ selfie face _, .setSelfieEmbedding k e =>
      k = selfie.id ∧ e = face.map (fun face => face.embedding)
  | .matching p _ _ _ _, .getConfig k => k = p.eventId
  | .matching p _ none _ _, .getSelfies k => k = p.id
  | .matching p primary (some selfies) _ _, .searchFaces eventId e maxDistance =>
      eventId = p.eventId ∧ e ∈ searchWith primary selfies ∧
        maxDistance = V.maxDistance p.eventId
  | .matching p _ (some _) found _, .insertMatches inserts => ∀ m ∈ inserts, HitOf V p found m
  | .matching p _ _ _ _, .countMatches k since | .matched p _ _, .countMatches k since =>
      k = p.id ∧ since = none
  | .matched p _ _, .update k dto => k = p.id ∧ ∃ status, dto = { status := some status }
  | .announcing p after, .queue job => job = announcement p after
  | .mailing id _, .getById k => k = id
  | .mailing _ _, .eventExists _ | .mailing _ _, .countMatches _ _ | .mailing _ _, .now => True
  | .mailing id _, .send k template _ => k = id ∧ template = .galleryReady
  | .mailing id _, .update k dto => k = id ∧ ∃ t, dto =
      { notifiedFirstAt := some t, lastNotifiedAt := some t, awaitingResultNotice := some false }
  | .loading id, .getById k => k = id
  | .throttling _ _, .eventExists _ | .throttling _ _, .now => True
  | .due id since, .countMatches k from? => k = id ∧ from? = some since
  | .counted id rows, .send k template told => k = id ∧ template = .galleryUpdate ∧ told = rows
  | .sent _ _, .now => True
  | .stamping id _ sentAt, .update k dto => k = id ∧ dto = { lastNotifiedAt := some sentAt }
  | .erasing, .getById _ | .erasing, .now | .erasing, .getExpiredSelfies _
  | .erasing, .listSelfieKeys _ | .erasing, .deleteEmails _ | .erasing, .deleteParticipant _
  | .erasing, .deleteSelfies _ | .erasing, .scrub _ | .erasing, .deleteKeys _ => True
  | .erasing, .queue job => ∃ keys, job = .cleanupKeys keys
  | _, _ => False

/-- What a call counts on: the configuration stays, and a row it asked for is
that row. -/
def Expects (V : Services) : ParticipantEvent → Prop
  | ⟨.getById id, r⟩ => ∀ p, (r : Option Participant) = some p → p.id = id
  | ⟨.getConfig eventId, maxDistance⟩ => maxDistance = V.maxDistance eventId
  | _ => True

def stages (V : Services) : Contract ParticipantOp ParticipantRes Stage where
  note := Stage.note
  expects _ := Expects V
  permits := Stage.Permits V

def ParticipantCall.first : ParticipantCall → Stage
  | .submitSelfie _ => .submitting
  | .selfieProcess id => .processing id
  | .participantRematch _ | .participantMatchSweep => .selecting
  | .sendGalleryEmail id => .mailing id false
  | .sendDigest id => .loading id
  | .remove _ _ | .selfieRetentionSweep | .cleanupKeys _ => .erasing

/-- The participant whose digest this is. -/
def ParticipantCall.digest : ParticipantCall → Option ParticipantId
  | .sendDigest id => some id
  | _ => none

namespace Stage

def digest : Stage → Option ParticipantId
  | .loading id | .throttling id _ | .due id _ | .counted id _ | .sent id _ | .stamping id _ _
  | .refused id | .over id | .mailing id true => some id
  | _ => none

/-- The call owes no announcement, and no digest is under way. -/
def settled : Stage → Bool
  | .matched _ _ _ | .announcing _ _ | .loading _ | .throttling _ _ | .due _ _ | .counted _ _
  | .sent _ _ | .stamping _ _ _ => false
  | _ => true

/-- A digest may have failed. -/
def fails : Stage → Bool
  | .refused _ | .mailing _ true => true
  | _ => false

end Stage

structure ParticipantCall.Post (c : ParticipantCall) (answer : Answer) (g : Stage) : Prop where
  settled : g.settled = true
  digest : g.digest = c.digest
  finished : c.digest ≠ none → finished answer = true ∨ g.fails = true

theorem handler_expects {V : Services} {s : ParticipantStore} (o : ParticipantOp)
    (r : ParticipantRes o) : Expects V ⟨o, (participantHandler V o r s).1⟩ := by
  cases o with
  | getById id =>
    intro p hp
    exact (mem_of_findRow (Option.filter_eq_some_iff.mp hp).1).2
  | getConfig eventId => rfl
  | _ => trivial

/-- The stages of the calls in progress. -/
def stagesOf (p : ParticipantPool) : List Stage :=
  p.threads.map (fun t => t.past.foldl Stage.note t.call.first)

theorem mem_stagesOf {V : Services} {p : ParticipantPool} {k : Stage} :
    k ∈ stagesOf p ↔ k ∈ notesOf (stages V) ParticipantCall.first p.threads := Multiset.mem_coe.symm

/-! Every call keeps to its stages. -/

section Follows

variable {V : Services} {g : Stage}

theorem follows_map {α β : Type} {f : α → β} {p : Attempt α} {Q : Except HttpError β → Stage → Prop}
    (h : (stages V).Follows p.run (fun r g => Q (r.map f) g) g) :
    (stages V).Follows (f <$> p).run Q g := by
  refine (follows_bind _ _ _ _ _).mpr (follows_mono _ ?_ _ _ h)
  intro r g hr
  cases r <;> exact hr

theorem queueAll_follows (jobs : List ParticipantJob)
    (h : ∀ job ∈ jobs, ∀ id, job ≠ .sendDigest id) :
    (stages V).Follows (queueAll jobs).run (fun _ g => g = .idle) .idle := by
  induction jobs with
  | nil => rfl
  | cons job jobs ih =>
    refine ⟨h job (List.mem_cons_self ..), fun _ _ => ?_⟩
    exact ih fun later hlater => h later (List.mem_cons_of_mem _ hlater)

theorem putFiles_follows (files : List (StagedUpload × SelfieKey)) :
    (stages V).Follows (putFiles files).run (fun _ g => g = .submitting) .submitting := by
  induction files with
  | nil => rfl
  | cons file files ih =>
    refine ⟨trivial, fun r _ => ?_⟩
    cases r with
    | error e => rfl
    | ok _ => exact ih

theorem checkStaged_follows (staged : List StagedUpload) :
    (stages V).Follows (checkStaged staged).run (fun _ g' => g' = g) g := by
  induction staged with
  | nil => rfl
  | cons file files ih =>
    rw [checkStaged]
    split
    · rfl
    split
    · rfl
    · exact ih

/-- The stages a submission may end in. -/
def SubmissionEnd (g : Stage) : Prop := g.settled = true ∧ g.digest = none

theorem storeSelfies_follows {dto : Submission} (orgId eventId : String)
    (hstaged : dto.staged ≠ []) :
    (stages V).Follows (storeSelfies dto orgId eventId).run (fun _ => SubmissionEnd)
      .submitting := by
  refine ⟨trivial, fun uuid _ => ?_⟩
  refine (follows_attempt _ _ _ _ _).mpr (follows_mono _ ?_ _ _ (putFiles_follows _))
  rintro (e | _) g rfl
  · exact ⟨rfl, rfl⟩
  refine ⟨trivial, fun participant _ => ⟨rfl, fun _ _ => ?_⟩⟩
  have hkeys : selfieKeys orgId eventId uuid 0 dto.staged ≠ [] := by
    cases hcase : dto.staged with
    | nil => exact absurd hcase hstaged
    | cons file files => simp [selfieKeys]
  change (stages V).Follows (ExceptT.run ((if selfieKeys orgId eventId uuid 0 dto.staged = [] then _
    else _ : Attempt Unit) >>= _)) _ (.replacing participant.id)
  rw [if_neg hkeys]
  refine ⟨⟨rfl, hkeys⟩, fun r _ => ?_⟩
  cases r with
  | error e => exact ⟨rfl, rfl⟩
  | ok _ =>
    refine (follows_attempt _ _ _ _ _).mpr (follows_mono _ ?_ _ _ (queueAll_follows _ (by simp)))
    rintro (e | _) g rfl <;> exact ⟨rfl, rfl⟩

theorem submitSelfie_follows (dto : Submission) :
    (stages V).Follows (submitSelfie dto).run (fun _ => SubmissionEnd) .submitting := by
  rw [submitSelfie, validate]
  by_cases hstaged : dto.staged = []
  · rw [if_pos hstaged]
    exact ⟨rfl, rfl⟩
  rw [if_neg hstaged]
  split
  · exact ⟨rfl, rfl⟩
  refine (follows_attempt _ _ _ _ _).mpr (follows_mono _ ?_ _ _ (checkStaged_follows dto.staged))
  rintro (e | _) g rfl
  · exact ⟨rfl, rfl⟩
  refine ⟨trivial, fun event _ => ?_⟩
  cases event with
  | error e => exact ⟨rfl, rfl⟩
  | ok event =>
    refine ⟨trivial, fun byIp _ => ?_⟩
    cases byIp with
    | false => exact ⟨rfl, rfl⟩
    | true =>
      refine ⟨trivial, fun byEmail _ => ?_⟩
      cases byEmail with
      | false => exact ⟨rfl, rfl⟩
      | true => exact storeSelfies_follows event.1 event.2 hstaged

/-! Matching. -/

/-- A hit of one of these searches. -/
def FoundIn (V : Services) (found : List Search) (hit : Hit) : Prop :=
  ∃ search ∈ found, ∃ face ∈ search.faces,
    hit = ⟨face.id, face.assetId, V.distance face.embedding search.embedding⟩

theorem mem_keepBest {best : List Hit} {hit h : Hit} (hmem : h ∈ keepBest best hit) :
    h ∈ best ∨ h = hit := by
  induction best with
  | nil => exact .inr (List.mem_singleton.mp hmem)
  | cons current best ih =>
    rw [keepBest] at hmem
    split at hmem
    · rcases List.mem_cons.mp hmem with rfl | hmem
      · split
        · exact .inr rfl
        · exact .inl (List.mem_cons_self ..)
      · exact .inl (List.mem_cons_of_mem _ hmem)
    · rcases List.mem_cons.mp hmem with rfl | hmem
      · exact .inl (List.mem_cons_self ..)
      · exact (ih hmem).imp_left (List.mem_cons_of_mem _)

theorem mem_foldl_keepBest {hits best : List Hit} {h : Hit} (hmem : h ∈ hits.foldl keepBest best) :
    h ∈ best ∨ h ∈ hits := by
  induction hits generalizing best with
  | nil => exact .inl hmem
  | cons hit hits ih =>
    rcases ih hmem with hbest | hhits
    · rcases mem_keepBest hbest with hbest | rfl
      · exact .inl hbest
      · exact .inr (List.mem_cons_self ..)
    · exact .inr (List.mem_cons_of_mem _ hhits)

theorem searchAll_follows {p : Participant} {primary : Embedding} {selfies : List ParticipantSelfie}
    {found : List Search} {after : After} (embeddings : List Embedding)
    (best : List Hit) (hsearch : ∀ e ∈ embeddings, e ∈ searchWith primary selfies)
    (hbest : ∀ hit ∈ best, FoundIn V found hit) :
    (stages V).Follows (searchAll V p.eventId (V.maxDistance p.eventId) embeddings best).run
      (fun r g => ∃ hits found', r = .ok hits ∧
        g = .matching p primary (some selfies) found' after ∧ ∀ hit ∈ hits, FoundIn V found' hit)
      (.matching p primary (some selfies) found after) := by
  induction embeddings generalizing best found with
  | nil => exact ⟨best, found, rfl, rfl, hbest⟩
  | cons e embeddings ih =>
    refine ⟨⟨rfl, hsearch e (List.mem_cons_self ..), rfl⟩, fun faces _ => ?_⟩
    refine ih _ (fun later hlater => hsearch later (List.mem_cons_of_mem _ hlater)) ?_
    intro hit hhit
    rcases mem_foldl_keepBest hhit with hbefore | hnew
    · obtain ⟨search, hmem, hface⟩ := hbest hit hbefore
      exact ⟨search, List.mem_append_left _ hmem, hface⟩
    · obtain ⟨face, hface, rfl⟩ := List.mem_map.mp hnew
      exact ⟨⟨p.eventId, e, V.maxDistance p.eventId, faces⟩,
        List.mem_append_right _ (List.mem_singleton_self _), face, hface, rfl⟩

/-- The stage after a participant has been matched. -/
def Stage.done (p : Participant) (inserted : ℕ) (after : After) : Stage :=
  if 0 < inserted then .announcing p after else .resume after

theorem matchParticipant_follows (p : Participant) (after : After) :
    (stages V).Follows (matchParticipant V p).run
      (fun r g => match r with
        | .ok inserted => g = .done p inserted after
        | .error _ => g = .idle) (.chosen p after) := by
  rw [matchParticipant, Stage.chosen]
  cases truthy p.selfieEmbedding with
  | none => rfl
  | some primary =>
    refine ⟨rfl, fun maxDistance hmax => ⟨rfl, fun selfies _ => ?_⟩⟩
    obtain rfl : maxDistance = V.maxDistance p.eventId := hmax
    refine (follows_attempt _ _ _ _ _).mpr (follows_mono _ ?_ _ _
      (searchAll_follows (searchWith primary selfies) [] (fun _ he => he)
        fun _ hhit => absurd hhit List.not_mem_nil))
    rintro _ _ ⟨hits, found, rfl, rfl, hfound⟩
    have hcount : ∀ inserted, (stages V).Follows (ExceptT.run (do
        let total ← call (.countMatches p.id none)
        call (.update p.id { status := some (if total = [] then .pendingMatch else .matched) })
        pure inserted))
        (fun r g => match r with
          | .ok inserted => g = .done p inserted after
          | .error _ => g = .idle) (.matched p inserted after) := by
      intro inserted
      exact ⟨⟨rfl, rfl⟩, fun total _ => ⟨⟨rfl, _, rfl⟩, fun _ _ => rfl⟩⟩
    change (stages V).Follows (ExceptT.run (insertMatches _ >>= _)) _ _
    rw [insertMatches]
    split
    · exact ⟨⟨rfl, rfl⟩, fun total _ => ⟨⟨rfl, _, rfl⟩, fun _ _ => rfl⟩⟩
    · refine ⟨?_, fun r _ => ?_⟩
      · intro m hm
        obtain ⟨hit, hhit, rfl⟩ := List.mem_map.mp hm
        obtain ⟨search, hmem, face, hface, rfl⟩ := hfound hit hhit
        exact ⟨rfl, search, hmem, face, hface, rfl, rfl, rfl⟩
      · cases r with
        | error e => rfl
        | ok r => exact hcount r.2

theorem matchAll_follows (participants : List Participant) :
    (stages V).Follows (matchAll V participants).run (fun _ g => g = .idle)
      (.next participants) := by
  induction participants with
  | nil => rfl
  | cons p participants ih =>
    refine (follows_attempt _ _ _ _ _).mpr (follows_mono _ ?_ _ _
      (matchParticipant_follows p (some participants)))
    rintro (e | inserted) g rfl
    · rfl
    · change (stages V).Follows (ExceptT.run (if 0 < inserted then _ else _)) _
        (if 0 < inserted then _ else _)
      by_cases hnew : 0 < inserted
      · rw [if_pos hnew, if_pos hnew]
        exact ⟨rfl, fun _ _ => ih⟩
      · rw [if_neg hnew, if_neg hnew]
        exact ih

/-- The stages the processing of selfies may end in. -/
def ProcessingEnd : Stage → Prop
  | .idle | .processing _ | .embedding _ _ _ => True
  | _ => False

/-- The stages the body of the processing may end in. -/
def ProcessingBody (id : ParticipantId) (g : Stage) : Prop :=
  g = .idle ∨ ∃ stored selfies, g = .embedding id stored selfies

theorem embedAll_follows (id : ParticipantId) (stored : Option (ParticipantSelfie × DetectedFace))
    (selfies : List ParticipantSelfie) (embedded : ℕ) :
    (stages V).Follows (embedAll id selfies embedded).run
      (fun r g => match r with
        | .ok _ => ∃ stored, g = .embedding id stored []
        | .error _ => ProcessingBody id g) (.embedding id stored selfies) := by
  induction selfies generalizing stored embedded with
  | nil => exact ⟨stored, rfl⟩
  | cons selfie selfies ih =>
    refine ⟨rfl, fun got _ => ?_⟩
    cases got with
    | error e => exact .inr ⟨_, _, rfl⟩
    | ok _ =>
    refine ⟨⟨rfl, rfl⟩, fun written _ => ?_⟩
    cases written with
    | error e => exact .inr ⟨_, _, rfl⟩
    | ok _ =>
    refine ⟨⟨rfl, rfl⟩, fun r _ => ?_⟩
    cases r with
    | error e => exact .inl rfl
    | ok faces =>
      change (stages V).Follows _ _ (.detected id selfie (largest faces) selfies)
      simp only [Prog.bind_done, ExceptT.bindCont]
      cases largest faces with
      | none => exact ⟨⟨rfl, rfl⟩, fun _ _ => ih _ _⟩
      | some face =>
        refine ⟨⟨rfl, rfl⟩, fun _ _ => ?_⟩
        change (stages V).Follows (ExceptT.run (if embedded = 0 then _ else _)) _
          (.embedding id (some (selfie, face)) selfies)
        split
        · exact ⟨⟨rfl, .inl ⟨selfie, face, rfl, rfl⟩⟩, fun _ _ => ih _ _⟩
        · exact ih _ _

theorem finishSelfie_follows (id : ParticipantId)
    (stored : Option (ParticipantSelfie × DetectedFace)) (embedded : ℕ) :
    (stages V).Follows (finishSelfie V id embedded).run (fun _ => ProcessingBody id)
      (.embedding id stored []) := by
  rw [finishSelfie]
  split
  · exact ⟨⟨rfl, .inr ⟨rfl, rfl⟩⟩, fun _ _ => ⟨⟨rfl, rfl⟩, fun _ _ => .inr ⟨_, _, rfl⟩⟩⟩
  · refine ⟨⟨rfl, rfl⟩, fun r hid => ?_⟩
    cases r with
    | none => exact .inl rfl
    | some updated =>
      refine (follows_attempt _ _ _ _ _).mpr (follows_mono _ ?_ _ _
        (matchParticipant_follows updated none))
      rintro (e | inserted) g hg
      · exact .inl hg
      · obtain rfl : g = .done updated inserted none := hg
        change (stages V).Follows (ExceptT.run (if 0 < inserted then _ else _)) _
          (if 0 < inserted then _ else _)
        by_cases hnew : 0 < inserted
        · rw [if_pos hnew, if_pos hnew]
          exact ⟨congrArg ParticipantJob.sendGalleryEmail (hid updated rfl).symm,
            fun _ _ => .inl rfl⟩
        · rw [if_neg hnew, if_neg hnew]
          exact .inl rfl

/-- The body of the `try`: the folder, the selfies, the match. -/
theorem processing_follows (id : ParticipantId) (selfies : List ParticipantSelfie) :
    (stages V).Follows (do
        makeWorkDir id
        let embedded ← embedAll id selfies 0
        finishSelfie V id embedded : Attempt JobStatus).run (fun _ => ProcessingBody id)
      (.embedding id none selfies) := by
  refine ⟨rfl, fun made _ => ?_⟩
  cases made with
  | error e => exact .inr ⟨_, _, rfl⟩
  | ok _ =>
    refine (follows_attempt _ _ _ _ _).mpr
      (follows_mono _ ?_ _ _ (embedAll_follows id none selfies 0))
    rintro (e | embedded) g hg
    · exact hg
    · obtain ⟨stored, rfl⟩ := hg
      exact finishSelfie_follows id stored embedded

/-- Whatever the body came to, the folder is removed and no more is done. -/
theorem andRemoveWorkDir_follows {id : ParticipantId} {p : Attempt JobStatus} {g : Stage}
    (h : (stages V).Follows p.run (fun _ => ProcessingBody id) g) :
    (stages V).Follows (andRemoveWorkDir id p).run (fun _ => ProcessingEnd) g := by
  refine follows_seq _ h fun r g hg => ?_
  rcases hg with rfl | ⟨stored, left, rfl⟩
  · exact ⟨trivial, fun _ _ => trivial⟩
  · exact ⟨rfl, fun _ _ => trivial⟩

theorem handleSelfieProcess_follows (id : ParticipantId) :
    (stages V).Follows (handleSelfieProcess V id).run (fun _ => ProcessingEnd)
    (.processing id) := by
  refine ⟨rfl, fun r _ => ?_⟩
  cases r with
  | none => trivial
  | some participant =>
    change (stages V).Follows (ExceptT.run (if participant.selfieKey = none then _ else _)) _
      (.processing id)
    split
    · trivial
    exact ⟨trivial, fun _ _ => ⟨rfl, fun selfies _ =>
      andRemoveWorkDir_follows (processing_follows id selfies)⟩⟩

/-! Mails. -/

theorem handleSendGalleryEmail_follows (id : ParticipantId) (ofDigest : Bool) :
    (stages V).Follows (handleSendGalleryEmail id).run (fun _ g => g = .mailing id ofDigest)
      (.mailing id ofDigest) := by
  refine ⟨rfl, fun r _ => ?_⟩
  cases r with
  | none => rfl
  | some participant =>
    refine ⟨trivial, fun there _ => ?_⟩
    cases there with
    | false => rfl
    | true =>
      refine ⟨trivial, fun counted _ => ?_⟩
      change (stages V).Follows (ExceptT.run (if counted = [] then _ else _)) _
        (.mailing id ofDigest)
      split
      · rfl
      split
      · rfl
      · refine ⟨⟨rfl, rfl⟩, fun sent _ => ?_⟩
        cases sent with
        | false => rfl
        | true => exact ⟨trivial, fun t _ => ⟨⟨rfl, t, rfl⟩, fun _ _ => rfl⟩⟩

/-- A digest has returned. -/
structure DigestEnd (id : ParticipantId) (r : Except HttpError JobStatus) (g : Stage) : Prop where
  settled : g.settled = true
  digest : g.digest = some id
  finished : finished (r.map Reply.status) = true ∨ g.fails = true

theorem handleSendDigest_follows (id : ParticipantId) :
    (stages V).Follows (handleSendDigest id).run (DigestEnd id) (.loading id) := by
  have hskip : DigestEnd id (.ok .skipped) (.over id) := ⟨rfl, rfl, .inl rfl⟩
  refine ⟨rfl, fun r _ => ?_⟩
  cases r with
  | none => exact hskip
  | some participant =>
    change (stages V).Follows _ _ (match participant.notifiedFirstAt with
      | none => Stage.mailing id true
      | some first => Stage.throttling id (participant.lastNotifiedAt.getD first))
    cases hfirst : participant.notifiedFirstAt with
    | none =>
      refine ⟨trivial, fun there _ => ?_⟩
      cases there with
      | false => exact ⟨rfl, rfl, .inr rfl⟩
      | true =>
        change (stages V).Follows (ExceptT.run (match participant.notifiedFirstAt with
          | none => _ | some first => _)) _ _
        rw [hfirst]
        refine follows_mono _ ?_ _ _ (handleSendGalleryEmail_follows id true)
        rintro r g rfl
        exact ⟨rfl, rfl, .inr rfl⟩
    | some first =>
      refine ⟨trivial, fun there _ => ?_⟩
      cases there with
      | false => exact hskip
      | true =>
        change (stages V).Follows (ExceptT.run (match participant.notifiedFirstAt with
          | none => _ | some first => _)) _ _
        rw [hfirst]
        refine ⟨trivial, fun t _ => ?_⟩
        change (stages V).Follows (ExceptT.run (if t - participant.lastNotifiedAt.getD first <
          digestThrottleMs then _ else _)) _
          (if t - participant.lastNotifiedAt.getD first < digestThrottleMs then .over id else _)
        split
        · exact hskip
        · refine ⟨⟨rfl, rfl⟩, fun counted _ => ?_⟩
          change (stages V).Follows (ExceptT.run (if counted = [] then _ else _)) _
            (if counted = [] then _ else _)
          split
          · exact hskip
          · refine ⟨⟨rfl, rfl, rfl⟩, fun sent _ => ?_⟩
            cases sent with
            | false => exact ⟨rfl, rfl, .inr rfl⟩
            | true => exact ⟨trivial, fun t _ => ⟨⟨rfl, rfl⟩, fun _ _ => ⟨rfl, rfl, .inl rfl⟩⟩⟩

/-! Erasure and retention. -/

theorem hardDelete_follows (id : ParticipantId) :
    (stages V).Follows (hardDelete id).run (fun _ g => g = .erasing) .erasing :=
  ⟨trivial, fun _ _ => ⟨trivial, fun _ _ => rfl⟩⟩

theorem remove_follows (eventId : String) (id : ParticipantId) :
    (stages V).Follows (remove eventId id).run (fun _ g => g = .erasing) .erasing := by
  refine ⟨trivial, fun r _ => ?_⟩
  cases r with
  | none => rfl
  | some participant =>
    change (stages V).Follows (ExceptT.run ((if participant.eventId ≠ eventId then _ else _ :
      Attempt _) >>= _)) _ .erasing
    split
    · rfl
    · simp only [pure_bind]
      cases participant.selfieKey with
      | none => exact hardDelete_follows participant.id
      | some key => exact ⟨⟨[key], rfl⟩, fun _ _ => hardDelete_follows participant.id⟩

theorem scrubAll_follows (expired : List Participant) :
    (stages V).Follows (scrubAll expired).run (fun _ g => g = .erasing) .erasing := by
  induction expired with
  | nil => rfl
  | cons p expired ih =>
    exact ⟨trivial, fun _ _ => ⟨trivial, fun _ _ => ⟨trivial, fun _ _ => ih⟩⟩⟩

theorem handleSelfieRetentionSweep_follows :
    (stages V).Follows handleSelfieRetentionSweep.run (fun _ g => g = .erasing) .erasing := by
  refine ⟨trivial, fun t _ => ⟨trivial, fun expired _ => ?_⟩⟩
  change (stages V).Follows (ExceptT.run (if expired = [] then _ else _)) _ .erasing
  split
  · rfl
  · refine ⟨trivial, fun extra _ => ?_⟩
    have hscrub : (stages V).Follows (ExceptT.run (do scrubAll expired; pure JobStatus.success))
        (fun _ g => g = .erasing) .erasing := by
      refine (follows_attempt _ _ _ _ _).mpr (follows_mono _ ?_ _ _ (scrubAll_follows expired))
      rintro (e | _) g rfl <;> rfl
    change (stages V).Follows (ExceptT.run (if distinct _ ≠ [] then _ else _)) _ .erasing
    split
    · exact ⟨⟨_, rfl⟩, fun _ _ => hscrub⟩
    · exact hscrub

/-- A call that is no digest may return in a settled stage. -/
theorem post_of_settled {c : ParticipantCall} {answer : Answer} (hc : c.digest = none)
    (hsettled : g.settled = true) (hdigest : g.digest = none) : c.Post answer g :=
  ⟨hsettled, hdigest.trans hc.symm, fun h => absurd hc h⟩

/-- Every call keeps to its stages. -/
theorem call_follows (c : ParticipantCall) : (stages V).Follows (c.prog V) c.Post c.first := by
  cases c with
  | submitSelfie dto =>
    refine follows_map (follows_mono _ ?_ _ _ (submitSelfie_follows dto))
    rintro r g ⟨hsettled, hdigest⟩
    exact post_of_settled rfl hsettled hdigest
  | selfieProcess id =>
    refine follows_map (follows_mono _ ?_ _ _ (handleSelfieProcess_follows id))
    intro r g hg
    refine post_of_settled rfl ?_ ?_ <;> cases g <;> first | rfl | cases hg
  | participantRematch eventId =>
    refine follows_map ⟨trivial, fun participants _ => ?_⟩
    change (stages V).Follows (ExceptT.run (if participants = [] then _ else _)) _
      (.next participants)
    split
    · rename_i hnone
      rw [hnone]
      exact post_of_settled rfl rfl rfl
    · refine follows_mono _ ?_ _ _ (matchAll_follows participants)
      rintro r g rfl
      exact post_of_settled rfl rfl rfl
  | participantMatchSweep =>
    refine follows_map ⟨trivial, fun participants _ => ?_⟩
    refine follows_mono _ ?_ _ _ (matchAll_follows participants)
    rintro r g rfl
    exact post_of_settled rfl rfl rfl
  | sendGalleryEmail id =>
    refine follows_map (follows_mono _ ?_ _ _ (handleSendGalleryEmail_follows id false))
    rintro r g rfl
    exact post_of_settled rfl rfl rfl
  | sendDigest id =>
    refine follows_map (follows_mono _ ?_ _ _ (handleSendDigest_follows id))
    rintro r g ⟨hsettled, hdigest, hfinished⟩
    exact ⟨hsettled, hdigest, fun _ => hfinished⟩
  | remove eventId id =>
    refine follows_map (follows_mono _ ?_ _ _ (remove_follows eventId id))
    rintro r g rfl
    exact post_of_settled rfl rfl rfl
  | selfieRetentionSweep =>
    refine follows_map (follows_mono _ ?_ _ _ handleSelfieRetentionSweep_follows)
    rintro r g rfl
    exact post_of_settled rfl rfl rfl
  | cleanupKeys keys =>
    refine follows_map ?_
    rw [handleCleanupKeys]
    split
    · exact post_of_settled rfl rfl rfl
    · exact ⟨trivial, fun _ _ => post_of_settled rfl rfl rfl⟩

end Follows

end EventLens.Selfies
