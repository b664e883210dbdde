import EventLens.ParticipantRecord
import EventLens.Pools

/-!
The participant flow: submissions, the processing of selfies, matching, the
mails about matches, erasure and retention. Every statement on the tables,
every call of another service and every reading of the clock is one operation,
so that requests and jobs interleave statement by statement. The faces of a
photo and the distance of two embeddings come from the recognition service; the
face index answers from outside, and only with faces within the distance asked
for. The jobs of one participant share a work folder, and a face is detected in
whatever photo is at the path then.
-/

namespace EventLens.Selfies

open Programs

/-- A face found in a photo. -/
structure DetectedFace where
  x1 : ℤ
  y1 : ℤ
  x2 : ℤ
  y2 : ℤ
  embedding : Embedding
deriving DecidableEq, Repr

/-- A face of the index. -/
structure IndexedFace where
  id : String
  assetId : String
  embedding : Embedding
deriving DecidableEq, Repr

structure Hit where
  id : String
  assetId : String
  distance : ℚ
deriving DecidableEq, Repr

/-- The recognition service and the event table, as far as the participant flow
asks them. -/
structure Services where
  detect : SelfieKey → List DetectedFace
  distance : Embedding → Embedding → ℚ
  maxDistance : String → ℚ
  endsAt : String → Option Date
  active : String → Bool

inductive HttpError
  | badRequest (text : String)
  | payloadTooLarge (text : String)
  | tooManyRequests (text : String)
  | notFound (text : String)
  | internal (text : String)
deriving DecidableEq, Repr

inductive ParticipantOp
  | now
  | getActiveEvent (slug : String)
  | consumeIp (clientIp : String)
  | consumeEmail (eventId email : String)
  | eventExists (eventId : String)
  | getConfig (eventId : String)
  | randomUUID
  | putFile (stagingPath : String) (key : SelfieKey) (mimeType : String)
  | makeWorkDir (id : ParticipantId)
  | getObject (key : SelfieKey)
  | writeWorkFile (id : ParticipantId) (ordinal : ℕ) (key : SelfieKey)
  | detectFaces (id : ParticipantId) (ordinal : ℕ)
  | removeWorkDir (id : ParticipantId)
  | searchFaces (eventId : String) (embedding : Embedding) (maxDistance : ℚ)
  | getById (id : ParticipantId)
  | upsert (dto : ParticipantUpsert)
  | update (id : ParticipantId) (dto : ParticipantChange)
  | deleteSelfies (id : ParticipantId)
  | insertSelfies (id : ParticipantId) (keys : List SelfieKey)
  | getSelfies (id : ParticipantId)
  | setSelfieEmbedding (id : SelfieId) (embedding : Option Embedding)
  | getMatchableByEvent (eventId : String)
  | getPendingForSweep
  | insertMatches (inserts : List MatchInsert)
  | countMatches (id : ParticipantId) (since : Option Date)
  | getExpiredSelfies (cutoff : Date)
  | listSelfieKeys (ids : List ParticipantId)
  | deleteEmails (id : ParticipantId)
  | deleteParticipant (id : ParticipantId)
  | scrub (id : ParticipantId)
  | send (id : ParticipantId) (template : EmailTemplate) (counted : List MatchRow)
  | queue (job : ParticipantJob)
  | deleteKeys (keys : List SelfieKey)
deriving DecidableEq, Repr

/-- The answer of each operation. A count answers with the rows it counts, an
insertion of matches with its time and the number of new rows, and the removal
of a work folder with what it has left there. -/
abbrev ParticipantRes : ParticipantOp → Type
  | .now => Date
  | .getActiveEvent _ => Except HttpError (String × String)
  | .consumeIp _ | .consumeEmail _ _ | .eventExists _ | .send _ _ _ => Bool
  | .getConfig _ => ℚ
  | .randomUUID => ℕ
  | .putFile _ _ _ | .insertSelfies _ _ | .makeWorkDir _ | .getObject _ | .writeWorkFile _ _ _ =>
    Except HttpError Unit
  | .detectFaces _ _ => Except HttpError (List DetectedFace)
  | .removeWorkDir _ => List ℕ
  | .searchFaces _ _ _ => List IndexedFace
  | .getById _ => Option Participant
  | .upsert _ => Participant
  | .getSelfies _ => List ParticipantSelfie
  | .getMatchableByEvent _ | .getPendingForSweep | .getExpiredSelfies _ => List Participant
  | .insertMatches _ => Except HttpError (Date × ℕ)
  | .countMatches _ _ => List MatchRow
  | .listSelfieKeys _ => List SelfieKey
  | .update _ _ | .deleteSelfies _ | .setSelfieEmbedding _ _ | .deleteEmails _
  | .deleteParticipant _ | .scrub _ | .queue _ | .deleteKeys _ => Unit

abbrev ParticipantProg := Prog ParticipantOp ParticipantRes
abbrev ParticipantEvent := Event ParticipantOp ParticipantRes

/-- A call that may throw. -/
abbrev Attempt := ExceptT HttpError ParticipantProg

/-- The effect of each operation. Storage, the recognition service and the
insertion of matches may fail; what they do when they succeed is fixed. -/
def participantHandler (V : Services) : Handler ParticipantOp ParticipantRes ParticipantStore
  | .now, t, s => ((s.tick t).clock, s.tick t)
  | .getActiveEvent _, r, s => (r, s)
  | .consumeIp _, r, s => (r, s)
  | .consumeEmail _ _, r, s => (r, s)
  | .eventExists _, r, s => (r, s)
  | .getConfig eventId, _, s => (V.maxDistance eventId, s)
  | .randomUUID, _, s => (s.nextUuid, { s with nextUuid := s.nextUuid + 1 })
  | .putFile _ key _, r, s =>
    match r with
    | .ok _ => (.ok (), { s with bucket := s.bucket ++ [key] })
    | .error e => (.error e, s)
  | .makeWorkDir _, r, s => (r, s)
  | .getObject key, r, s => (if key ∈ s.bucket then r else .error (.internal "NoSuchKey"), s)
  | .writeWorkFile id ordinal key, r, s =>
    match r with
    | .ok _ => (.ok (), s.writeWorkFile id ordinal (some key))
    | .error e => (.error e, s.writeWorkFile id ordinal none)
  | .detectFaces id ordinal, r, s =>
    match r, s.workFile id ordinal with
    | .error e, _ => (.error e, s)
    | .ok _, none => (.error (.internal "ENOENT: no such file or directory"), s)
    | .ok seen, some f => (.ok ((f.photo.map V.detect).getD seen), s)
  | .removeWorkDir id, left, s => (left, s.removeWorkDir id left)
  | .searchFaces _ embedding maxDistance, r, s =>
    (r.filter (fun face => V.distance face.embedding embedding ≤ maxDistance), s)
  | .getById id, _, s => (s.getById id, s)
  | .upsert dto, _, s => s.upsert dto
  | .update id dto, _, s => ((), s.update id dto)
  | .deleteSelfies id, _, s => ((), s.deleteSelfies id)
  | .insertSelfies id keys, _, s =>
    if s.free id keys.length then (.ok (), s.insertSelfies id keys)
    else (.error (.internal "duplicate key value violates unique constraint"), s)
  | .getSelfies id, _, s => (s.getSelfies id, s)
  | .setSelfieEmbedding id embedding, _, s => ((), s.setSelfieEmbedding id embedding)
  | .getMatchableByEvent eventId, _, s => (s.getMatchableByEvent eventId, s)
  | .getPendingForSweep, _, s =>
    (s.participants.filter (fun p => p.status = .pendingMatch ∧ p.selfieEmbedding ≠ none ∧
      p.deletedAt = none ∧ V.active p.eventId), s)
  | .insertMatches inserts, r, s =>
    match r with
    | .error e => (.error e, s)
    | .ok (t, _) =>
      let s := s.tick t
      (.ok (s.clock, (s.insertMatches inserts).matchRows.length - s.matchRows.length),
        s.insertMatches inserts)
  | .countMatches id since, _, s => (s.matchesSince id since, s)
  | .getExpiredSelfies cutoff, _, s =>
    (s.participants.filter (fun p => (V.endsAt p.eventId).any (fun t => t < cutoff) ∧
      p.deletedAt = none ∧ p.selfieKey ≠ none), s)
  | .listSelfieKeys ids, _, s => (s.listSelfieKeys ids, s)
  | .deleteEmails id, _, s =>
    ((), { s with emails := s.emails.filter (fun e => e.participantId ≠ id) })
  | .deleteParticipant id, _, s => ((), s.deleteParticipant id)
  | .scrub id, _, s => ((), s.scrub id)
  | .send id template counted, r, s =>
    (r, if r then { s with emails := s.emails ++ [⟨id, template, counted⟩] } else s)
  | .queue job, _, s => ((), s.addJob job)
  | .deleteKeys keys, _, s => ((), s.deleteKeys keys)

/-- What is seen is seen in the photo at the path. -/
theorem detectFaces_cases {V : Services} {s : ParticipantStore} (id : ParticipantId) (ordinal : ℕ)
    (r : ParticipantRes (.detectFaces id ordinal)) :
    (∃ e, participantHandler V (.detectFaces id ordinal) r s = (.error e, s)) ∨
      ∃ faces, participantHandler V (.detectFaces id ordinal) r s = (.ok faces, s) ∧
        ∃ f ∈ s.workFiles, f.participantId = id ∧ f.ordinal = ordinal ∧
          ∀ key, f.photo = some key → faces = V.detect key := by
  cases r with
  | error e => exact .inl ⟨e, rfl⟩
  | ok seen =>
    cases hfile : s.workFile id ordinal with
    | none =>
      refine .inl ⟨.internal "ENOENT: no such file or directory", ?_⟩
      simp only [participantHandler, hfile]
    | some f =>
      have hmem : f ∈ s.workFiles := List.mem_of_find?_eq_some hfile
      have hpath : f.participantId = id ∧ f.ordinal = ordinal := by
        simpa using List.find?_some hfile
      refine .inr ⟨(f.photo.map V.detect).getD seen, ?_, f, hmem, hpath.1, hpath.2,
        fun key hkey => ?_⟩
      · simp only [participantHandler, hfile]
      · rw [hkey]
        rfl

theorem detectFaces_same {V : Services} {s : ParticipantStore} (id : ParticipantId) (ordinal : ℕ)
    (r : ParticipantRes (.detectFaces id ordinal)) :
    (participantHandler V (.detectFaces id ordinal) r s).2 = s := by
  rcases detectFaces_cases id ordinal r with ⟨e, h⟩ | ⟨faces, h, -⟩ <;> rw [h]

/-! Single operations under the source's names. -/

section Operations

/-- An operation that does not throw. -/
def call (o : ParticipantOp) : Attempt (ParticipantRes o) := .mk (.perform o fun r => .done (.ok r))

abbrev putFile (stagingPath : String) (key : SelfieKey) (mimeType : String) : Attempt Unit :=
  .mk (.perform (.putFile stagingPath key mimeType) .done)
abbrev makeWorkDir (id : ParticipantId) : Attempt Unit := .mk (.perform (.makeWorkDir id) .done)
abbrev getObject (key : SelfieKey) : Attempt Unit := .mk (.perform (.getObject key) .done)
abbrev writeWorkFile (id : ParticipantId) (ordinal : ℕ) (key : SelfieKey) : Attempt Unit :=
  .mk (.perform (.writeWorkFile id ordinal key) .done)
abbrev detectFaces (id : ParticipantId) (ordinal : ℕ) : Attempt (List DetectedFace) :=
  .mk (.perform (.detectFaces id ordinal) .done)
abbrev getActiveEvent (slug : String) : Attempt (String × String) :=
  .mk (.perform (.getActiveEvent slug) .done)

end Operations

/-- No statement is made for an empty set. -/
def replaceSelfies (id : ParticipantId) (keys : List SelfieKey) : Attempt Unit := do
  call (.deleteSelfies id)
  if keys = [] then pure () else .mk (.perform (.insertSelfies id keys) .done)

/-- The number of matches that were not there. -/
def insertMatches (inserts : List MatchInsert) : Attempt ℕ :=
  if inserts = [] then pure 0
  else .mk (.perform (.insertMatches inserts) fun
    | .ok (_, inserted) => .done (.ok inserted)
    | .error e => .done (.error e))

/-- All waiting jobs of a request. -/
def queueAll : List ParticipantJob → Attempt Unit
  | [] => pure ()
  | job :: jobs => do
    call (.queue job)
    queueAll jobs

def hardDelete (id : ParticipantId) : Attempt Unit := do
  call (.deleteEmails id)
  call (.deleteParticipant id)

def softDeleteAndScrub (id : ParticipantId) : Attempt Unit := do
  call (.deleteSelfies id)
  let _ ← call .now
  call (.scrub id)

/-! Submission. -/

structure StagedUpload where
  stagingPath : String
  mimeType : String
  size : ℕ
deriving DecidableEq, Repr

def maxSelfies : ℕ := 3
def maxSelfieBytes : ℕ := 15 * 1024 * 1024

/-- The checks of the photos, in order. -/
def checkStaged : List StagedUpload → Attempt Unit
  | [] => pure ()
  | file :: files =>
    if ¬ file.mimeType.startsWith "image/" then throw (.badRequest "Selfie must be an image")
    else if maxSelfieBytes < file.size then throw (.payloadTooLarge "Selfie exceeds 15 MB")
    else checkStaged files

def validate (staged : List StagedUpload) : Attempt Unit :=
  if staged = [] then throw (.badRequest "Missing selfie file")
  else if maxSelfies < staged.length then
    throw (.badRequest s!"Please submit at most {maxSelfies} photos")
  else checkStaged staged

/-- The keys of one submission. -/
def selfieKeys (orgId eventId : String) (uuid : ℕ) (index : ℕ) : List StagedUpload → List SelfieKey
  | [] => []
  | _ :: staged => ⟨orgId, eventId, uuid, index⟩ :: selfieKeys orgId eventId uuid (index + 1) staged

def putFiles : List (StagedUpload × SelfieKey) → Attempt Unit
  | [] => pure ()
  | (file, key) :: files => do
    putFile file.stagingPath key file.mimeType
    putFiles files

structure Submission where
  slug : String
  email : String
  name : String
  phone : Option String
  staged : List StagedUpload
  clientIp : String
deriving DecidableEq, Repr

/-- A text without the blanks around it; nothing when nothing remains. -/
def trimmed (phone : Option String) : Option String :=
  (phone.map (fun text => text.trimAscii.toString)).filter (fun text => text ≠ "")

/-- The photos are stored before the row is written, the set of selfies after
it. -/
def storeSelfies (dto : Submission) (orgId eventId : String) : Attempt ParticipantId := do
  let uuid ← call .randomUUID
  let keys := selfieKeys orgId eventId uuid 0 dto.staged
  putFiles (dto.staged.zip keys)
  let participant ← call (.upsert
    { eventId := eventId
      email := dto.email
      name := dto.name.trimAscii.toString
      phone := trimmed dto.phone
      selfieKey := keys.headD ⟨orgId, eventId, uuid, 0⟩ })
  replaceSelfies participant.id keys
  queueAll [.sendSelfieReceived participant.id, .selfieProcess participant.id]
  pure participant.id

def submitSelfie (dto : Submission) : Attempt ParticipantId := do
  validate dto.staged
  let event ← getActiveEvent dto.slug
  if ¬ (← call (.consumeIp dto.clientIp)) then throw (.tooManyRequests "Too many requests")
  else if ¬ (← call (.consumeEmail event.2 dto.email.toLower)) then
    throw (.tooManyRequests "Too many requests")
  else storeSelfies dto event.1 event.2

/-! Matching. -/

def area (face : DetectedFace) : ℤ := (face.x2 - face.x1) * (face.y2 - face.y1)

/-- The largest face; of several largest ones the first. -/
def largest : List DetectedFace → Option DetectedFace
  | [] => none
  | face :: faces => some (faces.foldl (fun a b => if area a < area b then b else a) face)

/-- Hits of several selfies: the best distance of each face. -/
def keepBest : List Hit → Hit → List Hit
  | [], hit => [hit]
  | current :: best, hit =>
    if current.id = hit.id then (if hit.distance < current.distance then hit else current) :: best
    else current :: keepBest best hit

def searchAll (V : Services) (eventId : String) (maxDistance : ℚ) :
    List Embedding → List Hit → Attempt (List Hit)
  | [], best => pure best
  | embedding :: embeddings, best => do
    let faces ← call (.searchFaces eventId embedding maxDistance)
    let hits := faces.map (fun face => ⟨face.id, face.assetId, V.distance face.embedding embedding⟩)
    searchAll V eventId maxDistance embeddings (hits.foldl keepBest best)

/-- A stored embedding that JavaScript takes for true. -/
def truthy (embedding : Option Embedding) : Option Embedding := embedding.filter (fun e => e ≠ "")

/-- The embeddings to search with: those of the selfies, or the primary one. -/
def searchWith (primary : Embedding) (selfies : List ParticipantSelfie) : List Embedding :=
  match selfies.filterMap (fun selfie => selfie.embedding) with
  | [] => [primary]
  | embeddings => embeddings

def matchParticipant (V : Services) (participant : Participant) : Attempt ℕ :=
  match truthy participant.selfieEmbedding with
  | none => pure 0
  | some primary => do
    let maxDistance ← call (.getConfig participant.eventId)
    let selfies ← call (.getSelfies participant.id)
    let best ← searchAll V participant.eventId maxDistance (searchWith primary selfies) []
    let inserted ← insertMatches
      (best.map (fun hit => ⟨participant.id, hit.assetId, hit.id, hit.distance⟩))
    let total ← call (.countMatches participant.id none)
    call (.update participant.id
      { status := some (if total = [] then .pendingMatch else .matched) })
    pure inserted

/-- The object is asked for, and its body written to the path. -/
def downloadToFile (key : SelfieKey) (id : ParticipantId) (ordinal : ℕ) : Attempt Unit := do
  getObject key
  writeWorkFile id ordinal key

/-- The `finally` that removes the work folder, whatever came before. -/
def andRemoveWorkDir {α : Type} (id : ParticipantId) (p : Attempt α) : Attempt α :=
  .mk (p.run >>= fun r => .perform (.removeWorkDir id) fun _ => .done r)

/-- The selfies one after another; the first usable one becomes the primary. -/
def embedAll (participantId : ParticipantId) : List ParticipantSelfie → ℕ → Attempt ℕ
  | [], embedded => pure embedded
  | selfie :: selfies, embedded => do
    downloadToFile selfie.storageKey participantId selfie.ordinal
    let faces ← detectFaces participantId selfie.ordinal
    match largest faces with
    | none =>
      call (.setSelfieEmbedding selfie.id none)
      embedAll participantId selfies embedded
    | some face =>
      call (.setSelfieEmbedding selfie.id (some face.embedding))
      if embedded = 0 then call (.update participantId
        { selfieEmbedding := some (some face.embedding) })
      embedAll participantId selfies (embedded + 1)

inductive JobStatus
  | success | skipped | failed
deriving DecidableEq, Repr

def finishSelfie (V : Services) (participantId : ParticipantId) (embedded : ℕ) :
    Attempt JobStatus :=
  if embedded = 0 then do
    call (.update participantId { status := some .noFace })
    call (.queue (.sendNoFaceEmail participantId))
    pure .success
  else do
    match ← call (.getById participantId) with
    | none => throw (.internal "Cannot read properties of undefined")
    | some updated =>
      let newMatches ← matchParticipant V updated
      if 0 < newMatches then call (.queue (.sendGalleryEmail participantId))
      pure .success

def handleSelfieProcess (V : Services) (participantId : ParticipantId) : Attempt JobStatus := do
  match ← call (.getById participantId) with
  | none => pure .skipped
  | some participant =>
    if participant.selfieKey = none then pure .skipped
    else do
      let _ ← call (.getConfig participant.eventId)
      let selfies ← call (.getSelfies participantId)
      andRemoveWorkDir participantId (do
        makeWorkDir participantId
        let embedded ← embedAll participantId selfies 0
        finishSelfie V participantId embedded)

/-- Match and announce, one participant after another. -/
def matchAll (V : Services) : List Participant → Attempt JobStatus
  | [] => pure .success
  | participant :: participants => do
    let newMatches ← matchParticipant V participant
    if 0 < newMatches then
      call (.queue (if participant.notifiedFirstAt ≠ none then .sendDigest participant.id
        else .sendGalleryEmail participant.id))
    matchAll V participants

def handleParticipantRematch (V : Services) (eventId : String) : Attempt JobStatus := do
  let participants ← call (.getMatchableByEvent eventId)
  if participants = [] then pure .skipped else matchAll V participants

def handleParticipantMatchSweep (V : Services) : Attempt JobStatus := do
  let pending ← call .getPendingForSweep
  matchAll V pending

/-! Mails. -/

def loadContext (participantId : ParticipantId) : Attempt (Option Participant) := do
  match ← call (.getById participantId) with
  | none => pure none
  | some participant =>
    if ← call (.eventExists participant.eventId) then pure (some participant) else pure none

def handleSendGalleryEmail (participantId : ParticipantId) : Attempt JobStatus := do
  match ← loadContext participantId with
  | none => pure .skipped
  | some participant =>
    let counted ← call (.countMatches participantId none)
    if counted = [] then pure .skipped
    else if ¬ participant.awaitingResultNotice then pure .skipped
    else if ← call (.send participantId .galleryReady counted) then do
      let t ← call .now
      call (.update participantId
        { notifiedFirstAt := some t, lastNotifiedAt := some t, awaitingResultNotice := some false })
      pure .success
    else pure .failed

def digestThrottleMs : Date := 6 * 60 * 60 * 1000

def handleSendDigest (participantId : ParticipantId) : Attempt JobStatus := do
  match ← loadContext participantId with
  | none => pure .skipped
  | some participant =>
    match participant.notifiedFirstAt with
    | none => handleSendGalleryEmail participantId
    | some first =>
      let since := participant.lastNotifiedAt.getD first
      let t ← call .now
      if t - since < digestThrottleMs then pure .skipped
      else do
        let counted ← call (.countMatches participantId (some since))
        if counted = [] then pure .skipped
        else if ← call (.send participantId .galleryUpdate counted) then do
          let sentAt ← call .now
          call (.update participantId { lastNotifiedAt := some sentAt })
          pure .success
        else pure .failed

/-! Erasure and retention. -/

def getScoped (eventId : String) (participantId : ParticipantId) : Attempt Participant := do
  match ← call (.getById participantId) with
  | none => throw (.notFound "Participant not found")
  | some participant =>
    if participant.eventId ≠ eventId then throw (.notFound "Participant not found")
    else pure participant

def remove (eventId : String) (participantId : ParticipantId) : Attempt Unit := do
  let participant ← getScoped eventId participantId
  match participant.selfieKey with
  | some key => do
    call (.queue (.cleanupKeys [key]))
    hardDelete participant.id
  | none => hardDelete participant.id

def selfieRetentionDays : Date := 30

/-- The keys without repetition, in the order of their first occurrence. -/
def distinct (keys : List SelfieKey) : List SelfieKey := keys.reverse.dedup.reverse

def scrubAll : List Participant → Attempt Unit
  | [] => pure ()
  | participant :: expired => do
    softDeleteAndScrub participant.id
    scrubAll expired

def handleSelfieRetentionSweep : Attempt JobStatus := do
  let t ← call .now
  let expired ← call (.getExpiredSelfies (t - selfieRetentionDays * 24 * 60 * 60 * 1000))
  if expired = [] then pure .success
  else do
    let extraKeys ← call (.listSelfieKeys (expired.map (fun p => p.id)))
    let keys := distinct (expired.filterMap (fun p => p.selfieKey) ++ extraKeys)
    if keys ≠ [] then call (.queue (.cleanupKeys keys))
    scrubAll expired
    pure .success

def handleCleanupKeys (keys : List SelfieKey) : Attempt JobStatus :=
  if keys = [] then pure .skipped
  else do
    call (.deleteKeys keys)
    pure .success

/-! Requests and jobs side by side. -/

inductive ParticipantCall
  | submitSelfie (dto : Submission)
  | selfieProcess (participantId : ParticipantId)
  | participantRematch (eventId : String)
  | participantMatchSweep
  | sendGalleryEmail (participantId : ParticipantId)
  | sendDigest (participantId : ParticipantId)
  | remove (eventId : String) (participantId : ParticipantId)
  | selfieRetentionSweep
  | cleanupKeys (keys : List SelfieKey)
deriving DecidableEq, Repr

inductive Reply
  | submitted (participantId : ParticipantId)
  | removed
  | status (status : JobStatus)
deriving DecidableEq, Repr

abbrev Answer := Except HttpError Reply

def ParticipantCall.prog (V : Services) : ParticipantCall → ParticipantProg Answer
  | .submitSelfie dto => (Reply.submitted <$> Selfies.submitSelfie dto).run
  | .selfieProcess id => (Reply.status <$> handleSelfieProcess V id).run
  | .participantRematch eventId => (Reply.status <$> handleParticipantRematch V eventId).run
  | .participantMatchSweep => (Reply.status <$> handleParticipantMatchSweep V).run
  | .sendGalleryEmail id => (Reply.status <$> handleSendGalleryEmail id).run
  | .sendDigest id => (Reply.status <$> handleSendDigest id).run
  | .remove eventId id => ((fun _ => Reply.removed) <$> Selfies.remove eventId id).run
  | .selfieRetentionSweep => (Reply.status <$> handleSelfieRetentionSweep).run
  | .cleanupKeys keys => (Reply.status <$> handleCleanupKeys keys).run

/-- The job ended well: the job store forgets its id. -/
def finished : Answer → Bool
  | .ok (.status .failed) | .error _ => false
  | .ok _ => true

/-- A digest runs when one is waiting. One that failed is tried again, or kept
as failed. Other calls may start at any time. -/
def participantServer (V : Services) :
    Server ParticipantCall ParticipantOp ParticipantRes ParticipantStore Answer where
  handler := participantHandler V
  prog := ParticipantCall.prog V
  accept
    | .sendDigest id, s =>
      if .sendDigest id ∈ s.jobs then
        some { s with jobs := s.jobs.erase (.sendDigest id), held := s.held ++ [id] }
      else none
    | _, s => some s
  release
    | .sendDigest id, answer, again, s =>
      if finished answer then some { s with held := s.held.erase id }
      else if again then
        some { s with jobs := s.jobs ++ [.sendDigest id], held := s.held.erase id }
      else some s
    | _, _, _, s => some s

/-- Every service answers: the clock with this time, the index with these
faces. -/
def willing (t : Date) (faces : List IndexedFace) : (o : ParticipantOp) → ParticipantRes o
  | .now => t
  | .getActiveEvent _ => .ok ("studio", "gala")
  | .consumeIp _ | .consumeEmail _ _ | .eventExists _ | .send _ _ _ => true
  | .getConfig _ => 0
  | .randomUUID => 0
  | .putFile _ _ _ | .insertSelfies _ _ | .makeWorkDir _ | .getObject _ | .writeWorkFile _ _ _ =>
    .ok ()
  | .detectFaces _ _ => .ok []
  | .removeWorkDir _ => []
  | .searchFaces _ _ _ => faces
  | .getById _ => none
  | .upsert up => ParticipantStore.newParticipant up 0
  | .getSelfies _ | .countMatches _ _ | .listSelfieKeys _ => []
  | .getMatchableByEvent _ | .getPendingForSweep | .getExpiredSelfies _ => []
  | .insertMatches _ => .ok (t, 0)
  | .update _ _ | .deleteSelfies _ | .setSelfieEmbedding _ _ | .deleteEmails _
  | .deleteParticipant _ | .scrub _ | .queue _ | .deleteKeys _ => ()

abbrev ParticipantThread := Thread ParticipantCall ParticipantOp ParticipantRes Answer
abbrev ParticipantPool := Pool ParticipantCall ParticipantOp ParticipantRes ParticipantStore Answer
abbrev ParticipantMove := Move ParticipantCall ParticipantOp ParticipantRes

/-- The call performs so many operations. -/
def performs (answers : (o : ParticipantOp) → ParticipantRes o) (i count : ℕ) :
    List ParticipantMove := List.replicate count (.perform i answers)

def wholeCall (answers : (o : ParticipantOp) → ParticipantRes o) (c : ParticipantCall)
    (i count : ℕ) :
    List ParticipantMove := .start c :: performs answers i count ++ [.leave i false]

end EventLens.Selfies
