import EventLens.Rows
import Mathlib.Data.List.Sort
import Mathlib.Data.Rat.Defs
import Mathlib.Algebra.Order.Ring.Unbundled.Rat

/-!
The tables of the participant flow and the statements of the participant
repository on them: participants, their selfies, their matches and the mails
sent to them, beside the bucket, the queued jobs and the work files of a
worker. Ids that the database generates are numbers. A selfie key is kept as the parts of its
  path. Gallery
tokens and the naming of persons are left out.
-/

namespace EventLens.Selfies

abbrev Date := ℤ
abbrev ParticipantId := ℕ
abbrev SelfieId := ℕ
/-- A vector, in the text form of the database. -/
abbrev Embedding := String

/-- `StorageKeys.selfie`. -/
structure SelfieKey where
  orgId : String
  eventId : String
  participantId : ℕ
  index : ℕ
deriving DecidableEq, Repr

inductive ParticipantStatus
  | processing | noFace | pendingMatch | matched
deriving DecidableEq, Repr

structure Participant where
  id : ParticipantId
  eventId : String
  email : String
  name : String
  phone : Option String
  selfieKey : Option SelfieKey
  selfieEmbedding : Option Embedding := none
  status : ParticipantStatus := .processing
  awaitingResultNotice : Bool := false
  notifiedFirstAt : Option Date := none
  lastNotifiedAt : Option Date := none
  deletedAt : Option Date := none
deriving DecidableEq, Repr

structure ParticipantUpsert where
  eventId : String
  email : String
  name : String
  phone : Option String
  selfieKey : SelfieKey
deriving DecidableEq, Repr

structure ParticipantSelfie where
  id : SelfieId
  participantId : ParticipantId
  ordinal : ℕ
  storageKey : SelfieKey
  embedding : Option Embedding := none
deriving DecidableEq, Repr

structure MatchInsert where
  participantId : ParticipantId
  assetId : String
  viaFaceId : String
  distance : ℚ
deriving DecidableEq, Repr

structure MatchRow extends MatchInsert where
  createdAt : Date
deriving DecidableEq, Repr

inductive EmailTemplate
  | galleryReady | galleryUpdate
deriving DecidableEq, Repr

/-- A mail that was sent. The matches it counts are kept themselves; the mail
says how many they are. -/
structure EmailRow where
  participantId : ParticipantId
  template : EmailTemplate
  counted : List MatchRow
deriving DecidableEq, Repr

inductive ParticipantJob
  | sendSelfieReceived (participantId : ParticipantId)
  | selfieProcess (participantId : ParticipantId)
  | sendNoFaceEmail (participantId : ParticipantId)
  | sendGalleryEmail (participantId : ParticipantId)
  | sendDigest (participantId : ParticipantId)
  | cleanupKeys (keys : List SelfieKey)
deriving DecidableEq, Repr

/-- The columns an update of a participant sets. -/
structure ParticipantChange where
  status : Option ParticipantStatus := none
  selfieEmbedding : Option (Option Embedding) := none
  notifiedFirstAt : Option Date := none
  lastNotifiedAt : Option Date := none
  awaitingResultNotice : Option Bool := none
deriving DecidableEq, Repr

def ParticipantChange.apply (dto : ParticipantChange) (p : Participant) : Participant :=
  { p with
    status := dto.status.getD p.status
    selfieEmbedding := dto.selfieEmbedding.getD p.selfieEmbedding
    notifiedFirstAt := dto.notifiedFirstAt.or p.notifiedFirstAt
    lastNotifiedAt := dto.lastNotifiedAt.or p.lastNotifiedAt
    awaitingResultNotice := dto.awaitingResultNotice.getD p.awaitingResultNotice }

/-- A photo on the disk of the worker, under the participant and the ordinal;
no whole photo when its download was cut off. -/
structure WorkFile where
  participantId : ParticipantId
  ordinal : ℕ
  photo : Option SelfieKey
deriving DecidableEq, Repr

/-- The tables, the bucket, the waiting jobs, the participants whose digest is
running or kept as failed, the clock, the ids given out next and the work files.
`submitted` notes every selfie set as it is written. -/
structure ParticipantStore where
  participants : List Participant := []
  selfies : List ParticipantSelfie := []
  matchRows : List MatchRow := []
  emails : List EmailRow := []
  bucket : List SelfieKey := []
  jobs : List ParticipantJob := []
  held : List ParticipantId := []
  submitted : List (ParticipantId × List SelfieKey) := []
  clock : Date := 0
  nextParticipant : ParticipantId := 0
  nextSelfie : SelfieId := 0
  nextUuid : ℕ := 0
  workFiles : List WorkFile := []
deriving DecidableEq, Repr

namespace ParticipantStore

def row (s : ParticipantStore) (id : ParticipantId) : Option Participant :=
  findRow Participant.id id s.participants

def getById (s : ParticipantStore) (id : ParticipantId) : Option Participant :=
  (s.row id).filter (fun p => p.deletedAt = none)

/-- The live row of this address in the event; addresses are compared without
regard to case. -/
def conflicting (s : ParticipantStore) (dto : ParticipantUpsert) : Option Participant :=
  s.participants.find? (fun p => p.eventId = dto.eventId ∧ p.email.toLower = dto.email.toLower ∧
    p.deletedAt = none)

/-- What the upsert sets in a row that is there already. -/
def resubmitted (dto : ParticipantUpsert) (p : Participant) : Participant :=
  { p with
    name := dto.name
    phone := dto.phone
    selfieKey := some dto.selfieKey
    selfieEmbedding := none
    status := .processing
    awaitingResultNotice := false }

def newParticipant (dto : ParticipantUpsert) (id : ParticipantId) : Participant :=
  { id := id
    eventId := dto.eventId
    email := dto.email
    name := dto.name
    phone := dto.phone
    selfieKey := some dto.selfieKey }

def upsert (s : ParticipantStore) (dto : ParticipantUpsert) : Participant × ParticipantStore :=
  match s.conflicting dto with
  | some p =>
    (resubmitted dto p,
      { s with participants := updateRow Participant.id p.id (resubmitted dto) s.participants })
  | none =>
    (newParticipant dto s.nextParticipant,
      { s with
        participants := s.participants ++ [newParticipant dto s.nextParticipant]
        nextParticipant := s.nextParticipant + 1 })

def update (s : ParticipantStore) (id : ParticipantId) (dto : ParticipantChange) :
    ParticipantStore :=
  { s with participants := updateRow Participant.id id dto.apply s.participants }

def deleteSelfies (s : ParticipantStore) (id : ParticipantId) : ParticipantStore :=
  { s with selfies := s.selfies.filter (fun row => row.participantId ≠ id) }

def selfieRows (id : ParticipantId) (next : SelfieId) (ordinal : ℕ) :
    List SelfieKey → List ParticipantSelfie
  | [] => []
  | key :: keys =>
    { id := next, participantId := id, ordinal := ordinal, storageKey := key } ::
      selfieRows id (next + 1) (ordinal + 1) keys

/-- `UNIQUE (participant_id, ordinal)`. -/
def free (s : ParticipantStore) (id : ParticipantId) (count : ℕ) : Bool :=
  s.selfies.all (fun row => row.participantId ≠ id || count ≤ row.ordinal)

def insertSelfies (s : ParticipantStore) (id : ParticipantId) (keys : List SelfieKey) :
    ParticipantStore :=
  { s with
    selfies := s.selfies ++ selfieRows id s.nextSelfie 0 keys
    nextSelfie := s.nextSelfie + keys.length
    submitted := s.submitted ++ [(id, keys)] }

def getSelfies (s : ParticipantStore) (id : ParticipantId) : List ParticipantSelfie :=
  (s.selfies.filter (fun row => row.participantId = id)).insertionSort
    (fun a b => a.ordinal ≤ b.ordinal)

def setSelfieEmbedding (s : ParticipantStore) (id : SelfieId) (embedding : Option Embedding) :
    ParticipantStore :=
  { s with
    selfies := updateRow ParticipantSelfie.id id
      (fun row => { row with embedding := embedding }) s.selfies }

def getMatchableByEvent (s : ParticipantStore) (eventId : String) : List Participant :=
  s.participants.filter (fun p => p.eventId = eventId ∧ p.selfieEmbedding ≠ none ∧
    p.deletedAt = none)

/-- A match that is there already is kept, and nothing is inserted for it. -/
def addMatch (now : Date) (rows : List MatchRow) (m : MatchInsert) : List MatchRow :=
  if rows.any (fun r => r.participantId = m.participantId ∧ r.assetId = m.assetId) then rows
  else rows ++ [{ m with createdAt := now }]

def insertMatches (s : ParticipantStore) (inserts : List MatchInsert) : ParticipantStore :=
  { s with matchRows := inserts.foldl (addMatch s.clock) s.matchRows }

/-- The rows that `countMatches` counts. -/
def matchesSince (s : ParticipantStore) (id : ParticipantId) (since : Option Date) :
    List MatchRow :=
  s.matchRows.filter (fun r => r.participantId = id ∧ since.all (fun t => t < r.createdAt))

def listSelfieKeys (s : ParticipantStore) (ids : List ParticipantId) : List SelfieKey :=
  (s.selfies.filter (fun row => row.participantId ∈ ids)).map (fun row => row.storageKey)

/-- The participant's row goes, and with it its selfies and matches. -/
def deleteParticipant (s : ParticipantStore) (id : ParticipantId) : ParticipantStore :=
  { s with
    participants := s.participants.filter (fun p => p.id ≠ id)
    selfies := s.selfies.filter (fun row => row.participantId ≠ id)
    matchRows := s.matchRows.filter (fun r => r.participantId ≠ id) }

def scrub (s : ParticipantStore) (id : ParticipantId) : ParticipantStore :=
  { s with
    participants := updateRow Participant.id id
      (fun p => { p with selfieEmbedding := none, selfieKey := none, deletedAt := some s.clock })
      s.participants }

/-- A digest is not queued again while the job store has one of its id. -/
def addJob (s : ParticipantStore) (job : ParticipantJob) : ParticipantStore :=
  match job with
  | .sendDigest id =>
    if job ∈ s.jobs ∨ id ∈ s.held then s else { s with jobs := s.jobs ++ [job] }
  | _ => { s with jobs := s.jobs ++ [job] }

theorem addJob_jobs (s : ParticipantStore) (job : ParticipantJob) :
    ∃ jobs, s.addJob job = { s with jobs := jobs } ∧
      (∀ j ∈ s.jobs, j ∈ jobs) ∧ ∀ j ∈ jobs, j ∈ s.jobs ∨ j = job := by
  have hadd : ∀ j ∈ s.jobs ++ [job], j ∈ s.jobs ∨ j = job := by
    intro j hj
    simpa using hj
  have hkeep : ∀ j ∈ s.jobs, j ∈ s.jobs ++ [job] := fun j hj => List.mem_append_left _ hj
  cases job with
  | sendDigest id =>
    by_cases hheld : .sendDigest id ∈ s.jobs ∨ id ∈ s.held
    · exact ⟨s.jobs, if_pos hheld, fun _ hj => hj, fun _ hj => .inl hj⟩
    · refine ⟨s.jobs ++ [ParticipantJob.sendDigest id], ?_, hkeep, hadd⟩
      rw [addJob, if_neg hheld]
  | _ => exact ⟨_, rfl, hkeep, hadd⟩

def deleteKeys (s : ParticipantStore) (keys : List SelfieKey) : ParticipantStore :=
  { s with bucket := s.bucket.filter (fun key => key ∉ keys) }

/-- The file at the path of this participant and ordinal. -/
def workFile (s : ParticipantStore) (id : ParticipantId) (ordinal : ℕ) : Option WorkFile :=
  s.workFiles.find? (fun f => f.participantId = id ∧ f.ordinal = ordinal)

/-- What was at the path is written over. -/
def writeWorkFile (s : ParticipantStore) (id : ParticipantId) (ordinal : ℕ)
    (photo : Option SelfieKey) : ParticipantStore :=
  { s with
    workFiles := ⟨id, ordinal, photo⟩ ::
      s.workFiles.filter (fun f => ¬ (f.participantId = id ∧ f.ordinal = ordinal)) }

/-- The folder of the participant goes, with the files of every job, except
what could not be removed. -/
def removeWorkDir (s : ParticipantStore) (id : ParticipantId) (left : List ℕ) : ParticipantStore :=
  { s with workFiles := s.workFiles.filter (fun f => f.participantId ≠ id ∨ f.ordinal ∈ left) }

/-- The clock never goes back. -/
def tick (s : ParticipantStore) (now : Date) : ParticipantStore :=
  { s with clock := max s.clock now }

theorem upsert_rest (s : ParticipantStore) (up : ParticipantUpsert) : (s.upsert up).2 =
    { s with
      participants := (s.upsert up).2.participants
      nextParticipant := (s.upsert up).2.nextParticipant } := by
  rw [upsert]
  split <;> rfl

/-- The row of a submission: the live one of its address, or a new one. -/
theorem upsert_cases (s : ParticipantStore) (up : ParticipantUpsert) :
    (∃ p ∈ s.participants, p.deletedAt = none ∧ (s.upsert up).1 = resubmitted up p ∧
      (s.upsert up).2.participants =
        updateRow Participant.id p.id (resubmitted up) s.participants ∧
      (s.upsert up).2.nextParticipant = s.nextParticipant) ∨
    ((s.upsert up).1 = newParticipant up s.nextParticipant ∧
      (s.upsert up).2.participants = s.participants ++ [newParticipant up s.nextParticipant] ∧
      (s.upsert up).2.nextParticipant = s.nextParticipant + 1) := by
  rw [upsert]
  split
  · rename_i p hp
    have hlive := List.find?_some hp
    simp only [decide_eq_true_eq] at hlive
    exact .inl ⟨p, List.mem_of_find?_eq_some hp, hlive.2.2, rfl, rfl, rfl⟩
  · exact .inr ⟨rfl, rfl, rfl⟩

theorem ids_upsert (s : ParticipantStore) (up : ParticipantUpsert)
    (hids : (s.participants.map Participant.id).Nodup)
    (hbelow : ∀ p ∈ s.participants, p.id < s.nextParticipant) :
    ((s.upsert up).2.participants.map Participant.id).Nodup ∧
      ∀ p ∈ (s.upsert up).2.participants, p.id < (s.upsert up).2.nextParticipant := by
  rcases upsert_cases s up with ⟨p, hp, -, -, hpeople, hnext⟩ | ⟨-, hpeople, hnext⟩
  · rw [hpeople, hnext, map_updateRow (f := resubmitted up) fun _ => rfl]
    refine ⟨hids, fun q hq => ?_⟩
    rcases mem_updateRow.mp hq with ⟨before, hbefore, -, rfl⟩ | ⟨hq, -⟩
    · exact hbelow before hbefore
    · exact hbelow q hq
  · rw [hpeople, hnext, List.map_append]
    refine ⟨hids.append (List.nodup_singleton _) fun k hold hnew => ?_, fun q hq => ?_⟩
    · obtain ⟨q, hq, rfl⟩ := List.mem_map.mp hold
      exact absurd (List.mem_singleton.mp hnew) (Nat.ne_of_lt (hbelow q hq))
    · rcases List.mem_append.mp hq with hq | hq
      · exact Nat.lt_succ_of_lt (hbelow q hq)
      · rw [List.mem_singleton.mp hq]
        exact Nat.lt_succ_self _

theorem mem_selfieRows {id : ParticipantId} {next : SelfieId} {ordinal : ℕ} {keys : List SelfieKey}
    {row : ParticipantSelfie} (h : row ∈ selfieRows id next ordinal keys) :
    row.participantId = id ∧ row.storageKey ∈ keys ∧ row.embedding = none ∧ next ≤ row.id ∧
      row.id < next + keys.length := by
  induction keys generalizing next ordinal with
  | nil => cases h
  | cons key keys ih =>
    rcases List.mem_cons.mp h with rfl | h
    · exact ⟨rfl, List.mem_cons_self .., rfl, le_rfl, Nat.lt_add_of_pos_right (Nat.succ_pos _)⟩
    · obtain ⟨hown, hkey, hnone, hlow, hhigh⟩ := ih h
      refine ⟨hown, List.mem_cons_of_mem _ hkey, hnone, Nat.le_of_succ_le hlow, ?_⟩
      rw [List.length_cons]
      exact hhigh.trans_eq (Nat.add_right_comm next 1 keys.length)

theorem nodup_selfieRows (id : ParticipantId) (next : SelfieId) (ordinal : ℕ)
    (keys : List SelfieKey) :
    ((selfieRows id next ordinal keys).map ParticipantSelfie.id).Nodup := by
  induction keys generalizing next ordinal with
  | nil => exact List.nodup_nil
  | cons key keys ih =>
    refine List.nodup_cons.mpr ⟨fun hmem => ?_, ih (next + 1) (ordinal + 1)⟩
    obtain ⟨row, hrow, hid⟩ := List.mem_map.mp hmem
    obtain ⟨-, -, -, hlow, -⟩ := mem_selfieRows hrow
    exact absurd (hlow.trans_eq hid) (Nat.not_succ_le_self next)

end ParticipantStore

end EventLens.Selfies
