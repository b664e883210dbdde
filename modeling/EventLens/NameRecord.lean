import EventLens.LastWrite
import Mathlib.Data.List.Basic

/-!
Names of persons. An organiser renames a person; a guest gives a name with a
selfie, and the photos it matches are claims on the persons their faces belong
to. Matching and clustering run as jobs in any order, so a name is offered to
a person from both sides. What a search finds among the faces is a parameter.
Some columns only keep count of which submission a row stands for.
-/

namespace EventLens.Names

open LastWrite

inductive NameSource
  | organiser | participant
deriving DecidableEq, Repr

structure Person where
  id : ℕ
  eventId : ℕ
  name : String := ""
  nameSetAt : Option ℕ := none
  nameSource : Option NameSource := none
deriving DecidableEq, Repr

/-- A detected face, with the event of its photo. -/
structure AssetFace where
  id : ℕ
  assetId : ℕ
  eventId : ℕ
  personId : Option ℕ := none
deriving DecidableEq, Repr

/-- `embedded` says that a primary embedding is there; `submittedAt` is when
the guest last sent the form. -/
structure Participant where
  id : ℕ
  eventId : ℕ
  email : String
  name : String
  selfies : List String
  embedded : Bool := false
  deleted : Bool := false
  submittedAt : ℕ := 0
deriving DecidableEq, Repr

/-- A matched photo, with the name and time of the submission it was matched for. -/
structure ParticipantMatch where
  participantId : ℕ
  assetId : ℕ
  viaFaceId : ℕ
  createdAt : ℕ
  givenName : String
  submittedAt : ℕ
deriving DecidableEq, Repr

inductive HumanAct
  | rename (eventId personId : ℕ) (name : String) (time : ℕ)
  | submission (participantId eventId : ℕ) (name : String) (selfies : List String) (time : ℕ)
deriving DecidableEq, Repr

/-- The tables, the clock, the queued `SelfieProcess` jobs, and what the humans
did, in order. -/
structure NameStore where
  persons : List Person := []
  faces : List AssetFace := []
  participants : List Participant := []
  matchRows : List ParticipantMatch := []
  clock : ℕ := 0
  nextPerson : ℕ := 0
  nextParticipant : ℕ := 0
  jobs : List ℕ := []
  acts : List HumanAct := []
deriving DecidableEq, Repr

/-- What a person's name is and when it was set. -/
def Person.cell (p : Person) : Option (String × ℕ) := p.nameSetAt.map (fun time => (p.name, time))

/-- The row update of a claim, if there is one and it is newer. -/
def Person.offered (best : Option (String × ℕ)) (p : Person) : Person :=
  match best with
  | none => p
  | some (name, time) =>
    if p.nameSetAt.all (fun setAt => setAt < time) then
      { p with name := name, nameSetAt := some time, nameSource := some .participant }
    else p

def Person.renamed (name : String) (now : ℕ) (p : Person) : Person :=
  { p with name := name, nameSetAt := some now, nameSource := some .organiser }

theorem cell_offered (best : Option (String × ℕ)) (p : Person) :
    (p.offered best).cell = offer best p.cell := by
  cases best with
  | none => rfl
  | some a =>
    obtain ⟨name, time⟩ := a
    have hnewer : newer p.cell (name, time) = p.nameSetAt.all (fun setAt => setAt < time) := by
      rw [newer, Person.cell]
      cases p.nameSetAt <;> rfl
    rw [offer, hnewer, Person.offered]
    split <;> rfl

theorem offered_key (best : Option (String × ℕ)) (p : Person) :
    (p.offered best).id = p.id ∧ (p.offered best).eventId = p.eventId := by
  cases best with
  | none => exact ⟨rfl, rfl⟩
  | some a =>
    rw [Person.offered]
    split <;> exact ⟨rfl, rfl⟩

namespace NameStore

variable (s : NameStore)

/-- The matched photos of named guests whose face belongs to the person: the
name and when the match was recorded. -/
def claimsOn (personId : ℕ) : List (String × ℕ) :=
  (s.faces.filter (fun f => f.personId = some personId)).flatMap fun f =>
    (s.matchRows.filter (fun m => m.viaFaceId = f.id)).flatMap fun m =>
      (s.participants.filter (fun p => p.id = m.participantId ∧ p.deleted = false ∧
        p.name ≠ "")).map
        fun p => (p.name, m.createdAt)

/-- Newest first; of one time, the first by name. -/
def latestClaim (personId : ℕ) : Option (String × ℕ) :=
  newest (fun name other : String => name < other) (s.claimsOn personId)

def nameFromParticipants (eventId personId : ℕ) : NameStore :=
  { s with
    persons := s.persons.map fun p =>
      if p.id = personId ∧ p.eventId = eventId then p.offered (s.latestClaim personId) else p }

def rename (eventId personId : ℕ) (name : String) (now : ℕ) : NameStore :=
  { s with
    persons :=
      s.persons.map (fun p => if p.id = personId ∧
      p.eventId = eventId then p.renamed name now else p)
    acts := s.acts ++ [.rename eventId personId name now] }

/-- `PersonService.update` with a name. -/
def update (eventId personId : ℕ) (name : String) (now : ℕ) : Except String NameStore :=
  if s.persons.any (fun p => p.id = personId ∧ p.eventId = eventId) then
    .ok (s.rename eventId personId name now)
  else .error "Person not found"

/-- The persons that a set of faces belong to. -/
def getPersonsForFaces (faceIds : List ℕ) : List Person :=
  s.persons.filter (fun p => s.faces.any (fun f => f.id ∈ faceIds ∧ f.personId = some p.id))

def getClaimedPersonIds : List (ℕ × ℕ) :=
  (s.persons.filter (fun p => s.claimsOn p.id ≠ [])).map (fun p => (p.eventId, p.id))

/-- One person after the other is offered its latest claim. -/
def nameAll (clusters : List (ℕ × ℕ)) : NameStore :=
  clusters.foldl (fun s cluster => s.nameFromParticipants cluster.1 cluster.2) s

def handlePersonNameBackfill : NameStore := s.nameAll s.getClaimedPersonIds

def nameMatchedPerson (participant : Participant) (faceIds : List ℕ) : NameStore :=
  if participant.name = "" ∨ faceIds = [] then s
  else s.nameAll ((s.getPersonsForFaces faceIds).map (fun p => (participant.eventId, p.id)))

def getById (participantId : ℕ) : Option Participant :=
  s.participants.find? (fun p => p.id = participantId ∧ p.deleted = false)

def faceIn (eventId faceId : ℕ) : Option AssetFace :=
  s.faces.find? (fun f => f.id = faceId ∧ f.eventId = eventId)

/-- A photo that the participant already has is left as it is. -/
def insertMatch (rows : List ParticipantMatch) (m : ParticipantMatch) : List ParticipantMatch :=
  if rows.any (fun row => row.participantId = m.participantId ∧ row.assetId = m.assetId) then rows
  else rows ++ [m]

def insertMatches (inserts : List ParticipantMatch) : NameStore :=
  { s with matchRows := inserts.foldl insertMatch s.matchRows }

def createPerson (eventId : ℕ) : NameStore :=
  { s with
    nextPerson := s.nextPerson + 1
    persons := s.persons ++ [{ id := s.nextPerson, eventId := eventId }] }

def reassignFaces (faceId personId : ℕ) : NameStore :=
  { s with faces :=
    s.faces.map (fun f => if f.id = faceId then { f with personId := some personId } else f) }

def setEmbedded (participantId : ℕ) : NameStore :=
  { s with
    participants :=
      s.participants.map (fun p => if p.id = participantId then { p with embedded :=
      true } else p) }

/-- Some time later. -/
def tick (later : ℕ) : NameStore := { s with clock := max (s.clock + 1) later }

/-- The form of a guest: a new row, or a fresh start of the one there is. -/
def submitSelfie (eventId : ℕ) (email name : String) (selfies : List String) : NameStore :=
  match s.participants.find? (fun p =>
    p.eventId = eventId ∧ p.email.toLower = email.toLower ∧ p.deleted = false) with
  | some row =>
    { s with
      participants := s.participants.map (fun p =>
        if p.id = row.id then
          { p with name := name, selfies := selfies, embedded := false, submittedAt := s.clock }
        else p)
      jobs := s.jobs ++ [row.id]
      acts := s.acts ++ [.submission row.id eventId name selfies s.clock] }
  | none =>
    { s with
      participants := s.participants ++
        [{ id := s.nextParticipant
           eventId := eventId
           email := email
           name := name
           selfies := selfies
           submittedAt := s.clock }]
      nextParticipant := s.nextParticipant + 1
      jobs := s.jobs ++ [s.nextParticipant]
      acts := s.acts ++ [.submission s.nextParticipant eventId name selfies s.clock] }

/-- The face joins the person of a face found near it, or a new person if it
has neighbours enough, and the person is offered its latest claim. -/
def handleRecognizeFaces (faceId : ℕ) (found : Option ℕ) (isCore : Bool) : NameStore :=
  match s.faces.find? (fun f => f.id = faceId) with
  | none => s
  | some face =>
    if face.personId.isSome then s
    else
      match found.bind (fun id => (s.faceIn face.eventId id).bind AssetFace.personId) with
      | some personId =>
        (s.reassignFaces faceId personId).nameFromParticipants face.eventId personId
      | none =>
        if isCore then
          ((s.createPerson face.eventId).reassignFaces faceId s.nextPerson).nameFromParticipants
            face.eventId
            s.nextPerson
        else s

section Matching

variable (usable : String → Bool) (search : String → List ℕ)

/-- One search for each selfie that shows a face. -/
def hitIds (selfies : List String) : List ℕ := (selfies.filter usable).flatMap search

/-- The faces of the event near one of the selfies. -/
def hits (participant : Participant) : List AssetFace :=
  (hitIds usable search participant.selfies).filterMap (s.faceIn participant.eventId)

def matchOf (participant : Participant) (now : ℕ) (face : AssetFace) : ParticipantMatch :=
  { participantId := participant.id
    assetId := face.assetId
    viaFaceId := face.id
    createdAt := now
    givenName := participant.name
    submittedAt := participant.submittedAt }

def matchParticipant (participant : Participant) : NameStore :=
  if participant.embedded then
    let found := s.hits usable search participant
    (s.insertMatches (found.map (matchOf participant s.clock))).nameMatchedPerson participant
      (found.map AssetFace.id)
  else s

/-- The job is done with, whatever it finds. -/
def handleSelfieProcess (participantId : ℕ) : NameStore :=
  let s := { s with jobs := s.jobs.erase participantId }
  match s.getById participantId with
  | none => s
  | some participant =>
    if participant.selfies.filter usable = [] then s
    else (s.setEmbedded participantId).matchParticipant usable search { participant with embedded :=
      true }

/-- One turn of the loop of a rematch or of the sweep. -/
def rematch (participantId : ℕ) : NameStore :=
  match s.getById participantId with
  | none => s
  | some participant => s.matchParticipant usable search participant

end Matching

end NameStore

inductive NameStep
  | rename (eventId personId : ℕ) (name : String)
  | submit (eventId : ℕ) (email name : String) (selfies : List String)
  | selfieProcess (participantId : ℕ)
  | rematch (participantId : ℕ)
  | recognize (faceId : ℕ) (found : Option ℕ) (isCore : Bool)
  | backfill
deriving DecidableEq, Repr

def NameStep.submits : NameStep → Bool
  | .submit _ _ _ _ => true
  | _ => false

namespace NameStore

variable (usable : String → Bool) (search : String → List ℕ)

def perform (s : NameStore) : NameStep → NameStore
  | .rename eventId personId name =>
    match s.update eventId personId name s.clock with
    | .ok s' => s'
    | .error _ => s
  | .submit eventId email name selfies => s.submitSelfie eventId email name selfies
  | .selfieProcess participantId => s.handleSelfieProcess usable search participantId
  | .rematch participantId => s.rematch usable search participantId
  | .recognize faceId found isCore => s.handleRecognizeFaces faceId found isCore
  | .backfill => s.handlePersonNameBackfill

/-- A step, some time after the one before it. -/
def step (s : NameStore) (m : ℕ × NameStep) : NameStore := (s.tick m.1).perform usable search m.2

def runSteps (s : NameStore) (moves : List (ℕ × NameStep)) : NameStore :=
    moves.foldl (step usable search) s

end NameStore

end EventLens.Names
