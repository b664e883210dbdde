import EventLens.ParticipantService

/-!
Submissions with their gallery tokens. A submission writes the participant's
row, clears the selfies there are and inserts its own, statement by statement.
What belongs to one submission is put on a list as its row is written, and the
row keeps its place there.
-/

namespace EventLens.Submissions

open Programs Selfies

/-- The token of a gallery link, hashed and encrypted. -/
structure GalleryToken where
  hash : String
  enc : String
deriving DecidableEq, Repr

structure TokenUpsert extends ParticipantUpsert where
  galleryToken : GalleryToken
deriving DecidableEq, Repr

/-- `serial` is the place of the submission that wrote the row. -/
structure Guest where
  id : ParticipantId
  eventId : String
  email : String
  name : String
  phone : Option String
  selfieKey : SelfieKey
  galleryToken : GalleryToken
  deleted : Bool := false
  serial : ℕ
deriving DecidableEq, Repr

structure SelfieRow where
  participantId : ParticipantId
  ordinal : ℕ
  storageKey : SelfieKey
deriving DecidableEq, Repr

/-- What one submission writes. -/
structure Made where
  participantId : ParticipantId
  dto : TokenUpsert
  keys : List SelfieKey
deriving DecidableEq, Repr

structure SubmissionStore where
  guests : List Guest := []
  selfies : List SelfieRow := []
  bucket : List SelfieKey := []
  jobs : List ParticipantJob := []
  made : List Made := []
  nextGuest : ParticipantId := 0
  nextUuid : ℕ := 0
deriving DecidableEq, Repr

inductive SubmitOp
  | getActiveEvent (slug : String)
  | consumeIp (clientIp : String)
  | consumeEmail (eventId email : String)
  | generate
  | randomUUID
  | putFile (stagingPath : String) (key : SelfieKey) (mimeType : String)
  | upsert (dto : TokenUpsert) (keys : List SelfieKey)
  | deleteSelfies (id : ParticipantId) (serial : ℕ)
  | insertSelfies (id : ParticipantId) (serial : ℕ) (keys : List SelfieKey)
  | queue (job : ParticipantJob)
deriving DecidableEq, Repr

abbrev SubmitRes : SubmitOp → Type
  | .getActiveEvent _ => Except HttpError (String × String)
  | .consumeIp _ | .consumeEmail _ _ => Bool
  | .generate => GalleryToken
  | .randomUUID => ℕ
  | .putFile _ _ _ | .insertSelfies _ _ _ => Except HttpError Unit
  | .upsert _ _ => Guest
  | .deleteSelfies _ _ | .queue _ => Unit

abbrev SubmitEvent := Event SubmitOp SubmitRes

namespace SubmissionStore

variable (s : SubmissionStore)

def conflicting (dto : TokenUpsert) : Option Guest :=
  s.guests.find? (fun g => g.eventId = dto.eventId ∧ g.email.toLower = dto.email.toLower ∧
    g.deleted = false)

def resubmitted (dto : TokenUpsert) (serial : ℕ) (g : Guest) : Guest :=
  { g with
    name := dto.name
    phone := dto.phone
    selfieKey := dto.selfieKey
    galleryToken := dto.galleryToken
    serial := serial }

def newGuest (dto : TokenUpsert) (id : ParticipantId) (serial : ℕ) : Guest :=
  { id := id
    eventId := dto.eventId
    email := dto.email
    name := dto.name
    phone := dto.phone
    selfieKey := dto.selfieKey
    galleryToken := dto.galleryToken
    serial := serial }

def upsert (dto : TokenUpsert) (keys : List SelfieKey) : Guest × SubmissionStore :=
  match s.conflicting dto with
  | some g =>
    (resubmitted dto s.made.length g,
      { s with
        guests :=
          s.guests.map (fun row => if row.id = g.id then resubmitted dto s.made.length row else row)
        made := s.made ++ [⟨g.id, dto, keys⟩] })
  | none =>
    (newGuest dto s.nextGuest s.made.length,
      { s with
        guests := s.guests ++ [newGuest dto s.nextGuest s.made.length]
        nextGuest := s.nextGuest + 1
        made := s.made ++ [⟨s.nextGuest, dto, keys⟩] })

def deleteSelfies (id : ParticipantId) : SubmissionStore :=
  { s with selfies := s.selfies.filter (fun row => row.participantId ≠ id) }

/-- `keys.map((storageKey, ordinal) => …)`. -/
def selfieRows (id : ParticipantId) (keys : List SelfieKey) : List SelfieRow :=
  keys.zipIdx.map (fun numbered => ⟨id, numbered.2, numbered.1⟩)

/-- `UNIQUE (participant_id, ordinal)`. -/
def free (id : ParticipantId) (count : ℕ) : Bool :=
  s.selfies.all (fun row => row.participantId ≠ id ∨ count ≤ row.ordinal)

def insertSelfies (id : ParticipantId) (keys : List SelfieKey) : SubmissionStore :=
  { s with selfies := s.selfies ++ selfieRows id keys }

def selfiesOf (id : ParticipantId) : List SelfieRow :=
    s.selfies.filter (fun row => row.participantId = id)

end SubmissionStore

def submitHandler : Handler SubmitOp SubmitRes SubmissionStore := fun o r s =>
  match o with
  | .getActiveEvent _ | .consumeIp _ | .consumeEmail _ _ | .generate => (r, s)
  | .randomUUID => (s.nextUuid, { s with nextUuid := s.nextUuid + 1 })
  | .putFile _ key _ =>
    match r with
    | .ok _ => (.ok (), { s with bucket := s.bucket ++ [key] })
    | .error e => (.error e, s)
  | .upsert dto keys => s.upsert dto keys
  | .deleteSelfies id _ => ((), s.deleteSelfies id)
  | .insertSelfies id _ keys =>
    if s.free id keys.length then (.ok (), s.insertSelfies id keys)
    else (.error (.internal "duplicate key value violates unique constraint"), s)
  | .queue job => ((), { s with jobs := s.jobs ++ [job] })

/-! The request. -/

abbrev SubmitAttempt := ExceptT HttpError (Prog SubmitOp SubmitRes)

def callSubmit (o : SubmitOp) : SubmitAttempt (SubmitRes o) :=
    .mk (.perform o fun r => .done (.ok r))

/-- An operation that answers with what it throws. -/
abbrev getActiveEvent (slug : String) : SubmitAttempt (String × String) :=
  .mk (.perform (.getActiveEvent slug) .done)
abbrev putFile (stagingPath : String) (key : SelfieKey) (mimeType : String) : SubmitAttempt Unit :=
  .mk (.perform (.putFile stagingPath key mimeType) .done)
abbrev insertSelfies (id : ParticipantId) (serial : ℕ) (keys : List SelfieKey) :
    SubmitAttempt Unit :=
  .mk (.perform (.insertSelfies id serial keys) .done)

/-- The checks of the photos, in order. -/
def checkStaged : List StagedUpload → Except HttpError Unit
  | [] => .ok ()
  | file :: files =>
    if ¬ file.mimeType.startsWith "image/" then .error (.badRequest "Selfie must be an image")
    else if maxSelfieBytes < file.size then .error (.payloadTooLarge "Selfie exceeds 15 MB")
    else checkStaged files

def validate (staged : List StagedUpload) : Except HttpError Unit :=
  if staged = [] then .error (.badRequest "Missing selfie file")
  else if maxSelfies < staged.length then
    .error (.badRequest s!"Please submit at most {maxSelfies} photos")
  else checkStaged staged

def putFiles : List (StagedUpload × SelfieKey) → SubmitAttempt Unit
  | [] => pure ()
  | (file, key) :: files => do
    putFile file.stagingPath key file.mimeType
    putFiles files

def replaceSelfies (guest : Guest) (keys : List SelfieKey) : SubmitAttempt Unit := do
  callSubmit (.deleteSelfies guest.id guest.serial)
  if keys = [] then pure () else insertSelfies guest.id guest.serial keys

def storeSelfies (dto : Submission) (orgId eventId : String) : SubmitAttempt ParticipantId := do
  let token ← callSubmit .generate
  let uuid ← callSubmit .randomUUID
  let keys := selfieKeys orgId eventId uuid 0 dto.staged
  putFiles (dto.staged.zip keys)
  let guest ← callSubmit (.upsert
    { eventId := eventId
      email := dto.email
      name := dto.name.trimAscii.toString
      phone := trimmed dto.phone
      selfieKey := keys.headD ⟨orgId, eventId, uuid, 0⟩
      galleryToken := token } keys)
  replaceSelfies guest keys
  callSubmit (.queue (.sendSelfieReceived guest.id))
  callSubmit (.queue (.selfieProcess guest.id))
  pure guest.id

def submitSelfie (dto : Submission) : SubmitAttempt ParticipantId :=
  match validate dto.staged with
  | .error e => throw e
  | .ok _ => do
    let event ← getActiveEvent dto.slug
    if ¬ (← callSubmit (.consumeIp dto.clientIp)) then throw (.tooManyRequests "Too many requests")
    else if ¬ (← callSubmit (.consumeEmail event.2 dto.email.toLower)) then
      throw (.tooManyRequests "Too many requests")
    else storeSelfies dto event.1 event.2

def submitServer :
    Server Submission SubmitOp SubmitRes SubmissionStore (Except HttpError ParticipantId) where
  handler := submitHandler
  prog dto := (submitSelfie dto).run
  accept _ s := some s
  release _ _ _ s := some s

abbrev SubmitPool :=
    Pool Submission SubmitOp SubmitRes SubmissionStore (Except HttpError ParticipantId)

abbrev SubmitThread := Thread Submission SubmitOp SubmitRes (Except HttpError ParticipantId)

end EventLens.Submissions
