import EventLens.AuthRecord
import EventLens.Pools

/-!
Passwords, sessions and reset links: what logging in, changing a password and
resetting it read and write, statement by statement. The bcrypt comparison and
the hash of tokens are parameters; what is random is given by the environment.
Some columns only keep count: how often a password was set, which count a
session's password had, and how many links there were.
-/

namespace EventLens.Auth

open Programs

/-- A user with their password; `revision` counts how often it was set. -/
structure Account extends User where
  name : String := ""
  password : String
  revision : ℕ := 0
deriving DecidableEq, Repr

/-- A session with the revision of the password that opened it. -/
structure LoginSession extends Session where
  verified : ℕ := 0
deriving DecidableEq, Repr

structure ResetToken where
  userId : String
  token : Digest
  expiresAt : ℕ
  usedAt : Option ℕ := none
  createdBy : Option String := none
deriving DecidableEq, Repr

/-- The sessions of the user were dropped by whoever set this revision. -/
structure Eviction where
  userId : String
  revision : ℕ
  kept : Option String
deriving DecidableEq, Repr

/-- The links of the user were voided, when there were so many in all. -/
structure Voiding where
  userId : String
  issued : ℕ
deriving DecidableEq, Repr

structure PasswordChange where
  eviction : Eviction
  voiding : Option Voiding := none
deriving DecidableEq, Repr

/-- The tables, the clock, and the record of what was done. -/
structure PasswordStore where
  accounts : List Account := []
  members : List OrganizationUser := []
  sessions : List LoginSession := []
  tokens : List ResetToken := []
  nextSession : ℕ := 0
  clock : ℕ := 0
  evictions : List Eviction := []
  voidings : List Voiding := []
  redeemed : List Digest := []
  changed : List PasswordChange := []
deriving DecidableEq, Repr

inductive PasswordError
  | unauthorized (text : String)
  | badRequest (text : String)
  | notFound (text : String)
  | noResult
  | tokenConstraint
  | email
deriving DecidableEq, Repr

inductive PasswordOp
  | now
  | getByEmail (email : String)
  | getById (id : String)
  | getMembership (orgId userId : String)
  | hashBcrypt (password : String)
  | randomBytesAsText (bytes : ℕ)
  | updatePassword (id password : String)
  | createSession (userId : String) (token : Digest) (expiresAt verified : ℕ)
  | deleteForUser (eviction : Eviction)
  | redeem (tokenHash : Digest) (now : ℕ)
  | invalidateForUser (userId : String) (now : ℕ)
  | createToken (row : ResetToken)
  | sendEmail (address name token : String)
deriving DecidableEq, Repr

/-- An update answers with the row, a creation of a link with whether it was
unique, and an email with whether it was sent. -/
abbrev PasswordRes : PasswordOp → Type
  | .now | .invalidateForUser _ _ => ℕ
  | .getByEmail _ | .getById _ | .updatePassword _ _ => Option Account
  | .getMembership _ _ => Option OrganizationUser
  | .hashBcrypt _ | .randomBytesAsText _ => String
  | .redeem _ _ => Option ResetToken
  | .createToken _ | .sendEmail _ _ _ => Bool
  | .createSession _ _ _ _ | .deleteForUser _ => Unit

abbrev PasswordEvent := Event PasswordOp PasswordRes

namespace PasswordStore

variable (s : PasswordStore)

def getByEmail (email : String) : Option Account :=
  s.accounts.find? (fun a => a.email.toLower = email.toLower ∧ a.deleted = false)

def getById (id : String) : Option Account :=
  s.accounts.find? (fun a => a.id = id ∧ a.deleted = false)

def getMembership (orgId userId : String) : Option OrganizationUser :=
  s.members.find? (fun m => m.orgId = orgId ∧ m.userId = userId)

def withPassword (id password : String) (a : Account) : Account :=
  if a.id = id then { a with password := password, revision := a.revision + 1 } else a

def updatePassword (id password : String) : Option Account × PasswordStore :=
  let accounts := s.accounts.map (withPassword id password)
  (accounts.find? (fun a => a.id = id), { s with accounts := accounts })

def createSession (userId : String) (token : Digest) (expiresAt verified : ℕ) : PasswordStore :=
  { s with
    nextSession := s.nextSession + 1
    sessions := s.sessions ++
      [{ id := toString s.nextSession
         userId := userId
         token := token
         expiresAt := some expiresAt
         verified := verified }] }

/-- Every session of the user except the one to keep. -/
def deleteForUser (e : Eviction) : PasswordStore :=
  { s with
    sessions :=
      s.sessions.filter (fun session => session.userId ≠ e.userId ∨ some session.id = e.kept)
    evictions := s.evictions ++ [e] }

def redeemable (tokenHash : Digest) (now : ℕ) (row : ResetToken) : Bool :=
  row.token = tokenHash ∧ row.usedAt = none ∧ now < row.expiresAt

/-- A conditional update. -/
def redeem (tokenHash : Digest) (now : ℕ) : Option ResetToken × PasswordStore :=
  match s.tokens.find? (redeemable tokenHash now) with
  | none => (none, s)
  | some row =>
    (some { row with usedAt := some now },
      { s with
        tokens := s.tokens.map (fun t => if redeemable tokenHash now t
          then { t with usedAt := some now } else t)
        redeemed := s.redeemed ++ [tokenHash] })

def invalidateForUser (userId : String) (now : ℕ) : PasswordStore :=
  { s with
    tokens := s.tokens.map (fun t =>
      if t.userId = userId ∧ t.usedAt = none then { t with usedAt := some now } else t)
    voidings := s.voidings ++ [⟨userId, s.tokens.length⟩] }

def createToken (row : ResetToken) : Bool × PasswordStore :=
  if s.tokens.any (fun t => t.token = row.token) then (false, s)
  else (true, { s with tokens := s.tokens ++ [row] })

end PasswordStore

def passwordHandler : Handler PasswordOp PasswordRes PasswordStore := fun o r s =>
  match o with
  | .now => (max s.clock r, { s with clock := max s.clock r })
  | .getByEmail email => (s.getByEmail email, s)
  | .getById id => (s.getById id, s)
  | .getMembership orgId userId => (s.getMembership orgId userId, s)
  | .hashBcrypt _ | .randomBytesAsText _ => (r, s)
  | .updatePassword id password => s.updatePassword id password
  | .createSession userId token expiresAt verified => ((),
    s.createSession userId token expiresAt verified)
  | .deleteForUser e => ((), s.deleteForUser e)
  | .redeem tokenHash now => s.redeem tokenHash now
  | .invalidateForUser userId now => (s.tokens.length, s.invalidateForUser userId now)
  | .createToken row => s.createToken row
  | .sendEmail _ _ _ => (r, s)

/-! The services. -/

abbrev PasswordAttempt := ExceptT PasswordError (Prog PasswordOp PasswordRes)

def callPassword (o : PasswordOp) : PasswordAttempt (PasswordRes o) :=
    .mk (.perform o fun r => .done (.ok r))

def PASSWORD_RESET_TTL_MS : ℕ := 24 * 60 * 60 * 1000

structure LoginDto where
  email : String
  password : String
deriving DecidableEq, Repr

/-- The request's user and session, and the two passwords typed. -/
structure ChangePasswordDto where
  userId : String
  sessionId : Option String
  password : String
  newPassword : String
deriving DecidableEq, Repr

structure ResetPasswordDto where
  token : String
  newPassword : String
deriving DecidableEq, Repr

section Services

variable (compareBcrypt : String → String → Bool) (hashSha256 : String → Digest)
  (sessionTtlDays : ℕ)

/-- The session of a login, for the password as it was read. -/
def createSession (user : Account) : PasswordAttempt String := do
  let token ← callPassword (.randomBytesAsText 32)
  let now ← callPassword .now
  callPassword (.createSession user.id (hashSha256 token)
    (now + sessionTtlDays * 24 * 60 * 60 * 1000)
    user.revision)
  pure token

def login (dto : LoginDto) : PasswordAttempt String := do
  match ← callPassword (.getByEmail dto.email) with
  | none => throw (.unauthorized "Incorrect email or password")
  | some user =>
    if compareBcrypt dto.password user.password then createSession hashSha256 sessionTtlDays user
    else throw (.unauthorized "Incorrect email or password")

/-- `userRepository.update` of the password; there is a row, or it throws. -/
def setPassword (id password : String) : PasswordAttempt Account := do
  let hash ← callPassword (.hashBcrypt password)
  match ← callPassword (.updatePassword id hash) with
  | some row => pure row
  | none => throw .noResult

def changePassword (dto : ChangePasswordDto) : PasswordAttempt PasswordChange := do
  match ← callPassword (.getById dto.userId) with
  | none => throw (.badRequest "Wrong password")
  | some user =>
    if compareBcrypt dto.password user.password then
      let row ← setPassword user.id dto.newPassword
      let now ← callPassword .now
      let issued ← callPassword (.invalidateForUser user.id now)
      let eviction : Eviction := ⟨user.id, row.revision, dto.sessionId⟩
      callPassword (.deleteForUser eviction)
      pure ⟨eviction, some ⟨user.id, issued⟩⟩
    else throw (.badRequest "Wrong password")

def resetPassword (dto : ResetPasswordDto) : PasswordAttempt PasswordChange := do
  let now ← callPassword .now
  match ← callPassword (.redeem (hashSha256 dto.token) now) with
  | none => throw (.badRequest "This reset link is no longer valid. Please request a new one.")
  | some token =>
    match ← callPassword (.getById token.userId) with
    | none => throw (.badRequest "This reset link is no longer valid. Please request a new one.")
    | some user =>
      let row ← setPassword user.id dto.newPassword
      let eviction : Eviction := ⟨user.id, row.revision, none⟩
      callPassword (.deleteForUser eviction)
      pure ⟨eviction, none⟩

def resetMemberPassword (orgId userId actorId : String) : PasswordAttempt PasswordChange := do
  match ← callPassword (.getMembership orgId userId) with
  | none => throw (.notFound "Member not found")
  | some _ =>
    match ← callPassword (.getById userId) with
    | none => throw (.notFound "Member not found")
    | some user =>
      let random ← callPassword (.randomBytesAsText 32)
      let row ← setPassword user.id random
      let eviction : Eviction := ⟨user.id, row.revision, none⟩
      callPassword (.deleteForUser eviction)
      let voidedAt ← callPassword .now
      let issued ← callPassword (.invalidateForUser user.id voidedAt)
      let token ← callPassword (.randomBytesAsText 32)
      let now ← callPassword .now
      let link : ResetToken :=
        { userId := user.id
          token := hashSha256 token
          expiresAt := now + PASSWORD_RESET_TTL_MS
          createdBy := some actorId }
      if ← callPassword (.createToken link) then
        if ← callPassword (.sendEmail user.email user.name token) then
          pure ⟨eviction, some ⟨user.id, issued⟩⟩
        else throw .email
      else throw .tokenConstraint

inductive PasswordCall
  | login (dto : LoginDto)
  | changePassword (dto : ChangePasswordDto)
  | resetPassword (dto : ResetPasswordDto)
  | resetMemberPassword (orgId userId actorId : String)
deriving DecidableEq, Repr

abbrev PasswordAnswer := String ⊕ PasswordChange

def PasswordCall.prog :
    PasswordCall → Prog PasswordOp PasswordRes (Except PasswordError PasswordAnswer)
  | .login dto => (Sum.inl <$> Auth.login compareBcrypt hashSha256 sessionTtlDays dto).run
  | .changePassword dto => (Sum.inr <$> Auth.changePassword compareBcrypt dto).run
  | .resetPassword dto => (Sum.inr <$> Auth.resetPassword hashSha256 dto).run
  | .resetMemberPassword orgId userId actorId =>
    (Sum.inr <$> Auth.resetMemberPassword hashSha256 orgId userId actorId).run

/-- A change of password comes with a session of the user. -/
def PasswordCall.admitted (s : PasswordStore) : PasswordCall → Bool
  | .changePassword dto =>
    dto.sessionId.all
      (fun id => s.sessions.any (fun session => session.id = id ∧ session.userId = dto.userId))
  | _ => true

def passwordServer :
    Server PasswordCall PasswordOp PasswordRes PasswordStore
    (Except PasswordError PasswordAnswer) where
  handler := passwordHandler
  prog := PasswordCall.prog compareBcrypt hashSha256 sessionTtlDays
  accept c s := if c.admitted s then some s else none
  release
    | _, .ok (.inr change), _, s => some { s with changed := s.changed ++ [change] }
    | _, _, _, s => some s

end Services

abbrev PasswordPool :=
  Pool PasswordCall PasswordOp PasswordRes PasswordStore (Except PasswordError PasswordAnswer)

abbrev PasswordThread :=
    Thread PasswordCall PasswordOp PasswordRes (Except PasswordError PasswordAnswer)

/-! What a call has dropped and voided so far. -/

abbrev Record := Option Eviction × Option Voiding

def Record.note : Record → PasswordEvent → Record
  | (_, v), ⟨.deleteForUser e, _⟩ => (some e, v)
  | (e, _), ⟨.invalidateForUser userId _, issued⟩ => (e, some ⟨userId, issued⟩)
  | g, _ => g

/-- A link is issued by a call that has voided the links of its user. -/
def Record.Issues : Record → PasswordOp → Prop
  | g, .createToken row => ∃ v, g.2 = some v ∧ v.userId = row.userId
  | _, _ => True

def recording : Contract PasswordOp PasswordRes Record where
  note := Record.note
  expects _ _ := True
  permits := Record.Issues

/-- Who returns a change has dropped the sessions, and voided the links it says. -/
def Did (r : Except PasswordError PasswordChange) (g : Record) : Prop :=
  ∀ change, r = .ok change → g.1 = some change.eviction ∧ ∀ v, change.voiding = some v →
    g.2 = some v

def Done (r : Except PasswordError PasswordAnswer) (g : Record) : Prop :=
  ∀ change, r = .ok (.inr change) → g.1 = some change.eviction ∧ ∀ v, change.voiding = some v →
    g.2 = some v

section Follows

open Contract

variable {α : Type} {Q : Except PasswordError α → Record → Prop} {g : Record}

theorem follows_recording {o : PasswordOp} {f : PasswordRes o → PasswordAttempt α}
    (ho : g.Issues o) (h : ∀ r, recording.Follows (f r).run Q (g.note ⟨o, r⟩)) :
    recording.Follows (callPassword o >>= f).run Q g :=
  ⟨ho, fun r _ => h r⟩

theorem follows_setPassword {id password : String} {f : Account → PasswordAttempt α}
    (herror : ∀ e, Q (.error e) g) (h : ∀ row, recording.Follows (f row).run Q g) :
    recording.Follows (setPassword id password >>= f).run Q g := by
  rw [setPassword, bind_assoc]
  refine follows_recording trivial fun hash => ?_
  rw [bind_assoc]
  refine follows_recording trivial fun row => ?_
  cases row with
  | none => exact herror _
  | some row => exact h row

theorem did_error (e : PasswordError) (g : Record) : Did (.error e) g := by
  intro change h
  cases h

theorem did_ok {change : PasswordChange} {g : Record} (he : g.1 = some change.eviction)
    (hv : ∀ v, change.voiding = some v → g.2 = some v) : Did (.ok change) g := by
  intro change' h
  cases h
  exact ⟨he, hv⟩

variable {compareBcrypt : String → String → Bool} {hashSha256 : String → Digest}
  {sessionTtlDays : ℕ}

theorem changePassword_follows (dto : ChangePasswordDto) :
    recording.Follows (changePassword compareBcrypt dto).run Did (none, none) := by
  refine follows_recording trivial fun found => ?_
  cases found with
  | none => exact did_error _ _
  | some user =>
    simp only
    split
    · refine follows_setPassword (did_error · _) fun row => ?_
      refine follows_recording trivial fun now => follows_recording trivial fun issued => ?_
      refine follows_recording trivial fun _ => ?_
      exact did_ok rfl fun v hv => hv
    · exact did_error _ _

theorem resetPassword_follows (dto : ResetPasswordDto) :
    recording.Follows (resetPassword hashSha256 dto).run Did (none, none) := by
  refine follows_recording trivial fun now => follows_recording trivial fun token => ?_
  cases token with
  | none => exact did_error _ _
  | some token =>
    refine follows_recording trivial fun found => ?_
    cases found with
    | none => exact did_error _ _
    | some user =>
      refine follows_setPassword (did_error · _) fun row => follows_recording trivial fun _ => ?_
      exact did_ok rfl fun v hv => by cases hv

theorem resetMemberPassword_follows (orgId userId actorId : String) :
    recording.Follows (resetMemberPassword hashSha256 orgId userId actorId).run Did (none,
    none) := by
  refine follows_recording trivial fun membership => ?_
  cases membership with
  | none => exact did_error _ _
  | some membership =>
    refine follows_recording trivial fun found => ?_
    cases found with
    | none => exact did_error _ _
    | some user =>
      refine follows_recording trivial fun random =>
        follows_setPassword (did_error · _) fun row => ?_
      refine follows_recording trivial fun _ => follows_recording trivial fun voidedAt => ?_
      refine follows_recording trivial fun issued => ?_
      refine follows_recording trivial fun token => follows_recording trivial fun now => ?_
      refine follows_recording ⟨_, rfl, rfl⟩ fun created => ?_
      split
      · refine follows_recording trivial fun sent => ?_
        split
        · exact did_ok rfl fun v hv => hv
        · exact did_error _ _
      · exact did_error _ _

theorem follows_changed {p : PasswordAttempt PasswordChange}
    (h : recording.Follows p.run Did (none, none)) :
    recording.Follows (Sum.inr <$> p : PasswordAttempt PasswordAnswer).run Done (none, none) := by
  refine (follows_bind _ _ _ _ _).mpr (follows_mono _ ?_ _ _ h)
  intro r g hr
  cases r with
  | error e =>
    intro change h
    cases h
  | ok change' =>
    intro change h
    cases h
    exact hr _ rfl

theorem login_issues (dto : LoginDto) :
    recording.Follows (login compareBcrypt hashSha256 sessionTtlDays dto).run (fun _ _ => True)
      (none, none) := by
  refine follows_recording trivial fun found => ?_
  cases found with
  | none => trivial
  | some user =>
    simp only
    split
    · refine follows_recording trivial fun token => follows_recording trivial fun now => ?_
      exact follows_recording trivial fun _ => trivial
    · trivial

theorem login_follows (dto : LoginDto) :
    recording.Follows
      (Sum.inl <$> login compareBcrypt hashSha256 sessionTtlDays dto :
        PasswordAttempt PasswordAnswer).run Done (none, none) := by
  refine (follows_bind _ _ _ _ _).mpr (follows_mono _ ?_ _ _ (login_issues dto))
  intro r g _
  cases r <;>
  · intro change h
    cases h

theorem password_follows (c : PasswordCall) :
    recording.Follows (c.prog compareBcrypt hashSha256 sessionTtlDays) Done (none, none) := by
  cases c with
  | login dto => exact login_follows dto
  | changePassword dto => exact follows_changed (changePassword_follows dto)
  | resetPassword dto => exact follows_changed (resetPassword_follows dto)
  | resetMemberPassword orgId userId actorId =>
    exact follows_changed (resetMemberPassword_follows orgId userId actorId)

end Follows

/-! Where calls begin and end. -/

section Ends

variable {compareBcrypt : String → String → Bool} {hashSha256 : String → Digest}
  {sessionTtlDays : ℕ}
  {s s' : PasswordStore}

theorem accept_same {c : PasswordCall}
    (h : (passwordServer compareBcrypt hashSha256 sessionTtlDays).accept c s = some s') :
    s' = s := by
  change (if _ then _ else _) = some s' at h
  split at h
  · cases h
    rfl
  · cases h

/-- Only a change is put on record. -/
theorem release_cases {c : PasswordCall} {value : Except PasswordError PasswordAnswer}
    {again : Bool}
    (h : (passwordServer compareBcrypt hashSha256 sessionTtlDays).release c value again s =
    some s') :
    s' = s ∨ ∃ change, value = .ok (.inr change) ∧ s' = { s with changed :=
    s.changed ++ [change] } := by
  cases value with
  | error e =>
    cases h
    exact .inl rfl
  | ok answer =>
    cases answer with
    | inl token =>
      cases h
      exact .inl rfl
    | inr change =>
      cases h
      exact .inr ⟨change, rfl, rfl⟩

end Ends

end EventLens.Auth
