import EventLens.IngestRecord

/-!
What a request is authenticated against: users and their sessions, gallery
tokens of participants, organisations with their members, and the organisation
each event belongs to. Tokens are stored as hashes. Instants are milliseconds.
-/

namespace EventLens.Auth

inductive OrgRole
  | owner | admin | member
deriving DecidableEq, Repr

/-- `ROLE_ORDER`: member < admin < owner. -/
def OrgRole.rank : OrgRole → ℕ
  | .member => 0
  | .admin => 1
  | .owner => 2

inductive OrgStatus
  | active | suspended
deriving DecidableEq, Repr

structure User where
  id : String
  email : String
  isSuperAdmin : Bool := false
  deleted : Bool := false
deriving DecidableEq, Repr

abbrev Digest := String

structure Session where
  id : String
  userId : String
  token : Digest
  expiresAt : Option ℕ := none
deriving DecidableEq, Repr

structure Participant where
  id : String
  eventId : String
  galleryTokenHash : Option Digest := none
  deleted : Bool := false
deriving DecidableEq, Repr

/-- A row of `organization`: its plan and limits, and whether it is open. -/
structure Organization extends Ingest.Organization where
  name : String
  slug : String
  status : OrgStatus := .active
  deleted : Bool := false
deriving DecidableEq, Repr

/-- A row of `organization_user`, unique for organisation and user. -/
structure OrganizationUser where
  orgId : String
  userId : String
  role : OrgRole
deriving DecidableEq, Repr

structure EventScope where
  id : String
  orgId : String
  deleted : Bool := false
deriving DecidableEq, Repr

structure AuthStore where
  users : List User := []
  sessions : List Session := []
  participants : List Participant := []
  orgs : List Organization := []
  members : List OrganizationUser := []
  events : List EventScope := []
deriving DecidableEq, Repr

/-- The headers that carry credentials. -/
structure Headers where
  authorization : Option String := none
  cookie : Option String := none
  galleryToken : Option String := none
deriving DecidableEq, Repr

/-- A query parameter: a text, or what the parser makes of a repeated or a
bracketed one. -/
inductive QueryValue
  | text (value : String)
  | structured
deriving DecidableEq, Repr

/-- A path segment that a route has matched. -/
abbrev Segment := { s : String // s ≠ "" }

structure PathParams where
  orgId : Option Segment := none
  eventId : Option Segment := none
deriving DecidableEq, Repr

structure AuthenticateOptions where
  superAdmin : Option Bool := none
  orgRole : Option OrgRole := none
  participant : Option Bool := none
  allowSuperAdmin : Option Bool := none
deriving DecidableEq, Repr

structure AuthenticateRequest where
  headers : Headers := {}
  token : Option QueryValue := none
  pathParams : PathParams := {}
  options : AuthenticateOptions := {}
deriving DecidableEq, Repr

structure AuthDto where
  user : Option User := none
  session : Option Session := none
  participant : Option Participant := none
deriving DecidableEq, Repr

inductive AuthError
  | unauthorized (text : String)
  | forbidden (text : String)
  | uriMalformed
  | invalidData
deriving DecidableEq, Repr

namespace AuthStore

def getByTokenHash (s : AuthStore) (tokenHash : Digest) : Option Participant :=
  s.participants.find? (fun p => p.galleryTokenHash = some tokenHash ∧ p.deleted = false)

/-- The session of the token that has not run out. -/
def getSession (s : AuthStore) (now : ℕ) (tokenHash : Digest) : Option Session :=
  s.sessions.find? (fun session => session.token = tokenHash ∧
    session.expiresAt.all (fun limit => now < limit))

def getUser (s : AuthStore) (userId : String) : Option User :=
  s.users.find? (fun user => user.id = userId ∧ user.deleted = false)

/-- A session with its user. -/
def getByToken (s : AuthStore) (now : ℕ) (tokenHash : Digest) : Option (Session × User) := do
  let session ← s.getSession now tokenHash
  let user ← s.getUser session.userId
  pure (session, user)

def getByEmail (s : AuthStore) (email : String) : Option User :=
  s.users.find? (fun user => user.email.toLower = email.toLower ∧ user.deleted = false)

def getOrgId (s : AuthStore) (eventId : String) : Option String :=
  (s.events.find? (fun event => event.id = eventId ∧ event.deleted = false)).map EventScope.orgId

def getMembership (s : AuthStore) (orgId userId : String) : Option OrganizationUser :=
  s.members.find? (fun m => m.orgId = orgId ∧ m.userId = userId)

def getById (s : AuthStore) (orgId : String) : Option Organization :=
  s.orgs.find? (fun org => org.id = orgId ∧ org.deleted = false)

def getBySlug (s : AuthStore) (slug : String) : Option Organization :=
  s.orgs.find? (fun org => org.slug = slug ∧ org.deleted = false)

end AuthStore

end EventLens.Auth
