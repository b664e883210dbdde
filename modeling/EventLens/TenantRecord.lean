import EventLens.GalleryRecord
import EventLens.OrgClosure

/-!
The tables that the read routes of an organisation draw on, and the changes the
API makes to them: organisations with members and accounts, events with covers,
assets with files and positions, faces and persons. Foreign keys cascade or set
null as the migrations say. A row whose id is taken already is not created.
-/

namespace EventLens.Tenants

open Auth (User Session OrganizationUser EventScope AuthStore OrgWorld OrgChange)
open Galleries (AssetFileType AssetStatus)
open Import (AssetType CloudProvider)

abbrev Date := ℤ

inductive EventStatus
  | draft | active | closed
deriving DecidableEq, Repr

structure EventRow where
  id : String
  orgId : String
  name : String
  slug : String
  status : EventStatus := .draft
  startsAt : Option Date := none
  expiresAt : Option Date := none
  purgedAt : Option Date := none
  coverAssetId : Option String := none
  createdAt : Date
  deletedAt : Option Date := none
deriving DecidableEq, Repr

def EventRow.scope (e : EventRow) : EventScope :=
  { id := e.id, orgId := e.orgId, deleted := e.deletedAt.isSome }

structure Asset extends Assets.Asset String where
  type : AssetType
  status : AssetStatus := .staged
  originalFilename : String
  fileSize : ℕ
  createdAt : Date
  width : Option ℕ := none
  height : Option ℕ := none
  thumbhash : Option String := none
  storageKey : String
deriving DecidableEq

structure AssetFile where
  assetId : String
  type : AssetFileType
  storageKey : String
deriving DecidableEq, Repr

structure AssetExif where
  assetId : String
  latitude : Option ℚ := none
  longitude : Option ℚ := none
deriving DecidableEq, Repr

structure AssetFace where
  id : String
  assetId : String
  personId : Option String := none
  deleted : Bool := false
deriving DecidableEq, Repr

structure Person where
  id : String
  eventId : String
  orgId : String
  name : String := ""
  isHidden : Bool := false
  thumbnailKey : String := ""
deriving DecidableEq, Repr

structure CloudAccount where
  id : String
  orgId : String
  provider : CloudProvider
  accountEmail : String
  refreshTokenEnc : String
  accessTokenEnc : Option String := none
  tokenExpiresAt : Option Date := none
  createdAt : Date
  revokedAt : Option Date := none
deriving DecidableEq, Repr

structure TenantStore where
  users : List User := []
  sessions : List Session := []
  participants : List Auth.Participant := []
  orgs : List Auth.Organization := []
  members : List OrganizationUser := []
  events : List EventRow := []
  assets : List Asset := []
  files : List AssetFile := []
  exifs : List AssetExif := []
  faces : List AssetFace := []
  persons : List Person := []
  accounts : List CloudAccount := []
  clock : Date := 0
deriving DecidableEq

/-- The tables that authentication reads. -/
def TenantStore.auth (s : TenantStore) : AuthStore :=
  { users := s.users
    sessions := s.sessions
    participants := s.participants
    orgs := s.orgs
    members := s.members
    events := s.events.map EventRow.scope }

structure UpdateEvent where
  name : Option String := none
  slug : Option String := none
  status : Option EventStatus := none
  startsAt : Option (Option Date) := none
  expiresAt : Option (Option Date) := none
  purgedAt : Option Date := none
deriving DecidableEq, Repr

def UpdateEvent.apply (dto : UpdateEvent) (event : EventRow) : EventRow :=
  { event with
    name := dto.name.getD event.name
    slug := dto.slug.getD event.slug
    status := dto.status.getD event.status
    startsAt := dto.startsAt.getD event.startsAt
    expiresAt := dto.expiresAt.getD event.expiresAt
    purgedAt := dto.purgedAt.or event.purgedAt }

structure UpdateAsset where
  status : Option AssetStatus := none
  capturedAt : Option Date := none
  width : Option ℕ := none
  height : Option ℕ := none
  thumbhash : Option String := none
  facesDetected : Option (Date × ℕ) := none
deriving DecidableEq, Repr

def UpdateAsset.apply (dto : UpdateAsset) (asset : Asset) : Asset :=
  { asset with
    status := dto.status.getD asset.status
    capturedAt := dto.capturedAt.or asset.capturedAt
    width := dto.width.or asset.width
    height := dto.height.or asset.height
    thumbhash := dto.thumbhash.or asset.thumbhash
    facesDetectedAt := (dto.facesDetected.map Prod.fst).or asset.facesDetectedAt
    faceCount := (dto.facesDetected.map Prod.snd).getD asset.faceCount }

structure UpdatePerson where
  name : Option String := none
  isHidden : Option Bool := none
  thumbnailKey : Option String := none
deriving DecidableEq, Repr

def UpdatePerson.apply (dto : UpdatePerson) (person : Person) : Person :=
  { person with
    name := dto.name.getD person.name
    isHidden := dto.isHidden.getD person.isHidden
    thumbnailKey := dto.thumbnailKey.getD person.thumbnailKey }

/-- A recognition is told the face of the event that its search found nearest,
and the id of the person it founds where that face has none. -/
inductive Change
  | createUser (user : User)
  | organization (change : OrgChange)
  | openSession (session : Session)
  | closeSession (id : String)
  | submitSelfie (participant : Auth.Participant)
  | eraseParticipant (id : String)
  | createEvent (id orgId name slug : String)
  | updateEvent (id : String) (dto : UpdateEvent)
  | setCover (eventId : String) (assetId : Option String)
  | removeEvent (id : String)
  | createAsset (id eventId : String) (type : AssetType) (originalFilename storageKey : String)
      (fileSize : ℕ)
  | updateAsset (id : String) (dto : UpdateAsset)
  | upsertFile (file : AssetFile)
  | upsertExif (exif : AssetExif)
  | deleteMany (eventId : String) (ids : List String)
  | addFace (id assetId : String)
  | removeFaces (ids : List String)
  | recognize (faceId : String) (hit : Option String) (personId : String)
  | updatePerson (eventId id : String) (dto : UpdatePerson)
  | merge (eventId id : String) (ids : List String)
  | deletePersons (ids : List String)
  | upsertAccount (account : CloudAccount)
  | updateAccessToken (id accessTokenEnc : String) (tokenExpiresAt : Date)
  | markRevoked (id : String)
  | tick (now : Date)
deriving DecidableEq, Repr

namespace TenantStore

variable (s : TenantStore)

def event (id : String) : Option EventRow := s.events.find? (fun e => e.id = id)

def asset (id : String) : Option Asset := s.assets.find? (fun a => a.id = id)

def face (id : String) : Option AssetFace := s.faces.find? (fun f => f.id = id)

def getPerson (eventId id : String) : Option Person :=
  s.persons.find? (fun p => p.id = id ∧ p.eventId = eventId)

/-- `EventRepository.getOrgId`. -/
def getOrgId (eventId : String) : Option String :=
  (s.events.find? (fun e => e.id = eventId ∧ e.deletedAt = none)).map EventRow.orgId

/-- Everything of the event goes; covers taken from it are cleared. -/
def removeEvent (id : String) : TenantStore :=
  let gone := (s.assets.filter (fun a => a.eventId = id)).map (fun a => a.id)
  { s with
    events := (s.events.filter (fun e => e.id ≠ id)).map (fun e =>
      { e with coverAssetId := e.coverAssetId.filter (fun a => a ∉ gone) })
    assets := s.assets.filter (fun a => a.eventId ≠ id)
    files := s.files.filter (fun f => f.assetId ∉ gone)
    exifs := s.exifs.filter (fun x => x.assetId ∉ gone)
    faces := s.faces.filter (fun f => f.assetId ∉ gone)
    persons := s.persons.filter (fun p => p.eventId ≠ id)
    participants := s.participants.filter (fun p => p.eventId ≠ id) }

def deletePersons (ids : List String) : TenantStore :=
  { s with
    persons := s.persons.filter (fun p => p.id ∉ ids)
    faces := s.faces.map (fun f => { f with personId := f.personId.filter (fun p => p ∉ ids) }) }

def reassign (ids : AssetFace → Bool) (personId : String) : TenantStore :=
  { s with faces :=
    s.faces.map (fun f => if ids f then { f with personId := some personId } else f) }

/-- A live face of a live asset of the event that has a person. -/
def nearestPerson (eventId hit : String) : Option String := do
  let f ← s.face hit
  let a ← s.asset f.assetId
  if a.eventId = eventId ∧ a.deletedAt = none ∧ f.deleted = false then f.personId else none

/-- `handleRecognizeFaces`: the face joins the person found, or founds one. -/
def recognize (faceId : String) (hit : Option String) (personId : String) : TenantStore :=
  match s.face faceId with
  | none => s
  | some f =>
    match s.asset f.assetId with
    | none => s
    | some a =>
      match hit.bind (s.nearestPerson a.eventId) with
      | some found => s.reassign (fun g => g.id = faceId) found
      | none =>
        if s.persons.any (fun p => p.id = personId) then s
        else
          let founded : Person := { id := personId, eventId := a.eventId, orgId := a.orgId }
          reassign { s with persons := s.persons ++ [founded] } (fun g => g.id = faceId) personId

/-- `PersonService.merge`: the target and every source are of the event. -/
def merge (eventId id : String) (ids : List String) : TenantStore :=
  let sources := ids.dedup.filter (fun source => source ≠ id)
  if (s.getPerson eventId id).isSome ∧ sources ≠ [] ∧
      sources.all (fun source => (s.getPerson eventId source).isSome) then
    (s.reassign (fun f => f.personId.any (fun p => p ∈ sources)) id).deletePersons sources
  else s

def upsertFile (file : AssetFile) : TenantStore :=
  if s.files.any (fun f => f.assetId = file.assetId ∧ f.type = file.type) then
    { s with
      files := s.files.map (fun f => if f.assetId = file.assetId ∧
        f.type = file.type then file else f) }
  else { s with files := s.files ++ [file] }

def upsertExif (exif : AssetExif) : TenantStore :=
  if s.exifs.any (fun x => x.assetId = exif.assetId) then
    { s with exifs := s.exifs.map (fun x => if x.assetId = exif.assetId then exif else x) }
  else { s with exifs := s.exifs ++ [exif] }

/-- Unique for organisation, provider and address. -/
def upsertAccount (account : CloudAccount) : TenantStore :=
  let conflicts := fun c : CloudAccount =>
    c.orgId = account.orgId ∧ c.provider = account.provider ∧ c.accountEmail = account.accountEmail
  if s.accounts.any (fun c => conflicts c) then
    { s with
      accounts := s.accounts.map (fun c =>
        if conflicts c then
          { c with
            refreshTokenEnc := account.refreshTokenEnc
            accessTokenEnc := account.accessTokenEnc
            tokenExpiresAt := account.tokenExpiresAt
            revokedAt := none }
        else c) }
  else if s.accounts.any (fun c => c.id = account.id) then s
  else { s with accounts := s.accounts ++ [account] }

def apply : Change → TenantStore
  | .createUser user =>
    if s.users.any (fun u => u.id = user.id ∨ u.email.toLower = user.email.toLower) then s
    else { s with users := s.users ++ [user] }
  | .organization change =>
    match change.apply { toAuthStore := s.auth } with
    | .error _ => s
    | .ok w => { s with users := w.users, orgs := w.orgs, members := w.members }
  | .openSession session =>
    if s.sessions.any (fun other => other.id = session.id) then s
    else { s with sessions := s.sessions ++ [session] }
  | .closeSession id => { s with sessions := s.sessions.filter (fun session => session.id ≠ id) }
  | .submitSelfie participant =>
    if s.participants.any (fun p => p.id = participant.id) then s
    else { s with participants := s.participants ++ [participant] }
  | .eraseParticipant id => { s with participants := s.participants.filter (fun p => p.id ≠ id) }
  | .createEvent id orgId name slug =>
    if (s.event id).isSome ∨ ¬ s.orgs.any (fun org => org.id = orgId) then s
    else
      { s with
        events :=
          s.events ++ [{ id := id, orgId := orgId, name := name, slug := slug, createdAt :=
          s.clock }] }
  | .updateEvent id dto =>
    { s with events := s.events.map (fun e => if e.id = id then dto.apply e else e) }
  | .setCover eventId assetId =>
    if assetId.all (fun id => (s.asset id).isSome) then
      { s with
        events := s.events.map (fun e =>
          if e.id = eventId ∧ s.getOrgId eventId = some e.orgId then { e with coverAssetId :=
            assetId }
          else e) }
    else s
  | .removeEvent id => s.removeEvent id
  | .createAsset id eventId type originalFilename storageKey fileSize =>
    match s.event eventId with
    | none => s
    | some event =>
      if (s.asset id).isSome then s
      else
        { s with
          assets := s.assets ++
            [{ id := id
               eventId := eventId
               orgId := event.orgId
               type := type
               originalFilename := originalFilename
               fileSize := fileSize
               createdAt := s.clock
               storageKey := storageKey }] }
  | .updateAsset id dto =>
    { s with assets := s.assets.map (fun a => if a.id = id then dto.apply a else a) }
  | .upsertFile file => if (s.asset file.assetId).isSome then s.upsertFile file else s
  | .upsertExif exif => if (s.asset exif.assetId).isSome then s.upsertExif exif else s
  | .deleteMany eventId ids =>
    { s with
      assets := s.assets.map (fun a =>
        if a.eventId = eventId ∧ a.id ∈ ids ∧ a.deletedAt = none
          then { a with deletedAt := some s.clock }
        else a) }
  | .addFace id assetId =>
    if (s.asset assetId).isSome ∧ s.face id = none then
      { s with faces := s.faces ++ [{ id := id, assetId := assetId }] }
    else s
  | .removeFaces ids => { s with faces := s.faces.filter (fun f => f.id ∉ ids) }
  | .recognize faceId hit personId => s.recognize faceId hit personId
  | .updatePerson eventId id dto =>
    { s with
      persons :=
        s.persons.map (fun p => if p.id = id ∧ p.eventId = eventId then dto.apply p else p) }
  | .merge eventId id ids => s.merge eventId id ids
  | .deletePersons ids => s.deletePersons ids
  | .upsertAccount account => s.upsertAccount account
  | .updateAccessToken id accessTokenEnc tokenExpiresAt =>
    { s with
      accounts := s.accounts.map (fun c =>
        if c.id = id then
          { c with accessTokenEnc := some accessTokenEnc, tokenExpiresAt := some tokenExpiresAt }
        else c) }
  | .markRevoked id =>
    { s with
      accounts :=
        s.accounts.map (fun c => if c.id = id then { c with revokedAt := some s.clock } else c) }
  | .tick now => { s with clock := max s.clock now }

end TenantStore

/-- The tables after these changes, from empty ones. -/
def after (changes : List Change) : TenantStore := changes.foldl TenantStore.apply {}

end EventLens.Tenants
