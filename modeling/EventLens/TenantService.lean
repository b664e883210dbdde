import EventLens.TenantRecord
import Mathlib

/-!
The read routes of an organisation: what each asks of its caller, and what it
answers. What is presigned is kept as the object's key. The providers of cloud
storage and the ciphers are parameters.
-/

namespace EventLens.Tenants

open Auth (AuthenticateOptions AuthenticateRequest AuthDto AuthError Headers QueryValue Segment
  OrganizationUser OrgRole)
open Galleries (AssetFileType AssetStatus)
open Import (AssetType CloudProvider)

structure SidebarEvent where
  id : String
  name : String
  slug : String
  status : EventStatus
  startsAt : Option Date
  expiresAt : Option Date
  purgedAt : Option Date
  coverKey : Option String
  assetCount : ℕ
  fallbackCoverKey : Option String
deriving DecidableEq, Repr

structure ShellEvent where
  id : String
  name : String
  slug : String
  status : EventStatus
  startsAt : Option Date
  expiresAt : Option Date
  purgedAt : Option Date
  assetCount : ℕ
  coverUrl : Option String
deriving DecidableEq, Repr

structure EventUsage where
  eventId : String
  eventName : String
  photos : ℕ
  videos : ℕ
  bytes : ℕ
deriving DecidableEq, Repr

structure QuotaStatus where
  plan : Ingest.OrgPlan
  usedBytes : ℕ
  limitBytes : ℕ
  remainingBytes : ℕ
  usedEvents : ℕ
  eventLimit : ℕ
  remainingEvents : ℕ
  hasCustomLimits : Bool
deriving DecidableEq, Repr

inductive NoticeLevel
  | info | warning
deriving DecidableEq, Repr

structure OrgNotification where
  id : String
  level : NoticeLevel
  title : String
  body : String
  eventId : String
  time : Date
deriving DecidableEq, Repr

structure OrgPerson where
  id : String
  eventId : String
  eventName : String
  name : String
  faceCount : ℕ
  thumbnailUrl : Option String
deriving DecidableEq, Repr

structure MapMarker where
  id : String
  eventId : String
  lat : ℚ
  lon : ℚ
  thumbUrl : Option String
deriving DecidableEq, Repr

structure OrgMember where
  userId : String
  email : String
  role : OrgRole
deriving DecidableEq, Repr

structure TimelineAsset where
  id : String
  eventId : String
  eventName : String
  type : AssetType
  status : AssetStatus
  originalFilename : String
  capturedAt : Option Date
  createdAt : Date
  width : Option ℕ
  height : Option ℕ
  thumbhash : Option String
  thumbUrl : Option String
  previewUrl : Option String
deriving DecidableEq, Repr

structure ConnectedAccount where
  id : String
  provider : CloudProvider
  accountEmail : String
  createdAt : Date
deriving DecidableEq, Repr

structure RemoteFolder where
  id : String
  name : String
deriving DecidableEq, Repr

structure OAuthState where
  orgId : String
  userId : String
  provider : CloudProvider
  exp : Date
deriving DecidableEq, Repr

/-- The cloud providers as the service reaches them, and its ciphers. -/
structure CloudServices where
  decrypt : String → String
  encryptState : OAuthState → String
  authorizeUrl : CloudProvider → String → String
  refresh : CloudProvider → String → Option String
  listFolders : CloudProvider → String → Option String → Option (List RemoteFolder)

inductive ReadError
  | auth (e : AuthError)
  | notFound (text : String)
  | badRequest (text : String)
  | unauthorized (text : String)
  | provider
deriving DecidableEq, Repr

inductive Response
  | organization (org : Auth.Organization)
  | shell (bytes assets namedPeople : ℕ) (events : List ShellEvent)
  | quota (status : QuotaStatus)
  | usage (events : List EventUsage) (eventCount photos videos bytes : ℕ)
  | notifications (items : List OrgNotification) (unread : ℕ)
  | people (people : List OrgPerson)
  | markers (markers : List MapMarker)
  | members (members : List OrgMember)
  | events (events : List EventRow)
  | assets (assets : List TimelineAsset) (nextCursor : Option (Assets.Cursor String))
  | redirect (url : String)
  | accounts (accounts : List ConnectedAccount)
  | folders (folders : List RemoteFolder)
deriving DecidableEq

/-! What the repositories read. -/

/-- Nulls first. -/
def later (a b : Option Date) : Prop :=
  match a, b with
  | none, _ => True
  | some _, none => False
  | some t, some u => u ≤ t

instance (a b : Option Date) : Decidable (later a b) := by
  unfold later
  split <;> infer_instance

namespace TenantStore

variable (s : TenantStore)

def fileKey (assetId : String) (type : AssetFileType) : Option String :=
  (s.files.find? (fun f => f.assetId = assetId ∧ f.type = type)).map AssetFile.storageKey

def exif (assetId : String) : Option AssetExif := s.exifs.find? (fun x => x.assetId = assetId)

def eventsOf (orgId : String) : List EventRow :=
  s.events.filter (fun e => e.orgId = orgId ∧ e.deletedAt = none)

def assetsOf (eventId : String) : List Asset :=
  s.assets.filter (fun a => a.eventId = eventId ∧ a.deletedAt = none)

def getById (orgId : String) : Option Auth.Organization :=
  s.orgs.find? (fun org => org.id = orgId ∧ org.deleted = false)

/-- The newest thumbnail of an event. -/
def fallbackCoverKey (eventId : String) : Option String :=
  ((s.assetsOf eventId).insertionSort (fun a b => later a.capturedAt b.capturedAt)).findSome?
    (fun a => s.fileKey a.id .thumbnail)

def sidebarEvent (e : EventRow) : SidebarEvent :=
  { id := e.id
    name := e.name
    slug := e.slug
    status := e.status
    startsAt := e.startsAt
    expiresAt := e.expiresAt
    purgedAt := e.purgedAt
    coverKey := e.coverAssetId.bind (fun id => s.fileKey id .thumbnail)
    assetCount := (s.assetsOf e.id).length
    fallbackCoverKey := s.fallbackCoverKey e.id }

def listForSidebar (orgId : String) : List SidebarEvent :=
  ((s.eventsOf orgId).insertionSort (fun a b =>
    later a.startsAt b.startsAt ∧ (later b.startsAt a.startsAt → b.createdAt ≤ a.createdAt))).map
    s.sidebarEvent

/-- The live assets of the organisation's live events. -/
def stored (orgId : String) : List Asset :=
  s.assets.filter (fun a => a.deletedAt = none ∧
    (s.event a.eventId).any (fun e => e.orgId = orgId ∧ e.deletedAt = none))

def getOrgStorageBytes (orgId : String) : ℕ := ((s.stored orgId).map Asset.fileSize).sum

def countNamedForOrg (orgId : String) : ℕ :=
  (s.persons.filter (fun p => p.orgId = orgId ∧ p.isHidden = false ∧ p.name ≠ "" ∧
    (s.event p.eventId).any (fun e => e.deletedAt = none))).length

def countForOrg (orgId : String) : ℕ := (s.eventsOf orgId).length

def eventUsage (e : EventRow) : EventUsage :=
  { eventId := e.id
    eventName := e.name
    photos := (s.assetsOf e.id).countP (fun a => a.type = .image)
    videos := (s.assetsOf e.id).countP (fun a => a.type = .video)
    bytes := ((s.assetsOf e.id).map Asset.fileSize).sum }

def getOrgUsageByEvent (orgId : String) : List EventUsage :=
  ((s.eventsOf orgId).insertionSort (fun a b => b.createdAt ≤ a.createdAt)).map s.eventUsage

/-- The photos of a person: live assets with a live face of theirs. -/
def photosOf (personId : String) : List String :=
  ((s.faces.filter (fun f => f.personId = some personId ∧ f.deleted = false ∧
    (s.asset f.assetId).any (fun a => a.deletedAt = none))).map AssetFace.assetId).dedup

def orgPerson (p : Person) (e : EventRow) : OrgPerson :=
  { id := p.id
    eventId := p.eventId
    eventName := e.name
    name := p.name
    faceCount := (s.photosOf p.id).length
    thumbnailUrl := if p.thumbnailKey = "" then none else some p.thumbnailKey }

def getAllForOrg (orgId : String) : List OrgPerson :=
  ((s.persons.filter (fun p => p.orgId = orgId ∧ p.isHidden = false)).filterMap (fun p =>
    ((s.event p.eventId).filter (fun e => e.deletedAt = none)).map (s.orgPerson p))).insertionSort
    (fun a b => b.faceCount ≤ a.faceCount)

def mapMarker (a : Asset) : Option MapMarker := do
  let e ← s.event a.eventId
  let x ← s.exif a.id
  let lat ← x.latitude
  let lon ← x.longitude
  if e.deletedAt = none ∧ e.purgedAt = none then
    pure
      { id := a.id
        eventId := a.eventId
        lat := lat
        lon := lon
        thumbUrl := (s.fileKey a.id .thumbnail).filter (fun key => key ≠ "") }
  else none

def getMapMarkersForOrg (orgId : String) : List MapMarker :=
  ((s.assets.filter (fun a => a.orgId = orgId ∧ a.deletedAt = none)).insertionSort
    (fun a b => later a.capturedAt b.capturedAt)).filterMap s.mapMarker

def listMembers (orgId : String) : List OrgMember :=
  (s.members.filter (fun m => m.orgId = orgId)).filterMap (fun m =>
    (s.users.find? (fun u => u.id = m.userId ∧ u.deleted = false)).map
      (fun u => { userId := m.userId, email := u.email, role := m.role }))

def listByOrg (orgId : String) : List EventRow :=
  (s.eventsOf orgId).insertionSort (fun a b => b.createdAt ≤ a.createdAt)

def timelineAsset (eventName : String) (a : Asset) : TimelineAsset :=
  { id := a.id
    eventId := a.eventId
    eventName := eventName
    type := a.type
    status := a.status
    originalFilename := a.originalFilename
    capturedAt := a.capturedAt
    createdAt := a.createdAt
    width := a.width
    height := a.height
    thumbhash := a.thumbhash
    thumbUrl := (s.fileKey a.id .thumbnail).filter (fun key => key ≠ "")
    previewUrl := (s.fileKey a.id .preview).filter (fun key => key ≠ "") }

/-- The columns of an event that the timeline joins. -/
def listedEvent (e : EventRow) : Assets.Event String :=
  { id := e.id, name := e.name, deletedAt := e.deletedAt, purgedAt := e.purgedAt }

/-- `AssetService.listForOrg`: the page of the timeline, with the rows it is read from. -/
def listForOrg (orgId : String) (limit : ℕ) (cursor : Option (Assets.Cursor String)) : Response :=
  let page :=
    Assets.AssetService.listForOrg (s.assets.map Asset.toAsset) (s.events.map listedEvent) orgId
    limit cursor
  .assets
    (page.rows.flatMap (fun row =>
      (s.assets.filter (fun a => a.toAsset = row.toAsset)).map (s.timelineAsset row.eventName)))
    page.next

def accountsOf (orgId : String) : List CloudAccount :=
  s.accounts.filter (fun c => c.orgId = orgId ∧ c.revokedAt = none)

/-- `CloudAccountRepository.getById`. -/
def getAccount (orgId accountId : String) : Option CloudAccount :=
  s.accounts.find? (fun c => c.id = accountId ∧ c.orgId = orgId ∧ c.revokedAt = none)

end TenantStore

/-! What the services answer. -/

def shellEvent (e : SidebarEvent) : ShellEvent :=
  { id := e.id
    name := e.name
    slug := e.slug
    status := e.status
    startsAt := e.startsAt
    expiresAt := e.expiresAt
    purgedAt := e.purgedAt
    assetCount := e.assetCount
    coverUrl := (e.coverKey.or e.fallbackCoverKey).filter (fun key => key ≠ "") }

def EXPIRY_WARNING_DAYS : ℤ := 14

def eventNotification (now : Date) (e : SidebarEvent) : Option OrgNotification :=
  match e.purgedAt, e.expiresAt with
  | some purgedAt, _ =>
    some
      { id := s!"purged-{e.id}"
        level := .info
        title := s!"{e.name} media deleted"
        body := "The photos for this expired event have been removed from storage."
        eventId := e.id
        time := purgedAt }
  | none, none => none
  | none, some expiresAt =>
    if expiresAt ≤ now then
      some
        { id := s!"expired-{e.id}"
          level := .warning
          title := s!"{e.name} has closed"
          body := "Guest links are shut. Extend the date or delete the photos."
          eventId := e.id
          time := expiresAt }
    else
      let daysLeft := -((now - expiresAt) / 86400000)
      if daysLeft ≤ EXPIRY_WARNING_DAYS then
        some
          { id := s!"expiring-{e.id}"
            level := .info
            title := s!"{e.name} closes in {daysLeft} day" ++ (if daysLeft = 1 then "" else "s")
            body := "Guest gallery links stop working then."
            eventId := e.id
            time := expiresAt }
      else none

/-- Warnings first, the newest first within each level. -/
def moreUrgent (a b : OrgNotification) : Prop :=
  (a.level = .warning ∧ b.level = .info) ∨ (a.level = b.level ∧ b.time ≤ a.time)

instance (a b : OrgNotification) : Decidable (moreUrgent a b) :=
  inferInstanceAs (Decidable (_ ∨ _))

def getNotifications (now : Date) (events : List SidebarEvent) : Response :=
  let items := (events.filterMap (eventNotification now)).insertionSort moreUrgent
  .notifications items (items.countP (fun item => item.level = .warning))

def quotaStatus (org : Auth.Organization) (usedBytes usedEvents : ℕ) : QuotaStatus :=
  let limits := Ingest.limitsFor org.toOrganization
  { plan := org.plan
    usedBytes := usedBytes
    limitBytes := limits.storageBytes
    remainingBytes := limits.storageBytes - usedBytes
    usedEvents := usedEvents
    eventLimit := limits.events
    remainingEvents := limits.events - usedEvents
    hasCustomLimits := org.storageLimitBytes.isSome || org.eventLimit.isSome }

def STATE_TTL_MS : ℤ := 600000
def TOKEN_EXPIRY_MARGIN_MS : ℤ := 60000

def parseProvider (value : String) : Except ReadError CloudProvider :=
  if value = "gdrive" then .ok .gDrive
  else if value = "onedrive" then .ok .oneDrive
  else .error (.badRequest s!"Unknown provider: {value}")

def providerName : CloudProvider → String
  | .gDrive => "gdrive"
  | .oneDrive => "onedrive"

/-- The stored access token while it is fresh, else a new one. -/
def getFreshAccessToken (services : CloudServices) (now : Date) (account : CloudAccount) :
    Except ReadError String :=
  match account.accessTokenEnc, account.tokenExpiresAt with
  | some token, some expiresAt =>
    if now + TOKEN_EXPIRY_MARGIN_MS < expiresAt then .ok (services.decrypt token) else refreshed
  | _, _ => refreshed
where
  refreshed : Except ReadError String :=
    match services.refresh account.provider (services.decrypt account.refreshTokenEnc) with
    | some token => .ok token
    | none => .error (.unauthorized (s!"{providerName account.provider} access for " ++
        s!"{account.accountEmail} was revoked — reconnect the account"))

/-- The read routes under `/orgs/:orgId`. -/
inductive OrgRoute
  | organization
  | shell
  | quota
  | usage
  | notifications
  | people
  | mapMarkers
  | members
  | events
  | assets (limit : Option ℕ) (cursor : Option (Assets.Cursor String))
  | authorize (provider : String)
  | accounts
  | folders (accountId : String) (parentId : Option String)
deriving DecidableEq

/-- What `@Authenticated` asks for; nothing on a route without it. -/
def OrgRoute.options : OrgRoute → Option AuthenticateOptions
  | .organization => some { orgRole := some .member, allowSuperAdmin := some true }
  | .members => some { orgRole := some .owner, allowSuperAdmin := some true }
  | .authorize _ | .accounts | .folders _ _ => some { orgRole := some .admin }
  | .quota => none
  | _ => some { orgRole := some .member }

/-- No limit, or a limit of zero, counts as 100. -/
def pageLimit (limit : Option ℕ) : ℕ :=
    min (max (if limit.getD 0 = 0 then 100 else limit.getD 0) 1) 500

def OrgRoute.answer (services : CloudServices) (now : Date) (s : TenantStore) (orgId : String)
    (userId : String) : OrgRoute → Except ReadError Response
  | .organization =>
    match s.getById orgId with
    | some org => .ok (.organization org)
    | none => .error (.notFound "Organization not found")
  | .shell =>
    .ok (.shell (s.getOrgStorageBytes orgId) (s.stored orgId).length (s.countNamedForOrg orgId)
      ((s.listForSidebar orgId).map shellEvent))
  | .quota =>
    match s.getById orgId with
    | some org => .ok (.quota (quotaStatus org (s.getOrgStorageBytes orgId) (s.countForOrg orgId)))
    | none => .error (.badRequest "Organization not found")
  | .usage =>
    let events := s.getOrgUsageByEvent orgId
    .ok (.usage events events.length (events.map EventUsage.photos).sum
      (events.map EventUsage.videos).sum (events.map EventUsage.bytes).sum)
  | .notifications => .ok (getNotifications now (s.listForSidebar orgId))
  | .people => .ok (.people (s.getAllForOrg orgId))
  | .mapMarkers => .ok (.markers (s.getMapMarkersForOrg orgId))
  | .members => .ok (.members (s.listMembers orgId))
  | .events => .ok (.events (s.listByOrg orgId))
  | .assets limit cursor => .ok (s.listForOrg orgId (pageLimit limit) cursor)
  | .authorize provider => do
    let client ← parseProvider provider
    pure (.redirect (services.authorizeUrl client (services.encryptState
      { orgId := orgId, userId := userId, provider := client, exp := now + STATE_TTL_MS })))
  | .accounts =>
    .ok (.accounts (((s.accountsOf orgId).insertionSort (fun a b => b.createdAt ≤ a.createdAt)).map
      (fun c => { id := c.id, provider := c.provider, accountEmail := c.accountEmail, createdAt :=
        c.createdAt })))
  | .folders accountId parentId =>
    match s.getAccount orgId accountId with
    | none => .error (.notFound "Cloud account not found (disconnected?)")
    | some account => do
      let token ← getFreshAccessToken services now account
      match services.listFolders account.provider token parentId with
      | some found => .ok (.folders found)
      | none => .error .provider

/-- A request with its credentials. -/
structure OrgRequest where
  headers : Headers := {}
  token : Option QueryValue := none
  orgId : Segment
  route : OrgRoute
deriving DecidableEq

def OrgRequest.authenticating (r : OrgRequest) (options : AuthenticateOptions) :
    AuthenticateRequest :=
  { headers := r.headers
    token := r.token
    pathParams := { orgId := some r.orgId }
    options := options }

/-- `AuthGuard.canActivate`: a route without options is public. -/
def canActivate (hashSha256 : String → Auth.Digest) (s : TenantStore) (now : ℕ) (r : OrgRequest) :
    Except ReadError AuthDto :=
  match r.route.options with
  | none => .ok {}
  | some options =>
    match Auth.authenticate hashSha256 s.auth now (r.authenticating options) with
    | .ok auth => .ok auth
    | .error e => .error (.auth e)

def respond (hashSha256 : String → Auth.Digest) (services : CloudServices) (s : TenantStore)
    (now : ℕ)
    (r : OrgRequest) : Except ReadError Response := do
  let auth ← canActivate hashSha256 s now r
  r.route.answer services now s r.orgId ((auth.user.map Auth.User.id).getD "")

end EventLens.Tenants
