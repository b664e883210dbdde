import EventLens.AuthScope

/-!
Administration of organisations: creation, status, plan, removal and members.
A suspended or deleted organisation is meant to be closed. The role check asks
for a membership only, so what closes an organisation leaves its members in.
-/

namespace EventLens.Auth

open Ingest (OrgPlan)

/-- The tables of authentication and the prefixes queued for removal. -/
structure OrgWorld extends AuthStore where
  cleanups : List String := []
deriving DecidableEq, Repr

inductive OrgError
  | notFound (text : String)
  | badRequest (text : String)
  | slugConstraint
  | emailConstraint
deriving DecidableEq, Repr

structure UpdateOrg where
  name : Option String := none
  slug : Option String := none
  status : Option OrgStatus := none
deriving DecidableEq, Repr

/-- A limit may be left alone, cleared or set. -/
structure UpdatePlan where
  plan : Option OrgPlan := none
  storageLimitBytes : Option (Option ℕ) := none
  eventLimit : Option (Option ℕ) := none
deriving DecidableEq, Repr

/-- A user to be found by email, or created under a new id. -/
structure NewUser where
  id : String
  email : String
  password : Option String := none
deriving DecidableEq, Repr

inductive OrgChange
  | create (orgId name slug : String) (owner : NewUser)
  | update (orgId : String) (dto : UpdateOrg)
  | updatePlan (orgId : String) (dto : UpdatePlan)
  | remove (orgId : String)
  | addMember (orgId : String) (user : NewUser) (role : OrgRole)
  | updateMember (orgId userId : String) (role : OrgRole)
  | removeMember (orgId userId : String)
deriving DecidableEq, Repr

namespace OrgWorld

variable (w : OrgWorld)

/-! Statements. -/

def changeOrg (orgId : String) (f : Organization → Organization) : OrgWorld :=
  { w with orgs := w.orgs.map (fun org => if org.id = orgId then f org else org) }

/-- `ON CONFLICT DO UPDATE SET role`. -/
def putMember (orgId userId : String) (role : OrgRole) : OrgWorld :=
  if w.members.any (fun m => m.orgId = orgId ∧ m.userId = userId) then
    { w with
      members := w.members.map (fun m =>
        if m.orgId = orgId ∧ m.userId = userId then { m with role := role } else m) }
  else { w with members := w.members ++ [{ orgId := orgId, userId := userId, role := role }] }

def dropMember (orgId userId : String) : OrgWorld :=
  { w with members := w.members.filter (fun m => ¬ (m.orgId = orgId ∧ m.userId = userId)) }

/-- Members whose account is not deleted. -/
def listMembers (orgId : String) : List OrganizationUser :=
  w.members.filter (fun m => m.orgId = orgId ∧ (w.getUser m.userId).isSome)

/-! The service. -/

def get (orgId : String) : Except OrgError Organization :=
  match w.getById orgId with
  | some org => .ok org
  | none => .error (.notFound "Organization not found")

def resolveUser (user : NewUser) : Except OrgError (User × OrgWorld) :=
  match w.getByEmail user.email with
  | some existing => .ok (existing, w)
  | none =>
    match user.password with
    | none => .error (.badRequest
        s!"User {user.email} does not exist — provide a password to create them")
    | some _ =>
      if w.users.any (fun u => u.email.toLower = user.email.toLower) then .error .emailConstraint
      else
        let created : User := { id := user.id, email := user.email }
        .ok (created, { w with users := w.users ++ [created] })

def ensureNotLastOwner (orgId userId : String) (newRole : Option OrgRole) : Except OrgError Unit :=
  if newRole = some .owner then .ok ()
  else match (w.listMembers orgId).filter (fun m => m.role = .owner) with
    | [owner] =>
      if owner.userId = userId then .error (.badRequest "Cannot remove the last owner") else .ok ()
    | _ => .ok ()

def create (orgId name slug : String) (owner : NewUser) : Except OrgError OrgWorld :=
  if w.getBySlug slug ≠ none then .error (.badRequest "Slug already in use")
  else do
    let (user, w) ← w.resolveUser owner
    if w.orgs.any (fun org => org.slug = slug) then .error .slugConstraint
    else
      let org : Organization := { id := orgId, plan := .starter, name := name, slug := slug }
      .ok ({ w with orgs := w.orgs ++ [org] }.putMember orgId user.id .owner)

def update (orgId : String) (dto : UpdateOrg) : Except OrgError OrgWorld := do
  let _ ← w.get orgId
  match dto.slug with
  | some slug =>
    match w.getBySlug slug with
    | some existing =>
      if existing.id ≠ orgId then throw (.badRequest "Slug already in use")
    | none => if w.orgs.any (fun org => org.slug = slug ∧ org.id ≠ orgId) then throw .slugConstraint
  | none => pure ()
  pure (w.changeOrg orgId (fun org =>
    { org with
      name := dto.name.getD org.name
      slug := dto.slug.getD org.slug
      status := dto.status.getD org.status }))

/-- Only Enterprise carries custom limits. -/
def updatePlan (orgId : String) (dto : UpdatePlan) : Except OrgError OrgWorld := do
  let before ← w.get orgId
  let plan := dto.plan.getD before.plan
  if (dto.storageLimitBytes.join ≠ none ∨ dto.eventLimit.join ≠ none) ∧ plan ≠ .enterprise then
    throw (.badRequest ("Custom storage and event limits are only available on the " ++
      "Enterprise plan. Change the plan first."))
  else pure (w.changeOrg orgId (fun org =>
    if plan = .enterprise then
      { org with
        plan := plan
        storageLimitBytes := dto.storageLimitBytes.getD org.storageLimitBytes
        eventLimit := dto.eventLimit.getD org.eventLimit }
    else { org with plan := plan, storageLimitBytes := none, eventLimit := none }))

def remove (orgId : String) : Except OrgError OrgWorld := do
  let _ ← w.get orgId
  let removed := w.changeOrg orgId (fun org => { org with deleted := true })
  pure { removed with cleanups := w.cleanups ++ [s!"org/{orgId}/"] }

def addMember (orgId : String) (user : NewUser) (role : OrgRole) : Except OrgError OrgWorld := do
  let _ ← w.get orgId
  let (found, w) ← w.resolveUser user
  pure (w.putMember orgId found.id role)

def updateMember (orgId userId : String) (role : OrgRole) : Except OrgError OrgWorld :=
  match w.getMembership orgId userId with
  | none => .error (.notFound "Member not found")
  | some _ => do
    w.ensureNotLastOwner orgId userId (some role)
    pure (w.putMember orgId userId role)

def removeMember (orgId userId : String) : Except OrgError OrgWorld :=
  match w.getMembership orgId userId with
  | none => .error (.notFound "Member not found")
  | some _ => do
    w.ensureNotLastOwner orgId userId none
    pure (w.dropMember orgId userId)

end OrgWorld

def OrgChange.apply (w : OrgWorld) : OrgChange → Except OrgError OrgWorld
  | .create orgId name slug owner => w.create orgId name slug owner
  | .update orgId dto => w.update orgId dto
  | .updatePlan orgId dto => w.updatePlan orgId dto
  | .remove orgId => w.remove orgId
  | .addMember orgId user role => w.addMember orgId user role
  | .updateMember orgId userId role => w.updateMember orgId userId role
  | .removeMember orgId userId => w.removeMember orgId userId

/-- Changes one after the other; one that throws changes nothing. -/
def administered (w : OrgWorld) (changes : List OrgChange) : OrgWorld :=
  changes.foldl (fun w change => (change.apply w).toOption.getD w) w

/-- Suspended, deleted or not there. -/
def AuthStore.Shut (s : AuthStore) (orgId : String) : Prop :=
  ∀ org, s.getById orgId = some org → org.status ≠ .active

/-- The route turns the member away whatever the organisation's status is: it
asks for a super admin, or for a higher role than the member has. -/
def TurnsAway (req : AuthenticateRequest) (user : User) (orgId : String) (m : OrganizationUser)
    (role : OrgRole) : Prop :=
  (req.options.superAdmin = some true ∧ user.isSuperAdmin = false) ∨
    ((orgId = "" ∨ m.role.rank < role.rank) ∧
      (user.isSuperAdmin && req.options.allowSuperAdmin.getD false &&
        req.pathParams.eventId.isNone) = false)

section Members

variable {hashSha256 : String → Digest} {s : AuthStore} {now : ℕ} {req : AuthenticateRequest}
  {auth : AuthDto} {user : User} {role : OrgRole} {orgId : String} {m : OrganizationUser}

/-- A request is a user's or a participant's. -/
theorem validate_user (h : validate hashSha256 s now req = .ok auth)
    (huser : auth.user = some user) :
    auth.participant = none := by
  unfold validate at h
  cases hgallery : validateGallery hashSha256 s req with
  | error e =>
    rw [hgallery] at h
    cases h
  | ok participant =>
    rw [hgallery] at h
    cases participant with
    | some participant =>
      cases h
      cases huser
    | none =>
      change validateSession hashSha256 s now req.headers = .ok auth at h
      unfold validateSession at h
      cases htoken : extractSessionToken req.headers with
      | error e =>
        rw [htoken] at h
        cases h
      | ok token =>
        rw [htoken] at h
        cases token with
        | none =>
          cases h
          rfl
        | some token =>
          change (if token = "" then _ else _) = _ at h
          split at h
          · cases h
            rfl
          · cases hsession : s.getByToken now (hashSha256 token) with
            | none =>
              rw [hsession] at h
              cases h
              rfl
            | some session =>
              rw [hsession] at h
              cases h
              rfl

/-- Whether a member is let in does not depend on the organisation's row. -/
theorem member_accepted (hvalid : validate hashSha256 s now req = .ok auth)
    (huser : auth.user = some user) (hrole : req.options.orgRole = some role)
    (haddressed : addressedOrg s req.pathParams = some orgId)
    (hmember : s.getMembership orgId user.id = some m) :
    (∃ auth', authenticate hashSha256 s now req = .ok auth') ↔
    ¬ TurnsAway req user orgId m role := by
  have hguest : ¬ (req.options.participant = some true ∧ auth.participant ≠ none) :=
    fun h => h.2 (validate_user hvalid huser)
  have haccepted : (∃ auth', authenticate hashSha256 s now req = .ok auth') ↔
      authorize s req auth = .ok () := by
    constructor
    · rintro ⟨auth', h⟩
      obtain ⟨hvalid', hchecked⟩ := authenticate_ok.mp h
      rw [hvalid] at hvalid'
      cases hvalid'
      exact hchecked
    · exact fun h => ⟨auth, authenticate_ok.mpr ⟨hvalid, h⟩⟩
  rw [haccepted]
  unfold authorize TurnsAway
  rw [if_neg hguest, huser]
  simp only [hrole]
  by_cases hadmin : req.options.superAdmin = some true ∧ user.isSuperAdmin = false
  · rw [if_pos hadmin]
    constructor
    · intro h
      cases h
    · intro h
      exact absurd (.inl hadmin) h
  · rw [if_neg hadmin, verifyOrgRole_ok, or_iff_right hadmin, not_and_or, Bool.not_eq_false,
      or_comm]
    refine or_congr_left ?_
    constructor
    · rintro ⟨k, m', hk, hempty, hm', hrank⟩
      rw [haddressed] at hk
      cases hk
      rw [hmember] at hm'
      cases hm'
      exact fun h => h.elim hempty (by omega)
    · intro h
      obtain ⟨hempty, hrank⟩ := not_or.mp h
      exact ⟨orgId, m, haddressed, hempty, hmember, Nat.le_of_not_lt hrank⟩

end Members

/-- After any changes, a member of an organisation is kept out once it is shut
exactly where the route would turn them away in any case. -/
theorem shut_closed_iff {hashSha256 : String → Digest} {w : OrgWorld} {changes : List OrgChange}
    {now : ℕ} {req : AuthenticateRequest} {auth : AuthDto} {user : User} {role : OrgRole}
    {orgId : String} {m : OrganizationUser}
    (hvalid : validate hashSha256 (administered w changes).toAuthStore now req = .ok auth)
    (huser : auth.user = some user) (hrole : req.options.orgRole = some role)
    (haddressed : addressedOrg (administered w changes).toAuthStore req.pathParams = some orgId)
    (hmember : (administered w changes).getMembership orgId user.id = some m) :
    ((administered w changes).Shut orgId →
        ¬ ∃ auth',
        authenticate hashSha256 (administered w changes).toAuthStore now req = .ok auth') ↔
      ¬ (administered w changes).Shut orgId ∨ TurnsAway req user orgId m role := by
  rw [member_accepted hvalid huser hrole haddressed hmember, not_not, imp_iff_not_or]

def studioWorld : OrgWorld := { toAuthStore := studioStore }

/-- The studio is suspended. -/
def suspension : List OrgChange := [.update "org" { status := some .suspended }]

theorem not_shut_closed : ¬ ∀ hashSha256 (w : OrgWorld) changes now req auth user role orgId m,
    validate hashSha256 (administered w changes).toAuthStore now req = .ok auth →
      auth.user = some user → req.options.orgRole = some role →
      addressedOrg (administered w changes).toAuthStore req.pathParams = some orgId →
      (administered w changes).getMembership orgId user.id = some m →
      (administered w changes).Shut orgId →
      ¬ ∃ auth',
      authenticate hashSha256 (administered w changes).toAuthStore now req = .ok auth' := by
  intro h
  refine h id studioWorld suspension 0 (eventRequest "two") _ _ .member "org" _ rfl rfl rfl rfl rfl
    ?_ ⟨_, rfl⟩
  intro org horg
  cases horg
  decide

def staff : User := { id := "staff", email := "staff@studio" }

theorem shut_closed_iff_suspended :
    ((administered studioWorld suspension).Shut "org" →
        ¬ ∃ auth', authenticate id (administered studioWorld suspension).toAuthStore 0
          (eventRequest "two") = .ok auth') ↔
      ¬ (administered studioWorld suspension).Shut "org" ∨
        TurnsAway (eventRequest "two") staff "org" ⟨"org", "staff", .admin⟩ .member := by
  have hvalid : validate id (administered studioWorld suspension).toAuthStore 0
      (eventRequest "two") = .ok ⟨some staff, some ⟨"2", "staff", "two", none⟩, none⟩ := by
    decide
  exact shut_closed_iff hvalid rfl rfl (by decide) (by decide)

end EventLens.Auth
