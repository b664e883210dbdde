import EventLens.AuthService

/-!
What being a super admin changes. Outside the routes that opted in, and on
every route of an event, a request is decided as if the flag were cleared; and
a higher role in an organisation is never worse than a lower one.
-/

namespace EventLens.Auth

/-- The user with this id, no longer a super admin. -/
def User.clearSuperAdmin (userId : String) (user : User) : User :=
  if user.id = userId then { user with isSuperAdmin := false } else user

def AuthStore.clearSuperAdmin (s : AuthStore) (userId : String) : AuthStore :=
  { s with users := s.users.map (User.clearSuperAdmin userId) }

def AuthDto.clearSuperAdmin (userId : String) (auth : AuthDto) : AuthDto :=
  { auth with user := auth.user.map (User.clearSuperAdmin userId) }

def AuthStore.setRole (s : AuthStore) (orgId userId : String) (role : OrgRole) : AuthStore :=
  { s with
    members := s.members.map (fun m =>
      if m.orgId = orgId ∧ m.userId = userId then { m with role := role } else m) }

/-- The role is at least the one the user has. -/
def AuthStore.Promotes (s : AuthStore) (orgId userId : String) (role : OrgRole) : Prop :=
  ∀ m ∈ s.members, m.orgId = orgId → m.userId = userId → m.role.rank ≤ role.rank

instance (s : AuthStore) (orgId userId : String) (role : OrgRole) :
    Decidable (s.Promotes orgId userId role) := by
  unfold AuthStore.Promotes
  infer_instance

/-- A super admin gains nothing here: the path carries an event, or the route
did not opt in. -/
def AuthenticateRequest.Closed (req : AuthenticateRequest) : Prop :=
  req.pathParams.eventId ≠ none ∨ req.options.allowSuperAdmin ≠ some true

instance (req : AuthenticateRequest) : Decidable req.Closed := by
  unfold AuthenticateRequest.Closed
  infer_instance

section Clearing

variable (hashSha256 : String → Digest) (s : AuthStore) (userId : String)

@[simp] theorem clearSuperAdmin_id (user : User) : (user.clearSuperAdmin userId).id = user.id := by
  unfold User.clearSuperAdmin
  split <;> rfl

@[simp] theorem clearSuperAdmin_deleted (user : User) :
    (user.clearSuperAdmin userId).deleted = user.deleted := by
  unfold User.clearSuperAdmin
  split <;> rfl

theorem getUser_cleared (k : String) :
    (s.clearSuperAdmin userId).getUser k = (s.getUser k).map (User.clearSuperAdmin userId) := by
  rw [AuthStore.getUser, AuthStore.clearSuperAdmin, List.find?_map]
  have hsame : (fun user : User => decide (user.id = k ∧ user.deleted = false)) ∘
      User.clearSuperAdmin userId = fun user => decide (user.id = k ∧ user.deleted = false) := by
    funext user
    simp
  rw [hsame]
  rfl

theorem validateSession_cleared (now : ℕ) (headers : Headers) :
    validateSession hashSha256 (s.clearSuperAdmin userId) now headers =
      (validateSession hashSha256 s now headers).map (AuthDto.clearSuperAdmin userId) := by
  unfold validateSession
  cases extractSessionToken headers with
  | error e => rfl
  | ok token =>
    cases token with
    | none => rfl
    | some token =>
      change (if token = "" then _ else _) = Except.map _ (if token = "" then _ else _)
      by_cases hempty : token = ""
      · rw [if_pos hempty, if_pos hempty]
        rfl
      · rw [if_neg hempty, if_neg hempty]
        have hfound : (s.clearSuperAdmin userId).getByToken now (hashSha256 token) =
            (s.getByToken now (hashSha256 token)).map
              (fun found => (found.1, found.2.clearSuperAdmin userId)) := by
          unfold AuthStore.getByToken
          have hsession : (s.clearSuperAdmin userId).getSession now (hashSha256 token) =
            s.getSession now (hashSha256 token) := rfl
          rw [hsession]
          cases s.getSession now (hashSha256 token) with
          | none => rfl
          | some session =>
            simp only [Option.bind_eq_bind, Option.bind_some, getUser_cleared]
            cases s.getUser session.userId <;> rfl
        rw [hfound]
        cases s.getByToken now (hashSha256 token) <;> rfl

theorem validate_cleared (now : ℕ) (req : AuthenticateRequest) :
    validate hashSha256 (s.clearSuperAdmin userId) now req =
      (validate hashSha256 s now req).map (AuthDto.clearSuperAdmin userId) := by
  unfold validate
  have hgallery : validateGallery hashSha256 (s.clearSuperAdmin userId) req =
      validateGallery hashSha256 s req := rfl
  rw [hgallery]
  cases validateGallery hashSha256 s req with
  | error e => rfl
  | ok participant =>
    cases participant with
    | some participant => rfl
    | none => exact validateSession_cleared hashSha256 s userId now req.headers

theorem verifyOrgRole_cleared (user : User) (role : OrgRole) {req : AuthenticateRequest}
    (hclosed : req.Closed) :
    verifyOrgRole (s.clearSuperAdmin userId) (user.clearSuperAdmin userId) role req.pathParams
        (req.options.allowSuperAdmin.getD false) =
      verifyOrgRole s user role req.pathParams (req.options.allowSuperAdmin.getD false) := by
  have hbypass : ∀ flag : Bool, (flag && req.options.allowSuperAdmin.getD false &&
      req.pathParams.eventId.isNone) = false := by
    intro flag
    rcases hclosed with hevent | hroute
    · obtain ⟨eventId, heventId⟩ := Option.ne_none_iff_exists'.mp hevent
      rw [heventId, Option.isNone_some, Bool.and_false]
    · have hallow : req.options.allowSuperAdmin.getD false = false := by
        cases hoption : req.options.allowSuperAdmin with
        | none => rfl
        | some flag =>
          cases flag with
          | true => exact absurd hoption hroute
          | false => rfl
      rw [hallow, Bool.and_false, Bool.false_and]
  unfold verifyOrgRole
  rw [hbypass, hbypass, clearSuperAdmin_id]
  rfl

theorem authorize_cleared (auth : AuthDto) {req : AuthenticateRequest}
    (hroute : req.options.superAdmin ≠ some true) (hclosed : req.Closed) :
    authorize (s.clearSuperAdmin userId) req (auth.clearSuperAdmin userId) =
      authorize s req auth := by
  obtain ⟨user, session, participant⟩ := auth
  unfold authorize
  have hparticipant : (AuthDto.clearSuperAdmin userId ⟨user, session, participant⟩).participant =
      participant := rfl
  rw [hparticipant]
  split
  · rfl
  · cases user with
    | none => rfl
    | some user =>
      change (if _ then _ else _) = (if _ then _ else _)
      rw [if_neg (fun h => hroute h.1), if_neg (fun h => hroute h.1)]
      cases req.options.orgRole with
      | none => rfl
      | some role => exact verifyOrgRole_cleared s userId user role hclosed

theorem authenticate_cleared (now : ℕ) {req : AuthenticateRequest}
    (hroute : req.options.superAdmin ≠ some true) (hclosed : req.Closed) :
    authenticate hashSha256 (s.clearSuperAdmin userId) now req =
      (authenticate hashSha256 s now req).map (AuthDto.clearSuperAdmin userId) := by
  unfold authenticate
  rw [validate_cleared]
  cases validate hashSha256 s now req with
  | error e => rfl
  | ok auth =>
    change (authorize _ req (auth.clearSuperAdmin userId) >>= fun _ => _) =
      Except.map _ (authorize s req auth >>= fun _ => _)
    rw [authorize_cleared s userId auth hroute hclosed]
    cases authorize s req auth <;> rfl

end Clearing

section Promotion

variable {hashSha256 : String → Digest} {s : AuthStore} {orgId userId : String} {role : OrgRole}

/-- The organisation of a promotion still knows the user, in no lower role. -/
theorem getMembership_promoted (hpromotes : s.Promotes orgId userId role) {k userId' : String}
    {m : OrganizationUser} (h : s.getMembership k userId' = some m) :
    ∃ m', (s.setRole orgId userId role).getMembership k userId' = some m' ∧
      m.role.rank ≤ m'.role.rank := by
  have hmem := List.mem_of_find?_eq_some h
  rw [AuthStore.getMembership, AuthStore.setRole, List.find?_map]
  have hsame : (fun m : OrganizationUser => decide (m.orgId = k ∧ m.userId = userId')) ∘
      (fun m : OrganizationUser =>
        if m.orgId = orgId ∧ m.userId = userId then { m with role := role } else m) =
      fun m => decide (m.orgId = k ∧ m.userId = userId') := by
    funext m
    simp only [Function.comp_apply]
    split <;> rfl
  have hfound : s.members.find? (fun m => decide (m.orgId = k ∧ m.userId = userId')) = some m := h
  rw [hsame, hfound]
  refine ⟨_, rfl, ?_⟩
  change m.role.rank ≤ (if m.orgId = orgId ∧ m.userId = userId then _ else m).role.rank
  by_cases hkey : m.orgId = orgId ∧ m.userId = userId
  · rw [if_pos hkey]
    exact hpromotes m hmem hkey.1 hkey.2
  · rw [if_neg hkey]

theorem verifyOrgRole_promoted (hpromotes : s.Promotes orgId userId role) {user : User}
    {requiredRole : OrgRole} {params : PathParams} {allowSuperAdmin : Bool}
    (h : verifyOrgRole s user requiredRole params allowSuperAdmin = .ok ()) :
    verifyOrgRole (s.setRole orgId userId role) user requiredRole params allowSuperAdmin =
      .ok () := by
  rcases verifyOrgRole_ok.mp h with hbypass | ⟨k, m, haddressed, hk, hmember, hrank⟩
  · exact verifyOrgRole_ok.mpr (.inl hbypass)
  · obtain ⟨m', hm', hhigher⟩ := getMembership_promoted hpromotes hmember
    exact verifyOrgRole_ok.mpr (.inr ⟨k, m', haddressed, hk, hm', hrank.trans hhigher⟩)

theorem authorize_promoted (hpromotes : s.Promotes orgId userId role) {req : AuthenticateRequest}
    {auth : AuthDto} (h : authorize s req auth = .ok ()) :
    authorize (s.setRole orgId userId role) req auth = .ok () := by
  unfold authorize at h ⊢
  by_cases hguest : req.options.participant = some true ∧ auth.participant ≠ none
  · rw [if_pos hguest]
  · rw [if_neg hguest] at h ⊢
    cases huser : auth.user with
    | none =>
      rw [huser] at h
      cases h
    | some user =>
      simp only [huser] at h ⊢
      by_cases hadmin : req.options.superAdmin = some true ∧ user.isSuperAdmin = false
      · rw [if_pos hadmin] at h
        cases h
      · rw [if_neg hadmin] at h ⊢
        cases hrole : req.options.orgRole with
        | none => rfl
        | some requiredRole =>
          simp only [hrole] at h ⊢
          exact verifyOrgRole_promoted hpromotes h

theorem authenticate_promoted (hpromotes : s.Promotes orgId userId role) {now : ℕ}
    {req : AuthenticateRequest} {auth : AuthDto}
    (h : authenticate hashSha256 s now req = .ok auth) :
    authenticate hashSha256 (s.setRole orgId userId role) now req = .ok auth := by
  obtain ⟨hvalid, hchecked⟩ := authenticate_ok.mp h
  exact authenticate_ok.mpr ⟨hvalid, authorize_promoted hpromotes hchecked⟩

end Promotion

/-- A super admin is treated as the same user without the flag wherever the
path carries an event or the route did not opt in, and a promotion never turns
an acceptance into a rejection. -/
theorem super_admin_scoped (hashSha256 : String → Digest) (s : AuthStore) (now : ℕ)
    (req : AuthenticateRequest) :
    (req.options.superAdmin ≠ some true → req.Closed → ∀ userId,
      authenticate hashSha256 (s.clearSuperAdmin userId) now req =
        (authenticate hashSha256 s now req).map (AuthDto.clearSuperAdmin userId)) ∧
    ∀ orgId userId role, s.Promotes orgId userId role → ∀ auth,
      authenticate hashSha256 s now req = .ok auth →
        authenticate hashSha256 (s.setRole orgId userId role) now req = .ok auth :=
  ⟨fun hroute hclosed userId => authenticate_cleared hashSha256 s userId now hroute hclosed,
    fun _ _ _ hpromotes _ h => authenticate_promoted hpromotes h⟩

/-- An organisation with an admin, and a super admin beside it. -/
def studioStore : AuthStore :=
  { users := [{ id := "root", email := "root@studio", isSuperAdmin := true },
      { id := "staff", email := "staff@studio" }]
    sessions := [{ id := "1", userId := "root", token := "one" },
      { id := "2", userId := "staff", token := "two" }]
    orgs := [{ id := "org", plan := .starter, name := "Studio", slug := "studio" }]
    members := [{ orgId := "org", userId := "staff", role := .admin }]
    events := [{ id := "event", orgId := "org" }] }

def eventRequest (token : String) : AuthenticateRequest :=
  { headers := { authorization := some ("Bearer " ++ token) }
    pathParams := { eventId := some ⟨"event", by decide⟩ }
    options := { orgRole := some .member, allowSuperAdmin := some true } }

example : authenticate id studioStore 0 (eventRequest "one") = .error forbidden := by decide

theorem super_admin_scoped_event :
    authenticate id (studioStore.clearSuperAdmin "root") 0 (eventRequest "one") =
        (authenticate id studioStore 0 (eventRequest "one")).map (AuthDto.clearSuperAdmin "root") ∧
      authenticate id (studioStore.setRole "org" "staff" .owner) 0 (eventRequest "two") =
        .ok { user := some { id := "staff", email := "staff@studio" },
              session := some { id := "2", userId := "staff", token := "two" } } :=
  ⟨(super_admin_scoped id studioStore 0 (eventRequest "one")).1 (by decide) (by decide) "root",
    (super_admin_scoped id studioStore 0 (eventRequest "two")).2 "org" "staff" .owner (by decide)
      _ (by decide)⟩

end EventLens.Auth
