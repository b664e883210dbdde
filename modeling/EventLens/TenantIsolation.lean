import EventLens.TenantViews

/-!
Isolation of the read routes. The guard lets in members of the addressed
organisation, and super admins on the two routes that show administrative data;
what they are answered depends on that data alone. A cover taken from another
organisation, and the one route without a guard, are what breaks this.
-/

namespace EventLens.Tenants

open Auth (AuthenticateOptions AuthDto User OrgRole verifyOrgRole)

/-- The organisations, their members, and the users who are members of any. -/
def TenantStore.administration (s : TenantStore) : TenantStore :=
  { users := s.users.filter (fun u => s.members.any (fun m => m.userId = u.id))
    orgs := s.orgs
    members := s.members }

section Isolation

variable (hashSha256 : String → Auth.Digest)

/-- The caller, as their credentials say. -/
def caller (s : TenantStore) (now : ℕ) (r : OrgRequest) : Except Auth.AuthError AuthDto :=
  Auth.validate hashSha256 s.auth now (r.authenticating {})

/-- The caller is a member of the organisation. -/
def Belongs (s : TenantStore) (now : ℕ) (r : OrgRequest) (orgId : String) : Prop :=
  ∃ auth user, caller hashSha256 s now r = .ok auth ∧ auth.user = some user ∧
    (s.auth.getMembership orgId user.id).isSome

/-- The caller is the same, and so is all data of the organisations they belong
to; for a super admin, the administrative data of all. -/
structure Agree (s₁ s₂ : TenantStore) (now : ℕ) (r : OrgRequest) : Prop where
  caller : caller hashSha256 s₁ now r = caller hashSha256 s₂ now r
  own : ∀ orgId, Belongs hashSha256 s₁ now r orgId ∨ Belongs hashSha256 s₂ now r orgId →
    s₁.view orgId = s₂.view orgId
  administrative : ∀ auth user, Tenants.caller hashSha256 s₁ now r = .ok auth →
    auth.user = some user → user.isSuperAdmin = true → s₁.administration = s₂.administration

variable {hashSha256} {services : CloudServices} {s s₁ s₂ : TenantStore} {now : ℕ} {r : OrgRequest}

theorem administration_getById (orgId : String) :
    s.administration.getById orgId = s.getById orgId :=
  rfl

theorem administration_listMembers (orgId : String) :
    s.administration.listMembers orgId = s.listMembers orgId := by
  unfold TenantStore.listMembers
  refine List.filterMap_congr fun m hm => ?_
  have huser : s.administration.users.find? (fun u => u.id = m.userId ∧ u.deleted = false) =
      s.users.find? (fun u => u.id = m.userId ∧ u.deleted = false) := by
    refine find?_cut fun u _ hu =>
      List.any_eq_true.mpr ⟨m, (List.mem_filter.mp hm).1, decide_eq_true ?_⟩
    exact (of_decide_eq_true hu).1.symm
  rw [huser]

/-- The routes open to super admins are answered from administrative data. -/
theorem answer_administration {options : AuthenticateOptions} {route : OrgRoute}
    (hroute : route.options = some options) (hallow : options.allowSuperAdmin.getD false = true)
    (orgId userId : String) :
    route.answer services now s.administration orgId userId =
      route.answer services now s orgId userId := by
  cases route with
  | organization => rw [OrgRoute.answer, administration_getById, OrgRoute.answer]
  | members => rw [OrgRoute.answer, administration_listMembers, OrgRoute.answer]
  | quota => cases hroute
  | shell => cases hroute; cases hallow
  | usage => cases hroute; cases hallow
  | notifications => cases hroute; cases hallow
  | people => cases hroute; cases hallow
  | mapMarkers => cases hroute; cases hallow
  | events => cases hroute; cases hallow
  | assets limit cursor => cases hroute; cases hallow
  | authorize provider => cases hroute; cases hallow
  | accounts => cases hroute; cases hallow
  | folders accountId parentId => cases hroute; cases hallow

theorem quota_of_public {route : OrgRoute} (hroute : route.options = none) : route = .quota := by
  cases route with
  | quota => rfl
  | _ => cases hroute

/-- A route with a guard asks for a role in the organisation, and nothing else. -/
theorem options_guarded {options : AuthenticateOptions} {route : OrgRoute}
    (hroute : route.options = some options) :
    ∃ role, options = { orgRole := some role, allowSuperAdmin := options.allowSuperAdmin } := by
  cases route with
  | quota => cases hroute
  | _ =>
    cases hroute
    exact ⟨_, rfl⟩

theorem authorize_guarded {options : AuthenticateOptions} {role : OrgRole}
    (hoptions : options = { orgRole := some role, allowSuperAdmin := options.allowSuperAdmin })
    (auth : AuthDto) :
    Auth.authorize s.auth (r.authenticating options) auth =
      match auth.user with
      | none => .error (.unauthorized "Authentication required")
      | some user =>
        verifyOrgRole s.auth user role { orgId := some r.orgId }
          (options.allowSuperAdmin.getD false) := by
  rw [hoptions]
  obtain ⟨user, session, participant⟩ := auth
  cases user with
  | none => simp [Auth.authorize, OrgRequest.authenticating]
  | some user => simp [Auth.authorize, OrgRequest.authenticating]

/-- The check of a role reads the caller's membership only. -/
theorem verifyOrgRole_congr {user : User} {role : OrgRole} {orgId : Auth.Segment} {allow : Bool}
    (h : s₁.auth.getMembership orgId user.id = s₂.auth.getMembership orgId user.id) :
    verifyOrgRole s₁.auth user role { orgId := some orgId } allow =
      verifyOrgRole s₂.auth user role { orgId := some orgId } allow := by
  simp only [verifyOrgRole, Auth.addressedOrg]
  rw [h]

/-- Who agree on the caller's organisations agree on their memberships. -/
theorem membership_agree (hagree : Agree hashSha256 s₁ s₂ now r) {auth : AuthDto} {user : User}
    (hcaller : caller hashSha256 s₁ now r = .ok auth) (huser : auth.user = some user)
    (orgId : String) :
    s₁.auth.getMembership orgId user.id = s₂.auth.getMembership orgId user.id := by
  by_cases hmember : Belongs hashSha256 s₁ now r orgId ∨ Belongs hashSha256 s₂ now r orgId
  · rw [← view_getMembership (s := s₁), hagree.own orgId hmember, view_getMembership]
  · obtain ⟨hnot₁, hnot₂⟩ := not_or.mp hmember
    have hnone₁ : s₁.auth.getMembership orgId user.id = none := by
      refine Option.not_isSome_iff_eq_none.mp fun h => hnot₁ ⟨auth, user, hcaller, huser, h⟩
    have hnone₂ : s₂.auth.getMembership orgId user.id = none := by
      refine Option.not_isSome_iff_eq_none.mp fun h => hnot₂ ⟨auth, user, ?_, huser, h⟩
      rw [← hagree.caller, hcaller]
    rw [hnone₁, hnone₂]

theorem canActivate_agree (hagree : Agree hashSha256 s₁ s₂ now r) :
    canActivate hashSha256 s₁ now r = canActivate hashSha256 s₂ now r := by
  cases hroute : r.route.options with
  | none =>
    unfold canActivate
    rw [hroute]
  | some options =>
    obtain ⟨role, hoptions⟩ := options_guarded hroute
    have hsame : Auth.authenticate hashSha256 s₁.auth now (r.authenticating options) =
        Auth.authenticate hashSha256 s₂.auth now (r.authenticating options) := by
      change (caller hashSha256 s₁ now r >>= _) = (caller hashSha256 s₂ now r >>= _)
      rw [← hagree.caller]
      cases hcaller : caller hashSha256 s₁ now r with
      | error e => rfl
      | ok auth =>
        change (Auth.authorize _ _ auth >>= _) = (Auth.authorize _ _ auth >>= _)
        rw [authorize_guarded hoptions, authorize_guarded hoptions]
        cases huser : auth.user with
        | none => rfl
        | some user =>
          simp only
          rw [verifyOrgRole_congr (membership_agree hagree hcaller huser r.orgId)]
    unfold canActivate
    rw [hroute]
    simp only
    rw [hsame]

/-- Who passes a guard is a member of the organisation, or a super admin on a
route that lets them in. -/
theorem belongs_of_canActivate {options : AuthenticateOptions}
    (hroute : r.route.options = some options)
    {auth : AuthDto} (h : canActivate hashSha256 s now r = .ok auth) :
    caller hashSha256 s now r = .ok auth ∧ (Belongs hashSha256 s now r r.orgId ∨
      ∃ user, auth.user = some user ∧ user.isSuperAdmin = true ∧
        options.allowSuperAdmin.getD false = true) := by
  obtain ⟨role, hoptions⟩ := options_guarded hroute
  have hauth : Auth.authenticate hashSha256 s.auth now (r.authenticating options) = .ok auth := by
    unfold canActivate at h
    rw [hroute] at h
    simp only at h
    cases hresult : Auth.authenticate hashSha256 s.auth now (r.authenticating options) with
    | error e =>
      rw [hresult] at h
      cases h
    | ok found =>
      rw [hresult] at h
      cases h
      rfl
  obtain ⟨hcaller, hchecked⟩ := Auth.authenticate_ok.mp hauth
  rw [authorize_guarded hoptions] at hchecked
  refine ⟨hcaller, ?_⟩
  cases huser : auth.user with
  | none =>
    rw [huser] at hchecked
    cases hchecked
  | some user =>
    rw [huser] at hchecked
    rcases Auth.verifyOrgRole_ok.mp hchecked with hsuper | ⟨orgId, m, haddressed, -, hmember, -⟩
    · simp only [Bool.and_eq_true] at hsuper
      exact .inr ⟨user, rfl, hsuper.1.1, hsuper.1.2⟩
    · cases haddressed
      exact .inl ⟨auth, user, hcaller, huser, hmember ▸ rfl⟩

/-- What is sound is answered alike where all data of the organisation is alike. -/
theorem answer_same (hsound₁ : s₁.links.Sound) (hsound₂ : s₂.links.Sound) {orgId : String}
    (hview : s₁.view orgId = s₂.view orgId) (userId : String) (route : OrgRoute) :
    route.answer services now s₁ orgId userId = route.answer services now s₂ orgId userId :=
  calc route.answer services now s₁ orgId userId
      = route.answer services now (s₁.view orgId) orgId userId :=
        (answer_view hsound₁ services now userId route).symm
    _ = route.answer services now (s₂.view orgId) orgId userId := by rw [hview]
    _ = route.answer services now s₂ orgId userId := answer_view hsound₂ services now userId route

/-- It is enough to compare the organisations with a row for the caller. -/
theorem agree_of_members (auth : AuthDto) (hcaller₁ : caller hashSha256 s₁ now r = .ok auth)
    (hcaller₂ : caller hashSha256 s₂ now r = .ok auth)
    (hrows : ∀ user ∈ auth.user, user.isSuperAdmin = false ∧
      ∀ m ∈ s₁.members ++ s₂.members, m.userId = user.id → s₁.view m.orgId = s₂.view m.orgId) :
    Agree hashSha256 s₁ s₂ now r := by
  have hown : ∀ s, s = s₁ ∨ s = s₂ → caller hashSha256 s now r = .ok auth → ∀ orgId,
      Belongs hashSha256 s now r orgId → s₁.view orgId = s₂.view orgId := by
    rintro s hs hcaller orgId ⟨auth', user, hcaller', huser, hmember⟩
    rw [hcaller] at hcaller'
    cases hcaller'
    obtain ⟨m, hm⟩ := Option.isSome_iff_exists.mp hmember
    have hrow : m ∈ s.members := List.mem_of_find?_eq_some hm
    have hkey : m.orgId = orgId ∧ m.userId = user.id := by simpa using List.find?_some hm
    rw [← hkey.1]
    refine (hrows user huser).2 m (List.mem_append.mpr ?_) hkey.2
    rcases hs with rfl | rfl
    · exact .inl hrow
    · exact .inr hrow
  refine ⟨hcaller₁.trans hcaller₂.symm, fun orgId hmember => ?_,
    fun auth' user h huser hsuper => ?_⟩
  · rcases hmember with hmember | hmember
    · exact hown s₁ (.inl rfl) hcaller₁ orgId hmember
    · exact hown s₂ (.inr rfl) hcaller₂ orgId hmember
  · rw [hcaller₁] at h
    cases h
    rw [(hrows user huser).1] at hsuper
    cases hsuper

end Isolation

/-- Two databases that agree on what concerns the caller answer alike, if every
cover was set from the event's own organisation, and the request is not for the
quota of an organisation the caller does not belong to. -/
theorem reads_isolated (hashSha256 : String → Auth.Digest) (services : CloudServices)
    {changes₁ changes₂ : List Change} (hcovers₁ : OwnCovers {} changes₁)
    (hcovers₂ : OwnCovers {} changes₂) {now : ℕ} {r : OrgRequest}
    (hquota : r.route = .quota → Belongs hashSha256 (after changes₁) now r r.orgId)
    (hagree : Agree hashSha256 (after changes₁) (after changes₂) now r) :
    respond hashSha256 services (after changes₁) now r =
      respond hashSha256 services (after changes₂) now r := by
  have hsound₁ := sound_after hcovers₁
  have hsound₂ := sound_after hcovers₂
  unfold respond
  rw [← canActivate_agree hagree]
  cases hactive : canActivate hashSha256 (after changes₁) now r with
  | error e => rfl
  | ok auth =>
    change r.route.answer services now (after changes₁) r.orgId _ =
      r.route.answer services now (after changes₂) r.orgId _
    cases hroute : r.route.options with
    | none =>
      have hbelongs := hquota (quota_of_public hroute)
      exact answer_same hsound₁ hsound₂ (hagree.own r.orgId (.inl hbelongs)) _ _
    | some options =>
      obtain ⟨hcaller, hbelongs | ⟨user, huser, hsuper, hallow⟩⟩ :=
        belongs_of_canActivate hroute hactive
      · exact answer_same hsound₁ hsound₂ (hagree.own r.orgId (.inl hbelongs)) _ _
      · rw [← answer_administration hroute hallow, ← answer_administration hroute hallow (s :=
          after changes₂),
          hagree.administrative auth user hcaller huser hsuper]

/-- Two organisations, each with its owner. -/
def ashAndBirch : List Change :=
  [.organization (.create "ash" "Ash" "ash"
    { id := "ann", email := "ann@ash", password := some "secret" }),
    .organization (.create "birch" "Birch" "birch"
      { id := "bob", email := "bob@birch", password := some "secret" }),
    .openSession { id := "0", userId := "bob", token := "one" },
    .createEvent "gala" "ash" "Gala" "gala", .createEvent "ball" "birch" "Ball" "ball"]

def photoOfAsh (storageKey : String) : List Change :=
  [.createAsset "photo" "gala" .image "photo.jpg" "original" 100,
    .upsertFile { assetId := "photo", type := .thumbnail, storageKey := storageKey }]

/-- The owner of Birch asks. -/
def asksBirch (route : OrgRoute) : OrgRequest :=
  { headers := { authorization := some "Bearer one" }, orgId :=
    ⟨"birch", by decide⟩, route := route }

def noCloud : CloudServices :=
  { decrypt := id
    encryptState := fun _ => "state"
    authorizeUrl := fun _ state => state
    refresh := fun _ _ => none
    listFolders := fun _ _ _ => none }

def bobSession : AuthDto :=
  { user := some { id := "bob", email := "bob@birch" }
    session := some { id := "0", userId := "bob", token := "one" } }

theorem reads_isolated_birch :
    Agree id (after ashAndBirch) (after (ashAndBirch ++ photoOfAsh "thumb")) 0 (asksBirch .shell) ∧
      respond id noCloud (after ashAndBirch) 0 (asksBirch .shell) =
        respond id noCloud (after (ashAndBirch ++ photoOfAsh "thumb")) 0 (asksBirch .shell) := by
  have hagree : Agree id (after ashAndBirch) (after (ashAndBirch ++ photoOfAsh "thumb")) 0
      (asksBirch .shell) :=
    agree_of_members bobSession (by decide +kernel) (by decide +kernel) (by decide +kernel)
  refine ⟨hagree, reads_isolated id noCloud ?_ ?_ (fun h => ?_) hagree⟩
  · exact ⟨trivial, trivial, trivial, trivial, trivial, trivial⟩
  · exact ⟨trivial, trivial, trivial, trivial, trivial, trivial, trivial, trivial⟩
  · cases h

/-- Without credentials, the quota of Ash tells of its photos. -/
theorem not_reads_isolated : ¬ ∀ hashSha256 services (changes₁ changes₂ : List Change) now r,
    Agree hashSha256 (after changes₁) (after changes₂) now r →
      respond hashSha256 services (after changes₁) now r =
        respond hashSha256 services (after changes₂) now r := by
  intro h
  have hsame := h id noCloud ashAndBirch (ashAndBirch ++ photoOfAsh "thumb") 0
    { orgId := ⟨"ash", by decide⟩, route := .quota }
    (agree_of_members {} (by decide) (by decide) (by decide))
  exact absurd hsame (by decide +kernel)

/-- A cover from Ash shows in the shell of Birch. -/
theorem covers_cross : ¬ ∀ hashSha256 services (changes₁ changes₂ : List Change) now r,
    r.route ≠ .quota → Agree hashSha256 (after changes₁) (after changes₂) now r →
      respond hashSha256 services (after changes₁) now r =
        respond hashSha256 services (after changes₂) now r := by
  intro h
  let covered := [Change.setCover "ball" (some "photo")]
  have hsame := h id noCloud (ashAndBirch ++ photoOfAsh "one" ++ covered)
    (ashAndBirch ++ photoOfAsh "two" ++ covered) 0 (asksBirch .shell) (by decide)
    (agree_of_members bobSession (by decide +kernel) (by decide +kernel) (by decide +kernel))
  exact absurd hsame (by decide +kernel)

end EventLens.Tenants
