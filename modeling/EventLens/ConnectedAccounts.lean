import EventLens.CloudConnections

/-!
Who connects an account. What a call has noted is tied to what was kept count of; so an account
leads back to the browser that brought its state, and from there to the administrator for whom
the state was sealed. A ticket leads back to its own participant.
-/

namespace EventLens.Connections

open Programs Tenants
open Auth (AuthDto OrgRole)
open Import (CloudProvider)

/-! What a call has done. -/

structure Trip where
  call : ConnectionCall
  auth : Option AuthDto := none
  /-- The first reading of the clock. -/
  now : Option Date := none
  opened : Option Payload := none
  tokens : Option OAuthTokens := none

def Trip.first (c : ConnectionCall) : Trip := { call := c }

/-- The call brings back a sealed text. -/
def ConnectionCall.presents : ConnectionCall → Option String
  | .callback _ _ state _ => some state
  | .progress ticket => some ticket
  | _ => none

/-- What an account is made of. -/
structure Trip.Made (setup : Setup) (g : Trip) (account : NewAccount) where
  name : String
  code : String
  text : String
  error : String
  state : OAuthState
  checked : Date
  tokens : OAuthTokens
  refreshToken : String
  call : g.call = .callback name code text error
  named : parseProvider name = .ok account.provider
  opened : g.opened = some (.state state)
  read : g.now = some checked
  inTime : checked ≤ state.exp
  provider : state.provider = account.provider
  orgId : state.orgId = account.orgId
  exchanged : g.tokens = some tokens
  refreshed : tokens.refreshToken = some refreshToken
  kept : account.refreshTokenEnc = setup.encrypt refreshToken

/-- A state is sealed for the caller that was let in, and lasts from the first reading on. -/
def Trip.Seals (g : Trip) (state : OAuthState) : Prop :=
  ∃ r provider auth issued, g.call = .authorize r provider ∧ g.auth = some auth ∧
    g.now = some issued ∧
    state.orgId = r.orgId ∧ state.userId = userIdOf auth ∧ state.exp = issued + STATE_TTL_MS

def trips (setup : Setup) : Contract ConnectionOp ConnectionRes Trip where
  note g
    | ⟨.canActivate _, r⟩ =>
      match (r : Except ReadError AuthDto) with
      | .ok auth => { g with auth := some auth }
      | .error _ => g
    | ⟨.now, t⟩ => { g with now := g.now.or (some t) }
    | ⟨.decryptState _, r⟩ => { g with opened := r }
    | ⟨.exchangeCode _ _ _, r⟩ =>
      match (r : Except ReadError OAuthTokens) with
      | .ok tokens => { g with tokens := some tokens }
      | .error _ => g
    | _ => g
  expects _ _ := True
  permits g
    | .now | .getAccountEmail _ _ => True
    | .canActivate r =>
      ∃ request provider, g.call = .authorize request provider ∧ r = authorizing request provider
    | .encryptState payload => ∀ state, payload = .state state → g.Seals state
    | .decryptState text => g.call.presents = some text
    | .exchangeCode provider code _ => ∃ name text error, g.call = .callback name code text error ∧
        parseProvider name = .ok provider
    | .upsert account => Nonempty (g.Made setup account)

/-- A call that shows a participant has opened a ticket for it. -/
def Trip.Shows (c : ConnectionCall) (value : Except ReadError (Option String)) (g : Trip) : Prop :=
  ∀ ticket p, c = .progress ticket → value = .ok (some p) →
    g.call = .progress ticket ∧ ∃ exp, g.opened = some (.ticket p exp)

section Calls

variable {setup : Setup}

theorem shows_other {c : ConnectionCall} {value : Except ReadError (Option String)} {g : Trip}
    (hc : ∀ ticket, c ≠ .progress ticket) : Trip.Shows c value g :=
  fun ticket _ h _ => absurd h (hc ticket)

theorem follows_authorize (r : OrgRequest) (provider : String) :
    (trips setup).Follows (authorize setup r provider) (Trip.Shows (.authorize r provider))
      (.first (.authorize r provider)) := by
  have hother : ∀ {value : Except ReadError (Option String)} {g : Trip},
      Trip.Shows (.authorize r provider) value g := shows_other fun ticket h => by cases h
  refine ⟨⟨r, provider, rfl, rfl⟩, fun answer _ => ?_⟩
  cases answer with
  | error e => exact hother
  | ok auth =>
    simp only
    cases parseProvider provider with
    | error e => exact hother
    | ok client =>
      refine ⟨trivial, fun issued _ => ⟨fun state h => ?_, fun _ _ => hother⟩⟩
      cases h
      exact ⟨r, provider, auth, issued, rfl, rfl, rfl, rfl, rfl, rfl⟩

theorem follows_connectWith {g : Trip} {name code text error : String} {state : OAuthState}
    {provider : CloudProvider} {checked : Date} {tokens : OAuthTokens}
    {Q : Except ReadError (Option String) → Trip → Prop} (hQ : ∀ value g, Q value g)
    (hcall : g.call = .callback name code text error) (hnamed : parseProvider name = .ok provider)
    (hopened : g.opened = some (.state state)) (hread : g.now = some checked)
    (hvalid : ¬ (state.provider ≠ provider ∨ state.exp < checked))
    (htokens : g.tokens = some tokens) :
    (trips setup).Follows (connectWith setup state provider tokens) Q g := by
  rw [not_or, not_not, not_lt] at hvalid
  unfold connectWith
  cases hrefresh : tokens.refreshToken.filter (· ≠ "") with
  | none => exact hQ _ _
  | some refreshToken =>
    refine ⟨trivial, fun answer _ => ?_⟩
    cases answer with
    | error e => exact hQ _ _
    | ok email =>
      refine ⟨trivial, fun (later : Date) _ => ⟨⟨?_⟩, fun answer _ => ?_⟩⟩
      · exact
          { name := name, code := code, text := text, error := error, state :=
            state, checked := checked
            tokens := tokens, refreshToken := refreshToken, call := hcall, named :=
              hnamed, opened := hopened
            read := by
              show g.now.or (some later) = some checked
              rw [hread]
              rfl
            inTime := hvalid.2, provider := hvalid.1, orgId := rfl, exchanged := htokens
            refreshed := (Option.filter_eq_some_iff.mp hrefresh).1, kept := rfl }
      · cases answer <;> exact hQ _ _

theorem follows_callback (provider code state error : String) :
    (trips setup).Follows (callback setup provider code state error)
    (Trip.Shows (.callback provider code state error))
      (.first (.callback provider code state error)) := by
  have hother : ∀ value g, Trip.Shows (.callback provider code state error) value g :=
    fun _ _ => shows_other fun ticket h => by cases h
  unfold callback
  split
  · exact hother _ _
  cases hnamed : parseProvider provider with
  | error e => exact hother _ _
  | ok client =>
    refine ⟨rfl, fun opened _ => ?_⟩
    rcases opened with - | (state' | ⟨p, exp⟩)
    · exact hother _ _
    · refine ⟨trivial, fun (checked : Date) _ => ?_⟩
      show (trips setup).Follows (ite (state'.provider ≠ client ∨ state'.exp < checked) _ _) _ _
      split
      · exact hother _ _
      next hvalid =>
      refine ⟨⟨provider, state, error, rfl, hnamed⟩, fun answer _ => ?_⟩
      cases answer with
      | error e => exact hother _ _
      | ok tokens => exact follows_connectWith hother rfl hnamed rfl rfl hvalid rfl
    · exact hother _ _

theorem follows_progress (ticket : String) :
    (trips setup).Follows ((ConnectionCall.progress ticket).prog setup)
    (Trip.Shows (.progress ticket))
      (.first (.progress ticket)) := by
  refine ⟨rfl, fun opened _ => ?_⟩
  rcases opened with - | (state | ⟨p, exp⟩)
  · exact fun _ _ _ h => by cases h
  · exact fun _ _ _ h => by cases h
  · refine ⟨trivial, fun (checked : Date) _ => ?_⟩
    by_cases hrefused : p = "" ∨ exp < checked
    · show (trips setup).Follows ((ite (p = "" ∨ exp < checked) _ _ : ConnectionProg _) >>= _) _ _
      rw [if_pos hrefused]
      exact fun _ _ _ h => by cases h
    · show (trips setup).Follows ((ite (p = "" ∨ exp < checked) _ _ : ConnectionProg _) >>= _) _ _
      rw [if_neg hrefused]
      intro ticket' p' hc hvalue
      cases hc
      cases hvalue
      exact ⟨rfl, exp, rfl⟩

theorem calls_trips (c : ConnectionCall) :
    (trips setup).Follows (c.prog setup) (Trip.Shows c) (.first c) := by
  cases c with
  | authorize r provider => exact follows_authorize r provider
  | callback provider code state error => exact follows_callback provider code state error
  | progress ticket => exact follows_progress ticket
  | submitSelfie participantId =>
    refine ⟨trivial, fun issued _ => ⟨fun state h => (by cases h), fun _ _ => ?_⟩⟩
    exact shows_other fun ticket h => by cases h
  | change c => exact shows_other fun ticket h => by cases h

end Calls

/-! What holds at every moment. -/

/-- A state was sealed for someone who could administer its organisation a moment before. -/
structure Issued (s : World) (time : Date) (state : OAuthState) : Prop where
  lasts : state.exp ≤ time + STATE_TTL_MS
  admitted : ∃ a ∈ s.admissions, a.orgId = state.orgId ∧ a.userId = state.userId ∧
    OrgRole.admin.rank ≤ a.role.rank ∧ a.time ≤ time

/-- A browser came back with the state before it ran out, and the code it brought was good for
the tokens that are kept. -/
structure Brings (setup : Setup) (s : World) (account : CloudAccount) (state : OAuthState)
    (v : Visit) : Prop where
  visited : v ∈ s.visits
  opens : setup.decryptState v.state = some (.state state)
  inTime : v.time ≤ state.exp
  named : parseProvider v.provider = .ok account.provider
  orgId : state.orgId = account.orgId
  provider : state.provider = account.provider
  exchanged : ∃ e ∈ s.exchanges, e.provider = account.provider ∧ e.code = v.code ∧
    ∃ refreshToken, e.tokens.refreshToken = some refreshToken ∧
      account.refreshTokenEnc = setup.encrypt refreshToken

def Connected (setup : Setup) (s : World) (account : CloudAccount) : Prop :=
  ∃ state v, Brings setup s account state v ∧ ∃ x ∈ s.sealings, x.payload = .state state ∧
    Issued s x.time state

/-- Two rows agree in what counts. -/
structure SameConnection (account' account : CloudAccount) : Prop where
  orgId : account'.orgId = account.orgId
  provider : account'.provider = account.provider
  refreshTokenEnc : account'.refreshTokenEnc = account.refreshTokenEnc

/-- What is only kept count of stays, and the clock does not go back. -/
structure World.Grows (s s' : World) : Prop where
  admissions : s.admissions ⊆ s'.admissions
  sealings : s.sealings ⊆ s'.sealings
  visits : s.visits ⊆ s'.visits
  exchanges : s.exchanges ⊆ s'.exchanges
  clock : s.tenants.clock ≤ s'.tenants.clock

/-- What a call has noted is so. -/
structure Trip.Fits (setup : Setup) (s : World) (g : Trip) : Prop where
  visited : ∀ name code text error, g.call = .callback name code text error → ∃ v ∈ s.visits,
    v.provider = name ∧ v.code = code ∧ v.state = text ∧ v.time ≤ s.tenants.clock ∧
      ∀ checked, g.now = some checked → v.time ≤ checked
  clocked : ∀ checked, g.now = some checked → checked ≤ s.tenants.clock
  admitted :
    ∀ r provider auth, g.call = .authorize r provider → g.auth = some auth → ∃ a ∈ s.admissions,
    a.orgId = r.orgId ∧ a.userId = userIdOf auth ∧ OrgRole.admin.rank ≤ a.role.rank ∧
      a.time ≤ s.tenants.clock
  opened : ∀ payload, g.opened = some payload → (∃ x ∈ s.sealings, x.payload = payload) ∧
    ∃ text, g.call.presents = some text ∧ setup.decryptState text = some payload
  exchanged :
    ∀ tokens, g.tokens = some tokens → ∃ name code text error,
    g.call = .callback name code text error ∧
    ∃ e ∈ s.exchanges, parseProvider name = .ok e.provider ∧ e.code = code ∧ e.tokens = tokens

structure World.Sound (setup : Setup) (s : World) : Prop where
  issued : ∀ x ∈ s.sealings, ∀ state, x.payload = .state state → Issued s x.time state
  connected : ∀ account ∈ s.tenants.accounts, Connected setup s account
  shown : ∀ x ∈ s.shown, ∃ y ∈ s.sealings, ∃ exp, y.payload = .ticket x.2 exp ∧
    setup.decryptState x.1 = some (.ticket x.2 exp)

structure Going (setup : Setup) (N : Multiset Trip) (s : World) : Prop where
  fits : ∀ g ∈ N, g.Fits setup s
  sound : s.Sound setup

section Growth

variable {setup : Setup} {s s' : World} {g : Trip}

theorem Issued.grows {time : Date} {state : OAuthState} (h : Issued s time state)
    (hs : s.Grows s') :
    Issued s' time state := by
  obtain ⟨a, ha, hadmitted⟩ := h.admitted
  exact ⟨h.lasts, a, hs.admissions ha, hadmitted⟩

theorem Connected.grows {account account' : CloudAccount} (h : Connected setup s account)
    (hs : s.Grows s')
    (hsame : SameConnection account' account) : Connected setup s' account' := by
  obtain ⟨horg, hprovider, hrefresh⟩ := hsame
  obtain ⟨state, v, hbrings, x, hx, hpayload, hissued⟩ := h
  obtain ⟨e, he, heprovider, hecode, refreshToken, htoken, hkept⟩ := hbrings.exchanged
  refine ⟨state, v, ?_, x, hs.sealings hx, hpayload, hissued.grows hs⟩
  exact ⟨hs.visits hbrings.visited, hbrings.opens, hbrings.inTime, hprovider ▸ hbrings.named,
    horg ▸ hbrings.orgId,
    hprovider ▸ hbrings.provider, e, hs.exchanges he, hprovider ▸ heprovider, hecode,
      refreshToken, htoken,
    hrefresh ▸ hkept⟩

theorem Trip.Fits.grows (h : g.Fits setup s) (hs : s.Grows s') : g.Fits setup s' := by
  refine ⟨?_, fun checked hread => (h.clocked checked hread).trans hs.clock, ?_, ?_, ?_⟩
  · intro name code text error hcall
    obtain ⟨v, hv, hname, hcode, htext, htime, hread⟩ := h.visited name code text error hcall
    exact ⟨v, hs.visits hv, hname, hcode, htext, htime.trans hs.clock, hread⟩
  · intro r provider auth hcall hauth
    obtain ⟨a, ha, horg, huser, hrole, htime⟩ := h.admitted r provider auth hcall hauth
    exact ⟨a, hs.admissions ha, horg, huser, hrole, htime.trans hs.clock⟩
  · intro payload hopened
    obtain ⟨⟨x, hx, hpayload⟩, htext⟩ := h.opened payload hopened
    exact ⟨⟨x, hs.sealings hx, hpayload⟩, htext⟩
  · intro tokens htokens
    obtain ⟨name, code, text, error, hcall, e, he, hexchange⟩ := h.exchanged tokens htokens
    exact ⟨name, code, text, error, hcall, e, hs.exchanges he, hexchange⟩

/-- The accounts are as before but for what does not count. -/
theorem World.Sound.grows (h : s.Sound setup) (hs : s.Grows s')
    (hsealings : s'.sealings = s.sealings)
    (hshown : s'.shown = s.shown)
    (haccounts : ∀ account' ∈ s'.tenants.accounts, ∃ account ∈ s.tenants.accounts,
    SameConnection account' account) :
    s'.Sound setup := by
  refine ⟨?_, ?_, ?_⟩
  · rw [hsealings]
    exact fun x hx state hpayload => (h.issued x hx state hpayload).grows hs
  · intro account' haccount'
    obtain ⟨account, haccount, hsame⟩ := haccounts account' haccount'
    exact (h.connected account haccount).grows hs hsame
  · rw [hsealings, hshown]
    exact h.shown

end Growth

section Tables

variable {s t : TenantStore}

theorem SameConnection.rfl {account : CloudAccount} : SameConnection account account :=
    ⟨Eq.refl _, Eq.refl _, Eq.refl _⟩

theorem unchanged (hclock : t.clock = s.clock) (haccounts : t.accounts = s.accounts) :
    s.clock ≤ t.clock ∧ ∀ account' ∈ t.accounts, ∃ account ∈ s.accounts,
    SameConnection account' account := by
  rw [hclock, haccounts]
  exact ⟨le_rfl, fun account haccount => ⟨account, haccount, .rfl⟩⟩

theorem updated (hclock : t.clock = s.clock) {f : CloudAccount → CloudAccount}
    (haccounts : t.accounts = s.accounts.map f)
    (hf : ∀ account, SameConnection (f account) account) :
    s.clock ≤ t.clock ∧ ∀ account' ∈ t.accounts, ∃ account ∈ s.accounts,
    SameConnection account' account := by
  rw [hclock, haccounts]
  refine ⟨le_rfl, fun account' haccount' => ?_⟩
  obtain ⟨account, haccount, rfl⟩ := List.mem_map.mp haccount'
  exact ⟨account, haccount, hf account⟩

/-- No other change of the tables connects an account. -/
theorem apply_keeps {c : Change} (hc : connects c = false) :
    s.clock ≤ (s.apply c).clock ∧
      ∀ account' ∈ (s.apply c).accounts, ∃ account ∈ s.accounts,
        SameConnection account' account := by
  cases c with
  | upsertAccount account => cases hc
  | updateAccessToken id accessTokenEnc tokenExpiresAt =>
    refine updated rfl rfl fun account => ?_
    split <;> exact ⟨rfl, rfl, rfl⟩
  | markRevoked id =>
    refine updated rfl rfl fun account => ?_
    split <;> exact ⟨rfl, rfl, rfl⟩
  | tick now => exact ⟨le_max_left _ _, fun account haccount => ⟨account, haccount, .rfl⟩⟩
  | organization change =>
    simp only [TenantStore.apply]
    split <;> exact unchanged rfl rfl
  | createAsset id eventId type originalFilename storageKey fileSize =>
    simp only [TenantStore.apply]
    split
    · exact unchanged rfl rfl
    · split <;> exact unchanged rfl rfl
  | upsertFile file =>
    simp only [TenantStore.apply, TenantStore.upsertFile]
    split
    · split <;> exact unchanged rfl rfl
    · exact unchanged rfl rfl
  | upsertExif exif =>
    simp only [TenantStore.apply, TenantStore.upsertExif]
    split
    · split <;> exact unchanged rfl rfl
    · exact unchanged rfl rfl
  | recognize faceId hit personId =>
    simp only [TenantStore.apply, TenantStore.recognize]
    split
    · exact unchanged rfl rfl
    · split
      · exact unchanged rfl rfl
      · split
        · exact unchanged rfl rfl
        · split <;> exact unchanged rfl rfl
  | merge eventId id ids =>
    simp only [TenantStore.apply, TenantStore.merge]
    split <;> exact unchanged rfl rfl
  | createUser _ | openSession _ | submitSelfie _ | createEvent _ _ _ _
    | setCover _ _ | addFace _ _ =>
    simp only [TenantStore.apply]
    split <;> exact unchanged rfl rfl
  | _ => exact unchanged rfl rfl

/-- After an upsert, an account agrees with the row or was there. -/
theorem accounts_upsert {row account' : CloudAccount}
    (h : account' ∈ (s.upsertAccount row).accounts) :
    SameConnection account' row ∨ ∃ account ∈ s.accounts, SameConnection account' account := by
  unfold TenantStore.upsertAccount at h
  simp only at h
  split at h
  · obtain ⟨account, haccount, rfl⟩ := List.mem_map.mp h
    split
    · next hconflict => exact .inl ⟨hconflict.1, hconflict.2.1, rfl⟩
    · exact .inr ⟨account, haccount, .rfl⟩
  split at h
  · exact .inr ⟨account', h, .rfl⟩
  · rcases List.mem_append.mp h with h | h
    · exact .inr ⟨account', h, .rfl⟩
    · obtain rfl := List.mem_singleton.mp h
      exact .inl .rfl

theorem clock_upsert (row : CloudAccount) : (s.upsertAccount row).clock = s.clock := by
  unfold TenantStore.upsertAccount
  simp only
  split
  · rfl
  · split <;> rfl

end Tables

section Steps

variable {setup : Setup} {hashSha256 : String → Auth.Digest} {s s' : World} {g g' : Trip}
  {N : Multiset Trip}

theorem World.Grows.refl (s : World) : s.Grows s :=
  ⟨List.Subset.refl _, List.Subset.refl _, List.Subset.refl _, List.Subset.refl _, le_rfl⟩

theorem World.Grows.of_clock {t : TenantStore} (hclock : s.tenants.clock ≤ t.clock) :
    s.Grows { s with tenants := t } :=
  ⟨List.Subset.refl _, List.Subset.refl _, List.Subset.refl _, List.Subset.refl _, hclock⟩

/-- A call joins those in progress, or goes on. -/
theorem Going.join (h : Going setup N s) (hs : s.Grows s') (hfits : g'.Fits setup s')
    (hsound : s'.Sound setup) :
    Going setup (g' ::ₘ N) s' := by
  refine ⟨fun g'' hg => ?_, hsound⟩
  rcases Multiset.mem_cons.mp hg with rfl | hg
  · exact hfits
  · exact (h.fits g'' hg).grows hs

theorem Going.rest (h : Going setup (g ::ₘ N) s) : Going setup N s :=
  ⟨fun g' hg => h.fits g' (Multiset.mem_cons_of_mem hg), h.sound⟩

theorem Going.step (h : Going setup (g ::ₘ N) s) (hs : s.Grows s') (hfits : g'.Fits setup s')
    (hsound : s'.Sound setup) : Going setup (g' ::ₘ N) s' :=
  h.rest.join hs hfits hsound

/-- Who gets past the guard of the authorization is an administrator. -/
theorem admission_of_activate {r : OrgRequest} {provider : String} {auth : AuthDto}
    (h : Tenants.canActivate hashSha256 s.tenants s.tenants.clock.toNat (authorizing r provider) =
    .ok auth) :
    ∃ a, s.admission (authorizing r provider) auth = some a ∧ a.orgId = r.orgId ∧
    a.userId = userIdOf auth ∧
      OrgRole.admin.rank ≤ a.role.rank ∧ a.time = s.tenants.clock := by
  unfold Tenants.canActivate at h
  simp only [authorizing, OrgRoute.options] at h
  split at h
  · next auth' hauth =>
    cases h
    obtain ⟨-, hauthorized⟩ := Auth.authenticate_ok.mp hauth
    unfold Auth.authorize at hauthorized
    simp only [OrgRequest.authenticating] at hauthorized
    cases huser : auth.user with
    | none => simp [huser] at hauthorized
    | some user =>
      simp only [reduceCtorEq, ne_eq, false_and, ↓reduceIte, huser, Option.getD_none] at hauthorized
      rcases Auth.verifyOrgRole_ok.mp hauthorized with hbypass | ⟨orgId, m, horg, -, hmember, hrank⟩
      · simp at hbypass
      · cases horg
        refine ⟨⟨r.orgId, user.id, m.role, s.tenants.clock⟩, ?_, rfl, ?_, hrank, rfl⟩
        · simp [World.admission, huser, authorizing, hmember]
        · simp [userIdOf, huser]
  · cases h

theorem going_accept {c : ConnectionCall} (h : Going setup N s)
    (hs : (connectionServer setup hashSha256).accept c s = some s') :
    Going setup (.first c ::ₘ N) s' := by
  have hplain :
    ∀ {s : World} {c : ConnectionCall},
    (∀ name code text error, c ≠ .callback name code text error) →
      (Trip.first c).Fits setup s := fun hc =>
    ⟨fun name code text error hcall => absurd hcall (hc name code text error), (fun _ h => by
      cases h),
      (fun _ _ _ _ h => by cases h), (fun _ h => by cases h), fun _ h => by cases h⟩
  cases c with
  | callback provider code state error =>
    cases hs
    have hgrows :
      s.Grows { s with visits := s.visits ++ [⟨provider, code, state, s.tenants.clock⟩] } :=
      ⟨List.Subset.refl _, List.Subset.refl _, List.subset_append_left _ _,
        List.Subset.refl _, le_rfl⟩
    refine h.join hgrows ⟨?_, (fun _ h => by cases h), (fun _ _ _ _ h => by cases h), (fun _ h => by
      cases h),
      fun _ h => by
        cases h⟩ (h.sound.grows hgrows rfl rfl fun account haccount => ⟨account, haccount, .rfl⟩)
    intro name code' text error' hcall
    cases hcall
    exact ⟨_, List.mem_append_right _ (List.mem_singleton.mpr rfl), rfl, rfl, rfl, le_rfl,
      fun _ h => by cases h⟩
  | change c =>
    change (if connects c then none else some { s with tenants := s.tenants.apply c }) =
      some s' at hs
    split at hs
    · cases hs
    next hother =>
    cases hs
    obtain ⟨hclock, haccounts⟩ := apply_keeps (s := s.tenants) (Bool.not_eq_true _ ▸ hother)
    have hgrows : s.Grows { s with tenants := s.tenants.apply c } := .of_clock hclock
    exact h.join hgrows (hplain fun _ _ _ _ h => by
      cases h) (h.sound.grows hgrows rfl rfl haccounts)
  | _ =>
    cases hs
    exact h.join (.refl s) (hplain fun _ _ _ _ h => by cases h) h.sound

theorem going_release {c : ConnectionCall} {value : Except ReadError (Option String)} {again : Bool}
    (h : Going setup (g ::ₘ N) s) (hpost : Trip.Shows c value g)
    (hs : (connectionServer setup hashSha256).release c value again s = some s') :
    Going setup N s' := by
  have hrest := h.rest
  simp only [connectionServer] at hs
  split at hs
  · next ticket p =>
    cases hs
    obtain ⟨hcall, exp, hopened⟩ := hpost ticket p rfl rfl
    obtain ⟨⟨x, hx, hpayload⟩, text, htext, hopens⟩ :=
      (h.fits g (Multiset.mem_cons_self _ _)).opened _ hopened
    rw [hcall] at htext
    cases htext
    have hgrows : s.Grows { s with shown := s.shown ++ [(ticket, p)] } :=
      ⟨List.Subset.refl _, List.Subset.refl _, List.Subset.refl _, List.Subset.refl _, le_rfl⟩
    refine ⟨fun g' hg => (hrest.fits g' hg).grows hgrows,
      fun x hx state hpayload => (h.sound.issued x hx state hpayload).grows hgrows,
      fun account haccount =>
        (h.sound.connected account haccount).grows hgrows .rfl, fun y hy => ?_⟩
    rcases List.mem_append.mp hy with hy | hy
    · exact h.sound.shown y hy
    · obtain rfl := List.mem_singleton.mp hy
      exact ⟨x, hx, exp, hpayload, hopens⟩
  · cases hs
    exact hrest

/-- The guard lets someone in, and so noted. -/
theorem fits_activated {r : OrgRequest} {provider : String} {auth : AuthDto}
    (hfits : g.Fits setup s)
    (hcall : g.call = .authorize r provider)
    (hauth : Tenants.canActivate hashSha256 s.tenants s.tenants.clock.toNat
    (authorizing r provider) = .ok auth) :
    ({ g with auth := some auth } : Trip).Fits setup
      { s with admissions :=
      s.admissions ++ (s.admission (authorizing r provider) auth).toList } := by
  obtain ⟨a, hadmission, horg, huser, hrole, htime⟩ := admission_of_activate hauth
  refine ⟨hfits.visited, hfits.clocked, ?_, hfits.opened, hfits.exchanged⟩
  intro r' provider' auth' hcall' hauth'
  cases hauth'
  obtain ⟨rfl, rfl⟩ := ConnectionCall.authorize.inj (hcall.symm.trans hcall')
  refine ⟨a, List.mem_append_right _ ?_, horg, huser, hrole, htime.le⟩
  rw [hadmission]
  exact List.mem_singleton.mpr rfl

/-- A reading of the clock is noted if it is the first. -/
theorem fits_read (hfits : g.Fits setup s) :
    ({ g with now := g.now.or (some s.tenants.clock) } : Trip).Fits setup s := by
  cases hread : g.now with
  | some checked =>
    have hsame : ({ g with now := (some checked).or (some s.tenants.clock) } : Trip) = g := by
      rw [Option.some_or, ← hread]
    rw [hsame]
    exact hfits
  | none =>
    refine ⟨?_, ?_, hfits.admitted, hfits.opened, hfits.exchanged⟩
    · intro name code text error hcall
      obtain ⟨v, hv, hname, hcode, htext, htime, -⟩ := hfits.visited name code text error hcall
      refine ⟨v, hv, hname, hcode, htext, htime, fun checked h => ?_⟩
      cases h
      exact htime
    · intro checked h
      cases h
      exact le_rfl

/-- What opens is noted with the text that it opened from. -/
theorem fits_opened {text : String} (hfits : g.Fits setup s)
    (hpresents : g.call.presents = some text)
    (hgenuine : genuine s ⟨.decryptState text, setup.decryptState text⟩ = true) :
    ({ g with opened := setup.decryptState text } : Trip).Fits setup s := by
  refine ⟨hfits.visited, hfits.clocked, hfits.admitted, fun payload hopened => ?_, hfits.exchanged⟩
  have hopens : setup.decryptState text = some payload := hopened
  refine ⟨?_, text, hpresents, hopens⟩
  simp only [genuine, hopens, Option.all_some, List.any_eq_true, decide_eq_true_eq] at hgenuine
  exact hgenuine

theorem fits_exchanged {name code text error : String} {provider : CloudProvider}
    {tokens : OAuthTokens}
    (hfits : g.Fits setup s) (hcall : g.call = .callback name code text error)
    (hnamed : parseProvider name = .ok provider) :
    ({ g with tokens := some tokens } : Trip).Fits setup
      { s with exchanges := s.exchanges ++ [⟨provider, code, tokens⟩] } := by
  refine ⟨hfits.visited, hfits.clocked, hfits.admitted, hfits.opened, fun tokens' htokens => ?_⟩
  cases htokens
  exact ⟨name, code, text, error, hcall, _, List.mem_append_right _ (List.mem_singleton.mpr rfl),
    hnamed, rfl, rfl⟩

/-- A state that is sealed is issued to the caller. -/
theorem issued_of_seals {state : OAuthState} (hfits : g.Fits setup s) (hseals : g.Seals state) :
    Issued s s.tenants.clock state := by
  obtain ⟨r, provider, auth, issued, hcall, hauth, hread, horg, huser, hexp⟩ := hseals
  obtain ⟨a, ha, haorg, hauser, hrole, htime⟩ := hfits.admitted r provider auth hcall hauth
  have hlasts := hfits.clocked issued hread
  refine ⟨?_, a, ha, haorg.trans horg.symm, hauser.trans huser.symm, hrole, htime⟩
  rw [hexp]
  exact Int.add_le_add_right hlasts _

theorem sound_sealed {payload : Payload} (hsound : s.Sound setup)
    (hissued : ∀ state, payload = .state state → Issued s s.tenants.clock state) :
    s.Grows { s with sealings := s.sealings ++ [⟨payload, s.tenants.clock⟩] } ∧
      ({ s with sealings := s.sealings ++ [⟨payload, s.tenants.clock⟩] } : World).Sound setup := by
  have hgrows : s.Grows { s with sealings := s.sealings ++ [⟨payload, s.tenants.clock⟩] } :=
    ⟨List.Subset.refl _, List.subset_append_left _ _, List.Subset.refl _,
      List.Subset.refl _, le_rfl⟩
  refine ⟨hgrows, ?_,
    fun account haccount => (hsound.connected account haccount).grows hgrows .rfl, ?_⟩
  · intro x hx state hpayload
    rcases List.mem_append.mp hx with hx | hx
    · exact (hsound.issued x hx state hpayload).grows hgrows
    · obtain rfl := List.mem_singleton.mp hx
      exact (hissued state hpayload).grows hgrows
  · intro x hx
    obtain ⟨y, hy, hticket⟩ := hsound.shown x hx
    exact ⟨y, List.mem_append_left _ hy, hticket⟩

/-- The account that a callback makes is one that its browser brought. -/
theorem connected_of_made {account : NewAccount} {id : String} {createdAt : Date}
    (hfits : g.Fits setup s)
    (hsound : s.Sound setup) (hmade : g.Made setup account) :
    Connected setup s (account.row id createdAt) := by
  obtain ⟨v, hv, hname, hcode, htext, -, hread⟩ := hfits.visited _ _ _ _ hmade.call
  obtain ⟨⟨x, hx, hpayload⟩, text, hpresents, hopens⟩ := hfits.opened _ hmade.opened
  obtain ⟨name, code, text', error, hcall, e, he, henamed, hecode, hetokens⟩ :=
    hfits.exchanged _ hmade.exchanged
  rw [hmade.call] at hcall hpresents
  cases hcall
  cases hpresents
  have hprovider : e.provider = account.provider := Except.ok.inj (henamed.symm.trans hmade.named)
  refine ⟨hmade.state, v, ?_, x, hx, hpayload, hsound.issued x hx _ hpayload⟩
  exact
    { visited := hv
      opens := htext ▸ hopens
      inTime := (hread _ hmade.read).trans hmade.inTime
      named := hname ▸ hmade.named
      orgId := hmade.orgId
      provider := hmade.provider
      exchanged := ⟨e, he, hprovider, hecode.trans hcode.symm, hmade.refreshToken,
        (congrArg OAuthTokens.refreshToken hetokens).trans hmade.refreshed, hmade.kept⟩ }

theorem sound_upserted {account : NewAccount} (id : String) (hfits : g.Fits setup s)
    (hsound : s.Sound setup)
    (hmade : g.Made setup account) :
    s.Grows { s with tenants := s.tenants.upsertAccount (account.row id s.tenants.clock) } ∧
      ({ s with tenants := s.tenants.upsertAccount (account.row id s.tenants.clock) } : World).Sound
      setup := by
  have hgrows :
    s.Grows { s with tenants := s.tenants.upsertAccount (account.row id s.tenants.clock) } :=
    .of_clock (clock_upsert _).ge
  refine ⟨hgrows, fun x hx state hpayload => (hsound.issued x hx state hpayload).grows hgrows, ?_,
    hsound.shown⟩
  intro account' haccount'
  rcases accounts_upsert haccount' with hsame | ⟨old, hold, hsame⟩
  · exact (connected_of_made hfits hsound hmade).grows hgrows hsame
  · exact (hsound.connected old hold).grows hgrows hsame

/-- Each operation of a call keeps the invariant, as long as nobody forges. -/
theorem going_perform {p : ConnectionPool} {t : ConnectionThread} {o : ConnectionOp}
    {r : ConnectionRes o}
    (h : Going setup (g ::ₘ N) p.state) (hpermit : (trips setup).permits g o)
    (hunforged : Unforged p t ⟨o, (connectionHandler setup hashSha256 o r p.state).1⟩) :
    Going setup ((trips setup).note g ⟨o, (connectionHandler setup hashSha256 o r p.state).1⟩ ::ₘ N)
      (connectionHandler setup hashSha256 o r p.state).2 := by
  have hfits := h.fits g (Multiset.mem_cons_self _ _)
  cases o with
  | canActivate request =>
    obtain ⟨r', provider, hcall, rfl⟩ := hpermit
    unfold connectionHandler
    simp only
    cases hauth : Tenants.canActivate hashSha256 p.state.tenants p.state.tenants.clock.toNat
        (authorizing r' provider) with
    | error e => exact h
    | ok auth =>
      have hgrows : p.state.Grows
          { p.state with
            admissions :=
              p.state.admissions ++ (p.state.admission (authorizing r' provider) auth).toList } :=
        ⟨List.subset_append_left _ _, List.Subset.refl _, List.Subset.refl _,
          List.Subset.refl _, le_rfl⟩
      exact h.step hgrows (fits_activated hfits hcall hauth)
        (h.sound.grows hgrows rfl rfl fun account haccount => ⟨account, haccount, .rfl⟩)
  | now => exact h.step (.refl _) (fits_read hfits) h.sound
  | encryptState payload =>
    have hissued : ∀ state, payload = .state state → Issued p.state p.state.tenants.clock state :=
      fun state hpayload => issued_of_seals hfits (hpermit state hpayload)
    obtain ⟨hgrows, hsound⟩ := sound_sealed h.sound hissued
    exact h.step hgrows (hfits.grows hgrows) hsound
  | decryptState text => exact h.step (.refl _) (fits_opened hfits hpermit hunforged) h.sound
  | exchangeCode provider code uri =>
    cases r with
    | error e => exact h
    | ok tokens =>
      obtain ⟨name, text, error, hcall, hnamed⟩ := hpermit
      have hgrows : p.state.Grows
          { p.state with exchanges := p.state.exchanges ++ [⟨provider, code, tokens⟩] } :=
        ⟨List.Subset.refl _, List.Subset.refl _, List.Subset.refl _,
          List.subset_append_left _ _, le_rfl⟩
      exact h.step hgrows (fits_exchanged hfits hcall hnamed)
        (h.sound.grows hgrows rfl rfl fun account haccount => ⟨account, haccount, .rfl⟩)
  | getAccountEmail provider accessToken => exact h
  | upsert account =>
    cases r with
    | error e => exact h
    | ok id =>
      obtain ⟨hmade⟩ := hpermit
      obtain ⟨hgrows, hsound⟩ := sound_upserted id hfits h.sound hmade
      exact h.step hgrows (hfits.grows hgrows) hsound

theorem keeps_going :
    Preserves (connectionServer setup hashSha256) Unforged (trips setup) .first Trip.Shows
    (Going setup) where
  accept _ _ _ _ h hs := going_accept h hs
  perform _ _ _ _ _ _ h hpermit hunforged := ⟨trivial, going_perform h hpermit hunforged⟩
  release _ _ _ _ _ _ _ h hpost hs := going_release h hpost hs

end Steps

/-- However authorizations, callbacks, tickets and changes of the tables interleave: a connected
account was brought by a browser that came back, within ten minutes, with a state sealed for an
administrator of its organisation, and its refresh token is what that browser's code was good
for. A ticket shows its own participant. -/
theorem connected_by_admin {setup : Setup} {hashSha256 : String → Auth.Digest} {p : ConnectionPool}
    (h : (connectionServer setup hashSha256).Reaches Unforged connectionStart p) :
    (∀ account ∈ p.state.tenants.accounts, Connected setup p.state account) ∧
      ∀ x ∈ p.state.shown, ∃ y ∈ p.state.sealings, ∃ exp, y.payload = .ticket x.2 exp ∧
        setup.decryptState x.1 = some (.ticket x.2 exp) := by
  have hstart : Going setup 0 connectionStart.state :=
    ⟨fun _ h => absurd h (Multiset.notMem_zero _), fun _ h => absurd h List.not_mem_nil,
      fun _ h => absurd h List.not_mem_nil, fun _ h => absurd h List.not_mem_nil⟩
  obtain ⟨-, hgoing⟩ := h.invariant calls_trips keeps_going rfl hstart
  exact ⟨hgoing.sound.connected, hgoing.sound.shown⟩

def bobsState : OAuthState :=
    { orgId := "elm", userId := "bob", provider := .gDrive, exp := 600000 }

def plainSetup : Setup where
  publicBaseUrl := "https://gala"
  encrypt token := "sealed " ++ token
  encryptState payload n := if payload = .state bobsState ∧ n = 0 then "blob" else "other"
  decryptState text := if text = "blob" then some (.state bobsState) else none
  authorizeUrl _ uri state := uri ++ "?state=" ++ state

def willing : (o : ConnectionOp) → ConnectionRes o
  | .canActivate _ => (.error .provider : Except ReadError AuthDto)
  | .now => (0 : ℤ)
  | .encryptState _ => ""
  | .decryptState _ => (none : Option Payload)
  | .exchangeCode _ _ _ => (.ok ⟨"access", some "refresh", 3600⟩ : Except ReadError OAuthTokens)
  | .getAccountEmail _ _ => (.ok "bob@drive" : Except ReadError String)
  | .upsert _ => (.ok "account" : Except ReadError String)

/-- A call that performs so many operations and leaves. -/
def wholeCall (c : ConnectionCall) (n : ℕ) :
    List (Move ConnectionCall ConnectionOp ConnectionRes) :=
  .start c :: (List.replicate n (.perform 0 willing) ++ [.leave 0 false])

def asBob : OrgRequest where
  headers := { authorization := some "Bearer one" }
  orgId := ⟨"elm", by decide⟩
  route := .accounts

/-- The owner of Elm asks to connect a drive and comes back nine minutes later. -/
def bobConnects : List (Move ConnectionCall ConnectionOp ConnectionRes) :=
  wholeCall (.change (.organization (.create "elm" "Elm" "elm"
      { id := "bob", email := "bob@elm", password := some "secret" }))) 0 ++
    wholeCall (.change (.openSession { id := "0", userId := "bob", token := "one" })) 0 ++
    wholeCall (.authorize asBob "gdrive") 3 ++ wholeCall (.change (.tick 540000)) 0 ++
    wholeCall (.callback "gdrive" "code" "blob" "") 6

theorem connected_by_admin_bob :
    ∃ p, (connectionServer plainSetup id).play Unforged bobConnects connectionStart = some p ∧
      p.state.tenants.accounts.map
      (fun account => (account.orgId, account.provider, account.refreshTokenEnc)) =
        [("elm", .gDrive, "sealed refresh")] ∧
      ∀ account ∈ p.state.tenants.accounts, Connected plainSetup p.state account := by
  let p := ((connectionServer plainSetup id).play Unforged bobConnects connectionStart).get
    (by decide)
  have hplay :
    (connectionServer plainSetup id).play Unforged bobConnects connectionStart = some p :=
    (Option.some_get _).symm
  obtain ⟨hconnected, -⟩ := connected_by_admin (Server.Reaches.start.play _ hplay)
  exact ⟨p, hplay, by decide, hconnected⟩

end EventLens.Connections
