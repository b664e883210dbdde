import EventLens.TenantService
import EventLens.Pools

/-!
Connecting a cloud account. An administrator is sent to the provider with a sealed state, and
whoever comes back with it in time connects an account to the organisation it names. The
tickets of selfies are sealed with the same key. What opens has been sealed, as long as nobody
else has the key.
-/

namespace EventLens.Connections

open Programs Tenants
open Auth (AuthDto OrgRole)
open Import (CloudProvider)

/-- What is sealed for someone else to bring back. -/
inductive Payload
  | state (state : OAuthState)
  | ticket (p : String) (exp : Date)
deriving DecidableEq, Repr

structure OAuthTokens where
  accessToken : String
  refreshToken : Option String
  expiresInSec : ℤ
deriving DecidableEq, Repr

/-- The ciphers and the address of the service. The number stands for what is random in a
sealing. -/
structure Setup where
  publicBaseUrl : String
  encrypt : String → String
  encryptState : Payload → ℕ → String
  decryptState : String → Option Payload
  authorizeUrl : CloudProvider → String → String → String

/-- The values of a row that is inserted. -/
structure NewAccount where
  orgId : String
  provider : CloudProvider
  accountEmail : String
  refreshTokenEnc : String
  accessTokenEnc : String
  tokenExpiresAt : Date
deriving DecidableEq, Repr

def NewAccount.row (account : NewAccount) (id : String) (createdAt : Date) : CloudAccount where
  id := id
  orgId := account.orgId
  provider := account.provider
  accountEmail := account.accountEmail
  refreshTokenEnc := account.refreshTokenEnc
  accessTokenEnc := some account.accessTokenEnc
  tokenExpiresAt := some account.tokenExpiresAt
  createdAt := createdAt

/-- Whom the guard let in, with the role the tables gave at that moment. -/
structure Admission where
  orgId : String
  userId : String
  role : OrgRole
  time : Date
deriving DecidableEq, Repr

structure Sealed where
  payload : Payload
  time : Date
deriving DecidableEq, Repr

/-- A browser that comes back. -/
structure Visit where
  provider : String
  code : String
  state : String
  time : Date
deriving DecidableEq, Repr

structure Exchange where
  provider : CloudProvider
  code : String
  tokens : OAuthTokens
deriving DecidableEq, Repr

/-- The tables. The rest only keeps count: who was let in, what was sealed, who came back, what
the providers gave for codes, and which participant a ticket has shown. -/
structure World where
  tenants : TenantStore := {}
  admissions : List Admission := []
  sealings : List Sealed := []
  visits : List Visit := []
  exchanges : List Exchange := []
  shown : List (String × String) := []
deriving DecidableEq

inductive ConnectionOp
  | canActivate (r : OrgRequest)
  | now
  | encryptState (payload : Payload)
  | decryptState (text : String)
  | exchangeCode (provider : CloudProvider) (code redirectUri : String)
  | getAccountEmail (provider : CloudProvider) (accessToken : String)
  | upsert (account : NewAccount)

def ConnectionRes : ConnectionOp → Type
  | .canActivate _ => Except ReadError AuthDto
  | .now => Date
  | .encryptState _ => String
  | .decryptState _ => Option Payload
  | .exchangeCode _ _ _ => Except ReadError OAuthTokens
  | .getAccountEmail _ _ | .upsert _ => Except ReadError String

abbrev ConnectionProg := Prog ConnectionOp ConnectionRes
abbrev ConnectionEvent := Event ConnectionOp ConnectionRes

section Code

variable (setup : Setup)

def now : ConnectionProg Date := .perform .now .done

def encryptState (payload : Payload) : ConnectionProg String :=
    .perform (.encryptState payload) .done

def decryptState (text : String) : ConnectionProg (Option Payload) :=
    .perform (.decryptState text) .done

def activate (r : OrgRequest) : ConnectionProg (Except ReadError AuthDto) :=
    .perform (.canActivate r) .done

def exchangeCode (provider : CloudProvider) (code redirectUri : String) :
    ConnectionProg (Except ReadError OAuthTokens) :=
  .perform (.exchangeCode provider code redirectUri) .done

def getAccountEmail (provider : CloudProvider) (accessToken : String) :
    ConnectionProg (Except ReadError String) :=
  .perform (.getAccountEmail provider accessToken) .done

def upsert (account : NewAccount) : ConnectionProg (Except ReadError String) :=
    .perform (.upsert account) .done

def redirectUri (provider : CloudProvider) : String :=
  s!"{setup.publicBaseUrl}/api/cloud/{providerName provider}/callback"

def getAuthorizeUrl (orgId userId : String) (provider : CloudProvider) : ConnectionProg String := do
  let issued ← now
  let state ← encryptState
    (.state { orgId := orgId, userId := userId, provider := provider, exp :=
      issued + STATE_TTL_MS })
  pure (setup.authorizeUrl provider (redirectUri setup provider) state)

def userIdOf (auth : AuthDto) : String := (auth.user.map Auth.User.id).getD ""

def authorizing (r : OrgRequest) (provider : String) : OrgRequest :=
    { r with route := .authorize provider }

/-- `CloudController.authorize`, behind its guard. -/
def authorize (r : OrgRequest) (provider : String) :
    ConnectionProg (Except ReadError (Option String)) := do
  match ← activate (authorizing r provider) with
  | .error e => pure (.error e)
  | .ok auth =>
    match parseProvider provider with
    | .error e => pure (.error e)
    | .ok client => do
      let url ← getAuthorizeUrl setup r.orgId (userIdOf auth) client
      pure (.ok (some url))

def expiredState : ReadError := .unauthorized "Expired OAuth state"

def noRefreshToken : ReadError :=
  .badRequest "Provider did not return a refresh token — remove app access and reconnect"

/-- What `handleCallback` does with the tokens. -/
def connectWith (state : OAuthState) (provider : CloudProvider) (tokens : OAuthTokens) :
    ConnectionProg (Except ReadError (Option String)) :=
  match tokens.refreshToken.filter (· ≠ "") with
  | none => pure (.error noRefreshToken)
  | some refreshToken => do
    match ← getAccountEmail provider tokens.accessToken with
    | .error e => pure (.error e)
    | .ok email => do
      let later ← now
      match ← upsert
          { orgId := state.orgId
            provider := provider
            accountEmail := email
            refreshTokenEnc := setup.encrypt refreshToken
            accessTokenEnc := setup.encrypt tokens.accessToken
            tokenExpiresAt := later + tokens.expiresInSec * 1000 } with
      | .error e => pure (.error e)
      | .ok _ =>
        pure (.ok (some
          s!"{setup.publicBaseUrl}/settings/cloud-accounts?connected={providerName provider}"))

def handleCallback (provider : CloudProvider) (code stateRaw : String) :
    ConnectionProg (Except ReadError (Option String)) := do
  match ← decryptState stateRaw with
  | none => pure (.error (.unauthorized "Invalid OAuth state"))
  -- a ticket names no provider
  | some (.ticket _ _) => pure (.error expiredState)
  | some (.state state) => do
    let checked ← now
    if state.provider ≠ provider ∨ state.exp < checked then pure (.error expiredState)
    else
      match ← exchangeCode provider code (redirectUri setup provider) with
      | .error e => pure (.error e)
      | .ok tokens => connectWith setup state provider tokens

/-- `CloudController.callback`: nobody is asked who they are. A missing parameter is empty. -/
def callback (provider code state error : String) :
    ConnectionProg (Except ReadError (Option String)) :=
  if error ≠ "" ∨ code = "" then
    pure (.error (.badRequest ("OAuth failed: " ++ if error = "" then "missing code" else error)))
  else
    match parseProvider provider with
    | .error e => pure (.error e)
    | .ok client => handleCallback setup client code state

def TICKET_TTL_MS : ℤ := 30 * 60 * 1000

def issueTicket (participantId : String) : ConnectionProg String := do
  let issued ← now
  encryptState (.ticket participantId (issued + TICKET_TTL_MS))

/-- The participant that `getProgress` goes on to look up. A state has no `p`. -/
def ticketHolder (ticket : String) : ConnectionProg (Option String) := do
  match ← decryptState ticket with
  | none | some (.state _) => pure none
  | some (.ticket p exp) => do
    let checked ← now
    if p = "" ∨ exp < checked then pure none else pure (some p)

end Code

section System

variable (setup : Setup) (hashSha256 : String → Auth.Digest)

def World.admission (s : World) (r : OrgRequest) (auth : AuthDto) : Option Admission := do
  let user ← auth.user
  let membership ← s.tenants.auth.getMembership r.orgId user.id
  pure ⟨r.orgId, user.id, membership.role, s.tenants.clock⟩

def connectionHandler : Handler ConnectionOp ConnectionRes World
  | .canActivate r, _, s =>
    match Tenants.canActivate hashSha256 s.tenants s.tenants.clock.toNat r with
    | .error e => (.error e, s)
    | .ok auth => (.ok auth, { s with admissions := s.admissions ++ (s.admission r auth).toList })
  | .now, _, s => (s.tenants.clock, s)
  | .encryptState payload, _, s =>
    (setup.encryptState payload s.sealings.length,
      { s with sealings := s.sealings ++ [⟨payload, s.tenants.clock⟩] })
  | .decryptState text, _, s => (setup.decryptState text, s)
  | .exchangeCode _ _ _, .error e, s => (.error e, s)
  | .exchangeCode provider code _, .ok tokens, s =>
    (.ok tokens, { s with exchanges := s.exchanges ++ [⟨provider, code, tokens⟩] })
  | .getAccountEmail _ _, r, s => (r, s)
  | .upsert _, .error e, s => (.error e, s)
  | .upsert account, .ok id, s =>
    (.ok id, { s with tenants := s.tenants.upsertAccount (account.row id s.tenants.clock) })

/-- A change of the tables is any that the API makes, but for the accounts that connect. -/
inductive ConnectionCall
  | authorize (r : OrgRequest) (provider : String)
  | callback (provider code state error : String)
  | submitSelfie (participantId : String)
  | progress (ticket : String)
  | change (c : Change)
deriving DecidableEq

def ConnectionCall.prog : ConnectionCall → ConnectionProg (Except ReadError (Option String))
  | .authorize r provider => Connections.authorize setup r provider
  | .callback provider code state error => Connections.callback setup provider code state error
  | .submitSelfie participantId => do
    let ticket ← issueTicket participantId
    pure (.ok (some ticket))
  | .progress ticket => do
    let holder ← ticketHolder ticket
    pure (.ok holder)
  | .change _ => pure (.ok none)

def connects : Change → Bool
  | .upsertAccount _ => true
  | _ => false

def connectionServer :
    Server ConnectionCall ConnectionOp ConnectionRes World (Except ReadError (Option String)) where
  handler := connectionHandler setup hashSha256
  prog := ConnectionCall.prog setup
  accept c s :=
    match c with
    | .callback provider code state _ =>
      some { s with visits := s.visits ++ [⟨provider, code, state, s.tenants.clock⟩] }
    | .change c => if connects c then none else some { s with tenants := s.tenants.apply c }
    | _ => some s
  release c value _ s :=
    match c, value with
    | .progress ticket, .ok (some p) => some { s with shown := s.shown ++ [(ticket, p)] }
    | _, _ => some s

abbrev ConnectionPool :=
    Pool ConnectionCall ConnectionOp ConnectionRes World (Except ReadError (Option String))
abbrev ConnectionThread :=
    Thread ConnectionCall ConnectionOp ConnectionRes (Except ReadError (Option String))

def connectionStart : ConnectionPool := { threads := [], state := {} }

/-- What opens has been sealed. -/
def genuine (s : World) : ConnectionEvent → Bool
  | ⟨.decryptState _, r⟩ => (r : Option Payload).all fun payload => s.sealings.any fun x =>
    x.payload = payload
  | _ => true

abbrev Unforged (p : ConnectionPool) (_ : ConnectionThread) (e : ConnectionEvent) : Prop :=
  genuine p.state e = true

end System

end EventLens.Connections
