import EventLens.AuthRecord
import Mathlib.Data.List.DropRight

/-!
Authentication: the credentials a request carries, gallery token before
session, and the checks that a route asks for. The hash of a token is a
parameter. A step that throws rejects the request.
-/

namespace EventLens.Auth

/-! Texts. -/

def isWhiteSpace (c : Char) : Bool :=
  (9 ≤ c.toNat && c.toNat ≤ 13) || (8192 ≤ c.toNat && c.toNat ≤ 8202) ||
    c.toNat ∈ [32, 160, 5760, 8232, 8233, 8239, 8287, 12288, 65279]

def trim (s : List Char) : List Char := (s.dropWhile isWhiteSpace).rdropWhile isWhiteSpace

def hexDigit (c : Char) : Option ℕ :=
  if '0' ≤ c ∧ c ≤ '9' then some (c.toNat - 48)
  else if 'a' ≤ c ∧ c ≤ 'f' then some (c.toNat - 87)
  else if 'A' ≤ c ∧ c ≤ 'F' then some (c.toNat - 55)
  else none

/-- Characters as they stand, and the bytes that `%` escapes. -/
def unescape : List Char → Option (List (Char ⊕ ℕ))
  | [] => some []
  | '%' :: high :: low :: rest => do
    let byte := 16 * (← hexDigit high) + (← hexDigit low)
    pure (.inr byte :: (← unescape rest))
  | '%' :: _ => none
  | c :: rest => do pure (.inl c :: (← unescape rest))

/-- The first byte of an encoded character: how many bytes follow, the bits it
holds and the least code point that needs this many bytes. -/
def leadingByte (byte : ℕ) : Option (ℕ × ℕ × ℕ) :=
  if byte < 128 then some (0, byte, 0)
  else if 192 ≤ byte ∧ byte < 224 then some (1, byte - 192, 128)
  else if 224 ≤ byte ∧ byte < 240 then some (2, byte - 224, 2048)
  else if 240 ≤ byte ∧ byte < 248 then some (3, byte - 240, 65536)
  else none

/-- The state of the decoding: the bytes still expected, the bits so far and the
least code point, or a character boundary. -/
def decodeBytes : List (Char ⊕ ℕ) → ℕ → ℕ → ℕ → Option (List Char)
  | [], 0, _, _ => some []
  | .inl c :: rest, 0, _, _ => do pure (c :: (← decodeBytes rest 0 0 0))
  | .inr byte :: rest, 0, _, _ => do
    let (expected, bits, least) ← leadingByte byte
    if expected = 0 then pure (Char.ofNat bits :: (← decodeBytes rest 0 0 0))
    else decodeBytes rest expected bits least
  | .inr byte :: rest, expected + 1, bits, least =>
    let code := 64 * bits + (byte - 128)
    if byte < 128 ∨ 192 ≤ byte then none
    else if expected = 0 then
      if least ≤ code ∧ code.isValidChar then do
        pure (Char.ofNat code :: (← decodeBytes rest 0 0 0))
      else none
    else decodeBytes rest expected code least
  | _, _ + 1, _, _ => none

/-- Nothing where the decoding throws. -/
def decodeURIComponent (s : List Char) : Option String := do
  let bytes ← unescape s
  let text ← decodeBytes bytes 0 0 0
  pure (String.ofList text)

/-! Credentials. -/

def SESSION_COOKIE : String := "el_session"

/-- The token after `Bearer`. -/
def bearerToken (authorization : String) : Option String :=
  match authorization.toList.splitOn ' ' with
  | type :: token :: _ =>
    if (type.map Char.toLower) = "bearer".toList ∧
      token ≠ [] then some (String.ofList token) else none
  | _ => none

/-- The first cookie of this name. -/
def sessionCookie : List (List Char) → Except AuthError (Option String)
  | [] => .ok none
  | part :: parts =>
    match (trim part).splitOn '=' with
    | name :: rest =>
      if name = SESSION_COOKIE.toList then
        match decodeURIComponent ((List.intersperse ['='] rest).flatten) with
        | some token => .ok (some token)
        | none => .error .uriMalformed
      else sessionCookie parts
    | [] => sessionCookie parts

def extractSessionToken (headers : Headers) : Except AuthError (Option String) :=
  match headers.authorization.bind bearerToken, headers.cookie with
  | some token, _ => .ok (some token)
  | none, some cookie => sessionCookie (cookie.toList.splitOn ';')
  | none, none => .ok none

/-- The query parameter unless it is empty, else the header. -/
def galleryToken (req : AuthenticateRequest) : Option QueryValue :=
  match req.token with
  | some .structured => some .structured
  | some (.text value) =>
    if value = "" then req.headers.galleryToken.map .text else some (.text value)
  | none => req.headers.galleryToken.map .text

variable (hashSha256 : String → Digest)

/-- The participant of the gallery token. -/
def validateGallery (s : AuthStore) (req : AuthenticateRequest) :
    Except AuthError (Option Participant) :=
  match galleryToken req with
  | some .structured => .error .invalidData
  | some (.text token) => .ok (if token = "" then none else s.getByTokenHash (hashSha256 token))
  | none => .ok none

def validateSession (s : AuthStore) (now : ℕ) (headers : Headers) : Except AuthError AuthDto := do
  match ← extractSessionToken headers with
  | none => pure {}
  | some token =>
    if token = "" then pure {}
    else match s.getByToken now (hashSha256 token) with
      | some (session, user) => pure { user := some user, session := some session }
      | none => pure {}

/-- Credential priority: gallery token, then session. -/
def validate (s : AuthStore) (now : ℕ) (req : AuthenticateRequest) : Except AuthError AuthDto := do
  match ← validateGallery hashSha256 s req with
  | some participant => pure { participant := some participant }
  | none => validateSession hashSha256 s now req.headers

/-- The organisation that the path addresses. -/
def addressedOrg (s : AuthStore) (params : PathParams) : Option String :=
  match params.orgId, params.eventId with
  | some orgId, _ => some orgId
  | none, some eventId => s.getOrgId eventId
  | none, none => none

def forbidden : AuthError := .forbidden "Forbidden"

def verifyOrgRole (s : AuthStore) (user : User) (requiredRole : OrgRole) (params : PathParams)
    (allowSuperAdmin : Bool) : Except AuthError Unit :=
  if user.isSuperAdmin && allowSuperAdmin && params.eventId.isNone then .ok ()
  else match addressedOrg s params with
    | none => .error forbidden
    | some orgId =>
      if orgId = "" then .error forbidden
      else match s.getMembership orgId user.id with
        | none => .error forbidden
        | some membership =>
          if membership.role.rank < requiredRole.rank then .error forbidden else .ok ()

/-- The checks a route asks for. -/
def authorize (s : AuthStore) (req : AuthenticateRequest) (auth : AuthDto) :
    Except AuthError Unit :=
  if req.options.participant = some true ∧ auth.participant ≠ none then .ok ()
  else match auth.user with
    | none => .error (.unauthorized "Authentication required")
    | some user =>
      if req.options.superAdmin = some true ∧ user.isSuperAdmin = false then .error forbidden
      else match req.options.orgRole with
        | some role =>
          verifyOrgRole s user role req.pathParams (req.options.allowSuperAdmin.getD false)
        | none => .ok ()

def authenticate (s : AuthStore) (now : ℕ) (req : AuthenticateRequest) :
    Except AuthError AuthDto := do
  let auth ← validate hashSha256 s now req
  authorize s req auth
  pure auth

variable {hashSha256}

/-- A request is accepted when its credentials are and its checks pass. -/
theorem authenticate_ok {s : AuthStore} {now : ℕ} {req : AuthenticateRequest} {auth : AuthDto} :
    authenticate hashSha256 s now req = .ok auth ↔
      validate hashSha256 s now req = .ok auth ∧ authorize s req auth = .ok () := by
  unfold authenticate
  cases hvalid : validate hashSha256 s now req with
  | error e =>
    constructor
    · intro h
      cases h
    · rintro ⟨h, -⟩
      cases h
  | ok found =>
    change (authorize s req found >>= fun _ => pure found) = _ ↔ _
    constructor
    · intro h
      cases hchecked : authorize s req found with
      | error e =>
        rw [hchecked] at h
        cases h
      | ok _ =>
        rw [hchecked] at h
        cases h
        exact ⟨rfl, hchecked⟩
    · rintro ⟨hfound, hchecked⟩
      cases hfound
      rw [hchecked]
      rfl

/-- The role check passes for a super admin where the route opted in, and for
a member of the addressed organisation whose role is high enough. -/
theorem verifyOrgRole_ok {s : AuthStore} {user : User} {requiredRole : OrgRole}
    {params : PathParams}
    {allowSuperAdmin : Bool} :
    verifyOrgRole s user requiredRole params allowSuperAdmin = .ok () ↔
      (user.isSuperAdmin && allowSuperAdmin && params.eventId.isNone) = true ∨
        ∃ orgId m, addressedOrg s params = some orgId ∧ orgId ≠ "" ∧
          s.getMembership orgId user.id = some m ∧ requiredRole.rank ≤ m.role.rank := by
  unfold verifyOrgRole
  by_cases hbypass : (user.isSuperAdmin && allowSuperAdmin && params.eventId.isNone) = true
  · rw [if_pos hbypass]
    simp [hbypass]
  · rw [if_neg hbypass, or_iff_right hbypass]
    cases addressedOrg s params with
    | none =>
      constructor
      · intro h
        cases h
      · rintro ⟨_, _, h, -⟩
        cases h
    | some orgId =>
      by_cases hempty : orgId = ""
      · simp [hempty]
      · simp only [if_neg hempty]
        cases hmember : s.getMembership orgId user.id with
        | none => simp [hmember]
        | some m =>
          simp only
          by_cases hlow : m.role.rank < requiredRole.rank
          · rw [if_pos hlow]
            constructor
            · intro h
              cases h
            · rintro ⟨k, m', hk, -, hm', hrank⟩
              cases hk
              rw [hmember] at hm'
              cases hm'
              omega
          · rw [if_neg hlow]
            exact ⟨fun _ => ⟨orgId, m, rfl, hempty, hmember, Nat.le_of_not_lt hlow⟩, fun _ => rfl⟩

end EventLens.Auth
