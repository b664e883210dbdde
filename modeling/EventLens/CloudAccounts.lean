import EventLens.Draining
import EventLens.ImportTended
import EventLens.TenantService

/-!
The import pipeline over the connected accounts. An account answers from its
row: the access token kept there while it is fresh, else a new one from the
provider, and a refresh that fails marks the account revoked. The queue gives a
listing that failed a bounded number of attempts; a rate limit takes none.
-/

namespace EventLens.Import

open Programs
open Tenants (CloudAccount Date TOKEN_EXPIRY_MARGIN_MS TenantStore)

/-- `CipherService`, and the lifetime the provider gives an access token. -/
structure CloudCipher where
  encrypt : String → String
  decrypt : String → String
  lifetimeMs : String → ℤ

/-- The import tables and queue, the rows of `cloud_account`, the time and the
attempts that failed. -/
structure CloudWorld extends ImportWorld where
  accounts : List CloudAccount := []
  clock : Date := 0
  failures : List ImportCall := []
deriving DecidableEq

inductive CloudCall
  | imports (c : ImportCall)
  | connect (account : CloudAccount)
  | listFolders (orgId accountId : String)
  | tick (now : Date)
deriving DecidableEq

/-- `QUEUE_RETRY[QueueName.Import].attempts`. -/
def IMPORT_ATTEMPTS : ℕ := 5

namespace CloudWorld

variable (w : CloudWorld)

def tenants : TenantStore := { accounts := w.accounts, clock := w.clock }

def updateAccount (accountId : String) (f : CloudAccount → CloudAccount) : CloudWorld :=
  { w with accounts := w.accounts.map (fun a => if a.id = accountId then f a else a) }

def updateAccessToken (accountId accessTokenEnc : String) (tokenExpiresAt : Date) : CloudWorld :=
  w.updateAccount accountId fun a =>
    { a with accessTokenEnc := some accessTokenEnc, tokenExpiresAt := some tokenExpiresAt }

def markRevoked (accountId : String) : CloudWorld :=
  w.updateAccount accountId fun a => { a with revokedAt := some w.clock }

end CloudWorld

/-- The access token of the row, while it is fresh. -/
def validToken (now : Date) (account : CloudAccount) : Option String :=
  match account.accessTokenEnc, account.tokenExpiresAt with
  | some token, some expiresAt =>
    if expiresAt > now + TOKEN_EXPIRY_MARGIN_MS then some token else none
  | _, _ => none

def revokedText (account : CloudAccount) : String :=
  s!"UnauthorizedException: {Tenants.providerName account.provider} access for " ++
    s!"{account.accountEmail} was revoked — reconnect the account"

/-- `CloudService.getFreshAccessToken`; `refreshed` is what the provider answers
to a refresh. -/
def freshAccessToken (cipher : CloudCipher) (account : CloudAccount)
    (refreshed : Except ImportError String) (w : CloudWorld) :
    Except ImportError String × CloudWorld :=
  match validToken w.clock account with
  | some token => (.ok (cipher.decrypt token), w)
  | none =>
    match refreshed with
    | .ok token =>
      (.ok token, w.updateAccessToken account.id (cipher.encrypt token)
        (w.clock + cipher.lifetimeMs token))
    | .error _ => (.error (.other (revokedText account)), w.markRevoked account.id)

/-- The accounts answer from their rows; everything else is as in the import
pipeline. -/
def cloudHandler (cipher : CloudCipher) : Handler ImportOp ImportRes CloudWorld
  | .requireAccount orgId accountId, _, w =>
    match w.tenants.getAccount orgId accountId with
    | some account => (.ok (account.id, account.provider), w)
    | none => (.error (.other "NotFoundException: Cloud account not found (disconnected?)"), w)
  | .getFreshAccessToken accountId, refreshed, w =>
    match w.accounts.find? (fun a => a.id = accountId) with
    | some account => freshAccessToken cipher account refreshed w
    | none => (refreshed, w)
  | o, r, w =>
    let answer := importHandler o r w.toImportWorld
    (answer.1, { w with toImportWorld := answer.2 })

abbrev CloudThread := Thread CloudCall ImportOp ImportRes Verdict
abbrev CloudPool := Pool CloudCall ImportOp ImportRes CloudWorld Verdict
abbrev CloudMove := Move CloudCall ImportOp ImportRes

/-- `CloudService.listFolders`; the provider's folders are only shown. -/
def listFolders (orgId accountId : String) : ImportProg Verdict := do
  let resolved ← (do
    let account ← requireAccount orgId accountId
    getFreshAccessToken account.1 : Attempt String).run
  match resolved with
  | .error e => pure (.refused e.text)
  | .ok _ => pure .success

def CloudCall.prog (fuel : ℕ) : CloudCall → ImportProg Verdict
  | .imports c => c.prog fuel
  | .listFolders orgId accountId => Import.listFolders orgId accountId
  | .connect _ | .tick _ => .done .success

/-- The import server, where a failed attempt is tried again while attempts are
left. An account is connected by its upsert. -/
def cloudServer (cipher : CloudCipher) (fuel : ℕ) :
    Server CloudCall ImportOp ImportRes CloudWorld Verdict where
  handler := cloudHandler cipher
  prog := CloudCall.prog fuel
  accept c w :=
    match c with
    | .imports c =>
      ((importServer fuel).accept c w.toImportWorld).map
        (fun next => { w with toImportWorld := next })
    | .connect account =>
      some { w with accounts :=
        (w.tenants.upsertAccount { account with revokedAt := none }).accounts }
    | .tick now => some { w with clock := now }
    | .listFolders _ _ => some w
  release c verdict _ w :=
    match c with
    | .imports c =>
      let again := w.failures.count c + 1 < IMPORT_ATTEMPTS
      ((importServer fuel).release c verdict again w.toImportWorld).map (fun next =>
        { w with
          toImportWorld := next
          failures := if verdict = .failed then w.failures ++ [c] else w.failures })
    | .connect _ | .listFolders _ _ | .tick _ => some w

/-- Nothing connected or imported yet. -/
def cloudStart : CloudPool := { threads := [], state := {} }

/-! What may fail. -/

def errorOf {ε α : Type} : Except ε α → Option ε
  | .error e => some e
  | .ok _ => none

/-- The error that an operation answered. -/
def failure : ImportEvent → Option ImportError
  | ⟨.insertItems _, r⟩ => errorOf (r : Except ImportError (List ImportItem))
  | ⟨.queueImportFiles _, r⟩ => (errorOf (r : Except String Unit)).map .other
  | ⟨.queueAssetProcess _, r⟩ => errorOf (r : Except ImportError Unit)
  | ⟨.requireEvent _, r⟩ => errorOf (r : Except ImportError String)
  | ⟨.requireAccount _ _, r⟩ => errorOf (r : Except ImportError (String × CloudProvider))
  | ⟨.getFreshAccessToken _, r⟩ => errorOf (r : Except ImportError String)
  | ⟨.listFilesPage _ _ _, r⟩ => errorOf (r : Except ImportError RemoteListingPage)
  | ⟨.makeStagingFolder, r⟩ => errorOf (r : Except ImportError Unit)
  | ⟨.downloadToFile _ _ _, r⟩ => errorOf (r : Except ImportError Unit)
  | ⟨.hashFile _, r⟩ => errorOf (r : Except ImportError String)
  | ⟨.fileSize _, r⟩ => errorOf (r : Except ImportError ℕ)
  | ⟨.findByChecksum _ _, r⟩ => errorOf (r : Except ImportError (Option String))
  | ⟨.putFile _ _ _, r⟩ => errorOf (r : Except ImportError Unit)
  | ⟨.createAsset _, r⟩ => errorOf (r : Except ImportError Unit)
  | _ => none

def ImportError.limits : ImportError → Bool
  | .rateLimit _ => true
  | _ => false

/-- The operation answered the provider's rate limit. -/
def limitMet (e : ImportEvent) : Bool := (failure e).any ImportError.limits

/-- The operation answered any other error. -/
def errorMet (e : ImportEvent) : Bool := (failure e).any fun error => !error.limits

/-- The page that an operation answered, if any. -/
def pageListed : ImportEvent → Bool
  | ⟨.listFilesPage _ _ _, r⟩ => (errorOf (r : Except ImportError RemoteListingPage)).isNone
  | _ => false

/-- The threads that run this call. -/
def running (p : CloudPool) (c : CloudCall) : ℕ := p.threads.countP (fun t => t.call = c)

/-- No refresh of an access token fails. -/
def Refreshes (e : ImportEvent) : Prop :=
  match e.1 with
  | .getFreshAccessToken _ => failure e = none
  | _ => True

/-- A worker's step fails at most by a rate limit or by losing the race for its
checksum. `requireAccount` answers from the table. -/
def Mends (e : ImportEvent) : Prop :=
  match failure e, e.1 with
  | none, _ => True
  | some (.rateLimit _), _ => True
  | some (.assetChecksumConstraint _), .createAsset _ => True
  | some _, .requireAccount _ _ => True
  | some _, _ => False

/-- No import is cancelled. -/
def Uncancelled (e : ImportEvent) : Prop :=
  match e.1 with
  | .updateJob _ dto => dto.status ≠ .cancelled
  | _ => True

/-- Failures that leave everything to a later attempt: no refresh fails, a
download only by a rate limit, and a listing, rate limits apart, in fewer than
all of its attempts. Nobody cancels an import. -/
def Bearable (p : CloudPool) (t : CloudThread) (e : ImportEvent) : Prop :=
  Uncancelled e ∧ Refreshes e ∧
    match t.call with
    | .imports (.importFolder j) =>
      errorMet e → p.state.failures.count (.importFolder j) + running p t.call < IMPORT_ATTEMPTS
    | .imports (.importFile _) => Mends e
    | _ => True

/-- The same, and the provider limits the rate no more. -/
def Calm (p : CloudPool) (t : CloudThread) (e : ImportEvent) : Prop := Bearable p t e ∧ ¬ limitMet e

/-- The moves of the workers: no call of the API begins. -/
def Own : CloudMove → Prop
  | .start (.imports (.importFolder _)) | .start (.imports (.importFile _)) => True
  | .start _ => False
  | .perform _ _ | .leave _ _ => True

def CloudCall.orders : CloudCall → Bool
  | .imports (.cancel _ _) | .connect _ | .listFolders _ _ | .tick _ => false
  | .imports _ => true

/-- No import work is queued, ordered or running. -/
def Resting (p : CloudPool) : Prop :=
  p.state.queue = [] ∧ ∀ t ∈ p.threads, t.call.orders = false

/-- The import work is over, and every file listed is imported or a duplicate. -/
structure Imported (p : CloudPool) : Prop where
  rests : Resting p
  items : ∀ i ∈ p.state.items, i.status = .done ∨ i.status = .skippedDuplicate
  jobs : ∀ job ∈ p.state.jobs, job.status ≠ .failed

/-- A listing has as many pages as are allowed to it. -/
def Endless (fuel : ℕ) (p : CloudPool) : Prop := ∃ t ∈ p.threads, fuel ≤ t.past.countP pageListed

/-- No account is marked revoked, no item failed, and once the provider limits
the rate no more, every schedule comes to an end with everything imported. -/
structure Survives (cipher : CloudCipher) (fuel : ℕ) (p : CloudPool) : Prop where
  accounts : ∀ a ∈ p.state.accounts, a.revokedAt = none
  items : ∀ i ∈ p.state.items, i.status ≠ .failed
  imports : (cloudServer cipher fuel).Inevitable Own Calm (fun p => Imported p ∨ Endless fuel p) p

end EventLens.Import
