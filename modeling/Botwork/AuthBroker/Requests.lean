import Botwork.AuthBroker.Leases

/-!
# Requests to the auth-broker

What the handlers receive and answer, and the points between two of their steps.
Headers stand here as their parsed values.

## Main definitions

- `Request`, `Reply` — what the handlers receive and answer
- `Pc` — the step a handler makes next, with what it carries to it
- `Request.entry` — what a handler does before its first step
-/

namespace Botwork.AuthBroker

open Botwork.Foundations Botwork.Vault

inductive ErrorCode where
  | missingBearer
  | invalidBearer
  | expiredLease
  | revokedLease
  deriving DecidableEq, Repr

inductive ParsedPath where
  | apiAuthLogin
  | apiAuthProtected
  | api (tenant : Option String)
  | spa (tenant : String)
  | mcp (tenant namesp plugin : String)
  deriving DecidableEq, Repr

/-- What `request_cap` finds in the headers. -/
abbrev RequestCap := Except ErrorCode (Option Token)

/-- The body of `POST /secrets`; `none` where a field does not parse. -/
structure StoreRequest where
  tenant : String
  key : SecretKey
  kind : Option SecretKind
  value : Option Bytes
  allowedConsumers : List String
  tags : List String
  overwrite : Bool

/-- A login whose OPAQUE handshake has succeeded. -/
structure Login where
  tenantId : TenantId
  sessionKey : Bytes
  bearer : Bearer
  leaseId : LeaseId
  leaseSecondsRequested : Nat

inductive Request where
  | check (path : Option ParsedPath) (cap : RequestCap)
  | fetch (cap : Except ErrorCode CapId)
  | logout (cap : RequestCap)
  | revokeLease (provided : Option Token) (id : LeaseId)
  | store (body : StoreRequest)
  | deleteSecret (tenant : String) (key : SecretKey)
  | loginFinish (login : Login)
  /-- one sweep of the prune task -/
  | prune

structure FetchSecret where
  service : String
  name : String
  kind : SecretKind
  value : Bytes
  deriving DecidableEq

structure FetchResponse where
  tenant : String
  plugin : String
  secrets : List FetchSecret
  deriving DecidableEq

inductive Reply where
  | unauthorized (code : ErrorCode) (tenant : Option String)
  /-- `success` -/
  | admitted (tenant : String) (cap : CapId)
  /-- `success_public_no_identity`, and the login path -/
  | publicPath
  /-- `success_admin` -/
  | admin
  | secrets (response : FetchResponse)
  | loggedIn (bearer : Token) (expiresAt : Nat) (leaseId : LeaseId)
  | noContent
  | revoked (revoked capsEvicted : Nat)
  | stored (created : Bool)
  | error (status : Nat) (code : String)
  deriving DecidableEq

def Reply.status : Reply → Nat
  | .unauthorized _ _ => 401
  | .admitted _ _ | .publicPath | .admin | .secrets _ | .loggedIn _ _ _ | .revoked _ _
  | .stored _ => 200
  | .noContent => 204
  | .error status _ => status

-- ════════════════════════════════════════════════════════════════════════
-- Points of a handler
-- ════════════════════════════════════════════════════════════════════════

/-- The arguments of `try_lease_path`. -/
structure LeasePath where
  scope : Option String
  namesp : String
  plugin : String
  bearer : Bearer

/-- What a secret write has resolved before it asks for the tenant's lock. -/
structure WriteJob where
  tenant : String
  tenantId : TenantId
  leaseId : LeaseId
  exportKey : Bytes
  write : Write
  overwrite : Bool

/-- The next step of a handler. -/
inductive Pc where
  | checkValidate (q : LeasePath)
  /-- a miss in a tenant's scope evicts the caps of the cache key -/
  | checkMiss (q : LeasePath) (tenant : String)
  | checkTenant (q : LeasePath) (v : ValidatedLease)
  | checkRemember (q : LeasePath) (v : ValidatedLease) (tenant : String)
  /-- about to call `unlock_master`, on the handle `create` returned or not -/
  | checkUnlock (q : LeasePath) (v : ValidatedLease) (tenant : String) (created : Bool)
  | checkUnlocking (q : LeasePath) (v : ValidatedLease) (tenant : String) (created : Bool)
  | checkCreate (q : LeasePath) (v : ValidatedLease) (tenant : String)
  | checkCreating (q : LeasePath) (v : ValidatedLease) (tenant : String)
  | checkCache (q : LeasePath) (v : ValidatedLease) (tenant : String) (master : Bytes)
  | checkCap (q : LeasePath) (v : ValidatedLease) (tenant : String)
  | logoutValidate (bearer : Bearer)
  | logoutTenant (bearer : Bearer) (v : ValidatedLease)
  | logoutRemember (bearer : Bearer) (v : ValidatedLease) (tenant : String)
  | logoutEvict (bearer : Bearer) (v : ValidatedLease) (tenant : String)
  | logoutRevoke (bearer : Bearer) (v : ValidatedLease)
  | revokeById (id : LeaseId)
  | revokeEvict (id : LeaseId) (revoked : Nat)
  | fetchCap (cap : CapId)
  | fetchCache (entry : CapEntry)
  /-- the cache entry is gone, or the vault did not open -/
  | fetchEvict (entry : CapEntry) (vaultError : Option VaultError)
  | writeTenant (tenant : String)
  | writeLease (tenant : String) (tenantId : TenantId)
  | writeKey (tenant : String) (tenantId : TenantId) (leaseId : LeaseId)
  | writeLock (job : WriteJob)
  | writeUnlock (job : WriteJob)
  | writeUnlocking (job : WriteJob)
  | writePut (job : WriteJob)
  | writePersisting (job : WriteJob) (existed : Bool)
  | loginInsert (login : Login)
  | loginRemember (login : Login) (row : LeaseRow)
  | pruneCache
  | pruneCaps (evicted : List CacheKey) (now : Nat)
  | pruneExportKeys (now : Nat)

/-- The steps between two awaits of the same handler: the vault calls. -/
def Pc.synchronous : Pc → Bool
  | .checkUnlock _ _ _ _ | .checkUnlocking _ _ _ _ | .checkCreate _ _ _ | .checkCreating _ _ _
  | .writeUnlock _ | .writeUnlocking _ | .writePut _ | .writePersisting _ _ => true
  | _ => false

-- ════════════════════════════════════════════════════════════════════════
-- Entry
-- ════════════════════════════════════════════════════════════════════════

def apiNamespace : String := "api"
def apiPlugin : String := "api"

/-- The head of `try_lease_path`. -/
def leasePathEntry (scope : Option String) (namesp plugin : String) (token : Token) :
    Except Reply Pc :=
  match token.bearer with
  | none => .error (.unauthorized .invalidBearer scope)
  | some bearer => .ok (.checkValidate ⟨scope, namesp, plugin, bearer⟩)

/-- A path behind the lease: the cap of the request, or the reply without one. -/
def protectedEntry (scope : Option String) (namesp plugin : String) (missing : Reply) :
    RequestCap → Except Reply Pc
  | .ok (some token) => leasePathEntry scope namesp plugin token
  | .ok none => .error missing
  | .error code => .error (.unauthorized code scope)

/-- `check` up to the lease path. -/
def checkEntry (adminKey : Option Token) (path : Option ParsedPath) (cap : RequestCap) :
    Except Reply Pc :=
  match path with
  | none => .error (.unauthorized .invalidBearer none)
  | some .apiAuthLogin => .error .publicPath
  | some path =>
    if adminKey.isSome ∧ cap.toOption.join = adminKey then .error .admin
    else
      match path with
      | .apiAuthLogin => .error .publicPath
      | .spa tenant => protectedEntry (some tenant) apiNamespace apiPlugin .publicPath cap
      | .mcp tenant namesp plugin =>
        protectedEntry (some tenant) namesp plugin (.unauthorized .missingBearer (some tenant)) cap
      | .apiAuthProtected =>
        protectedEntry none apiNamespace apiPlugin (.unauthorized .missingBearer none) cap
      | .api tenant =>
        protectedEntry tenant apiNamespace apiPlugin (.unauthorized .missingBearer tenant) cap

/-- The handler's work up to its first step: an immediate reply or that step. -/
def Request.entry (adminKey : Option Token) : Request → Except Reply Pc
  | .check path cap => checkEntry adminKey path cap
  | .fetch (.error code) => .error (.unauthorized code none)
  | .fetch (.ok cap) => .ok (.fetchCap cap)
  | .logout (.ok (some token)) =>
    match token.bearer with
    | none => .error .noContent
    | some bearer => .ok (.logoutValidate bearer)
  | .logout _ => .error .noContent
  | .revokeLease provided id =>
    if adminKey.isSome ∧ provided = adminKey then .ok (.revokeById id)
    else .error (.error 401 "unauthorized")
  | .store body => .ok (.writeTenant body.tenant)
  | .deleteSecret tenant _ => .ok (.writeTenant tenant)
  | .loginFinish login => .ok (.loginInsert login)
  | .prune => .ok .pruneCache

/-- The checks of `store` and `delete_secret` between the lease and the lock:
    the write, and whether it may overwrite. -/
def Request.secretWrite (unixNow : Int) : Request → Except Reply (Write × Bool)
  | .store body =>
    if (validateService body.key.service).toBool = false then .error (.error 400 "bad_request")
    else if (validateName body.key.name).toBool = false then .error (.error 400 "bad_request")
    else
      match body.kind, body.value with
      | none, _ => .error (.error 400 "bad_request")
      | some _, none => .error (.error 400 "bad_request")
      | some kind, some value =>
        .ok (.put body.key ⟨kind, value, unixNow, unixNow, none, body.tags,
          body.allowedConsumers⟩, body.overwrite)
  | .deleteSecret _ key =>
    if (validateService key.service).toBool = false then .error (.error 400 "bad_request")
    else if (validateName key.name).toBool = false then .error (.error 400 "bad_request")
    else .ok (.delete key, true)
  | _ => .error (.error 400 "bad_request")

/-- The bearer a `/auth/check` or a logout carries. -/
def RequestCap.bearer (cap : RequestCap) : Option Bearer := cap.toOption.join.bind Token.bearer

/-- A check that goes on carries the bearer it validates. -/
theorem checkEntry_eq_ok {adminKey : Option Token} {path : Option ParsedPath} {cap : RequestCap}
    {pc : Pc} (h : checkEntry adminKey path cap = .ok pc) :
    ∃ q, pc = .checkValidate q ∧ cap.bearer = some q.bearer := by
  have hlease : ∀ scope namesp plugin missing,
      protectedEntry scope namesp plugin missing cap = .ok pc →
      ∃ q, pc = .checkValidate q ∧ cap.bearer = some q.bearer := by
    intro scope namesp plugin missing hentry
    cases cap with
    | error code => cases hentry
    | ok token =>
      cases token with
      | none => cases hentry
      | some token =>
        simp only [protectedEntry, leasePathEntry] at hentry
        split at hentry
        next => cases hentry
        next bearer hbearer => cases hentry; exact ⟨_, rfl, hbearer⟩
  unfold checkEntry at h
  split at h
  next => cases h
  next => cases h
  next path _ =>
    split at h
    next => cases h
    next =>
      split at h
      next => cases h
      next => exact hlease _ _ _ _ h
      next => exact hlease _ _ _ _ h
      next => exact hlease _ _ _ _ h
      next => exact hlease _ _ _ _ h

end Botwork.AuthBroker
