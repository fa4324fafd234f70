import Botwork.AuthBroker.Requests
import Botwork.Vault.Handles

/-!
# The auth-broker

Any number of requests and sweeps of the prune task in one broker process.
Every store call, every mutex section and every access to a vault's files is a
step; a store call or a file access can fail, and a handler can be dropped where
it awaits.  The steps of a vault call are those of `Vault.Root`, on handles of
the request's own.

## Main definitions

- `Broker` — stores, maps, vaults, requests and the history
- `Broker.next` — one step
- `authBroker` — the transition system
-/

namespace Botwork.AuthBroker

open Botwork.Foundations Botwork.Vault

/-- `botwork_opaque_handshake::SUITE_VERSION`. -/
def suiteVersion : UInt8 := 1

-- ════════════════════════════════════════════════════════════════════════
-- State
-- ════════════════════════════════════════════════════════════════════════

/-- A request between two steps.  Nothing in the code reads `closedBefore`: the
    leases whose revocation had been answered when the request arrived. -/
structure InFlight where
  request : Request
  /-- `Instant::now()` where the handler starts -/
  arrived : Nat
  closedBefore : List LeaseId
  pc : Pc

/-- A secret as its store was answered. -/
structure StoredSecret where
  kind : SecretKind
  value : Bytes
  allowedConsumers : List String
  deriving DecidableEq

/-- A request that has been answered, for the history: the lease it ran under
    and whether that was live, the vault's error if one decided the answer, and
    the secrets stored at that time. -/
structure Answer where
  request : Request
  reply : Reply
  closedBefore : List LeaseId
  lease : Option LeaseId
  live : Bool
  vaultError : Option VaultError
  stored : FiniteMap (String × SecretKey) StoredSecret

/-- The broker process, the stores and the vaults.  Nothing in the code reads
    the fields from `answers` on: what was answered, the lease every cap was
    minted from, the leases whose revocation has been answered, the session keys
    of past logins, the session key every vault was created with, and the
    secrets that are stored and not being written. -/
structure Broker where
  now : Nat
  adminKey : Option Token
  ttl : TtlConfig
  tenants : FiniteMap TenantId String
  leases : LeaseStore
  leaseExportKeys : FiniteMap LeaseId (Nat × Bytes)
  cache : FiniteMap CacheKey CacheEntry
  caps : CapMap
  writeLocks : FiniteMap TenantId Nat
  vaults : FiniteMap String Root
  /-- the number of the next request -/
  arrivals : Nat
  inFlight : FiniteMap Nat InFlight
  answers : FiniteMap Nat Answer
  minted : FiniteMap CapId LeaseId
  closed : List LeaseId
  sessionKeys : List Bytes
  creators : FiniteMap String Bytes
  stored : FiniteMap (String × SecretKey) StoredSecret

/-- How a step comes out. -/
inductive Choice where
  | ok
  /-- the store call or the file access fails -/
  | fail
  /-- the row the query returns -/
  | row (id : LeaseId)
  /-- the cap the random generator yields -/
  | cap (id : CapId)
  /-- the salt the random generator yields -/
  | salt (salt : Bytes)
  /-- the next step of the vault call -/
  | vault (c : Call)
  deriving DecidableEq

inductive Event where
  | tick (elapsed : Nat)
  | arrive (request : Request)
  | run (r : Nat) (choice : Choice)
  /-- the handler is dropped where it awaits -/
  | drop (r : Nat)

/-- A step inside a vault call, as against one that starts a call. -/
def insideVaultCall : Call → Bool
  | .unlockMaster _ _ | .openWithMaster _ | .lock | .write _ _ _ => false
  | _ => true

/-- Unix time. -/
def unixTime (now : Nat) : Int := (now / seconds 1 : Nat)

/-- The handle of a request: the one it opens, or the one `create` returns. -/
def handleOf (r : Nat) (created : Bool) : Nat := 2 * r + created.toNat

namespace Broker

/-- The vault root of a tenant. -/
def vaultOf (s : Broker) (tenant : String) : Root := (s.vaults.lookup tenant).getD Root.init

def setVault (s : Broker) (tenant : String) (root : Root) : Broker :=
  { s with vaults := s.vaults.insert tenant root }

def tenantId? (s : Broker) (name : String) : Option TenantId :=
  (s.tenants.find? fun _ other => other = name).map Prod.fst

def leaseLive (s : Broker) (lease : LeaseId) : Bool :=
  (s.leases.lookup lease).any fun row => !row.dead s.now

def advance (s : Broker) (r : Nat) (f : InFlight) (pc : Pc) : Broker :=
  { s with inFlight := s.inFlight.insert r { f with pc := pc } }

/-- Answer a request that ran under a lease, or met an error of the vault. -/
def answerUnder (s : Broker) (r : Nat) (f : InFlight) (lease : Option LeaseId)
    (vaultError : Option VaultError) (reply : Reply) : Broker :=
  { s with
    inFlight := s.inFlight.erase r
    answers := s.answers.insert r
      { request := f.request
        reply := reply
        closedBefore := f.closedBefore
        lease := lease
        live := lease.any s.leaseLive
        vaultError := vaultError
        stored := s.stored } }

def answer (s : Broker) (r : Nat) (f : InFlight) (reply : Reply) : Broker :=
  s.answerUnder r f none none reply

/-- The revocation of a lease, if there is such a lease, is about to be answered. -/
def close (s : Broker) (lease : Option LeaseRow) : Broker :=
  { s with closed := (lease.map (·.id)).toList ++ s.closed }

/-- `remember_lease_export_key`. -/
def remember (s : Broker) (lease : LeaseId) (exportKey : Bytes) : Broker :=
  { s with leaseExportKeys := s.leaseExportKeys.insert lease (s.now, exportKey) }

/-- `lease_export_key`: a stale entry is dropped. -/
def exportKey? (s : Broker) (lease : LeaseId) : Option Bytes × Broker :=
  match s.leaseExportKeys.lookup lease with
  | none => (none, s)
  | some (writtenAt, key) =>
    if leaseExportKeyTtl < s.now - writtenAt then
      (none, { s with leaseExportKeys := s.leaseExportKeys.erase lease })
    else (some key, s)

/-- Release the write lock of a job's tenant. -/
def unlockTenant (s : Broker) (job : WriteJob) : Broker :=
  { s with writeLocks := s.writeLocks.erase job.tenantId }

/-- A secret write is answered and drops its lock. -/
def answerWrite (s : Broker) (r : Nat) (f : InFlight) (job : WriteJob)
    (vaultError : Option VaultError) (reply : Reply) : Broker :=
  (s.unlockTenant job).answerUnder r f (some job.leaseId) vaultError reply

/-- What the store of a write leaves behind when it is answered. -/
def keepWritten (s : Broker) (job : WriteJob) : Broker :=
  match job.write with
  | .put key entry =>
    let secret : StoredSecret := ⟨entry.kind, entry.value, entry.allowedConsumers⟩
    { s with stored := s.stored.insert (job.tenant, key) secret }
  | .delete _ | .touch _ => s

/-- The reply to a write whose vault call returned. -/
def writeReply (write : Write) (existed : Bool) : Except VaultError Unit → Reply
  | .ok () =>
    match write with
    | .put _ _ => .stored !existed
    | .delete _ | .touch _ => .noContent
  | .error (.conflict _ _) => .error 503 "vault_conflict"
  | .error err =>
    match write, err with
    | .put _ _, .invalidComponent _ => .error 400 "bad_request"
    | .delete _, .secretNotFound _ _ => .error 404 "not_found"
    | _, _ => .error 500 "internal_error"

/-- The entries a fetch returns: those the plugin may see and that decrypt. -/
def fetchSecrets (contents : VaultContents) (master : Bytes) (plugin : String) :
    List FetchSecret :=
  contents.entries.entries.filterMap fun e =>
    if e.2.info.allowedConsumers.contains plugin then
      (e.2.value.open master).toOption.map fun value =>
        ⟨e.1.service, e.1.name, e.2.info.kind, value⟩
    else none

/-- The file read of `open_with_master`. -/
def openVault (root : Root) (master : Bytes) : Except VaultError VaultContents :=
  match root.file with
  | none => .error .notInitialized
  | some file => file.openWithKey master

variable (hkdf : Bytes → Bytes → UInt8 → Bytes)

/-- Start a call of a handle of the request. -/
def startCall (s : Broker) (tenant : String) (h : Nat) (fresh : Bool) (c : Call) : Option Broker :=
  let root := s.vaultOf tenant
  let opened := if fresh then root.next hkdf (.new h) else some root
  (opened.bind fun root => root.next hkdf (.call h c)).map (s.setVault tenant)

/-- The next step of a call of the request. -/
def insideCall (s : Broker) (tenant : String) (h : Nat) (c : Call) : Option Broker :=
  if insideVaultCall c then ((s.vaultOf tenant).next hkdf (.call h c)).map (s.setVault tenant) else none

/-- The result of a call of the request, once it has returned. -/
def returned (s : Broker) (tenant : String) (h : Nat) : Option (Handle × Except VaultError Unit) :=
  ((s.vaultOf tenant).handles.lookup h).bind fun hd =>
    match hd.pc with
    | .idle => hd.outcome.map fun outcome => (hd, outcome)
    | _ => none

-- ════════════════════════════════════════════════════════════════════════
-- Steps
-- ════════════════════════════════════════════════════════════════════════

/-- The steps of `try_lease_path`. -/
def checkStep (s : Broker) (r : Nat) (f : InFlight) : Choice → Pc → Option Broker
  | .fail, .checkValidate q => some (s.answer r f (.unauthorized .invalidBearer q.scope))
  | .ok, .checkValidate q =>
    let (result, leases) := s.leases.validateAndExtend q.bearer s.now
    let s := { s with leases := leases }
    match result with
    | .ok (some v) => some (s.advance r f (.checkTenant q v))
    | .ok none =>
      match q.scope with
      | some tenant => some (s.advance r f (.checkMiss q tenant))
      | none => some (s.answer r f (.unauthorized .invalidBearer none))
    | .error .expired => some (s.answer r f (.unauthorized .expiredLease q.scope))
    | .error .revoked => some (s.answer r f (.unauthorized .revokedLease q.scope))
    | .error .db => some (s.answer r f (.unauthorized .invalidBearer q.scope))
  | .ok, .checkMiss q tenant =>
    some ({ s with caps := s.caps.evictCapsForCacheKey ⟨tenant, q.bearer.encode⟩ }.answer r f
      (.unauthorized .invalidBearer q.scope))
  | .fail, .checkTenant q _ => some (s.answer r f (.unauthorized .invalidBearer q.scope))
  | .ok, .checkTenant q v =>
    match s.tenants.lookup v.lease.tenantId with
    | none => some (s.answer r f (.unauthorized .invalidBearer q.scope))
    | some tenant =>
      if q.scope.any (· ≠ tenant) then
        some (s.answer r f (.unauthorized .invalidBearer q.scope))
      else some (s.advance r f (.checkRemember q v tenant))
  | .ok, .checkRemember q v tenant =>
    some ((s.remember v.lease.id v.exportKey).advance r f (.checkUnlock q v tenant false))
  | .fail, .checkUnlock _ v tenant _ =>
    some (s.answerUnder r f (some v.lease.id) (some .io) (.unauthorized .invalidBearer (some tenant)))
  | .ok, .checkUnlock q v tenant created =>
    (s.startCall hkdf tenant (handleOf r created) (!created)
      (.unlockMaster v.exportKey suiteVersion)).map
      (·.advance r f (.checkUnlocking q v tenant created))
  | .vault c, .checkUnlocking _ _ tenant created =>
    s.insideCall hkdf tenant (handleOf r created) c
  | .ok, .checkUnlocking q v tenant created =>
    (s.returned tenant (handleOf r created)).bind fun
      | (hd, .ok ()) => hd.state.map fun u => s.advance r f (.checkCache q v tenant u.master)
      | (_, .error err) =>
        if err = .notInitialized ∧ created = false then
          some (s.advance r f (.checkCreate q v tenant))
        else
          some (s.answerUnder r f (some v.lease.id) (some err)
            (.unauthorized .invalidBearer (some tenant)))
  | .salt salt, .checkCreate q v tenant =>
    ((s.vaultOf tenant).next hkdf (.create (handleOf r true) v.exportKey suiteVersion salt
      (unixTime s.now))).map fun root =>
        (s.setVault tenant root).advance r f (.checkCreating q v tenant)
  | .vault c, .checkCreating _ v tenant =>
    (s.insideCall hkdf tenant (handleOf r true) c).map fun s' =>
      if (s'.vaultOf tenant).version = (s.vaultOf tenant).version then s'
      else { s' with creators := s.creators.insert tenant v.exportKey }
  | .ok, .checkCreating q v tenant =>
    (s.returned tenant (handleOf r true)).map fun
      | (_, .ok ()) => s.advance r f (.checkUnlock q v tenant true)
      | (_, .error err) =>
        s.answerUnder r f (some v.lease.id) (some err) (.unauthorized .invalidBearer (some tenant))
  | .ok, .checkCache q v tenant master =>
    let key : CacheKey := ⟨tenant, q.bearer.encode⟩
    let entry : CacheEntry :=
      match s.cache.lookup key with
      | some existing => { existing with lastUsed := f.arrived }
      | none =>
        { tenant := tenant
          master := master
          suiteVersion := suiteVersion
          expiresAt := f.arrived + s.ttl.absoluteFor tenant
          lastUsed := f.arrived
          createdAt := f.arrived
          idleTtl := s.ttl.idleFor tenant }
    some ({ s with cache := s.cache.insert key entry }.advance r f (.checkCap q v tenant))
  | .cap cap, .checkCap q v tenant =>
    if (s.minted.lookup cap).isSome then none
    else
      let entry := mintCapValue ⟨tenant, q.bearer.encode⟩ q.namesp q.plugin v.lease.id f.arrived
      some ({ s with
        caps := s.caps.insert cap entry
        minted := s.minted.insert cap v.lease.id }.answerUnder r f (some v.lease.id) none
          (.admitted tenant cap))
  | _, _ => none

/-- The steps of `api_auth_logout`. -/
def logoutStep (s : Broker) (r : Nat) (f : InFlight) : Choice → Pc → Option Broker
  | .fail, .logoutValidate bearer | .fail, .logoutTenant bearer _ =>
    some ((s.close (s.leases.findByHash bearer.hash)).answer r f .noContent)
  | .ok, .logoutValidate bearer =>
    let (result, leases) := s.leases.validateAndExtend bearer s.now
    let s := { s with leases := leases }
    match result with
    | .ok (some v) => some (s.advance r f (.logoutTenant bearer v))
    | _ => some ((s.close (s.leases.findByHash bearer.hash)).answer r f .noContent)
  | .ok, .logoutTenant bearer v =>
    match s.tenants.lookup v.lease.tenantId with
    | none => some ((s.close (s.leases.findByHash bearer.hash)).answer r f .noContent)
    | some tenant => some (s.advance r f (.logoutRemember bearer v tenant))
  | .ok, .logoutRemember bearer v tenant =>
    some ((s.remember v.lease.id v.exportKey).advance r f (.logoutEvict bearer v tenant))
  | .ok, .logoutEvict bearer v tenant =>
    some ({ s with caps := s.caps.evictCapsForCacheKey ⟨tenant, bearer.encode⟩ }.advance r f
      (.logoutRevoke bearer v))
  | .fail, .logoutRevoke _ _ => some (s.answer r f (.error 500 "internal"))
  | .ok, .logoutRevoke bearer _ =>
    let s := { s with leases := (s.leases.revoke bearer.hash s.now).1 }
    some ((s.close (s.leases.findByHash bearer.hash)).answer r f .noContent)
  | _, _ => none

/-- The steps of `admin_revoke_lease`. -/
def revokeStep (s : Broker) (r : Nat) (f : InFlight) : Choice → Pc → Option Broker
  | .fail, .revokeById _ => some (s.answer r f (.error 500 "internal"))
  | .ok, .revokeById id =>
    let (leases, revoked) := s.leases.revokeById id s.now
    some ({ s with leases := leases }.advance r f (.revokeEvict id revoked))
  | .ok, .revokeEvict id revoked =>
    let caps := s.caps.evictCapsForLease id
    let row := (s.leases.lookup id).filter fun row => row.revokedAt.isSome
    some (({ s with caps := caps }.close row).answer r f
      (.revoked revoked (s.caps.entries.length - caps.entries.length)))
  | _, _ => none

/-- The steps of `fetch`. -/
def fetchStep (s : Broker) (r : Nat) (f : InFlight) : Choice → Pc → Option Broker
  | .ok, .fetchCap cap =>
    match s.caps.lookup cap with
    | none => some (s.answer r f (.unauthorized .invalidBearer none))
    | some entry =>
      if entry.isExpired f.arrived then
        some ({ s with caps := s.caps.erase cap }.answer r f (.unauthorized .invalidBearer none))
      else some (s.advance r f (.fetchCache entry))
  | choice, .fetchCache entry =>
    match s.cache.lookup entry.cacheKey with
    | none => if choice = .ok then some (s.advance r f (.fetchEvict entry none)) else none
    | some cached =>
      if cached.isExpired f.arrived then
        if choice = .ok then
          some ({ s with cache := s.cache.erase entry.cacheKey }.advance r f
            (.fetchEvict entry none))
        else none
      else if choice = .fail then some (s.advance r f (.fetchEvict entry (some .io)))
      else if choice = .ok then
        match openVault (s.vaultOf cached.tenant) cached.master with
        | .error err => some (s.advance r f (.fetchEvict entry (some err)))
        | .ok contents =>
          some (s.answerUnder r f (some entry.leaseId) none (.secrets ⟨cached.tenant,
            entry.plugin, fetchSecrets contents cached.master entry.plugin⟩))
      else none
  | .ok, .fetchEvict entry vaultError =>
    some ({ s with caps := s.caps.evictCapsForCacheKey entry.cacheKey }.answerUnder r f
      (some entry.leaseId) vaultError (.unauthorized .invalidBearer none))
  | _, _ => none

/-- The steps of `store` and `delete_secret`. -/
def writeStep (s : Broker) (r : Nat) (f : InFlight) : Choice → Pc → Option Broker
  | .fail, .writeTenant _ | .fail, .writeLease _ _ =>
    some (s.answer r f (.error 500 "internal_error"))
  | .ok, .writeTenant tenant =>
    match s.tenantId? tenant with
    | none => some (s.answer r f (.error 503 "no_active_lease"))
    | some tenantId => some (s.advance r f (.writeLease tenant tenantId))
  | .ok, .writeLease _ tenantId =>
    if s.leases.noneActive tenantId s.now then
      some (s.answer r f (.error 503 "no_active_lease"))
    else none
  | .row id, .writeLease tenant tenantId =>
    (s.leases.lookup id).bind fun row =>
      if s.leases.isNewestActive tenantId s.now row then
        some (s.advance r f (.writeKey tenant tenantId id))
      else none
  | .ok, .writeKey tenant tenantId leaseId =>
    match s.exportKey? leaseId with
    | (none, s) => some (s.answer r f (.error 503 "no_active_lease"))
    | (some exportKey, s) =>
      match f.request.secretWrite (unixTime s.now) with
      | .error reply => some (s.answer r f reply)
      | .ok (write, overwrite) =>
        some (s.advance r f (.writeLock ⟨tenant, tenantId, leaseId, exportKey, write, overwrite⟩))
  | .ok, .writeLock job =>
    if (s.writeLocks.lookup job.tenantId).isSome then none
    else
      some ({ s with writeLocks := s.writeLocks.insert job.tenantId r }.advance r f
        (.writeUnlock job))
  | .fail, .writeUnlock job =>
    some (s.answerWrite r f job (some .io) (.error 500 "internal_error"))
  | .ok, .writeUnlock job =>
    (s.startCall hkdf job.tenant (handleOf r false) true
      (.unlockMaster job.exportKey suiteVersion)).map
      (·.advance r f (.writeUnlocking job))
  | .vault c, .writeUnlocking job => s.insideCall hkdf job.tenant (handleOf r false) c
  | .ok, .writeUnlocking job =>
    (s.returned job.tenant (handleOf r false)).map fun
      | (_, .ok ()) => s.advance r f (.writePut job)
      | (_, .error err) => s.answerWrite r f job (some err) (.error 500 "internal_error")
  | .ok, .writePut job =>
    ((s.vaultOf job.tenant).handles.lookup (handleOf r false)).bind fun hd =>
      hd.state.bind fun u =>
        let existed := (u.contents.entries.lookup job.write.key).isSome
        if existed ∧ job.overwrite = false then
          some (s.answerWrite r f job none (.error 409 "already_exists"))
        else
          (s.startCall hkdf job.tenant (handleOf r false) false
            (.write job.write (unixTime s.now) (unixTime s.now))).map fun s' =>
              { s' with stored := s'.stored.erase (job.tenant, job.write.key) }.advance r f
                (.writePersisting job existed)
  | .vault c, .writePersisting job _ => s.insideCall hkdf job.tenant (handleOf r false) c
  | .ok, .writePersisting job existed =>
    (s.returned job.tenant (handleOf r false)).map fun
      | (_, .ok ()) =>
        (s.keepWritten job).answerWrite r f job none (writeReply job.write existed (.ok ()))
      | (_, .error err) =>
        s.answerWrite r f job (some err) (writeReply job.write existed (.error err))
  | _, _ => none

/-- The steps of `login_finish_inner`, from the lease insert on. -/
def loginStep (s : Broker) (r : Nat) (f : InFlight) : Choice → Pc → Option Broker
  | .fail, .loginInsert _ => some (s.answer r f (.error 500 "internal_error"))
  | .ok, .loginInsert login =>
    -- the handshake of every login yields a fresh session key
    if login.sessionKey = [] ∨ login.sessionKey ∈ s.sessionKeys then none
    else
      match s.leases.insertLease (s.tenants.lookup login.tenantId).isSome login.leaseId
          login.tenantId login.bearer login.sessionKey login.leaseSecondsRequested s.now with
      | none => some (s.answer r f (.error 500 "internal_error"))
      | some leases =>
        (leases.lookup login.leaseId).map fun row =>
          { s with leases := leases, sessionKeys := login.sessionKey :: s.sessionKeys }.advance r f
            (.loginRemember login row)
  | .ok, .loginRemember login row =>
    some ((s.remember row.id login.sessionKey).answer r f
      (.loggedIn login.bearer.encode row.expiresAt row.id))
  | _, _ => none

/-- The steps of `prune_once`. -/
def pruneStep (s : Broker) (r : Nat) (f : InFlight) : Choice → Pc → Option Broker
  | .ok, .pruneCache =>
    let stale := s.cache.entries.filterMap fun e =>
      if e.2.isExpired f.arrived then some e.1 else none
    some ({ s with cache := s.cache.retain fun _ entry => !entry.isExpired f.arrived }.advance r f
      (.pruneCaps stale f.arrived))
  | .ok, .pruneCaps evicted now =>
    some ({ s with caps := s.caps.pruneCaps evicted now }.advance r f (.pruneExportKeys now))
  | .ok, .pruneExportKeys now =>
    some { s with
      leaseExportKeys := s.leaseExportKeys.retain fun _ entry => now - entry.1 ≤ leaseExportKeyTtl
      inFlight := s.inFlight.erase r }
  | _, _ => none

/-- One step of a handler. -/
def step (s : Broker) (r : Nat) (f : InFlight) (choice : Choice) : Option Broker :=
  match f.pc with
  | .checkValidate _ | .checkMiss _ _ | .checkTenant _ _ | .checkRemember _ _ _
  | .checkUnlock _ _ _ _ | .checkUnlocking _ _ _ _ | .checkCreate _ _ _ | .checkCreating _ _ _
  | .checkCache _ _ _ _ | .checkCap _ _ _ => s.checkStep hkdf r f choice f.pc
  | .logoutValidate _ | .logoutTenant _ _ | .logoutRemember _ _ _ | .logoutEvict _ _ _
  | .logoutRevoke _ _ => s.logoutStep r f choice f.pc
  | .revokeById _ | .revokeEvict _ _ => s.revokeStep r f choice f.pc
  | .fetchCap _ | .fetchCache _ | .fetchEvict _ _ => s.fetchStep r f choice f.pc
  | .writeTenant _ | .writeLease _ _ | .writeKey _ _ _ | .writeLock _ | .writeUnlock _
  | .writeUnlocking _ | .writePut _ | .writePersisting _ _ => s.writeStep hkdf r f choice f.pc
  | .loginInsert _ | .loginRemember _ _ => s.loginStep r f choice f.pc
  | .pruneCache | .pruneCaps _ _ | .pruneExportKeys _ => s.pruneStep r f choice f.pc

/-- A request arrives and is answered at once or has its first step before it. -/
def arrive (s : Broker) (request : Request) : Broker :=
  let s' := { s with arrivals := s.arrivals + 1 }
  match request.entry s.adminKey with
  | .error reply => s'.answer s.arrivals ⟨request, s.now, s.closed, .pruneCache⟩ reply
  | .ok pc =>
    { s' with inFlight := s.inFlight.insert s.arrivals ⟨request, s.now, s.closed, pc⟩ }

def next (s : Broker) : Event → Option Broker
  | .tick elapsed => some { s with now := s.now + elapsed }
  | .arrive request => some (s.arrive request)
  | .run r choice => (s.inFlight.lookup r).bind fun f => s.step hkdf r f choice
  | .drop r => (s.inFlight.lookup r).bind fun f =>
      if f.pc.synchronous then none else some { s with inFlight := s.inFlight.erase r }

/-- A broker that has just started, with its settings and the tenants. -/
def init (adminKey : Option Token) (ttl : TtlConfig) (tenants : FiniteMap TenantId String) :
    Broker where
  now := 0
  adminKey := adminKey
  ttl := ttl
  tenants := tenants
  leases := ∅
  leaseExportKeys := ∅
  cache := ∅
  caps := ∅
  writeLocks := ∅
  vaults := ∅
  arrivals := 0
  inFlight := ∅
  answers := ∅
  minted := ∅
  closed := []
  sessionKeys := []
  creators := ∅
  stored := ∅

end Broker

/-- The auth-broker, from a start with any settings and tenants. -/
def authBroker (hkdf : Bytes → Bytes → UInt8 → Bytes) : Machine Broker Event where
  Start s := ∃ adminKey ttl tenants, s = Broker.init adminKey ttl tenants
  next := Broker.next hkdf

-- ════════════════════════════════════════════════════════════════════════
-- Sample runs
-- ════════════════════════════════════════════════════════════════════════

namespace Sample

/-- A key derivation for the sample runs. -/
def hkdf (exportKey salt : Bytes) (suiteVersion : UInt8) : Bytes :=
  suiteVersion :: (exportKey ++ salt)

def bearer (n : UInt8) : Bearer := ⟨List.replicate bearerBytes n, List.length_replicate⟩

def adminKey : Token := .other "admin"

/-- A broker with the tenant "acme". -/
def start : Broker :=
  Broker.init (some adminKey) TtlConfig.default ((∅ : FiniteMap TenantId String).insert 1 "acme")

/-- Request `r` is a login that yields lease `100 + n`. -/
def loginRun (r : Nat) (n : UInt8) : List Event :=
  [.arrive (.loginFinish ⟨1, [n], bearer n, 100 + n.toNat, 86400⟩), .run r .ok, .run r .ok]

/-- Request `r` is a check with bearer `n`, up to its first vault call. -/
def checkHead (r : Nat) (n : UInt8) : List Event :=
  [.arrive (.check (some (.mcp "acme" "main" "echo")) (.ok (some (bearer n).encode))),
    .run r .ok, .run r .ok, .run r .ok]

/-- The check unlocks the vault. -/
def unlockRun (r : Nat) : List Event := [.run r .ok, .run r (.vault .peek), .run r .ok]

/-- The check finds no vault, creates one and unlocks it. -/
def createRun (r : Nat) : List Event :=
  [.run r .ok, .run r .ok, .run r (.salt [9]), .run r (.vault .createWrite),
    .run r (.vault .createInit), .run r .ok] ++ unlockRun r

/-- The check caches the master key and answers with a cap. -/
def checkTail (r : Nat) (cap : CapId) : List Event := [.run r .ok, .run r (.cap cap)]

def fetchRun (r : Nat) (cap : CapId) : List Event :=
  [.arrive (.fetch (.ok cap)), .run r .ok, .run r .ok]

end Sample

end Botwork.AuthBroker
