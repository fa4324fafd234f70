import Botwork.AuthBroker.Opaque

/-!
# Logins and registrations

Any number of calls of `/auth/login/start`, `/auth/login/finish` and
`/auth/register/finish` in one broker process, over the tables they read and the
map of pending handshakes.  Every store call and every section under the map's
mutex is a step; a store call can fail, also after its row is written, and a call
can be dropped where it awaits.  The rate limiter, which only refuses calls, is
left out.

## Main definitions

- `LoginStartRequest`, `LoginFinishRequest`, `RegisterFinishRequest` — the bodies
- `PendingEntry`, `takePending`, `sweepPending` — the pending map
- `LoginFinishRequest.authenticate` — the checks of a finish
- `Handshakes.next` — one step
-/

namespace Botwork.AuthBroker

open Botwork.Foundations Botwork.Vault

abbrev HandshakeId := Nat

def leaseDefaultSeconds : Nat := 7 * 86400

/-- `PENDING_TTL`, in seconds. -/
def pendingTtl : Nat := 60

-- ════════════════════════════════════════════════════════════════════════
-- Requests and responses
-- ════════════════════════════════════════════════════════════════════════

structure LoginStartRequest where
  tenant : String
  credentialIdentifier : String
  loginRequest : Token
  leaseSecondsRequested : Option Nat
  deriving DecidableEq

structure LoginFinishRequest where
  handshakeId : HandshakeId
  loginFinalization : Token
  deriving DecidableEq

structure RegisterFinishRequest where
  tenant : String
  registrationUpload : Token
  otp : Option String
  deriving DecidableEq

/-- The body of `/api/auth/login`, which serves both steps of a login. -/
structure ApiLoginRequest where
  tenant : Option String
  credentialIdentifier : Option String
  opaqueLoginRequest : Option Token
  handshakeId : Option HandshakeId
  opaqueLoginFinalization : Option Token
  leaseSecondsRequested : Option Nat
  deriving DecidableEq

inductive AuthRequest where
  | loginStart (body : LoginStartRequest)
  | loginFinish (body : LoginFinishRequest)
  | registerFinish (body : RegisterFinishRequest)
  | apiAuthLogin (body : ApiLoginRequest)
  deriving DecidableEq

inductive AuthResponse where
  | error (status : Nat) (code message : String)
  | unauthorized (code : ErrorCode) (tenant : Option String)
  | registered (tenant : String) (suiteVersion : UInt8)
  | started (handshakeId : HandshakeId) (loginResponse : Token) (expiresInSeconds : Nat)
  | finished (bearer : Token) (expiresAt : Nat) (leaseId : LeaseId)
  deriving DecidableEq

def badRequest (message : String) : AuthResponse := .error 400 "bad_request" message
def notFound (message : String) : AuthResponse := .error 404 "not_found" message
def conflict (message : String) : AuthResponse := .error 409 "conflict" message
def internal (message : String) : AuthResponse := .error 500 "internal" message
def databaseError (err : String) : AuthResponse := internal ("database error: " ++ err)

/-- `b64_decode`. -/
def b64Decode (field : String) : Token → Except AuthResponse Bytes
  | .encoded bytes => .ok bytes
  | .other _ => .error (badRequest ("`" ++ field ++ "` is not valid url-safe-base64"))

/-- A message of the peer that does not deserialise. -/
def malformed (field : String) : OpaqueError → AuthResponse
  | .serialization detail => badRequest ("malformed `" ++ field ++ "`: " ++ detail)
  | err => internal ("opaque error: " ++ err.display)

/-- `api_auth_login` picks the step from the fields that are there. -/
def ApiLoginRequest.route (body : ApiLoginRequest) :
    Except AuthResponse (LoginStartRequest ⊕ LoginFinishRequest) :=
  match body.opaqueLoginRequest with
  | some loginRequest =>
    match body.tenant with
    | none => .error (badRequest "`tenant` is required for login start")
    | some tenant =>
      .ok (.inl
        { tenant := tenant
          credentialIdentifier := body.credentialIdentifier.getD tenant
          loginRequest := loginRequest
          leaseSecondsRequested := body.leaseSecondsRequested })
  | none =>
    match body.handshakeId, body.opaqueLoginFinalization with
    | some handshakeId, some finalization => .ok (.inr ⟨handshakeId, finalization⟩)
    | _, _ =>
      .error (badRequest ("expected either `opaque_login_request` or " ++
        "(`handshake_id`, `opaque_login_finalization`)"))

/-- `OtpVerifyError`. -/
inductive OtpVerifyError where
  | invalidOtp
  | expired
  | alreadyConsumed
  | db (err : String)

def OtpVerifyError.response : OtpVerifyError → AuthResponse
  | .invalidOtp => badRequest "invalid OTP"
  | .expired => badRequest "invitation OTP has expired"
  | .alreadyConsumed => badRequest "invitation OTP has already been used"
  | .db err => databaseError err

-- ════════════════════════════════════════════════════════════════════════
-- The pending map
-- ════════════════════════════════════════════════════════════════════════

/-- An entry of the map.  Nothing in the code reads `start`, the number of the
    call that made it. -/
structure PendingEntry where
  tenantId : Option TenantId
  stateBytes : Bytes
  leaseSecondsRequested : Nat
  createdAt : Nat
  start : Nat
  deriving DecidableEq

abbrev PendingMap := FiniteMap HandshakeId PendingEntry

def PendingEntry.expired (entry : PendingEntry) (now : Nat) : Bool :=
  seconds pendingTtl < now - entry.createdAt

inductive PendingError where
  | notFound
  | expired
  | collision
  deriving DecidableEq

variable (K : OpaqueKe)

structure PendingTaken where
  tenantId : Option TenantId
  state : K.ServerLogin
  leaseSecondsRequested : Nat

def insertPending (pending : PendingMap) (handshakeId : HandshakeId) (entry : PendingEntry) :
    Except PendingError PendingMap :=
  if (pending.lookup handshakeId).isSome then .error .collision
  else .ok (pending.insert handshakeId entry)

/-- `take` reads an entry it has removed. -/
def PendingEntry.taken (entry : PendingEntry) (now : Nat) : Except PendingError (PendingTaken K) :=
  if entry.expired now then .error .expired
  else
    match K.deserializeLogin entry.stateBytes with
    | .error _ => .error .notFound
    | .ok state => .ok ⟨entry.tenantId, state, entry.leaseSecondsRequested⟩

/-- `take`: the entry is removed whether or not it is good. -/
def takePending (pending : PendingMap) (handshakeId : HandshakeId) (now : Nat) :
    Except PendingError (PendingTaken K) × PendingMap :=
  match pending.lookup handshakeId with
  | none => (.error .notFound, pending)
  | some entry => (entry.taken K now, pending.erase handshakeId)

def sweepPending (pending : PendingMap) (now : Nat) : PendingMap :=
  pending.retain fun _ entry => !entry.expired now

-- ════════════════════════════════════════════════════════════════════════
-- The checks of a call
-- ════════════════════════════════════════════════════════════════════════

/-- What a login start does before its first store call. -/
def LoginStartRequest.request (body : LoginStartRequest) :
    Except AuthResponse K.CredentialRequest := do
  let bytes ← b64Decode "login_request" body.loginRequest
  ((K.deserializeRequest bytes).mapError .fromProtocol).mapError (malformed "login_request")

def LoginFinishRequest.finalization (body : LoginFinishRequest) :
    Except AuthResponse K.CredentialFinalization := do
  let bytes ← b64Decode "login_finalization" body.loginFinalization
  ((K.deserializeFinalization bytes).mapError .fromProtocol).mapError
    (malformed "login_finalization")

def RegisterFinishRequest.upload (body : RegisterFinishRequest) :
    Except AuthResponse K.RegistrationUpload := do
  let bytes ← b64Decode "registration_upload" body.registrationUpload
  ((K.deserializeUpload bytes).mapError .fromProtocol).mapError (malformed "registration_upload")

/-- The response to a finalisation that OPAQUE refuses. -/
def loginError : OpaqueError → AuthResponse
  | .invalidLogin => .unauthorized .invalidBearer none
  | err => internal ("opaque server error: " ++ err.display)

/-- Who logged in, and what proves it. -/
structure Authenticated where
  tenantId : TenantId
  finalization : K.CredentialFinalization
  sessionKey : Bytes

/-- What `login_finish` does between `take` and `insert_lease`. -/
def LoginFinishRequest.authenticate (body : LoginFinishRequest) (taken : PendingTaken K) :
    Except AuthResponse (Authenticated K) := do
  let finalization ← body.finalization K
  let sessionKey ← (K.loginFinish taken.state finalization).mapError loginError
  match taken.tenantId with
  | none => .error (.unauthorized .invalidBearer none)
  | some tenantId => .ok ⟨tenantId, finalization, sessionKey⟩

-- ════════════════════════════════════════════════════════════════════════
-- Calls
-- ════════════════════════════════════════════════════════════════════════

/-- What a login start found and began. -/
structure Start where
  tenantId : Option TenantId
  passwordFile : Option PasswordFile
  state : K.ServerLogin
  createdAt : Nat

/-- A lease about to be inserted, or inserted: the start whose entry the finish
    took, when the finish arrived, and what it presented. -/
structure Mint where
  start : Nat
  arrivedAt : Nat
  tenantId : TenantId
  finalization : K.CredentialFinalization
  sessionKey : Bytes
  leaseSecondsRequested : Nat
  bearer : Bearer

/-- The step a call makes next, with what it carries to it. -/
inductive Stage where
  | lookupTenant (body : LoginStartRequest) (request : K.CredentialRequest)
  | loadPasswordFile (body : LoginStartRequest) (request : K.CredentialRequest)
      (tenantId : TenantId)
  | begin (body : LoginStartRequest) (request : K.CredentialRequest)
      (tenantId : Option TenantId) (file : Option PasswordFile)
  | insertPending (response : K.CredentialResponse) (entry : PendingEntry)
  | take (body : LoginFinishRequest)
  | insertLease (body : LoginFinishRequest) (mint : Mint K) (issuedAt : Nat)
  | registerLookup (body : RegisterFinishRequest)
  | verifyOtp (body : RegisterFinishRequest) (tenantId : TenantId)
  | insertFile (body : RegisterFinishRequest) (tenantId : TenantId) (file : PasswordFile)
  | rereadFile (body : RegisterFinishRequest) (tenantId : TenantId) (file : PasswordFile)

/-- `Uuid::new_v4` and `Instant::now` where the handler starts. -/
structure AuthCall where
  handshakeId : HandshakeId
  arrivedAt : Nat
  stage : Stage K

/-- An answered call: a finish that took an entry has the number of its start. -/
structure Answered where
  took : Option (Nat × LoginFinishRequest)
  response : AuthResponse

/-- The broker process and the tables.  Nothing in the code reads the fields from
    `answers` on: what was answered, the starts, the leases inserted, and the
    password files that were ever stored. -/
structure Handshakes where
  now : Nat
  tenants : FiniteMap TenantId String
  passwordFiles : FiniteMap TenantId Bytes
  leases : LeaseStore
  pending : PendingMap
  calls : Nat
  inFlight : FiniteMap Nat (AuthCall K)
  answers : FiniteMap Nat Answered
  starts : FiniteMap Nat (Start K)
  minted : List (LeaseId × Mint K)
  registered : List (TenantId × Bytes)

/-- How a step of a call comes out. -/
inductive Outcome where
  | ok
  /-- the store call fails -/
  | fail (err : String)
  | coins (coins : K.Coins)
  | otp (result : Except OtpVerifyError Unit)
  /-- the fresh bearer of a finish, and the time of its lease -/
  | bearer (bearer : Bearer) (issuedAt : Nat)
  /-- the id of the row -/
  | row (id : LeaseId)
  /-- the row is written and the answer of the store is lost -/
  | lost (id : LeaseId) (err : String)

inductive HandshakeEvent where
  | tick (elapsed : Nat)
  | arrive (request : AuthRequest) (handshakeId : HandshakeId)
  | run (call : Nat) (outcome : Outcome K)
  | drop (call : Nat)
  /-- the prune task, with the time it has read -/
  | sweep (reading : Nat)
  | restart
  | putTenant (id : TenantId) (name : String)
  | deleteTenant (id : TenantId)
  | validate (bearer : Bearer) (time : Nat)
  | revoke (hash : BearerHash) (time : Nat)
  | revokeById (id : LeaseId) (time : Nat)

namespace Handshakes

variable {K}

def init : Handshakes K where
  now := 0
  tenants := ∅
  passwordFiles := ∅
  leases := ∅
  pending := ∅
  calls := 0
  inFlight := ∅
  answers := ∅
  starts := ∅
  minted := []
  registered := []

def advance (s : Handshakes K) (call : Nat) (c : AuthCall K) (stage : Stage K) : Handshakes K :=
  { s with inFlight := s.inFlight.insert call { c with stage := stage } }

def answerFinish (s : Handshakes K) (call : Nat) (took : Option (Nat × LoginFinishRequest))
    (response : AuthResponse) : Handshakes K :=
  { s with
    inFlight := s.inFlight.erase call
    answers := s.answers.insert call ⟨took, response⟩ }

def answer (s : Handshakes K) (call : Nat) (response : AuthResponse) : Handshakes K :=
  s.answerFinish call none response

/-- `lookup_tenant_id_by_name`. -/
def tenantId? (s : Handshakes K) (name : String) : Option TenantId :=
  (s.tenants.find? fun _ other => other = name).map Prod.fst

variable (K)

/-- `load_password_file`. -/
def loadPasswordFile (s : Handshakes K) (tenantId : TenantId) :
    Except String (Option PasswordFile) :=
  match s.passwordFiles.lookup tenantId with
  | none => .ok none
  | some bytes =>
    ((K.passwordFile bytes).map some).mapError fun _ =>
      "Custom Error: malformed password_file in DB"

variable {K}

/-- The first stage of a request, or its answer. -/
def enter (request : AuthRequest) : Except AuthResponse (Stage K) :=
  match request with
  | .loginStart body => (body.request K).map (.lookupTenant body)
  | .loginFinish body => .ok (.take body)
  | .registerFinish body => .ok (.registerLookup body)
  | .apiAuthLogin body => body.route.bind fun
    | .inl start => (start.request K).map (.lookupTenant start)
    | .inr finish => .ok (.take finish)

def arrive (s : Handshakes K) (request : AuthRequest) (handshakeId : HandshakeId) : Handshakes K :=
  let s' := { s with calls := s.calls + 1 }
  match enter request with
  | .error response => s'.answer s.calls response
  | .ok stage => s'.advance s.calls ⟨handshakeId, s.now, stage⟩ stage

variable (setup : Bytes)

/-- The steps of `login_start_inner_with_handshake_id`. -/
def startStep (s : Handshakes K) (call : Nat) (c : AuthCall K) :
    Outcome K → Stage K → Option (Handshakes K)
  | .fail err, .lookupTenant _ _ | .fail err, .loadPasswordFile _ _ _ =>
    some (s.answer call (databaseError err))
  | .ok, .lookupTenant body request =>
    match s.tenantId? body.tenant with
    | some tenantId => some (s.advance call c (.loadPasswordFile body request tenantId))
    | none => some (s.advance call c (.begin body request none none))
  | .ok, .loadPasswordFile body request tenantId =>
    match s.loadPasswordFile K tenantId with
    | .ok file => some (s.advance call c (.begin body request (some tenantId) file))
    | .error err => some (s.answer call (databaseError err))
  | .coins coins, .begin body request tenantId file =>
    match K.loginStart coins setup file request body.credentialIdentifier.toUTF8.toList with
    | .error err => some (s.answer call (internal ("opaque server error: " ++ err.display)))
    | .ok (state, response) =>
      let entry : PendingEntry :=
        { tenantId := tenantId
          stateBytes := K.serializeLogin state
          leaseSecondsRequested := body.leaseSecondsRequested.getD leaseDefaultSeconds
          createdAt := s.now
          start := call }
      let start : Start K := ⟨tenantId, file, state, s.now⟩
      some ({ s with starts := s.starts.insert call start }.advance call c
        (.insertPending response entry))
  | .ok, .insertPending response entry =>
    match insertPending s.pending c.handshakeId entry with
    | .error _ => some (s.answer call (internal "handshake_id collision (RNG failure?)"))
    | .ok pending =>
      some ({ s with pending := pending }.answer call
        (.started c.handshakeId (.encoded (K.serializeResponse response)) pendingTtl))
  | _, _ => none

/-- The steps of `login_finish_inner`. -/
def finishStep (s : Handshakes K) (call : Nat) (c : AuthCall K) :
    Outcome K → Stage K → Option (Handshakes K)
  | .bearer bearer issuedAt, .take body =>
    let id := body.handshakeId
    match s.pending.lookup id, takePending K s.pending id c.arrivedAt with
    | some entry, (.ok taken, pending) =>
      match body.authenticate K taken with
      | .error response =>
        some ({ s with pending := pending }.answerFinish call (some (entry.start, body)) response)
      | .ok who =>
        some ({ s with pending := pending }.advance call c (.insertLease body
          { start := entry.start
            arrivedAt := c.arrivedAt
            tenantId := who.tenantId
            finalization := who.finalization
            sessionKey := who.sessionKey
            leaseSecondsRequested := taken.leaseSecondsRequested
            bearer := bearer } issuedAt))
    | _, (_, pending) =>
      some ({ s with pending := pending }.answer call
        (notFound "unknown or expired handshake_id"))
  | .fail err, .insertLease body mint _ =>
    some (s.answerFinish call (some (mint.start, body)) (databaseError err))
  | .row id, .insertLease body mint issuedAt =>
    match s.leases.insertLease (s.tenants.lookup mint.tenantId).isSome id mint.tenantId mint.bearer
      mint.sessionKey mint.leaseSecondsRequested issuedAt with
    | none => none
    | some leases =>
      let expiresAt := issuedAt + seconds (capLeaseSeconds mint.leaseSecondsRequested)
      some ({ s with leases := leases, minted := (id, mint) :: s.minted }.answerFinish call
        (some (mint.start, body)) (.finished mint.bearer.encode expiresAt id))
  | .lost id err, .insertLease body mint issuedAt =>
    match s.leases.insertLease (s.tenants.lookup mint.tenantId).isSome id mint.tenantId mint.bearer
      mint.sessionKey mint.leaseSecondsRequested issuedAt with
    | none => none
    | some leases =>
      some ({ s with leases := leases, minted := (id, mint) :: s.minted }.answerFinish call
        (some (mint.start, body)) (databaseError err))
  | _, _ => none

/-- The steps of `register_finish`. -/
def registerStep (s : Handshakes K) (call : Nat) (c : AuthCall K) :
    Outcome K → Stage K → Option (Handshakes K)
  | .fail err, .registerLookup _ | .fail err, .insertFile _ _ _ | .fail err, .rereadFile _ _ _ =>
    some (s.answer call (databaseError err))
  | .ok, .registerLookup body =>
    match s.tenantId? body.tenant, body.otp with
    | none, _ => some (s.answer call (notFound ("unknown tenant '" ++ body.tenant ++ "'")))
    | some _, none =>
      some (s.answer call (badRequest "an invitation OTP is required to register this tenant"))
    | some tenantId, some _ => some (s.advance call c (.verifyOtp body tenantId))
  | .otp (.error err), .verifyOtp _ _ => some (s.answer call err.response)
  | .otp (.ok ()), .verifyOtp body tenantId =>
    match body.upload K with
    | .error response => some (s.answer call response)
    | .ok upload =>
      some (s.advance call c (.insertFile body tenantId (K.registrationFinish upload)))
  | .ok, .insertFile body tenantId file =>
    if (s.tenants.lookup tenantId).isNone then none
    else if (s.passwordFiles.lookup tenantId).isSome then
      some (s.advance call c (.rereadFile body tenantId file))
    else
      some ({ s with
        passwordFiles := s.passwordFiles.insert tenantId file.bytes
        registered := (tenantId, file.bytes) :: s.registered }.answer call
          (.registered body.tenant suiteVersion))
  | .ok, .rereadFile body tenantId file =>
    if s.passwordFiles.lookup tenantId = some file.bytes then
      some (s.answer call (.registered body.tenant suiteVersion))
    else
      some (s.answer call
        (conflict ("a password file already exists for tenant '" ++ body.tenant ++ "'")))
  | _, _ => none

def runStep (s : Handshakes K) (call : Nat) (c : AuthCall K) (outcome : Outcome K) :
    Option (Handshakes K) :=
  match c.stage with
  | .lookupTenant _ _ | .loadPasswordFile _ _ _ | .begin _ _ _ _ | .insertPending _ _ =>
    s.startStep setup call c outcome c.stage
  | .take _ | .insertLease _ _ _ => s.finishStep call c outcome c.stage
  | .registerLookup _ | .verifyOtp _ _ | .insertFile _ _ _ | .rereadFile _ _ _ =>
    s.registerStep call c outcome c.stage

def next (s : Handshakes K) : HandshakeEvent K → Option (Handshakes K)
  | .tick elapsed => some { s with now := s.now + elapsed }
  | .arrive request handshakeId => some (s.arrive request handshakeId)
  | .run call outcome => (s.inFlight.lookup call).bind fun c => s.runStep setup call c outcome
  | .drop call => some { s with inFlight := s.inFlight.erase call }
  | .sweep reading => some { s with pending := sweepPending s.pending reading }
  | .restart => some { s with pending := ∅, inFlight := ∅ }
  | .putTenant id name =>
    -- the unique index on names
    if s.tenants.all fun id' name' => id' = id || name' ≠ name then
      some { s with tenants := s.tenants.insert id name }
    else none
  | .deleteTenant id =>
    -- both references cascade
    some { s with
      tenants := s.tenants.erase id
      passwordFiles := s.passwordFiles.erase id
      leases := s.leases.retain fun _ row => row.tenantId ≠ id }
  | .validate bearer time => some { s with leases := (s.leases.validateAndExtend bearer time).2 }
  | .revoke hash time => some { s with leases := (s.leases.revoke hash time).1 }
  | .revokeById id time => some { s with leases := (s.leases.revokeById id time).1 }

end Handshakes

/-- Logins and registrations of one deployment, whose server setup is fixed. -/
def handshakes (K : OpaqueKe) (setup : Bytes) : Machine (Handshakes K) (HandshakeEvent K) where
  Start s := s = Handshakes.init
  next := Handshakes.next setup

end Botwork.AuthBroker
