import Botwork.AuthBroker.Admission

/-!
# The client's half

What `run_register` and `run_login` of the CLI send, with the credential
identifier of its config, and the two bodies of `/api/auth/login`, over a parameter
for the client's half of the OPAQUE library.

## Main definitions

- `OpaqueClient`, `OpaqueClient.Ideal` — the library, and what it promises
- `Config.resolveCredentialIdentifier`
- `OpaqueClient.Registers` — the upload of a registration
- `Surface`, `login` — a login from its first request to the answer to its last
-/

namespace Botwork.Cli

open Botwork.Foundations Botwork.Vault Botwork.AuthBroker

/-- The operations of `opaque_ke` that the client calls. -/
structure OpaqueClient (K : OpaqueKe) (R : RegistrationKe K) where
  RegistrationState : Type
  LoginState : Type
  /-- `ClientRegistration::start` -/
  registrationStart : K.Coins → Bytes → R.RegistrationRequest × RegistrationState
  /-- `ClientRegistration::finish` -/
  registrationFinish : K.Coins → RegistrationState → Bytes → R.RegistrationResponse →
    Except ProtocolError K.RegistrationUpload
  /-- `ClientLogin::start` -/
  loginStart : K.Coins → Bytes → K.CredentialRequest × LoginState
  /-- `ClientLogin::finish` -/
  loginFinish : LoginState → Bytes → K.CredentialResponse →
    Except ProtocolError K.CredentialFinalization
  serializeUpload : K.RegistrationUpload → Bytes
  serializeRequest : K.CredentialRequest → Bytes
  deserializeResponse : Bytes → Except ProtocolError K.CredentialResponse
  serializeFinalization : K.CredentialFinalization → Bytes

variable {K : OpaqueKe} {R : RegistrationKe K}

namespace OpaqueClient

variable (C : OpaqueClient K R)

/-- The upload is that of a registration of the password under the credential
    identifier. -/
def Registered (setup : K.ServerSetup) (credential password : Bytes)
    (upload : K.RegistrationUpload) : Prop :=
  ∃ coins coins' response,
    R.start setup (C.registrationStart coins password).1 credential = .ok response ∧
      C.registrationFinish coins' (C.registrationStart coins password).2 password response = .ok upload

/-- An ideal implementation: messages survive their serialisation, and a login for
    the upload of a registration succeeds just when its password and its credential
    identifier are those of the registration. -/
structure Ideal : Prop where
  server : K.Ideal
  registration : ∀ registration,
    K.deserializeRegistration (K.serializeRegistration registration) = .ok registration
  upload : ∀ upload, K.deserializeUpload (C.serializeUpload upload) = .ok upload
  request : ∀ request, K.deserializeRequest (C.serializeRequest request) = .ok request
  response : ∀ response, C.deserializeResponse (K.serializeResponse response) = .ok response
  finalization : ∀ finalization,
    K.deserializeFinalization (C.serializeFinalization finalization) = .ok finalization
  begins : ∀ coins setup registration request credential,
    ∃ login response, K.start coins setup (some registration) request credential = .ok (login, response)
  succeeds : ∀ {setup credential password upload coins coins' login response},
    C.Registered setup credential password upload →
    K.start coins setup (some (K.finishRegistration upload)) (C.loginStart coins' password).1
      credential = .ok (login, response) →
    ∃ finalization sessionKey,
      C.loginFinish (C.loginStart coins' password).2 password response = .ok finalization ∧
        K.finish login finalization = .ok sessionKey
  agrees : ∀ {setup credential credential' password password' upload coins coins' login response
      finalization sessionKey},
    C.Registered setup credential password upload →
    K.start coins setup (some (K.finishRegistration upload)) (C.loginStart coins' password').1
      credential' = .ok (login, response) →
    K.finish login finalization = .ok sessionKey → password' = password ∧ credential' = credential

end OpaqueClient

/-- `TenantConfig`. -/
structure TenantConfig where
  credentialIdentifier : Option String

/-- The config file, as far as it names credential identifiers. -/
structure Config where
  tenants : FiniteMap String TenantConfig

def Config.resolveCredentialIdentifier (config : Config) (tenant : String)
    (cliValue : Option String) : String :=
  match cliValue with
  | some value => value
  | none =>
    match (config.tenants.lookup tenant).bind (·.credentialIdentifier) with
    | some value => value
    | none => tenant

/-- The config has no identifier for the tenant. -/
def Config.Silent (config : Config) (tenant : String) : Prop :=
  (config.tenants.lookup tenant).bind (·.credentialIdentifier) = none

/-- An identifier that is left to its default is the tenant's name. -/
theorem Config.Silent.resolve {config : Config} {tenant : String} (h : config.Silent tenant) :
    config.resolveCredentialIdentifier tenant none = tenant := by
  simp only [resolveCredentialIdentifier]
  rw [h]

variable (C : OpaqueClient K R)

/-- `run_register` up to the body of its second request. -/
def OpaqueClient.Registers (config : Config) (setup : Bytes) (tenant : String) (cliValue : Option String)
    (password : Bytes) (registrationUpload : Token) : Prop :=
  ∃ inner upload, K.deserializeSetup setup = .ok inner ∧
    C.Registered inner (config.resolveCredentialIdentifier tenant cliValue).toUTF8.toList password
      upload ∧ registrationUpload = .encoded (C.serializeUpload upload)

/-- Where a login goes: `run_login`, or `/api/auth/login`. -/
inductive Surface where
  | cli (config : Config) (leaseSeconds : Nat)
  | api (leaseSeconds : Option Nat)

namespace Surface

/-- The credential identifier is left to its default. -/
def Default (tenant : String) : Surface → Prop
  | .cli config _ => config.Silent tenant
  | .api _ => True

/-- The first request. -/
def start (tenant : String) (loginRequest : Token) : Surface → AuthRequest
  | .cli config leaseSeconds => .loginStart
      { tenant := tenant
        credentialIdentifier := config.resolveCredentialIdentifier tenant none
        loginRequest := loginRequest
        leaseSecondsRequested := some leaseSeconds }
  | .api leaseSeconds => .apiAuthLogin
      { tenant := some tenant
        credentialIdentifier := none
        opaqueLoginRequest := some loginRequest
        handshakeId := none
        opaqueLoginFinalization := none
        leaseSecondsRequested := leaseSeconds }

/-- The second request. -/
def finish (handshakeId : HandshakeId) (finalization : Token) : Surface → AuthRequest
  | .cli _ _ => .loginFinish ⟨handshakeId, finalization⟩
  | .api _ => .apiAuthLogin
      { tenant := none
        credentialIdentifier := none
        opaqueLoginRequest := none
        handshakeId := some handshakeId
        opaqueLoginFinalization := some finalization
        leaseSecondsRequested := none }

def leaseSeconds : Surface → Option Nat
  | .cli _ leaseSeconds => some leaseSeconds
  | .api leaseSeconds => leaseSeconds

end Surface

/-- What the environment chooses in a login: the coins of both ends, the id of the
    handshake, the time between the two requests, and the lease. -/
structure LoginChoices (K : OpaqueKe) where
  clientCoins : K.Coins
  serverCoins : K.Coins
  handshakeId : HandshakeId
  elapsed : Nat
  bearer : Bearer
  issuedAt : Nat
  leaseId : LeaseId

/-- The first request of a login, which nothing interrupts, and its answer. -/
def startLogin (setup : Bytes) (s : Handshakes K) (surface : Surface) (tenant : String)
    (request : K.CredentialRequest) (w : LoginChoices K) : Option (Handshakes K × AuthResponse) := do
  let started ← (handshakes K setup).exec s
    [.arrive (surface.start tenant (.encoded (C.serializeRequest request))) w.handshakeId,
      .run s.calls .ok, .run s.calls .ok, .run s.calls (.coins w.serverCoins), .run s.calls .ok]
  let answer ← started.answers.lookup s.calls
  return (started, answer.response)

/-- A finish that is not refused inserts its lease. -/
def insertLease (setup : Bytes) (s : Handshakes K) (call : Nat) (leaseId : LeaseId) :
    Option (Handshakes K) :=
  if (s.inFlight.lookup call).isSome then (handshakes K setup).next s (.run call (.row leaseId))
  else some s

/-- The second request, and its answer. -/
def finishLogin (setup : Bytes) (s : Handshakes K) (surface : Surface) (handshakeId : HandshakeId)
    (finalization : K.CredentialFinalization) (w : LoginChoices K) :
    Option (Handshakes K × AuthResponse) := do
  let taken ← (handshakes K setup).exec s
    [.tick w.elapsed,
      .arrive (surface.finish handshakeId (.encoded (C.serializeFinalization finalization)))
        w.handshakeId,
      .run s.calls (.bearer w.bearer w.issuedAt)]
  let finished ← insertLease setup taken s.calls w.leaseId
  let answer ← finished.answers.lookup s.calls
  return (finished, answer.response)

/-- A login: the state behind it, and the answer to its second request; `none` when
    the client does not come that far. -/
def login (setup : Bytes) (s : Handshakes K) (surface : Surface) (tenant : String) (password : Bytes)
    (w : LoginChoices K) : Option (Handshakes K × AuthResponse) := do
  let client := C.loginStart w.clientCoins password
  match ← startLogin C setup s surface tenant client.1 w with
  | (started, .started handshakeId (.encoded bytes) _) =>
    let response ← (C.deserializeResponse bytes).toOption
    let finalization ← (C.loginFinish client.2 password response).toOption
    finishLogin C setup started surface handshakeId finalization w
  | _ => none

end Botwork.Cli
