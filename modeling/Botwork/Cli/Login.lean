import Botwork.Cli.Handshake

/-!
# A login against the broker

What the two requests of an uninterrupted login come to, when the tenant is there
and has a password file.

## Main definitions

- `LoginChoices.Fresh` — what the environment chooses is new, and comes in time
- `Leased` — the login ends with a lease of the tenant

## Main results

- `leased_iff` — a login with the default identifier yields a lease just when its
  password and the tenant's name are those of the registration
-/

namespace Botwork.Cli

open Botwork.Foundations Botwork.Vault Botwork.AuthBroker

variable {K : OpaqueKe} {R : RegistrationKe K} {C : OpaqueClient K R}

/-- The handshake id and the lease are new, and the second request comes in time. -/
structure LoginChoices.Fresh (w : LoginChoices K) (s : Handshakes K) : Prop where
  handshakeId : s.pending.lookup w.handshakeId = none
  leaseId : s.leases.lookup w.leaseId = none
  bearer : s.leases.findByHash w.bearer.hash = none
  elapsed : w.elapsed ≤ seconds pendingTtl

/-- The login ends with a lease of the tenant. -/
def Leased (w : LoginChoices K) (tenantId : TenantId)
    (outcome : Option (Handshakes K × AuthResponse)) : Prop :=
  ∃ s expiresAt row, outcome = some (s, .finished w.bearer.encode expiresAt w.leaseId) ∧
    s.leases.lookup w.leaseId = some row ∧ row.tenantId = tenantId

/-- A call that has come to a stage takes its step. -/
theorem run_advance (setup : Bytes) (s : Handshakes K) (call : Nat) (c : AuthCall K)
    (stage : Stage K) (outcome : AuthBroker.Outcome K) :
    (s.advance call c stage).next setup (.run call outcome) =
      (s.advance call c stage).runStep setup call { c with stage := stage } outcome := by
  simp only [Handshakes.next, Handshakes.advance, AList.lookup_insert, Option.bind_some]

/-! ### The first request -/

/-- What the default identifier makes of the first request. -/
def Surface.body (tenant : String) (loginRequest : Token) (surface : Surface) : LoginStartRequest :=
  ⟨tenant, tenant, loginRequest, surface.leaseSeconds⟩

theorem enter_start {surface : Surface} {tenant : String} (hdefault : surface.Default tenant)
    (loginRequest : Token) :
    (Handshakes.enter (surface.start tenant loginRequest) : Except AuthResponse (Stage K)) =
      ((surface.body tenant loginRequest).request K).map
        (.lookupTenant (surface.body tenant loginRequest)) := by
  cases surface with
  | cli config lease =>
    have hresolve := Config.Silent.resolve hdefault
    simp only [Surface.start, Handshakes.enter, hresolve]
    rfl
  | api lease => rfl

theorem request_body (ideal : C.Ideal) (surface : Surface) (tenant : String)
    (request : K.CredentialRequest) :
    (surface.body tenant (.encoded (C.serializeRequest request))).request K = .ok request := by
  show ((K.deserializeRequest (C.serializeRequest request)).mapError _).mapError _ = _
  rw [ideal.request]
  rfl

/-- What a first request leaves. -/
structure Begun (s started : Handshakes K) (handshakeId : HandshakeId) (entry : PendingEntry) :
    Prop where
  tenants : started.tenants = s.tenants
  leases : started.leases = s.leases
  now : started.now = s.now
  pending : started.pending.lookup handshakeId = some entry

theorem startLogin_eq (ideal : C.Ideal) {setup : Bytes} {s : Handshakes K} {surface : Surface}
    {tenant : String} {request : K.CredentialRequest} {w : LoginChoices K} {tenantId : TenantId}
    {file : PasswordFile} {state : K.ServerLogin} {response : K.CredentialResponse}
    (hdefault : surface.Default tenant) (htenant : s.tenantId? tenant = some tenantId)
    (hfile : s.loadPasswordFile K tenantId = .ok (some file))
    (hstart : K.loginStart w.serverCoins setup (some file) request tenant.toUTF8.toList =
      .ok (state, response))
    (hfree : s.pending.lookup w.handshakeId = none) :
    ∃ started, startLogin C setup s surface tenant request w =
        some (started, .started w.handshakeId (.encoded (K.serializeResponse response)) pendingTtl) ∧
      Begun s started w.handshakeId
        { tenantId := some tenantId
          stateBytes := K.serializeLogin state
          leaseSecondsRequested := surface.leaseSeconds.getD leaseDefaultSeconds
          createdAt := s.now
          start := s.calls } := by
  set body := surface.body tenant (.encoded (C.serializeRequest request)) with hbody
  set c : AuthCall K := ⟨w.handshakeId, s.now, .lookupTenant body request⟩ with hc
  set arrived : Handshakes K :=
    { s with calls := s.calls + 1 }.advance s.calls c (.lookupTenant body request) with harrived
  set looked := arrived.advance s.calls c (.loadPasswordFile body request tenantId) with hlooked
  set loaded := looked.advance s.calls c (.begin body request (some tenantId) (some file))
    with hloaded
  set entry : PendingEntry :=
    { tenantId := some tenantId
      stateBytes := K.serializeLogin state
      leaseSecondsRequested := surface.leaseSeconds.getD leaseDefaultSeconds
      createdAt := s.now
      start := s.calls } with hentry
  set begun : Handshakes K :=
    { loaded with
      starts := loaded.starts.insert s.calls ⟨some tenantId, some file, state, s.now⟩ }.advance
        s.calls c (.insertPending response entry) with hbegun
  set started : Handshakes K :=
    { begun with pending := begun.pending.insert w.handshakeId entry }.answer s.calls
      (.started w.handshakeId (.encoded (K.serializeResponse response)) pendingTtl) with hstarted
  have h₁ : s.next setup (.arrive (surface.start tenant (.encoded (C.serializeRequest request)))
      w.handshakeId) = some arrived := by
    show some (s.arrive _ _) = _
    rw [Handshakes.arrive, enter_start hdefault, request_body ideal]
    rfl
  have h₂ : arrived.next setup (.run s.calls .ok) = some looked := by
    have htenant' : arrived.tenantId? body.tenant = some tenantId := htenant
    rw [harrived, run_advance, ← harrived]
    simp only [Handshakes.runStep, Handshakes.startStep, htenant']
    rfl
  have h₃ : looked.next setup (.run s.calls .ok) = some loaded := by
    have hfile' : looked.loadPasswordFile K tenantId = .ok (some file) := hfile
    rw [hlooked, run_advance, ← hlooked]
    simp only [Handshakes.runStep, Handshakes.startStep, hfile']
    rfl
  have h₄ : loaded.next setup (.run s.calls (.coins w.serverCoins)) = some begun := by
    have hstart' : K.loginStart w.serverCoins setup (some file) request
        body.credentialIdentifier.toUTF8.toList = .ok (state, response) := hstart
    rw [hloaded, run_advance, ← hloaded]
    simp only [Handshakes.runStep, Handshakes.startStep, hstart']
    rfl
  have hinsert : AuthBroker.insertPending begun.pending c.handshakeId entry =
      .ok (begun.pending.insert w.handshakeId entry) := by
    have hnone : begun.pending.lookup w.handshakeId = none := hfree
    rw [AuthBroker.insertPending, show c.handshakeId = w.handshakeId from rfl, hnone]
    exact if_neg Bool.false_ne_true
  have h₅ : begun.next setup (.run s.calls .ok) = some started := by
    rw [hbegun, run_advance, ← hbegun]
    simp only [Handshakes.runStep, Handshakes.startStep, hinsert]
    rfl
  have hexec : (handshakes K setup).exec s [.arrive (surface.start tenant
      (.encoded (C.serializeRequest request))) w.handshakeId, .run s.calls .ok, .run s.calls .ok,
        .run s.calls (.coins w.serverCoins), .run s.calls .ok] = some started := by
    simp only [Machine.exec, handshakes, h₁, h₂, h₃, h₄, h₅, Option.bind_some]
  have hanswer : started.answers.lookup s.calls = some
      ⟨none, .started w.handshakeId (.encoded (K.serializeResponse response)) pendingTtl⟩ :=
    AList.lookup_insert _
  refine ⟨started, ?_, ⟨rfl, rfl, rfl, AList.lookup_insert _⟩⟩
  rw [startLogin, hexec]
  show (started.answers.lookup s.calls).bind _ = _
  rw [hanswer]
  rfl

/-! ### The second request -/

/-- A fresh lease of a tenant that exists is inserted. -/
theorem insertLease_eq_some {leases : LeaseStore} {tenantExists : Bool} {id : LeaseId}
    {tenantId : TenantId} {bearer : Bearer} (sessionKey : Bytes) (leaseSeconds now : Nat)
    (hid : leases.lookup id = none) (hbearer : leases.findByHash bearer.hash = none)
    (hexists : tenantExists = true) :
    ∃ leases', leases.insertLease tenantExists id tenantId bearer sessionKey leaseSeconds now =
      some leases' ∧ ∃ row, leases'.lookup id = some row ∧ row.tenantId = tenantId := by
  rw [LeaseStore.insertLease, if_neg]
  · exact ⟨_, rfl, _, AList.lookup_insert _, rfl⟩
  · rw [hid, hbearer, hexists]
    simp

section

variable {setup : Bytes} {s : Handshakes K} {surface : Surface} {w : LoginChoices K}
  {entry : PendingEntry} {tenantId : TenantId} {state : K.ServerLogin}
  {finalization : K.CredentialFinalization}

/-- The body of the second request. -/
def finishBody (C : OpaqueClient K R) (w : LoginChoices K) (finalization : K.CredentialFinalization) :
    LoginFinishRequest := ⟨w.handshakeId, .encoded (C.serializeFinalization finalization)⟩

/-- The call of the second request, when it arrives. -/
def finishCall (C : OpaqueClient K R) (s : Handshakes K) (w : LoginChoices K)
    (finalization : K.CredentialFinalization) : AuthCall K :=
  ⟨w.handshakeId, s.now + w.elapsed, .take (finishBody C w finalization)⟩

/-- The second request has arrived. -/
def arrivedFinish (C : OpaqueClient K R) (s : Handshakes K) (w : LoginChoices K)
    (finalization : K.CredentialFinalization) : Handshakes K :=
  { s with now := s.now + w.elapsed, calls := s.calls + 1 }.advance s.calls
    (finishCall C s w finalization) (.take (finishBody C w finalization))

/-- The first step of the second request. -/
theorem next_arrivedFinish (setup : Bytes) (outcome : AuthBroker.Outcome K) :
    (arrivedFinish C s w finalization).next setup (.run s.calls outcome) =
      (arrivedFinish C s w finalization).finishStep s.calls (finishCall C s w finalization) outcome
        (.take (finishBody C w finalization)) := by
  rw [arrivedFinish, run_advance]
  rfl

/-- The broker answers the second request when `taken` comes of its step. -/
theorem finishLogin_of_taken {taken finished : Handshakes K} {answer : Answered}
    (htake : (arrivedFinish C s w finalization).next setup (.run s.calls (.bearer w.bearer w.issuedAt)) =
      some taken)
    (hinsert : insertLease setup taken s.calls w.leaseId = some finished)
    (hanswer : finished.answers.lookup s.calls = some answer) :
    finishLogin C setup s surface w.handshakeId finalization w = some (finished, answer.response) := by
  have henter : (Handshakes.enter (surface.finish w.handshakeId
      (.encoded (C.serializeFinalization finalization))) : Except AuthResponse (Stage K)) =
        .ok (.take (finishBody C w finalization)) := by
    cases surface <;> rfl
  set ticked : Handshakes K := { s with now := s.now + w.elapsed }
  have h₀ : s.next setup (.tick w.elapsed) = some ticked := rfl
  have h₁ : ticked.next setup (.arrive (surface.finish w.handshakeId
      (.encoded (C.serializeFinalization finalization))) w.handshakeId) =
        some (arrivedFinish C s w finalization) := by
    show some (ticked.arrive _ _) = _
    rw [Handshakes.arrive, henter]
    rfl
  have hexec : (handshakes K setup).exec s [.tick w.elapsed, .arrive (surface.finish w.handshakeId
      (.encoded (C.serializeFinalization finalization))) w.handshakeId,
        .run s.calls (.bearer w.bearer w.issuedAt)] = some taken := by
    simp only [Machine.exec, handshakes, h₀, h₁, htake, Option.bind_some]
  rw [finishLogin, hexec]
  show (insertLease setup taken s.calls w.leaseId).bind _ = _
  rw [hinsert]
  show (finished.answers.lookup s.calls).bind _ = _
  rw [hanswer]
  rfl

/-- The entry of a login that is under way, for a tenant. -/
structure Underway (s : Handshakes K) (handshakeId : HandshakeId) (entry : PendingEntry)
    (tenantId : TenantId) (state : K.ServerLogin) : Prop where
  lookup : s.pending.lookup handshakeId = some entry
  tenantId : entry.tenantId = some tenantId
  stateBytes : entry.stateBytes = K.serializeLogin state
  createdAt : entry.createdAt = s.now

/-- What the second request takes. -/
theorem takePending_eq (ideal : C.Ideal) (h : Underway s w.handshakeId entry tenantId state)
    (helapsed : w.elapsed ≤ seconds pendingTtl) :
    takePending K s.pending w.handshakeId (s.now + w.elapsed) =
      (.ok ⟨some tenantId, state, entry.leaseSecondsRequested⟩, s.pending.erase w.handshakeId) := by
  have hfresh : entry.expired (s.now + w.elapsed) = false := by
    rw [PendingEntry.expired, h.createdAt]
    apply decide_eq_false
    omega
  have htaken : entry.taken K (s.now + w.elapsed) =
      .ok ⟨some tenantId, state, entry.leaseSecondsRequested⟩ := by
    rw [PendingEntry.taken, hfresh, h.stateBytes, ideal.server.deserialize_serialize, h.tenantId]
    rfl
  rw [takePending, h.lookup]
  show (entry.taken K (s.now + w.elapsed), _) = _
  rw [htaken]

theorem finalization_finishBody (ideal : C.Ideal) (w : LoginChoices K)
    (finalization : K.CredentialFinalization) :
    (finishBody C w finalization).finalization K = .ok finalization := by
  show ((K.deserializeFinalization (C.serializeFinalization finalization)).mapError _).mapError _ = _
  rw [ideal.finalization]
  rfl

/-- A finalisation that completes the login earns a lease. -/
theorem finishLogin_of_ok (ideal : C.Ideal) (h : Underway s w.handshakeId entry tenantId state)
    (helapsed : w.elapsed ≤ seconds pendingTtl)
    (hexists : (s.tenants.lookup tenantId).isSome = true)
    (hlease : s.leases.lookup w.leaseId = none) (hbearer : s.leases.findByHash w.bearer.hash = none)
    {sessionKey : Bytes} (hfinish : K.finish state finalization = .ok sessionKey) :
    Leased w tenantId (finishLogin C setup s surface w.handshakeId finalization w) := by
  set taken : PendingTaken K := ⟨some tenantId, state, entry.leaseSecondsRequested⟩ with htaken
  set arrived := arrivedFinish C s w finalization with harrived
  have hlook : arrived.pending.lookup (finishBody C w finalization).handshakeId = some entry :=
    h.lookup
  have htake : takePending K arrived.pending (finishBody C w finalization).handshakeId
      (finishCall C s w finalization).arrivedAt =
      (.ok taken, s.pending.erase w.handshakeId) := takePending_eq ideal h helapsed
  have hauth : (finishBody C w finalization).authenticate K taken = .ok ⟨tenantId, finalization, sessionKey⟩ := by
    rw [LoginFinishRequest.authenticate, finalization_finishBody ideal w finalization]
    show ((K.loginFinish state finalization).mapError loginError >>= _) = _
    rw [OpaqueKe.loginFinish, hfinish]
    rfl
  set mint : Mint K :=
    { start := entry.start
      arrivedAt := s.now + w.elapsed
      tenantId := tenantId
      finalization := finalization
      sessionKey := sessionKey
      leaseSecondsRequested := taken.leaseSecondsRequested
      bearer := w.bearer } with hmint
  set minting : Handshakes K := { arrived with pending := s.pending.erase w.handshakeId }.advance
    s.calls (finishCall C s w finalization)
      (.insertLease (finishBody C w finalization) mint w.issuedAt) with hminting
  have h₂ : arrived.next setup (.run s.calls (.bearer w.bearer w.issuedAt)) = some minting := by
    rw [next_arrivedFinish]
    simp only [Handshakes.finishStep, ← harrived, hlook, htake, hauth]
    rfl
  obtain ⟨leases, hleases, row, hrow, howner⟩ := insertLease_eq_some sessionKey
    taken.leaseSecondsRequested w.issuedAt hlease hbearer hexists
  set expiresAt := w.issuedAt + seconds (capLeaseSeconds taken.leaseSecondsRequested)
  set finished : Handshakes K :=
    { minting with leases := leases, minted := (w.leaseId, mint) :: minting.minted }.answerFinish
      s.calls (some (mint.start, finishBody C w finalization)) (.finished w.bearer.encode expiresAt w.leaseId)
    with hfinished
  have h₃ : minting.next setup (.run s.calls (.row w.leaseId)) = some finished := by
    have hleases' : minting.leases.insertLease (minting.tenants.lookup mint.tenantId).isSome
        w.leaseId mint.tenantId mint.bearer mint.sessionKey mint.leaseSecondsRequested w.issuedAt =
          some leases := hleases
    rw [hminting, run_advance, ← hminting]
    simp only [Handshakes.runStep, Handshakes.finishStep, hleases']
    rfl
  have hinserted : insertLease setup minting s.calls w.leaseId = some finished := by
    have hinFlight : minting.inFlight.lookup s.calls =
        some { finishCall C s w finalization with
          stage := .insertLease (finishBody C w finalization) mint w.issuedAt } := AList.lookup_insert _
    rw [insertLease, hinFlight]
    exact (if_pos rfl).trans h₃
  exact ⟨finished, expiresAt, row, finishLogin_of_taken h₂ hinserted (AList.lookup_insert _), hrow,
    howner⟩

/-- A finalisation that does not is refused. -/
theorem finishLogin_of_error (ideal : C.Ideal) (h : Underway s w.handshakeId entry tenantId state)
    (helapsed : w.elapsed ≤ seconds pendingTtl) {err : ProtocolError}
    (hfinish : K.finish state finalization = .error err) :
    ¬ Leased w tenantId (finishLogin C setup s surface w.handshakeId finalization w) := by
  set taken : PendingTaken K := ⟨some tenantId, state, entry.leaseSecondsRequested⟩ with htaken
  set arrived := arrivedFinish C s w finalization with harrived
  have hlook : arrived.pending.lookup (finishBody C w finalization).handshakeId = some entry :=
    h.lookup
  have htake : takePending K arrived.pending (finishBody C w finalization).handshakeId
      (finishCall C s w finalization).arrivedAt =
      (.ok taken, s.pending.erase w.handshakeId) := takePending_eq ideal h helapsed
  have hauth : (finishBody C w finalization).authenticate K taken = .error (loginError (.fromProtocol err)) := by
    rw [LoginFinishRequest.authenticate, finalization_finishBody ideal w finalization]
    show ((K.loginFinish state finalization).mapError loginError >>= _) = _
    rw [OpaqueKe.loginFinish, hfinish]
    rfl
  set refused : Handshakes K := { arrived with pending := s.pending.erase w.handshakeId }.answerFinish
    s.calls (some (entry.start, finishBody C w finalization)) (loginError (.fromProtocol err)) with hrefused
  have h₂ : arrived.next setup (.run s.calls (.bearer w.bearer w.issuedAt)) = some refused := by
    rw [next_arrivedFinish]
    simp only [Handshakes.finishStep, ← harrived, hlook, htake, hauth]
    rfl
  have hinserted : insertLease setup refused s.calls w.leaseId = some refused := by
    have hnone : refused.inFlight.lookup s.calls = none := AList.lookup_erase _ _
    rw [insertLease, hnone]
    exact if_neg Bool.false_ne_true
  rw [finishLogin_of_taken h₂ hinserted (AList.lookup_insert _)]
  rintro ⟨_, expiresAt, row, heq, -⟩
  obtain ⟨-, hresponse⟩ := Prod.mk.inj (Option.some.inj heq)
  unfold loginError at hresponse
  split at hresponse <;> cases hresponse

end

/-! ### The login -/

/-- The stored bytes of a registration are loaded as its password file. -/
theorem passwordFile_registrationFinish (ideal : C.Ideal) (upload : K.RegistrationUpload) :
    K.passwordFile (K.registrationFinish upload).bytes = .ok (K.registrationFinish upload) := by
  rw [OpaqueKe.passwordFile]
  show ((K.deserializeRegistration (K.serializeRegistration _)).map _).mapError _ = _
  rw [ideal.registration]
  rfl

/-- The server starts a login with the registration it has stored. -/
theorem loginStart_registrationFinish (ideal : C.Ideal) {setup credential : Bytes}
    {inner : K.ServerSetup} {upload : K.RegistrationUpload} {coins : K.Coins}
    {request : K.CredentialRequest} (hsetup : K.deserializeSetup setup = .ok inner) :
    K.loginStart coins setup (some (K.registrationFinish upload)) request credential =
      (K.start coins inner (some (K.finishRegistration upload)) request credential).mapError
        .fromProtocol := by
  rw [OpaqueKe.loginStart, hsetup]
  show ((some (K.registrationFinish upload)).mapM K.toRegistration).bind _ = _
  have hrecord : (some (K.registrationFinish upload)).mapM K.toRegistration =
      .ok (some (K.finishRegistration upload)) := by
    show (K.toRegistration _).bind _ = _
    rw [OpaqueKe.toRegistration]
    show ((K.deserializeRegistration (K.serializeRegistration _)).mapError _).bind _ = _
    rw [ideal.registration]
    rfl
  rw [hrecord]
  rfl

theorem leased_iff (ideal : C.Ideal) {setup credential password : Bytes} {inner : K.ServerSetup}
    {upload : K.RegistrationUpload} {s : Handshakes K} {surface : Surface} {tenant : String}
    {w : LoginChoices K} {tenantId : TenantId}
    (hsetup : K.deserializeSetup setup = .ok inner)
    (hregistered : C.Registered inner credential password upload)
    (hdefault : surface.Default tenant) (htenant : s.tenantId? tenant = some tenantId)
    (hexists : (s.tenants.lookup tenantId).isSome = true)
    (hfile : s.passwordFiles.lookup tenantId = some (K.registrationFinish upload).bytes)
    (hfresh : w.Fresh s) (password' : Bytes) :
    Leased w tenantId (login C setup s surface tenant password' w) ↔
      password' = password ∧ tenant.toUTF8.toList = credential := by
  obtain ⟨state, response, hstart⟩ := ideal.begins w.serverCoins inner (K.finishRegistration upload)
    (C.loginStart w.clientCoins password').1 tenant.toUTF8.toList
  have hload : s.loadPasswordFile K tenantId = .ok (some (K.registrationFinish upload)) := by
    rw [Handshakes.loadPasswordFile, hfile]
    show ((K.passwordFile (K.registrationFinish upload).bytes).map some).mapError _ = _
    rw [passwordFile_registrationFinish ideal]
    rfl
  have hserver : K.loginStart w.serverCoins setup (some (K.registrationFinish upload))
      (C.loginStart w.clientCoins password').1 tenant.toUTF8.toList = .ok (state, response) := by
    rw [loginStart_registrationFinish ideal hsetup, hstart]
    rfl
  obtain ⟨started, hstarted, hbegun⟩ :=
    startLogin_eq ideal hdefault htenant hload hserver hfresh.handshakeId
  have hlogin : login C setup s surface tenant password' w =
      (C.loginFinish (C.loginStart w.clientCoins password').2 password' response).toOption.bind
        fun finalization => finishLogin C setup started surface w.handshakeId finalization w := by
    simp only [login, hstarted]
    show (C.deserializeResponse (K.serializeResponse response)).toOption.bind _ = _
    rw [ideal.response]
    rfl
  have hunderway := Underway.mk hbegun.pending rfl rfl hbegun.now.symm
  rw [hlogin]
  cases hclient : C.loginFinish (C.loginStart w.clientCoins password').2 password' response with
  | error err =>
    constructor
    · rintro ⟨_, _, _, hnone, -⟩
      cases hnone
    · rintro ⟨rfl, rfl⟩
      obtain ⟨finalization, _, hsome, -⟩ := ideal.succeeds hregistered hstart
      cases hclient.symm.trans hsome
  | ok finalization =>
    show Leased w tenantId (finishLogin C setup started surface w.handshakeId finalization w) ↔ _
    cases hfinish : K.finish state finalization with
    | error err =>
      constructor
      · exact fun h => absurd h (finishLogin_of_error ideal hunderway hfresh.elapsed hfinish)
      · rintro ⟨rfl, rfl⟩
        obtain ⟨finalization', sessionKey, hsome, hok⟩ := ideal.succeeds hregistered hstart
        cases hclient.symm.trans hsome
        cases hfinish.symm.trans hok
    | ok sessionKey =>
      constructor
      · exact fun _ => ideal.agrees hregistered hstart hfinish
      · intro _
        refine finishLogin_of_ok ideal hunderway hfresh.elapsed ?_ ?_ ?_ hfinish
        · rw [hbegun.tenants]
          exact hexists
        · rw [hbegun.leases]
          exact hfresh.leaseId
        · rw [hbegun.leases]
          exact hfresh.bearer

end Botwork.Cli
