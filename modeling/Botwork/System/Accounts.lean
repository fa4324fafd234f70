import Botwork.Cli.Login

/-!
# Accounts

A registration binds the credential identifier into the stored file, and every
client that leaves it to its default takes the tenant's name for it.  The history
is that of the broker, in which tenants are created, renamed and deleted; beside it
stands what was asked, and which registrations were answered 201.

## Main definitions

- `Accounts`, `accounts` — the broker and its history
- `Accounts.Inv` — the invariant

## Main results

- `default_login` — a registered tenant can log in just while it has the name it was
  registered under
-/

namespace Botwork.System

open Botwork.Foundations Botwork.Vault Botwork.AuthBroker Botwork.Cli

variable {K : OpaqueKe} {R : RegistrationKe K} {C : OpaqueClient K R}

/-- The registration that a stage is to store. -/
def registers : Stage K → Option (TenantId × RegisterFinishRequest)
  | .insertFile body tenantId _ | .rereadFile body tenantId _ => some (tenantId, body)
  | _ => none

/-- The broker, and what has happened: the requests by call, the tenant ids that were
    given out, and the registrations that were answered 201. -/
structure Accounts (K : OpaqueKe) where
  broker : Handshakes K
  requests : FiniteMap Nat AuthRequest
  used : List TenantId
  confirmed : List (TenantId × RegisterFinishRequest)

namespace Accounts

def init : Accounts K := ⟨.init, ∅, [], []⟩

/-- A new tenant has a new id. -/
def admits (s : Accounts K) : HandshakeEvent K → Bool
  | .putTenant id _ => (s.broker.tenants.lookup id).isSome || decide (id ∉ s.used)
  | _ => true

def asked (s : Accounts K) : HandshakeEvent K → FiniteMap Nat AuthRequest
  | .arrive request _ => s.requests.insert s.broker.calls request
  | _ => s.requests

def given (s : Accounts K) : HandshakeEvent K → List TenantId
  | .putTenant id _ => id :: s.used
  | _ => s.used

/-- The registration that the step answers 201. -/
def confirms (s : Accounts K) (broker : Handshakes K) :
    HandshakeEvent K → Option (TenantId × RegisterFinishRequest)
  | .run call _ =>
    match broker.inFlight.lookup call, broker.answers.lookup call with
    | none, some ⟨_, .registered _ _⟩ =>
      (s.broker.inFlight.lookup call).bind fun c => registers c.stage
    | _, _ => none
  | _ => none

def next (setup : Bytes) (s : Accounts K) (e : HandshakeEvent K) : Option (Accounts K) :=
  if s.admits e then
    (s.broker.next setup e).map fun broker =>
      { broker := broker
        requests := s.asked e
        used := s.given e
        confirmed := (s.confirms broker e).toList ++ s.confirmed }
  else none

end Accounts

/-- The history of one deployment. -/
def accounts (K : OpaqueKe) (setup : Bytes) : Machine (Accounts K) (HandshakeEvent K) where
  Start s := s = Accounts.init
  next := Accounts.next setup

/-! ### The invariant -/

/-- The call is a login start with this request. -/
structure Asks (requests : FiniteMap Nat AuthRequest) (call : Nat) (body : LoginStartRequest)
    (request : K.CredentialRequest) : Prop where
  asked : (requests.lookup call).bind (fun asked => (OpaqueCall.auth asked).loginStart?) = some body
  decoded : body.request K = .ok request

/-- What a stage carries is what was asked. -/
def Carries (requests : FiniteMap Nat AuthRequest) (call : Nat) : Stage K → Prop
  | .lookupTenant body request | .loadPasswordFile body request _ | .begin body request _ _ =>
    Asks requests call body request
  | .insertFile body _ file | .rereadFile body _ file =>
    ∃ upload, body.upload K = .ok upload ∧ file = K.registrationFinish upload
  | _ => True

/-- The login was begun for what was asked. -/
def Answers (setup : Bytes) (requests : FiniteMap Nat AuthRequest) (call : Nat) (start : Start K) :
    Prop :=
  ∃ (body : LoginStartRequest) (request : K.CredentialRequest) (coins : K.Coins)
    (response : K.CredentialResponse), Asks requests call body request ∧
      K.loginStart coins setup start.passwordFile request
        body.credentialIdentifier.toUTF8.toList = .ok (start.state, response)

namespace Accounts

structure Inv (setup : Bytes) (s : Accounts K) : Prop where
  broker : s.broker.Inv setup
  names : ∀ id id' name, s.broker.tenants.lookup id = some name →
    s.broker.tenants.lookup id' = some name → id = id'
  used : ∀ id, (s.broker.tenants.lookup id).isSome = true → id ∈ s.used
  registered : ∀ id bytes, (id, bytes) ∈ s.broker.registered → id ∈ s.used ∧
    ((s.broker.tenants.lookup id).isSome = true → s.broker.passwordFiles.lookup id = some bytes)
  confirmed : ∀ id body, (id, body) ∈ s.confirmed → ∃ upload, body.upload K = .ok upload ∧
    (id, (K.registrationFinish upload).bytes) ∈ s.broker.registered
  stages : ∀ call c, s.broker.inFlight.lookup call = some c → Carries s.requests call c.stage
  starts : ∀ call start, s.broker.starts.lookup call = some start →
    Answers setup s.requests call start

variable {setup : Bytes} {s : Accounts K} {broker : Handshakes K} {call : Nat} {c : AuthCall K}

/-- The tables and the starts are as before, and every call carries what was asked. -/
theorem Inv.carry (inv : s.Inv setup) (hbroker : broker.Inv setup)
    (htenants : broker.tenants = s.broker.tenants)
    (hfiles : broker.passwordFiles = s.broker.passwordFiles)
    (hregistered : broker.registered = s.broker.registered)
    (hstarts : broker.starts = s.broker.starts)
    (hstages : ∀ call c, broker.inFlight.lookup call = some c → Carries s.requests call c.stage) :
    Inv setup { s with broker := broker } where
  broker := hbroker
  names id id' name := by
    rw [htenants]
    exact inv.names id id' name
  used id := by
    rw [htenants]
    exact inv.used id
  registered id bytes := by
    rw [hregistered, htenants, hfiles]
    exact inv.registered id bytes
  confirmed id body := by
    rw [hregistered]
    exact inv.confirmed id body
  stages := hstages
  starts call start := by
    rw [hstarts]
    exact inv.starts call start

theorem Inv.stages_advance (inv : s.Inv setup) {stage : Stage K}
    (hcarries : Carries s.requests call stage) (call' : Nat) (c' : AuthCall K)
    (hlook : (s.broker.inFlight.insert call { c with stage := stage }).lookup call' = some c') :
    Carries s.requests call' c'.stage := by
  rw [FiniteMap.lookup_insert_ite] at hlook
  split at hlook
  next heq =>
    cases hlook
    exact heq ▸ hcarries
  next => exact inv.stages call' c' hlook

theorem Inv.stages_answer (inv : s.Inv setup) (call' : Nat) (c' : AuthCall K)
    (hlook : (s.broker.inFlight.erase call).lookup call' = some c') :
    Carries s.requests call' c'.stage := by
  rw [FiniteMap.lookup_erase_ite] at hlook
  split at hlook
  next => cases hlook
  next => exact inv.stages call' c' hlook

/-- A login begins. -/
theorem Inv.begin (inv : s.Inv setup) {start : Start K} {stage : Stage K}
    (hbroker : ({ s.broker with starts := s.broker.starts.insert call start }.advance call c
      stage).Inv setup)
    (hanswers : Answers setup s.requests call start) (hcarries : Carries s.requests call stage) :
    Inv setup { s with
      broker := { s.broker with starts := s.broker.starts.insert call start }.advance call c stage } :=
  { inv with
    broker := hbroker
    stages := inv.stages_advance hcarries
    starts := fun call' start' hlook => by
      have hinsert : (s.broker.starts.insert call start).lookup call' = some start' := hlook
      rw [FiniteMap.lookup_insert_ite] at hinsert
      split at hinsert
      next heq =>
        cases hinsert
        exact heq ▸ hanswers
      next => exact inv.starts call' start' hinsert }

theorem Inv.startStep (inv : s.Inv setup) (hlook : s.broker.inFlight.lookup call = some c)
    {outcome : AuthBroker.Outcome K} {stage : Stage K} (hstage : c.stage = stage)
    (hbroker : broker.Inv setup)
    (h : s.broker.startStep setup call c outcome stage = some broker) :
    Inv setup { s with broker := broker } := by
  have hcarries := inv.stages call c hlook
  rw [hstage] at hcarries
  unfold Handshakes.startStep at h
  split at h
  next => cases h; exact inv.carry hbroker rfl rfl rfl rfl inv.stages_answer
  next => cases h; exact inv.carry hbroker rfl rfl rfl rfl inv.stages_answer
  next body request =>
    split at h <;> cases h <;> exact inv.carry hbroker rfl rfl rfl rfl (inv.stages_advance hcarries)
  next body request tenantId =>
    split at h <;> cases h
    next => exact inv.carry hbroker rfl rfl rfl rfl (inv.stages_advance hcarries)
    next => exact inv.carry hbroker rfl rfl rfl rfl inv.stages_answer
  next coins body request tenantId file =>
    split at h
    next => cases h; exact inv.carry hbroker rfl rfl rfl rfl inv.stages_answer
    next state response hstart =>
      cases h
      exact inv.begin hbroker ⟨body, request, coins, response, hcarries, hstart⟩ trivial
  next response entry =>
    split at h <;> cases h <;> exact inv.carry hbroker rfl rfl rfl rfl inv.stages_answer
  next => cases h

theorem Inv.finishStep (inv : s.Inv setup) {outcome : AuthBroker.Outcome K} {stage : Stage K}
    (hbroker : broker.Inv setup) (h : s.broker.finishStep call c outcome stage = some broker) :
    Inv setup { s with broker := broker } := by
  unfold Handshakes.finishStep at h
  split at h
  next bearer issuedAt body =>
    simp only at h
    split at h
    next =>
      split at h <;> cases h
      next => exact inv.carry hbroker rfl rfl rfl rfl inv.stages_answer
      next => exact inv.carry hbroker rfl rfl rfl rfl (inv.stages_advance trivial)
    next => cases h; exact inv.carry hbroker rfl rfl rfl rfl inv.stages_answer
  next => cases h; exact inv.carry hbroker rfl rfl rfl rfl inv.stages_answer
  next =>
    split at h <;> cases h
    exact inv.carry hbroker rfl rfl rfl rfl inv.stages_answer
  next =>
    split at h <;> cases h
    exact inv.carry hbroker rfl rfl rfl rfl inv.stages_answer
  next => cases h

/-- A password file is stored for a tenant that has none. -/
theorem Inv.register (inv : s.Inv setup) {id : TenantId} {bytes : Bytes}
    (hexists : (s.broker.tenants.lookup id).isSome = true)
    (hnone : s.broker.passwordFiles.lookup id = none) {response : AuthResponse}
    (hbroker : ({ s.broker with
      passwordFiles := s.broker.passwordFiles.insert id bytes
      registered := (id, bytes) :: s.broker.registered }.answer call response).Inv setup) :
    Inv setup { s with
      broker := { s.broker with
        passwordFiles := s.broker.passwordFiles.insert id bytes
        registered := (id, bytes) :: s.broker.registered }.answer call response } :=
  { inv with
    broker := hbroker
    stages := inv.stages_answer
    registered := fun id' bytes' hmem => by
      obtain heq | hmem := List.mem_cons.mp hmem
      · cases heq
        exact ⟨inv.used id hexists, fun _ => AList.lookup_insert _⟩
      · obtain ⟨hused, hstored⟩ := inv.registered id' bytes' hmem
        refine ⟨hused, fun hexists' => ?_⟩
        have hne : id' ≠ id := by
          rintro rfl
          cases hnone.symm.trans (hstored hexists')
        have hlook : (s.broker.passwordFiles.insert id bytes).lookup id' = some bytes' := by
          rw [FiniteMap.lookup_insert_ite, if_neg hne]
          exact hstored hexists'
        exact hlook
    confirmed := fun id' body hmem => by
      obtain ⟨upload, hupload, hmem⟩ := inv.confirmed id' body hmem
      exact ⟨upload, hupload, List.mem_cons_of_mem _ hmem⟩ }

theorem Inv.registerStep (inv : s.Inv setup) (hlook : s.broker.inFlight.lookup call = some c)
    {outcome : AuthBroker.Outcome K} {stage : Stage K} (hstage : c.stage = stage)
    (hbroker : broker.Inv setup)
    (h : s.broker.registerStep call c outcome stage = some broker) :
    Inv setup { s with broker := broker } := by
  have hcarries := inv.stages call c hlook
  rw [hstage] at hcarries
  unfold Handshakes.registerStep at h
  split at h
  next => cases h; exact inv.carry hbroker rfl rfl rfl rfl inv.stages_answer
  next => cases h; exact inv.carry hbroker rfl rfl rfl rfl inv.stages_answer
  next => cases h; exact inv.carry hbroker rfl rfl rfl rfl inv.stages_answer
  next =>
    split at h <;> cases h
    next => exact inv.carry hbroker rfl rfl rfl rfl inv.stages_answer
    next => exact inv.carry hbroker rfl rfl rfl rfl inv.stages_answer
    next => exact inv.carry hbroker rfl rfl rfl rfl (inv.stages_advance trivial)
  next => cases h; exact inv.carry hbroker rfl rfl rfl rfl inv.stages_answer
  next =>
    split at h <;> cases h
    next => exact inv.carry hbroker rfl rfl rfl rfl inv.stages_answer
    next upload hupload =>
      exact inv.carry hbroker rfl rfl rfl rfl (inv.stages_advance ⟨upload, hupload, rfl⟩)
  next body tenantId file =>
    split at h
    next => cases h
    next hexists =>
      split at h <;> cases h
      next => exact inv.carry hbroker rfl rfl rfl rfl (inv.stages_advance hcarries)
      next hnone =>
        refine inv.register ?_ ?_ hbroker
        · simpa [Option.isNone_iff_eq_none, Option.isSome_iff_ne_none] using hexists
        · simpa using hnone
  next => split at h <;> cases h <;> exact inv.carry hbroker rfl rfl rfl rfl inv.stages_answer
  next => cases h

theorem Inv.runStep (inv : s.Inv setup) (hlook : s.broker.inFlight.lookup call = some c)
    {outcome : AuthBroker.Outcome K} (hbroker : broker.Inv setup)
    (h : s.broker.runStep setup call c outcome = some broker) :
    Inv setup { s with broker := broker } := by
  rw [Handshakes.runStep] at h
  cases hstage : c.stage <;> simp only [hstage] at h
  case lookupTenant => exact inv.startStep hlook hstage hbroker h
  case loadPasswordFile => exact inv.startStep hlook hstage hbroker h
  case begin => exact inv.startStep hlook hstage hbroker h
  case insertPending => exact inv.startStep hlook hstage hbroker h
  case take => exact inv.finishStep hbroker h
  case insertLease => exact inv.finishStep hbroker h
  all_goals exact inv.registerStep hlook hstage hbroker h

/-- A registration that is answered 201 has its file stored. -/
theorem Inv.stored_of_registered (inv : s.Inv setup) (hlook : s.broker.inFlight.lookup call = some c)
    {outcome : AuthBroker.Outcome K} (hbroker : broker.Inv setup)
    (h : s.broker.runStep setup call c outcome = some broker)
    (hdone : broker.inFlight.lookup call = none) {took : Option (Nat × LoginFinishRequest)}
    {tenant : String} {version : UInt8}
    (hanswer : broker.answers.lookup call = some ⟨took, .registered tenant version⟩)
    {id : TenantId} {body : RegisterFinishRequest} (hregisters : registers c.stage = some (id, body)) :
    ∃ upload, body.upload K = .ok upload ∧
      (id, (K.registrationFinish upload).bytes) ∈ broker.registered := by
  have hcarries := inv.stages call c hlook
  have hanswered : ∀ {answer answer' : Answered} {answers : FiniteMap Nat Answered},
      (answers.insert call answer).lookup call = some answer' → answer = answer' := by
    intro answer answer' answers hinsert
    rw [AList.lookup_insert] at hinsert
    exact Option.some.inj hinsert
  rw [Handshakes.runStep] at h
  cases hstage : c.stage with
  | insertFile body' tenantId file =>
    rw [hstage] at hregisters hcarries
    simp only [hstage] at h
    cases hregisters
    obtain ⟨upload, hupload, rfl⟩ := hcarries
    cases outcome with
    | fail err => cases h; cases hanswered hanswer
    | otp result => cases result <;> cases h
    | coins | bearer | row | lost => cases h
    | ok =>
      simp only [Handshakes.registerStep] at h
      split at h
      next => cases h
      next =>
        split at h <;> cases h
        next =>
          have hflight : (s.broker.inFlight.insert call _).lookup call = none := hdone
          rw [AList.lookup_insert] at hflight
          cases hflight
        next => exact ⟨upload, hupload, List.mem_cons_self⟩
  | rereadFile body' tenantId file =>
    rw [hstage] at hregisters hcarries
    simp only [hstage] at h
    cases hregisters
    obtain ⟨upload, hupload, rfl⟩ := hcarries
    cases outcome with
    | fail err => cases h; cases hanswered hanswer
    | otp result => cases result <;> cases h
    | coins | bearer | row | lost => cases h
    | ok =>
      simp only [Handshakes.registerStep] at h
      split at h
      next hsame =>
        cases h
        exact ⟨upload, hupload, inv.broker.files id _ hsame⟩
      next => cases h; cases hanswered hanswer
  | _ =>
    rw [hstage] at hregisters
    cases hregisters

/-- The first stage of a login start carries its body. -/
theorem carries_of_enter {requests : FiniteMap Nat AuthRequest} {request : AuthRequest}
    {stage : Stage K} (henter : Handshakes.enter request = .ok stage)
    (hlook : requests.lookup call = some request) : Carries requests call stage := by
  have hstart : ∀ body : LoginStartRequest,
      (OpaqueCall.auth request).loginStart? = some body →
        (body.request K).map (Stage.lookupTenant body) = .ok stage → Carries requests call stage := by
    intro body hbody hmap
    cases hdecoded : body.request K with
    | error response =>
      rw [hdecoded] at hmap
      cases hmap
    | ok decoded =>
      rw [hdecoded] at hmap
      cases hmap
      refine ⟨?_, hdecoded⟩
      rw [hlook]
      exact hbody
  cases request with
  | loginStart body => exact hstart body rfl henter
  | loginFinish body => cases henter; trivial
  | registerFinish body => cases henter; trivial
  | apiAuthLogin body =>
    obtain ⟨route, hroute, hrest⟩ := bind_eq_ok.mp henter
    cases route with
    | inl start =>
      refine hstart start ?_ hrest
      simp only [OpaqueCall.loginStart?, hroute]
    | inr finish => cases hrest; trivial

theorem Inv.arrive (inv : s.Inv setup) (request : AuthRequest) (handshakeId : HandshakeId)
    (hbroker : (s.broker.arrive request handshakeId).Inv setup) :
    Inv setup { s with
      broker := s.broker.arrive request handshakeId
      requests := s.requests.insert s.broker.calls request } := by
  have hold : ∀ call, call < s.broker.calls →
      (s.requests.insert s.broker.calls request).lookup call = s.requests.lookup call := by
    intro call hlt
    rw [FiniteMap.lookup_insert_ite, if_neg (Nat.ne_of_lt hlt)]
  have hasks : ∀ {call body} {decoded : K.CredentialRequest}, call < s.broker.calls →
      Asks s.requests call body decoded →
        Asks (s.requests.insert s.broker.calls request) call body decoded := by
    intro call body decoded hlt h
    refine ⟨?_, h.decoded⟩
    rw [hold call hlt]
    exact h.asked
  have hcarries : ∀ call c, s.broker.inFlight.lookup call = some c →
      Carries (s.requests.insert s.broker.calls request) call c.stage := by
    intro call c hlook
    have hlt := inv.broker.calls call c hlook
    have h := inv.stages call c hlook
    cases hstage : c.stage <;> rw [hstage] at h
    case lookupTenant => exact hasks hlt h
    case loadPasswordFile => exact hasks hlt h
    case begin => exact hasks hlt h
    all_goals exact h
  have hstarts : ∀ call start, s.broker.starts.lookup call = some start →
      Answers setup (s.requests.insert s.broker.calls request) call start := by
    intro call start hlook
    have hlt := (inv.broker.begun call start hlook).1
    obtain ⟨body, decoded, coins, response, h, hstart⟩ := inv.starts call start hlook
    exact ⟨body, decoded, coins, response, hasks hlt h, hstart⟩
  have hnew : ∀ stage : Stage K, Handshakes.enter request = .ok stage →
      Carries (s.requests.insert s.broker.calls request) s.broker.calls stage := by
    intro stage henter
    apply carries_of_enter henter
    exact AList.lookup_insert _
  cases henter : Handshakes.enter (K := K) request with
  | error response =>
    have heq : s.broker.arrive request handshakeId =
        { s.broker with calls := s.broker.calls + 1 }.answer s.broker.calls response := by
      rw [Handshakes.arrive, henter]
    rw [heq] at hbroker ⊢
    refine { inv with broker := hbroker, stages := fun call c hlook => ?_, starts := hstarts }
    have herase : (s.broker.inFlight.erase s.broker.calls).lookup call = some c := hlook
    rw [FiniteMap.lookup_erase_ite] at herase
    split at herase
    next => cases herase
    next => exact hcarries call c herase
  | ok stage =>
    have heq : s.broker.arrive request handshakeId =
        { s.broker with calls := s.broker.calls + 1 }.advance s.broker.calls
          ⟨handshakeId, s.broker.now, stage⟩ stage := by
      rw [Handshakes.arrive, henter]
    rw [heq] at hbroker ⊢
    refine { inv with broker := hbroker, stages := fun call c hlook => ?_, starts := hstarts }
    have hinsert : (s.broker.inFlight.insert s.broker.calls
        ⟨handshakeId, s.broker.now, stage⟩).lookup call = some c := hlook
    rw [FiniteMap.lookup_insert_ite] at hinsert
    split at hinsert
    next heq =>
      cases hinsert
      exact heq ▸ hnew stage henter
    next => exact hcarries call c hinsert

theorem Inv.putTenant (inv : s.Inv setup) {id : TenantId} {name : String}
    (hbroker : Handshakes.Inv setup { s.broker with tenants := s.broker.tenants.insert id name })
    (hadmits : s.admits (.putTenant id name) = true)
    (hunique : s.broker.tenants.all (fun id' name' => id' = id || name' ≠ name) = true) :
    Inv setup { s with
      broker := { s.broker with tenants := s.broker.tenants.insert id name }
      used := id :: s.used } := by
  have hlookup : ∀ id', (s.broker.tenants.insert id name).lookup id' =
      if id' = id then some name else s.broker.tenants.lookup id' :=
    fun id' => FiniteMap.lookup_insert_ite _ _ _ _
  have hother : ∀ id', s.broker.tenants.lookup id' = some name → id' = id := by
    intro id' hname
    have h := (FiniteMap.all_eq_true_iff _ _).mp hunique id' name hname
    simpa using h
  refine { inv with broker := hbroker, names := ?_, used := ?_, registered := ?_ }
  · intro id₁ id₂ name' h₁ h₂
    have h₁' := (hlookup id₁).symm.trans h₁
    have h₂' := (hlookup id₂).symm.trans h₂
    by_cases heq₁ : id₁ = id <;> by_cases heq₂ : id₂ = id
    · rw [heq₁, heq₂]
    · rw [if_pos heq₁] at h₁'
      rw [if_neg heq₂] at h₂'
      cases h₁'
      exact absurd (hother id₂ h₂') heq₂
    · rw [if_neg heq₁] at h₁'
      rw [if_pos heq₂] at h₂'
      cases h₂'
      exact absurd (hother id₁ h₁') heq₁
    · rw [if_neg heq₁] at h₁'
      rw [if_neg heq₂] at h₂'
      exact inv.names id₁ id₂ name' h₁' h₂'
  · intro id' hsome
    have hsome' : ((s.broker.tenants.insert id name).lookup id').isSome = true := hsome
    rw [hlookup] at hsome'
    split at hsome'
    next heq => exact heq ▸ List.mem_cons_self
    next => exact List.mem_cons_of_mem _ (inv.used id' hsome')
  · intro id' bytes hmem
    obtain ⟨hused, hstored⟩ := inv.registered id' bytes hmem
    refine ⟨List.mem_cons_of_mem _ hused, fun hsome => hstored ?_⟩
    have hsome' : ((s.broker.tenants.insert id name).lookup id').isSome = true := hsome
    rw [hlookup] at hsome'
    split at hsome'
    next heq =>
      -- a new id has no registration
      simp only [admits, Bool.or_eq_true, decide_eq_true_eq] at hadmits
      rw [heq] at hused ⊢
      exact hadmits.resolve_right fun hnew => hnew hused
    next => exact hsome'

theorem Inv.deleteTenant (inv : s.Inv setup) {id : TenantId} {leases : LeaseStore}
    (hbroker : Handshakes.Inv setup { s.broker with
      tenants := s.broker.tenants.erase id
      passwordFiles := s.broker.passwordFiles.erase id
      leases := leases }) :
    Inv setup { s with
      broker := { s.broker with
        tenants := s.broker.tenants.erase id
        passwordFiles := s.broker.passwordFiles.erase id
        leases := leases } } := by
  have hlookup : ∀ {α : Type} (map : FiniteMap TenantId α) (id' : TenantId) (value : α),
      (map.erase id).lookup id' = some value → id' ≠ id ∧ map.lookup id' = some value := by
    intro α map id' value h
    rw [FiniteMap.lookup_erase_ite] at h
    split at h
    next => cases h
    next hne => exact ⟨hne, h⟩
  refine { inv with broker := hbroker, names := ?_, used := ?_, registered := ?_ }
  · intro id₁ id₂ name h₁ h₂
    exact inv.names id₁ id₂ name (hlookup _ _ _ h₁).2 (hlookup _ _ _ h₂).2
  · intro id' hsome
    obtain ⟨name, hname⟩ := Option.isSome_iff_exists.mp hsome
    exact inv.used id' (Option.isSome_iff_exists.mpr ⟨name, (hlookup _ _ _ hname).2⟩)
  · intro id' bytes hmem
    obtain ⟨hused, hstored⟩ := inv.registered id' bytes hmem
    refine ⟨hused, fun hsome => ?_⟩
    obtain ⟨name, hname⟩ := Option.isSome_iff_exists.mp hsome
    obtain ⟨hne, hname⟩ := hlookup _ _ _ hname
    have hfile : (s.broker.passwordFiles.erase id).lookup id' = some bytes := by
      rw [FiniteMap.lookup_erase_ite, if_neg hne]
      exact hstored (Option.isSome_iff_exists.mpr ⟨name, hname⟩)
    exact hfile

theorem Inv.run (inv : s.Inv setup) {outcome : AuthBroker.Outcome K} (hbroker : broker.Inv setup)
    (h : s.broker.next setup (.run call outcome) = some broker) :
    Inv setup { s with
      broker := broker
      confirmed := (s.confirms broker (.run call outcome)).toList ++ s.confirmed } := by
  obtain ⟨c, hlook, hstep⟩ := Option.bind_eq_some_iff.mp h
  have inv' := inv.runStep hlook hbroker hstep
  refine { inv' with confirmed := fun id body hmem => ?_ }
  obtain hnow | hbefore := List.mem_append.mp hmem
  · have hconfirms := Option.mem_toList.mp hnow
    simp only [confirms] at hconfirms
    split at hconfirms
    next hdone hanswer =>
      have hregisters : (s.broker.inFlight.lookup call).bind (fun c => registers c.stage) =
          some (id, body) := hconfirms
      rw [hlook] at hregisters
      exact inv.stored_of_registered hlook hbroker hstep hdone hanswer hregisters
    next => cases hconfirms
  · exact inv'.confirmed id body hbefore

/-- **Step lemma**: every event keeps the invariant. -/
theorem Inv.next (inv : s.Inv setup) (ideal : K.Ideal) {e : HandshakeEvent K} {s' : Accounts K}
    (h : s.next setup e = some s') : s'.Inv setup := by
  rw [Accounts.next] at h
  split at h
  next hadmits =>
    obtain ⟨broker, hnext, rfl⟩ := Option.map_eq_some_iff.mp h
    have hbroker := inv.broker.next ideal hnext
    cases e with
    | tick elapsed => cases hnext; exact inv.carry hbroker rfl rfl rfl rfl inv.stages
    | arrive request handshakeId => cases hnext; exact inv.arrive request handshakeId hbroker
    | run call outcome => exact inv.run hbroker hnext
    | drop call => cases hnext; exact inv.carry hbroker rfl rfl rfl rfl inv.stages_answer
    | sweep reading => cases hnext; exact inv.carry hbroker rfl rfl rfl rfl inv.stages
    | restart =>
      cases hnext
      exact inv.carry hbroker rfl rfl rfl rfl fun _ _ hlook => by cases hlook
    | putTenant id name =>
      rw [Handshakes.next] at hnext
      split at hnext
      next hunique =>
        cases hnext
        exact inv.putTenant hbroker hadmits hunique
      next => cases hnext
    | deleteTenant id => cases hnext; exact inv.deleteTenant hbroker
    | validate bearer time => cases hnext; exact inv.carry hbroker rfl rfl rfl rfl inv.stages
    | revoke hash time => cases hnext; exact inv.carry hbroker rfl rfl rfl rfl inv.stages
    | revokeById id time => cases hnext; exact inv.carry hbroker rfl rfl rfl rfl inv.stages
  next => cases h

theorem inv_init : (init : Accounts K).Inv setup where
  broker := .init
  names _ _ _ h := by cases h
  used _ h := by cases h
  registered _ _ h := absurd h List.not_mem_nil
  confirmed _ _ h := absurd h List.not_mem_nil
  stages _ _ h := by cases h
  starts _ _ h := by cases h

theorem inv_of_reachable (ideal : K.Ideal) (hreach : (accounts K setup).Reachable s) :
    s.Inv setup := by
  apply hreach.invariant
  · rintro t rfl
    exact inv_init
  · exact fun t e t' inv _ hnext => inv.next ideal hnext

/-- A tenant is found by its name. -/
theorem Inv.tenantId?_eq (inv : s.Inv setup) {id : TenantId} {name : String}
    (hname : s.broker.tenants.lookup id = some name) : s.broker.tenantId? name = some id := by
  rw [Handshakes.tenantId?]
  cases hfound : s.broker.tenants.find? fun _ other => other = name with
  | none =>
    have hnot := FiniteMap.find?_eq_none hfound hname
    simp at hnot
  | some found =>
    obtain ⟨id', name'⟩ := found
    obtain ⟨hlook, heq⟩ := FiniteMap.find?_eq_some hfound
    obtain rfl : name' = name := of_decide_eq_true heq
    exact congrArg some (inv.names id' id name' hlook hname)

/-- The file of a confirmed registration is the tenant's while the tenant exists. -/
theorem Inv.passwordFile_of_confirmed (inv : s.Inv setup) (ideal : C.Ideal) {id : TenantId}
    {body : RegisterFinishRequest} {upload : K.RegistrationUpload}
    (hconfirmed : (id, body) ∈ s.confirmed)
    (hupload : body.registrationUpload = .encoded (C.serializeUpload upload))
    (hexists : (s.broker.tenants.lookup id).isSome = true) :
    s.broker.passwordFiles.lookup id = some (K.registrationFinish upload).bytes := by
  obtain ⟨stored, hstored, hmem⟩ := inv.confirmed id body hconfirmed
  have hdecoded : body.upload K = .ok upload := by
    rw [RegisterFinishRequest.upload, hupload]
    show ((K.deserializeUpload (C.serializeUpload upload)).mapError _).mapError _ = _
    rw [ideal.upload]
    rfl
  cases hstored.symm.trans hdecoded
  exact (inv.registered id _ hmem).2 hexists

/-- A lease of a tenant was earned with the registration that is stored for it. -/
theorem Inv.minted (inv : s.Inv setup) (ideal : C.Ideal) {id : TenantId} {inner : K.ServerSetup}
    {upload : K.RegistrationUpload} {credential password : Bytes}
    (hsetup : K.deserializeSetup setup = .ok inner)
    (hregistered : C.Registered inner credential password upload)
    (hfile : s.broker.passwordFiles.lookup id = some (K.registrationFinish upload).bytes)
    (hexists : (s.broker.tenants.lookup id).isSome = true) {m : LeaseId × Mint K}
    (hm : m ∈ s.broker.minted) (htenant : m.2.tenantId = id) :
    ∃ asked request, Asks s.requests m.2.start asked request ∧ ∀ coins password',
      request = (C.loginStart coins password').1 →
        password' = password ∧ asked.credentialIdentifier.toUTF8.toList = credential := by
  obtain ⟨start, hstart, hearned⟩ := inv.broker.minted m hm
  obtain ⟨asked, request, coins, response, hasks, hbegan⟩ := inv.starts _ start hstart
  obtain ⟨file, bytes, hsome, hmem, hdecoded⟩ :=
    hearned.stored ideal.server (inv.broker.begun _ start hstart).2
  rw [htenant] at hmem
  cases hfile.symm.trans ((inv.registered id bytes hmem).2 hexists)
  cases hdecoded.symm.trans (passwordFile_registrationFinish ideal upload)
  refine ⟨asked, request, hasks, ?_⟩
  rintro coins' password' rfl
  rw [hsome, loginStart_registrationFinish ideal hsetup] at hbegan
  exact ideal.agrees hregistered (mapError_eq_ok.mp hbegan) (mapError_eq_ok.mp hearned.finished)

end Accounts

section

variable {setup : Bytes} {s : Accounts K} {config : Config} {tenantId : TenantId}
  {body : RegisterFinishRequest} {password : Bytes} {name : String}

/-- A login with the default identifier, behind a registration with the default
    identifier. -/
theorem leased_iff_of_confirmed (ideal : C.Ideal) (hreach : (accounts K setup).Reachable s)
    (hconfirmed : (tenantId, body) ∈ s.confirmed) (hsilent : config.Silent body.tenant)
    (hregisters : C.Registers config setup body.tenant none password body.registrationUpload)
    (hname : s.broker.tenants.lookup tenantId = some name) {surface : Surface} {w : LoginChoices K}
    (hdefault : surface.Default name) (hfresh : w.Fresh s.broker) (password' : Bytes) :
    Leased w tenantId (login C setup s.broker surface name password' w) ↔
      password' = password ∧ name = body.tenant := by
  have inv := Accounts.inv_of_reachable ideal.server hreach
  obtain ⟨inner, upload, hsetup, hregistered, hupload⟩ := hregisters
  rw [hsilent.resolve] at hregistered
  have hexists : (s.broker.tenants.lookup tenantId).isSome = true := by
    rw [hname]
    rfl
  have hfile := inv.passwordFile_of_confirmed ideal hconfirmed hupload hexists
  rw [leased_iff ideal hsetup hregistered hdefault (inv.tenantId?_eq hname) hexists hfile hfresh]
  refine and_congr_right fun _ => ⟨Text.toUTF8_toList_inj, ?_⟩
  rintro rfl
  rfl

/-- A tenant was registered, by a client that left the credential identifier to its
    default, with `password`.  While it exists, a login that leaves the identifier to its
    default under the tenant's name yields a lease just when the password is that one
    and the name that of the registration; and every lease of the tenant comes of a
    login with that password. -/
theorem default_login (ideal : C.Ideal) (hreach : (accounts K setup).Reachable s)
    (hconfirmed : (tenantId, body) ∈ s.confirmed) (hsilent : config.Silent body.tenant)
    (hregisters : C.Registers config setup body.tenant none password body.registrationUpload)
    (hname : s.broker.tenants.lookup tenantId = some name) :
    (∀ surface password' w, surface.Default name → w.Fresh s.broker →
      (Leased w tenantId (login C setup s.broker surface name password' w) ↔
        password' = password ∧ name = body.tenant)) ∧
    ∀ m ∈ s.broker.minted, m.2.tenantId = tenantId →
      ∃ asked request, Asks s.requests m.2.start asked request ∧ ∀ coins password',
        request = (C.loginStart coins password').1 → password' = password := by
  constructor
  · intro surface password' w hdefault hfresh
    exact leased_iff_of_confirmed ideal hreach hconfirmed hsilent hregisters hname hdefault hfresh
      password'
  · intro m hm htenant
    have inv := Accounts.inv_of_reachable ideal.server hreach
    obtain ⟨inner, upload, hsetup, hregistered, hupload⟩ := hregisters
    have hexists : (s.broker.tenants.lookup tenantId).isSome = true := by
      rw [hname]
      rfl
    have hfile := inv.passwordFile_of_confirmed ideal hconfirmed hupload hexists
    obtain ⟨asked, request, hasks, hsame⟩ :=
      inv.minted ideal hsetup hregistered hfile hexists hm htenant
    exact ⟨asked, request, hasks, fun coins password' heq => (hsame coins password' heq).1⟩

end

/-! ### A history -/

/-- The credential and the password of a registration as one text. -/
private def envelope (credential password : Bytes) : Bytes :=
  credential.flatMap (fun b => [1, b]) ++ 0 :: password

private theorem envelope_inj {credential credential' password password' : Bytes}
    (h : envelope credential password = envelope credential' password') :
    password = password' ∧ credential = credential' := by
  induction credential generalizing credential' with
  | nil =>
    cases credential' with
    | nil => exact ⟨(List.cons.inj h).2, rfl⟩
    | cons b rest => cases (List.cons.inj h).1
  | cons b rest ih =>
    cases credential' with
    | nil => cases (List.cons.inj h).1
    | cons b' rest' =>
      have hcons : (1 : UInt8) :: b :: envelope rest password =
          1 :: b' :: envelope rest' password' := h
      obtain ⟨-, hcons⟩ := List.cons.inj hcons
      obtain ⟨rfl, hrest⟩ := List.cons.inj hcons
      obtain ⟨rfl, rfl⟩ := ih hrest
      exact ⟨rfl, rfl⟩

/-- An OPAQUE that sends the password and compares it. -/
private def echoOpaque : OpaqueKe where
  ServerSetup := Bytes
  ServerRegistration := Bytes
  RegistrationUpload := Bytes
  CredentialRequest := Bytes
  CredentialResponse := Bool
  CredentialFinalization := Unit
  ServerLogin := Bool
  Coins := Unit
  deserializeSetup := .ok
  deserializeRegistration := .ok
  serializeRegistration := id
  deserializeUpload := .ok
  deserializeRequest := .ok
  serializeResponse verdict := if verdict then [1] else []
  deserializeFinalization _ := .ok ()
  serializeLogin verdict := if verdict then [1] else []
  deserializeLogin bytes := .ok (bytes = [1])
  finishRegistration := id
  start _ _ registration request credential :=
    let verdict := decide (registration = some (envelope credential request))
    .ok (verdict, verdict)
  finish verdict _ := if verdict then .ok [7] else .error .invalidLoginError

private def echoRegistration : RegistrationKe echoOpaque where
  RegistrationRequest := Bytes
  RegistrationResponse := Bytes
  deserializeRequest := .ok
  start _ _ credential := .ok credential

private def echoClient : OpaqueClient echoOpaque echoRegistration where
  RegistrationState := Unit
  LoginState := Unit
  registrationStart _ password := (password, ())
  registrationFinish _ _ password credential := .ok (envelope credential password)
  loginStart _ password := (password, ())
  loginFinish _ _ (verdict : Bool) := if verdict then .ok () else .error .invalidLoginError
  serializeUpload := id
  serializeRequest := id
  deserializeResponse bytes := .ok (decide (bytes = [1]))
  serializeFinalization _ := []

private theorem echoClient_registered {setup credential password upload : Bytes}
    (h : echoClient.Registered setup credential password upload) :
    upload = envelope credential password := by
  obtain ⟨_, _, response, hresponse, hupload⟩ := h
  cases hresponse
  cases hupload
  rfl

private theorem echoClient_ideal : echoClient.Ideal where
  server :=
    { deserialize_serialize := fun verdict => by cases verdict <;> rfl
      dummy := fun _ _ _ _ _ _ h _ => by
        cases h
        rfl }
  registration _ := rfl
  upload _ := rfl
  request _ := rfl
  response verdict := by cases verdict <;> rfl
  finalization _ := rfl
  begins _ _ _ _ _ := ⟨_, _, rfl⟩
  succeeds {setup credential password upload coins coins' login response} h hstart := by
    cases echoClient_registered h
    obtain ⟨hlogin, hresponse⟩ := Prod.mk.inj (Except.ok.inj hstart)
    have hverdict : decide (some (envelope credential password) = some (envelope credential password)) =
        true := decide_eq_true rfl
    obtain rfl : login = true := hlogin.symm.trans hverdict
    obtain rfl : response = true := hresponse.symm.trans hverdict
    exact ⟨(), [7], rfl, rfl⟩
  agrees {setup credential credential' password password' upload coins coins' login response
      finalization sessionKey} h hstart hfinish := by
    cases echoClient_registered h
    obtain ⟨hlogin, -⟩ := Prod.mk.inj (Except.ok.inj hstart)
    have hverdict : login = true := by
      cases hcase : login with
      | true => rfl
      | false =>
        rw [hcase] at hfinish
        cases hfinish
    have hsame : some (envelope credential password) = some (envelope credential' password') :=
      of_decide_eq_true (hlogin.trans hverdict)
    obtain ⟨rfl, rfl⟩ := envelope_inj (Option.some.inj hsame)
    exact ⟨rfl, rfl⟩

private theorem acme_bytes : "acme".toUTF8.toList = [97, 99, 109, 101] :=
  (Text.byteArray_loop_eq _ 0 []).trans (by decide)

/-- The second request of the registration of "acme" with the password `[5]`. -/
private def acmeBody : RegisterFinishRequest :=
  ⟨"acme", .encoded (envelope [97, 99, 109, 101] [5]), some "otp"⟩

private theorem silent_empty (tenant : String) : (Config.mk ∅).Silent tenant := rfl

private theorem acmeBody_registers :
    echoClient.Registers ⟨∅⟩ [] "acme" none [5] acmeBody.registrationUpload := by
  refine ⟨[], envelope [97, 99, 109, 101] [5], rfl, ⟨(), (), [97, 99, 109, 101], ?_, rfl⟩, rfl⟩
  exact congrArg Except.ok acme_bytes

/-- "acme" is created and registered. -/
private def acmeRun : List (HandshakeEvent echoOpaque) :=
  [.putTenant 1 "acme", .arrive (.registerFinish acmeBody) 0, .run 0 .ok, .run 0 (.otp (.ok ())),
    .run 0 .ok]

/-- What the environment chooses in the login of a witness. -/
private def acmeChoices : LoginChoices echoOpaque := ⟨(), (), 9, 0, Sample.bearer 4, 0, 20⟩

/-- "acme" is registered and has the name. -/
private def named (name : String) (s : Accounts echoOpaque) : Bool :=
  s.confirmed = [(1, acmeBody)] && s.broker.tenants.lookup 1 = some name &&
    s.broker.pending.keys = [] && s.broker.leases.keys = []

private theorem named_spec {name : String} {s : Accounts echoOpaque} (h : named name s = true) :
    (1, acmeBody) ∈ s.confirmed ∧ s.broker.tenants.lookup 1 = some name ∧
      acmeChoices.Fresh s.broker := by
  simp only [named, Bool.and_eq_true, decide_eq_true_eq] at h
  obtain ⟨⟨⟨hconfirmed, hname⟩, hpending⟩, hleases⟩ := h
  have hempty : ∀ {κ ν : Type} [DecidableEq κ] (map : FiniteMap κ ν), map.keys = [] →
      ∀ k, map.lookup k = none := by
    intro κ ν _ map hkeys k
    apply AList.lookup_eq_none.mpr
    intro hmem
    rw [AList.mem_keys, hkeys] at hmem
    cases hmem
  refine ⟨hconfirmed ▸ List.mem_singleton_self _, hname, hempty _ hpending 9, hempty _ hleases 20, ?_,
    Nat.zero_le _⟩
  rw [LeaseStore.findByHash]
  cases hfound : s.broker.leases.find? fun _ row => row.bearerHash = acmeChoices.bearer.hash with
  | none => rfl
  | some found =>
    cases (hempty _ hleases found.1).symm.trans (FiniteMap.find?_eq_some hfound).1

theorem default_login_acme :
    ∃ s : Accounts echoOpaque, s.broker.tenants.lookup 1 = some "acme" ∧
      Leased acmeChoices 1 (login echoClient [] s.broker (.api none) "acme" [5] acmeChoices) ∧
      ¬ Leased acmeChoices 1 (login echoClient [] s.broker (.api none) "acme" [6] acmeChoices) := by
  have hexec : ((accounts echoOpaque []).execUnder (fun _ _ => True) .init acmeRun).any
      (named "acme") = true := by decide +kernel
  obtain ⟨s, hrun, hs⟩ := Machine.exists_run_of_execUnder _ hexec
  obtain ⟨hconfirmed, hname, hfresh⟩ := named_spec hs
  obtain ⟨hiff, -⟩ := default_login echoClient_ideal ⟨_, rfl, hrun⟩ hconfirmed
    (silent_empty _) acmeBody_registers hname
  refine ⟨s, hname, (hiff (.api none) [5] acmeChoices trivial hfresh).mpr ⟨rfl, rfl⟩, fun hleased => ?_⟩
  obtain ⟨heq, -⟩ := (hiff (.api none) [6] acmeChoices trivial hfresh).mp hleased
  cases heq

theorem renamed_tenant_locked_out :
    ¬ ∀ (K : OpaqueKe) (R : RegistrationKe K) (C : OpaqueClient K R) (setup : Bytes) (s : Accounts K)
      (config : Config) (tenantId : TenantId) (body : RegisterFinishRequest) (password : Bytes)
      (name : String) (surface : Surface) (w : LoginChoices K),
      C.Ideal → (accounts K setup).Reachable s → (tenantId, body) ∈ s.confirmed →
      config.Silent body.tenant →
      C.Registers config setup body.tenant none password body.registrationUpload →
      s.broker.tenants.lookup tenantId = some name → surface.Default name → w.Fresh s.broker →
      Leased w tenantId (login C setup s.broker surface name password w) := by
  intro hclaim
  have hexec : ((accounts echoOpaque []).execUnder (fun _ _ => True) .init
      (acmeRun ++ [.putTenant 1 "corp"])).any (named "corp") = true := by decide +kernel
  obtain ⟨s, hrun, hs⟩ := Machine.exists_run_of_execUnder _ hexec
  obtain ⟨hconfirmed, hname, hfresh⟩ := named_spec hs
  have hreach : (accounts echoOpaque []).Reachable s := ⟨_, rfl, hrun⟩
  have hleased := hclaim echoOpaque echoRegistration echoClient [] s ⟨∅⟩ 1 acmeBody [5] "corp"
    (.api none) acmeChoices echoClient_ideal hreach hconfirmed rfl acmeBody_registers hname trivial
    hfresh
  have hdefault : (Surface.api none).Default "corp" := trivial
  obtain ⟨-, heq⟩ := (leased_iff_of_confirmed echoClient_ideal hreach hconfirmed
    (silent_empty _) acmeBody_registers hname hdefault hfresh [5]).mp hleased
  exact absurd heq (by decide)

end Botwork.System
