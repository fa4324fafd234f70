import Botwork.AuthBroker.Invitations
import Botwork.AuthBroker.Minting

/-!
# Registrations

Any number of calls of `/auth/register/finish` over the tables of tenants,
invitations and password files.  Every statement is a step, and each can fail; a
writing statement can also fail after it took effect.  Other requests create and
delete tenants, and issue and revoke invitations.

A call that is refused or fails has changed nothing exactly when no call that
consumed its invitation went wrong behind the UPDATE.

## Main definitions

- `RegisterCall` — a call and the statement it makes next
- `Registrations.next` — one step
- `Registrations.Untouched` — a call that is not answered 201 has written nothing
- `Registrations.Safe` — no call goes wrong once its invitation is consumed
-/

namespace Botwork.AuthBroker

open Botwork.Foundations Botwork.Vault

/-- `too_many_requests`, for a delay in nanoseconds. -/
def tooManyRequests (retryAfter : Nat) : AuthResponse :=
  let secs := max (retryAfter / seconds 1) 1
  .error 429 "rate_limited" ("rate limit exceeded; retry after " ++ toString secs ++ "s")

/-- The status is 201. -/
def AuthResponse.created : AuthResponse → Bool
  | .registered _ _ => true
  | _ => false

/-- How `verify_and_consume` reports it. -/
def OtpError.verifyError : OtpError → OtpVerifyError
  | .invalidOtp => .invalidOtp
  | .expired => .expired
  | .alreadyConsumed => .alreadyConsumed

/-- The statement a call makes next. -/
inductive RegisterStage where
  /-- `lookup_tenant_id_by_name` -/
  | lookup
  /-- the SELECT of `verify_and_consume` -/
  | select (tenantId : TenantId) (otp : String) (now : Int)
  /-- its UPDATE -/
  | consume (tenantId : TenantId) (id : InvitationId) (now : Int)
  /-- the INSERT of `upsert_password_file` -/
  | insert (tenantId : TenantId) (file : PasswordFile)
  /-- its SELECT -/
  | reread (tenantId : TenantId) (file : PasswordFile)
  deriving DecidableEq

def RegisterStage.tenantId? : RegisterStage → Option TenantId
  | .lookup => none
  | .select tenantId _ _ | .consume tenantId _ _ | .insert tenantId _ | .reread tenantId _ =>
    some tenantId

/-- The password file a call stores, once its invitation is consumed. -/
def RegisterStage.file? : RegisterStage → Option PasswordFile
  | .insert _ file | .reread _ file => some file
  | _ => none

structure RegisterCall where
  body : RegisterFinishRequest
  stage : RegisterStage
  deriving DecidableEq

/-- An answered call; `stored` is the tenant's password file as it is answered. -/
structure RegisterAnswer where
  body : RegisterFinishRequest
  tenantId : Option TenantId
  response : AuthResponse
  stored : Option Bytes
  deriving DecidableEq

/-- The tables and the calls.  Nothing in the code reads `consumed` and `stored`, what
    each call has written. -/
structure Registrations where
  clock : Int
  tenants : FiniteMap TenantId String
  invitations : FiniteMap InvitationId Invitation
  passwordFiles : FiniteMap TenantId Bytes
  calls : Nat
  inFlight : FiniteMap CallId RegisterCall
  answers : FiniteMap CallId RegisterAnswer
  consumed : List (CallId × InvitationId)
  stored : List (CallId × TenantId × Bytes)

/-- How a statement comes out. -/
inductive StatementOutcome where
  | ok
  | fail (err : String)
  /-- the row is written, and the answer of the store is lost -/
  | lost (err : String)
  deriving DecidableEq

inductive RegistrationEvent where
  | tick (now : Int)
  /-- a request, which the rate limiter may refuse -/
  | arrive (body : RegisterFinishRequest) (retryAfter : Option Nat)
  | run (call : CallId) (outcome : StatementOutcome)
  /-- the peer is gone before the statement is sent -/
  | drop (call : CallId)
  | putTenant (id : TenantId) (name : String)
  | deleteTenant (id : TenantId)
  | issueInvitation (id : InvitationId) (tenantId : TenantId) (otpHash : OtpHash) (expiresAt : Int)
  | revokeInvitation (id : InvitationId)

namespace Registrations

def init : Registrations := ⟨0, ∅, ∅, ∅, 0, ∅, ∅, [], []⟩

def advance (s : Registrations) (call : CallId) (c : RegisterCall) (stage : RegisterStage) :
    Registrations :=
  { s with inFlight := s.inFlight.insert call { c with stage := stage } }

def answer (s : Registrations) (call : CallId) (c : RegisterCall) (response : AuthResponse) :
    Registrations :=
  let tenantId := c.stage.tenantId?
  { s with
    inFlight := s.inFlight.erase call
    answers := s.answers.insert call
      ⟨c.body, tenantId, response, tenantId.bind s.passwordFiles.lookup⟩ }

/-- `lookup_tenant_id_by_name`; the index on names is unique. -/
def tenantId? (s : Registrations) (name : String) : Option TenantId :=
  (s.tenants.find? fun _ other => other = name).map Prod.fst

/-- The row that the guard `consumed_at IS NULL` lets the UPDATE write. -/
def consumable (s : Registrations) (id : InvitationId) : Option Invitation :=
  (s.invitations.lookup id).filter (·.consumedAt.isNone)

def consume (s : Registrations) (call : CallId) (id : InvitationId) (row : Invitation)
    (now : Int) : Registrations :=
  { s with
    invitations := s.invitations.insert id { row with consumedAt := some (column now) }
    consumed := (call, id) :: s.consumed }

def store (s : Registrations) (call : CallId) (tenantId : TenantId) (file : PasswordFile) :
    Registrations :=
  { s with
    passwordFiles := s.passwordFiles.insert tenantId file.bytes
    stored := (call, tenantId, file.bytes) :: s.stored }

/-- The INSERT writes a row: the tenant is there and has none. -/
def insertable (s : Registrations) (tenantId : TenantId) : Bool :=
  (s.tenants.lookup tenantId).isSome && (s.passwordFiles.lookup tenantId).isNone

variable (K : OpaqueKe) (hashOtp : String → OtpHash)

/-- The statements of `register_finish`, each with what follows up to the next. -/
def statement (s : Registrations) (call : CallId) (c : RegisterCall) :
    StatementOutcome → RegisterStage → Option Registrations
  | .fail err, _ => some (s.answer call c (databaseError err))
  | .ok, .lookup =>
    match s.tenantId? c.body.tenant, c.body.otp with
    | none, _ => some (s.answer call c (notFound ("unknown tenant '" ++ c.body.tenant ++ "'")))
    | some _, none =>
      some (s.answer call c (badRequest "an invitation OTP is required to register this tenant"))
    | some tenantId, some otp => some (s.advance call c (.select tenantId otp s.clock))
  | .ok, .select tenantId otp now =>
    match s.invitations.find? (fun _ row => row.tenantId = tenantId && row.otpHash = hashOtp otp) with
    | none => some (s.answer call c (OtpError.invalidOtp.verifyError.response))
    | some (id, row) =>
      match row.refusal now with
      | some err => some (s.answer call c err.verifyError.response)
      | none => some (s.advance call c (.consume tenantId id now))
  | .ok, .consume tenantId id now =>
    match s.consumable id with
    | none => some (s.answer call c (OtpError.alreadyConsumed.verifyError.response))
    | some row =>
      match c.body.upload K with
      | .error response => some ((s.consume call id row now).answer call c response)
      | .ok upload =>
        some ((s.consume call id row now).advance call c
          (.insert tenantId (K.registrationFinish upload)))
  | .lost err, .consume _ id now =>
    (s.consumable id).map fun row => (s.consume call id row now).answer call c (databaseError err)
  | .ok, .insert tenantId file =>
    if s.insertable tenantId then
      some ((s.store call tenantId file).answer call c (.registered c.body.tenant suiteVersion))
    else if (s.passwordFiles.lookup tenantId).isSome then
      some (s.advance call c (.reread tenantId file))
    else none
  | .lost err, .insert tenantId file =>
    if s.insertable tenantId then
      some ((s.store call tenantId file).answer call c (databaseError err))
    else none
  | .ok, .reread tenantId file =>
    if s.passwordFiles.lookup tenantId = some file.bytes then
      some (s.answer call c (.registered c.body.tenant suiteVersion))
    else
      some (s.answer call c
        (conflict ("a password file already exists for tenant '" ++ c.body.tenant ++ "'")))
  | .lost _, _ => none

def arrive (s : Registrations) (body : RegisterFinishRequest) (retryAfter : Option Nat) :
    Registrations :=
  let s' := { s with calls := s.calls + 1 }
  match retryAfter with
  | some retryAfter => s'.answer s.calls ⟨body, .lookup⟩ (tooManyRequests retryAfter)
  | none => s'.advance s.calls ⟨body, .lookup⟩ .lookup

def next (s : Registrations) : RegistrationEvent → Option Registrations
  | .tick now => some { s with clock := now }
  | .arrive body retryAfter => some (s.arrive body retryAfter)
  | .run call outcome =>
    (s.inFlight.lookup call).bind fun c => s.statement K hashOtp call c outcome c.stage
  | .drop call => some { s with inFlight := s.inFlight.erase call }
  | .putTenant id name =>
    -- the id is fresh, and the index on names is unique
    if (s.tenants.lookup id).isNone ∧ (s.stored.all fun w => w.2.1 ≠ id) ∧
        (s.tenants.all fun _ other => other ≠ name) then
      some { s with tenants := s.tenants.insert id name }
    else none
  | .deleteTenant id =>
    -- both references cascade
    some { s with
      tenants := s.tenants.erase id
      invitations := s.invitations.retain fun _ row => row.tenantId ≠ id
      passwordFiles := s.passwordFiles.erase id }
  | .issueInvitation id tenantId otpHash expiresAt =>
    if (s.invitations.lookup id).isNone ∧ s.consumed.all fun w => w.2 ≠ id then
      let row : Invitation := ⟨tenantId, otpHash, column expiresAt, none, none, column s.clock⟩
      some { s with invitations := s.invitations.insert id row }
    else none
  | .revokeInvitation id =>
    (s.invitations.lookup id).map fun row =>
      let row := { row with revokedAt := some (column s.clock) }
      { s with invitations := s.invitations.insert id row }

end Registrations

/-- Registrations of one deployment, from empty tables on. -/
def registrations (K : OpaqueKe) (hashOtp : String → OtpHash) :
    Machine Registrations RegistrationEvent where
  Start s := s = Registrations.init
  next := Registrations.next K hashOtp

namespace Registrations

variable (K : OpaqueKe) (hashOtp : String → OtpHash)

/-- A call that is answered and not with 201 has consumed no invitation and stored no
    password file. -/
def Untouched (s : Registrations) : Prop :=
  ∀ call a, s.answers.lookup call = some a → a.response.created = false →
    (∀ id, (call, id) ∉ s.consumed) ∧ ∀ tenantId file, (call, tenantId, file) ∉ s.stored

/-- What is consumed and what is stored, some call has consumed and stored. -/
structure Attributed (s : Registrations) : Prop where
  consumed : ∀ id row, s.invitations.lookup id = some row →
    (row.consumedAt.isSome = true ↔ ∃ call, (call, id) ∈ s.consumed)
  stored : ∀ tenantId file, s.passwordFiles.lookup tenantId = some file →
    ∃ call, (call, tenantId, file) ∈ s.stored

/-- A call that is answered 201 found the uploaded password file stored, and the tenant
    has it as long as it exists. -/
def Created (s : Registrations) : Prop :=
  ∀ call a, s.answers.lookup call = some a → a.response.created = true →
    ∃ upload tenantId, a.body.upload K = .ok upload ∧ a.tenantId = some tenantId ∧
      a.stored = some (K.registrationFinish upload).bytes ∧
      ((s.tenants.lookup tenantId).isSome = true → s.passwordFiles.lookup tenantId = a.stored)

/-- No tenant ever has two password files. -/
def OneFile (s : Registrations) : Prop :=
  ∀ w ∈ s.stored, ∀ w' ∈ s.stored, w.2.1 = w'.2.1 → w.2.2 = w'.2.2

/-- The statement, if it consumes an invitation or comes behind one that does, succeeds
    and does not lead to a refusal: the upload decodes, and the tenant has no other file. -/
def safeStatement (s : Registrations) (c : RegisterCall) (outcome : StatementOutcome) : Bool :=
  match c.stage with
  | .lookup | .select _ _ _ => true
  | .consume _ id _ =>
    match outcome with
    | .ok => (s.consumable id).isNone || (c.body.upload K).toBool
    | .fail _ => true
    | .lost _ => false
  | .insert _ _ => outcome = .ok
  | .reread tenantId file => outcome = .ok && s.passwordFiles.lookup tenantId = some file.bytes

def Safe (s : Registrations) : RegistrationEvent → Prop
  | .run call outcome => (s.inFlight.lookup call).all fun c => s.safeStatement K c outcome
  | _ => True

instance (s : Registrations) (event : RegistrationEvent) : Decidable (s.Safe K event) := by
  cases event <;> unfold Safe <;> infer_instance

/-! ### What a statement does -/

/-- The statement of a call in one of nine ways; `safe` is whether it is safe. -/
inductive Does (s : Registrations) (call : CallId) (c : RegisterCall) :
    Bool → Registrations → Prop where
  | advance (stage : RegisterStage) (hbefore : c.stage.file? = none)
      (hafter : stage.file? = none) : s.Does call c true (s.advance call c stage)
  | refuse (response : AuthResponse) (hbefore : c.stage.file? = none)
      (hresponse : response.created = false) : s.Does call c true (s.answer call c response)
  | consume (id : InvitationId) (row : Invitation) (now : Int) (tenantId : TenantId)
      (upload : K.RegistrationUpload) (hrow : s.consumable id = some row)
      (hupload : c.body.upload K = .ok upload) :
      s.Does call c true ((s.consume call id row now).advance call c
        (.insert tenantId (K.registrationFinish upload)))
  | burn (id : InvitationId) (row : Invitation) (now : Int) (response : AuthResponse)
      (hrow : s.consumable id = some row) (hresponse : response.created = false) :
      s.Does call c false ((s.consume call id row now).answer call c response)
  | retry (tenantId : TenantId) (file : PasswordFile) (hbefore : c.stage.file? = some file) :
      s.Does call c true (s.advance call c (.reread tenantId file))
  | store (tenantId : TenantId) (file : PasswordFile) (tenant : String) (version : UInt8)
      (hstage : c.stage = .insert tenantId file) (hfree : s.insertable tenantId = true) :
      s.Does call c true ((s.store call tenantId file).answer call c (.registered tenant version))
  | lose (tenantId : TenantId) (file : PasswordFile) (response : AuthResponse)
      (hstage : c.stage = .insert tenantId file) (hfree : s.insertable tenantId = true)
      (hresponse : response.created = false) :
      s.Does call c false ((s.store call tenantId file).answer call c response)
  | agree (tenantId : TenantId) (file : PasswordFile) (tenant : String) (version : UInt8)
      (hstage : c.stage = .reread tenantId file)
      (hsame : s.passwordFiles.lookup tenantId = some file.bytes) :
      s.Does call c true (s.answer call c (.registered tenant version))
  | giveUp (file : PasswordFile) (response : AuthResponse) (hbefore : c.stage.file? = some file)
      (hresponse : response.created = false) : s.Does call c false (s.answer call c response)

variable {K hashOtp} {s s' s'' : Registrations} {call other : CallId} {c : RegisterCall}
  {outcome : StatementOutcome} {stage : RegisterStage} {response : AuthResponse}

theorem not_created_malformed (field : String) (err : OpaqueError) :
    (malformed field err).created = false := by
  cases err <;> rfl

theorem not_created_verifyError (err : OtpError) : err.verifyError.response.created = false := by
  cases err <;> rfl

/-- An upload that does not decode is a refusal. -/
theorem not_created_upload {body : RegisterFinishRequest} (h : body.upload K = .error response) :
    response.created = false := by
  unfold RegisterFinishRequest.upload at h
  cases hfield : body.registrationUpload with
  | other text =>
    rw [hfield] at h
    cases h
    rfl
  | encoded bytes =>
    rw [hfield] at h
    cases hparse : K.deserializeUpload bytes with
    | ok upload =>
      simp only [b64Decode, bind, Except.bind, hparse] at h
      cases h
    | error err =>
      simp only [b64Decode, bind, Except.bind, hparse] at h
      cases h
      exact not_created_malformed _ _

/-- What a statement does, and whether it is safe. -/
theorem does_of_statement (h : s.statement K hashOtp call c outcome c.stage = some s') :
    s.Does K call c (s.safeStatement K c outcome) s' := by
  obtain ⟨body, stage⟩ := c
  cases stage with
  | lookup =>
    cases outcome with
    | lost err => cases h
    | fail err =>
      cases h
      exact .refuse _ rfl rfl
    | ok =>
      simp only [statement] at h
      split at h <;> cases h
      · exact .refuse _ rfl rfl
      · exact .refuse _ rfl rfl
      · exact .advance _ rfl rfl
  | select tenantId otp now =>
    cases outcome with
    | lost err => cases h
    | fail err =>
      cases h
      exact .refuse _ rfl rfl
    | ok =>
      simp only [statement] at h
      split at h
      next =>
        cases h
        exact .refuse _ rfl (not_created_verifyError _)
      next =>
        split at h <;> cases h
        · exact .refuse _ rfl (not_created_verifyError _)
        · exact .advance _ rfl rfl
  | consume tenantId id now =>
    cases outcome with
    | fail err =>
      cases h
      exact .refuse _ rfl rfl
    | lost err =>
      obtain ⟨row, hrow, rfl⟩ := Option.map_eq_some_iff.mp h
      exact .burn id row now _ hrow rfl
    | ok =>
      simp only [statement, safeStatement] at h ⊢
      cases hrow : s.consumable id with
      | none =>
        rw [hrow] at h
        cases h
        exact .refuse _ rfl (not_created_verifyError _)
      | some row =>
        simp only [hrow] at h
        cases hupload : body.upload K with
        | error response =>
          rw [hupload] at h
          cases h
          exact .burn id row now _ hrow (not_created_upload hupload)
        | ok upload =>
          rw [hupload] at h
          cases h
          exact .consume id row now tenantId upload hrow hupload
  | insert tenantId file =>
    cases outcome with
    | fail err =>
      cases h
      exact .giveUp file _ rfl rfl
    | lost err =>
      simp only [statement] at h
      split at h
      next hfree =>
        cases h
        exact .lose tenantId file _ rfl hfree rfl
      next => cases h
    | ok =>
      simp only [statement] at h
      split at h
      next hfree =>
        cases h
        exact .store tenantId file _ _ rfl hfree
      next =>
        split at h <;> cases h
        exact .retry tenantId file rfl
  | reread tenantId file =>
    cases outcome with
    | lost err => cases h
    | fail err =>
      cases h
      exact .giveUp file _ rfl rfl
    | ok =>
      simp only [statement, safeStatement] at h ⊢
      by_cases hsame : s.passwordFiles.lookup tenantId = some file.bytes
      · rw [if_pos hsame] at h
        cases h
        rw [decide_eq_true hsame]
        exact .agree tenantId file _ _ rfl hsame
      · rw [if_neg hsame] at h
        cases h
        rw [decide_eq_false hsame]
        exact .giveUp file _ rfl rfl

/-! ### The calls -/

/-- What a call under way has written, and what it carries. -/
structure Placed (K : OpaqueKe) (s : Registrations) (call : CallId) (c : RegisterCall) : Prop where
  consumed : (∃ id, (call, id) ∈ s.consumed) ↔ c.stage.file?.isSome = true
  stored : ∀ tenantId file, (call, tenantId, file) ∉ s.stored
  upload : ∀ file, c.stage.file? = some file →
    ∃ upload, c.body.upload K = .ok upload ∧ file = K.registrationFinish upload

/-- A call is under way or answered, and its writes are its own. -/
structure Calls (K : OpaqueKe) (s : Registrations) : Prop where
  begun : ∀ call c, s.inFlight.lookup call = some c →
    call < s.calls ∧ s.answers.lookup call = none ∧ s.Placed K call c
  answered : ∀ call a, s.answers.lookup call = some a → call < s.calls
  consumed : ∀ w ∈ s.consumed, w.1 < s.calls
  stored : ∀ w ∈ s.stored, w.1 < s.calls

/-- A step of one call leaves the others. -/
structure Frame (call : CallId) (s s' : Registrations) : Prop where
  calls : s.calls ≤ s'.calls
  inFlight : ∀ other, other ≠ call → s'.inFlight.lookup other = s.inFlight.lookup other
  answers : ∀ other, other ≠ call → s'.answers.lookup other = s.answers.lookup other
  consumed : ∀ other id, other ≠ call → ((other, id) ∈ s'.consumed ↔ (other, id) ∈ s.consumed)
  stored : ∀ other w, other ≠ call → ((other, w) ∈ s'.stored ↔ (other, w) ∈ s.stored)

theorem Frame.trans (h : Frame call s s') (h' : Frame call s' s'') : Frame call s s'' where
  calls := h.calls.trans h'.calls
  inFlight other hne := (h'.inFlight other hne).trans (h.inFlight other hne)
  answers other hne := (h'.answers other hne).trans (h.answers other hne)
  consumed other id hne := (h'.consumed other id hne).trans (h.consumed other id hne)
  stored other w hne := (h'.stored other w hne).trans (h.stored other w hne)

theorem frame_advance : Frame call s (s.advance call c stage) where
  calls := Nat.le_refl _
  inFlight other hne := by rw [advance, FiniteMap.lookup_insert_ite, if_neg hne]
  answers _ _ := rfl
  consumed _ _ _ := Iff.rfl
  stored _ _ _ := Iff.rfl

theorem frame_answer : Frame call s (s.answer call c response) where
  calls := Nat.le_refl _
  inFlight other hne := by rw [answer, FiniteMap.lookup_erase_ite, if_neg hne]
  answers other hne := by rw [answer, FiniteMap.lookup_insert_ite, if_neg hne]
  consumed _ _ _ := Iff.rfl
  stored _ _ _ := Iff.rfl

theorem frame_consume {id : InvitationId} {row : Invitation} {now : Int} :
    Frame call s (s.consume call id row now) where
  calls := Nat.le_refl _
  inFlight _ _ := rfl
  answers _ _ := rfl
  consumed other id' hne := by simp only [consume, List.mem_cons, Prod.mk.injEq, hne, false_and, false_or]
  stored _ _ _ := Iff.rfl

theorem frame_store {tenantId : TenantId} {file : PasswordFile} :
    Frame call s (s.store call tenantId file) where
  calls := Nat.le_refl _
  inFlight _ _ := rfl
  answers _ _ := rfl
  consumed _ _ _ := Iff.rfl
  stored other w hne := by simp only [store, List.mem_cons, Prod.mk.injEq, hne, false_and, false_or]

theorem Does.frame {safe : Bool} (h : s.Does K call c safe s') : Frame call s s' := by
  cases h with
  | advance | retry => exact frame_advance
  | refuse | agree | giveUp => exact frame_answer
  | consume => exact frame_consume.trans frame_advance
  | burn => exact frame_consume.trans frame_answer
  | store | lose => exact frame_store.trans frame_answer

/-- What is to be shown of the calls after a step of one. -/
theorem Calls.carry (inv : s.Calls K) (hframe : Frame call s s') (hcall : call < s'.calls)
    (hself : ∀ c, s'.inFlight.lookup call = some c →
      s'.answers.lookup call = none ∧ s'.Placed K call c) : s'.Calls K where
  begun other c hother := by
    by_cases hne : other = call
    · rw [hne] at hother ⊢
      exact ⟨hcall, hself c hother⟩
    · rw [hframe.inFlight other hne] at hother
      obtain ⟨hlt, hnone, hplaced⟩ := inv.begun other c hother
      refine ⟨Nat.lt_of_lt_of_le hlt hframe.calls, (hframe.answers other hne).trans hnone, ?_⟩
      exact
        { consumed := by
            rw [← hplaced.consumed]
            exact exists_congr fun id => hframe.consumed other id hne
          stored := fun tenantId file hmem =>
            hplaced.stored tenantId file ((hframe.stored other _ hne).mp hmem)
          upload := hplaced.upload }
  answered other a hother := by
    by_cases hne : other = call
    · rw [hne]
      exact hcall
    · rw [hframe.answers other hne] at hother
      exact Nat.lt_of_lt_of_le (inv.answered other a hother) hframe.calls
  consumed w hw := by
    by_cases hne : w.1 = call
    · rw [hne]
      exact hcall
    · exact Nat.lt_of_lt_of_le (inv.consumed w ((hframe.consumed w.1 w.2 hne).mp hw)) hframe.calls
  stored w hw := by
    by_cases hne : w.1 = call
    · rw [hne]
      exact hcall
    · exact Nat.lt_of_lt_of_le (inv.stored w ((hframe.stored w.1 w.2 hne).mp hw)) hframe.calls

@[simp]
theorem lookup_inFlight_advance :
    (s.advance call c stage).inFlight.lookup call = some { c with stage := stage } :=
  AList.lookup_insert _

@[simp]
theorem lookup_inFlight_answer : (s.answer call c response).inFlight.lookup call = none :=
  AList.lookup_erase _ _

@[simp]
theorem lookup_answers_answer : (s.answer call c response).answers.lookup call =
    some ⟨c.body, c.stage.tenantId?, response,
      c.stage.tenantId?.bind s.passwordFiles.lookup⟩ :=
  AList.lookup_insert _

/-- A call under way stays placed, or is answered. -/
theorem Calls.does {safe : Bool} (inv : s.Calls K) (hc : s.inFlight.lookup call = some c)
    (h : s.Does K call c safe s') : s'.Calls K := by
  obtain ⟨hlt, hnone, hplaced⟩ := inv.begun call c hc
  apply inv.carry h.frame (Nat.lt_of_lt_of_le hlt h.frame.calls)
  intro c' hc'
  cases h with
  | advance stage hbefore hafter =>
    rw [lookup_inFlight_advance] at hc'
    cases hc'
    refine ⟨hnone, ?_, hplaced.stored, ?_⟩
    · rw [hafter, ← hbefore]
      exact hplaced.consumed
    · intro file hfile
      rw [hafter] at hfile
      cases hfile
  | consume id row now tenantId upload hrow hupload =>
    rw [lookup_inFlight_advance] at hc'
    cases hc'
    refine ⟨hnone, ?_, hplaced.stored, ?_⟩
    · exact iff_of_true ⟨id, List.mem_cons_self⟩ rfl
    · intro file hfile
      cases hfile
      exact ⟨upload, hupload, rfl⟩
  | retry tenantId file hbefore =>
    rw [lookup_inFlight_advance] at hc'
    cases hc'
    refine ⟨hnone, ?_, hplaced.stored, ?_⟩
    · exact iff_of_true (hplaced.consumed.mpr (by rw [hbefore]; rfl)) rfl
    · intro file' hfile
      cases hfile
      exact hplaced.upload file hbefore
  | refuse | burn | store | lose | agree | giveUp =>
    rw [lookup_inFlight_answer] at hc'
    cases hc'

/-- Whether a call that is answered in the step has left the tables alone. -/
def Spared (s : Registrations) (call : CallId) : Prop :=
  ∀ a, s.answers.lookup call = some a → a.response.created = false →
    (∀ id, (call, id) ∉ s.consumed) ∧ ∀ tenantId file, (call, tenantId, file) ∉ s.stored

/-- The calls that were answered before stay as they are. -/
theorem untouched_carry (hframe : Frame call s s') (hnone : s.answers.lookup call = none) :
    s'.Untouched ↔ s.Untouched ∧ s'.Spared call := by
  constructor
  · intro h
    refine ⟨fun other a hother hrefused => ?_, fun a => h call a⟩
    have hne : other ≠ call := by
      rintro rfl
      rw [hnone] at hother
      cases hother
    obtain ⟨hconsumed, hstored⟩ := h other a ((hframe.answers other hne).trans hother) hrefused
    exact ⟨fun id hmem => hconsumed id ((hframe.consumed other id hne).mpr hmem),
      fun tenantId file hmem => hstored tenantId file ((hframe.stored other _ hne).mpr hmem)⟩
  · rintro ⟨hbefore, hself⟩ other a hother hrefused
    by_cases hne : other = call
    · rw [hne] at hother ⊢
      exact hself a hother hrefused
    · rw [hframe.answers other hne] at hother
      obtain ⟨hconsumed, hstored⟩ := hbefore other a hother hrefused
      exact ⟨fun id hmem => hconsumed id ((hframe.consumed other id hne).mp hmem),
        fun tenantId file hmem => hstored tenantId file ((hframe.stored other _ hne).mp hmem)⟩

/-- A call that is answered 201 may have written. -/
theorem spared_of_created (h : response.created = true) : (s.answer call c response).Spared call := by
  intro a ha hrefused
  rw [lookup_answers_answer] at ha
  cases ha
  rw [h] at hrefused
  cases hrefused

/-- A call that is refused behind the UPDATE has consumed its invitation. -/
theorem not_spared {id : InvitationId} (h : response.created = false)
    (hconsumed : (call, id) ∈ s.consumed) : ¬ (s.answer call c response).Spared call :=
  fun hspared => (hspared _ lookup_answers_answer h).1 id hconsumed

/-- **A statement spares the tables exactly when it is safe.** -/
theorem Calls.spared {safe : Bool} (inv : s.Calls K) (hc : s.inFlight.lookup call = some c)
    (h : s.Does K call c safe s') : s'.Spared call ↔ safe = true := by
  obtain ⟨-, hnone, hplaced⟩ := inv.begun call c hc
  have hbehind : ∀ file, c.stage.file? = some file → ∃ id, (call, id) ∈ s.consumed := by
    intro file hfile
    exact hplaced.consumed.mpr (by rw [hfile]; rfl)
  have hpending : ∀ t : Registrations, t.answers = s.answers → t.Spared call := by
    intro t ht a ha
    rw [ht, hnone] at ha
    cases ha
  cases h with
  | advance | consume | retry => exact iff_of_true (hpending _ rfl) rfl
  | refuse response hbefore =>
    refine iff_of_true (fun a _ _ => ⟨fun id hmem => ?_, hplaced.stored⟩) rfl
    have hsome := hplaced.consumed.mp ⟨id, hmem⟩
    rw [hbefore] at hsome
    cases hsome
  | burn id row now response hrow hresponse =>
    exact iff_of_false (not_spared hresponse List.mem_cons_self) Bool.false_ne_true
  | store | agree => exact iff_of_true (spared_of_created rfl) rfl
  | lose tenantId file response hstage hfree hresponse =>
    obtain ⟨id, hmem⟩ := hbehind file (by rw [hstage]; rfl)
    exact iff_of_false (not_spared (s := s.store call tenantId file) hresponse hmem)
      Bool.false_ne_true
  | giveUp file response hbefore hresponse =>
    obtain ⟨id, hmem⟩ := hbehind file hbefore
    exact iff_of_false (not_spared hresponse hmem) Bool.false_ne_true

/-! ### The tables -/

/-- What is stored is what was written, and no row outlives its tenant. -/
structure Tables (s : Registrations) : Prop where
  attributed : s.Attributed
  kept : ∀ w ∈ s.stored, (s.tenants.lookup w.2.1).isSome = true →
    s.passwordFiles.lookup w.2.1 = some w.2.2
  files : ∀ tenantId file, s.passwordFiles.lookup tenantId = some file →
    (s.tenants.lookup tenantId).isSome = true
  oneFile : s.OneFile

/-- What the tables consist of. -/
structure SameTables (s s' : Registrations) : Prop where
  tenants : s'.tenants = s.tenants
  invitations : s'.invitations = s.invitations
  passwordFiles : s'.passwordFiles = s.passwordFiles
  consumed : s'.consumed = s.consumed
  stored : s'.stored = s.stored

theorem Tables.same (inv : s.Tables) (h : SameTables s s') : s'.Tables where
  attributed :=
    { consumed := by
        rw [h.invitations, h.consumed]
        exact inv.attributed.consumed
      stored := by
        rw [h.passwordFiles, h.stored]
        exact inv.attributed.stored }
  kept := by
    rw [h.stored, h.tenants, h.passwordFiles]
    exact inv.kept
  files := by
    rw [h.tenants, h.passwordFiles]
    exact inv.files
  oneFile := by
    rw [OneFile, h.stored]
    exact inv.oneFile

theorem sameTables_advance : SameTables s (s.advance call c stage) := ⟨rfl, rfl, rfl, rfl, rfl⟩

theorem sameTables_answer : SameTables s (s.answer call c response) := ⟨rfl, rfl, rfl, rfl, rfl⟩

theorem Tables.consume {id : InvitationId} {row : Invitation} {now : Int} (inv : s.Tables) :
    (s.consume call id row now).Tables where
  attributed :=
    { consumed := by
        intro id' row' hrow'
        rw [Registrations.consume, FiniteMap.lookup_insert_ite] at hrow'
        by_cases heq : id' = id
        · rw [if_pos heq] at hrow'
          cases hrow'
          exact iff_of_true rfl ⟨call, by rw [heq]; exact List.mem_cons_self⟩
        · rw [if_neg heq] at hrow'
          simpa [Registrations.consume, heq] using inv.attributed.consumed id' row' hrow'
      stored := inv.attributed.stored }
  kept := inv.kept
  files := inv.files
  oneFile := inv.oneFile

theorem insertable_iff {tenantId : TenantId} : s.insertable tenantId = true ↔
    (s.tenants.lookup tenantId).isSome = true ∧ s.passwordFiles.lookup tenantId = none := by
  simp [insertable]

theorem lookup_store {tenantId tenantId' : TenantId} {file : PasswordFile} :
    (s.store call tenantId file).passwordFiles.lookup tenantId' =
      if tenantId' = tenantId then some file.bytes else s.passwordFiles.lookup tenantId' :=
  FiniteMap.lookup_insert_ite _ _ _ _

/-- The tenant of a row that the INSERT writes never had a file. -/
theorem Tables.never_stored {tenantId : TenantId} (inv : s.Tables)
    (hfree : s.insertable tenantId = true) : ∀ w ∈ s.stored, w.2.1 ≠ tenantId := by
  rintro w hw rfl
  obtain ⟨htenant, hnone⟩ := insertable_iff.mp hfree
  rw [inv.kept w hw htenant] at hnone
  cases hnone

theorem Tables.store {tenantId : TenantId} {file : PasswordFile} (inv : s.Tables)
    (hfree : s.insertable tenantId = true) : (s.store call tenantId file).Tables where
  attributed :=
    { consumed := inv.attributed.consumed
      stored := by
        intro tenantId' file' hfile'
        rw [lookup_store] at hfile'
        by_cases heq : tenantId' = tenantId
        · rw [if_pos heq] at hfile'
          cases hfile'
          exact ⟨call, by rw [heq]; exact List.mem_cons_self⟩
        · rw [if_neg heq] at hfile'
          obtain ⟨other, hmem⟩ := inv.attributed.stored tenantId' file' hfile'
          exact ⟨other, List.mem_cons_of_mem _ hmem⟩ }
  kept := by
    intro w hw htenant
    rw [lookup_store]
    obtain rfl | hbefore := List.mem_cons.mp hw
    · exact if_pos rfl
    · rw [if_neg (inv.never_stored hfree w hbefore)]
      exact inv.kept w hbefore htenant
  files := by
    intro tenantId' file' hfile'
    rw [lookup_store] at hfile'
    by_cases heq : tenantId' = tenantId
    · rw [heq]
      exact (insertable_iff.mp hfree).1
    · rw [if_neg heq] at hfile'
      exact inv.files tenantId' file' hfile'
  oneFile := by
    intro w hw w' hw' htenant
    obtain rfl | hbefore := List.mem_cons.mp hw
    · obtain rfl | hbefore' := List.mem_cons.mp hw'
      · rfl
      · exact absurd htenant.symm (inv.never_stored hfree w' hbefore')
    · obtain rfl | hbefore' := List.mem_cons.mp hw'
      · exact absurd htenant (inv.never_stored hfree w hbefore)
      · exact inv.oneFile w hbefore w' hbefore' htenant

theorem Tables.does {safe : Bool} (inv : s.Tables) (h : s.Does K call c safe s') : s'.Tables := by
  cases h with
  | advance | retry => exact inv.same sameTables_advance
  | refuse | agree | giveUp => exact inv.same sameTables_answer
  | consume => exact inv.consume.same sameTables_advance
  | burn => exact inv.consume.same sameTables_answer
  | store _ _ _ _ _ hfree | lose _ _ _ _ hfree => exact (inv.store hfree).same sameTables_answer

/-! ### The answers -/

/-- What a call that is answered 201 found, and that some call has stored it. -/
def Confirmed (K : OpaqueKe) (s : Registrations) (a : RegisterAnswer) : Prop :=
  ∃ upload tenantId, a.body.upload K = .ok upload ∧ a.tenantId = some tenantId ∧
    a.stored = some (K.registrationFinish upload).bytes ∧
      ∃ call, (call, tenantId, (K.registrationFinish upload).bytes) ∈ s.stored

structure Inv (K : OpaqueKe) (s : Registrations) : Prop where
  calls : s.Calls K
  tables : s.Tables
  confirmed : ∀ call a, s.answers.lookup call = some a → a.response.created = true →
    s.Confirmed K a

theorem Confirmed.mono {a : RegisterAnswer} (h : s.Confirmed K a) (hsub : s.stored ⊆ s'.stored) :
    s'.Confirmed K a := by
  obtain ⟨upload, tenantId, hupload, htenant, hstored, call, hmem⟩ := h
  exact ⟨upload, tenantId, hupload, htenant, hstored, call, hsub hmem⟩

theorem Inv.created (inv : s.Inv K) : s.Created K := by
  intro call a ha hcreated
  obtain ⟨upload, tenantId, hupload, htenant, hstored, other, hmem⟩ :=
    inv.confirmed call a ha hcreated
  refine ⟨upload, tenantId, hupload, htenant, hstored, fun hexists => ?_⟩
  rw [hstored]
  exact inv.tables.kept _ hmem hexists

/-- The answer of a call whose file is the one that is stored. -/
theorem confirmed_self {tenantId : TenantId} {file : PasswordFile} {a : RegisterAnswer}
    (hplaced : s.Placed K call c) (hfile : c.stage.file? = some file)
    (htenant : c.stage.tenantId? = some tenantId)
    (hlookup : s'.passwordFiles.lookup tenantId = some file.bytes) (tables : s'.Tables)
    (ha : (s'.answer call c response).answers.lookup call = some a) :
    (s'.answer call c response).Confirmed K a := by
  rw [lookup_answers_answer] at ha
  cases ha
  obtain ⟨upload, hupload, rfl⟩ := hplaced.upload file hfile
  refine ⟨upload, tenantId, hupload, htenant, ?_, tables.attributed.stored tenantId _ hlookup⟩
  rw [htenant]
  exact hlookup

/-- The answer of the call that steps, if it is 201. -/
theorem Inv.confirmed_does {safe : Bool} (inv : s.Inv K) (hc : s.inFlight.lookup call = some c)
    (h : s.Does K call c safe s') {a : RegisterAnswer} (ha : s'.answers.lookup call = some a)
    (hcreated : a.response.created = true) : s'.Confirmed K a := by
  obtain ⟨-, hnone, hplaced⟩ := inv.calls.begun call c hc
  have hrefused : ∀ {t : Registrations} {response : AuthResponse}, response.created = false →
      (t.answer call c response).answers.lookup call ≠ some a := by
    intro t response hresponse ha
    rw [lookup_answers_answer] at ha
    cases ha
    rw [hresponse] at hcreated
    cases hcreated
  have hpending : s.answers.lookup call ≠ some a := by
    rw [hnone]
    exact fun h => by cases h
  cases h with
  | advance | consume | retry => exact absurd ha hpending
  | refuse _ _ hresponse => exact absurd ha (hrefused hresponse)
  | burn _ _ _ _ _ hresponse => exact absurd ha (hrefused hresponse)
  | lose _ _ _ _ _ hresponse => exact absurd ha (hrefused hresponse)
  | giveUp _ _ _ hresponse => exact absurd ha (hrefused hresponse)
  | store tenantId file tenant version hstage hfree =>
    apply confirmed_self hplaced (by rw [hstage]; rfl) (by rw [hstage]; rfl) _
      (inv.tables.store hfree) ha
    rw [lookup_store, if_pos rfl]
  | agree tenantId file tenant version hstage hsame =>
    exact confirmed_self hplaced (by rw [hstage]; rfl) (by rw [hstage]; rfl) hsame inv.tables ha

theorem Does.stored {safe : Bool} (h : s.Does K call c safe s') : s.stored ⊆ s'.stored := by
  cases h with
  | store | lose => exact List.subset_cons_self _ _
  | advance | refuse | consume | burn | retry | agree | giveUp => exact List.Subset.refl _

theorem Inv.does {safe : Bool} (inv : s.Inv K) (hc : s.inFlight.lookup call = some c)
    (h : s.Does K call c safe s') : s'.Inv K where
  calls := inv.calls.does hc h
  tables := inv.tables.does h
  confirmed other a ha hcreated := by
    by_cases hne : other = call
    · rw [hne] at ha
      exact inv.confirmed_does hc h ha hcreated
    · rw [h.frame.answers other hne] at ha
      exact (inv.confirmed other a ha hcreated).mono h.stored

/-! ### Steps and runs -/

theorem Inv.init : Registrations.init.Inv K where
  calls :=
    { begun := fun _ _ h => by cases h
      answered := fun _ _ h => by cases h
      consumed := fun _ h => by cases h
      stored := fun _ h => by cases h }
  tables :=
    { attributed := ⟨fun _ _ h => (by cases h), fun _ _ h => (by cases h)⟩
      kept := fun _ h => by cases h
      files := fun _ _ h => by cases h
      oneFile := fun _ h => by cases h }
  confirmed _ _ h := by cases h

/-- A new call has written nothing. -/
theorem Inv.arrive (inv : s.Inv K) (body : RegisterFinishRequest) (retryAfter : Option Nat) :
    (s.arrive body retryAfter).Inv K ∧
      ((s.arrive body retryAfter).Untouched ↔ s.Untouched) := by
  have hnone : s.answers.lookup s.calls = none := by
    cases ha : s.answers.lookup s.calls with
    | none => rfl
    | some a => exact absurd (inv.calls.answered s.calls a ha) (Nat.lt_irrefl _)
  have hconsumed : ∀ id, (s.calls, id) ∉ s.consumed := fun id hmem =>
    Nat.lt_irrefl _ (inv.calls.consumed _ hmem)
  have hstored : ∀ tenantId file, (s.calls, tenantId, file) ∉ s.stored := fun tenantId file hmem =>
    Nat.lt_irrefl _ (inv.calls.stored _ hmem)
  have hbegin : Frame s.calls s { s with calls := s.calls + 1 } :=
    ⟨Nat.le_succ _, fun _ _ => rfl, fun _ _ => rfl, fun _ _ _ => Iff.rfl, fun _ _ _ => Iff.rfl⟩
  have htables : ({ s with calls := s.calls + 1 } : Registrations).Tables :=
    inv.tables.same ⟨rfl, rfl, rfl, rfl, rfl⟩
  cases retryAfter with
  | none =>
    have hframe : Frame s.calls s (s.arrive body none) := hbegin.trans frame_advance
    refine ⟨⟨inv.calls.carry hframe (Nat.lt_succ_self _) ?_, htables.same sameTables_advance,
      inv.confirmed⟩, Iff.rfl⟩
    intro c hc
    rw [Registrations.arrive, lookup_inFlight_advance] at hc
    cases hc
    refine ⟨hnone, ?_, hstored, fun file hfile => by cases hfile⟩
    exact iff_of_false (fun ⟨id, hmem⟩ => hconsumed id hmem) Bool.false_ne_true
  | some delay =>
    have hframe : Frame s.calls s (s.arrive body (some delay)) := hbegin.trans frame_answer
    refine ⟨⟨inv.calls.carry hframe (Nat.lt_succ_self _) ?_, htables.same sameTables_answer, ?_⟩, ?_⟩
    · intro c hc
      rw [Registrations.arrive, lookup_inFlight_answer] at hc
      cases hc
    · intro other a ha hcreated
      by_cases hne : other = s.calls
      · rw [hne, Registrations.arrive, lookup_answers_answer] at ha
        cases ha
        cases hcreated
      · rw [hframe.answers other hne] at ha
        exact inv.confirmed other a ha hcreated
    · rw [untouched_carry hframe hnone]
      exact and_iff_left fun a _ _ => ⟨hconsumed, hstored⟩

theorem Inv.drop (inv : s.Inv K) : ({ s with inFlight := s.inFlight.erase call } :
    Registrations).Inv K where
  calls :=
    { begun := by
        intro other c hother
        rw [FiniteMap.lookup_erase_ite] at hother
        by_cases hne : other = call
        · rw [if_pos hne] at hother
          cases hother
        · rw [if_neg hne] at hother
          obtain ⟨hlt, hnone, hplaced⟩ := inv.calls.begun other c hother
          exact ⟨hlt, hnone, hplaced.consumed, hplaced.stored, hplaced.upload⟩
      answered := inv.calls.answered
      consumed := inv.calls.consumed
      stored := inv.calls.stored }
  tables := inv.tables.same ⟨rfl, rfl, rfl, rfl, rfl⟩
  confirmed := inv.confirmed

/-- A step of another request leaves the calls and what they wrote. -/
theorem Inv.others (inv : s.Inv K) (hcalls : s'.calls = s.calls) (hinFlight : s'.inFlight = s.inFlight)
    (hanswers : s'.answers = s.answers) (hconsumed : s'.consumed = s.consumed)
    (hstored : s'.stored = s.stored) (htables : s'.Tables) :
    s'.Inv K ∧ (s'.Untouched ↔ s.Untouched) := by
  refine ⟨⟨⟨?_, ?_, ?_, ?_⟩, htables, ?_⟩, ?_⟩
  · rw [hinFlight, hcalls, hanswers]
    intro call c hc
    obtain ⟨hlt, hnone, hplaced⟩ := inv.calls.begun call c hc
    refine ⟨hlt, hnone, ?_, ?_, hplaced.upload⟩
    · rw [hconsumed]
      exact hplaced.consumed
    · rw [hstored]
      exact hplaced.stored
  · rw [hanswers, hcalls]
    exact inv.calls.answered
  · rw [hconsumed, hcalls]
    exact inv.calls.consumed
  · rw [hstored, hcalls]
    exact inv.calls.stored
  · rw [hanswers]
    intro call a ha hcreated
    exact (inv.confirmed call a ha hcreated).mono (by rw [hstored]; exact List.Subset.refl _)
  · rw [Untouched, hanswers, hconsumed, hstored]
    exact Iff.rfl

theorem Tables.putTenant {id : TenantId} {name : String} (inv : s.Tables)
    (hfresh : ∀ w ∈ s.stored, w.2.1 ≠ id) :
    ({ s with tenants := s.tenants.insert id name } : Registrations).Tables where
  attributed := ⟨inv.attributed.consumed, inv.attributed.stored⟩
  kept w hw htenant := by
    rw [FiniteMap.lookup_insert_ite, if_neg (hfresh w hw)] at htenant
    exact inv.kept w hw htenant
  files tenantId file hfile := by
    rw [FiniteMap.lookup_insert_ite]
    split
    · rfl
    · exact inv.files tenantId file hfile
  oneFile := inv.oneFile

theorem Tables.deleteTenant {id : TenantId} (inv : s.Tables) :
    ({ s with
      tenants := s.tenants.erase id
      invitations := s.invitations.retain fun _ row => row.tenantId ≠ id
      passwordFiles := s.passwordFiles.erase id } : Registrations).Tables where
  attributed :=
    { consumed := fun other row hrow =>
        inv.attributed.consumed other row
          ((FiniteMap.lookup_retain_eq_some _ _ _ _).mp hrow).1
      stored := by
        intro tenantId file hfile
        rw [FiniteMap.lookup_erase_ite] at hfile
        by_cases heq : tenantId = id
        · rw [if_pos heq] at hfile
          cases hfile
        · rw [if_neg heq] at hfile
          exact inv.attributed.stored tenantId file hfile }
  kept w hw htenant := by
    rw [FiniteMap.lookup_erase_ite] at htenant ⊢
    by_cases heq : w.2.1 = id
    · rw [if_pos heq] at htenant
      cases htenant
    · rw [if_neg heq] at htenant ⊢
      exact inv.kept w hw htenant
  files tenantId file hfile := by
    rw [FiniteMap.lookup_erase_ite] at hfile ⊢
    by_cases heq : tenantId = id
    · rw [if_pos heq] at hfile
      cases hfile
    · rw [if_neg heq] at hfile ⊢
      exact inv.files tenantId file hfile
  oneFile := inv.oneFile

/-- Another request writes an invitation and leaves whether it is consumed. -/
theorem Tables.putInvitation {id : InvitationId} {row : Invitation} (inv : s.Tables)
    (hrow : row.consumedAt.isSome = true ↔ ∃ call, (call, id) ∈ s.consumed) :
    ({ s with invitations := s.invitations.insert id row } : Registrations).Tables where
  attributed :=
    { consumed := by
        intro other row' hrow'
        rw [FiniteMap.lookup_insert_ite] at hrow'
        by_cases heq : other = id
        · rw [if_pos heq] at hrow'
          cases hrow'
          rw [heq]
          exact hrow
        · rw [if_neg heq] at hrow'
          exact inv.attributed.consumed other row' hrow'
      stored := inv.attributed.stored }
  kept := inv.kept
  files := inv.files
  oneFile := inv.oneFile

/-- **A step**: it keeps the invariant, and leaves every refused call without effect
    exactly when it is safe. -/
theorem Inv.step {event : RegistrationEvent} (inv : s.Inv K)
    (h : s.next K hashOtp event = some s') :
    s'.Inv K ∧ (s'.Untouched ↔ s.Untouched ∧ s.Safe K event) := by
  have hunguarded : (s'.Inv K ∧ (s'.Untouched ↔ s.Untouched)) → s.Safe K event →
      s'.Inv K ∧ (s'.Untouched ↔ s.Untouched ∧ s.Safe K event) := by
    rintro ⟨hinv, hiff⟩ hsafe
    exact ⟨hinv, hiff.trans (and_iff_left hsafe).symm⟩
  cases event with
  | tick now =>
    cases h
    exact hunguarded (inv.others rfl rfl rfl rfl rfl (inv.tables.same ⟨rfl, rfl, rfl, rfl, rfl⟩))
      trivial
  | arrive body retryAfter =>
    cases h
    exact hunguarded (inv.arrive body retryAfter) trivial
  | run call outcome =>
    obtain ⟨c, hc, hstatement⟩ := Option.bind_eq_some_iff.mp h
    have hdoes := does_of_statement hstatement
    refine ⟨inv.does hc hdoes, ?_⟩
    have hnone := (inv.calls.begun call c hc).2.1
    rw [untouched_carry hdoes.frame hnone, inv.calls.spared hc hdoes, Safe, hc]
    exact Iff.rfl
  | drop call =>
    cases h
    exact hunguarded ⟨inv.drop, Iff.rfl⟩ trivial
  | putTenant id name =>
    simp only [next] at h
    split at h
    next hfresh =>
      cases h
      have hnever : ∀ w ∈ s.stored, w.2.1 ≠ id := by
        intro w hw
        simpa using List.all_eq_true.mp hfresh.2.1 w hw
      exact hunguarded (inv.others rfl rfl rfl rfl rfl (inv.tables.putTenant hnever)) trivial
    next => cases h
  | deleteTenant id =>
    cases h
    exact hunguarded (inv.others rfl rfl rfl rfl rfl inv.tables.deleteTenant) trivial
  | issueInvitation id tenantId otpHash expiresAt =>
    simp only [next] at h
    split at h
    next hfresh =>
      cases h
      refine hunguarded (inv.others rfl rfl rfl rfl rfl (inv.tables.putInvitation ?_)) trivial
      refine iff_of_false Bool.false_ne_true ?_
      rintro ⟨call, hmem⟩
      simpa using List.all_eq_true.mp hfresh.2 _ hmem
    next => cases h
  | revokeInvitation id =>
    obtain ⟨row, hrow, rfl⟩ := Option.map_eq_some_iff.mp h
    exact hunguarded (inv.others rfl rfl rfl rfl rfl
      (inv.tables.putInvitation (inv.tables.attributed.consumed id row hrow))) trivial

end Registrations

/-- **Registration is atomic exactly in the safe runs.**  In every run, a call that is
    answered 201 found the uploaded file stored, and no tenant ever has two files; the
    calls that are refused or fail have consumed and stored nothing exactly when every
    call that consumes an invitation has an upload that decodes, stores it without an
    error, and finds no other file. -/
theorem registration_atomic {K : OpaqueKe} {hashOtp : String → OtpHash}
    {events : List RegistrationEvent} {s : Registrations}
    (h : (registrations K hashOtp).exec .init events = some s) :
    s.Attributed ∧ s.Created K ∧ s.OneFile ∧
      (s.Untouched ↔
        (registrations K hashOtp).execUnder (Registrations.Safe K) .init events = some s) := by
  obtain ⟨inv, hiff⟩ := Machine.exec_iff_execUnder (C := Registrations.Safe K)
    (fun _ _ _ inv hnext => Registrations.Inv.step inv hnext) h Registrations.Inv.init
  refine ⟨inv.tables.attributed, inv.created, inv.tables.oneFile, hiff.trans (and_iff_right ?_)⟩
  intro call a ha
  cases ha

/-- "acme" is created and invited, and one call registers it with this upload. -/
private def acmeRun (upload : Token) : List RegistrationEvent :=
  [.putTenant 1 "acme", .issueInvitation 9 1 "otp" 100,
    .arrive ⟨"acme", upload, some "otp"⟩ none, .run 0 .ok, .run 0 .ok, .run 0 .ok]

theorem registration_atomic_acme : ∃ s,
    (registrations plainOpaque id).exec .init (acmeRun (.encoded [7]) ++ [.run 0 .ok]) = some s ∧
      s.passwordFiles.lookup 1 = some [7] ∧ s.Attributed ∧ s.Created plainOpaque ∧ s.OneFile ∧
      (s.Untouched ↔ (registrations plainOpaque id).execUnder (Registrations.Safe plainOpaque)
        .init (acmeRun (.encoded [7]) ++ [.run 0 .ok]) = some s) := by
  have hexec : ((registrations plainOpaque id).exec .init
      (acmeRun (.encoded [7]) ++ [.run 0 .ok])).any
        (fun s => s.passwordFiles.lookup 1 = some [7]) = true := by decide +kernel
  obtain ⟨s, hs, hfile⟩ := (Option.any_eq_true _ _).mp hexec
  exact ⟨s, hs, of_decide_eq_true hfile, registration_atomic hs⟩

/-- An upload that is no base64 is refused when the invitation is consumed. -/
theorem malformed_upload_burns_invitation : ∃ s,
    (registrations plainOpaque id).exec .init (acmeRun (.other "%")) = some s ∧
      (s.answers.lookup 0).map RegisterAnswer.response =
        some (badRequest "`registration_upload` is not valid url-safe-base64") ∧
      (s.invitations.lookup 9).map (·.consumedAt.isSome) = some true ∧ ¬ s.Untouched := by
  have hexec : ((registrations plainOpaque id).exec .init (acmeRun (.other "%"))).any
      (fun s => (s.answers.lookup 0).map RegisterAnswer.response =
          some (badRequest "`registration_upload` is not valid url-safe-base64") &&
        (s.invitations.lookup 9).map (·.consumedAt.isSome) = some true &&
        (0, 9) ∈ s.consumed) = true := by decide +kernel
  obtain ⟨s, hs, hcheck⟩ := (Option.any_eq_true _ _).mp hexec
  simp only [Bool.and_eq_true, decide_eq_true_eq] at hcheck
  obtain ⟨⟨hanswer, hconsumed⟩, hmem⟩ := hcheck
  refine ⟨s, hs, hanswer, hconsumed, fun huntouched => ?_⟩
  obtain ⟨a, ha, hresponse⟩ := Option.map_eq_some_iff.mp hanswer
  exact (huntouched 0 a ha (by rw [hresponse]; rfl)).1 9 hmem

end Botwork.AuthBroker
