import Botwork.AuthBroker.Leases
import Botwork.Foundations.ReadCommitted
import Botwork.Foundations.Transition

/-!
# Invitations

The endpoints of `auth/endpoints.rs` that issue and revoke invitations, and
`verify_and_consume`, on one table under READ COMMITTED.  Every statement is a
step of its own: the SELECT and the guarded UPDATE of a verification, the UPDATE
of a revocation row by row, and the INSERT and the COMMIT of a renewal.

An OTP is known by its hash, which is ideal, and a new OTP is one that was never
issued.  An invitation is known by the call that inserts it.

## Main definitions

- `Invitation` — a row
- `invitationExpiry` — `now + Duration::seconds(ttl_seconds as i64)`, or a panic
- `Statement` — what a call runs next
- `InvitationDb`, `invitations` — the transition system
-/

namespace Botwork.AuthBroker

open Botwork.Foundations

abbrev InvitationId := CallId
abbrev OtpHash := String

/-- The first instant of the year 2000, in nanoseconds. -/
def postgresEpoch : Int := (seconds 946684800 : Int)

/-- A time as a `timestamptz` column holds it. -/
def column (time : Int) : Int := postgresEpoch + (time - postgresEpoch).tdiv 1000 * 1000

/-- `DateTime::<Utc>::MAX_UTC`. -/
def maxUtc : Int := (seconds 8210266876800 : Int) - 1

/-- `DateTime::<Utc>::MIN_UTC`. -/
def minUtc : Int := -(seconds 8334601228800 : Int)

/-- The largest argument of `Duration::seconds`. -/
def maxDurationSeconds : Int := 9223372036854775

def invitationDefaultTtlSeconds : UInt64 := 7 * 24 * 60 * 60

/-- `now + Duration::seconds(ttl_seconds as i64)`; `none` is a panic. -/
def invitationExpiry (now : Int) (ttlSeconds : UInt64) : Option Int :=
  let secs := ttlSeconds.toInt64.toInt
  let time := now + secs * (seconds 1 : Int)
  if secs < -maxDurationSeconds ∨ maxDurationSeconds < secs then none
  else if time < minUtc ∨ maxUtc < time then none
  else some time

structure Invitation where
  tenantId : TenantId
  otpHash : OtpHash
  expiresAt : Int
  consumedAt : Option Int
  revokedAt : Option Int
  createdAt : Int
  deriving DecidableEq

/-- The filters of `has_active_invitation` and `revoke_invitations_for_tenant`. -/
def Invitation.outstanding (row : Invitation) (tenantId : TenantId) (now : Int) : Bool :=
  row.tenantId = tenantId && row.consumedAt.isNone && decide (now < row.expiresAt) &&
    row.revokedAt.isNone

inductive OtpError where
  | invalidOtp
  | expired
  | alreadyConsumed
  deriving DecidableEq

/-- What `verify_and_consume` finds wrong with the row its SELECT returns. -/
def Invitation.refusal (row : Invitation) (now : Int) : Option OtpError :=
  if row.expiresAt ≤ now then some .expired
  else if row.revokedAt.isSome then some .invalidOtp
  else if row.consumedAt.isSome then some .alreadyConsumed
  else none

/-- The statement a call runs next.  `fresh` is the row a renewal inserts behind its
    UPDATE, and `covered` the rows that the UPDATE found outstanding. -/
inductive Statement where
  /-- the INSERT of a create -/
  | insert (row : Invitation)
  /-- the UPDATE of a revocation takes its snapshot -/
  | sweep (tenantId : TenantId) (now : Int) (fresh : Option Invitation)
  /-- the UPDATE comes to the rows of its snapshot, and a renewal's INSERT follows -/
  | revoke (tenantId : TenantId) (now : Int) (fresh : Option Invitation)
      (covered rest : List InvitationId)
  | commit (tenantId : TenantId) (fresh : Option Invitation) (covered : List InvitationId)
  /-- the SELECT of `verify_and_consume` -/
  | select (tenantId : TenantId) (otpHash : OtpHash) (now : Int)
  /-- its UPDATE -/
  | consume (id : InvitationId) (now : Int)
  deriving DecidableEq

/-- What an endpoint answers. -/
inductive InvitationAnswer where
  | invited (expiresAt : Int)
  | revoked (count : Nat)
  | verified (result : Except OtpError Unit)
  | databaseError
  | panicked

/-- An OTP that was issued: when it was asked for and with what ttl, and the expiry
    of the answer. -/
structure Issue where
  now : Int
  ttlSeconds : UInt64
  otpHash : OtpHash
  expiresAt : Int

/-- A row whose `consumed_at` was set, when that was, and whether a revocation that
    covers the row had returned. -/
structure Consumption where
  otpHash : OtpHash
  time : Int
  expiresAt : Int
  closed : Bool

/-- The table, the clock and the calls; `closed`, `renewed`, `issued` and
    `consumptions` record what has happened. -/
structure InvitationDb where
  rows : Table CallId InvitationId Invitation
  clock : Int
  calls : Nat
  inFlight : FiniteMap CallId Statement
  answers : FiniteMap CallId InvitationAnswer
  issued : FiniteMap CallId Issue
  closed : List InvitationId
  renewed : List (CallId × TenantId)
  consumptions : List Consumption

inductive InvitationEvent where
  | tick (now : Int)
  | createInvitation (tenantId : TenantId) (ttlSeconds : Option UInt64) (otpHash : OtpHash)
  | renewInvitation (tenantId : TenantId) (ttlSeconds : Option UInt64) (otpHash : OtpHash)
  | revokeInvitations (tenantId : TenantId)
  | verifyAndConsume (tenantId : TenantId) (otpHash : OtpHash)
  /-- the call runs its statement -/
  | run (call : CallId)
  /-- the statement fails, and with it the transaction -/
  | fail (call : CallId)

namespace InvitationDb

def init (clock : Int) : InvitationDb := ⟨∅, clock, 0, ∅, ∅, ∅, [], [], []⟩

/-- A call arrives with this statement. -/
def begin (s : InvitationDb) (statement : Statement) : InvitationDb :=
  { s with calls := s.calls + 1, inFlight := s.inFlight.insert s.calls statement }

def advance (s : InvitationDb) (call : CallId) (statement : Statement) : InvitationDb :=
  { s with inFlight := s.inFlight.insert call statement }

def finish (s : InvitationDb) (call : CallId) (answer : InvitationAnswer) : InvitationDb :=
  { s with inFlight := s.inFlight.erase call, answers := s.answers.insert call answer }

/-- `create_internal_invitation` and `renew_internal_invitation` up to the store; the
    OTP is one that was never issued. -/
def issue (s : InvitationDb) (tenantId : TenantId) (ttlSeconds : Option UInt64)
    (otpHash : OtpHash) (statement : Invitation → Statement) : Option InvitationDb :=
  let ttlSeconds := ttlSeconds.getD invitationDefaultTtlSeconds
  if s.issued.values.any (·.otpHash = otpHash) then none
  else
    match invitationExpiry s.clock ttlSeconds with
    | none =>
      some { s with calls := s.calls + 1, answers := s.answers.insert s.calls .panicked }
    | some expiresAt =>
      some { s.begin (statement
          { tenantId := tenantId
            otpHash := otpHash
            expiresAt := column expiresAt
            consumedAt := none
            revokedAt := none
            createdAt := column s.clock }) with
        issued := s.issued.insert s.calls ⟨s.clock, ttlSeconds, otpHash, expiresAt⟩ }

/-- The answer to an invitation that is stored. -/
def invited (s : InvitationDb) (call : CallId) : InvitationAnswer :=
  match s.issued.lookup call with
  | some issue => .invited issue.expiresAt
  | none => .databaseError

/-- The rows a revocation finds outstanding. -/
def outstanding (s : InvitationDb) (call : CallId) (tenantId : TenantId) (now : Int) :
    List InvitationId :=
  ((Table.snapshot s.rows call).retain fun _ row => row.outstanding tenantId now).keys

/-- The UPDATE of a revocation at a row: it waits for the lock, and looks at the row
    again when it has it. -/
def revokeRow (s : InvitationDb) (call : CallId) (tenantId : TenantId) (now : Int)
    (id : InvitationId) : Option InvitationDb :=
  if (Table.slot s.rows id).lockedFor call then none
  else
    match Table.view s.rows call id with
    | none => some s
    | some row =>
      if row.outstanding tenantId now then
        (Table.write s.rows call id (some { row with revokedAt := some (column now) })).map
          fun rows => { s with rows := rows }
      else some s

/-- The COMMIT of a revocation, and its answer. -/
def commitRevocation (s : InvitationDb) (call : CallId) (tenantId : TenantId)
    (fresh : Option Invitation) (covered : List InvitationId) : InvitationDb :=
  let count := covered.countP fun id => (Table.slot s.rows id).heldBy call
  { s with
    rows := Table.commit s.rows call
    closed := covered ++ s.closed
    renewed := if fresh.isSome then (call, tenantId) :: s.renewed else s.renewed }.finish call
      (if fresh.isSome then s.invited call else .revoked count)

/-- The UPDATE of `verify_and_consume`, whose guard is `consumed_at IS NULL`. -/
def consume (s : InvitationDb) (call : CallId) (id : InvitationId) (now : Int) :
    Option InvitationDb :=
  match Table.view s.rows call id with
  | none => some (s.finish call (.verified (.error .alreadyConsumed)))
  | some row =>
    if row.consumedAt.isSome then some (s.finish call (.verified (.error .alreadyConsumed)))
    else
      (Table.write s.rows call id (some { row with consumedAt := some (column now) })).map
        fun rows =>
          { s with
            rows := Table.commit rows call
            consumptions := ⟨row.otpHash, s.clock, row.expiresAt, decide (id ∈ s.closed)⟩ ::
              s.consumptions }.finish call (.verified (.ok ()))

def step (s : InvitationDb) (call : CallId) : Statement → Option InvitationDb
  | .insert row =>
    (Table.write s.rows call call (some row)).map fun rows =>
      { s with rows := Table.commit rows call }.finish call (s.invited call)
  | .sweep tenantId now fresh =>
    let covered := s.outstanding call tenantId now
    some (s.advance call (.revoke tenantId now fresh covered covered))
  | .revoke tenantId now fresh covered (id :: rest) =>
    (s.revokeRow call tenantId now id).map
      (·.advance call (.revoke tenantId now fresh covered rest))
  | .revoke tenantId _ none covered [] => some (s.advance call (.commit tenantId none covered))
  | .revoke tenantId _ (some row) covered [] =>
    (Table.write s.rows call call (some row)).map fun rows =>
      { s with rows := rows }.advance call (.commit tenantId (some row) covered)
  | .commit tenantId fresh covered => some (s.commitRevocation call tenantId fresh covered)
  | .select tenantId otpHash now =>
    match Table.find? s.rows call (fun _ row => row.tenantId = tenantId && row.otpHash = otpHash) with
    | none => some (s.finish call (.verified (.error .invalidOtp)))
    | some (id, row) =>
      match row.refusal now with
      | some err => some (s.finish call (.verified (.error err)))
      | none => some (s.advance call (.consume id now))
  | .consume id now => s.consume call id now

def next (s : InvitationDb) : InvitationEvent → Option InvitationDb
  | .tick now => if s.clock ≤ now then some { s with clock := now } else none
  | .createInvitation tenantId ttlSeconds otpHash => s.issue tenantId ttlSeconds otpHash .insert
  | .renewInvitation tenantId ttlSeconds otpHash =>
    s.issue tenantId ttlSeconds otpHash fun row => .sweep tenantId s.clock (some row)
  | .revokeInvitations tenantId => some (s.begin (.sweep tenantId s.clock none))
  | .verifyAndConsume tenantId otpHash => some (s.begin (.select tenantId otpHash s.clock))
  | .run call => (s.inFlight.lookup call).bind (s.step call)
  | .fail call => (s.inFlight.lookup call).map fun _ =>
    { s with rows := Table.rollback s.rows call }.finish call .databaseError

end InvitationDb

def invitations : Machine InvitationDb InvitationEvent where
  Start s := ∃ clock, 0 ≤ clock ∧ s = .init clock
  next := InvitationDb.next

end Botwork.AuthBroker
