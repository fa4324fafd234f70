import Botwork.AuthBroker.Minting
import Botwork.AuthBroker.RateLimit

/-!
# Admitted requests

The requests of OPAQUE handshakes at the broker's front door: every handler asks
the rate limiter first, but the one of `/api/auth/login`.  A request that gets
past it carries what it evaluates, should it get that far.

## Main definitions

- `OpaqueCall` — a request, and the tenant it is counted under
- `OpaqueCall.evaluated` — the credential identifier it evaluates
- `Admission` — the limiter and the requests it let through
- `login_starts_bounded`, `evaluations_bounded` — the bounds
-/

namespace Botwork.AuthBroker

open Botwork.Foundations Botwork.Vault

-- ════════════════════════════════════════════════════════════════════════
-- Requests
-- ════════════════════════════════════════════════════════════════════════

structure RegisterStartRequest where
  tenant : String
  credentialIdentifier : String
  registrationRequest : Token
  deriving DecidableEq

/-- A request of one of the OPAQUE endpoints. -/
inductive OpaqueCall where
  | registerStart (body : RegisterStartRequest)
  | auth (request : AuthRequest)
  deriving DecidableEq

/-- `RATE_LIMIT_NO_TENANT_SENTINEL`. -/
def rateLimitNoTenantSentinel : String := ""

namespace OpaqueCall

/-- The tenant whose bucket the handler checks; `api_auth_login` checks none. -/
def limitTenant : OpaqueCall → Option String
  | .registerStart body => some body.tenant
  | .auth (.loginStart body) => some body.tenant
  | .auth (.registerFinish body) => some body.tenant
  | .auth (.loginFinish _) => some rateLimitNoTenantSentinel
  | .auth (.apiAuthLogin _) => none

/-- What `login_start_inner` is executed with, on either surface. -/
def loginStart? : OpaqueCall → Option LoginStartRequest
  | .auth (.loginStart body) => some body
  | .auth (.apiAuthLogin body) =>
    match body.route with
    | .ok (.inl start) => some start
    | _ => none
  | _ => none

/-- A login start for the tenant. -/
def startsLogin (call : OpaqueCall) (tenant : String) : Bool :=
  call.loginStart?.any fun body => body.tenant = tenant

end OpaqueCall

/-- The server's half of the start of a registration. -/
structure RegistrationKe (K : OpaqueKe) where
  RegistrationRequest : Type
  RegistrationResponse : Type
  deserializeRequest : Bytes → Except ProtocolError RegistrationRequest
  /-- `ServerRegistration::start` -/
  start : K.ServerSetup → RegistrationRequest → Bytes → Except ProtocolError RegistrationResponse

variable {K : OpaqueKe} (R : RegistrationKe K)

/-- What the stores and the random generator answer to one request. -/
structure StoreAnswers (K : OpaqueKe) where
  tenantId : Except String (Option TenantId)
  passwordFile : Except String (Option PasswordFile)
  coins : K.Coins

def StoreAnswers.registration (answers : StoreAnswers K) : Except String (Option PasswordFile) :=
  match answers.tenantId with
  | .error err => .error err
  | .ok none => .ok none
  | .ok (some _) => answers.passwordFile

/-- `server::registration_start`. -/
def RegistrationKe.registrationStart (setup : Bytes) (request : R.RegistrationRequest)
    (credential : Bytes) : Except OpaqueError R.RegistrationResponse := do
  let inner ← (K.deserializeSetup setup).mapError .fromProtocol
  (R.start inner request credential).mapError .fromProtocol

def RegisterStartRequest.request (body : RegisterStartRequest) :
    Except AuthResponse R.RegistrationRequest := do
  let bytes ← b64Decode "registration_request" body.registrationRequest
  ((R.deserializeRequest bytes).mapError .fromProtocol).mapError (malformed "registration_request")

/-- The credential identifier under which a request that was let through is
    answered an evaluation. -/
def OpaqueCall.evaluated (setup : Bytes) (answers : StoreAnswers K) (call : OpaqueCall) :
    Option String :=
  match call with
  | .registerStart body => do
    let _ ← answers.tenantId.toOption.join
    let request ← (body.request R).toOption
    let _ ← (R.registrationStart setup request body.credentialIdentifier.toUTF8.toList).toOption
    return body.credentialIdentifier
  | call => do
    let body ← call.loginStart?
    let request ← (body.request K).toOption
    let file ← answers.registration.toOption
    let _ ← (K.loginStart answers.coins setup file request
      body.credentialIdentifier.toUTF8.toList).toOption
    return body.credentialIdentifier

-- ════════════════════════════════════════════════════════════════════════
-- Admission
-- ════════════════════════════════════════════════════════════════════════

/-- A request that was let through. -/
structure Passed where
  peer : String
  ip : String
  call : OpaqueCall
  time : Nat
  evaluated : Option String
  deriving DecidableEq

/-- The bucket a request was counted in. -/
def Passed.key (passed : Passed) : Option RateLimitKey :=
  passed.call.limitTenant.map fun tenant => (tenant, passed.ip)

/-- The limiter; nothing in the code reads `passed`. -/
structure Admission where
  limiter : RateLimiter
  passed : List Passed

/-- A request as the client at `peer` sent it through the proxy, with the instant
    its handler read, or a round of the prune task. -/
inductive AdmissionEvent (K : OpaqueKe) where
  | request (peer : String) (headers : HeaderMap) (call : OpaqueCall) (now : Nat)
      (answers : StoreAnswers K)
  | sweep (now : Nat)

namespace Admission

variable (config : RateLimitConfig) (setup : Bytes)

def init : Admission := ⟨.new, []⟩

/-- The bucket of a request, if its handler has one. -/
def keyOf (peer : String) (headers : HeaderMap) (call : OpaqueCall) : Option RateLimitKey :=
  call.limitTenant.map fun tenant => (tenant, extractClientIp (forward peer headers))

/-- The handler goes on with the request. -/
def admits (s : Admission) (peer : String) (headers : HeaderMap) (call : OpaqueCall) (now : Nat) :
    Bool :=
  match keyOf peer headers call with
  | none => true
  | some key => s.limiter.admits config key now

def limiterAfter (s : Admission) (peer : String) (headers : HeaderMap) (call : OpaqueCall)
    (now : Nat) : RateLimiter :=
  match keyOf peer headers call with
  | none => s.limiter
  | some key => (s.limiter.check config key now).2

def next (s : Admission) : AdmissionEvent K → Option Admission
  | .request peer headers call now answers =>
    let passed : Passed :=
      ⟨peer, extractClientIp (forward peer headers), call, now, call.evaluated R setup answers⟩
    some
      { limiter := s.limiterAfter config peer headers call now
        passed := if s.admits config peer headers call now then passed :: s.passed else s.passed }
  | .sweep now => some { s with limiter := s.limiter.sweep config now }

end Admission

def admission (R : RegistrationKe K) (config : RateLimitConfig) (setup : Bytes) :
    Machine Admission (AdmissionEvent K) where
  Start s := s = Admission.init
  next := Admission.next R config setup

-- ════════════════════════════════════════════════════════════════════════
-- Bounds
-- ════════════════════════════════════════════════════════════════════════

namespace Admission

variable {config : RateLimitConfig} {setup : Bytes} {s s' : Admission} {key : RateLimitKey}

/-- When requests of the bucket were let through. -/
def taken (s : Admission) (key : RateLimitKey) : List Nat :=
  (s.passed.filter fun passed => passed.key = some key).map Passed.time

/-- The requests that were let through within a window. -/
def countWithin (s : Admission) (p : Passed → Bool) (start stop : Nat) : Nat :=
  s.passed.countP fun passed => p passed && (start ≤ passed.time && passed.time ≤ stop)

/-- In every window of `duration` nanoseconds, no more than the burst and what the
    rate adds. -/
def Bounded (config : RateLimitConfig) (s : Admission) (p : Passed → Bool) : Prop :=
  ∀ start duration, s.countWithin p start (start + duration) * tokenParts ≤
    config.burst * tokenParts + duration * config.ratePerSecond

/-- The bucket is checked in the order of the instants that are read, and is not
    evicted before it is full again. -/
def InOrder (config : RateLimitConfig) (key : RateLimitKey) (s : Admission) :
    AdmissionEvent K → Prop
  | .request peer headers call now _ =>
    keyOf peer headers call = some key → s.limiter.lastSeen key ≤ now
  | .sweep now => (s.limiter.buckets.lookup key).all
    (fun bucket => !bucket.isStale now || bucket.isFull config now) = true

instance (config : RateLimitConfig) (key : RateLimitKey) (s : Admission)
    (event : AdmissionEvent K) : Decidable (InOrder config key s event) :=
  match event with
  | .request _ _ _ _ _ => inferInstanceAs (Decidable (_ → _))
  | .sweep _ => inferInstanceAs (Decidable (_ = true))

/-- A request that is let through counts in its own bucket only. -/
theorem taken_request {peer : String} {headers : HeaderMap} {call : OpaqueCall} {now : Nat}
    {answers : StoreAnswers K}
    (hnext : next R config setup s (.request peer headers call now answers) = some s') :
    s'.taken key =
      if keyOf peer headers call = some key ∧ s.admits config peer headers call now = true then
        now :: s.taken key
      else s.taken key := by
  cases hnext
  have hkey : Passed.key ⟨peer, extractClientIp (forward peer headers), call, now,
      call.evaluated R setup answers⟩ = keyOf peer headers call := rfl
  rw [taken]
  by_cases hadmits : s.admits config peer headers call now = true
  · simp only [hadmits, if_true, and_true, List.filter_cons, hkey, decide_eq_true_eq]
    split
    next => rfl
    next => rfl
  · simp only [hadmits, Bool.false_eq_true, and_false, if_false]
    rfl

theorem tracks_next (hlimits : config.isDisabled = false) {event : AdmissionEvent K}
    (horder : InOrder config key s event) (h : s.limiter.Tracks config key (s.taken key))
    (hnext : next R config setup s event = some s') :
    s'.limiter.Tracks config key (s'.taken key) := by
  cases event with
  | sweep now =>
    cases hnext
    refine h.sweep fun bucket hlookup hstale => ?_
    rw [InOrder, hlookup, Option.all_some, hstale, Bool.not_true, Bool.false_or] at horder
    exact horder
  | request peer headers call now answers =>
    rw [taken_request R hnext]
    cases hnext
    show (s.limiterAfter config peer headers call now).Tracks config key _
    rw [admits, limiterAfter]
    cases hkeyOf : keyOf peer headers call with
    | none => simpa using h
    | some other =>
      by_cases hsame : other = key
      · subst hsame
        simpa using h.check hlimits (horder hkeyOf)
      · have hne : ¬ (some other = some key ∧ s.limiter.admits config other now = true) :=
          fun hboth => hsame (Option.some.inj hboth.1)
        rw [if_neg hne]
        exact h.check_of_ne hlimits (Ne.symm hsame)

/-- Requests that are all counted in one bucket are bounded. -/
theorem bounded_of_tracks {p : Passed → Bool} (h : s.limiter.Tracks config key (s.taken key))
    (hkey : ∀ passed ∈ s.passed, p passed = true → passed.key = some key) :
    s.Bounded config p := by
  intro start duration
  have hwithin := h.within start (start + duration) (Nat.le_add_right _ _)
  have hcount : s.countWithin p start (start + duration) ≤
      Meter.takenWithin start (start + duration) (s.taken key) := by
    rw [Meter.takenWithin, taken, List.countP_map, List.countP_filter]
    refine List.countP_mono_left fun passed hmem hp => ?_
    simp only [Bool.and_eq_true] at hp
    simp [hkey passed hmem hp.1, hp.2]
  have hmul := Nat.mul_le_mul_right tokenParts hcount
  rw [Nat.add_sub_cancel_left] at hwithin
  exact Nat.le_trans hmul hwithin

theorem tracks_of_reachable (hlimits : config.isDisabled = false)
    (h : (admission R config setup).ReachableUnder (InOrder config key) s) :
    s.limiter.Tracks config key (s.taken key) :=
  h.invariant (fun t ht => by cases ht; exact RateLimiter.tracks_new) fun _ _ _ htracks horder hnext =>
    tracks_next R hlimits horder htracks hnext

/-- What held of every request that was let through holds of them after a step,
    if it holds of the request of this step. -/
theorem passed_next {P : Passed → Prop} {event : AdmissionEvent K}
    (h : ∀ passed ∈ s.passed, P passed) (hnext : next R config setup s event = some s')
    (hnew : ∀ peer headers call now answers, event = .request peer headers call now answers →
      P ⟨peer, extractClientIp (forward peer headers), call, now, call.evaluated R setup answers⟩) :
    ∀ passed ∈ s'.passed, P passed := by
  cases event with
  | sweep now =>
    cases hnext
    exact h
  | request peer headers call now answers =>
    cases hnext
    intro passed hmem
    simp only at hmem
    split at hmem
    next =>
      obtain rfl | hmem := List.mem_cons.mp hmem
      · exact hnew _ _ _ _ _ rfl
      · exact h passed hmem
    next => exact h passed hmem

/-- The login starts of `peer` for the tenant come to the handler that counts them,
    from one address. -/
def Throttled (config : RateLimitConfig) (tenant peer ip : String) (s : Admission)
    (event : AdmissionEvent K) : Prop :=
  InOrder config (tenant, ip) s event ∧
    match event with
    | .request other headers call _ _ =>
      other = peer → call.startsLogin tenant = true →
        keyOf other headers call = some (tenant, ip)
    | .sweep _ => True

instance (config : RateLimitConfig) (tenant peer ip : String) (s : Admission)
    (event : AdmissionEvent K) : Decidable (Throttled config tenant peer ip s event) :=
  match event with
  | .request _ _ _ _ _ => inferInstanceAs (Decidable (_ ∧ (_ → _ → _)))
  | .sweep _ => inferInstanceAs (Decidable (_ ∧ True))

end Admission

/-- The start of a registration beside `plainOpaque`. -/
def plainRegistration : RegistrationKe plainOpaque where
  RegistrationRequest := Bytes
  RegistrationResponse := Bytes
  deserializeRequest := .ok
  start _ request _ := .ok request

/-- A request without headers of its own, and the answers for an unknown tenant. -/
private def requestOf (call : OpaqueCall) (now : Nat) : AdmissionEvent plainOpaque :=
  .request "192.0.2.7" [] call now ⟨.ok none, .ok none, ([5] : Bytes)⟩

private def startOf (tenant credential : String) : OpaqueCall :=
  .auth (.loginStart ⟨tenant, credential, .encoded [3], none⟩)

private def oneToken : RateLimitConfig := ⟨1, 1, false⟩

/-- **Login starts are bounded**: in every run whose login starts for the tenant
    from the peer are counted in one bucket, those that are executed in any window
    are bounded, and each is admitted as the limiter says. -/
theorem login_starts_bounded {R : RegistrationKe K} {config : RateLimitConfig} {setup : Bytes}
    (hlimits : config.isDisabled = false) {tenant peer ip : String} {s : Admission}
    (h : (admission R config setup).ReachableUnder (Admission.Throttled config tenant peer ip) s) :
    s.Bounded config (fun passed => passed.peer = peer && passed.call.startsLogin tenant) ∧
      ∀ headers call now (answers : StoreAnswers K),
        Admission.Throttled config tenant peer ip s (.request peer headers call now answers) →
          call.startsLogin tenant = true →
            s.admits config peer headers call now =
              s.limiter.admits config (tenant, extractClientIp (forward peer headers)) now := by
  have htracks := Admission.tracks_of_reachable R hlimits
    (h.weaken fun _ _ hthrottled => hthrottled.1)
  have hkey : ∀ passed ∈ s.passed, passed.peer = peer → passed.call.startsLogin tenant = true →
      passed.key = some (tenant, ip) := by
    refine h.invariant (P := fun t : Admission => ∀ passed ∈ t.passed, passed.peer = peer →
      passed.call.startsLogin tenant = true → passed.key = some (tenant, ip))
      (fun t ht => by cases ht; exact fun _ hmem => absurd hmem List.not_mem_nil)
      fun t event t' hold hthrottled hnext => ?_
    refine Admission.passed_next R hold hnext ?_
    rintro other headers call now answers rfl hpeer hstart
    show Admission.keyOf other headers call = some (tenant, ip)
    exact hthrottled.2 hpeer hstart
  constructor
  · refine Admission.bounded_of_tracks htracks fun passed hmem hp => ?_
    simp only [Bool.and_eq_true, decide_eq_true_eq] at hp
    exact hkey passed hmem hp.1 hp.2
  · intro headers call now answers hthrottled hstart
    have hsame := hthrottled.2 rfl hstart
    obtain ⟨_, -, hpair⟩ := Option.map_eq_some_iff.mp hsame
    rw [Admission.admits, hsame, (Prod.mk.inj hpair).2]

theorem login_starts_bounded_twice :
    ∃ s : Admission, s.passed.length = 1 ∧
      s.Bounded oneToken
        (fun passed => passed.peer = "192.0.2.7" && passed.call.startsLogin "acme") := by
  have hexec : ((admission plainRegistration oneToken []).execUnder
      (Admission.Throttled oneToken "acme" "192.0.2.7" "192.0.2.7") Admission.init
        [requestOf (startOf "acme" "acme") 5, requestOf (startOf "acme" "acme") 6,
          .sweep 7]).any (fun s => s.passed.length = 1) = true := by
    decide +kernel
  obtain ⟨s, hrun, hs⟩ := Machine.exists_run_of_execUnder _ hexec
  exact ⟨s, of_decide_eq_true hs, (login_starts_bounded rfl ⟨_, rfl, hrun⟩).1⟩

/-- Two login starts at once on the other surface, where there is one token. -/
theorem unlimited_login_starts :
    ¬ ∀ (K : OpaqueKe) (R : RegistrationKe K) (config : RateLimitConfig) (setup : Bytes)
      (tenant peer : String) (s : Admission), config.isDisabled = false →
        (admission R config setup).Reachable s →
          s.Bounded config (fun passed => passed.peer = peer && passed.call.startsLogin tenant) := by
  intro h
  have hexec : ((admission plainRegistration oneToken []).execUnder (fun _ _ => True)
      Admission.init
        [requestOf (.auth (.apiAuthLogin ⟨some "acme", none, some (.encoded [3]), none, none, none⟩)) 5,
          requestOf (.auth (.apiAuthLogin ⟨some "acme", none, some (.encoded [3]), none, none, none⟩))
            5]).any (fun s => s.countWithin
              (fun passed => passed.peer = "192.0.2.7" && passed.call.startsLogin "acme") 5 5 = 2) =
        true := by
    decide +kernel
  obtain ⟨s, hrun, hs⟩ := Machine.exists_run_of_execUnder _ hexec
  have hbound := h plainOpaque plainRegistration oneToken [] "acme" "192.0.2.7" s rfl
    ⟨_, rfl, hrun⟩ 5 0
  rw [of_decide_eq_true hs] at hbound
  exact absurd hbound (by decide +kernel)

/-- **Evaluations are bounded**: in every run that keeps to the order of one
    bucket, the requests counted in it are answered no more evaluations under a
    credential identifier, in any window, than the bucket lets through. -/
theorem evaluations_bounded {R : RegistrationKe K} {config : RateLimitConfig} {setup : Bytes}
    (hlimits : config.isDisabled = false) {tenant ip : String} {s : Admission}
    (h : (admission R config setup).ReachableUnder (Admission.InOrder config (tenant, ip)) s)
    (credential : String) :
    s.Bounded config fun passed => passed.ip = ip && passed.call.limitTenant = some tenant &&
      passed.evaluated = some credential := by
  refine Admission.bounded_of_tracks (Admission.tracks_of_reachable R hlimits h) ?_
  intro passed _ hp
  simp only [Bool.and_eq_true, decide_eq_true_eq] at hp
  rw [Passed.key, hp.1.2, hp.1.1]
  rfl

theorem evaluations_bounded_twice :
    ∃ s : Admission, s.passed.length = 1 ∧
      s.Bounded oneToken (fun passed => passed.ip = "192.0.2.7" &&
        passed.call.limitTenant = some "acme" && passed.evaluated = some "acme") := by
  have hexec : ((admission plainRegistration oneToken []).execUnder
      (Admission.InOrder oneToken ("acme", "192.0.2.7")) Admission.init
        [requestOf (startOf "acme" "acme") 5, requestOf (startOf "acme" "acme") 6]).any
          (fun s => s.passed.length = 1) = true := by
    decide +kernel
  obtain ⟨s, hrun, hs⟩ := Machine.exists_run_of_execUnder _ hexec
  exact ⟨s, of_decide_eq_true hs, evaluations_bounded rfl ⟨_, rfl, hrun⟩ "acme"⟩

/-- Two tenants are asked for, and one credential identifier is evaluated. -/
theorem unbounded_evaluations :
    ¬ ∀ (K : OpaqueKe) (R : RegistrationKe K) (config : RateLimitConfig) (setup : Bytes)
      (ip credential : String) (s : Admission), config.isDisabled = false →
        (admission R config setup).Reachable s →
          s.Bounded config fun passed => passed.ip = ip && passed.evaluated = some credential := by
  intro h
  have hexec : ((admission plainRegistration oneToken []).execUnder (fun _ _ => True)
      Admission.init [requestOf (startOf "a" "acme") 5, requestOf (startOf "b" "acme") 5]).any
        (fun s => s.countWithin
          (fun passed => passed.ip = "192.0.2.7" && passed.evaluated = some "acme") 5 5 = 2) =
        true := by
    decide +kernel
  obtain ⟨s, hrun, hs⟩ := Machine.exists_run_of_execUnder _ hexec
  have hbound := h plainOpaque plainRegistration oneToken [] "192.0.2.7" "acme" s rfl
    ⟨_, rfl, hrun⟩ 5 0
  rw [of_decide_eq_true hs] at hbound
  exact absurd hbound (by decide +kernel)

end Botwork.AuthBroker
