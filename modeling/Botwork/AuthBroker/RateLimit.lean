import Botwork.AuthBroker.Handshakes
import Botwork.Foundations.Text
import Botwork.Foundations.TokenBucket

/-!
# The rate limiter

One token bucket for each tenant that is asked for and address that asks.  Tokens
are counted in billionths, so that an elapsed nanosecond refills as many of them
as the rate says; the rounding of the broker's floating point numbers is left
out.  `lastSweep` is read by nothing in the code.

## Main definitions

- `Bucket.tryConsume` — refill, and take one token
- `RateLimiter.check`, `RateLimiter.sweep` — admission and eviction
- `extractClientIp` — the address of a request
- `RateLimiter.Tracks` — what was let through under one key
-/

namespace Botwork.AuthBroker

open Botwork.Foundations

-- ════════════════════════════════════════════════════════════════════════
-- Buckets
-- ════════════════════════════════════════════════════════════════════════

structure RateLimitConfig where
  ratePerSecond : Nat
  burst : Nat
  disabled : Bool
  deriving DecidableEq

def RateLimitConfig.isDisabled (config : RateLimitConfig) : Bool :=
  config.disabled || config.ratePerSecond = 0

/-- The parts of one token. -/
@[irreducible] def tokenParts : Nat := 1000000000

def RateLimitConfig.meter (config : RateLimitConfig) : Meter where
  unit := tokenParts
  rate := config.ratePerSecond
  capacity := config.burst * tokenParts

structure Bucket where
  tokens : Nat
  lastAccess : Nat
  deriving DecidableEq

/-- `BUCKET_STALE_TTL`. -/
def bucketStaleTtl : Nat := 5 * 60

namespace Bucket

def new (config : RateLimitConfig) (now : Nat) : Bucket := ⟨config.meter.capacity, now⟩

/-- The whole seconds until there is a token again, at least one. -/
def retryAfter (rate tokens : Nat) : Nat :=
  max 1 ((tokenParts - tokens + (rate * tokenParts - 1)) / (rate * tokenParts))

/-- An instant before the last access counts as no time, and is the last access
    from then on. -/
def tryConsume (bucket : Bucket) (config : RateLimitConfig) (now : Nat) : Except Nat Unit × Bucket :=
  let tokens := config.meter.refilled bucket.tokens (now - bucket.lastAccess)
  if tokenParts ≤ tokens then (.ok (), ⟨tokens - tokenParts, now⟩)
  else (.error (retryAfter config.ratePerSecond tokens), ⟨tokens, now⟩)

def isStale (bucket : Bucket) (now : Nat) : Bool :=
  seconds bucketStaleTtl < now - bucket.lastAccess

/-- The bucket would be full. -/
def isFull (bucket : Bucket) (config : RateLimitConfig) (now : Nat) : Bool :=
  config.meter.capacity ≤ bucket.tokens + (now - bucket.lastAccess) * config.ratePerSecond

end Bucket

-- ════════════════════════════════════════════════════════════════════════
-- The limiter
-- ════════════════════════════════════════════════════════════════════════

/-- The tenant as it was requested, and the address. -/
abbrev RateLimitKey := String × String

structure RateLimiter where
  buckets : FiniteMap RateLimitKey Bucket
  lastSweep : Nat

namespace RateLimiter

def new : RateLimiter := ⟨∅, 0⟩

/-- The bucket of a key, made if there is none. -/
def bucket (limiter : RateLimiter) (config : RateLimitConfig) (key : RateLimitKey) (now : Nat) :
    Bucket := (limiter.buckets.lookup key).getD (.new config now)

def check (limiter : RateLimiter) (config : RateLimitConfig) (key : RateLimitKey) (now : Nat) :
    Except Nat Unit × RateLimiter :=
  if config.isDisabled then (.ok (), limiter)
  else
    let (result, bucket) := (limiter.bucket config key now).tryConsume config now
    (result, { limiter with buckets := limiter.buckets.insert key bucket })

def sweep (limiter : RateLimiter) (config : RateLimitConfig) (now : Nat) : RateLimiter :=
  if config.isDisabled then limiter
  else
    { buckets := limiter.buckets.retain fun _ bucket => !bucket.isStale now
      lastSweep := max limiter.lastSweep now }

/-- The limiter lets a request through. -/
def admits (limiter : RateLimiter) (config : RateLimitConfig) (key : RateLimitKey) (now : Nat) :
    Bool := (limiter.check config key now).1.toBool

-- ════════════════════════════════════════════════════════════════════════
-- One key
-- ════════════════════════════════════════════════════════════════════════

variable (limiter : RateLimiter) (config : RateLimitConfig) (key : RateLimitKey)

/-- The tokens a check of the key would find, but for the time since. -/
def level : Nat :=
  match limiter.buckets.lookup key with
  | some bucket => bucket.tokens
  | none => config.meter.capacity

/-- When the key was last checked, or its bucket last missing. -/
def lastSeen : Nat :=
  match limiter.buckets.lookup key with
  | some bucket => bucket.lastAccess
  | none => limiter.lastSweep

/-- The checks of the key that let a request through were at `taken`. -/
def Tracks (taken : List Nat) : Prop :=
  config.meter.Metered (limiter.level config key) (limiter.lastSeen key) taken

variable {limiter config key} {taken : List Nat} {now : Nat}

theorem tracks_new : new.Tracks config key [] := Meter.metered_full 0

theorem lookup_check (limiter : RateLimiter) (hlimits : config.isDisabled = false)
    (key other : RateLimitKey) (now : Nat) :
    (limiter.check config key now).2.buckets.lookup other =
      if other = key then some ((limiter.bucket config key now).tryConsume config now).2
      else limiter.buckets.lookup other := by
  rw [check, if_neg (by simp [hlimits])]
  exact FiniteMap.lookup_insert_ite _ _ _ _

theorem lastSweep_check : (limiter.check config key now).2.lastSweep = limiter.lastSweep := by
  rw [check]
  split
  next => rfl
  next => rfl

/-- A check of another key. -/
theorem Tracks.check_of_ne {other : RateLimitKey} (h : limiter.Tracks config key taken)
    (hlimits : config.isDisabled = false) (hne : key ≠ other) :
    (limiter.check config other now).2.Tracks config key taken := by
  have hlookup := lookup_check limiter hlimits other key now
  rw [if_neg hne] at hlookup
  rw [Tracks, level, lastSeen, hlookup, lastSweep_check]
  exact h

/-- What a check finds once the time since is counted. -/
theorem Tracks.refilled (h : limiter.Tracks config key taken) (hnow : limiter.lastSeen key ≤ now) :
    config.meter.Metered (config.meter.refilled (limiter.bucket config key now).tokens
      (now - (limiter.bucket config key now).lastAccess)) now taken := by
  rw [Tracks, level] at h
  rw [lastSeen] at h hnow
  rw [bucket]
  cases hlookup : limiter.buckets.lookup key with
  | some bucket =>
    rw [hlookup] at h hnow
    exact h.wait hnow
  | none =>
    rw [hlookup] at h hnow
    have hfull : config.meter.refilled config.meter.capacity (now - now) = config.meter.capacity := by
      rw [Nat.sub_self, Meter.refilled, Nat.zero_mul, Nat.add_zero, Nat.min_self]
    have hnew := h.renew hnow (Nat.le_add_right _ _)
    rwa [← hfull] at hnew

/-- A check of the key takes a token exactly when it lets the request through. -/
theorem Tracks.check (h : limiter.Tracks config key taken) (hlimits : config.isDisabled = false)
    (hnow : limiter.lastSeen key ≤ now) :
    (limiter.check config key now).2.Tracks config key
      (if limiter.admits config key now then now :: taken else taken) := by
  have hmetered := h.refilled hnow
  have hlookup := lookup_check limiter hlimits key key now
  rw [if_pos rfl] at hlookup
  rw [Tracks, level, lastSeen, hlookup, admits, RateLimiter.check, if_neg (by simp [hlimits])]
  simp only [Bucket.tryConsume]
  split
  next hunit => exact hmetered.take hunit
  next hunit => exact hmetered

/-- An eviction of a bucket that is full by then. -/
theorem Tracks.sweep (h : limiter.Tracks config key taken)
    (hfull : ∀ bucket, limiter.buckets.lookup key = some bucket → bucket.isStale now = true →
      bucket.isFull config now = true) :
    (limiter.sweep config now).Tracks config key taken := by
  rw [RateLimiter.sweep]
  split
  next => exact h
  next =>
    rw [Tracks, level, lastSeen] at h ⊢
    simp only [FiniteMap.lookup_retain]
    cases hlookup : limiter.buckets.lookup key with
    | none =>
      rw [hlookup] at h
      exact h.renew (Nat.le_max_left _ _) (Nat.le_add_right _ _)
    | some bucket =>
      rw [hlookup] at h
      by_cases hstale : bucket.isStale now = true
      · have hpast : bucket.lastAccess ≤ now := by
          rw [Bucket.isStale, decide_eq_true_eq] at hstale
          omega
        have hbucket := hfull bucket hlookup hstale
        rw [Bucket.isFull, decide_eq_true_eq] at hbucket
        have hlater : (now - bucket.lastAccess) * config.ratePerSecond ≤
            (max limiter.lastSweep now - bucket.lastAccess) * config.ratePerSecond :=
          Nat.mul_le_mul_right _ (by omega)
        simp only [Option.filter_some, hstale, Bool.not_true, Bool.false_eq_true, if_false]
        exact h.renew (Nat.le_trans hpast (Nat.le_max_right _ _))
          (Nat.le_trans hbucket (Nat.add_le_add_left hlater _))
      · simp only [Option.filter_some, Bool.not_eq_true] at hstale ⊢
        simp only [hstale, Bool.not_false, if_true]
        exact h

end RateLimiter

-- ════════════════════════════════════════════════════════════════════════
-- Addresses
-- ════════════════════════════════════════════════════════════════════════

/-- The headers of a request in their order, by their lower case names. -/
abbrev HeaderMap := List (String × List Char)

/-- `HeaderValue::to_str`: tabs and visible ASCII characters only. -/
def toStr (value : List Char) : Option String :=
  if value.all fun c => c = '\t' || (' ' ≤ c && c ≤ '~') then some (String.ofList value) else none

/-- The first entry of a list, if it is one. -/
def firstEntry (text : String) : Option String :=
  let entry := Text.trim (String.ofList (text.toList.takeWhile (· ≠ ',')))
  if entry = "" then none else some entry

def extractClientIp (headers : HeaderMap) : String :=
  match ((headers.lookup "x-forwarded-for").bind toStr).bind firstEntry with
  | some ip => ip
  | none =>
    match (headers.lookup "x-real-ip").bind toStr with
    | some text => if Text.trim text = "" then "unknown" else Text.trim text
    | none => "unknown"

/-- What a proxy makes of the headers a client sent: the address of the client
    stands behind what was there. -/
def forward (peer : String) (headers : HeaderMap) : HeaderMap :=
  let sent := (headers.filter fun header => header.1 = "x-forwarded-for").map Prod.snd
  ("x-forwarded-for", [','].intercalate (sent ++ [peer.toList])) ::
    headers.filter fun header => header.1 ≠ "x-forwarded-for"

end Botwork.AuthBroker
