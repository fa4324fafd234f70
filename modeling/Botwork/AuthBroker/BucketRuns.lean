import Botwork.AuthBroker.RateLimit
import Botwork.Foundations.Transition

/-!
# Runs of the rate limiter

Any sequence of checks and sweeps of one limiter, each with a clock reading of its
own.  A caller reads the clock before it waits for the lock, so readings can be out
of order.

## Main definitions

- `LimiterEvent`, `LimiterRun` — checks and sweeps, and what they have let through
- `LimiterRun.Bounded` — the bound over every window
- `LimiterRun.InOrder` — the readings for one key do not step back
- `LimiterRun.Sparing` — a sweep evicts only full buckets
-/

namespace Botwork.AuthBroker

open Botwork.Foundations

inductive LimiterEvent where
  | check (key : RateLimitKey) (now : Nat)
  | sweep (now : Nat)
  deriving DecidableEq

def LimiterEvent.isCheck : LimiterEvent → Bool
  | .check _ _ => true
  | .sweep _ => false

/-- A check that was made. -/
structure Checked where
  key : RateLimitKey
  time : Nat
  allowed : Bool
  deriving DecidableEq

/-- The limiter, and the checks so far, the latest first. -/
structure LimiterRun where
  limiter : RateLimiter
  checked : List Checked

namespace LimiterRun

def init : LimiterRun := ⟨.new, []⟩

variable (config : RateLimitConfig) (key : RateLimitKey)

def next (s : LimiterRun) : LimiterEvent → LimiterRun
  | .check key now =>
    { limiter := (s.limiter.check config key now).2
      checked := ⟨key, now, s.limiter.admits config key now⟩ :: s.checked }
  | .sweep now => { s with limiter := s.limiter.sweep config now }

/-- The readings of the checks of the key that were allowed. -/
def allowed (s : LimiterRun) : List Nat :=
  (s.checked.filter fun c => c.key = key && c.allowed).map Checked.time

/-- No more checks of the key are allowed in a window than the burst and what the rate
    refills in it, in parts of a token. -/
def Bounded (s : LimiterRun) : Prop :=
  ∀ start stop, start ≤ stop → Meter.takenWithin start stop (s.allowed key) * tokenParts ≤
    config.burst * tokenParts + (stop - start) * config.ratePerSecond

/-- A check of the key does not read an earlier time than the one before it, or, while
    the key has no bucket, than the last sweep. -/
def InOrder (s : LimiterRun) : LimiterEvent → Prop
  | .check other now => other = key → s.limiter.lastSeen key ≤ now
  | .sweep _ => True

/-- A sweep evicts the bucket of the key only when it would be full. -/
def Sparing (s : LimiterRun) : LimiterEvent → Prop
  | .check _ _ => True
  | .sweep now => ∀ bucket, s.limiter.buckets.lookup key = some bucket →
    bucket.isStale now = true → bucket.isFull config now = true

instance (s : LimiterRun) (event : LimiterEvent) : Decidable (s.InOrder key event) := by
  cases event <;> unfold InOrder <;> infer_instance

end LimiterRun

def limiterRuns (config : RateLimitConfig) : Machine LimiterRun LimiterEvent where
  Start s := s = .init
  next s event := some (s.next config event)

namespace LimiterRun

variable {config : RateLimitConfig} {key other : RateLimitKey} {s s' : LimiterRun} {now : Nat}
  {event : LimiterEvent}

/-! ### The bound -/

theorem allowed_check (s : LimiterRun) (key other : RateLimitKey) (now : Nat) :
    (s.next config (.check other now)).allowed key =
      if other = key ∧ s.limiter.admits config key now = true then now :: s.allowed key
      else s.allowed key := by
  by_cases hkey : other = key
  · subst hkey
    by_cases hadmits : s.limiter.admits config other now = true
    · simp [allowed, next, hadmits]
    · simp [allowed, next, hadmits]
  · simp [allowed, next, hkey]

theorem tracks_next (hlimits : config.isDisabled = false)
    (h : s.limiter.Tracks config key (s.allowed key)) (horder : s.InOrder key event)
    (hspares : s.Sparing config key event) :
    (s.next config event).limiter.Tracks config key ((s.next config event).allowed key) := by
  cases event with
  | check other now =>
    rw [allowed_check]
    by_cases hkey : other = key
    · subst hkey
      simp only [true_and]
      exact h.check hlimits (horder rfl)
    · rw [if_neg fun hboth => hkey hboth.1]
      exact h.check_of_ne hlimits (Ne.symm hkey)
  | sweep now => exact h.sweep hspares

/-- Nothing but a check of the key out of order and a sweep of a bucket that is not
    full can break the bound. -/
theorem bounded_of_sparing (hlimits : config.isDisabled = false)
    (hreach : (limiterRuns config).ReachableUnder
      (fun s event => s.InOrder key event ∧ s.Sparing config key event) s) :
    s.Bounded config key := by
  have htracks : s.limiter.Tracks config key (s.allowed key) := by
    refine hreach.invariant (P := fun t => t.limiter.Tracks config key (t.allowed key)) ?_ ?_
    · intro t ht
      rw [show t = .init from ht]
      exact RateLimiter.tracks_new
    · intro t event t' h hguard hnext
      cases hnext
      exact tracks_next hlimits h hguard.1 hguard.2
  exact htracks.within

/-- A bucket that is stale is full, if the burst refills within the ttl. -/
theorem isFull_of_isStale {bucket : Bucket} (hfits : config.burst ≤ config.ratePerSecond * bucketStaleTtl)
    (h : bucket.isStale now = true) : bucket.isFull config now = true := by
  rw [Bucket.isStale, decide_eq_true_eq] at h
  rw [Bucket.isFull, decide_eq_true_eq]
  have hidle : seconds bucketStaleTtl * config.ratePerSecond ≤
      (now - bucket.lastAccess) * config.ratePerSecond := Nat.mul_le_mul_right _ h.le
  have hburst : config.burst * tokenParts ≤ seconds bucketStaleTtl * config.ratePerSecond := by
    calc config.burst * tokenParts
        ≤ config.ratePerSecond * bucketStaleTtl * tokenParts := Nat.mul_le_mul_right _ hfits
      _ = seconds bucketStaleTtl * config.ratePerSecond := by
        unfold seconds tokenParts
        rw [Nat.mul_assoc, Nat.mul_comm]
  exact Nat.le_trans hburst (Nat.le_trans hidle (Nat.le_add_left _ _))

theorem sparing_of_fits (hfits : config.burst ≤ config.ratePerSecond * bucketStaleTtl)
    (s : LimiterRun) (event : LimiterEvent) : s.Sparing config key event := by
  cases event with
  | check other now => trivial
  | sweep now => exact fun bucket _ hstale => isFull_of_isStale hfits hstale

/-! ### Waiting out a refusal -/

/-- After `retryAfter` seconds there is a token again. -/
theorem refill_after {rate tokens elapsed : Nat} (hrate : 0 < rate)
    (helapsed : seconds (Bucket.retryAfter rate tokens) ≤ elapsed) :
    tokenParts ≤ tokens + elapsed * rate := by
  have hparts : 0 < rate * tokenParts := by
    unfold tokenParts
    omega
  have hceil : tokenParts - tokens ≤ Bucket.retryAfter rate tokens * (rate * tokenParts) := by
    have hdiv := Nat.lt_mul_div_succ (tokenParts - tokens + (rate * tokenParts - 1)) hparts
    rw [Nat.mul_add, Nat.mul_one, Nat.mul_comm (rate * tokenParts)] at hdiv
    have hmax : (tokenParts - tokens + (rate * tokenParts - 1)) / (rate * tokenParts) *
        (rate * tokenParts) ≤ Bucket.retryAfter rate tokens * (rate * tokenParts) :=
      Nat.mul_le_mul_right _ (Nat.le_max_right _ _)
    omega
  have hwait : Bucket.retryAfter rate tokens * (rate * tokenParts) ≤ elapsed * rate := by
    have hmul := Nat.mul_le_mul_right rate helapsed
    unfold seconds at hmul
    unfold tokenParts
    calc Bucket.retryAfter rate tokens * (rate * 1000000000)
        = Bucket.retryAfter rate tokens * 1000000000 * rate := by
          rw [Nat.mul_comm rate, Nat.mul_assoc]
      _ ≤ elapsed * rate := hmul
  omega

/-- The bucket of the key is as a check left it, or gone. -/
def Rests (key : RateLimitKey) (bucket : Bucket) (limiter : RateLimiter) : Prop :=
  ∀ other, limiter.buckets.lookup key = some other → other = bucket

theorem rests_next {bucket : Bucket} (hlimits : config.isDisabled = false)
    (h : Rests key bucket s.limiter) (hidle : ∀ now, event ≠ .check key now) :
    Rests key bucket (s.next config event).limiter := by
  intro found hfound
  cases event with
  | check other now =>
    have hne : key ≠ other := by
      rintro rfl
      exact hidle now rfl
    have hlookup := RateLimiter.lookup_check s.limiter hlimits other key now
    rw [if_neg hne] at hlookup
    exact h found (hlookup.symm.trans hfound)
  | sweep now =>
    simp only [next, RateLimiter.sweep, hlimits, Bool.false_eq_true, if_false] at hfound
    exact h found ((FiniteMap.lookup_retain_eq_some _ _ _ _).mp hfound).1

theorem rests_exec {bucket : Bucket} (hlimits : config.isDisabled = false)
    {events : List LimiterEvent} (hidle : ∀ now, .check key now ∉ events)
    (h : Rests key bucket s.limiter) (hexec : (limiterRuns config).exec s events = some s') :
    Rests key bucket s'.limiter := by
  induction events generalizing s with
  | nil =>
    cases hexec
    exact h
  | cons event events ih =>
    obtain ⟨t, hnext, hrest⟩ := Option.bind_eq_some_iff.mp hexec
    cases hnext
    refine ih (fun now hmem => hidle now (List.mem_cons_of_mem _ hmem)) ?_ hrest
    exact rests_next hlimits h fun now heq => hidle now (by rw [heq]; exact List.mem_cons_self)

/-- What a check of a key finds. -/
def available (config : RateLimitConfig) (key : RateLimitKey) (limiter : RateLimiter)
    (now : Nat) : Nat :=
  config.meter.refilled (limiter.bucket config key now).tokens
    (now - (limiter.bucket config key now).lastAccess)

theorem check_eq (hlimits : config.isDisabled = false) (limiter : RateLimiter) (key : RateLimitKey)
    (now : Nat) :
    limiter.check config key now =
      if tokenParts ≤ available config key limiter now then
        (.ok (), { limiter with buckets :=
          limiter.buckets.insert key ⟨available config key limiter now - tokenParts, now⟩ })
      else
        (.error (Bucket.retryAfter config.ratePerSecond (available config key limiter now)),
          { limiter with buckets :=
            limiter.buckets.insert key ⟨available config key limiter now, now⟩ }) := by
  rw [RateLimiter.check, if_neg (by simp [hlimits])]
  by_cases h : tokenParts ≤ available config key limiter now
  · rw [if_pos h]
    rw [available] at h
    simp only [Bucket.tryConsume, if_pos h, available]
  · rw [if_neg h]
    rw [available] at h
    simp only [Bucket.tryConsume, if_neg h, available]

theorem admits_iff (hlimits : config.isDisabled = false) (limiter : RateLimiter) :
    limiter.admits config key now = true ↔ tokenParts ≤ available config key limiter now := by
  rw [RateLimiter.admits, check_eq hlimits]
  by_cases h : tokenParts ≤ available config key limiter now
  · rw [if_pos h]
    exact iff_of_true rfl h
  · rw [if_neg h]
    exact iff_of_false Bool.false_ne_true h

/-- A key without a bucket finds a full one. -/
theorem available_of_none {limiter : RateLimiter} (h : limiter.buckets.lookup key = none) :
    available config key limiter now = config.burst * tokenParts := by
  rw [available, RateLimiter.bucket, h]
  simp only [Option.getD_none, Bucket.new, Nat.sub_self, Meter.refilled, Nat.zero_mul, Nat.add_zero,
    Nat.min_self]
  rfl

theorem available_of_some {limiter : RateLimiter} {bucket : Bucket}
    (h : limiter.buckets.lookup key = some bucket) :
    available config key limiter now = min
      (bucket.tokens + (now - bucket.lastAccess) * config.ratePerSecond)
      (config.burst * tokenParts) := by
  rw [available, RateLimiter.bucket, h]
  rfl

/-- **A refused key that stays idle is let through after the time it was told.** -/
theorem admits_after_retry (hlimits : config.isDisabled = false) (hburst : 1 ≤ config.burst)
    {limiter : RateLimiter} {wait : Nat} (hrefused : (limiter.check config key now).1 = .error wait)
    {events : List LimiterEvent} (hidle : ∀ time, .check key time ∉ events)
    (hexec : (limiterRuns config).exec (s.next config (.check key now)) events = some s')
    (hs : s.limiter = limiter) {later : Nat} (hlater : now + seconds wait ≤ later) :
    s'.limiter.admits config key later = true := by
  subst hs
  have hrate : 0 < config.ratePerSecond := by
    simp only [RateLimitConfig.isDisabled, Bool.or_eq_false_iff, decide_eq_false_iff_not] at hlimits
    omega
  have hcapacity : tokenParts ≤ config.burst * tokenParts := Nat.le_mul_of_pos_left _ hburst
  rw [check_eq hlimits] at hrefused
  split at hrefused
  next => cases hrefused
  next hempty =>
    cases hrefused
    have hrests : Rests key ⟨available config key s.limiter now, now⟩
        (s.next config (.check key now)).limiter := by
      intro bucket hbucket
      simp only [next, check_eq hlimits, if_neg hempty, AList.lookup_insert] at hbucket
      exact (Option.some.inj hbucket).symm
    have hrests' := rests_exec hlimits hidle hrests hexec
    rw [admits_iff hlimits]
    cases hlookup : s'.limiter.buckets.lookup key with
    | none =>
      rw [available_of_none hlookup]
      exact hcapacity
    | some bucket =>
      rw [available_of_some hlookup, hrests' bucket hlookup]
      have hwait : seconds (Bucket.retryAfter config.ratePerSecond
          (available config key s.limiter now)) ≤ later - now := by omega
      exact Nat.le_min.mpr ⟨refill_after hrate hwait, hcapacity⟩

/-! ### Sweeps -/

/-- The checks of the key that were made, and whether they were allowed. -/
def checksOf (key : RateLimitKey) (s : LimiterRun) : List Checked :=
  s.checked.filter fun c => c.key = key

/-- The bucket of the key is that of a limiter that is never swept, or was evicted from
    it at a time when that one would be full. -/
def Matches (config : RateLimitConfig) (key : RateLimitKey) (limiter unswept : RateLimiter) :
    Prop :=
  match limiter.buckets.lookup key with
  | some bucket => unswept.buckets.lookup key = some bucket
  | none => ∀ bucket, unswept.buckets.lookup key = some bucket →
      bucket.lastAccess ≤ limiter.lastSweep ∧ bucket.isFull config limiter.lastSweep = true

theorem Matches.available {limiter unswept : RateLimiter} (h : Matches config key limiter unswept)
    (hnow : limiter.lastSeen key ≤ now) :
    available config key limiter now = available config key unswept now := by
  rw [Matches] at h
  rw [RateLimiter.lastSeen] at hnow
  cases hlookup : limiter.buckets.lookup key with
  | some bucket =>
    rw [hlookup] at h
    rw [available_of_some hlookup, available_of_some h]
  | none =>
    rw [hlookup] at h hnow
    rw [available_of_none hlookup]
    cases hunswept : unswept.buckets.lookup key with
    | none => rw [available_of_none hunswept]
    | some bucket =>
      obtain ⟨hpast, hfull⟩ := h bucket hunswept
      rw [Bucket.isFull, decide_eq_true_eq] at hfull
      have hlater : (limiter.lastSweep - bucket.lastAccess) * config.ratePerSecond ≤
          (now - bucket.lastAccess) * config.ratePerSecond :=
        Nat.mul_le_mul_right _ (Nat.sub_le_sub_right hnow _)
      rw [available_of_some hunswept]
      exact (Nat.min_eq_right (Nat.le_trans hfull (Nat.add_le_add_left hlater _))).symm

/-- A check of a key whose buckets match is answered alike, and leaves the same bucket. -/
theorem Matches.check {limiter unswept : RateLimiter} (hlimits : config.isDisabled = false)
    (h : Matches config key limiter unswept) (hnow : limiter.lastSeen key ≤ now) :
    Matches config key (limiter.check config key now).2 (unswept.check config key now).2 ∧
      limiter.admits config key now = unswept.admits config key now := by
  have hsame := h.available hnow
  rw [RateLimiter.admits, RateLimiter.admits, check_eq hlimits, check_eq hlimits, ← hsame]
  by_cases hunit : tokenParts ≤ LimiterRun.available config key limiter now
  · simp [hunit, Matches]
  · simp [hunit, Matches, Except.toBool]

theorem Matches.check_of_ne {limiter unswept : RateLimiter} (hlimits : config.isDisabled = false)
    (h : Matches config key limiter unswept) (hne : key ≠ other) :
    Matches config key (limiter.check config other now).2 (unswept.check config other now).2 := by
  have hlookup := RateLimiter.lookup_check limiter hlimits other key now
  have hunswept := RateLimiter.lookup_check unswept hlimits other key now
  rw [if_neg hne] at hlookup hunswept
  rw [Matches, hlookup, hunswept, RateLimiter.lastSweep_check]
  exact h

theorem Matches.sweep {limiter unswept : RateLimiter} (hlimits : config.isDisabled = false)
    (hfits : config.burst ≤ config.ratePerSecond * bucketStaleTtl)
    (h : Matches config key limiter unswept) :
    Matches config key (limiter.sweep config now) unswept := by
  rw [RateLimiter.sweep, if_neg (by simp [hlimits]), Matches]
  rw [Matches] at h
  simp only [FiniteMap.lookup_retain]
  cases hlookup : limiter.buckets.lookup key with
  | some bucket =>
    rw [hlookup] at h
    by_cases hstale : bucket.isStale now = true
    · simp only [Option.filter_some, hstale, Bool.not_true, Bool.false_eq_true, if_false]
      intro found hfound
      obtain rfl : bucket = found := Option.some.inj (h.symm.trans hfound)
      have hfull := isFull_of_isStale hfits hstale
      rw [Bucket.isStale, decide_eq_true_eq] at hstale
      rw [Bucket.isFull, decide_eq_true_eq] at hfull ⊢
      have hlater : (now - bucket.lastAccess) * config.ratePerSecond ≤
          (max limiter.lastSweep now - bucket.lastAccess) * config.ratePerSecond :=
        Nat.mul_le_mul_right _ (by omega)
      exact ⟨by omega, Nat.le_trans hfull (Nat.add_le_add_left hlater _)⟩
    · simp only [Option.filter_some, hstale, Bool.not_false, if_true]
      exact h
  | none =>
    rw [hlookup] at h
    intro bucket hbucket
    obtain ⟨hpast, hfull⟩ := h bucket hbucket
    rw [Bucket.isFull, decide_eq_true_eq] at hfull ⊢
    have hlater : (limiter.lastSweep - bucket.lastAccess) * config.ratePerSecond ≤
        (max limiter.lastSweep now - bucket.lastAccess) * config.ratePerSecond :=
      Nat.mul_le_mul_right _ (by omega)
    exact ⟨by omega, Nat.le_trans hfull (Nat.add_le_add_left hlater _)⟩

/-- **A run without its sweeps** goes the same way. -/
theorem exec_unswept (hlimits : config.isDisabled = false)
    (hfits : config.burst ≤ config.ratePerSecond * bucketStaleTtl)
    {events : List LimiterEvent} {t : LimiterRun}
    (h : (limiterRuns config).execUnder (InOrder key) s events = some s')
    (hmatches : Matches config key s.limiter t.limiter) (hchecks : s.checksOf key = t.checksOf key) :
    ∃ t', (limiterRuns config).exec t (events.filter LimiterEvent.isCheck) = some t' ∧
      s'.checksOf key = t'.checksOf key := by
  induction events generalizing s t with
  | nil =>
    cases h
    exact ⟨t, rfl, hchecks⟩
  | cons event events ih =>
    rw [Machine.execUnder] at h
    split at h
    next horder =>
      obtain ⟨u, hnext, hrest⟩ := Option.bind_eq_some_iff.mp h
      cases hnext
      cases event with
      | check other now =>
        rw [List.filter_cons_of_pos rfl]
        refine ih hrest ?_ ?_
        · by_cases hkey : other = key
          · subst hkey
            exact (hmatches.check hlimits (horder rfl)).1
          · exact hmatches.check_of_ne hlimits (Ne.symm hkey)
        · by_cases hkey : other = key
          · subst hkey
            simp only [checksOf] at hchecks
            simp [checksOf, next, hchecks, (hmatches.check hlimits (horder rfl)).2]
          · simp only [checksOf] at hchecks
            simp [checksOf, next, hchecks, hkey]
      | sweep now =>
        rw [List.filter_cons_of_neg Bool.false_ne_true]
        exact ih hrest (hmatches.sweep hlimits hfits) hchecks
    next => cases h

theorem matches_new : Matches config key .new .new := fun _ h => by cases h

/-- **Sweeps change no answer**: two runs of the same checks, wherever they are swept. -/
theorem checksOf_eq (hlimits : config.isDisabled = false)
    (hfits : config.burst ≤ config.ratePerSecond * bucketStaleTtl)
    {events events' : List LimiterEvent}
    (hsame : events.filter LimiterEvent.isCheck = events'.filter LimiterEvent.isCheck)
    (h : (limiterRuns config).execUnder (InOrder key) .init events = some s)
    (h' : (limiterRuns config).execUnder (InOrder key) .init events' = some s') :
    s.checksOf key = s'.checksOf key := by
  obtain ⟨t, ht, heq⟩ := exec_unswept hlimits hfits h matches_new rfl
  obtain ⟨t', ht', heq'⟩ := exec_unswept hlimits hfits h' matches_new rfl
  rw [← hsame, ht] at ht'
  cases ht'
  rw [heq, heq']

/-! ### The configurations that are safe to sweep -/

/-- `n` checks at one instant that finds `n` tokens are all allowed. -/
theorem exec_drain (hlimits : config.isDisabled = false) {n : Nat}
    (htokens : n * tokenParts ≤ available config key s.limiter now)
    (hseen : s.limiter.lastSeen key ≤ now) :
    ∃ t, (limiterRuns config).execUnder (InOrder key) s (List.replicate n (.check key now)) = some t ∧
      t.allowed key = List.replicate n now ++ s.allowed key ∧
      t.limiter.lastSweep = s.limiter.lastSweep ∧
      (0 < n → ∃ bucket, t.limiter.buckets.lookup key = some bucket ∧ bucket.lastAccess = now) := by
  induction n generalizing s with
  | zero => exact ⟨s, rfl, rfl, rfl, fun h => absurd h (Nat.lt_irrefl _)⟩
  | succ n ih =>
    rw [Nat.add_mul, Nat.one_mul] at htokens
    have hunit : tokenParts ≤ available config key s.limiter now := by omega
    have hcheck := check_eq hlimits s.limiter key now
    rw [if_pos hunit] at hcheck
    have hlookup : (s.next config (.check key now)).limiter.buckets.lookup key =
        some ⟨available config key s.limiter now - tokenParts, now⟩ := by
      rw [next, hcheck]
      exact AList.lookup_insert _
    have hrest : n * tokenParts ≤ available config key (s.next config (.check key now)).limiter now := by
      have hcapacity : available config key s.limiter now ≤ config.burst * tokenParts :=
        Nat.min_le_right _ _
      rw [available_of_some hlookup, Nat.sub_self, Nat.zero_mul, Nat.add_zero]
      exact Nat.le_min.mpr ⟨Nat.le_sub_of_add_le htokens, by omega⟩
    have hseen' : (s.next config (.check key now)).limiter.lastSeen key ≤ now := by
      rw [RateLimiter.lastSeen, hlookup]
    have horder : s.InOrder key (.check key now) := fun _ => hseen
    obtain ⟨t, hexec, hallowed, hsweep, hlast⟩ := ih hrest hseen'
    refine ⟨t, ?_, ?_, hsweep.trans RateLimiter.lastSweep_check, fun _ => ?_⟩
    · rw [List.replicate_succ, Machine.execUnder, if_pos horder]
      exact hexec
    · rw [hallowed, allowed_check, if_pos ⟨rfl, (admits_iff hlimits _).mpr hunit⟩,
        List.replicate_succ', List.append_assoc]
      rfl
    · by_cases hn : 0 < n
      · exact hlast hn
      · obtain rfl : n = 0 := by omega
        cases hexec
        exact ⟨_, hlookup, rfl⟩

/-- The first instant at which a bucket used at 0 is stale. -/
def staleAt : Nat := seconds bucketStaleTtl + 1

/-- A burst that does not refill within the ttl is granted twice: once at 0, and once
    more behind a sweep. -/
theorem exists_double_burst (hlimits : config.isDisabled = false) (hburst : 1 ≤ config.burst)
    (key : RateLimitKey) : ∃ s, (limiterRuns config).ReachableUnder (InOrder key) s ∧
      Meter.takenWithin 0 staleAt (s.allowed key) = 2 * config.burst := by
  have hfull : available config key RateLimiter.new 0 = config.burst * tokenParts :=
    available_of_none rfl
  obtain ⟨s, hexec, hallowed, hnever, hlast⟩ := exec_drain (s := .init) (n := config.burst) hlimits
    (le_of_eq hfull.symm) (Nat.le_refl 0)
  obtain ⟨bucket, hlookup, hzero⟩ := hlast hburst
  have hevicted : (s.next config (.sweep staleAt)).limiter.buckets.lookup key = none := by
    have hstale : bucket.isStale staleAt = true := by
      rw [Bucket.isStale, hzero, decide_eq_true_eq, staleAt]
      omega
    simp only [next, RateLimiter.sweep, hlimits, Bool.false_eq_true, if_false,
      FiniteMap.lookup_retain, hlookup, Option.filter_some, hstale, Bool.not_true]
  have hswept : (s.next config (.sweep staleAt)).limiter.lastSeen key ≤ staleAt := by
    rw [RateLimiter.lastSeen, hevicted]
    simp only [next, RateLimiter.sweep, hlimits, Bool.false_eq_true, if_false, hnever]
    exact Nat.max_le.mpr ⟨Nat.zero_le _, Nat.le_refl _⟩
  have hfull' : config.burst * tokenParts ≤
      available config key (s.next config (.sweep staleAt)).limiter staleAt :=
    le_of_eq (available_of_none hevicted).symm
  obtain ⟨t, hexec', hallowed', -, -⟩ := exec_drain (s := s.next config (.sweep staleAt))
    (n := config.burst) hlimits hfull' hswept
  refine ⟨t, ⟨.init, rfl, ?_⟩, ?_⟩
  · refine Relation.ReflTransGen.trans (Machine.runUnder_of_execUnder hexec) ?_
    exact Relation.ReflTransGen.head ⟨.sweep staleAt, trivial, rfl⟩
      (Machine.runUnder_of_execUnder hexec')
  · have hmiddle : (s.next config (.sweep staleAt)).allowed key = List.replicate config.burst 0 := by
      rw [← List.append_nil (List.replicate config.burst 0)]
      exact hallowed
    rw [hallowed', hmiddle, Meter.takenWithin, List.countP_append, List.countP_replicate,
      List.countP_replicate]
    simp only [Nat.zero_le, decide_true, Nat.le_refl, Bool.and_self, if_true]
    omega

/-- A burst that does not refill within the ttl is more than the window allows. -/
theorem not_bounded_of_double_burst (hwidth : config.burst < 2 ^ 32)
    (hlarge : config.ratePerSecond * bucketStaleTtl < config.burst)
    (hdouble : Meter.takenWithin 0 staleAt (s.allowed key) = 2 * config.burst) :
    ¬ s.Bounded config key := by
  intro hbounded
  have hwindow := hbounded 0 staleAt (Nat.zero_le _)
  rw [hdouble] at hwindow
  have hseconds : seconds bucketStaleTtl = bucketStaleTtl * 1000000000 := by
    unfold seconds
    rfl
  have hparts : tokenParts = 1000000000 := by
    unfold tokenParts
    rfl
  rw [hparts, staleAt, hseconds, Nat.sub_zero, Nat.add_mul, Nat.one_mul] at hwindow
  have hproduct : bucketStaleTtl * 1000000000 * config.ratePerSecond =
      config.ratePerSecond * bucketStaleTtl * 1000000000 := by
    rw [Nat.mul_comm, Nat.mul_assoc]
  have hrate : config.ratePerSecond * bucketStaleTtl = config.ratePerSecond * 300 := rfl
  rw [hproduct] at hwindow
  omega

end LimiterRun

/-- **The token bucket.**  A key is allowed no more than burst and rate permit in any
    window of any run whose readings for the key are in order and whose sweeps evict only
    full buckets; every sweep does exactly if the burst refills within
    `BUCKET_STALE_TTL`, and then sweeps change no answer.  A refused key that stays idle
    is let through after the time it was told. -/
theorem token_bucket_bound {config : RateLimitConfig} (hlimits : config.isDisabled = false)
    (hburst : 1 ≤ config.burst) (hwidth : config.burst < 2 ^ 32) (key : RateLimitKey) :
    (∀ s, (limiterRuns config).ReachableUnder
        (fun s event => s.InOrder key event ∧ s.Sparing config key event) s →
      s.Bounded config key) ∧
    ((∀ s, (limiterRuns config).ReachableUnder (LimiterRun.InOrder key) s →
        s.Bounded config key) ↔
      config.burst ≤ config.ratePerSecond * bucketStaleTtl) ∧
    (config.burst ≤ config.ratePerSecond * bucketStaleTtl → ∀ events events' s s',
      events.filter LimiterEvent.isCheck = events'.filter LimiterEvent.isCheck →
      (limiterRuns config).execUnder (LimiterRun.InOrder key) .init events = some s →
      (limiterRuns config).execUnder (LimiterRun.InOrder key) .init events' = some s' →
      s.checksOf key = s'.checksOf key) ∧
    ∀ (s s' : LimiterRun) (now wait : Nat) (events : List LimiterEvent) (later : Nat),
      (s.limiter.check config key now).1 = .error wait →
      (∀ time, .check key time ∉ events) →
      (limiterRuns config).exec (s.next config (.check key now)) events = some s' →
      now + seconds wait ≤ later → s'.limiter.admits config key later = true := by
  refine ⟨fun s => LimiterRun.bounded_of_sparing hlimits, ⟨fun hall => ?_, fun hfits s hreach => ?_⟩,
    fun hfits events events' s s' hsame h h' => LimiterRun.checksOf_eq hlimits hfits hsame h h',
    fun s s' now wait events later hrefused hidle hexec hlater =>
      LimiterRun.admits_after_retry hlimits hburst hrefused hidle hexec rfl hlater⟩
  · by_contra hlarge
    obtain ⟨s, hreach, hdouble⟩ := LimiterRun.exists_double_burst hlimits hburst key
    exact LimiterRun.not_bounded_of_double_burst hwidth (Nat.lt_of_not_le hlarge) hdouble
      (hall s hreach)
  · exact LimiterRun.bounded_of_sparing hlimits
      (hreach.weaken fun t event horder => ⟨horder, LimiterRun.sparing_of_fits hfits t event⟩)

/-- One request a second. -/
private def oneASecond : RateLimitConfig := ⟨1, 1, false⟩

private def acmeKey : RateLimitKey := ("acme", "10.0.0.1")

theorem token_bucket_bound_acme : ∃ s,
    (limiterRuns oneASecond).execUnder (LimiterRun.InOrder acmeKey) .init
      [.check acmeKey 0, .sweep 5] = some s ∧
      s.allowed acmeKey = [0] ∧ s.Bounded oneASecond acmeKey ∧
      (s.next oneASecond (.check acmeKey 5)).limiter.admits oneASecond acmeKey
        (5 + seconds 1) = true := by
  have hexec : ((limiterRuns oneASecond).execUnder (LimiterRun.InOrder acmeKey) .init
      [.check acmeKey 0, .sweep 5]).any (fun s => s.allowed acmeKey = [0] &&
        s.limiter.buckets.lookup acmeKey = some ⟨0, 0⟩) = true := by decide +kernel
  obtain ⟨s, hs, hcheck⟩ := (Option.any_eq_true _ _).mp hexec
  simp only [Bool.and_eq_true, decide_eq_true_eq] at hcheck
  obtain ⟨hallowed, hbucket⟩ := hcheck
  have hlimits : oneASecond.isDisabled = false := rfl
  obtain ⟨-, hbounded, -, hretry⟩ := token_bucket_bound hlimits (by decide) (by decide) acmeKey
  refine ⟨s, hs, hallowed, ?_, ?_⟩
  · exact hbounded.mpr (by decide) s ⟨.init, rfl, Machine.runUnder_of_execUnder hs⟩
  · refine hretry s _ 5 1 [] (5 + seconds 1) ?_ (fun _ => List.not_mem_nil) rfl (Nat.le_refl _)
    rw [LimiterRun.check_eq rfl, LimiterRun.available_of_some hbucket,
      if_neg (by decide +kernel)]
    exact congrArg Except.error (by decide +kernel)

/-- A check whose reading is ten seconds old sets the bucket back, and the next one
    refills it with the same ten seconds again. -/
theorem clock_step_back_breaks_bound : ∃ s, (limiterRuns oneASecond).Reachable s ∧
    s.allowed acmeKey = [10000000000, 10000000000] ∧ ¬ s.Bounded oneASecond acmeKey := by
  have hexec : ((limiterRuns oneASecond).execUnder (fun _ _ => True) .init
      [.check acmeKey 10000000000, .check acmeKey 0, .check acmeKey 10000000000]).any
        (fun s => s.allowed acmeKey = [10000000000, 10000000000]) = true := by decide +kernel
  obtain ⟨s, hrun, hs⟩ := Machine.exists_run_of_execUnder _ hexec
  have hallowed := of_decide_eq_true hs
  refine ⟨s, ⟨.init, rfl, hrun⟩, hallowed, fun hbounded => ?_⟩
  have hwindow := hbounded 10000000000 10000000000 (Nat.le_refl _)
  rw [hallowed] at hwindow
  revert hwindow
  unfold tokenParts
  decide

end Botwork.AuthBroker
