import Botwork.AuthBroker.TtlSettings
import Botwork.AuthBroker.Turns

/-!
# How long a cached key is used

A check stamps the times of its tenant into the cache entry it makes, with the clock
as it was when the check arrived, and a fetch compares them with the clock as it was
when the fetch arrived.  So a key is used no longer than the settings allow, up to the
time a fetch waits, and the settings are those that the documentation promises if the
environment honours them.

## Main definitions

- `authBrokerWith` — the broker under given settings
- `Broker.Decrypts` — a fetch uses a cached key
- `Timed` — every cache entry bears the times of its tenant

## Main results

- `key_terms`
-/

namespace Botwork.AuthBroker

open Botwork.Foundations Botwork.Vault

/-- The auth-broker under the settings `ttl`. -/
def authBrokerWith (hkdf : Bytes → Bytes → UInt8 → Bytes) (ttl : TtlConfig) :
    Machine Broker Event where
  Start s := ∃ adminKey tenants, s = Broker.init adminKey ttl tenants
  next := Broker.next hkdf

variable {hkdf : Bytes → Bytes → UInt8 → Bytes} {ttl : TtlConfig} {s s' : Broker} {r : Nat}
  {f : InFlight} {choice : Choice} {pc : Pc}

/-- The next step of a fetch answers it with secrets that it decrypts with the cached
    key. -/
def Broker.Decrypts (hkdf : Bytes → Bytes → UInt8 → Bytes) (s : Broker) (r : Nat) (f : InFlight)
    (cached : CacheEntry) : Prop :=
  s.inFlight.lookup r = some f ∧ ∃ entry s' a response, f.pc = .fetchCache entry ∧
    s.cache.lookup entry.cacheKey = some cached ∧ s.next hkdf (.run r .ok) = some s' ∧
      s'.answers.lookup r = some a ∧ a.reply = .secrets response

-- ════════════════════════════════════════════════════════════════════════
-- The invariant
-- ════════════════════════════════════════════════════════════════════════

/-- Every cache entry bears the times that the settings have for its tenant. -/
structure Timed (ttl : TtlConfig) (s : Broker) : Prop where
  settings : s.ttl = ttl
  stamped : ∀ key entry, s.cache.lookup key = some entry →
    entry.expiresAt = entry.createdAt + ttl.absoluteFor entry.tenant ∧
      entry.idleTtl = ttl.idleFor entry.tenant

namespace Timed

/-- A step that makes no cache entry. -/
theorem keep (h : Timed ttl s) (hsettings : s'.ttl = s.ttl)
    (hcache : ∀ key entry, s'.cache.lookup key = some entry → s.cache.lookup key = some entry) :
    Timed ttl s' :=
  ⟨hsettings.trans h.settings, fun key entry hlook => h.stamped key entry (hcache key entry hlook)⟩

theorem same (h : Timed ttl s) (hsettings : s'.ttl = s.ttl) (hcache : s'.cache = s.cache) :
    Timed ttl s' :=
  h.keep hsettings fun _ _ hlook => hcache ▸ hlook

theorem checkStep (h : Timed ttl s) (hstep : s.checkStep hkdf r f choice pc = some s') :
    Timed ttl s' := by
  revert hstep
  fun_cases Broker.checkStep hkdf s r f choice pc <;> intro hstep
  all_goals try cases hstep
  all_goals first
    | exact h.same rfl rfl
    | skip
  · -- checkUnlock
    obtain ⟨s₁, hstart, rfl⟩ := Option.map_eq_some_iff.mp hstep
    obtain ⟨root, rfl⟩ := startCall_eq hstart
    exact h.same rfl rfl
  · obtain ⟨root, rfl⟩ := insideCall_eq hstep
    exact h.same rfl rfl
  · -- checkUnlocking
    obtain ⟨⟨hd, outcome⟩, -, hout⟩ := Option.bind_eq_some_iff.mp hstep
    cases outcome with
    | ok =>
      obtain ⟨u, -, rfl⟩ := Option.map_eq_some_iff.mp hout
      exact h.same rfl rfl
    | error err =>
      simp only at hout
      split at hout <;> cases hout <;> exact h.same rfl rfl
  · -- checkCreate
    obtain ⟨root, -, rfl⟩ := Option.map_eq_some_iff.mp hstep
    exact h.same rfl rfl
  · -- checkCreating, inside the call
    obtain ⟨s₁, hinside, rfl⟩ := Option.map_eq_some_iff.mp hstep
    obtain ⟨root, rfl⟩ := insideCall_eq hinside
    split <;> exact h.same rfl rfl
  · -- checkCreating
    obtain ⟨⟨hd, outcome⟩, -, rfl⟩ := Option.map_eq_some_iff.mp hstep
    cases outcome <;> exact h.same rfl rfl
  · -- checkCache
    rename_i q v tenant master key entry
    refine ⟨h.settings, fun key' cached hlook => ?_⟩
    have hlook' : (s.cache.insert key entry).lookup key' = some cached := hlook
    rw [FiniteMap.lookup_insert_ite] at hlook'
    split at hlook'
    next =>
      cases hlook'
      cases hold : s.cache.lookup key with
      | some existing =>
        simp only [entry, hold]
        exact h.stamped key existing hold
      | none =>
        simp only [entry, hold, h.settings]
        exact ⟨trivial, trivial⟩
    next => exact h.stamped key' cached hlook'

theorem fetchStep (h : Timed ttl s) (hstep : s.fetchStep r f choice pc = some s') :
    Timed ttl s' := by
  revert hstep
  fun_cases Broker.fetchStep s r f choice pc <;> intro hstep
  all_goals try cases hstep
  all_goals first
    | exact h.same rfl rfl
    | skip
  -- fetchCache, an expired entry
  rename_i entry cached hcached hexpired
  refine h.keep rfl fun key e hlook => ?_
  have hlook' : (s.cache.erase entry.cacheKey).lookup key = some e := hlook
  rw [FiniteMap.lookup_erase_ite] at hlook'
  split at hlook'
  next => cases hlook'
  next => exact hlook'

theorem logoutStep (h : Timed ttl s) (hstep : s.logoutStep r f choice pc = some s') :
    Timed ttl s' := by
  revert hstep
  fun_cases Broker.logoutStep s r f choice pc <;> intro hstep
  all_goals try cases hstep
  all_goals exact h.same rfl rfl

theorem revokeStep (h : Timed ttl s) (hstep : s.revokeStep r f choice pc = some s') :
    Timed ttl s' := by
  revert hstep
  fun_cases Broker.revokeStep s r f choice pc <;> intro hstep
  all_goals try cases hstep
  all_goals exact h.same rfl rfl

theorem writeStep (h : Timed ttl s) (hstep : s.writeStep hkdf r f choice pc = some s') :
    Timed ttl s' := by
  revert hstep
  fun_cases Broker.writeStep hkdf s r f choice pc <;> intro hstep
  all_goals try cases hstep
  all_goals first
    | exact h.same rfl rfl
    | skip
  · -- writeLease
    obtain ⟨row, -, hout⟩ := Option.bind_eq_some_iff.mp hstep
    split at hout <;> cases hout
    exact h.same rfl rfl
  · -- writeKey, no export key
    rename_i hkey
    obtain ⟨keys, rfl⟩ := exportKey?_eq hkey
    exact h.same rfl rfl
  · -- writeKey, a bad request
    rename_i hkey _ _
    obtain ⟨keys, rfl⟩ := exportKey?_eq hkey
    exact h.same rfl rfl
  · -- writeKey
    rename_i hkey _ _ _
    obtain ⟨keys, rfl⟩ := exportKey?_eq hkey
    exact h.same rfl rfl
  · -- writeUnlock
    obtain ⟨s₁, hstart, rfl⟩ := Option.map_eq_some_iff.mp hstep
    obtain ⟨root, rfl⟩ := startCall_eq hstart
    exact h.same rfl rfl
  · obtain ⟨root, rfl⟩ := insideCall_eq hstep
    exact h.same rfl rfl
  · -- writeUnlocking
    obtain ⟨⟨hd, outcome⟩, -, rfl⟩ := Option.map_eq_some_iff.mp hstep
    cases outcome <;> exact h.same rfl rfl
  · -- writePut
    obtain ⟨hd, -, hout⟩ := Option.bind_eq_some_iff.mp hstep
    obtain ⟨u, -, hout⟩ := Option.bind_eq_some_iff.mp hout
    simp only at hout
    split at hout
    next =>
      cases hout
      exact h.same rfl rfl
    next =>
      obtain ⟨s₁, hstart, rfl⟩ := Option.map_eq_some_iff.mp hout
      obtain ⟨root, rfl⟩ := startCall_eq hstart
      exact h.same rfl rfl
  · obtain ⟨root, rfl⟩ := insideCall_eq hstep
    exact h.same rfl rfl
  · -- writePersisting
    rename_i job existed
    obtain ⟨⟨hd, outcome⟩, -, rfl⟩ := Option.map_eq_some_iff.mp hstep
    cases outcome with
    | ok =>
      obtain ⟨stored, heq⟩ := keepWritten_eq s job
      simp only [heq]
      exact h.same rfl rfl
    | error err => exact h.same rfl rfl

theorem loginStep (h : Timed ttl s) (hstep : s.loginStep r f choice pc = some s') :
    Timed ttl s' := by
  revert hstep
  fun_cases Broker.loginStep s r f choice pc <;> intro hstep
  all_goals try cases hstep
  all_goals first
    | exact h.same rfl rfl
    | skip
  -- loginInsert
  obtain ⟨row, -, rfl⟩ := Option.map_eq_some_iff.mp hstep
  exact h.same rfl rfl

theorem pruneStep (h : Timed ttl s) (hstep : s.pruneStep r f choice pc = some s') :
    Timed ttl s' := by
  revert hstep
  fun_cases Broker.pruneStep s r f choice pc <;> intro hstep
  all_goals try cases hstep
  · -- pruneCache
    exact h.keep rfl fun key e hlook => ((FiniteMap.lookup_retain_eq_some _ _ _ _).mp hlook).1
  · exact h.same rfl rfl
  · exact h.same rfl rfl

theorem step (h : Timed ttl s) (hstep : s.step hkdf r f choice = some s') : Timed ttl s' := by
  unfold Broker.step at hstep
  split at hstep
  all_goals first
    | exact h.checkStep hstep
    | exact h.logoutStep hstep
    | exact h.revokeStep hstep
    | exact h.fetchStep hstep
    | exact h.writeStep hstep
    | exact h.loginStep hstep
    | exact h.pruneStep hstep

/-- **Step lemma**. -/
theorem next {e : Event} (h : Timed ttl s) (hnext : s.next hkdf e = some s') : Timed ttl s' := by
  cases e with
  | tick elapsed =>
    cases hnext
    exact h.same rfl rfl
  | arrive request =>
    cases hnext
    rw [Broker.arrive]
    split <;> exact h.same rfl rfl
  | run r choice =>
    obtain ⟨f, -, hstep⟩ := Option.bind_eq_some_iff.mp hnext
    exact h.step hstep
  | drop r =>
    obtain ⟨f, -, hdrop⟩ := Option.bind_eq_some_iff.mp hnext
    split at hdrop <;> cases hdrop
    exact h.same rfl rfl

theorem of_reachable (hreach : (authBrokerWith hkdf ttl).Reachable s) : Timed ttl s := by
  apply hreach.invariant
  · rintro _ ⟨adminKey, tenants, rfl⟩
    refine ⟨rfl, fun key entry hlook => ?_⟩
    rw [Broker.init, AList.lookup_empty] at hlook
    cases hlook
  · exact fun _ _ _ h _ hnext => h.next hnext

end Timed

-- ════════════════════════════════════════════════════════════════════════
-- Fetches
-- ════════════════════════════════════════════════════════════════════════

/-- A fetch decrypts only with a key that had not expired when it arrived. -/
theorem Broker.Decrypts.live {cached : CacheEntry} (h : s.Decrypts hkdf r f cached)
    (hnone : s.answers.lookup r = none) : cached.isExpired f.arrived = false := by
  obtain ⟨hlook, entry, s', a, response, hpc, hcached, hnext, hanswer, hreply⟩ := h
  obtain ⟨f', hlook', hstep⟩ := Option.bind_eq_some_iff.mp hnext
  rw [hlook] at hlook'
  cases hlook'
  rw [← Bool.not_eq_true]
  intro hexpired
  simp only [Broker.step, hpc, Broker.fetchStep, hcached, hexpired, if_true] at hstep
  cases hstep
  have hanswer' : s.answers.lookup r = some a := hanswer
  rw [hnone] at hanswer'
  cases hanswer'

theorem reachable_authBroker (h : (authBrokerWith hkdf ttl).Reachable s) :
    (authBroker hkdf).Reachable s := by
  obtain ⟨start, ⟨adminKey, tenants, hstart⟩, hrun⟩ := h
  exact ⟨start, ⟨adminKey, ttl, tenants, hstart⟩, hrun⟩

/-- A key that has not expired is within the documented times of its tenant, if the
    environment honours them. -/
theorem Timed.in_term {env : FiniteMap String String} {order : List (String × String)}
    {tenant : String} {key : CacheKey} {cached : CacheEntry} {now : Nat}
    (h : Timed (TtlConfig.fromEnv env order) s) (horder : Iterates env order)
    (hidle : idleKnob.Honours env tenant) (habsolute : absoluteKnob.Honours env tenant)
    (hcached : s.cache.lookup key = some cached) (htenant : cached.tenant = tenant)
    (hlive : cached.isExpired now = false) :
    now ≤ cached.createdAt + absoluteKnob.documented env.lookup tenant ∧
      now ≤ cached.lastUsed + idleKnob.documented env.lookup tenant := by
  obtain ⟨hexpires, hidleTtl⟩ := h.stamped key cached hcached
  have hidle' := Knob.effective_le hidle horder
  have habsolute' := Knob.effective_le habsolute horder
  rw [htenant, TtlConfig.fromEnv, TtlConfig.absoluteFor_fromLookup] at hexpires
  rw [htenant, TtlConfig.fromEnv, TtlConfig.idleFor_fromLookup] at hidleTtl
  simp only [CacheEntry.isExpired, Bool.or_eq_false_iff, decide_eq_false_iff_not, not_lt] at hlive
  omega

/-- **How long a cached key is used.**  The settings of a tenant stay within the
    documented times exactly if the environment honours them.  Then no fetch decrypts
    with a key that was out of its times when the fetch arrived, or that is by now
    unless it expired while the fetch waited.  No tenant gets the override of one with
    another documented name. -/
theorem key_terms (hkdf : Bytes → Bytes → UInt8 → Bytes) (env : FiniteMap String String)
    (tenant : String) :
    ((∀ order, Iterates env order →
      (TtlConfig.fromEnv env order).idleFor tenant ≤ idleKnob.documented env.lookup tenant ∧
        (TtlConfig.fromEnv env order).absoluteFor tenant ≤
          absoluteKnob.documented env.lookup tenant) ↔
      idleKnob.Honours env tenant ∧ absoluteKnob.Honours env tenant) ∧
    (∀ order s r f cached, Iterates env order →
      (authBrokerWith hkdf (TtlConfig.fromEnv env order)).Reachable s →
      s.Decrypts hkdf r f cached → cached.tenant = tenant →
      idleKnob.Honours env tenant → absoluteKnob.Honours env tenant →
        (f.arrived ≤ cached.createdAt + absoluteKnob.documented env.lookup tenant ∧
          f.arrived ≤ cached.lastUsed + idleKnob.documented env.lookup tenant) ∧
        (cached.isExpired s.now = false →
          s.now ≤ cached.createdAt + absoluteKnob.documented env.lookup tenant ∧
            s.now ≤ cached.lastUsed + idleKnob.documented env.lookup tenant)) ∧
    ∀ other order, documentedName other ≠ documentedName tenant →
      idleKnob.effective env.lookup
          (order.filter fun e => e.1 ≠ idleKnob.documentedKey other) tenant =
        (TtlConfig.fromEnv env order).idleFor tenant ∧
      absoluteKnob.effective env.lookup
          (order.filter fun e => e.1 ≠ absoluteKnob.documentedKey other) tenant =
        (TtlConfig.fromEnv env order).absoluteFor tenant := by
  refine ⟨?_, ?_, ?_⟩
  · rw [← Knob.overrides_le_iff, ← Knob.overrides_le_iff]
    simp only [TtlConfig.fromEnv, TtlConfig.idleFor_fromLookup,
      TtlConfig.absoluteFor_fromLookup]
    constructor
    · exact fun h => ⟨fun order horder => (h order horder).1, fun order horder => (h order horder).2⟩
    · exact fun h order horder => ⟨h.1 order horder, h.2 order horder⟩
  · intro order s r f cached horder hreach hdecrypts htenant hidle habsolute
    have htimed := Timed.of_reachable hreach
    have hflights := (registryInv_of_reachable (reachable_authBroker hreach)).flights r f
    have hlive := hdecrypts.live (hflights hdecrypts.1).2.1
    obtain ⟨-, entry, -, -, -, -, hcached, -⟩ := hdecrypts
    exact ⟨htimed.in_term horder hidle habsolute hcached htenant hlive,
      htimed.in_term horder hidle habsolute hcached htenant⟩
  · intro other order hother
    rw [TtlConfig.fromEnv, TtlConfig.idleFor_fromLookup, TtlConfig.absoluteFor_fromLookup,
      Knob.effective, Knob.effective, Knob.effective, Knob.effective,
      Knob.overrides_filter hother, Knob.overrides_filter hother]
    exact ⟨rfl, rfl⟩

-- ════════════════════════════════════════════════════════════════════════
-- An override that is not found
-- ════════════════════════════════════════════════════════════════════════

/-- A broker with one tenant, under an override of thirty seconds. -/
def overrideEnv (key : String) : FiniteMap String String :=
  (∅ : FiniteMap String String).insert key "30"

def overriddenBroker (key tenant : String) : Broker :=
  Broker.init (some Sample.adminKey) (TtlConfig.fromEnv (overrideEnv key) [(key, "30")])
    ((∅ : FiniteMap TenantId String).insert 1 tenant)

/-- A login, a check and, `idle` seconds later, a fetch up to the cache. -/
def idleFetch (tenant : String) (idle : Nat) : List Event :=
  Sample.loginRun 0 5 ++
    [.arrive (.check (some (.mcp tenant "main" "echo")) (.ok (some (Sample.bearer 5).encode))),
      .run 1 .ok, .run 1 .ok, .run 1 .ok] ++
    Sample.createRun 1 ++ Sample.checkTail 1 77 ++
    [.tick (seconds idle), .arrive (.fetch (.ok 77)), .run 2 .ok]

/-- The fetch `r` is answered with secrets, with a key of the tenant that was used last
    more than `limit` ago. -/
def decryptsIdle (tenant : String) (limit : Nat) (s : Broker) (r : Nat) : Bool :=
  (s.inFlight.lookup r).any fun f =>
    match f.pc with
    | .fetchCache entry => (s.cache.lookup entry.cacheKey).any fun cached =>
        cached.tenant = tenant && cached.lastUsed + limit < s.now &&
          (s.next Sample.hkdf (.run r .ok)).any fun s' =>
            (s'.answers.lookup r).any fun a =>
              match a.reply with
              | .secrets _ => true
              | _ => false
    | _ => false

theorem decrypts_of_decryptsIdle {tenant : String} {limit : Nat} {s : Broker} {r : Nat}
    (h : decryptsIdle tenant limit s r = true) : ∃ f cached, s.Decrypts Sample.hkdf r f cached ∧
      cached.tenant = tenant ∧ cached.lastUsed + limit < s.now := by
  obtain ⟨f, hlook, h⟩ := (Option.any_eq_true _ _).mp h
  split at h
  next entry hpc =>
    obtain ⟨cached, hcached, h⟩ := (Option.any_eq_true _ _).mp h
    simp only [Bool.and_eq_true, decide_eq_true_eq] at h
    obtain ⟨⟨htenant, hidle⟩, h⟩ := h
    obtain ⟨s', hnext, h⟩ := (Option.any_eq_true _ _).mp h
    obtain ⟨a, hanswer, h⟩ := (Option.any_eq_true _ _).mp h
    split at h
    next response hreply =>
      exact ⟨f, cached, ⟨hlook, entry, s', a, response, hpc, hcached, hnext, hanswer, hreply⟩,
        htenant, hidle⟩
    next => cases h
  next => cases h

theorem lookup_overrideEnv {key other value : String} :
    (overrideEnv key).lookup other = some value ↔ other = key ∧ value = "30" := by
  rw [overrideEnv, FiniteMap.lookup_insert_ite]
  split
  next h => exact ⟨fun heq => ⟨h, (Option.some.inj heq).symm⟩, fun heq => by rw [heq.2]⟩
  next h =>
    rw [AList.lookup_empty]
    exact ⟨nofun, fun heq => absurd heq.1 h⟩

theorem iterates_overrideEnv (key : String) : Iterates (overrideEnv key) [(key, "30")] :=
  List.Perm.refl _

def acmeIdleKey : String := idleKnob.documentedKey "acme"

theorem honours_acme : idleKnob.Honours (overrideEnv acmeIdleKey) "acme" ∧
    absoluteKnob.Honours (overrideEnv acmeIdleKey) "acme" := by
  have hidle : stripPrefixToTenant acmeIdleKey idleKnob.tenantPrefix = some "acme" := by
    decide +kernel
  have habsolute : stripPrefixToTenant acmeIdleKey absoluteKnob.tenantPrefix = none := by
    decide +kernel
  have hsecs : parseSecs "30" = some (seconds 30) := by decide +kernel
  refine ⟨⟨?_, ?_⟩, ?_, fun _ => by decide +kernel⟩
  · intro key value secs hlook _ hvalue
    obtain ⟨rfl, rfl⟩ := lookup_overrideEnv.mp hlook
    rw [hsecs] at hvalue
    rw [← Option.some.inj hvalue]
    decide +kernel
  · intro hnone
    have habs := hnone acmeIdleKey "30" (lookup_overrideEnv.mpr ⟨rfl, rfl⟩) hidle
    rw [hsecs] at habs
    cases habs
  · intro key value secs hlook hkey _
    obtain ⟨rfl, rfl⟩ := lookup_overrideEnv.mp hlook
    rw [habsolute] at hkey
    cases hkey

/-- A fetch ten seconds behind the check, under an override of thirty. -/
theorem key_terms_acme : ∃ (s : Broker) (f : InFlight) (cached : CacheEntry),
    s.Decrypts Sample.hkdf 2 f cached ∧
    s.now ≤ cached.createdAt + absoluteKnob.documented (overrideEnv acmeIdleKey).lookup "acme" ∧
      s.now ≤ cached.lastUsed + idleKnob.documented (overrideEnv acmeIdleKey).lookup "acme" := by
  have hexec : ((authBrokerWith Sample.hkdf
      (TtlConfig.fromEnv (overrideEnv acmeIdleKey) [(acmeIdleKey, "30")])).execUnder (fun _ _ => True)
        (overriddenBroker acmeIdleKey "acme") (idleFetch "acme" 10)).any (fun s =>
          decryptsIdle "acme" 1 s 2 && (s.cache.values.all fun cached =>
            !cached.isExpired s.now)) = true := by decide +kernel
  obtain ⟨s, hrun, hs⟩ := Machine.exists_run_of_execUnder _ hexec
  rw [Bool.and_eq_true, List.all_eq_true] at hs
  obtain ⟨f, cached, hdecrypts, htenant, -⟩ := decrypts_of_decryptsIdle hs.1
  obtain ⟨-, entry, -, -, -, -, hcached, -⟩ := id hdecrypts
  have hlive : cached.isExpired s.now = false := by
    have hmem := (FiniteMap.mem_values_iff s.cache cached).mpr ⟨entry.cacheKey, hcached⟩
    simpa using hs.2 cached hmem
  exact ⟨s, f, cached, hdecrypts,
    ((key_terms Sample.hkdf (overrideEnv acmeIdleKey) "acme").2.1 _ s 2 f cached
      (iterates_overrideEnv acmeIdleKey) ⟨_, ⟨_, _, rfl⟩, hrun⟩ hdecrypts htenant
      honours_acme.1 honours_acme.2).2 hlive⟩

/-- The override of a tenant with an underscore goes to nobody. -/
theorem underscore_override_unheard : ∃ env order tenant, ∃ (s : Broker) (r : Nat) (f : InFlight)
    (cached : CacheEntry),
    validateTenantName tenant = .ok () ∧ Iterates env order ∧
      (authBrokerWith Sample.hkdf (TtlConfig.fromEnv env order)).Reachable s ∧
      s.Decrypts Sample.hkdf r f cached ∧ cached.tenant = tenant ∧
      cached.lastUsed + idleKnob.documented env.lookup tenant < s.now := by
  have hexec : ((authBrokerWith Sample.hkdf (TtlConfig.fromEnv
      (overrideEnv (idleKnob.documentedKey "a_b"))
        [(idleKnob.documentedKey "a_b", "30")])).execUnder (fun _ _ => True)
          (overriddenBroker (idleKnob.documentedKey "a_b") "a_b") (idleFetch "a_b" 40)).any
            (fun s => decryptsIdle "a_b" (idleKnob.documented
              (overrideEnv (idleKnob.documentedKey "a_b")).lookup "a_b") s 2) = true := by
    decide +kernel
  obtain ⟨s, hrun, hs⟩ := Machine.exists_run_of_execUnder _ hexec
  obtain ⟨f, cached, hdecrypts, htenant, hidle⟩ := decrypts_of_decryptsIdle hs
  exact ⟨overrideEnv (idleKnob.documentedKey "a_b"), _, "a_b", s, 2, f, cached,
    by decide +kernel, iterates_overrideEnv _, ⟨_, ⟨_, _, rfl⟩, hrun⟩, hdecrypts, htenant, hidle⟩

end Botwork.AuthBroker
