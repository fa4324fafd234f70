import Botwork.AuthBroker.Revocation

/-!
# Whose cap it is

A cap is a random value; what it stands for is decided by the check that minted
it.  This file follows the identity of a cap from the path of that check to the
answer of a fetch, over every run of the broker.

## Main definitions

- `Request.Asks` — what a check asks for
- `Record`, `Registry` — what the identity of a cap depends on
- `Answer.Grants` — the answer of a check as a record of the cap it minted
- `RegistryInv` — the invariant

## Main results

- `registryInv_of_reachable` — the invariant holds in every run
- `RegistryInv.granted_unique` — a cap is granted once
-/

namespace Botwork.AuthBroker

open Botwork.Foundations Botwork.Vault

-- ════════════════════════════════════════════════════════════════════════
-- What a check asks for
-- ════════════════════════════════════════════════════════════════════════

/-- The arguments with which `check` calls `try_lease_path`. -/
def ParsedPath.leasePath (bearer : Bearer) : ParsedPath → Option LeasePath
  | .apiAuthLogin => none
  | .apiAuthProtected => some ⟨none, apiNamespace, apiPlugin, bearer⟩
  | .api tenant => some ⟨tenant, apiNamespace, apiPlugin, bearer⟩
  | .spa tenant => some ⟨some tenant, apiNamespace, apiPlugin, bearer⟩
  | .mcp tenant namesp plugin => some ⟨some tenant, namesp, plugin, bearer⟩

/-- The request is a check that comes to `try_lease_path` with these arguments. -/
def Request.Asks (request : Request) (q : LeasePath) : Prop :=
  ∃ path cap, request = .check (some path) cap ∧ RequestCap.bearer cap = some q.bearer ∧
    path.leasePath q.bearer = some q

theorem Request.Asks.unique {request : Request} {q q' : LeasePath} (h : request.Asks q)
    (h' : request.Asks q') : q = q' := by
  obtain ⟨path, cap, rfl, hbearer, hpath⟩ := h
  obtain ⟨path', cap', heq, hbearer', hpath'⟩ := h'
  cases heq
  rw [hbearer, Option.some.injEq] at hbearer'
  rw [← hbearer', hpath] at hpath'
  exact Option.some.inj hpath'

def Request.isFetch : Request → Bool
  | .fetch _ => true
  | _ => false

theorem Request.Asks.not_fetch {request : Request} {q : LeasePath} (h : request.Asks q) :
    request.isFetch = false := by
  obtain ⟨path, cap, rfl, -⟩ := h
  rfl

theorem protectedEntry_eq_ok {scope : Option String} {namesp plugin : String} {missing : Reply}
    {cap : RequestCap} {pc : Pc} (h : protectedEntry scope namesp plugin missing cap = .ok pc) :
    ∃ bearer, RequestCap.bearer cap = some bearer ∧
      pc = .checkValidate ⟨scope, namesp, plugin, bearer⟩ := by
  cases cap with
  | error code => cases h
  | ok token =>
    cases token with
    | none => cases h
    | some token =>
      cases hbearer : token.bearer with
      | none => simp [protectedEntry, leasePathEntry, hbearer] at h
      | some bearer =>
        simp only [protectedEntry, leasePathEntry, hbearer, Except.ok.injEq] at h
        exact ⟨bearer, hbearer, h.symm⟩

/-- A check that goes on asks for what its path says. -/
theorem asks_of_checkEntry {adminKey : Option Token} {path : Option ParsedPath} {cap : RequestCap}
    {pc : Pc} (h : checkEntry adminKey path cap = .ok pc) :
    ∃ q, pc = .checkValidate q ∧ (Request.check path cap).Asks q := by
  revert h
  fun_cases checkEntry adminKey path cap <;> intro h
  case case1 => cases h
  case case2 => cases h
  case case3 => cases h
  case case4 => cases h
  all_goals
    obtain ⟨bearer, hbearer, rfl⟩ := protectedEntry_eq_ok h
    exact ⟨_, rfl, _, cap, rfl, hbearer, rfl⟩

attribute [ext] CacheKey

-- ════════════════════════════════════════════════════════════════════════
-- The record
-- ════════════════════════════════════════════════════════════════════════

/-- What only grows: the rows, the caps that were minted and the answers. -/
structure Record where
  tenants : FiniteMap TenantId String
  leases : LeaseStore
  minted : FiniteMap CapId LeaseId
  answers : FiniteMap Nat Answer

/-- The answer minted the cap with this entry. -/
structure Answer.Grants (a : Answer) (cap : CapId) (entry : CapEntry) : Prop where
  reply : a.reply = .admitted entry.cacheKey.tenant cap
  lease : a.lease = some entry.leaseId
  asked : ∃ q, a.request.Asks q ∧ entry.cacheKey.bearer = q.bearer.encode ∧
    entry.namesp = q.namesp ∧ entry.plugin = q.plugin

namespace Record

/-- Some check was answered with the cap of this entry. -/
def Granted (g : Record) (cap : CapId) (entry : CapEntry) : Prop :=
  ∃ r a, g.answers.lookup r = some a ∧ a.Grants cap entry

/-- The lease was validated with the bearer of the path. -/
def Validated (g : Record) (q : LeasePath) (v : ValidatedLease) : Prop :=
  ∃ row, g.leases.lookup v.lease.id = some row ∧ row.tenantId = v.lease.tenantId ∧
    row.bearerHash = q.bearer.hash

/-- The bearer is one of a lease of the tenant, which is the one the path names
    if it names one. -/
structure Admits (g : Record) (q : LeasePath) (tenant : String) (lease : LeaseId) : Prop where
  scope : ∀ expected, q.scope = some expected → expected = tenant
  leased : ∃ row, g.leases.lookup lease = some row ∧ row.bearerHash = q.bearer.hash ∧
    g.tenants.lookup row.tenantId = some tenant

/-- What the point a handler has reached says. -/
def PcInv (g : Record) (request : Request) : Pc → Prop
  | .checkValidate q => request.Asks q
  | .checkTenant q v => request.Asks q ∧ g.Validated q v
  | .checkRemember q v tenant | .checkUnlock q v tenant _ | .checkUnlocking q v tenant _
  | .checkCreate q v tenant | .checkCreating q v tenant | .checkCache q v tenant _
  | .checkCap q v tenant => request.Asks q ∧ g.Admits q tenant v.lease.id
  | .fetchCap cap => request = .fetch (.ok cap)
  | .fetchCache entry | .fetchEvict entry _ =>
    ∃ cap, request = .fetch (.ok cap) ∧ g.Granted cap entry
  | _ => request.isFetch = false

/-- What an answer says. -/
def AnswerInv (g : Record) (a : Answer) : Prop :=
  match a.reply with
  | .admitted tenant cap =>
    ∃ q lease, a.request.Asks q ∧ a.lease = some lease ∧ g.minted.lookup cap = some lease ∧
      g.Admits q tenant lease
  | .secrets response =>
    ∃ cap entry, a.request = .fetch (.ok cap) ∧ g.Granted cap entry ∧
      response.tenant = entry.cacheKey.tenant ∧ response.plugin = entry.plugin
  | _ => True

variable {g g' : Record}

/-- What every step does to the record. -/
structure Later (g g' : Record) : Prop where
  tenants : g'.tenants = g.tenants
  leases : ∀ id row, g.leases.lookup id = some row →
    ∃ row', g'.leases.lookup id = some row' ∧ row.Same row'
  minted : ∀ cap lease, g.minted.lookup cap = some lease → g'.minted.lookup cap = some lease
  answers : ∀ r a, g.answers.lookup r = some a → g'.answers.lookup r = some a

theorem Later.refl (g : Record) : g.Later g :=
  ⟨rfl, fun _ row hlook => ⟨row, hlook, .refl row⟩, fun _ _ h => h, fun _ _ h => h⟩

theorem Granted.later {cap : CapId} {entry : CapEntry} (hgranted : g.Granted cap entry)
    (h : g.Later g') : g'.Granted cap entry := by
  obtain ⟨r, a, hlook, hgrants⟩ := hgranted
  exact ⟨r, a, h.answers r a hlook, hgrants⟩

theorem Validated.later {q : LeasePath} {v : ValidatedLease} (hv : g.Validated q v)
    (h : g.Later g') : g'.Validated q v := by
  obtain ⟨row, hlook, htenant, hhash⟩ := hv
  obtain ⟨row', hlook', hsame⟩ := h.leases _ row hlook
  exact ⟨row', hlook', hsame.tenantId.trans htenant, hsame.bearerHash.trans hhash⟩

theorem Admits.later {q : LeasePath} {tenant : String} {lease : LeaseId}
    (hadmits : g.Admits q tenant lease) (h : g.Later g') : g'.Admits q tenant lease where
  scope := hadmits.scope
  leased := by
    obtain ⟨row, hlook, hhash, htenant⟩ := hadmits.leased
    obtain ⟨row', hlook', hsame⟩ := h.leases _ row hlook
    refine ⟨row', hlook', hsame.bearerHash.trans hhash, ?_⟩
    rw [h.tenants, hsame.tenantId]
    exact htenant

theorem PcInv.later {request : Request} {pc : Pc} (hpc : g.PcInv request pc) (h : g.Later g') :
    g'.PcInv request pc := by
  cases pc with
  | checkTenant q v => exact ⟨hpc.1, hpc.2.later h⟩
  | checkRemember | checkUnlock | checkUnlocking | checkCreate | checkCreating | checkCache
  | checkCap => exact ⟨hpc.1, hpc.2.later h⟩
  | fetchCache entry | fetchEvict entry vaultError =>
    obtain ⟨cap, hrequest, hgranted⟩ := hpc
    exact ⟨cap, hrequest, hgranted.later h⟩
  | _ => exact hpc

theorem AnswerInv.later {a : Answer} (ha : g.AnswerInv a) (h : g.Later g') : g'.AnswerInv a := by
  revert ha
  unfold AnswerInv
  split
  next tenant cap hreply =>
    rintro ⟨q, lease, hasks, hlease, hminted, hadmits⟩
    exact ⟨q, lease, hasks, hlease, h.minted cap lease hminted, hadmits.later h⟩
  next response hreply =>
    rintro ⟨cap, entry, hrequest, hgranted, hresponse⟩
    exact ⟨cap, entry, hrequest, hgranted.later h, hresponse⟩
  next => exact id

end Record

-- ════════════════════════════════════════════════════════════════════════
-- The invariant
-- ════════════════════════════════════════════════════════════════════════

/-- What the broker holds that the identity of a cap depends on. -/
structure Registry where
  record : Record
  cache : FiniteMap CacheKey CacheEntry
  caps : CapMap
  arrivals : Nat
  inFlight : FiniteMap Nat InFlight

def Broker.registry (s : Broker) : Registry :=
  ⟨⟨s.tenants, s.leases, s.minted, s.answers⟩, s.cache, s.caps, s.arrivals, s.inFlight⟩

/-- The request has arrived, is not answered yet, and is where it says it is. -/
def Registry.FlightInv (g : Registry) (r : Nat) (f : InFlight) : Prop :=
  r < g.arrivals ∧ g.record.answers.lookup r = none ∧ g.record.PcInv f.request f.pc

/-- The invariant of every run. -/
structure RegistryInv (g : Registry) : Prop where
  indexed : g.record.leases.Indexed
  caps : ∀ cap entry, g.caps.lookup cap = some entry → g.record.Granted cap entry
  cached : ∀ key entry, g.cache.lookup key = some entry → entry.tenant = key.tenant
  unique : ∀ r r' a a' tenant tenant' cap, g.record.answers.lookup r = some a →
    g.record.answers.lookup r' = some a' → a.reply = .admitted tenant cap →
      a'.reply = .admitted tenant' cap → r = r'
  flights : ∀ r f, g.inFlight.lookup r = some f → g.FlightInv r f
  answered : ∀ r a, g.record.answers.lookup r = some a → r < g.arrivals ∧ g.record.AnswerInv a

namespace RegistryInv

variable {g g' : Registry}

/-- **A cap is granted once**, with one tenant, namespace, plugin and lease. -/
theorem granted_unique {cap : CapId} {entry entry' : CapEntry} (inv : RegistryInv g)
    (h : g.record.Granted cap entry) (h' : g.record.Granted cap entry') :
    entry.cacheKey = entry'.cacheKey ∧ entry.namesp = entry'.namesp ∧
      entry.plugin = entry'.plugin ∧ entry.leaseId = entry'.leaseId := by
  obtain ⟨r, a, hlook, hgrants⟩ := h
  obtain ⟨r', a', hlook', hgrants'⟩ := h'
  have hr := inv.unique r r' a a' _ _ cap hlook hlook' hgrants.reply hgrants'.reply
  rw [hr, hlook', Option.some.injEq] at hlook
  subst hlook
  obtain ⟨q, hasks, hbearer, hnamesp, hplugin⟩ := hgrants.asked
  obtain ⟨q', hasks', hbearer', hnamesp', hplugin'⟩ := hgrants'.asked
  have hq := hasks.unique hasks'
  subst hq
  have htenant : entry.cacheKey.tenant = entry'.cacheKey.tenant :=
    (Reply.admitted.inj (hgrants.reply.symm.trans hgrants'.reply)).1
  have hlease := hgrants.lease.symm.trans hgrants'.lease
  refine ⟨?_, hnamesp.trans hnamesp'.symm, hplugin.trans hplugin'.symm, Option.some.inj hlease⟩
  exact CacheKey.ext htenant (hbearer.trans hbearer'.symm)

theorem setLeases {leases : LeaseStore} {now : Nat} (inv : RegistryInv g)
    (h : g.record.leases.Keeps leases now ∧ leases.Indexed) :
    RegistryInv { g with record.leases := leases } := by
  have hlater : g.record.Later { g.record with leases := leases } := by
    refine ⟨rfl, fun id row hlook => ?_, fun _ _ hm => hm, fun _ _ ha => ha⟩
    obtain ⟨row', hlook', hsame, -⟩ := h.1 id row hlook
    exact ⟨row', hlook', hsame⟩
  exact
    { indexed := h.2
      caps := fun cap entry hlook => (inv.caps cap entry hlook).later hlater
      cached := inv.cached
      unique := inv.unique
      flights := fun r f hlook =>
        ⟨(inv.flights r f hlook).1, (inv.flights r f hlook).2.1,
          (inv.flights r f hlook).2.2.later hlater⟩
      answered := fun r a hlook =>
        ⟨(inv.answered r a hlook).1, (inv.answered r a hlook).2.later hlater⟩ }

/-- Caps are evicted. -/
theorem evict {caps : CapMap} (inv : RegistryInv g)
    (h : ∀ cap entry, caps.lookup cap = some entry → g.caps.lookup cap = some entry) :
    RegistryInv { g with caps := caps } :=
  { inv with caps := fun cap entry hlook => inv.caps cap entry (h cap entry hlook) }

theorem retain (inv : RegistryInv g) (p : CapId → CapEntry → Bool) :
    RegistryInv { g with caps := g.caps.retain p } :=
  inv.evict fun cap entry hlook => ((FiniteMap.lookup_retain_eq_some p g.caps cap entry).mp hlook).1

theorem setCache {cache : FiniteMap CacheKey CacheEntry} (inv : RegistryInv g)
    (h : ∀ key entry, cache.lookup key = some entry → entry.tenant = key.tenant) :
    RegistryInv { g with cache := cache } :=
  { inv with cached := h }

/-- A request moves. -/
theorem setFlight {r : Nat} {f : InFlight} (inv : RegistryInv g) (hf : g.FlightInv r f) :
    RegistryInv { g with inFlight := g.inFlight.insert r f } :=
  { inv with
    flights := fun r' f' hlook => by
      rw [FiniteMap.lookup_insert_ite] at hlook
      split at hlook
      next heq => cases hlook; subst heq; exact hf
      next => exact inv.flights r' f' hlook }

theorem dropFlight (inv : RegistryInv g) (r : Nat) :
    RegistryInv { g with inFlight := g.inFlight.erase r } :=
  { inv with
    flights := fun r' f' hlook => by
      rw [FiniteMap.lookup_erase_ite] at hlook
      split at hlook
      next => cases hlook
      next => exact inv.flights r' f' hlook }

/-- An answer is recorded.  One that grants a cap comes with the entry of the
    cap, which was not granted before. -/
theorem setAnswer {r : Nat} {a : Answer} {caps : CapMap} {minted : FiniteMap CapId LeaseId}
    (inv : RegistryInv g) (hlt : r < g.arrivals) (hnone : g.record.answers.lookup r = none)
    (hminted : ∀ cap lease, g.record.minted.lookup cap = some lease →
      minted.lookup cap = some lease)
    (hcaps : ∀ cap entry, caps.lookup cap = some entry →
      g.caps.lookup cap = some entry ∨ a.Grants cap entry)
    (ha : Record.AnswerInv
      { g.record with minted := minted, answers := g.record.answers.insert r a } a)
    (hfresh : ∀ tenant cap, a.reply = .admitted tenant cap → g.record.minted.lookup cap = none) :
    RegistryInv { g with
      record := { g.record with minted := minted, answers := g.record.answers.insert r a }
      caps := caps
      inFlight := g.inFlight.erase r } := by
  have hlater : g.record.Later
      { g.record with minted := minted, answers := g.record.answers.insert r a } := by
    refine ⟨rfl, fun _ row hlook => ⟨row, hlook, .refl row⟩, hminted, fun r' a' hlook => ?_⟩
    show (g.record.answers.insert r a).lookup r' = some a'
    rw [FiniteMap.lookup_insert_ite, if_neg]
    · exact hlook
    · rintro rfl
      rw [hnone] at hlook
      cases hlook
  -- an earlier answer with the cap of this one would have left it minted
  have hother : ∀ r' a' tenant tenant' cap, g.record.answers.lookup r' = some a' →
      a.reply = .admitted tenant cap → a'.reply ≠ .admitted tenant' cap := by
    intro r' a' tenant tenant' cap hlook hreply hreply'
    have ha' := (inv.answered r' a' hlook).2
    rw [Record.AnswerInv, hreply'] at ha'
    obtain ⟨q, lease, -, -, hm, -⟩ := ha'
    rw [hfresh tenant cap hreply] at hm
    cases hm
  refine ⟨inv.indexed, fun cap entry hlook => ?_, inv.cached, ?_, fun r' f hlook => ?_,
    fun r' a' hlook => ?_⟩
  · cases hcaps cap entry hlook with
    | inl hold => exact (inv.caps cap entry hold).later hlater
    | inr hgrants => exact ⟨r, a, AList.lookup_insert _, hgrants⟩
  · intro r₁ r₂ a₁ a₂ tenant₁ tenant₂ cap h₁ h₂ hreply₁ hreply₂
    have h₁' : (g.record.answers.insert r a).lookup r₁ = some a₁ := h₁
    have h₂' : (g.record.answers.insert r a).lookup r₂ = some a₂ := h₂
    rw [FiniteMap.lookup_insert_ite] at h₁' h₂'
    by_cases hr₁ : r₁ = r <;> by_cases hr₂ : r₂ = r
    · rw [hr₁, hr₂]
    · rw [if_pos hr₁, Option.some.injEq] at h₁'
      rw [if_neg hr₂] at h₂'
      subst h₁'
      exact absurd hreply₂ (hother r₂ a₂ _ _ cap h₂' hreply₁)
    · rw [if_neg hr₁] at h₁'
      rw [if_pos hr₂, Option.some.injEq] at h₂'
      subst h₂'
      exact absurd hreply₁ (hother r₁ a₁ _ _ cap h₁' hreply₂)
    · rw [if_neg hr₁] at h₁'
      rw [if_neg hr₂] at h₂'
      exact inv.unique r₁ r₂ a₁ a₂ _ _ cap h₁' h₂' hreply₁ hreply₂
  · have hlook' : (g.inFlight.erase r).lookup r' = some f := hlook
    rw [FiniteMap.lookup_erase_ite] at hlook'
    split at hlook'
    next => cases hlook'
    next hne =>
      obtain ⟨hlt', hnone', hpc⟩ := inv.flights r' f hlook'
      refine ⟨hlt', ?_, hpc.later hlater⟩
      show (g.record.answers.insert r a).lookup r' = none
      rw [FiniteMap.lookup_insert_ite, if_neg hne]
      exact hnone'
  · have hlook' : (g.record.answers.insert r a).lookup r' = some a' := hlook
    rw [FiniteMap.lookup_insert_ite] at hlook'
    split at hlook'
    next heq => cases hlook'; subst heq; exact ⟨hlt, ha⟩
    next =>
      obtain ⟨hlt', ha'⟩ := inv.answered r' a' hlook'
      exact ⟨hlt', ha'.later hlater⟩

end RegistryInv

-- ════════════════════════════════════════════════════════════════════════
-- Steps
-- ════════════════════════════════════════════════════════════════════════

/-- The reply neither grants a cap nor returns secrets. -/
def Reply.plain : Reply → Bool
  | .admitted _ _ | .secrets _ => false
  | _ => true

theorem Record.AnswerInv.of_plain {g : Record} {a : Answer} (h : a.reply.plain = true) :
    g.AnswerInv a := by
  unfold AnswerInv
  split
  next hreply => rw [hreply] at h; cases h
  next hreply => rw [hreply] at h; cases h
  next => trivial

variable {hkdf : Bytes → Bytes → UInt8 → Bytes} {s s' : Broker} {r : Nat} {f : InFlight}
  {choice : Choice} {pc : Pc}

namespace RegistryInv

theorem advance (inv : RegistryInv s.registry) (hlook : s.inFlight.lookup r = some f)
    (hpc : s.registry.record.PcInv f.request pc) : RegistryInv (s.advance r f pc).registry :=
  inv.setFlight ⟨(inv.flights r f hlook).1, (inv.flights r f hlook).2.1, hpc⟩

theorem refuse {lease : Option LeaseId} {vaultError : Option VaultError} {reply : Reply}
    (inv : RegistryInv s.registry) (hlook : s.inFlight.lookup r = some f)
    (hplain : reply.plain = true) :
    RegistryInv (s.answerUnder r f lease vaultError reply).registry := by
  obtain ⟨hlt, hnone, -⟩ := inv.flights r f hlook
  refine inv.setAnswer hlt hnone (fun _ _ h => h) (fun _ _ h => .inl h) (.of_plain hplain) ?_
  rintro tenant cap rfl
  cases hplain

theorem close {lease : Option LeaseRow} (inv : RegistryInv s.registry) :
    RegistryInv (s.close lease).registry := inv

theorem evictCacheKey (inv : RegistryInv s.registry) (key : CacheKey) :
    RegistryInv { s with caps := s.caps.evictCapsForCacheKey key }.registry :=
  inv.retain fun _ entry => entry.cacheKey ≠ key

theorem validate {bearer : Bearer} {leases : LeaseStore}
    {result : Except ValidationError (Option ValidatedLease)} (inv : RegistryInv s.registry)
    (hresult : s.leases.validateAndExtend bearer s.now = (result, leases)) :
    RegistryInv { s with leases := leases }.registry := by
  have hkeeps := @LeaseStore.validateAndExtend_keeps s.leases s.now bearer inv.indexed
  rw [hresult] at hkeeps
  exact inv.setLeases hkeeps

/-- A validated lease is one of the bearer. -/
theorem validated {q : LeasePath} {leases : LeaseStore} {v : ValidatedLease}
    (inv : RegistryInv s.registry)
    (hresult : s.leases.validateAndExtend q.bearer s.now = (.ok (some v), leases)) :
    { s with leases := leases }.registry.record.Validated q v := by
  cases @LeaseStore.validateAndExtend_cases s.leases s.now q.bearer inv.indexed with
  | inl hlive =>
    obtain ⟨row, hrow, hhash, -, heq⟩ := hlive
    rw [hresult] at heq
    simp only [Prod.mk.injEq, Except.ok.injEq, Option.some.injEq] at heq
    obtain ⟨rfl, rfl⟩ := heq
    have hsame := row.same_extend s.now
    refine ⟨row.extend s.now, ?_, rfl, hsame.bearerHash.trans hhash⟩
    show (s.leases.insert row.id (row.extend s.now)).lookup (row.extend s.now).id = _
    rw [hsame.id]
    exact AList.lookup_insert s.leases
  | inr hnone => exact absurd (by rw [hresult]) (hnone.1 v)

end RegistryInv

theorem registry_startCall {tenant : String} {h : Nat} {fresh : Bool} {c : Call}
    (hstart : s.startCall hkdf tenant h fresh c = some s') : s'.registry = s.registry := by
  obtain ⟨root, -, rfl⟩ := Option.map_eq_some_iff.mp hstart
  rfl

theorem registry_insideCall {tenant : String} {h : Nat} {c : Call}
    (hinside : s.insideCall hkdf tenant h c = some s') : s'.registry = s.registry := by
  unfold Broker.insideCall at hinside
  split at hinside
  next => obtain ⟨root, -, rfl⟩ := Option.map_eq_some_iff.mp hinside; rfl
  next => cases hinside

theorem flight_of_registry (hsame : s'.registry = s.registry)
    (hlook : s.inFlight.lookup r = some f) : s'.inFlight.lookup r = some f := by
  have hflights : s'.inFlight = s.inFlight := congrArg Registry.inFlight hsame
  rw [hflights]
  exact hlook

theorem registryInv_checkStep (inv : RegistryInv s.registry)
    (hlook : s.inFlight.lookup r = some f) (hpc : f.pc = pc)
    (hstep : s.checkStep hkdf r f choice pc = some s') : RegistryInv s'.registry := by
  have hf : s.registry.record.PcInv f.request pc := hpc ▸ (inv.flights r f hlook).2.2
  revert hstep
  fun_cases Broker.checkStep hkdf s r f choice pc <;> intro hstep
  all_goals try cases hstep
  · exact inv.refuse hlook rfl
  · -- checkValidate, a live lease
    rename_i hresult
    exact (inv.validate hresult).advance hlook ⟨hf, inv.validated hresult⟩
  · -- checkValidate, no such lease
    rename_i hresult
    exact (inv.validate hresult).advance hlook hf.not_fetch
  · rename_i hresult
    exact (inv.validate hresult).refuse hlook rfl
  · rename_i hresult
    exact (inv.validate hresult).refuse hlook rfl
  · rename_i hresult
    exact (inv.validate hresult).refuse hlook rfl
  · rename_i hresult
    exact (inv.validate hresult).refuse hlook rfl
  · -- checkMiss
    exact (inv.evictCacheKey _).refuse hlook rfl
  · exact inv.refuse hlook rfl
  · exact inv.refuse hlook rfl
  · exact inv.refuse hlook rfl
  · -- checkTenant: the row of the lease names the tenant
    rename_i q v tenant htenant hscope
    obtain ⟨hasks, row, hrow, hid, hhash⟩ := hf
    refine inv.advance hlook ⟨hasks, ?_, row, hrow, hhash, ?_⟩
    · intro expected hexpected
      simpa [hexpected] using hscope
    · show s.tenants.lookup row.tenantId = some tenant
      rw [hid]
      exact htenant
  · -- checkRemember
    exact RegistryInv.advance (s := s.remember _ _) inv hlook hf
  · exact inv.refuse hlook rfl
  · -- checkUnlock
    obtain ⟨s₁, hstart, rfl⟩ := Option.map_eq_some_iff.mp hstep
    have hsame := registry_startCall hstart
    exact RegistryInv.advance (hsame ▸ inv) (flight_of_registry hsame hlook) (hsame ▸ hf)
  · exact registry_insideCall hstep ▸ inv
  · -- checkUnlocking
    obtain ⟨⟨hd, outcome⟩, -, hout⟩ := Option.bind_eq_some_iff.mp hstep
    cases outcome with
    | ok =>
      obtain ⟨u, -, rfl⟩ := Option.map_eq_some_iff.mp hout
      exact inv.advance hlook hf
    | error err =>
      simp only at hout
      split at hout <;> cases hout
      · exact inv.advance hlook hf
      · exact inv.refuse hlook rfl
  · -- checkCreate
    obtain ⟨root, -, rfl⟩ := Option.map_eq_some_iff.mp hstep
    exact RegistryInv.advance (s := s.setVault _ root) inv hlook hf
  · -- checkCreating, inside the call
    obtain ⟨s₁, hinside, rfl⟩ := Option.map_eq_some_iff.mp hstep
    have hsame := registry_insideCall hinside
    split
    · exact hsame ▸ inv
    · show RegistryInv s₁.registry
      exact hsame ▸ inv
  · -- checkCreating
    obtain ⟨⟨hd, outcome⟩, -, rfl⟩ := Option.map_eq_some_iff.mp hstep
    cases outcome with
    | ok => exact inv.advance hlook hf
    | error err => exact inv.refuse hlook rfl
  · -- checkCache: an entry that is there already belongs to the tenant of its key
    rename_i q v tenant master key entry
    have hentry : entry.tenant = tenant := by
      simp only [entry]
      split
      next existing hold => exact inv.cached key existing hold
      next => rfl
    have inv₁ : RegistryInv { s with cache := s.cache.insert key entry }.registry := by
      refine inv.setCache fun key' entry' hlook' => ?_
      rw [FiniteMap.lookup_insert_ite] at hlook'
      split at hlook'
      next heq => cases hlook'; rw [heq]; exact hentry
      next => exact inv.cached key' entry' hlook'
    exact inv₁.advance hlook hf
  · -- checkCap
    rename_i cap q v tenant hfresh entry
    obtain ⟨hlt, hnone, -⟩ := inv.flights r f hlook
    obtain ⟨hasks, hadmits⟩ := hf
    have hminted : s.minted.lookup cap = none := by simpa using hfresh
    refine inv.setAnswer hlt hnone (fun cap' lease hm => ?_) (fun cap' entry' hlook' => ?_) ?_ ?_
    · show (s.minted.insert cap v.lease.id).lookup cap' = some lease
      rw [FiniteMap.lookup_insert_ite, if_neg]
      · exact hm
      · rintro rfl
        have hm' : s.minted.lookup cap' = some lease := hm
        rw [hminted] at hm'
        cases hm'
    · have hcap : (s.caps.insert cap entry).lookup cap' = some entry' := hlook'
      rw [FiniteMap.lookup_insert_ite] at hcap
      split at hcap
      next heq =>
        cases hcap
        subst heq
        exact .inr ⟨rfl, rfl, q, hasks, rfl, rfl, rfl⟩
      next => exact .inl hcap
    · exact ⟨q, v.lease.id, hasks, rfl, AList.lookup_insert _, hadmits.scope, hadmits.leased⟩
    · rintro tenant' cap' hreply
      cases hreply
      exact hminted

theorem registryInv_logoutStep (inv : RegistryInv s.registry)
    (hlook : s.inFlight.lookup r = some f) (hpc : f.pc = pc)
    (hstep : s.logoutStep r f choice pc = some s') : RegistryInv s'.registry := by
  have hf : s.registry.record.PcInv f.request pc := hpc ▸ (inv.flights r f hlook).2.2
  revert hstep
  fun_cases Broker.logoutStep s r f choice pc <;> intro hstep
  all_goals try cases hstep
  · exact inv.close.refuse hlook rfl
  · exact inv.close.refuse hlook rfl
  · -- logoutValidate
    rename_i hresult
    exact (inv.validate hresult).advance hlook hf
  · rename_i hresult _ _
    exact (inv.validate hresult).close.refuse hlook rfl
  · exact inv.close.refuse hlook rfl
  · exact inv.advance hlook hf
  · exact RegistryInv.advance (s := s.remember _ _) inv hlook hf
  · -- logoutEvict
    exact (inv.evictCacheKey _).advance hlook hf
  · exact inv.refuse hlook rfl
  · -- logoutRevoke
    rename_i bearer v _
    have hfound : ∀ found, s.leases.findByHash bearer.hash = some found →
        s.leases.lookup found.id = some found := fun found hfind =>
      (LeaseStore.findByHash_eq_some hfind inv.indexed).1
    have hkeeps : s.leases.Keeps (s.leases.revoke bearer.hash s.now).1 s.now ∧
        (s.leases.revoke bearer.hash s.now).1.Indexed :=
      LeaseStore.revokeRow_keeps inv.indexed hfound
    have inv₁ : RegistryInv { s with leases := (s.leases.revoke bearer.hash s.now).1 }.registry :=
      inv.setLeases hkeeps
    exact inv₁.close.refuse hlook rfl

theorem registryInv_revokeStep (inv : RegistryInv s.registry)
    (hlook : s.inFlight.lookup r = some f) (hpc : f.pc = pc)
    (hstep : s.revokeStep r f choice pc = some s') : RegistryInv s'.registry := by
  have hf : s.registry.record.PcInv f.request pc := hpc ▸ (inv.flights r f hlook).2.2
  revert hstep
  fun_cases Broker.revokeStep s r f choice pc <;> intro hstep
  all_goals try cases hstep
  · exact inv.refuse hlook rfl
  · -- revokeById
    rename_i id leases revoked hresult
    have hkeeps : s.leases.Keeps leases s.now ∧ leases.Indexed := by
      have hrow := @LeaseStore.revokeRow_keeps s.leases s.now (s.leases.lookup id) inv.indexed
        fun found hfound => by
          have hid : found.id = id := inv.indexed.id_eq id found hfound
          rw [hid]
          exact hfound
      rw [LeaseStore.revokeById] at hresult
      rw [hresult] at hrow
      exact hrow
    have inv₁ : RegistryInv { s with leases := leases }.registry := inv.setLeases hkeeps
    exact inv₁.advance hlook hf
  · -- revokeEvict
    rename_i id revoked caps row
    have inv₁ : RegistryInv { s with caps := caps }.registry :=
      inv.retain fun _ entry => entry.leaseId ≠ id
    exact inv₁.close.refuse hlook rfl

theorem registryInv_fetchStep (inv : RegistryInv s.registry)
    (hlook : s.inFlight.lookup r = some f) (hpc : f.pc = pc)
    (hstep : s.fetchStep r f choice pc = some s') : RegistryInv s'.registry := by
  have hf : s.registry.record.PcInv f.request pc := hpc ▸ (inv.flights r f hlook).2.2
  revert hstep
  fun_cases Broker.fetchStep s r f choice pc <;> intro hstep
  all_goals try cases hstep
  · exact inv.refuse hlook rfl
  · -- fetchCap, expired
    rename_i cap entry _ _
    have inv₁ : RegistryInv { s with caps := s.caps.erase cap }.registry :=
      inv.evict fun other e he => by
        rw [FiniteMap.lookup_erase_ite] at he
        split at he
        next => cases he
        next => exact he
    exact inv₁.refuse hlook rfl
  · -- fetchCap
    rename_i cap entry hentry _
    exact inv.advance hlook ⟨cap, hf, inv.caps cap entry hentry⟩
  · exact inv.advance hlook hf
  · -- fetchCache, an expired entry
    rename_i entry _ _ _
    have inv₁ : RegistryInv { s with cache := s.cache.erase entry.cacheKey }.registry := by
      refine inv.setCache fun key cached he => ?_
      rw [FiniteMap.lookup_erase_ite] at he
      split at he
      next => cases he
      next => exact inv.cached key cached he
    exact inv₁.advance hlook hf
  · exact inv.advance hlook hf
  · exact inv.advance hlook hf
  · -- fetchCache, the vault opens
    rename_i entry cached hcached _ _ contents _
    obtain ⟨hlt, hnone, -⟩ := inv.flights r f hlook
    obtain ⟨cap, hrequest, hgranted⟩ := hf
    refine inv.setAnswer hlt hnone (fun _ _ h => h) (fun _ _ h => .inl h) ?_ fun _ _ h => by cases h
    refine ⟨cap, entry, hrequest, ?_, inv.cached _ cached hcached, rfl⟩
    obtain ⟨r', a', hlook', hgrants⟩ := hgranted
    refine ⟨r', a', ?_, hgrants⟩
    show (s.answers.insert r _).lookup r' = some a'
    rw [FiniteMap.lookup_insert_ite, if_neg]
    · exact hlook'
    · rintro rfl
      rw [hnone] at hlook'
      cases hlook'
  · -- fetchEvict
    exact (inv.evictCacheKey _).refuse hlook rfl

theorem registry_exportKey? {lease : LeaseId} {key : Option Bytes}
    (hkey : s.exportKey? lease = (key, s')) : s'.registry = s.registry := by
  unfold Broker.exportKey? at hkey
  split at hkey
  next => cases hkey; rfl
  next =>
    split at hkey
    next => cases hkey; rfl
    next => cases hkey; rfl

theorem registry_keepWritten (s : Broker) (job : WriteJob) :
    (s.keepWritten job).registry = s.registry := by
  unfold Broker.keepWritten
  split <;> rfl

theorem plain_of_secretWrite {request : Request} {unixNow : Int} {reply : Reply}
    (h : request.secretWrite unixNow = .error reply) : reply.plain = true := by
  revert h
  fun_cases Request.secretWrite unixNow request <;> intro h <;> cases h <;> rfl

theorem plain_writeReply (write : Write) (existed : Bool) (outcome : Except VaultError Unit) :
    (Broker.writeReply write existed outcome).plain = true := by
  fun_cases Broker.writeReply write existed outcome <;> rfl

theorem registryInv_writeStep (inv : RegistryInv s.registry)
    (hlook : s.inFlight.lookup r = some f) (hpc : f.pc = pc)
    (hstep : s.writeStep hkdf r f choice pc = some s') : RegistryInv s'.registry := by
  have hf : s.registry.record.PcInv f.request pc := hpc ▸ (inv.flights r f hlook).2.2
  revert hstep
  fun_cases Broker.writeStep hkdf s r f choice pc <;> intro hstep
  all_goals try cases hstep
  · exact inv.refuse hlook rfl
  · exact inv.refuse hlook rfl
  · exact inv.refuse hlook rfl
  · exact inv.advance hlook hf
  · exact inv.refuse hlook rfl
  · -- writeLease
    obtain ⟨row, -, hout⟩ := Option.bind_eq_some_iff.mp hstep
    split at hout <;> cases hout
    exact inv.advance hlook hf
  · -- writeKey, no export key
    rename_i hkey
    have hsame := registry_exportKey? hkey
    exact RegistryInv.refuse (hsame ▸ inv) (flight_of_registry hsame hlook) rfl
  · -- writeKey, a bad request
    rename_i hkey reply hbad
    have hsame := registry_exportKey? hkey
    refine RegistryInv.refuse (hsame ▸ inv) (flight_of_registry hsame hlook) ?_
    exact plain_of_secretWrite hbad
  · -- writeKey
    rename_i hkey _ _ _
    have hsame := registry_exportKey? hkey
    exact RegistryInv.advance (hsame ▸ inv) (flight_of_registry hsame hlook) hf
  · exact RegistryInv.advance (s := { s with writeLocks := _ }) inv hlook hf
  · exact RegistryInv.refuse (s := s.unlockTenant _) inv hlook rfl
  · -- writeUnlock
    obtain ⟨s₁, hstart, rfl⟩ := Option.map_eq_some_iff.mp hstep
    have hsame := registry_startCall hstart
    exact RegistryInv.advance (hsame ▸ inv) (flight_of_registry hsame hlook) hf
  · exact registry_insideCall hstep ▸ inv
  · -- writeUnlocking
    obtain ⟨⟨hd, outcome⟩, -, rfl⟩ := Option.map_eq_some_iff.mp hstep
    cases outcome with
    | ok => exact inv.advance hlook hf
    | error err => exact RegistryInv.refuse (s := s.unlockTenant _) inv hlook rfl
  · -- writePut
    obtain ⟨hd, -, hout⟩ := Option.bind_eq_some_iff.mp hstep
    obtain ⟨u, -, hout⟩ := Option.bind_eq_some_iff.mp hout
    simp only at hout
    split at hout
    next => cases hout; exact RegistryInv.refuse (s := s.unlockTenant _) inv hlook rfl
    next =>
      obtain ⟨s₁, hstart, rfl⟩ := Option.map_eq_some_iff.mp hout
      have hsame := registry_startCall hstart
      exact RegistryInv.advance (s := { s₁ with stored := _ }) (hsame ▸ inv)
        (flight_of_registry hsame hlook) hf
  · exact registry_insideCall hstep ▸ inv
  · -- writePersisting
    rename_i job existed
    obtain ⟨⟨hd, outcome⟩, -, rfl⟩ := Option.map_eq_some_iff.mp hstep
    cases outcome with
    | ok =>
      have hsame := registry_keepWritten s job
      exact RegistryInv.refuse (s := (s.keepWritten job).unlockTenant job) (hsame ▸ inv)
        (flight_of_registry hsame hlook) (plain_writeReply _ _ _)
    | error err =>
      exact RegistryInv.refuse (s := s.unlockTenant _) inv hlook (plain_writeReply _ _ _)

theorem registryInv_loginStep (inv : RegistryInv s.registry)
    (hlook : s.inFlight.lookup r = some f) (hpc : f.pc = pc)
    (hstep : s.loginStep r f choice pc = some s') : RegistryInv s'.registry := by
  have hf : s.registry.record.PcInv f.request pc := hpc ▸ (inv.flights r f hlook).2.2
  revert hstep
  fun_cases Broker.loginStep s r f choice pc <;> intro hstep
  all_goals try cases hstep
  · exact inv.refuse hlook rfl
  · exact inv.refuse hlook rfl
  · -- loginInsert
    rename_i hinsert
    obtain ⟨row, -, rfl⟩ := Option.map_eq_some_iff.mp hstep
    have hkeeps := LeaseStore.insertLease_keeps inv.indexed hinsert
    exact RegistryInv.advance (s := { s with leases := _, sessionKeys := _ })
      (inv.setLeases hkeeps) hlook hf
  · exact RegistryInv.refuse (s := s.remember _ _) inv hlook rfl

theorem registryInv_pruneStep (inv : RegistryInv s.registry)
    (hlook : s.inFlight.lookup r = some f) (hpc : f.pc = pc)
    (hstep : s.pruneStep r f choice pc = some s') : RegistryInv s'.registry := by
  have hf : s.registry.record.PcInv f.request pc := hpc ▸ (inv.flights r f hlook).2.2
  revert hstep
  fun_cases Broker.pruneStep s r f choice pc <;> intro hstep
  all_goals try cases hstep
  · -- pruneCache
    have inv₁ : RegistryInv { s with
        cache := s.cache.retain fun _ entry => !entry.isExpired f.arrived }.registry :=
      inv.setCache fun key entry he =>
        inv.cached key entry ((FiniteMap.lookup_retain_eq_some _ _ _ _).mp he).1
    exact inv₁.advance hlook hf
  · -- pruneCaps
    rename_i evicted now
    have inv₁ : RegistryInv { s with caps := s.caps.pruneCaps evicted now }.registry :=
      inv.retain fun _ entry => !evicted.contains entry.cacheKey && !entry.isExpired now
    exact inv₁.advance hlook hf
  · exact inv.dropFlight r

/-- **Step lemma**: a step of a handler keeps the invariant. -/
theorem registryInv_step (inv : RegistryInv s.registry) (hlook : s.inFlight.lookup r = some f)
    (hstep : s.step hkdf r f choice = some s') : RegistryInv s'.registry := by
  unfold Broker.step at hstep
  split at hstep
  all_goals first
    | exact registryInv_checkStep inv hlook rfl hstep
    | exact registryInv_logoutStep inv hlook rfl hstep
    | exact registryInv_revokeStep inv hlook rfl hstep
    | exact registryInv_fetchStep inv hlook rfl hstep
    | exact registryInv_writeStep inv hlook rfl hstep
    | exact registryInv_loginStep inv hlook rfl hstep
    | exact registryInv_pruneStep inv hlook rfl hstep

/-- What the first step of a request knows. -/
theorem recordPcInv_entry {g : Record} {request : Request} {adminKey : Option Token}
    (hentry : request.entry adminKey = .ok pc) : g.PcInv request pc := by
  cases request with
  | check path cap =>
    obtain ⟨q, rfl, hasks⟩ := asks_of_checkEntry hentry
    exact hasks
  | fetch cap =>
    cases cap with
    | error code => cases hentry
    | ok cap => cases hentry; rfl
  | logout cap =>
    cases cap with
    | error code => cases hentry
    | ok token =>
      cases token with
      | none => cases hentry
      | some token =>
        simp only [Request.entry] at hentry
        split at hentry <;> cases hentry
        rfl
  | revokeLease provided id =>
    simp only [Request.entry] at hentry
    split at hentry <;> cases hentry
    rfl
  | store | deleteSecret | loginFinish | prune => cases hentry; rfl

/-- A request that is answered where it arrives gets neither a cap nor secrets. -/
theorem plain_of_entry {request : Request} {adminKey : Option Token} {reply : Reply}
    (hentry : request.entry adminKey = .error reply) : reply.plain = true := by
  have hprotected : ∀ scope namesp plugin missing cap, missing.plain = true →
      protectedEntry scope namesp plugin missing cap = .error reply → reply.plain = true := by
    intro scope namesp plugin missing cap hmissing h
    cases cap with
    | error code => cases h; rfl
    | ok token =>
      cases token with
      | none => cases h; exact hmissing
      | some token =>
        simp only [protectedEntry, leasePathEntry] at h
        split at h <;> cases h
        rfl
  cases request with
  | check path cap =>
    have hcheck : checkEntry adminKey path cap = .error reply := hentry
    revert hcheck
    fun_cases checkEntry adminKey path cap <;> intro hcheck
    case case1 => cases hcheck; rfl
    case case2 => cases hcheck; rfl
    case case3 => cases hcheck; rfl
    case case4 => cases hcheck; rfl
    all_goals exact hprotected _ _ _ _ _ rfl hcheck
  | fetch cap =>
    cases cap with
    | error code => cases hentry; rfl
    | ok cap => cases hentry
  | logout cap =>
    cases cap with
    | error code => cases hentry; rfl
    | ok token =>
      cases token with
      | none => cases hentry; rfl
      | some token =>
        simp only [Request.entry] at hentry
        split at hentry <;> cases hentry
        rfl
  | revokeLease provided id =>
    simp only [Request.entry] at hentry
    split at hentry <;> cases hentry
    rfl
  | store | deleteSecret | loginFinish | prune => cases hentry

theorem registryInv_arrive {request : Request} (inv : RegistryInv s.registry) :
    RegistryInv (s.arrive request).registry := by
  -- the number of the request is a new one
  have hnone : s.answers.lookup s.arrivals = none := by
    cases hlook : s.answers.lookup s.arrivals with
    | none => rfl
    | some a => exact absurd (inv.answered _ a hlook).1 (lt_irrefl _)
  have inv₁ : RegistryInv { s with arrivals := s.arrivals + 1 }.registry :=
    { inv with
      flights := fun r f hlook =>
        ⟨Nat.lt_succ_of_lt (inv.flights r f hlook).1, (inv.flights r f hlook).2⟩
      answered := fun r a hlook =>
        ⟨Nat.lt_succ_of_lt (inv.answered r a hlook).1, (inv.answered r a hlook).2⟩ }
  unfold Broker.arrive
  dsimp only
  split
  next reply hentry =>
    have hplain := plain_of_entry hentry
    refine inv₁.setAnswer (Nat.lt_succ_self _) hnone (fun _ _ h => h) (fun _ _ h => .inl h)
      (.of_plain hplain) ?_
    rintro tenant cap rfl
    cases hplain
  next pc hentry =>
    exact inv₁.setFlight ⟨Nat.lt_succ_self _, hnone, recordPcInv_entry hentry⟩

theorem registryInv_next {e : Event} (inv : RegistryInv s.registry)
    (hnext : s.next hkdf e = some s') : RegistryInv s'.registry := by
  cases e with
  | tick elapsed => cases hnext; exact inv
  | arrive request => cases hnext; exact registryInv_arrive inv
  | run r choice =>
    obtain ⟨f, hlook, hstep⟩ := Option.bind_eq_some_iff.mp hnext
    exact registryInv_step inv hlook hstep
  | drop r =>
    obtain ⟨f, -, hdrop⟩ := Option.bind_eq_some_iff.mp hnext
    split at hdrop <;> cases hdrop
    exact inv.dropFlight r

theorem registryInv_init (adminKey : Option Token) (ttl : TtlConfig)
    (tenants : FiniteMap TenantId String) :
    RegistryInv (Broker.init adminKey ttl tenants).registry where
  indexed := by constructor <;> intro _ _ <;> simp [Broker.init, Broker.registry]
  caps cap entry hlook := by simp [Broker.init, Broker.registry] at hlook
  cached key entry hlook := by simp [Broker.init, Broker.registry] at hlook
  unique _ _ _ _ _ _ _ hlook := by simp [Broker.init, Broker.registry] at hlook
  flights r f hlook := by simp [Broker.init, Broker.registry] at hlook
  answered r a hlook := by simp [Broker.init, Broker.registry] at hlook

theorem registryInv_of_reachable (hreach : (authBroker hkdf).Reachable s) :
    RegistryInv s.registry := by
  refine hreach.invariant (P := fun s => RegistryInv s.registry) ?_
    fun _ _ _ inv _ hnext => registryInv_next inv hnext
  rintro _ ⟨adminKey, ttl, tenants, rfl⟩
  exact registryInv_init adminKey ttl tenants

end Botwork.AuthBroker
