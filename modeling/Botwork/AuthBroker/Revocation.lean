import Botwork.AuthBroker.Broker

/-!
# Revocation is complete

Once a revoke of a lease, or a logout with its bearer, has been answered with
success, no request that arrives later should be answered 200 on the strength of
the lease.  `/secrets/fetch` looks at the cap map alone, so the property rests on
no cap of a closed lease being left there or put there: both revocation paths
evict the caps of the lease, one by its id and one by the cache key of its bearer.
`revocation_complete` proves it of every run in which no check inserts a cap
behind an eviction, and no logout is answered that revoked nothing of a live lease.

## Main definitions

- `RevocationComplete` — the property of a state
- `RevocationGuard` — the steps that keep it
- `Ledger` — what revocation depends on
- `RevocationInv` — the invariant
-/

namespace Botwork.AuthBroker

open Botwork.Foundations Botwork.Vault

-- ════════════════════════════════════════════════════════════════════════
-- The property
-- ════════════════════════════════════════════════════════════════════════

/-- What the broker holds that revocation depends on. -/
structure Ledger where
  now : Nat
  tenants : FiniteMap TenantId String
  leases : LeaseStore
  caps : CapMap
  minted : FiniteMap CapId LeaseId
  closed : List LeaseId
  inFlight : FiniteMap Nat InFlight
  answers : FiniteMap Nat Answer

def Broker.ledger (s : Broker) : Ledger :=
  ⟨s.now, s.tenants, s.leases, s.caps, s.minted, s.closed, s.inFlight, s.answers⟩

/-- The request is a `/auth/check` with the bearer of the lease, or a
    `/secrets/fetch` with a cap minted from it. -/
def Request.Uses (l : Ledger) (lease : LeaseId) : Request → Prop
  | .check _ cap =>
    ∃ row bearer, l.leases.lookup lease = some row ∧ RequestCap.bearer cap = some bearer ∧
      row.bearerHash = bearer.hash
  | .fetch (.ok cap) => l.minted.lookup cap = some lease
  | _ => False

/-- No request was answered 200 by a lease that had been closed when the request
    arrived. -/
def RevocationComplete (s : Broker) : Prop :=
  ∀ r a, s.answers.lookup r = some a → a.reply.status = 200 →
    ∀ lease ∈ a.closedBefore, ¬ a.request.Uses s.ledger lease

-- ════════════════════════════════════════════════════════════════════════
-- The guard
-- ════════════════════════════════════════════════════════════════════════

/-- Every cap of the lease has expired. -/
def Broker.capsExpired (s : Broker) (lease : LeaseId) : Bool :=
  s.caps.all fun _ entry => entry.leaseId ≠ lease || entry.isExpired s.now

/-- The lease of the bearer can be closed as it stands. -/
def Broker.quiet (s : Broker) (bearer : Bearer) : Bool :=
  (s.leases.findByHash bearer.hash).all fun row => row.dead s.now && s.capsExpired row.id

/-- The handler is a logout of the lease between its eviction and its revoke. -/
def InFlight.hasEvicted (f : InFlight) (lease : LeaseId) : Bool :=
  match f.pc with
  | .logoutRevoke _ v => v.lease.id = lease
  | _ => false

/-- A logout of the lease stands between its eviction and its revoke. -/
def Broker.loggingOut (s : Broker) (lease : LeaseId) : Bool :=
  !s.inFlight.all fun _ f => !f.hasEvicted lease

/-- The condition on one step of a handler. -/
def stepGuard (s : Broker) : Choice → Pc → Bool
  | .cap _, .checkCap _ v _ => !s.closed.contains v.lease.id && !s.loggingOut v.lease.id
  | .fail, .logoutValidate bearer | .fail, .logoutTenant bearer _ => s.quiet bearer
  | .ok, .logoutValidate bearer =>
    (s.leases.findByHash bearer.hash).all fun row => !row.dead s.now || s.capsExpired row.id
  | .ok, .logoutTenant bearer v =>
    (s.tenants.lookup v.lease.tenantId).isSome || s.quiet bearer
  | _, _ => true

/-- A check that is answered without a look at its bearer does not carry that of
    a closed lease. -/
def arrivalGuard (s : Broker) : Request → Bool
  | .check path cap =>
    match checkEntry s.adminKey path cap with
    | .ok _ => true
    | .error reply =>
      reply.status ≠ 200 || (RequestCap.bearer cap).all fun bearer =>
        (s.leases.findByHash bearer.hash).all fun row => !s.closed.contains row.id
  | _ => true

/-- The steps that keep revocation complete. -/
def RevocationGuard (s : Broker) : Event → Prop
  | .arrive request => arrivalGuard s request = true
  | .run r choice => ∀ f ∈ s.inFlight.lookup r, stepGuard s choice f.pc = true
  | .tick _ | .drop _ => True

instance (s : Broker) : (e : Event) → Decidable (RevocationGuard s e)
  | .arrive request => inferInstanceAs (Decidable (arrivalGuard s request = true))
  | .run r choice =>
    inferInstanceAs (Decidable (∀ f ∈ s.inFlight.lookup r, stepGuard s choice f.pc = true))
  | .tick _ | .drop _ => isTrue trivial

-- ════════════════════════════════════════════════════════════════════════
-- The invariant
-- ════════════════════════════════════════════════════════════════════════

/-- The lease can be validated no more. -/
def Ledger.Dead (l : Ledger) (lease : LeaseId) : Prop :=
  ∃ row, l.leases.lookup lease = some row ∧ row.dead l.now = true

/-- The flight is a check with the bearer that `try_lease_path` works with. -/
def InFlight.IsCheck (f : InFlight) (q : LeasePath) : Prop :=
  ∃ path cap, f.request = .check path cap ∧ RequestCap.bearer cap = some q.bearer

/-- The lease was validated with the bearer. -/
def Ledger.Bears (l : Ledger) (bearer : Bearer) (v : ValidatedLease) : Prop :=
  ∃ row, l.leases.lookup v.lease.id = some row ∧ row.bearerHash = bearer.hash ∧
    row.tenantId = v.lease.tenantId

/-- The lease was validated with the bearer of the check, and was open when the
    check arrived. -/
def Ledger.Validated (l : Ledger) (f : InFlight) (q : LeasePath) (v : ValidatedLease) : Prop :=
  f.IsCheck q ∧ v.lease.id ∉ f.closedBefore ∧ l.Bears q.bearer v

/-- The name of the lease's tenant. -/
def Ledger.Names (l : Ledger) (v : ValidatedLease) (tenant : String) : Prop :=
  l.tenants.lookup v.lease.tenantId = some tenant

/-- The cap lies under the cache key of its lease's tenant and bearer. -/
def Ledger.Keyed (l : Ledger) (entry : CapEntry) : Prop :=
  ∃ row tenant, l.leases.lookup entry.leaseId = some row ∧
    l.tenants.lookup row.tenantId = some tenant ∧
    entry.cacheKey = ⟨tenant, row.bearerHash.preimage.encode⟩

/-- The cap map holds no cap of the lease. -/
def Ledger.Evicted (l : Ledger) (lease : LeaseId) : Prop :=
  ∀ cap entry, l.caps.lookup cap = some entry → entry.leaseId ≠ lease

/-- The request is neither a check nor a fetch. -/
def Request.Other : Request → Prop
  | .check _ _ | .fetch _ => False
  | _ => True

theorem Request.Other.not_uses {request : Request} (h : request.Other) (l : Ledger)
    (lease : LeaseId) : ¬ request.Uses l lease := by
  cases request with
  | check | fetch => exact h.elim
  | _ => exact fun huses => huses

/-- What the point a handler has reached says. -/
def Ledger.PcInv (l : Ledger) (f : InFlight) : Pc → Prop
  | .checkValidate q => f.IsCheck q
  | .checkTenant q v => l.Validated f q v
  | .checkRemember q v tenant | .checkUnlock q v tenant _ | .checkUnlocking q v tenant _
  | .checkCreate q v tenant | .checkCreating q v tenant | .checkCache q v tenant _
  | .checkCap q v tenant => l.Validated f q v ∧ l.Names v tenant
  | .fetchCap cap =>
    f.request = .fetch (.ok cap) ∧ ∀ entry, l.caps.lookup cap = some entry →
      entry.leaseId ∈ f.closedBefore → entry.expiresAt ≤ f.arrived
  | .fetchCache entry =>
    entry.leaseId ∉ f.closedBefore ∧ ∃ cap, f.request = .fetch (.ok cap) ∧
      l.minted.lookup cap = some entry.leaseId
  | .checkMiss _ _ | .fetchEvict _ _ => True
  | .logoutTenant bearer v => f.request.Other ∧ l.Bears bearer v
  | .logoutRemember bearer v tenant | .logoutEvict bearer v tenant =>
    f.request.Other ∧ l.Bears bearer v ∧ l.Names v tenant
  | .logoutRevoke bearer v => f.request.Other ∧ l.Bears bearer v ∧ l.Evicted v.lease.id
  | _ => f.request.Other

structure Ledger.FlightInv (l : Ledger) (f : InFlight) : Prop where
  arrived : f.arrived ≤ l.now
  before : ∀ lease ∈ f.closedBefore, lease ∈ l.closed
  pc : l.PcInv f f.pc

structure Ledger.AnswerInv (l : Ledger) (a : Answer) : Prop where
  before : ∀ lease ∈ a.closedBefore, lease ∈ l.closed
  complete : a.reply.status = 200 → ∀ lease ∈ a.closedBefore, ¬ a.request.Uses l lease

/-- The invariant of guarded runs. -/
structure RevocationInv (l : Ledger) : Prop where
  indexed : l.leases.Indexed
  closed : ∀ lease ∈ l.closed, l.Dead lease
  minted : ∀ cap entry, l.caps.lookup cap = some entry →
    l.minted.lookup cap = some entry.leaseId
  keyed : ∀ cap entry, l.caps.lookup cap = some entry → l.Keyed entry
  expired : ∀ cap entry, l.caps.lookup cap = some entry → entry.leaseId ∈ l.closed →
    entry.expiresAt ≤ l.now
  flights : ∀ r f, l.inFlight.lookup r = some f → l.FlightInv f
  answers : ∀ r a, l.answers.lookup r = some a → l.AnswerInv a

variable {l l' : Ledger}

/-- What the guard lets a check insert: a cap of a lease that is open and that no
    logout has evicted the caps of. -/
structure Ledger.Inserts (l : Ledger) (entry : CapEntry) : Prop where
  isOpen : entry.leaseId ∉ l.closed
  unevicted : ∀ r f, l.inFlight.lookup r = some f → f.hasEvicted entry.leaseId = false
  keyed : l.Keyed entry

/-- What every step does to what a request relies on. -/
structure Ledger.Later (l l' : Ledger) : Prop where
  now : l.now ≤ l'.now
  tenants : l'.tenants = l.tenants
  leases : l.leases.Keeps l'.leases l.now
  closed : ∀ lease ∈ l.closed, lease ∈ l'.closed
  mintedKept : ∀ cap lease, l.minted.lookup cap = some lease → l'.minted.lookup cap = some lease
  mintedOld : ∀ cap lease, l'.minted.lookup cap = some lease → lease ∈ l.closed →
    l.minted.lookup cap = some lease
  caps : ∀ cap entry, l'.caps.lookup cap = some entry →
    l.caps.lookup cap = some entry ∨ l.Inserts entry

theorem Ledger.Dead.later {lease : LeaseId} (hdead : l.Dead lease) (h : l.Later l') :
    l'.Dead lease := by
  obtain ⟨row, hlook, hrow⟩ := hdead
  obtain ⟨row', hlook', -, hrow'⟩ := h.leases lease row hlook
  exact ⟨row', hlook', LeaseRow.dead_mono h.now (hrow' hrow)⟩

theorem Ledger.Bears.later {bearer : Bearer} {v : ValidatedLease} (hv : l.Bears bearer v)
    (h : l.Later l') : l'.Bears bearer v := by
  obtain ⟨row, hlook, hhash, htenant⟩ := hv
  obtain ⟨row', hlook', hsame, -⟩ := h.leases _ row hlook
  exact ⟨row', hlook', hsame.bearerHash.trans hhash, hsame.tenantId.trans htenant⟩

theorem Ledger.Validated.later {f : InFlight} {q : LeasePath} {v : ValidatedLease}
    (hv : l.Validated f q v) (h : l.Later l') : l'.Validated f q v := by
  obtain ⟨hcheck, hopen, hbears⟩ := hv
  exact ⟨hcheck, hopen, hbears.later h⟩

theorem Ledger.Names.later {v : ValidatedLease} {tenant : String} (hv : l.Names v tenant)
    (h : l.Later l') : l'.Names v tenant := by
  rw [Ledger.Names, h.tenants]
  exact hv

theorem Ledger.Keyed.later {entry : CapEntry} (hkeyed : l.Keyed entry) (h : l.Later l') :
    l'.Keyed entry := by
  obtain ⟨row, tenant, hlook, htenant, hkey⟩ := hkeyed
  obtain ⟨row', hlook', hsame, -⟩ := h.leases _ row hlook
  refine ⟨row', tenant, hlook', ?_, ?_⟩
  · rw [h.tenants, hsame.tenantId]
    exact htenant
  · rw [hsame.bearerHash]
    exact hkey

/-- A request that uses a closed lease later on used it before. -/
theorem Ledger.Later.uses (h : l.Later l') (inv : RevocationInv l) {lease : LeaseId}
    (hclosed : lease ∈ l.closed) {request : Request} (huses : request.Uses l' lease) :
    request.Uses l lease := by
  cases request with
  | check path cap =>
    obtain ⟨row', bearer, hlook', hbearer, hhash⟩ := huses
    obtain ⟨row, hlook, -⟩ := inv.closed lease hclosed
    obtain ⟨row'', hlook'', hsame, -⟩ := h.leases lease row hlook
    rw [hlook'] at hlook''
    cases hlook''
    exact ⟨row, bearer, hlook, hbearer, hsame.bearerHash.symm.trans hhash⟩
  | fetch cap =>
    cases cap with
    | error code => exact huses
    | ok cap => exact h.mintedOld cap lease huses hclosed
  | _ => exact huses

theorem Ledger.FlightInv.later {r : Nat} {f : InFlight} (hf : l.FlightInv f) (h : l.Later l')
    (hlook : l.inFlight.lookup r = some f) : l'.FlightInv f where
  arrived := le_trans hf.arrived h.now
  before lease hmem := h.closed lease (hf.before lease hmem)
  pc := by
    have hpc := hf.pc
    cases hcase : f.pc with
    | checkTenant =>
      rw [hcase] at hpc
      exact Ledger.Validated.later hpc h
    | checkRemember | checkUnlock | checkUnlocking | checkCreate | checkCreating | checkCache
    | checkCap =>
      rw [hcase] at hpc
      exact ⟨hpc.1.later h, hpc.2.later h⟩
    | fetchCap cap =>
      rw [hcase] at hpc
      refine ⟨hpc.1, fun entry hentry hmem => ?_⟩
      rcases h.caps cap entry hentry with hold | hnew
      · exact hpc.2 entry hold hmem
      · exact absurd (hf.before _ hmem) hnew.isOpen
    | fetchCache entry =>
      rw [hcase] at hpc
      obtain ⟨hopen, cap, hrequest, hminted⟩ := hpc
      exact ⟨hopen, cap, hrequest, h.mintedKept cap _ hminted⟩
    | logoutTenant =>
      rw [hcase] at hpc
      exact ⟨hpc.1, hpc.2.later h⟩
    | logoutRemember | logoutEvict =>
      rw [hcase] at hpc
      exact ⟨hpc.1, hpc.2.1.later h, hpc.2.2.later h⟩
    | logoutRevoke bearer v =>
      rw [hcase] at hpc
      refine ⟨hpc.1, hpc.2.1.later h, fun cap entry hentry heq => ?_⟩
      rcases h.caps cap entry hentry with hold | hnew
      · exact hpc.2.2 cap entry hold heq
      · -- the guard keeps checks from inserting behind this logout's eviction
        have hnone := hnew.unevicted r f hlook
        rw [InFlight.hasEvicted, hcase] at hnone
        exact of_decide_eq_false hnone heq.symm
    | _ => rw [hcase] at hpc; exact hpc

theorem Ledger.AnswerInv.later {a : Answer} (ha : l.AnswerInv a) (inv : RevocationInv l)
    (h : l.Later l') : l'.AnswerInv a where
  before lease hmem := h.closed lease (ha.before lease hmem)
  complete hok lease hmem huses :=
    ha.complete hok lease hmem (h.uses inv (ha.before lease hmem) huses)

/-- **Tables change**: the invariant survives a change of the tables under which
    newly closed leases are dead and have no live caps. -/
theorem RevocationInv.later (inv : RevocationInv l) (h : l.Later l')
    (hindexed : l'.leases.Indexed)
    (hclosed : ∀ lease ∈ l'.closed, lease ∈ l.closed ∨ l'.Dead lease ∧
      ∀ cap entry, l'.caps.lookup cap = some entry → entry.leaseId = lease →
        entry.expiresAt ≤ l'.now)
    (hminted : ∀ cap entry, l'.caps.lookup cap = some entry →
      l'.minted.lookup cap = some entry.leaseId)
    (hflights : l'.inFlight = l.inFlight) (hanswers : l'.answers = l.answers) :
    RevocationInv l' where
  indexed := hindexed
  closed lease hmem := by
    rcases hclosed lease hmem with hold | ⟨hdead, -⟩
    · exact (inv.closed lease hold).later h
    · exact hdead
  minted := hminted
  keyed cap entry hlook := by
    rcases h.caps cap entry hlook with hold | hnew
    · exact (inv.keyed cap entry hold).later h
    · exact hnew.keyed.later h
  expired cap entry hlook hmem := by
    rcases hclosed _ hmem with hold | ⟨-, hcaps⟩
    · rcases h.caps cap entry hlook with hcap | hnew
      · exact le_trans (inv.expired cap entry hcap hold) h.now
      · exact absurd hold hnew.isOpen
    · exact hcaps cap entry hlook rfl
  flights r f hlook := by
    rw [hflights] at hlook
    exact (inv.flights r f hlook).later h hlook
  answers r a hlook := by
    rw [hanswers] at hlook
    exact (inv.answers r a hlook).later inv h

-- ════════════════════════════════════════════════════════════════════════
-- Changes of one table
-- ════════════════════════════════════════════════════════════════════════

/-- The lease table changes. -/
theorem RevocationInv.setLeases {leases : LeaseStore} (inv : RevocationInv l)
    (h : l.leases.Keeps leases l.now ∧ leases.Indexed) :
    RevocationInv { l with leases := leases } := by
  refine inv.later ⟨le_rfl, rfl, h.1, fun _ hmem => hmem, fun _ _ hm => hm, fun _ _ hm _ => hm,
    fun _ _ hc => Or.inl hc⟩ h.2 (fun _ hmem => Or.inl hmem) inv.minted rfl rfl

/-- Caps are evicted. -/
theorem RevocationInv.evict {caps : CapMap} (inv : RevocationInv l)
    (h : ∀ cap entry, caps.lookup cap = some entry → l.caps.lookup cap = some entry) :
    RevocationInv { l with caps := caps } :=
  inv.later ⟨le_rfl, rfl, .refl _ _, fun _ hmem => hmem, fun _ _ hm => hm, fun _ _ hm _ => hm,
    fun cap entry hc => Or.inl (h cap entry hc)⟩ inv.indexed (fun _ hmem => Or.inl hmem)
    (fun cap entry hc => inv.minted cap entry (h cap entry hc)) rfl rfl

theorem RevocationInv.retain (inv : RevocationInv l) (p : CapId → CapEntry → Bool) :
    RevocationInv { l with caps := l.caps.retain p } :=
  inv.evict fun cap entry hlook => ((FiniteMap.lookup_retain_eq_some p l.caps cap entry).mp hlook).1

theorem RevocationInv.evictCacheKey {s : Broker} (inv : RevocationInv s.ledger) (key : CacheKey) :
    RevocationInv { s with caps := s.caps.evictCapsForCacheKey key }.ledger :=
  inv.retain fun _ entry => entry.cacheKey ≠ key

/-- A cap of an open lease is minted. -/
theorem RevocationInv.mint {cap : CapId} {entry : CapEntry} (inv : RevocationInv l)
    (hfresh : l.minted.lookup cap = none) (hinserts : l.Inserts entry) :
    RevocationInv { l with
      caps := l.caps.insert cap entry, minted := l.minted.insert cap entry.leaseId } := by
  refine inv.later ⟨le_rfl, rfl, .refl _ _, fun _ hmem => hmem, fun other lease hm => ?_,
    fun other lease hm hmem => ?_, fun other e hc => ?_⟩ inv.indexed
    (fun _ hmem => Or.inl hmem) (fun other e hc => ?_) rfl rfl
  · show (l.minted.insert cap entry.leaseId).lookup other = some lease
    rw [FiniteMap.lookup_insert_ite, if_neg]
    · exact hm
    · rintro rfl
      rw [hfresh] at hm
      cases hm
  · have hm' : (l.minted.insert cap entry.leaseId).lookup other = some lease := hm
    rw [FiniteMap.lookup_insert_ite] at hm'
    split at hm'
    next => cases hm'; exact absurd hmem hinserts.isOpen
    next => exact hm'
  · have hc' : (l.caps.insert cap entry).lookup other = some e := hc
    rw [FiniteMap.lookup_insert_ite] at hc'
    split at hc'
    next => cases hc'; exact Or.inr hinserts
    next => exact Or.inl hc'
  · have hc' : (l.caps.insert cap entry).lookup other = some e := hc
    show (l.minted.insert cap entry.leaseId).lookup other = some e.leaseId
    rw [FiniteMap.lookup_insert_ite] at hc' ⊢
    split at hc'
    next heq => cases hc'; rw [if_pos heq]
    next hne => rw [if_neg hne]; exact inv.minted other e hc'

/-- A lease is closed. -/
theorem RevocationInv.close {closed : List LeaseId} (inv : RevocationInv l)
    (h : ∀ lease ∈ closed, l.Dead lease ∧
      ∀ cap entry, l.caps.lookup cap = some entry → entry.leaseId = lease →
        entry.expiresAt ≤ l.now) :
    RevocationInv { l with closed := closed ++ l.closed } := by
  refine inv.later ⟨le_rfl, rfl, .refl _ _, fun _ hmem => List.mem_append_right _ hmem,
    fun _ _ hm => hm, fun _ _ hm _ => hm, fun _ _ hc => Or.inl hc⟩ inv.indexed
    (fun lease hmem => ?_) inv.minted rfl rfl
  rcases List.mem_append.mp hmem with hnew | hold
  · exact Or.inr (h lease hnew)
  · exact Or.inl hold

theorem RevocationInv.tick (inv : RevocationInv l) (elapsed : Nat) :
    RevocationInv { l with now := l.now + elapsed } :=
  inv.later ⟨Nat.le_add_right _ _, rfl, .refl _ _, fun _ hmem => hmem, fun _ _ hm => hm,
    fun _ _ hm _ => hm, fun _ _ hc => Or.inl hc⟩ inv.indexed (fun _ hmem => Or.inl hmem)
    inv.minted rfl rfl

/-- A request moves. -/
theorem RevocationInv.setFlight {r : Nat} {f : InFlight} (inv : RevocationInv l)
    (hf : l.FlightInv f) : RevocationInv { l with inFlight := l.inFlight.insert r f } where
  indexed := inv.indexed
  closed := inv.closed
  minted := inv.minted
  keyed := inv.keyed
  expired := inv.expired
  flights r' f' hlook := by
    have hlook' : (l.inFlight.insert r f).lookup r' = some f' := hlook
    rw [FiniteMap.lookup_insert_ite] at hlook'
    split at hlook'
    next => cases hlook'; exact ⟨hf.arrived, hf.before, hf.pc⟩
    next =>
      have hold := inv.flights r' f' hlook'
      exact ⟨hold.arrived, hold.before, hold.pc⟩
  answers r' a hlook := ⟨(inv.answers r' a hlook).before, (inv.answers r' a hlook).complete⟩

/-- A request is dropped. -/
theorem RevocationInv.dropFlight (inv : RevocationInv l) (r : Nat) :
    RevocationInv { l with inFlight := l.inFlight.erase r } where
  indexed := inv.indexed
  closed := inv.closed
  minted := inv.minted
  keyed := inv.keyed
  expired := inv.expired
  flights r' f' hlook := by
    have hlook' : (l.inFlight.erase r).lookup r' = some f' := hlook
    rw [FiniteMap.lookup_erase_ite] at hlook'
    split at hlook'
    next => cases hlook'
    next =>
      have hold := inv.flights r' f' hlook'
      exact ⟨hold.arrived, hold.before, hold.pc⟩
  answers r' a hlook := ⟨(inv.answers r' a hlook).before, (inv.answers r' a hlook).complete⟩

/-- A request is answered. -/
theorem RevocationInv.setAnswer {r : Nat} {a : Answer} (inv : RevocationInv l)
    (ha : l.AnswerInv a) : RevocationInv { l with answers := l.answers.insert r a } where
  indexed := inv.indexed
  closed := inv.closed
  minted := inv.minted
  keyed := inv.keyed
  expired := inv.expired
  flights r' f' hlook :=
    ⟨(inv.flights r' f' hlook).arrived, (inv.flights r' f' hlook).before,
      (inv.flights r' f' hlook).pc⟩
  answers r' a' hlook := by
    have hlook' : (l.answers.insert r a).lookup r' = some a' := hlook
    rw [FiniteMap.lookup_insert_ite] at hlook'
    split at hlook'
    next => cases hlook'; exact ⟨ha.before, ha.complete⟩
    next => exact ⟨(inv.answers r' a' hlook').before, (inv.answers r' a' hlook').complete⟩

-- ════════════════════════════════════════════════════════════════════════
-- Steps
-- ════════════════════════════════════════════════════════════════════════

variable {hkdf : Bytes → Bytes → UInt8 → Bytes} {s s' : Broker} {r : Nat} {f : InFlight}
  {choice : Choice} {pc : Pc}

theorem RevocationInv.advance (inv : RevocationInv s.ledger)
    (hlook : s.inFlight.lookup r = some f)
    (hpc : s.ledger.PcInv { f with pc := pc } pc) : RevocationInv (s.advance r f pc).ledger := by
  have hf := inv.flights r f hlook
  exact inv.setFlight ⟨hf.arrived, hf.before, hpc⟩

theorem RevocationInv.answerUnder {lease : Option LeaseId} {vaultError : Option VaultError}
    {reply : Reply} (inv : RevocationInv s.ledger) (hlook : s.inFlight.lookup r = some f)
    (hok : reply.status = 200 → ∀ lease ∈ f.closedBefore, ¬ f.request.Uses s.ledger lease) :
    RevocationInv (s.answerUnder r f lease vaultError reply).ledger := by
  have hf := inv.flights r f hlook
  exact (inv.dropFlight r).setAnswer ⟨hf.before, hok⟩

/-- A request is refused. -/
theorem RevocationInv.refuse {lease : Option LeaseId} {vaultError : Option VaultError}
    {reply : Reply} (inv : RevocationInv s.ledger) (hlook : s.inFlight.lookup r = some f)
    (hstatus : reply.status ≠ 200) :
    RevocationInv (s.answerUnder r f lease vaultError reply).ledger :=
  inv.answerUnder hlook fun hok => absurd hok hstatus

/-- A request that is neither a check nor a fetch is answered. -/
theorem RevocationInv.answerOther {lease : Option LeaseId} {vaultError : Option VaultError}
    {reply : Reply} (inv : RevocationInv s.ledger) (hlook : s.inFlight.lookup r = some f)
    (hother : f.request.Other) :
    RevocationInv (s.answerUnder r f lease vaultError reply).ledger :=
  inv.answerUnder hlook fun _ lease _ => hother.not_uses _ lease

theorem flight_of_ledger (hsame : s'.ledger = s.ledger) (hlook : s.inFlight.lookup r = some f) :
    s'.inFlight.lookup r = some f := by
  have hflights : s'.inFlight = s.inFlight := congrArg Ledger.inFlight hsame
  rw [hflights]
  exact hlook

theorem ledger_startCall {tenant : String} {h : Nat} {fresh : Bool} {c : Call}
    (hstart : s.startCall hkdf tenant h fresh c = some s') : s'.ledger = s.ledger := by
  obtain ⟨root, -, rfl⟩ := Option.map_eq_some_iff.mp hstart
  rfl

theorem ledger_insideCall {tenant : String} {h : Nat} {c : Call}
    (hinside : s.insideCall hkdf tenant h c = some s') : s'.ledger = s.ledger := by
  unfold Broker.insideCall at hinside
  split at hinside
  next => obtain ⟨root, -, rfl⟩ := Option.map_eq_some_iff.mp hinside; rfl
  next => cases hinside

/-- A check that has validated its lease does not use one that was closed before
    it arrived. -/
theorem Ledger.Validated.not_uses {q : LeasePath} {v : ValidatedLease}
    (hv : s.ledger.Validated f q v) (inv : RevocationInv s.ledger) :
    ∀ lease ∈ f.closedBefore, ¬ f.request.Uses s.ledger lease := by
  intro lease hmem huses
  obtain ⟨⟨path, cap, hrequest, hbearer⟩, hopen, row, hlook, hhash, -⟩ := hv
  rw [hrequest] at huses
  obtain ⟨row', bearer, hlook', hbearer', hhash'⟩ := huses
  rw [hbearer] at hbearer'
  cases hbearer'
  have heq := inv.indexed.unique _ _ row' row hlook' hlook (hhash'.trans hhash.symm)
  exact hopen (heq ▸ hmem)

/-- The rows after a validation. -/
theorem RevocationInv.validate {bearer : Bearer} {leases : LeaseStore}
    {result : Except ValidationError (Option ValidatedLease)} (inv : RevocationInv s.ledger)
    (hresult : s.leases.validateAndExtend bearer s.now = (result, leases)) :
    RevocationInv { s with leases := leases }.ledger := by
  have hkeeps := @LeaseStore.validateAndExtend_keeps s.leases s.now bearer inv.indexed
  rw [hresult] at hkeeps
  exact inv.setLeases hkeeps

/-- A validated lease is open, and bears the bearer. -/
theorem RevocationInv.validated {bearer : Bearer} {leases : LeaseStore} {v : ValidatedLease}
    (inv : RevocationInv s.ledger)
    (hresult : s.leases.validateAndExtend bearer s.now = (.ok (some v), leases)) :
    v.lease.id ∉ s.closed ∧ { s with leases := leases }.ledger.Bears bearer v := by
  rcases @LeaseStore.validateAndExtend_cases s.leases s.now bearer inv.indexed with
    ⟨row, hrow, hhash, hlive, heq⟩ | ⟨hnone, -⟩
  · rw [hresult] at heq
    simp only [Prod.mk.injEq, Except.ok.injEq, Option.some.injEq] at heq
    obtain ⟨rfl, rfl⟩ := heq
    have hsame := row.same_extend s.now
    refine ⟨fun hmem => ?_, row.extend s.now, ?_, hsame.bearerHash.trans hhash, rfl⟩
    · obtain ⟨row', hrow', hdead⟩ := inv.closed _ hmem
      rw [hsame.id] at hrow'
      have hrow'' : s.leases.lookup row.id = some row' := hrow'
      rw [hrow] at hrow''
      cases hrow''
      have hdead' : row.dead s.now = true := hdead
      rw [hlive] at hdead'
      cases hdead'
    · show (s.leases.insert row.id (row.extend s.now)).lookup (row.extend s.now).id = _
      rw [hsame.id]
      exact AList.lookup_insert s.leases
  · exact absurd (by rw [hresult]) (hnone v)

/-- The cap that a check inserts lies under the cache key of its lease. -/
theorem Ledger.Validated.keyed {q : LeasePath} {v : ValidatedLease} {tenant : String} {now : Nat}
    (hv : l.Validated f q v) (hnamed : l.Names v tenant) :
    l.Keyed (mintCapValue ⟨tenant, q.bearer.encode⟩ q.namesp q.plugin v.lease.id now) := by
  obtain ⟨-, -, row, hlook, hhash, htenant⟩ := hv
  refine ⟨row, tenant, hlook, ?_, ?_⟩
  · rw [htenant]
    exact hnamed
  · rw [hhash]
    rfl

/-- Eviction by the cache key of a lease removes every cap of the lease. -/
theorem RevocationInv.evicted {bearer : Bearer} {v : ValidatedLease} {tenant : String}
    (inv : RevocationInv s.ledger) (hbears : s.ledger.Bears bearer v)
    (hnamed : s.ledger.Names v tenant) :
    { s with caps := s.caps.evictCapsForCacheKey ⟨tenant, bearer.encode⟩ }.ledger.Evicted
      v.lease.id := by
  intro cap entry hcap heq
  obtain ⟨hold, hkept⟩ := (FiniteMap.lookup_retain_eq_some _ _ _ _).mp hcap
  obtain ⟨row, name, hrow, hname, hkey⟩ := inv.keyed cap entry hold
  obtain ⟨row', hrow', hhash, htenant⟩ := hbears
  rw [heq, hrow'] at hrow
  obtain rfl := Option.some_inj.mp hrow
  rw [htenant] at hname
  obtain rfl := Option.some_inj.mp (hname.symm.trans hnamed)
  rw [hhash] at hkey
  exact of_decide_eq_true hkept hkey

theorem Broker.loggingOut_eq_false (s : Broker) {lease : LeaseId} :
    s.loggingOut lease = false ↔
      ∀ r f, s.inFlight.lookup r = some f → f.hasEvicted lease = false := by
  simp only [Broker.loggingOut, Bool.not_eq_false', FiniteMap.all_eq_true_iff, Bool.not_eq_true']

theorem revocationInv_checkStep (inv : RevocationInv s.ledger)
    (hlook : s.inFlight.lookup r = some f) (hpc : f.pc = pc)
    (hguard : stepGuard s choice pc = true)
    (hstep : s.checkStep hkdf r f choice pc = some s') : RevocationInv s'.ledger := by
  have hf : s.ledger.PcInv f pc := hpc ▸ (inv.flights r f hlook).pc
  revert hstep hguard
  fun_cases Broker.checkStep hkdf s r f choice pc <;> intro hguard hstep
  all_goals try cases hstep
  · -- checkValidate, the store fails
    exact inv.refuse hlook (by simp [Reply.status])
  · -- checkValidate, a live lease
    rename_i hresult
    obtain ⟨hopen, hbears⟩ := inv.validated hresult
    have hbefore := (inv.flights r f hlook).before
    exact (inv.validate hresult).advance hlook ⟨hf, fun hmem => hopen (hbefore _ hmem), hbears⟩
  · -- checkValidate, no such lease
    rename_i hresult
    exact (inv.validate hresult).advance hlook trivial
  · rename_i hresult
    exact (inv.validate hresult).refuse hlook (by simp [Reply.status])
  · -- checkValidate, expired
    rename_i hresult
    exact (inv.validate hresult).refuse hlook (by simp [Reply.status])
  · -- checkValidate, revoked
    rename_i hresult
    exact (inv.validate hresult).refuse hlook (by simp [Reply.status])
  · rename_i hresult
    exact (inv.validate hresult).refuse hlook (by simp [Reply.status])
  · -- checkMiss
    exact (inv.evictCacheKey _).refuse hlook (by simp [Reply.status])
  · -- checkTenant, the store fails
    exact inv.refuse hlook (by simp [Reply.status])
  · exact inv.refuse hlook (by simp [Reply.status])
  · exact inv.refuse hlook (by simp [Reply.status])
  · -- checkTenant
    rename_i hname _
    exact inv.advance hlook ⟨hf, hname⟩
  · -- checkRemember
    exact RevocationInv.advance (s := s.remember _ _) inv hlook hf
  · -- checkUnlock, the file read fails
    exact inv.refuse hlook (by simp [Reply.status])
  · -- checkUnlock
    obtain ⟨s₁, hstart, rfl⟩ := Option.map_eq_some_iff.mp hstep
    have hsame := ledger_startCall hstart
    exact RevocationInv.advance (hsame ▸ inv) (flight_of_ledger hsame hlook) (hsame ▸ hf)
  · -- checkUnlocking, inside the call
    exact ledger_insideCall hstep ▸ inv
  · -- checkUnlocking
    obtain ⟨⟨hd, outcome⟩, -, hout⟩ := Option.bind_eq_some_iff.mp hstep
    cases outcome with
    | ok =>
      obtain ⟨u, -, rfl⟩ := Option.map_eq_some_iff.mp hout
      exact inv.advance hlook hf
    | error err =>
      simp only at hout
      split at hout <;> cases hout
      · exact inv.advance hlook hf
      · exact inv.refuse hlook (by simp [Reply.status])
  · -- checkCreate
    obtain ⟨root, -, rfl⟩ := Option.map_eq_some_iff.mp hstep
    exact RevocationInv.advance (s := s.setVault _ root) inv hlook hf
  · -- checkCreating, inside the call
    obtain ⟨s₁, hinside, rfl⟩ := Option.map_eq_some_iff.mp hstep
    have hsame := ledger_insideCall hinside
    split
    · exact hsame ▸ inv
    · show RevocationInv s₁.ledger
      exact hsame ▸ inv
  · -- checkCreating
    obtain ⟨⟨hd, outcome⟩, -, rfl⟩ := Option.map_eq_some_iff.mp hstep
    cases outcome with
    | ok => exact inv.advance hlook hf
    | error err => exact inv.refuse hlook (by simp [Reply.status])
  · -- checkCache
    exact RevocationInv.advance (s := { s with cache := _ }) inv hlook hf
  · -- checkCap
    rename_i cap q v tenant hfresh entry
    obtain ⟨hv, hnamed⟩ : s.ledger.Validated f q v ∧ s.ledger.Names v tenant := hf
    have hguard' : (!s.closed.contains v.lease.id && !s.loggingOut v.lease.id) = true := hguard
    rw [Bool.and_eq_true, Bool.not_eq_true', Bool.not_eq_true'] at hguard'
    have hopen : v.lease.id ∉ s.closed := by simpa using hguard'.1
    have hinserts : s.ledger.Inserts entry :=
      ⟨hopen, s.loggingOut_eq_false.mp hguard'.2, hv.keyed hnamed⟩
    have hminted : s.minted.lookup cap = none := by simpa using hfresh
    have inv₁ : RevocationInv { s with
        caps := s.caps.insert cap entry
        minted := s.minted.insert cap v.lease.id }.ledger := inv.mint hminted hinserts
    refine inv₁.answerUnder hlook fun _ lease hmem huses => ?_
    -- minting a cap changes nothing for a request that carries a bearer
    refine hv.not_uses inv lease hmem ?_
    obtain ⟨⟨path, cap', hrequest, -⟩, -⟩ := hv
    rw [hrequest] at huses ⊢
    exact huses

theorem Broker.capsExpired_iff {lease : LeaseId} : s.capsExpired lease = true ↔
    ∀ cap entry, s.caps.lookup cap = some entry → entry.leaseId = lease →
      entry.expiresAt ≤ s.now := by
  simp only [Broker.capsExpired, FiniteMap.all_eq_true_iff, Bool.or_eq_true, decide_eq_true_eq,
    CapEntry.isExpired]
  exact forall₃_congr fun _ _ _ => by rw [ne_eq, Classical.or_iff_not_imp_left, not_not]

/-- The lease of a bearer is closed: it is dead and has no live caps. -/
theorem RevocationInv.closeBearer {row : Option LeaseRow} (inv : RevocationInv s.ledger)
    (hrow : ∀ found, row = some found → s.leases.lookup found.id = some found)
    (hdead : ∀ found, row = some found → found.dead s.now = true)
    (hcaps : ∀ found, row = some found → s.capsExpired found.id = true) :
    RevocationInv (s.close row).ledger := by
  refine inv.close fun lease hmem => ?_
  obtain ⟨found, rfl, rfl⟩ : ∃ found, row = some found ∧ found.id = lease := by
    cases row with
    | none => cases hmem
    | some found => exact ⟨found, rfl, (List.mem_singleton.mp hmem).symm⟩
  exact ⟨⟨found, hrow found rfl, hdead found rfl⟩,
    Broker.capsExpired_iff.mp (hcaps found rfl)⟩

theorem RevocationInv.closeQuiet {bearer : Bearer} (inv : RevocationInv s.ledger)
    (hquiet : s.quiet bearer = true) :
    RevocationInv (s.close (s.leases.findByHash bearer.hash)).ledger := by
  have hboth : ∀ row, s.leases.findByHash bearer.hash = some row →
      row.dead s.now = true ∧ s.capsExpired row.id = true := by
    intro row hfind
    have hrow := hquiet
    rw [Broker.quiet, hfind] at hrow
    exact (Bool.and_eq_true _ _).mp hrow
  exact inv.closeBearer (fun row hfind => (LeaseStore.findByHash_eq_some hfind inv.indexed).1)
    (fun row hfind => (hboth row hfind).1) fun row hfind => (hboth row hfind).2

theorem revocationInv_logoutStep (inv : RevocationInv s.ledger)
    (hlook : s.inFlight.lookup r = some f) (hpc : f.pc = pc)
    (hguard : stepGuard s choice pc = true)
    (hstep : s.logoutStep r f choice pc = some s') : RevocationInv s'.ledger := by
  have hf : s.ledger.PcInv f pc := hpc ▸ (inv.flights r f hlook).pc
  revert hstep hguard
  fun_cases Broker.logoutStep s r f choice pc <;> intro hguard hstep
  all_goals try cases hstep
  · -- logoutValidate, the store fails
    exact (inv.closeQuiet hguard).refuse hlook (by simp [Reply.status])
  · -- logoutTenant, the store fails
    exact (inv.closeQuiet hguard).refuse hlook (by simp [Reply.status])
  · -- logoutValidate
    rename_i hresult
    exact (inv.validate hresult).advance hlook ⟨hf, (inv.validated hresult).2⟩
  · -- logoutValidate, no live lease
    rename_i bearer result leases hresult _ hnone
    rcases @LeaseStore.validateAndExtend_cases s.leases s.now bearer inv.indexed with
      ⟨row, -, -, -, heq⟩ | ⟨-, hsame, hdead⟩
    · rw [hresult] at heq
      exact (hnone _ (congrArg Prod.fst heq)).elim
    · rw [hresult] at hsame
      have hsame' : leases = s.leases := hsame
      subst hsame'
      refine RevocationInv.refuse (s := s.close _) (inv.closeQuiet ?_) hlook (by simp [Reply.status])
      cases hfind : s.leases.findByHash bearer.hash with
      | none => rw [Broker.quiet, hfind]; rfl
      | some row =>
        have hrow : stepGuard s .ok (.logoutValidate bearer) = true := hguard
        simp only [stepGuard, hfind, Option.all_some, hdead row hfind, Bool.not_true,
          Bool.false_or] at hrow
        rw [Broker.quiet, hfind, Option.all_some, hdead row hfind, hrow]
        rfl
  · -- logoutTenant, no such tenant
    rename_i bearer v hnone
    have hquiet : s.quiet bearer = true := by simpa [stepGuard, hnone] using hguard
    exact (inv.closeQuiet hquiet).refuse hlook (by simp [Reply.status])
  · -- logoutTenant
    rename_i hname
    exact inv.advance hlook ⟨hf.1, hf.2, hname⟩
  · -- logoutRemember
    exact RevocationInv.advance (s := s.remember _ _) inv hlook hf
  · -- logoutEvict
    exact (inv.evictCacheKey _).advance hlook ⟨hf.1, hf.2.1, inv.evicted hf.2.1 hf.2.2⟩
  · -- logoutRevoke, the store fails
    exact inv.refuse hlook (by simp [Reply.status])
  · -- logoutRevoke
    rename_i bearer v _
    have hfound : ∀ found, s.leases.findByHash bearer.hash = some found →
        s.leases.lookup found.id = some found := fun found hfind =>
      (LeaseStore.findByHash_eq_some hfind inv.indexed).1
    have inv₁ : RevocationInv { s with leases := (s.leases.revoke bearer.hash s.now).1 }.ledger :=
      inv.setLeases (LeaseStore.revokeRow_keeps inv.indexed hfound)
    refine RevocationInv.refuse (inv₁.closeBearer ?_ ?_ ?_) hlook (by simp [Reply.status])
    · exact fun row hfind => (LeaseStore.findByHash_eq_some hfind inv₁.indexed).1
    · exact fun row hfind => (LeaseStore.revoke_dead inv.indexed hfind).1
    · -- the caps of the lease were evicted, and none was inserted since
      intro row' hfind'
      have hindexed : s.leases.Indexed := inv.indexed
      obtain ⟨-, row, hfind, hid⟩ := LeaseStore.revoke_dead hindexed hfind'
      obtain ⟨-, ⟨row'', hrow'', hhash, -⟩, hevicted⟩ := hf
      obtain ⟨hrow, hhash'⟩ := LeaseStore.findByHash_eq_some hfind hindexed
      have heq : row.id = v.lease.id :=
        hindexed.unique _ _ row row'' hrow hrow'' (hhash'.trans hhash.symm)
      refine Broker.capsExpired_iff.mpr fun cap entry hcap hlease => ?_
      exact absurd (hlease.trans (hid.symm.trans heq)) (hevicted cap entry hcap)

theorem revocationInv_revokeStep (inv : RevocationInv s.ledger)
    (hlook : s.inFlight.lookup r = some f) (hpc : f.pc = pc)
    (hstep : s.revokeStep r f choice pc = some s') : RevocationInv s'.ledger := by
  have hf : s.ledger.PcInv f pc := hpc ▸ (inv.flights r f hlook).pc
  revert hstep
  fun_cases Broker.revokeStep s r f choice pc <;> intro hstep
  all_goals try cases hstep
  · -- revokeById, the store fails
    exact inv.refuse hlook (by simp [Reply.status])
  · -- revokeById
    rename_i id leases revoked hresult
    have hkeeps : s.leases.Keeps leases s.now ∧ leases.Indexed := by
      have hrow := @LeaseStore.revokeRow_keeps s.leases s.now (s.leases.lookup id) inv.indexed
        fun found hfound => by
          have hid : found.id = id := inv.indexed.id_eq id found hfound
          rw [hid]
          exact hfound
      rw [LeaseStore.revokeById] at hresult
      rw [hresult] at hrow
      exact hrow
    have inv₁ : RevocationInv { s with leases := leases }.ledger := inv.setLeases hkeeps
    exact inv₁.advance hlook hf
  · -- revokeEvict
    rename_i id revoked caps row
    have inv₁ : RevocationInv { s with caps := caps }.ledger :=
      inv.retain fun _ entry => entry.leaseId ≠ id
    have hother : f.request.Other := hf
    have hrow : ∀ found, row = some found →
        s.leases.lookup id = some found ∧ found.revokedAt.isSome = true := fun found hfound =>
      Option.filter_eq_some_iff.mp hfound
    have hid : ∀ found, row = some found → found.id = id := fun found hfound =>
      inv.indexed.id_eq id found (hrow found hfound).1
    refine RevocationInv.answerOther (inv₁.closeBearer ?_ ?_ ?_) hlook hother
    · intro found hfound
      rw [hid found hfound]
      exact (hrow found hfound).1
    · intro found hfound
      simp [LeaseRow.dead, (hrow found hfound).2]
    · -- the caps of the lease have just been evicted
      intro found hfound
      refine Broker.capsExpired_iff.mpr fun cap entry hcap hlease => ?_
      have hkept := ((FiniteMap.lookup_retain_eq_some _ _ _ _).mp hcap).2
      rw [hlease, hid found hfound] at hkept
      simp at hkept

theorem revocationInv_fetchStep (inv : RevocationInv s.ledger)
    (hlook : s.inFlight.lookup r = some f) (hpc : f.pc = pc)
    (hstep : s.fetchStep r f choice pc = some s') : RevocationInv s'.ledger := by
  have hf : s.ledger.PcInv f pc := hpc ▸ (inv.flights r f hlook).pc
  revert hstep
  fun_cases Broker.fetchStep s r f choice pc <;> intro hstep
  all_goals try cases hstep
  · -- fetchCap, no such cap
    exact inv.refuse hlook (by simp [Reply.status])
  · -- fetchCap, expired
    rename_i cap entry _ _
    have inv₁ : RevocationInv { s with caps := s.caps.erase cap }.ledger :=
      inv.evict fun other e he => by
        have he' : (s.caps.erase cap).lookup other = some e := he
        rw [FiniteMap.lookup_erase_ite] at he'
        split at he'
        next => cases he'
        next => exact he'
    exact inv₁.refuse hlook (by simp [Reply.status])
  · -- fetchCap
    rename_i cap entry hentry hlive
    obtain ⟨hrequest, hexpired⟩ := hf
    refine inv.advance hlook ⟨fun hmem => hlive ?_, cap, hrequest, inv.minted cap entry hentry⟩
    exact decide_eq_true (hexpired entry hentry hmem)
  · exact inv.advance hlook trivial
  · exact RevocationInv.advance (s := { s with cache := _ }) inv hlook trivial
  · exact inv.advance hlook trivial
  · exact inv.advance hlook trivial
  · -- fetchCache, the vault opens
    obtain ⟨hopen, cap, hrequest, hminted⟩ := hf
    refine inv.answerUnder hlook fun _ lease hmem huses => ?_
    rw [hrequest] at huses
    have heq : some _ = some lease := hminted.symm.trans huses
    cases heq
    exact hopen hmem
  · -- fetchEvict
    exact (inv.evictCacheKey _).refuse hlook (by simp [Reply.status])

theorem ledger_exportKey? {lease : LeaseId} {key : Option Bytes}
    (hkey : s.exportKey? lease = (key, s')) : s'.ledger = s.ledger := by
  unfold Broker.exportKey? at hkey
  split at hkey
  next => cases hkey; rfl
  next =>
    split at hkey
    next => cases hkey; rfl
    next => cases hkey; rfl

theorem ledger_keepWritten (s : Broker) (job : WriteJob) :
    (s.keepWritten job).ledger = s.ledger := by
  unfold Broker.keepWritten
  split <;> rfl

theorem revocationInv_writeStep (inv : RevocationInv s.ledger)
    (hlook : s.inFlight.lookup r = some f) (hpc : f.pc = pc)
    (hstep : s.writeStep hkdf r f choice pc = some s') : RevocationInv s'.ledger := by
  have hf : s.ledger.PcInv f pc := hpc ▸ (inv.flights r f hlook).pc
  revert hstep
  fun_cases Broker.writeStep hkdf s r f choice pc <;> intro hstep
  all_goals try cases hstep
  · exact inv.answerOther hlook hf
  · exact inv.answerOther hlook hf
  · exact inv.answerOther hlook hf
  · exact inv.advance hlook hf
  · exact inv.answerOther hlook hf
  · -- writeLease
    obtain ⟨row, -, hout⟩ := Option.bind_eq_some_iff.mp hstep
    split at hout <;> cases hout
    exact inv.advance hlook hf
  · -- writeKey, no export key
    rename_i hkey
    have hsame := ledger_exportKey? hkey
    exact RevocationInv.answerOther (hsame ▸ inv) (flight_of_ledger hsame hlook) hf
  · -- writeKey, a bad request
    rename_i hkey _ _
    have hsame := ledger_exportKey? hkey
    exact RevocationInv.answerOther (hsame ▸ inv) (flight_of_ledger hsame hlook) hf
  · -- writeKey
    rename_i hkey _ _ _
    have hsame := ledger_exportKey? hkey
    exact RevocationInv.advance (hsame ▸ inv) (flight_of_ledger hsame hlook) hf
  · exact RevocationInv.advance (s := { s with writeLocks := _ }) inv hlook hf
  · exact RevocationInv.answerOther (s := s.unlockTenant _) inv hlook hf
  · -- writeUnlock
    obtain ⟨s₁, hstart, rfl⟩ := Option.map_eq_some_iff.mp hstep
    have hsame := ledger_startCall hstart
    exact RevocationInv.advance (hsame ▸ inv) (flight_of_ledger hsame hlook) hf
  · exact ledger_insideCall hstep ▸ inv
  · -- writeUnlocking
    obtain ⟨⟨hd, outcome⟩, -, rfl⟩ := Option.map_eq_some_iff.mp hstep
    cases outcome with
    | ok => exact inv.advance hlook hf
    | error err => exact RevocationInv.answerOther (s := s.unlockTenant _) inv hlook hf
  · -- writePut
    obtain ⟨hd, -, hout⟩ := Option.bind_eq_some_iff.mp hstep
    obtain ⟨u, -, hout⟩ := Option.bind_eq_some_iff.mp hout
    simp only at hout
    split at hout
    next => cases hout; exact RevocationInv.answerOther (s := s.unlockTenant _) inv hlook hf
    next =>
      obtain ⟨s₁, hstart, rfl⟩ := Option.map_eq_some_iff.mp hout
      have hsame := ledger_startCall hstart
      exact RevocationInv.advance (s := { s₁ with stored := _ }) (hsame ▸ inv)
        (flight_of_ledger hsame hlook) hf
  · exact ledger_insideCall hstep ▸ inv
  · -- writePersisting
    rename_i job existed
    obtain ⟨⟨hd, outcome⟩, -, rfl⟩ := Option.map_eq_some_iff.mp hstep
    cases outcome with
    | ok =>
      have hsame := ledger_keepWritten s job
      exact RevocationInv.answerOther (s := (s.keepWritten job).unlockTenant job) (hsame ▸ inv)
        (flight_of_ledger hsame hlook) hf
    | error err => exact RevocationInv.answerOther (s := s.unlockTenant _) inv hlook hf

theorem revocationInv_loginStep (inv : RevocationInv s.ledger)
    (hlook : s.inFlight.lookup r = some f) (hpc : f.pc = pc)
    (hstep : s.loginStep r f choice pc = some s') : RevocationInv s'.ledger := by
  have hf : s.ledger.PcInv f pc := hpc ▸ (inv.flights r f hlook).pc
  revert hstep
  fun_cases Broker.loginStep s r f choice pc <;> intro hstep
  all_goals try cases hstep
  · exact inv.answerOther hlook hf
  · exact inv.answerOther hlook hf
  · -- loginInsert
    rename_i hinsert
    obtain ⟨row, -, rfl⟩ := Option.map_eq_some_iff.mp hstep
    have hkeeps := LeaseStore.insertLease_keeps inv.indexed hinsert
    exact RevocationInv.advance (s := { s with leases := _, sessionKeys := _ })
      (inv.setLeases hkeeps) hlook hf
  · exact RevocationInv.answerOther (s := s.remember _ _) inv hlook hf

theorem revocationInv_pruneStep (inv : RevocationInv s.ledger)
    (hlook : s.inFlight.lookup r = some f) (hpc : f.pc = pc)
    (hstep : s.pruneStep r f choice pc = some s') : RevocationInv s'.ledger := by
  have hf : s.ledger.PcInv f pc := hpc ▸ (inv.flights r f hlook).pc
  revert hstep
  fun_cases Broker.pruneStep s r f choice pc <;> intro hstep
  all_goals try cases hstep
  · exact RevocationInv.advance (s := { s with cache := _ }) inv hlook hf
  · rename_i evicted now
    have inv₁ : RevocationInv { s with caps := s.caps.pruneCaps evicted now }.ledger :=
      inv.retain fun _ entry => !evicted.contains entry.cacheKey && !entry.isExpired now
    exact inv₁.advance hlook hf
  · exact inv.dropFlight r

theorem revocationInv_step (inv : RevocationInv s.ledger) (hlook : s.inFlight.lookup r = some f)
    (hguard : stepGuard s choice f.pc = true) (hstep : s.step hkdf r f choice = some s') :
    RevocationInv s'.ledger := by
  unfold Broker.step at hstep
  split at hstep
  all_goals first
    | exact revocationInv_checkStep inv hlook rfl hguard hstep
    | exact revocationInv_logoutStep inv hlook rfl hguard hstep
    | exact revocationInv_revokeStep inv hlook rfl hstep
    | exact revocationInv_fetchStep inv hlook rfl hstep
    | exact revocationInv_writeStep inv hlook rfl hstep
    | exact revocationInv_loginStep inv hlook rfl hstep
    | exact revocationInv_pruneStep inv hlook rfl hstep

/-- What the first step of a request knows. -/
theorem pcInv_entry {request : Request} {adminKey : Option Token}
    (inv : RevocationInv s.ledger) (hentry : request.entry adminKey = .ok pc) :
    s.ledger.PcInv ⟨request, s.now, s.closed, pc⟩ pc := by
  cases request with
  | check path cap =>
    obtain ⟨q, rfl, hbearer⟩ := checkEntry_eq_ok hentry
    exact ⟨path, cap, rfl, hbearer⟩
  | fetch cap =>
    cases cap with
    | error code => cases hentry
    | ok cap => cases hentry; exact ⟨rfl, fun entry hlook hmem => inv.expired cap entry hlook hmem⟩
  | logout cap =>
    cases cap with
    | error code => cases hentry
    | ok token =>
      cases token with
      | none => cases hentry
      | some token =>
        simp only [Request.entry] at hentry
        split at hentry <;> cases hentry
        trivial
  | revokeLease provided id =>
    simp only [Request.entry] at hentry
    split at hentry <;> cases hentry
    trivial
  | store | deleteSecret | loginFinish | prune => cases hentry; trivial

/-- A check that is answered at once with 200 does not use a closed lease. -/
theorem not_uses_of_entry_error {request : Request} {reply : Reply}
    (inv : RevocationInv s.ledger) (hguard : arrivalGuard s request = true)
    (hentry : request.entry s.adminKey = .error reply) (hok : reply.status = 200) :
    ∀ lease ∈ s.closed, ¬ request.Uses s.ledger lease := by
  intro lease hmem huses
  cases request with
  | check path cap =>
    have hentry' : checkEntry s.adminKey path cap = .error reply := hentry
    obtain ⟨row, bearer, hlook, hbearer, hhash⟩ := huses
    simp only [arrivalGuard, hentry', hok, ne_eq, not_true_eq_false, decide_false, Bool.false_or,
      hbearer, Option.all_some] at hguard
    cases hfind : s.leases.findByHash bearer.hash with
    | none => exact LeaseStore.findByHash_eq_none hfind hlook hhash
    | some found =>
      obtain ⟨hfound, hhash'⟩ := LeaseStore.findByHash_eq_some hfind inv.indexed
      have heq := inv.indexed.unique _ _ found row hfound hlook (hhash'.trans hhash.symm)
      rw [hfind, Option.all_some, heq] at hguard
      simp [hmem] at hguard
  | fetch cap =>
    cases cap with
    | error code =>
      cases hentry
      cases hok
    | ok cap => cases hentry
  | _ => exact huses

theorem revocationInv_arrive {request : Request} (inv : RevocationInv s.ledger)
    (hguard : arrivalGuard s request = true) : RevocationInv (s.arrive request).ledger := by
  unfold Broker.arrive
  dsimp only
  split
  next reply hentry =>
    refine (inv.dropFlight s.arrivals).setAnswer ⟨fun lease hmem => hmem, fun hok => ?_⟩
    exact not_uses_of_entry_error inv hguard hentry hok
  next pc hentry => exact inv.setFlight ⟨le_rfl, fun lease hmem => hmem, pcInv_entry inv hentry⟩

theorem revocationInv_next {e : Event} (inv : RevocationInv s.ledger)
    (hguard : RevocationGuard s e) (hnext : s.next hkdf e = some s') :
    RevocationInv s'.ledger := by
  cases e with
  | tick elapsed => cases hnext; exact inv.tick elapsed
  | arrive request => cases hnext; exact revocationInv_arrive inv hguard
  | run r choice =>
    obtain ⟨f, hlook, hstep⟩ := Option.bind_eq_some_iff.mp hnext
    exact revocationInv_step inv hlook (hguard f hlook) hstep
  | drop r =>
    obtain ⟨f, -, hdrop⟩ := Option.bind_eq_some_iff.mp hnext
    split at hdrop <;> cases hdrop
    exact inv.dropFlight r

theorem revocationInv_init (adminKey : Option Token) (ttl : TtlConfig)
    (tenants : FiniteMap TenantId String) :
    RevocationInv (Broker.init adminKey ttl tenants).ledger where
  indexed := by constructor <;> intro _ _ <;> simp [Broker.init, Broker.ledger]
  closed lease hmem := by cases hmem
  minted cap entry hlook := by simp [Broker.init, Broker.ledger] at hlook
  keyed cap entry hlook := by simp [Broker.init, Broker.ledger] at hlook
  expired cap entry hlook := by simp [Broker.init, Broker.ledger] at hlook
  flights r f hlook := by simp [Broker.init, Broker.ledger] at hlook
  answers r a hlook := by simp [Broker.init, Broker.ledger] at hlook

/-- **Revocation is complete**: in every run whose steps keep it, no request that
    arrived after the revocation of a lease was answered is answered 200 by it. -/
theorem revocation_complete (hreach : (authBroker hkdf).ReachableUnder RevocationGuard s) :
    RevocationComplete s := by
  have inv : RevocationInv s.ledger := by
    refine hreach.invariant (P := fun s => RevocationInv s.ledger) ?_
      fun _ _ _ inv hguard hnext => revocationInv_next inv hguard hnext
    rintro _ ⟨adminKey, ttl, tenants, rfl⟩
    exact revocationInv_init adminKey ttl tenants
  exact fun r a hlook => (inv.answers r a hlook).complete

/-- An administrator revokes lease 105. -/
private def revokeRun (r : Nat) : List Event :=
  [.arrive (.revokeLease (some Sample.adminKey) 105), .run r .ok, .run r .ok]

/-- The reply to a request. -/
private def replyTo (s : Broker) (r : Nat) : Option Reply := (s.answers.lookup r).map (·.reply)

/-- A check is answered with a cap, its lease is revoked, and the cap and the
    bearer are tried again. -/
private def revokedRun : List Event :=
  Sample.loginRun 0 5 ++ Sample.checkHead 1 5 ++ Sample.createRun 1 ++ Sample.checkTail 1 77 ++
    revokeRun 2 ++ [.arrive (.fetch (.ok 77)), .run 3 .ok] ++
    [.arrive (.check (some (.mcp "acme" "main" "echo")) (.ok (some (Sample.bearer 5).encode))),
      .run 4 .ok]

/-- A check is answered with a cap, its bearer logs out, and the cap is tried. -/
private def loggedOutRun : List Event :=
  Sample.loginRun 0 5 ++ Sample.checkHead 1 5 ++ Sample.createRun 1 ++ Sample.checkTail 1 77 ++
    [.arrive (.logout (.ok (some (Sample.bearer 5).encode))),
      .run 2 .ok, .run 2 .ok, .run 2 .ok, .run 2 .ok, .run 2 .ok,
      .arrive (.fetch (.ok 77)), .run 3 .ok]

theorem revocation_complete_revoked_run :
    (∃ s, replyTo s 2 = some (.revoked 1 1) ∧
      replyTo s 3 = some (.unauthorized .invalidBearer none) ∧
      replyTo s 4 = some (.unauthorized .revokedLease (some "acme")) ∧ RevocationComplete s) ∧
    ∃ s, replyTo s 2 = some .noContent ∧ s.closed = [105] ∧
      replyTo s 3 = some (.unauthorized .invalidBearer none) ∧ RevocationComplete s := by
  have hrevoked : ((authBroker Sample.hkdf).execUnder RevocationGuard Sample.start revokedRun).any
      (fun s => replyTo s 2 = some (.revoked 1 1) &&
        replyTo s 3 = some (.unauthorized .invalidBearer none) &&
        replyTo s 4 = some (.unauthorized .revokedLease (some "acme"))) = true := by
    decide +kernel
  have hlogged : ((authBroker Sample.hkdf).execUnder RevocationGuard Sample.start loggedOutRun).any
      (fun s => replyTo s 2 = some .noContent && s.closed = [105] &&
        replyTo s 3 = some (.unauthorized .invalidBearer none)) = true := by
    decide +kernel
  obtain ⟨s, hrun, hs⟩ := Machine.exists_run_of_execUnder _ hrevoked
  obtain ⟨t, hrun', ht⟩ := Machine.exists_run_of_execUnder _ hlogged
  simp only [Bool.and_eq_true, decide_eq_true_eq] at hs ht
  exact ⟨⟨s, hs.1.1, hs.1.2, hs.2, revocation_complete ⟨Sample.start, ⟨_, _, _, rfl⟩, hrun⟩⟩,
    ⟨t, ht.1.1, ht.1.2, ht.2, revocation_complete ⟨Sample.start, ⟨_, _, _, rfl⟩, hrun'⟩⟩⟩

/-- A check has validated its lease when the lease is revoked; it then inserts
    its cap, and a fetch with it is answered. -/
private def lateCapRun : List Event :=
  Sample.loginRun 0 5 ++ Sample.checkHead 1 5 ++ Sample.createRun 1 ++ revokeRun 2 ++
    Sample.checkTail 1 77 ++ Sample.fetchRun 3 77

/-- The run has fetched with cap 77 of lease 105, closed before the fetch arrived. -/
private def fetchedLate (s : Broker) : Bool :=
  (s.answers.lookup 3).any fun a =>
    a.reply.status = 200 && a.closedBefore.contains 105 && s.minted.lookup 77 = some 105 &&
      match a.request with
      | .fetch (.ok cap) => cap = 77
      | _ => false

theorem late_cap_survives_revocation :
    ¬ ∀ s, (authBroker Sample.hkdf).Reachable s → RevocationComplete s := by
  intro hclaim
  have hexec : ((authBroker Sample.hkdf).execUnder (fun _ _ => True) Sample.start
      lateCapRun).any fetchedLate = true := by decide +kernel
  obtain ⟨s, hrun, hs⟩ := Machine.exists_run_of_execUnder _ hexec
  obtain ⟨a, hlook, ha⟩ := (Option.any_eq_true _ _).mp hs
  simp only [Bool.and_eq_true, decide_eq_true_eq, List.contains_iff_mem] at ha
  obtain ⟨⟨⟨hok, hclosed⟩, hminted⟩, hrequest⟩ := ha
  refine hclaim s ⟨Sample.start, ⟨_, _, _, rfl⟩, hrun⟩ 3 a hlook hok 105 hclosed ?_
  split at hrequest
  next cap heq =>
    rw [heq, of_decide_eq_true hrequest]
    exact hminted
  next => cases hrequest

end Botwork.AuthBroker
