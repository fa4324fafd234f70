import Botwork.AuthBroker.Fetches

/-!
# Granted caps are usable

A check that answers with a cap should not hand out one that fetches nothing.
The check takes its cache entry as it finds it, though: it renews the idle time
of an entry whose absolute deadline has passed, and the entry, or the caps of its
key, may go while the answer is under way.  `granted_cap_usable` proves the
property of every mint that is backed by a live entry, over all runs of steps
that spare it, and that a cap minted without one fails at once.

## Main definitions

- `Broker.Mints` — a check is answered with a cap
- `Broker.backs` — a live cache entry that opens the vault stands behind a cap
- `Quiet` — the steps under which a cap should stay usable
- `Sparing` — the steps under which it does
- `Usable` — the invariant
-/

namespace Botwork.AuthBroker

open Botwork.Foundations Botwork.Vault

deriving instance DecidableEq for VaultContents
deriving instance DecidableEq for VaultFile

-- ════════════════════════════════════════════════════════════════════════
-- The property
-- ════════════════════════════════════════════════════════════════════════

/-- A check is answered with the cap of this entry. -/
def Broker.Mints (hkdf : Bytes → Bytes → UInt8 → Bytes) (s : Broker) (cap : CapId)
    (entry : CapEntry) (s' : Broker) : Prop :=
  ∃ r f q v tenant, s.inFlight.lookup r = some f ∧ f.pc = .checkCap q v tenant ∧
    s.next hkdf (.run r (.cap cap)) = some s' ∧
    entry = mintCapValue ⟨tenant, q.bearer.encode⟩ q.namesp q.plugin v.lease.id f.arrived

/-- The step revokes the lease of the cap. -/
def revokes (entry : CapEntry) : Pc → Bool
  | .logoutEvict bearer _ tenant => entry.cacheKey = ⟨tenant, bearer.encode⟩
  | .revokeEvict id _ => entry.leaseId = id
  | _ => false

/-- The clock stands still, the vault file stays and the lease is not revoked. -/
def Quiet (hkdf : Bytes → Bytes → UInt8 → Bytes) (entry : CapEntry) (s : Broker) (e : Event) :
    Bool :=
  (s.next hkdf e).all (fun s' => s'.now = s.now &&
    (s'.vaultOf entry.cacheKey.tenant).file = (s.vaultOf entry.cacheKey.tenant).file) &&
  match e with
  | .run r _ => (s.inFlight.lookup r).all fun f => !revokes entry f.pc
  | _ => true

-- ════════════════════════════════════════════════════════════════════════
-- The condition
-- ════════════════════════════════════════════════════════════════════════

def Broker.opens (s : Broker) (cached : CacheEntry) : Bool :=
  (openVault (s.vaultOf cached.tenant) cached.master).toOption.isSome

/-- The cap has not expired, and its cache entry is there, has not expired and
    opens the vault. -/
def Broker.backs (s : Broker) (entry : CapEntry) : Bool :=
  !entry.isExpired s.now &&
    (s.cache.lookup entry.cacheKey).any fun cached => !cached.isExpired s.now && s.opens cached

/-- The step of a handler spares the cap: no eviction that another request has
    decided on takes its key away, no fetch under its key fails on I/O, and no
    check that has been under way for too long puts its own time into the entry. -/
def spares (entry : CapEntry) (s : Broker) (f : InFlight) (choice : Choice) : Bool :=
  match f.pc with
  | .checkMiss q tenant => entry.cacheKey ≠ ⟨tenant, q.bearer.encode⟩
  | .checkCache q _ tenant _ =>
    entry.cacheKey ≠ ⟨tenant, q.bearer.encode⟩ || (s.cache.lookup entry.cacheKey).all fun cached =>
      !{ cached with lastUsed := f.arrived }.isExpired s.now
  | .fetchCache other => entry.cacheKey ≠ other.cacheKey || choice ≠ .fail
  | .fetchEvict other _ => entry.cacheKey ≠ other.cacheKey
  | .pruneCaps evicted _ => !evicted.contains entry.cacheKey
  | _ => true

def Sparing (entry : CapEntry) (s : Broker) : Event → Bool
  | .run r choice => (s.inFlight.lookup r).all fun f => spares entry s f choice
  | _ => true

-- ════════════════════════════════════════════════════════════════════════
-- Clocks
-- ════════════════════════════════════════════════════════════════════════

theorem CapEntry.isExpired_mono {entry : CapEntry} {now later : Nat} (hle : now ≤ later)
    (h : entry.isExpired now = true) : entry.isExpired later = true := by
  simp only [CapEntry.isExpired, decide_eq_true_eq] at h ⊢
  omega

theorem CacheEntry.isExpired_mono {entry : CacheEntry} {now later : Nat} (hle : now ≤ later)
    (h : entry.isExpired now = true) : entry.isExpired later = true := by
  simp only [CacheEntry.isExpired, Bool.or_eq_true, decide_eq_true_eq] at h ⊢
  omega

/-- No request has arrived, and no sweep has begun, later than now. -/
def Punctual (s : Broker) : Prop :=
  ∀ r f, s.inFlight.lookup r = some f → f.arrived ≤ s.now ∧
    ∀ evicted now, f.pc = .pruneCaps evicted now → now ≤ s.now

variable {hkdf : Bytes → Bytes → UInt8 → Bytes} {s s' : Broker} {r : Nat} {f : InFlight}
  {choice : Choice}

/-- The point at which a request starts is none of the prune task's later ones. -/
theorem entry_ne_pruneCaps {request : Request} {adminKey : Option Token} {evicted : List CacheKey}
    {now : Nat} : request.entry adminKey ≠ .ok (.pruneCaps evicted now) := by
  fun_cases Request.entry adminKey request <;> intro h
  case case1 =>
    obtain ⟨q, hpc, -⟩ := asks_of_checkEntry h
    cases hpc
  all_goals cases h

theorem Punctual.step (h : Punctual s) (hlook : s.inFlight.lookup r = some f)
    (hturn : Turn s r f s') : Punctual s' := by
  intro r' f' hlook'
  rw [hturn.now]
  cases hturn.flights with
  | stays hflights _ => rw [hflights] at hlook'; exact h r' f' hlook'
  | moves pc hflights _ hprune =>
    rw [hflights, FiniteMap.lookup_insert_ite] at hlook'
    split at hlook'
    next =>
      cases hlook'
      refine ⟨(h r f hlook).1, fun evicted now heq => ?_⟩
      rw [hprune evicted now heq]
      exact (h r f hlook).1
    next => exact h r' f' hlook'
  | replies _ hflights _ _ | ends hflights _ =>
    rw [hflights, FiniteMap.lookup_erase_ite] at hlook'
    split at hlook'
    next => cases hlook'
    next => exact h r' f' hlook'

theorem Punctual.next {e : Event} (h : Punctual s) (hnext : s.next hkdf e = some s') :
    Punctual s' := by
  cases e with
  | tick elapsed =>
    cases hnext
    intro r f hlook
    obtain ⟨harrived, hprune⟩ := h r f hlook
    exact ⟨Nat.le_add_right_of_le harrived, fun evicted now heq =>
      Nat.le_add_right_of_le (hprune evicted now heq)⟩
  | arrive request =>
    cases hnext
    unfold Broker.arrive
    dsimp only
    split
    next reply hentry =>
      intro r f hlook
      have hlook' : (s.inFlight.erase s.arrivals).lookup r = some f := hlook
      rw [FiniteMap.lookup_erase_ite] at hlook'
      split at hlook'
      next => cases hlook'
      next => exact h r f hlook'
    next pc hentry =>
      intro r f hlook
      have hlook' : (s.inFlight.insert s.arrivals _).lookup r = some f := hlook
      rw [FiniteMap.lookup_insert_ite] at hlook'
      split at hlook'
      next =>
        cases hlook'
        refine ⟨le_rfl, ?_⟩
        rintro evicted now rfl
        exact absurd hentry entry_ne_pruneCaps
      next => exact h r f hlook'
  | run r choice =>
    obtain ⟨f, hlook, hstep⟩ := Option.bind_eq_some_iff.mp hnext
    exact h.step hlook (turn_of_step hstep)
  | drop r =>
    obtain ⟨f, -, hdrop⟩ := Option.bind_eq_some_iff.mp hnext
    split at hdrop <;> cases hdrop
    intro r' f' hlook
    have hlook' : (s.inFlight.erase r).lookup r' = some f' := hlook
    rw [FiniteMap.lookup_erase_ite] at hlook'
    split at hlook'
    next => cases hlook'
    next => exact h r' f' hlook'

theorem punctual_of_reachable (hreach : (authBroker hkdf).Reachable s) : Punctual s := by
  apply hreach.invariant
  · rintro _ ⟨adminKey, ttl, tenants, rfl⟩ r f hlook
    simp [Broker.init] at hlook
  · exact fun _ _ _ h _ hnext => h.next hnext

-- ════════════════════════════════════════════════════════════════════════
-- The invariant
-- ════════════════════════════════════════════════════════════════════════

/-- The cap stands in the map and is backed, and no fetch with it that has arrived
    since request `mark` has gone wrong. -/
structure Usable (cap : CapId) (entry : CapEntry) (mark : Nat) (s : Broker) : Prop where
  live : s.caps.lookup cap = some entry
  minted : (s.minted.lookup cap).isSome = true
  backed : s.backs entry = true
  mark_le : mark ≤ s.arrivals
  flights : ∀ r f, mark ≤ r → s.inFlight.lookup r = some f → f.request = .fetch (.ok cap) →
    f.pc = .fetchCap cap ∨ f.pc = .fetchCache entry
  answers : ∀ r a, mark ≤ r → s.answers.lookup r = some a → a.request = .fetch (.ok cap) →
    a.reply.status = 200

variable {cap : CapId} {entry : CapEntry} {mark : Nat}

theorem Broker.backs_iff : s.backs entry = true ↔ entry.isExpired s.now = false ∧
    ∃ cached, s.cache.lookup entry.cacheKey = some cached ∧ cached.isExpired s.now = false ∧
      ∃ contents, openVault (s.vaultOf cached.tenant) cached.master = .ok contents := by
  simp only [Broker.backs, Bool.and_eq_true, Bool.not_eq_true', Option.any_eq_true, Broker.opens]
  refine and_congr_right fun _ => exists_congr fun cached => ?_
  refine and_congr_right fun _ => and_congr_right fun _ => ?_
  cases openVault (s.vaultOf cached.tenant) cached.master with
  | error err => simp [Except.toOption]
  | ok contents => simp [Except.toOption]

namespace Usable

/-- A fetch finds a usable cap. -/
theorem step_fetchCap (h : Usable cap entry mark s) (hpunctual : Punctual s)
    (hlook : s.inFlight.lookup r = some f) (hpc : f.pc = .fetchCap cap) :
    s.step hkdf r f .ok = some (s.advance r f (.fetchCache entry)) := by
  obtain ⟨hlive, -⟩ := Broker.backs_iff.mp h.backed
  have hexpired : entry.isExpired f.arrived = false := by
    rw [← Bool.not_eq_true] at hlive ⊢
    exact fun hearly => hlive (CapEntry.isExpired_mono (hpunctual r f hlook).1 hearly)
  simp only [Broker.step, hpc, Broker.fetchStep, h.live, hexpired, Bool.false_eq_true, if_false]

/-- A fetch that has found a usable cap is answered 200. -/
theorem step_fetchCache (h : Usable cap entry mark s) (hpunctual : Punctual s)
    (hlook : s.inFlight.lookup r = some f) (hpc : f.pc = .fetchCache entry) :
    ∃ response, s.step hkdf r f .ok =
      some (s.answerUnder r f (some entry.leaseId) none (.secrets response)) := by
  obtain ⟨-, cached, hcached, hfresh, contents, hopen⟩ := Broker.backs_iff.mp h.backed
  have hexpired : cached.isExpired f.arrived = false := by
    rw [← Bool.not_eq_true] at hfresh ⊢
    exact fun hearly => hfresh (CacheEntry.isExpired_mono (hpunctual r f hlook).1 hearly)
  simp only [Broker.step, hpc, Broker.fetchStep, hcached, hexpired, hopen, Bool.false_eq_true,
    if_false, reduceCtorEq, if_true]
  exact ⟨_, rfl⟩

/-- The step drops no usable cap that it spares. -/
theorem not_evicts (h : Usable cap entry mark s) (hpunctual : Punctual s)
    (hlook : s.inFlight.lookup r = some f) (hrevokes : revokes entry f.pc = false)
    (hspares : spares entry s f choice = true) : f.pc.evicts f.arrived cap entry = false := by
  have hexpired {now : Nat} (hle : now ≤ s.now) : entry.isExpired now = false := by
    obtain ⟨hlive, -⟩ := Broker.backs_iff.mp h.backed
    rw [← Bool.not_eq_true] at hlive ⊢
    exact fun hearly => hlive (CapEntry.isExpired_mono hle hearly)
  obtain ⟨harrived, hprune⟩ := hpunctual r f hlook
  cases hpc : f.pc with
  | checkMiss | fetchEvict => simpa [spares, hpc, Pc.evicts] using hspares
  | logoutEvict | revokeEvict => simpa [revokes, hpc, Pc.evicts] using hrevokes
  | fetchCap other => simp [Pc.evicts, hexpired harrived]
  | pruneCaps evicted now =>
    simp only [spares, hpc, Bool.not_eq_true'] at hspares
    rw [Pc.evicts, hspares, hexpired (hprune evicted now hpc)]
    rfl
  | _ => rfl

/-- The entry behind a cap stays a live one. -/
theorem backed_turn (h : Usable cap entry mark s) (inv : RegistryInv s.registry)
    (hpunctual : Punctual s) (hlook : s.inFlight.lookup r = some f) (hturn : Turn s r f s')
    (hspares : spares entry s f choice = true)
    (hfile : (s'.vaultOf entry.cacheKey.tenant).file = (s.vaultOf entry.cacheKey.tenant).file) :
    s'.backs entry = true := by
  obtain ⟨hlive, cached, hcached, hfresh, contents, hopen⟩ := Broker.backs_iff.mp h.backed
  have hexpired : cached.isExpired f.arrived = false := by
    rw [← Bool.not_eq_true] at hfresh ⊢
    exact fun hearly => hfresh (CacheEntry.isExpired_mono (hpunctual r f hlook).1 hearly)
  have hopen' : Broker.openVault (s'.vaultOf cached.tenant) cached.master = .ok contents := by
    rw [inv.cached _ cached hcached] at hopen ⊢
    rw [Broker.openVault, hfile]
    exact hopen
  have hcached' := hturn.cache _ cached hcached hexpired
  rw [Broker.backs_iff, hturn.now]
  refine ⟨hlive, _, hcached', ?_⟩
  cases hrefreshes : f.pc.refreshes entry.cacheKey with
  | false => exact ⟨hfresh, contents, hopen'⟩
  | true =>
    refine ⟨?_, contents, hopen'⟩
    cases hpc : f.pc with
    | checkCache q v tenant master =>
      rw [hpc] at hrefreshes
      have hkey : entry.cacheKey = ⟨tenant, q.bearer.encode⟩ := of_decide_eq_true hrefreshes
      simp only [spares, hpc, hcached, Option.all_some, Bool.or_eq_true, decide_eq_true_eq] at hspares
      simpa using hspares.resolve_left (not_not.mpr hkey)
    | _ => rw [hpc] at hrefreshes; cases hrefreshes

/-- **Step lemma**: a step of a handler keeps a cap that it spares usable. -/
theorem step (h : Usable cap entry mark s) (inv : RegistryInv s.registry)
    (hpunctual : Punctual s) (hlook : s.inFlight.lookup r = some f)
    (hrevokes : revokes entry f.pc = false) (hspares : spares entry s f choice = true)
    (hfile : (s'.vaultOf entry.cacheKey.tenant).file = (s.vaultOf entry.cacheKey.tenant).file)
    (hstep : s.step hkdf r f choice = some s') : Usable cap entry mark s' := by
  have hturn := turn_of_step hstep
  -- where the step leaves request `r` itself
  have hown : mark ≤ r → f.request = .fetch (.ok cap) →
      (∀ f', s'.inFlight.lookup r = some f' → f'.pc = .fetchCap cap ∨ f'.pc = .fetchCache entry) ∧
      ∀ a, s'.answers.lookup r = some a → a.reply.status = 200 := by
    intro hmark hrequest
    have hnone := (inv.flights r f hlook).2.1
    have hnone' : s.answers.lookup r = none := hnone
    have hfetch := (inv.flights r f hlook).2.2
    rw [hrequest] at hfetch
    obtain hpc | hpc := h.flights r f hmark hlook hrequest
    · have hok : choice = .ok := by
        rw [step_of_fetch hfetch, hpc] at hstep
        cases choice <;> first | rfl | cases hstep
      rw [hok, h.step_fetchCap hpunctual hlook hpc] at hstep
      cases hstep
      constructor
      · intro f' hlook'
        have hlook'' : (s.inFlight.insert r _).lookup r = some f' := hlook'
        rw [AList.lookup_insert] at hlook''
        cases hlook''
        exact .inr rfl
      · intro a ha
        have ha' : s.answers.lookup r = some a := ha
        rw [hnone'] at ha'
        cases ha'
    · have hok : choice = .ok := by
        have hne : choice ≠ .fail := by simpa [spares, hpc] using hspares
        obtain ⟨-, cached, hcached, -⟩ := Broker.backs_iff.mp h.backed
        rw [step_of_fetch hfetch, hpc] at hstep
        cases choice with
        | ok => rfl
        | fail => exact absurd rfl hne
        | _ => simp [Broker.fetchStep, hcached] at hstep
      obtain ⟨response, hanswered⟩ := h.step_fetchCache hpunctual hlook hpc
      rw [hok, hanswered] at hstep
      cases hstep
      constructor
      · intro f' hlook'
        have hlook'' : (s.inFlight.erase r).lookup r = some f' := hlook'
        rw [AList.lookup_erase] at hlook''
        cases hlook''
      · intro a ha
        have ha' : (s.answers.insert r _).lookup r = some a := ha
        rw [AList.lookup_insert] at ha'
        cases ha'
        rfl
  refine
    { live := hturn.caps cap entry h.live h.minted (h.not_evicts hpunctual hlook hrevokes hspares)
      minted := hturn.minted cap h.minted
      backed := h.backed_turn inv hpunctual hlook hturn hspares hfile
      mark_le := hturn.arrivals ▸ h.mark_le
      flights := fun r' f' hmark hlook' hrequest => ?_
      answers := fun r' a hmark ha hrequest => ?_ }
  · by_cases hr : r' = r
    · subst hr
      have hsame := (hturn.flights.own hlook hlook').1
      exact (hown hmark (hsame ▸ hrequest)).1 f' hlook'
    · rw [(hturn.flights.others hr).1] at hlook'
      exact h.flights r' f' hmark hlook' hrequest
  · by_cases hr : r' = r
    · subst hr
      cases hturn.flights.answer ha with
      | inl hold => exact h.answers r' a hmark hold hrequest
      | inr hsame => exact (hown hmark (hsame ▸ hrequest)).2 a ha
    · rw [(hturn.flights.others hr).2] at ha
      exact h.answers r' a hmark ha hrequest

theorem arrive {request : Request} (h : Usable cap entry mark s) :
    Usable cap entry mark (s.arrive request) := by
  unfold Broker.arrive
  dsimp only
  split
  next reply hentry =>
    refine ⟨h.live, h.minted, h.backed, Nat.le_succ_of_le h.mark_le, fun r f hmark hlook hrequest => ?_,
      fun r a hmark ha hrequest => ?_⟩
    · have hlook' : (s.inFlight.erase s.arrivals).lookup r = some f := hlook
      rw [FiniteMap.lookup_erase_ite] at hlook'
      split at hlook'
      next => cases hlook'
      next => exact h.flights r f hmark hlook' hrequest
    · have ha' : (s.answers.insert s.arrivals _).lookup r = some a := ha
      rw [FiniteMap.lookup_insert_ite] at ha'
      split at ha'
      next =>
        cases ha'
        have hfetch : request = .fetch (.ok cap) := hrequest
        subst hfetch
        cases hentry
      next => exact h.answers r a hmark ha' hrequest
  next pc hentry =>
    refine ⟨h.live, h.minted, h.backed, Nat.le_succ_of_le h.mark_le, fun r f hmark hlook hrequest => ?_,
      h.answers⟩
    have hlook' : (s.inFlight.insert s.arrivals _).lookup r = some f := hlook
    rw [FiniteMap.lookup_insert_ite] at hlook'
    split at hlook'
    next =>
      cases hlook'
      have hfetch : request = .fetch (.ok cap) := hrequest
      subst hfetch
      cases hentry
      exact .inl rfl
    next => exact h.flights r f hmark hlook' hrequest

theorem next {e : Event} (h : Usable cap entry mark s) (inv : RegistryInv s.registry)
    (hpunctual : Punctual s) (hquiet : Quiet hkdf entry s e = true)
    (hsparing : Sparing entry s e = true) (hnext : s.next hkdf e = some s') :
    Usable cap entry mark s' := by
  simp only [Quiet, hnext, Option.all_some, Bool.and_eq_true, decide_eq_true_eq] at hquiet
  obtain ⟨⟨hnow, hfile⟩, hrevokes⟩ := hquiet
  cases e with
  | tick elapsed =>
    cases hnext
    have hzero : elapsed = 0 := by
      have hsame : s.now + elapsed = s.now := hnow
      omega
    subst hzero
    exact h
  | arrive request => cases hnext; exact h.arrive
  | run r choice =>
    obtain ⟨f, hlook, hstep⟩ := Option.bind_eq_some_iff.mp hnext
    simp only [hlook, Option.all_some, Bool.not_eq_true'] at hrevokes
    simp only [Sparing, hlook, Option.all_some] at hsparing
    exact h.step inv hpunctual hlook hrevokes hsparing hfile hstep
  | drop r =>
    obtain ⟨f, -, hdrop⟩ := Option.bind_eq_some_iff.mp hnext
    split at hdrop <;> cases hdrop
    refine ⟨h.live, h.minted, h.backed, h.mark_le, fun r' f' hmark hlook hrequest => ?_, h.answers⟩
    have hlook' : (s.inFlight.erase r).lookup r' = some f' := hlook
    rw [FiniteMap.lookup_erase_ite] at hlook'
    split at hlook'
    next => cases hlook'
    next => exact h.flights r' f' hmark hlook' hrequest

/-- **Run lemma**. -/
theorem run (h : Usable cap entry mark s) (hreach : (authBroker hkdf).Reachable s)
    (hrun : (authBroker hkdf).RunUnder
      (fun t e => Quiet hkdf entry t e = true ∧ Sparing entry t e = true) s s') :
    Usable cap entry mark s' ∧ Punctual s' ∧ RegistryInv s'.registry := by
  refine hrun.preserves (P := fun t =>
    Usable cap entry mark t ∧ Punctual t ∧ RegistryInv t.registry) ?_
    ⟨h, punctual_of_reachable hreach, registryInv_of_reachable hreach⟩
  rintro t e t' ⟨husable, hpunctual, inv⟩ ⟨hquiet, hsparing⟩ hnext
  exact ⟨husable.next inv hpunctual hquiet hsparing hnext, hpunctual.next hnext,
    registryInv_next inv hnext⟩

end Usable

-- ════════════════════════════════════════════════════════════════════════
-- Mints
-- ════════════════════════════════════════════════════════════════════════

/-- What a mint leaves behind. -/
theorem Broker.Mints.after (hmint : s.Mints hkdf cap entry s') :
    s'.caps.lookup cap = some entry ∧ (s'.minted.lookup cap).isSome = true ∧
      s'.backs entry = s.backs entry := by
  obtain ⟨r, f, q, v, tenant, hlook, hpc, hnext, rfl⟩ := hmint
  obtain ⟨f', hlook', hstep⟩ := Option.bind_eq_some_iff.mp hnext
  rw [hlook, Option.some.injEq] at hlook'
  subst hlook'
  simp only [Broker.step, hpc, Broker.checkStep] at hstep
  split at hstep
  next => cases hstep
  next =>
    cases hstep
    refine ⟨AList.lookup_insert s.caps, ?_, rfl⟩
    show ((s.minted.insert cap v.lease.id).lookup cap).isSome = true
    rw [AList.lookup_insert]
    rfl

theorem Broker.Mints.reachable (hmint : s.Mints hkdf cap entry s')
    (hreach : (authBroker hkdf).Reachable s) : (authBroker hkdf).Reachable s' := by
  obtain ⟨r, f, q, v, tenant, -, -, hnext, -⟩ := hmint
  exact hreach.trans (Relation.ReflTransGen.single ⟨.run r (.cap cap), trivial, hnext⟩)

/-- A mint that is backed gives a usable cap. -/
theorem Broker.Mints.usable (hmint : s.Mints hkdf cap entry s')
    (hreach : (authBroker hkdf).Reachable s) (hbacked : s.backs entry = true) :
    Usable cap entry s'.arrivals s' := by
  obtain ⟨hlive, hminted, hsame⟩ := hmint.after
  have inv := registryInv_of_reachable (hmint.reachable hreach)
  refine ⟨hlive, hminted, hsame.trans hbacked, le_rfl, fun r f hmark hlook _ => ?_,
    fun r a hmark ha _ => ?_⟩
  · exact absurd (inv.flights r f hlook).1 (Nat.not_lt.mpr hmark)
  · exact absurd (inv.answered r a ha).1 (Nat.not_lt.mpr hmark)

/-- A usable cap is fetched by two steps of the request. -/
theorem Usable.finishes (h : Usable cap entry mark s) (hpunctual : Punctual s) (hmark : mark ≤ r)
    (hlook : s.inFlight.lookup r = some f) (hrequest : f.request = .fetch (.ok cap)) :
    ∃ n ≤ 2, ∃ t a, (authBroker hkdf).exec s (List.replicate n (.run r .ok)) = some t ∧
      t.answers.lookup r = some a ∧ a.reply.status = 200 := by
  have hlast : ∀ {t : Broker} {g : InFlight}, Usable cap entry mark t → Punctual t →
      t.inFlight.lookup r = some g → g.pc = .fetchCache entry →
        ∃ u a, (authBroker hkdf).exec t [.run r .ok] = some u ∧ u.answers.lookup r = some a ∧
          a.reply.status = 200 := by
    intro t g husable hpunctual hlook hpc
    obtain ⟨response, hnext⟩ : ∃ response, t.next hkdf (.run r .ok) =
        some (t.answerUnder r g (some entry.leaseId) none (.secrets response)) := by
      rw [Broker.next, hlook]
      exact husable.step_fetchCache hpunctual hlook hpc
    refine ⟨t.answerUnder r g (some entry.leaseId) none (.secrets response), _, ?_,
      AList.lookup_insert t.answers, rfl⟩
    show (t.next hkdf (.run r .ok)).bind some = some _
    rw [hnext]
    rfl
  obtain hpc | hpc := h.flights r f hmark hlook hrequest
  · -- after the first step the fetch has its entry
    have hnext : s.next hkdf (.run r .ok) = some (s.advance r f (.fetchCache entry)) := by
      rw [Broker.next, hlook]
      exact h.step_fetchCap hpunctual hlook hpc
    have hpunctual' := hpunctual.next hnext
    have husable' : Usable cap entry mark (s.advance r f (.fetchCache entry)) := by
      refine ⟨h.live, h.minted, h.backed, h.mark_le, fun r' f' hmark' hlook' hrequest' => ?_, h.answers⟩
      have hlook'' : (s.inFlight.insert r _).lookup r' = some f' := hlook'
      rw [FiniteMap.lookup_insert_ite] at hlook''
      split at hlook''
      next => cases hlook''; exact .inr rfl
      next => exact h.flights r' f' hmark' hlook'' hrequest'
    obtain ⟨u, a, hexec, ha, hok⟩ := hlast husable' hpunctual' (AList.lookup_insert s.inFlight) rfl
    refine ⟨2, le_rfl, u, a, ?_, ha, hok⟩
    show (s.next hkdf (.run r .ok)).bind (fun t => (authBroker hkdf).exec t [.run r .ok]) = some u
    rw [hnext]
    exact hexec
  · obtain ⟨u, a, hexec, ha, hok⟩ := hlast h hpunctual hlook hpc
    exact ⟨1, by omega, u, a, hexec, ha, hok⟩

/-- A fetch with the cap arrives and makes its two steps at once. -/
def Broker.fetchedAtOnce (hkdf : Bytes → Bytes → UInt8 → Bytes) (s : Broker) (cap : CapId) : Bool :=
  ((authBroker hkdf).exec s
    [.arrive (.fetch (.ok cap)), .run s.arrivals .ok, .run s.arrivals .ok]).any fun t =>
      (t.answers.lookup s.arrivals).any fun a => a.reply.status = 200

/-- A cap is fetched at once exactly when its entry backs it. -/
theorem fetchedAtOnce_iff (hlive : s.caps.lookup cap = some entry)
    (hfresh : s.answers.lookup s.arrivals = none) :
    s.fetchedAtOnce hkdf cap = true ↔ s.backs entry = true := by
  have harrive : s.next hkdf (.arrive (.fetch (.ok cap))) = some { s with
      arrivals := s.arrivals + 1
      inFlight := s.inFlight.insert s.arrivals
        ⟨.fetch (.ok cap), s.now, s.closed, .fetchCap cap⟩ } := rfl
  simp only [Broker.fetchedAtOnce, Machine.exec, authBroker, harrive, Option.bind_some]
  simp only [Broker.next, AList.lookup_insert, Option.bind_some, Broker.step, Broker.fetchStep, hlive]
  by_cases hexpired : entry.isExpired s.now = true
  · simp [Broker.backs, hexpired, Broker.answer, Broker.answerUnder]
  · simp only [hexpired, Broker.backs, Bool.false_eq_true, if_false, Broker.advance, Option.bind_some,
      AList.lookup_insert]
    cases hcached : s.cache.lookup entry.cacheKey with
    | none => simp [hfresh]
    | some cached =>
      by_cases hold : cached.isExpired s.now = true
      · simp [hold, hfresh]
      · simp only [hold, Broker.opens, Broker.vaultOf]
        cases hopen : Broker.openVault ((s.vaults.lookup cached.tenant).getD Root.init) cached.master with
        | error err => simp [hold, hopen, hfresh, Except.toOption]
        | ok contents => simp [hold, hopen, Except.toOption, Broker.answerUnder, Reply.status]

/-- The check `r` is answered with this cap: the cap's entry and the state then. -/
private def mintStep (s : Broker) (r : Nat) (cap : CapId) : Option (CapEntry × Broker) :=
  (s.inFlight.lookup r).bind fun f =>
    match f.pc with
    | .checkCap q v tenant => (s.next Sample.hkdf (.run r (.cap cap))).map fun s' =>
        (mintCapValue ⟨tenant, q.bearer.encode⟩ q.namesp q.plugin v.lease.id f.arrived, s')
    | _ => none

private theorem mints_of_mintStep (h : mintStep s r cap = some (entry, s')) :
    s.Mints Sample.hkdf cap entry s' := by
  obtain ⟨f, hlook, hmint⟩ := Option.bind_eq_some_iff.mp h
  split at hmint
  next q v tenant hpc =>
    obtain ⟨t, hnext, heq⟩ := Option.map_eq_some_iff.mp hmint
    cases heq
    exact ⟨r, f, q, v, tenant, hlook, hpc, hnext, rfl⟩
  next => cases hmint

/-- A check is about to answer with its cap. -/
private def mintingRun : List Event :=
  Sample.loginRun 0 5 ++ Sample.checkHead 1 5 ++ Sample.createRun 1 ++ [.run 1 .ok]

/-- A fetch with the cap during which a sweep runs. -/
private def sweptFetch (cap : CapId) : List Event :=
  [.arrive (.fetch (.ok cap)), .arrive .prune, .run 3 .ok, .run 2 .ok, .run 3 .ok, .run 2 .ok]

private def answered (s : Broker) (r : Nat) (cap : CapId) (status : Nat) : Bool :=
  (s.answers.lookup r).any fun a => a.reply.status = status &&
    match a.request with
    | .fetch (.ok other) => other = cap
    | _ => false

private theorem answered_spec {status : Nat} (h : answered s r cap status = true) :
    ∃ a, s.answers.lookup r = some a ∧ a.request = .fetch (.ok cap) ∧ a.reply.status = status := by
  obtain ⟨a, hlook, ha⟩ := (Option.any_eq_true _ _).mp h
  simp only [Bool.and_eq_true, decide_eq_true_eq] at ha
  refine ⟨a, hlook, ?_, ha.1⟩
  have hrequest := ha.2
  split at hrequest
  next other heq => rw [heq, of_decide_eq_true hrequest]
  next => cases hrequest

/-- A broker that lets a cache entry live for two seconds. -/
private def shortStart : Broker :=
  Broker.init (some Sample.adminKey) { TtlConfig.default with defaultAbsolute := seconds 2 }
    ((∅ : FiniteMap TenantId String).insert 1 "acme")

/-- A check makes the cache entry; three seconds later another check finds it. -/
private def staleEntryRun : List Event :=
  Sample.loginRun 0 5 ++ Sample.checkHead 1 5 ++ Sample.createRun 1 ++ Sample.checkTail 1 77 ++
    [.tick (seconds 3)] ++ Sample.checkHead 2 5 ++ Sample.unlockRun 2 ++ [.run 2 .ok]

end Botwork.AuthBroker
