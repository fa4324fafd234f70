import Botwork.AuthBroker.Caps

/-!
# Turns

What one step of a handler does to the state that requests share, without the
handler: it moves or answers its own request, drops caps at a few points only,
and leaves a live cache entry in place.

## Main definitions

- `FlightTurn` — what a step does to the requests and their answers
- `Pc.evicts` — the points at which a cap is dropped
- `Turn` — what a step does

## Main results

- `turn_of_step` — every step of a handler is a turn
-/

namespace Botwork.AuthBroker

open Botwork.Foundations Botwork.Vault

variable {hkdf : Bytes → Bytes → UInt8 → Bytes} {s s' : Broker} {r : Nat} {f : InFlight}
  {choice : Choice} {pc : Pc}

/-- What a step of request `r` does to the requests and their answers. -/
inductive FlightTurn (s : Broker) (r : Nat) (f : InFlight) (s' : Broker) : Prop
  | stays (hflights : s'.inFlight = s.inFlight) (hanswers : s'.answers = s.answers)
  | moves (pc : Pc) (hflights : s'.inFlight = s.inFlight.insert r { f with pc := pc })
      (hanswers : s'.answers = s.answers)
      (hprune : ∀ evicted now, pc = .pruneCaps evicted now → now = f.arrived)
  | replies (a : Answer) (hflights : s'.inFlight = s.inFlight.erase r)
      (hanswers : s'.answers = s.answers.insert r a) (hrequest : a.request = f.request)
  | ends (hflights : s'.inFlight = s.inFlight.erase r) (hanswers : s'.answers = s.answers)

namespace FlightTurn

/-- The other requests stay where they are. -/
theorem others {r' : Nat} (h : FlightTurn s r f s') (hne : r' ≠ r) :
    s'.inFlight.lookup r' = s.inFlight.lookup r' ∧ s'.answers.lookup r' = s.answers.lookup r' := by
  cases h with
  | stays hflights hanswers => rw [hflights, hanswers]; exact ⟨rfl, rfl⟩
  | moves pc hflights hanswers _ =>
    rw [hflights, hanswers, FiniteMap.lookup_insert_ite, if_neg hne]
    exact ⟨rfl, rfl⟩
  | replies a hflights hanswers _ =>
    rw [hflights, hanswers, FiniteMap.lookup_erase_ite, FiniteMap.lookup_insert_ite, if_neg hne,
      if_neg hne]
    exact ⟨rfl, rfl⟩
  | ends hflights hanswers =>
    rw [hflights, hanswers, FiniteMap.lookup_erase_ite, if_neg hne]
    exact ⟨rfl, rfl⟩

/-- The request stays what it is while it moves. -/
theorem own {f' : InFlight} (h : FlightTurn s r f s') (hlook : s.inFlight.lookup r = some f)
    (hlook' : s'.inFlight.lookup r = some f') :
    f'.request = f.request ∧ f'.arrived = f.arrived := by
  cases h with
  | stays hflights _ => rw [hflights, hlook] at hlook'; cases hlook'; exact ⟨rfl, rfl⟩
  | moves pc hflights _ _ =>
    rw [hflights, AList.lookup_insert] at hlook'
    cases hlook'
    exact ⟨rfl, rfl⟩
  | replies a hflights _ _ | ends hflights _ =>
    rw [hflights, AList.lookup_erase] at hlook'
    cases hlook'

/-- A new answer is one to the request. -/
theorem answer {a : Answer} (h : FlightTurn s r f s') (hlook : s'.answers.lookup r = some a) :
    s.answers.lookup r = some a ∨ a.request = f.request := by
  cases h with
  | stays _ hanswers | moves _ _ hanswers _ | ends _ hanswers =>
    rw [hanswers] at hlook
    exact .inl hlook
  | replies a' _ hanswers hrequest =>
    rw [hanswers, AList.lookup_insert] at hlook
    cases hlook
    exact .inr hrequest

end FlightTurn

/-- The step drops a cap with this entry. -/
def Pc.evicts (arrived : Nat) (cap : CapId) (entry : CapEntry) : Pc → Bool
  | .checkMiss q tenant => entry.cacheKey = ⟨tenant, q.bearer.encode⟩
  | .logoutEvict bearer _ tenant => entry.cacheKey = ⟨tenant, bearer.encode⟩
  | .revokeEvict id _ => entry.leaseId = id
  | .fetchCap other => other = cap && entry.isExpired arrived
  | .fetchEvict other _ => entry.cacheKey = other.cacheKey
  | .pruneCaps evicted now => evicted.contains entry.cacheKey || entry.isExpired now
  | _ => false

/-- The step uses the cache entry under a key again. -/
def Pc.refreshes (key : CacheKey) : Pc → Bool
  | .checkCache q _ tenant _ => key = ⟨tenant, q.bearer.encode⟩
  | _ => false

/-- What a step of request `r` does to the state that requests share. -/
structure Turn (s : Broker) (r : Nat) (f : InFlight) (s' : Broker) : Prop where
  flights : FlightTurn s r f s'
  now : s'.now = s.now
  arrivals : s'.arrivals = s.arrivals
  minted : ∀ cap, (s.minted.lookup cap).isSome = true → (s'.minted.lookup cap).isSome = true
  caps : ∀ cap entry, s.caps.lookup cap = some entry → (s.minted.lookup cap).isSome = true →
    f.pc.evicts f.arrived cap entry = false → s'.caps.lookup cap = some entry
  cache : ∀ key entry, s.cache.lookup key = some entry → entry.isExpired f.arrived = false →
    s'.cache.lookup key =
      some (if f.pc.refreshes key then { entry with lastUsed := f.arrived } else entry)

namespace Turn

/-- A step that drops caps at most. -/
theorem evict (hpc : f.pc = pc) (hflights : FlightTurn s r f s') (hnow : s'.now = s.now)
    (harrivals : s'.arrivals = s.arrivals) (hminted : s'.minted = s.minted)
    (hcache : s'.cache = s.cache) (hrefreshes : ∀ key, pc.refreshes key = false)
    (hcaps : ∀ cap entry, s.caps.lookup cap = some entry →
      pc.evicts f.arrived cap entry = false → s'.caps.lookup cap = some entry) : Turn s r f s' where
  flights := hflights
  now := hnow
  arrivals := harrivals
  minted cap h := by rw [hminted]; exact h
  caps cap entry hlook _ hkept := hcaps cap entry hlook (hpc ▸ hkept)
  cache key entry hlook _ := by rw [hcache, hpc, hrefreshes key]; exact hlook

/-- A step that leaves the caps and the cache alone. -/
theorem keep (hpc : f.pc = pc) (hflights : FlightTurn s r f s') (hnow : s'.now = s.now)
    (harrivals : s'.arrivals = s.arrivals) (hminted : s'.minted = s.minted)
    (hcaps : s'.caps = s.caps) (hcache : s'.cache = s.cache)
    (hrefreshes : ∀ key, pc.refreshes key = false) : Turn s r f s' :=
  .evict hpc hflights hnow harrivals hminted hcache hrefreshes fun _ _ hlook _ => hcaps ▸ hlook

end Turn

theorem startCall_eq {tenant : String} {h : Nat} {fresh : Bool} {c : Call}
    (hstart : s.startCall hkdf tenant h fresh c = some s') : ∃ root, s' = s.setVault tenant root := by
  obtain ⟨root, -, rfl⟩ := Option.map_eq_some_iff.mp hstart
  exact ⟨root, rfl⟩

theorem insideCall_eq {tenant : String} {h : Nat} {c : Call}
    (hinside : s.insideCall hkdf tenant h c = some s') : ∃ root, s' = s.setVault tenant root := by
  unfold Broker.insideCall at hinside
  split at hinside
  next =>
    obtain ⟨root, -, rfl⟩ := Option.map_eq_some_iff.mp hinside
    exact ⟨root, rfl⟩
  next => cases hinside

theorem exportKey?_eq {lease : LeaseId} {key : Option Bytes} (hkey : s.exportKey? lease = (key, s')) :
    ∃ keys, s' = { s with leaseExportKeys := keys } := by
  revert hkey
  fun_cases Broker.exportKey? s lease <;> intro hkey <;> cases hkey
  · exact ⟨s.leaseExportKeys, rfl⟩
  · exact ⟨_, rfl⟩
  · exact ⟨s.leaseExportKeys, rfl⟩

theorem keepWritten_eq (s : Broker) (job : WriteJob) :
    ∃ stored, s.keepWritten job = { s with stored := stored } := by
  fun_cases Broker.keepWritten s job
  · exact ⟨_, rfl⟩
  · exact ⟨s.stored, rfl⟩
  · exact ⟨s.stored, rfl⟩

theorem lookup_retain_of {κ ν : Type} [DecidableEq κ] {m : FiniteMap κ ν} {p : κ → ν → Bool} {k : κ}
    {v : ν} (hlook : m.lookup k = some v) (hp : p k v = true) : (m.retain p).lookup k = some v :=
  (FiniteMap.lookup_retain_eq_some p m k v).mpr ⟨hlook, hp⟩

theorem turn_checkStep (hpc : f.pc = pc) (hstep : s.checkStep hkdf r f choice pc = some s') :
    Turn s r f s' := by
  revert hstep
  fun_cases Broker.checkStep hkdf s r f choice pc <;> intro hstep
  all_goals try cases hstep
  all_goals first
    | exact .keep hpc (.moves _ rfl rfl fun _ _ h => by cases h) rfl rfl rfl rfl rfl fun _ => rfl
    | exact .keep hpc (.replies _ rfl rfl rfl) rfl rfl rfl rfl rfl fun _ => rfl
    | skip
  · -- checkMiss
    refine .evict hpc (.replies _ rfl rfl rfl) rfl rfl rfl rfl (fun _ => rfl) fun cap entry hlook hkept => ?_
    exact lookup_retain_of hlook (by simpa [Pc.evicts] using hkept)
  · -- checkUnlock
    obtain ⟨s₁, hstart, rfl⟩ := Option.map_eq_some_iff.mp hstep
    obtain ⟨root, rfl⟩ := startCall_eq hstart
    exact .keep hpc (.moves _ rfl rfl fun _ _ h => by cases h) rfl rfl rfl rfl rfl fun _ => rfl
  · obtain ⟨root, rfl⟩ := insideCall_eq hstep
    exact .keep hpc (.stays rfl rfl) rfl rfl rfl rfl rfl fun _ => rfl
  · -- checkUnlocking
    obtain ⟨⟨hd, outcome⟩, -, hout⟩ := Option.bind_eq_some_iff.mp hstep
    cases outcome with
    | ok =>
      obtain ⟨u, -, rfl⟩ := Option.map_eq_some_iff.mp hout
      exact .keep hpc (.moves _ rfl rfl fun _ _ h => by cases h) rfl rfl rfl rfl rfl fun _ => rfl
    | error err =>
      simp only at hout
      split at hout <;> cases hout
      · exact .keep hpc (.moves _ rfl rfl fun _ _ h => by cases h) rfl rfl rfl rfl rfl fun _ => rfl
      · exact .keep hpc (.replies _ rfl rfl rfl) rfl rfl rfl rfl rfl fun _ => rfl
  · -- checkCreate
    obtain ⟨root, -, rfl⟩ := Option.map_eq_some_iff.mp hstep
    exact .keep hpc (.moves _ rfl rfl fun _ _ h => by cases h) rfl rfl rfl rfl rfl fun _ => rfl
  · -- checkCreating, inside the call
    obtain ⟨s₁, hinside, rfl⟩ := Option.map_eq_some_iff.mp hstep
    obtain ⟨root, rfl⟩ := insideCall_eq hinside
    split <;> exact .keep hpc (.stays rfl rfl) rfl rfl rfl rfl rfl fun _ => rfl
  · -- checkCreating
    obtain ⟨⟨hd, outcome⟩, -, rfl⟩ := Option.map_eq_some_iff.mp hstep
    cases outcome with
    | ok => exact .keep hpc (.moves _ rfl rfl fun _ _ h => by cases h) rfl rfl rfl rfl rfl fun _ => rfl
    | error err => exact .keep hpc (.replies _ rfl rfl rfl) rfl rfl rfl rfl rfl fun _ => rfl
  · -- checkCache
    rename_i q v tenant master key entry
    refine
      { flights := .moves _ rfl rfl fun _ _ h => (by cases h), now := rfl, arrivals := rfl
        minted := fun _ h => h, caps := fun _ _ hlook _ _ => hlook
        cache := fun key' cached hlook hlive => ?_ }
    show (s.cache.insert key entry).lookup key' = _
    rw [FiniteMap.lookup_insert_ite, hpc]
    by_cases hkey : key' = key
    · have hentry : entry = { cached with lastUsed := f.arrived } := by
        rw [hkey] at hlook
        simp only [entry, hlook]
      rw [if_pos hkey, hentry, if_pos]
      exact decide_eq_true hkey
    · rw [if_neg hkey, if_neg, hlook]
      simpa [Pc.refreshes] using hkey
  · -- checkCap
    rename_i cap q v tenant hfresh entry
    have hminted : s.minted.lookup cap = none := by simpa using hfresh
    refine
      { flights := .replies _ rfl rfl rfl, now := rfl, arrivals := rfl
        minted := fun other h => ?_, caps := fun other e hlook hold _ => ?_
        cache := fun key e hlook _ => ?_ }
    · show ((s.minted.insert cap v.lease.id).lookup other).isSome = true
      rw [FiniteMap.lookup_insert_ite]
      split
      next => rfl
      next => exact h
    · show (s.caps.insert cap entry).lookup other = some e
      rw [FiniteMap.lookup_insert_ite, if_neg]
      · exact hlook
      · rintro rfl
        rw [hminted] at hold
        cases hold
    · rw [hpc]
      exact hlook

theorem turn_logoutStep (hpc : f.pc = pc) (hstep : s.logoutStep r f choice pc = some s') :
    Turn s r f s' := by
  revert hstep
  fun_cases Broker.logoutStep s r f choice pc <;> intro hstep
  all_goals try cases hstep
  all_goals first
    | exact .keep hpc (.moves _ rfl rfl fun _ _ h => by cases h) rfl rfl rfl rfl rfl fun _ => rfl
    | exact .keep hpc (.replies _ rfl rfl rfl) rfl rfl rfl rfl rfl fun _ => rfl
    | skip
  -- logoutEvict
  refine .evict hpc (.moves _ rfl rfl fun _ _ h => by cases h) rfl rfl rfl rfl (fun _ => rfl) fun cap entry hlook hkept => ?_
  exact lookup_retain_of hlook (by simpa [Pc.evicts] using hkept)

theorem turn_revokeStep (hpc : f.pc = pc) (hstep : s.revokeStep r f choice pc = some s') :
    Turn s r f s' := by
  revert hstep
  fun_cases Broker.revokeStep s r f choice pc <;> intro hstep
  all_goals try cases hstep
  all_goals first
    | exact .keep hpc (.moves _ rfl rfl fun _ _ h => by cases h) rfl rfl rfl rfl rfl fun _ => rfl
    | exact .keep hpc (.replies _ rfl rfl rfl) rfl rfl rfl rfl rfl fun _ => rfl
    | skip
  -- revokeEvict
  refine .evict hpc (.replies _ rfl rfl rfl) rfl rfl rfl rfl (fun _ => rfl) fun cap entry hlook hkept => ?_
  exact lookup_retain_of hlook (by simpa [Pc.evicts] using hkept)

theorem turn_fetchStep (hpc : f.pc = pc) (hstep : s.fetchStep r f choice pc = some s') :
    Turn s r f s' := by
  revert hstep
  fun_cases Broker.fetchStep s r f choice pc <;> intro hstep
  all_goals try cases hstep
  all_goals first
    | exact .keep hpc (.moves _ rfl rfl fun _ _ h => by cases h) rfl rfl rfl rfl rfl fun _ => rfl
    | exact .keep hpc (.replies _ rfl rfl rfl) rfl rfl rfl rfl rfl fun _ => rfl
    | skip
  · -- fetchCap, expired
    rename_i expired entry hentry hexpired
    refine .evict hpc (.replies _ rfl rfl rfl) rfl rfl rfl rfl (fun _ => rfl) fun cap e hlook hkept => ?_
    show (s.caps.erase expired).lookup cap = some e
    rw [FiniteMap.lookup_erase_ite, if_neg]
    · exact hlook
    · rintro rfl
      rw [hentry, Option.some.injEq] at hlook
      subst hlook
      simp [Pc.evicts, hexpired] at hkept
  · -- fetchCache, an expired entry
    rename_i entry cached hcached hexpired
    refine
      { flights := .moves _ rfl rfl fun _ _ h => (by cases h), now := rfl, arrivals := rfl
        minted := fun _ h => h, caps := fun _ _ hlook _ _ => hlook
        cache := fun key e hlook hlive => ?_ }
    show (s.cache.erase entry.cacheKey).lookup key = _
    rw [hpc, FiniteMap.lookup_erase_ite, if_neg]
    · exact hlook
    · rintro rfl
      rw [hcached, Option.some.injEq] at hlook
      rw [hlook, hlive] at hexpired
      cases hexpired
  · -- fetchEvict
    refine .evict hpc (.replies _ rfl rfl rfl) rfl rfl rfl rfl (fun _ => rfl) fun cap entry hlook hkept => ?_
    exact lookup_retain_of hlook (by simpa [Pc.evicts] using hkept)

theorem turn_writeStep (hpc : f.pc = pc) (hstep : s.writeStep hkdf r f choice pc = some s') :
    Turn s r f s' := by
  revert hstep
  fun_cases Broker.writeStep hkdf s r f choice pc <;> intro hstep
  all_goals try cases hstep
  all_goals first
    | exact .keep hpc (.moves _ rfl rfl fun _ _ h => by cases h) rfl rfl rfl rfl rfl fun _ => rfl
    | exact .keep hpc (.replies _ rfl rfl rfl) rfl rfl rfl rfl rfl fun _ => rfl
    | skip
  · -- writeLease
    obtain ⟨row, -, hout⟩ := Option.bind_eq_some_iff.mp hstep
    split at hout <;> cases hout
    exact .keep hpc (.moves _ rfl rfl fun _ _ h => by cases h) rfl rfl rfl rfl rfl fun _ => rfl
  · -- writeKey, no export key
    rename_i hkey
    obtain ⟨keys, rfl⟩ := exportKey?_eq hkey
    exact .keep hpc (.replies _ rfl rfl rfl) rfl rfl rfl rfl rfl fun _ => rfl
  · -- writeKey, a bad request
    rename_i hkey _ _
    obtain ⟨keys, rfl⟩ := exportKey?_eq hkey
    exact .keep hpc (.replies _ rfl rfl rfl) rfl rfl rfl rfl rfl fun _ => rfl
  · -- writeKey
    rename_i hkey _ _ _
    obtain ⟨keys, rfl⟩ := exportKey?_eq hkey
    exact .keep hpc (.moves _ rfl rfl fun _ _ h => by cases h) rfl rfl rfl rfl rfl fun _ => rfl
  · -- writeUnlock
    obtain ⟨s₁, hstart, rfl⟩ := Option.map_eq_some_iff.mp hstep
    obtain ⟨root, rfl⟩ := startCall_eq hstart
    exact .keep hpc (.moves _ rfl rfl fun _ _ h => by cases h) rfl rfl rfl rfl rfl fun _ => rfl
  · obtain ⟨root, rfl⟩ := insideCall_eq hstep
    exact .keep hpc (.stays rfl rfl) rfl rfl rfl rfl rfl fun _ => rfl
  · -- writeUnlocking
    obtain ⟨⟨hd, outcome⟩, -, rfl⟩ := Option.map_eq_some_iff.mp hstep
    cases outcome with
    | ok => exact .keep hpc (.moves _ rfl rfl fun _ _ h => by cases h) rfl rfl rfl rfl rfl fun _ => rfl
    | error err => exact .keep hpc (.replies _ rfl rfl rfl) rfl rfl rfl rfl rfl fun _ => rfl
  · -- writePut
    obtain ⟨hd, -, hout⟩ := Option.bind_eq_some_iff.mp hstep
    obtain ⟨u, -, hout⟩ := Option.bind_eq_some_iff.mp hout
    simp only at hout
    split at hout
    next => cases hout; exact .keep hpc (.replies _ rfl rfl rfl) rfl rfl rfl rfl rfl fun _ => rfl
    next =>
      obtain ⟨s₁, hstart, rfl⟩ := Option.map_eq_some_iff.mp hout
      obtain ⟨root, rfl⟩ := startCall_eq hstart
      exact .keep hpc (.moves _ rfl rfl fun _ _ h => by cases h) rfl rfl rfl rfl rfl fun _ => rfl
  · obtain ⟨root, rfl⟩ := insideCall_eq hstep
    exact .keep hpc (.stays rfl rfl) rfl rfl rfl rfl rfl fun _ => rfl
  · -- writePersisting
    rename_i job existed
    obtain ⟨⟨hd, outcome⟩, -, rfl⟩ := Option.map_eq_some_iff.mp hstep
    cases outcome with
    | ok =>
      obtain ⟨stored, heq⟩ := keepWritten_eq s job
      simp only [heq]
      exact .keep hpc (.replies _ rfl rfl rfl) rfl rfl rfl rfl rfl fun _ => rfl
    | error err => exact .keep hpc (.replies _ rfl rfl rfl) rfl rfl rfl rfl rfl fun _ => rfl

theorem turn_loginStep (hpc : f.pc = pc) (hstep : s.loginStep r f choice pc = some s') :
    Turn s r f s' := by
  revert hstep
  fun_cases Broker.loginStep s r f choice pc <;> intro hstep
  all_goals try cases hstep
  all_goals first
    | exact .keep hpc (.replies _ rfl rfl rfl) rfl rfl rfl rfl rfl fun _ => rfl
    | skip
  -- loginInsert
  obtain ⟨row, -, rfl⟩ := Option.map_eq_some_iff.mp hstep
  exact .keep hpc (.moves _ rfl rfl fun _ _ h => by cases h) rfl rfl rfl rfl rfl fun _ => rfl

theorem turn_pruneStep (hpc : f.pc = pc) (hstep : s.pruneStep r f choice pc = some s') :
    Turn s r f s' := by
  revert hstep
  fun_cases Broker.pruneStep s r f choice pc <;> intro hstep
  all_goals try cases hstep
  · -- pruneCache
    refine
      { flights := .moves _ rfl rfl fun _ _ heq => ?_, now := rfl, arrivals := rfl
        minted := fun _ h => h, caps := fun _ _ hlook _ _ => hlook
        cache := fun key e hlook hlive => ?_ }
    · cases heq
      rfl
    · rw [hpc]
      show _ = some e
      exact lookup_retain_of hlook (by rw [hlive]; rfl)
  · -- pruneCaps
    refine .evict hpc (.moves _ rfl rfl fun _ _ h => by cases h) rfl rfl rfl rfl (fun _ => rfl) fun cap entry hlook hkept => ?_
    exact lookup_retain_of hlook (by simpa [Pc.evicts] using hkept)
  · exact .keep hpc (.ends rfl rfl) rfl rfl rfl rfl rfl fun _ => rfl

/-- **A step of a handler is a turn**. -/
theorem turn_of_step (hstep : s.step hkdf r f choice = some s') : Turn s r f s' := by
  unfold Broker.step at hstep
  split at hstep
  all_goals first
    | exact turn_checkStep rfl hstep
    | exact turn_logoutStep rfl hstep
    | exact turn_revokeStep rfl hstep
    | exact turn_fetchStep rfl hstep
    | exact turn_writeStep rfl hstep
    | exact turn_loginStep rfl hstep
    | exact turn_pruneStep rfl hstep

end Botwork.AuthBroker
