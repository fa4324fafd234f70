import Botwork.Vault.Contents

/-!
# Leases, caps and cache entries

The lease table, the cap map and the cache of unlocked master keys, with the
operations the handlers of the auth-broker make on them.  Digests are ideal: a
bearer hash and a cache key determine what was hashed.  Times are in
nanoseconds.

## Main definitions

- `Token`, `Bearer` — what a header carries
- `LeaseRow`, `validateAndExtend`, `revokeWhere` — the lease store
- `CapEntry`, `evictCapsForLease`, `evictCapsForCacheKey` — the cap map
- `CacheEntry`, `TtlConfig` — the cache
-/

namespace Botwork.AuthBroker

open Botwork.Foundations Botwork.Vault

abbrev TenantId := Nat
abbrev LeaseId := Nat
abbrev CapId := Nat

@[irreducible] def seconds (n : Nat) : Nat := n * 1000000000

-- ════════════════════════════════════════════════════════════════════════
-- Bearers
-- ════════════════════════════════════════════════════════════════════════

def bearerBytes : Nat := 32

/-- A token from a header: the unpadded base64url form of some bytes, or a text
    that does not decode. -/
inductive Token where
  | encoded (bytes : Bytes)
  | other (text : String)
  deriving DecidableEq, Repr

structure Bearer where
  bytes : Bytes
  length_eq : bytes.length = bearerBytes
  deriving DecidableEq

/-- The decoding of `try_lease_path` and `validate_request_lease`. -/
def Token.bearer : Token → Option Bearer
  | .encoded bytes => if h : bytes.length = bearerBytes then some ⟨bytes, h⟩ else none
  | .other _ => none

/-- `URL_SAFE_NO_PAD.encode`. -/
def Bearer.encode (bearer : Bearer) : Token := .encoded bearer.bytes

/-- The SHA-256 digest of a bearer. -/
structure BearerHash where
  preimage : Bearer
  deriving DecidableEq

def Bearer.hash (bearer : Bearer) : BearerHash := ⟨bearer⟩

-- ════════════════════════════════════════════════════════════════════════
-- The lease store
-- ════════════════════════════════════════════════════════════════════════

def leaseHardCapSeconds : Nat := 30 * 86400
def leaseIdleWindowSeconds : Nat := 3600

def capLeaseSeconds (requested : Nat) : Nat := min requested leaseHardCapSeconds

structure LeaseRow where
  id : LeaseId
  tenantId : TenantId
  bearerHash : BearerHash
  /-- the session key of the login, wrapped under the bearer -/
  wrappedExportKey : Sealed Bytes
  issuedAt : Nat
  expiresAt : Nat
  idleExtendsTo : Nat
  revokedAt : Option Nat
  deriving DecidableEq

abbrev LeaseStore := FiniteMap LeaseId LeaseRow

def wrapSessionKey (bearer : Bearer) (sessionKey : Bytes) : Sealed Bytes :=
  ⟨bearer.bytes, sessionKey⟩

def unwrapSessionKey (bearer : Bearer) (wrapped : Sealed Bytes) : Option Bytes :=
  (wrapped.open bearer.bytes).toOption

def computeIdleExtendsTo (now expiresAt : Nat) : Nat :=
  min (now + seconds leaseIdleWindowSeconds) expiresAt

/-- The row can be validated no more. -/
def LeaseRow.dead (row : LeaseRow) (now : Nat) : Bool :=
  row.revokedAt.isSome || row.expiresAt ≤ now || row.idleExtendsTo ≤ now

theorem LeaseRow.dead_mono {row : LeaseRow} {now later : Nat} (hle : now ≤ later)
    (hdead : row.dead now = true) : row.dead later = true := by
  simp only [LeaseRow.dead, Bool.or_eq_true, decide_eq_true_eq, or_assoc] at hdead ⊢
  exact hdead.imp_right fun htime => by omega

/-- The row with a bearer hash; the index on that column is unique. -/
def LeaseStore.findByHash (leases : LeaseStore) (hash : BearerHash) : Option LeaseRow :=
  (leases.find? fun _ row => row.bearerHash = hash).map Prod.snd

/-- `insert_lease`; `none` when an index or the tenant reference rejects the row. -/
def LeaseStore.insertLease (leases : LeaseStore) (tenantExists : Bool) (id : LeaseId)
    (tenantId : TenantId) (bearer : Bearer) (sessionKey : Bytes) (leaseSeconds now : Nat) :
    Option LeaseStore :=
  if (leases.lookup id).isSome ∨ (leases.findByHash bearer.hash).isSome ∨ tenantExists = false then
    none
  else
    let expiresAt := now + seconds (capLeaseSeconds leaseSeconds)
    some (leases.insert id
      { id := id
        tenantId := tenantId
        bearerHash := bearer.hash
        wrappedExportKey := wrapSessionKey bearer sessionKey
        issuedAt := now
        expiresAt := expiresAt
        idleExtendsTo := computeIdleExtendsTo now expiresAt
        revokedAt := none })

inductive ValidationError where
  | expired
  | revoked
  | db
  deriving DecidableEq, Repr

structure ValidatedLease where
  lease : LeaseRow
  exportKey : Bytes
  deriving DecidableEq

/-- The sliding extension of a validated row. -/
def LeaseRow.extend (row : LeaseRow) (now : Nat) : LeaseRow :=
  { row with idleExtendsTo := max (computeIdleExtendsTo now row.expiresAt) row.idleExtendsTo }

/-- `validate_and_extend`: the result and the rows afterwards. -/
def LeaseStore.validateAndExtend (leases : LeaseStore) (bearer : Bearer) (now : Nat) :
    Except ValidationError (Option ValidatedLease) × LeaseStore :=
  match leases.findByHash bearer.hash with
  | none => (.ok none, leases)
  | some row =>
    if row.revokedAt.isSome then (.error .revoked, leases)
    else if row.expiresAt ≤ now ∨ row.idleExtendsTo ≤ now then (.error .expired, leases)
    else
      match unwrapSessionKey bearer row.wrappedExportKey with
      | none => (.ok none, leases)
      | some exportKey =>
        (.ok (some ⟨row.extend now, exportKey⟩), leases.insert row.id (row.extend now))

/-- `revoke` and `revoke_by_id`, one statement with two filters: the rows
    afterwards and the number of rows affected. -/
def LeaseStore.revokeRow (leases : LeaseStore) (row : Option LeaseRow) (now : Nat) :
    LeaseStore × Nat :=
  match row with
  | none => (leases, 0)
  | some row =>
    if row.revokedAt.isSome then (leases, 0)
    else (leases.insert row.id { row with revokedAt := some now }, 1)

def LeaseStore.revoke (leases : LeaseStore) (hash : BearerHash) (now : Nat) : LeaseStore × Nat :=
  leases.revokeRow (leases.findByHash hash) now

def LeaseStore.revokeById (leases : LeaseStore) (id : LeaseId) (now : Nat) : LeaseStore × Nat :=
  leases.revokeRow (leases.lookup id) now

/-- The row is one that `find_active_lease_for_tenant` may return: the newest of
    the live rows of the tenant. -/
def LeaseStore.isNewestActive (leases : LeaseStore) (tenantId : TenantId) (now : Nat)
    (row : LeaseRow) : Bool :=
  row.tenantId = tenantId && !row.dead now &&
    leases.all fun _ other =>
      other.tenantId ≠ tenantId || other.dead now || other.issuedAt ≤ row.issuedAt

/-- The query finds no row. -/
def LeaseStore.noneActive (leases : LeaseStore) (tenantId : TenantId) (now : Nat) : Bool :=
  leases.all fun _ other => other.tenantId ≠ tenantId || other.dead now

/-- What no statement changes about a row. -/
structure LeaseRow.Same (row row' : LeaseRow) : Prop where
  id : row'.id = row.id
  tenantId : row'.tenantId = row.tenantId
  bearerHash : row'.bearerHash = row.bearerHash
  wrappedExportKey : row'.wrappedExportKey = row.wrappedExportKey

theorem LeaseRow.Same.refl (row : LeaseRow) : row.Same row := ⟨rfl, rfl, rfl, rfl⟩

-- Not by `rfl`: the comparison of the two rows would count nanoseconds in unary.
theorem LeaseRow.same_extend (row : LeaseRow) (now : Nat) : row.Same (row.extend now) := by
  rw [LeaseRow.extend]
  exact ⟨rfl, rfl, rfl, rfl⟩

/-- The indices of the lease table, and how its keys are wrapped. -/
structure LeaseStore.Indexed (leases : LeaseStore) : Prop where
  id_eq : ∀ id row, leases.lookup id = some row → row.id = id
  unique : ∀ id id' row row', leases.lookup id = some row → leases.lookup id' = some row' →
    row.bearerHash = row'.bearerHash → id = id'
  wrapped : ∀ id row, leases.lookup id = some row →
    row.wrappedExportKey.key = row.bearerHash.preimage.bytes

/-- Every row stays, with its login, and a dead row stays dead. -/
def LeaseStore.Keeps (leases leases' : LeaseStore) (now : Nat) : Prop :=
  ∀ id row, leases.lookup id = some row → ∃ row', leases'.lookup id = some row' ∧
    row.Same row' ∧ (row.dead now = true → row'.dead now = true)

namespace LeaseStore

variable {leases leases' : LeaseStore} {now : Nat}

theorem Keeps.refl (leases : LeaseStore) (now : Nat) : leases.Keeps leases now :=
  fun _ row hlook => ⟨row, hlook, .refl row, id⟩

theorem findByHash_eq_some {hash : BearerHash} {row : LeaseRow}
    (hfind : leases.findByHash hash = some row) (hindexed : leases.Indexed) :
    leases.lookup row.id = some row ∧ row.bearerHash = hash := by
  obtain ⟨⟨id, found⟩, hsome, rfl⟩ := Option.map_eq_some_iff.mp hfind
  obtain ⟨hlook, hhash⟩ := FiniteMap.find?_eq_some hsome
  rw [hindexed.id_eq id found hlook]
  exact ⟨hlook, of_decide_eq_true hhash⟩

theorem findByHash_eq_none {hash : BearerHash} (hfind : leases.findByHash hash = none)
    {id : LeaseId} {row : LeaseRow} (hlook : leases.lookup id = some row) :
    row.bearerHash ≠ hash :=
  of_decide_eq_false (FiniteMap.find?_eq_none (Option.map_eq_none_iff.mp hfind) hlook)

/-- Every row after an update is a row from before it. -/
theorem lookup_update {row row' : LeaseRow} (hlook : leases.lookup row.id = some row)
    (hsame : row.Same row') {id : LeaseId} {found : LeaseRow}
    (hfound : (leases.insert row.id row').lookup id = some found) :
    ∃ old, leases.lookup id = some old ∧ old.Same found := by
  rw [FiniteMap.lookup_insert_ite] at hfound
  split at hfound
  next heq => cases hfound; exact ⟨row, heq ▸ hlook, hsame⟩
  next => exact ⟨found, hfound, .refl found⟩

/-- The rows after an update of one row. -/
theorem update_keeps (row row' : LeaseRow) (hindexed : leases.Indexed)
    (hlook : leases.lookup row.id = some row) (hsame : row.Same row')
    (hdead : row.dead now = true → row'.dead now = true) :
    leases.Keeps (leases.insert row.id row') now ∧
      LeaseStore.Indexed (leases.insert row.id row') := by
  have hrows : ∀ id found, (leases.insert row.id row').lookup id = some found →
      ∃ old, leases.lookup id = some old ∧ old.Same found :=
    fun _ _ hfound => lookup_update hlook hsame hfound
  refine ⟨fun id found hfound => ?_, ⟨fun id found hfound => ?_, ?_, fun id found hfound => ?_⟩⟩
  · rw [FiniteMap.lookup_insert_ite]
    by_cases heq : id = row.id
    · rw [if_pos heq]
      rw [heq, hlook] at hfound
      cases hfound
      exact ⟨row', rfl, hsame, hdead⟩
    · rw [if_neg heq]
      exact ⟨found, hfound, .refl found, fun h => h⟩
  · obtain ⟨old, hold, hsame'⟩ := hrows id found hfound
    rw [hsame'.id]
    exact hindexed.id_eq id old hold
  · intro id id' found found' hfound hfound' heq
    obtain ⟨old, hold, h₁⟩ := hrows id found hfound
    obtain ⟨old', hold', h₂⟩ := hrows id' found' hfound'
    rw [h₁.bearerHash, h₂.bearerHash] at heq
    exact hindexed.unique id id' old old' hold hold' heq
  · obtain ⟨old, hold, hsame'⟩ := hrows id found hfound
    rw [hsame'.wrappedExportKey, hsame'.bearerHash]
    exact hindexed.wrapped id old hold

theorem insertLease_keeps {tenantExists : Bool} {id : LeaseId} {tenantId : TenantId}
    {bearer : Bearer} {sessionKey : Bytes} {leaseSeconds : Nat} (hindexed : leases.Indexed)
    (hinsert : leases.insertLease tenantExists id tenantId bearer sessionKey leaseSeconds now =
      some leases') : leases.Keeps leases' now ∧ leases'.Indexed := by
  unfold insertLease at hinsert
  split at hinsert
  next => cases hinsert
  next hfree =>
    simp only [not_or, Bool.not_eq_true, Option.isSome_eq_false_iff, Option.isNone_iff_eq_none]
      at hfree
    obtain ⟨hid, hhash, -⟩ := hfree
    cases hinsert
    refine ⟨fun id' row hlook => ⟨row, ?_, .refl row, fun h => h⟩,
      ⟨fun id' row hlook => ?_, ?_, fun id' row hlook => ?_⟩⟩
    · rw [FiniteMap.lookup_insert_ite, if_neg]
      · exact hlook
      · rintro rfl
        rw [hid] at hlook
        cases hlook
    · rw [FiniteMap.lookup_insert_ite] at hlook
      split at hlook
      next heq => cases hlook; exact heq.symm
      next => exact hindexed.id_eq id' row hlook
    · intro a b row row' hrow hrow' heq
      rw [FiniteMap.lookup_insert_ite] at hrow hrow'
      split at hrow <;> split at hrow'
      next ha hb => rw [ha, hb]
      next => cases hrow; exact absurd heq.symm (findByHash_eq_none hhash hrow')
      next => cases hrow'; exact absurd heq (findByHash_eq_none hhash hrow)
      next => exact hindexed.unique a b row row' hrow hrow' heq
    · rw [FiniteMap.lookup_insert_ite] at hlook
      split at hlook
      next => cases hlook; rfl
      next => exact hindexed.wrapped id' row hlook

/-- Every row after an insertion is the new one or one from before it. -/
theorem lookup_insertLease {tenantExists : Bool} {id : LeaseId} {tenantId : TenantId}
    {bearer : Bearer} {sessionKey : Bytes} {leaseSeconds : Nat}
    (hinsert : leases.insertLease tenantExists id tenantId bearer sessionKey leaseSeconds now =
      some leases') {k : LeaseId} {row : LeaseRow} (hrow : leases'.lookup k = some row) :
    (id = k ∧ row.tenantId = tenantId ∧ row.bearerHash = bearer.hash) ∨
      leases.lookup k = some row := by
  unfold insertLease at hinsert
  split at hinsert
  next => cases hinsert
  next =>
    cases hinsert
    rw [FiniteMap.lookup_insert_ite] at hrow
    split at hrow
    next heq => cases hrow; exact .inl ⟨heq.symm, rfl, rfl⟩
    next => exact .inr hrow

theorem Indexed.retain {leases : LeaseStore} (h : leases.Indexed) (p : LeaseId → LeaseRow → Bool) :
    LeaseStore.Indexed (FiniteMap.retain p leases) where
  id_eq id row hrow := h.id_eq id row ((FiniteMap.lookup_retain_eq_some p leases id row).mp hrow).1
  unique id id' row row' hrow hrow' :=
    h.unique id id' row row' ((FiniteMap.lookup_retain_eq_some p leases id row).mp hrow).1
      ((FiniteMap.lookup_retain_eq_some p leases id' row').mp hrow').1
  wrapped id row hrow :=
    h.wrapped id row ((FiniteMap.lookup_retain_eq_some p leases id row).mp hrow).1

theorem lookup_revokeRow {row : Option LeaseRow}
    (hrow : ∀ found, row = some found → leases.lookup found.id = some found) {id : LeaseId}
    {row' : LeaseRow} (hlook : (leases.revokeRow row now).1.lookup id = some row') :
    ∃ old, leases.lookup id = some old ∧ old.Same row' := by
  unfold revokeRow at hlook
  split at hlook
  next => exact ⟨row', hlook, .refl row'⟩
  next found =>
    split at hlook
    next => exact ⟨row', hlook, .refl row'⟩
    next =>
      have hsame : found.Same { found with revokedAt := some now } := ⟨rfl, rfl, rfl, rfl⟩
      exact lookup_update (hrow found rfl) hsame hlook

theorem revokeRow_keeps {row : Option LeaseRow} (hindexed : leases.Indexed)
    (hrow : ∀ found, row = some found → leases.lookup found.id = some found) :
    leases.Keeps (leases.revokeRow row now).1 now ∧ (leases.revokeRow row now).1.Indexed := by
  unfold revokeRow
  split
  next => exact ⟨Keeps.refl _ _, hindexed⟩
  next found =>
    split
    next => exact ⟨Keeps.refl _ _, hindexed⟩
    next =>
      have hlook := hrow found rfl
      exact update_keeps found _ hindexed hlook ⟨rfl, rfl, rfl, rfl⟩ fun _ => by
        simp [LeaseRow.dead]

/-- A row that `revokeRow` is given is dead afterwards. -/
theorem revokeRow_dead {row : LeaseRow} (hlook : leases.lookup row.id = some row) :
    ∃ row', (leases.revokeRow (some row) now).1.lookup row.id = some row' ∧
      row.Same row' ∧ row'.dead now = true := by
  simp only [revokeRow]
  split
  next hrevoked => exact ⟨row, hlook, .refl row, by simp [LeaseRow.dead, hrevoked]⟩
  next =>
    exact ⟨_, AList.lookup_insert leases, ⟨rfl, rfl, rfl, rfl⟩, by simp [LeaseRow.dead]⟩

/-- After `revoke` the row of the hash, if there is one, is dead. -/
theorem revoke_dead {hash : BearerHash} {row' : LeaseRow} (hindexed : leases.Indexed)
    (hfind' : LeaseStore.findByHash (leases.revoke hash now).1 hash = some row') :
    row'.dead now = true ∧ ∃ row, leases.findByHash hash = some row ∧ row.id = row'.id := by
  cases hfind : leases.findByHash hash with
  | none =>
    rw [revoke, hfind] at hfind'
    have hnone : leases.findByHash hash = some row' := hfind'
    rw [hfind] at hnone
    cases hnone
  | some row =>
    obtain ⟨hlook, hhash⟩ := findByHash_eq_some hfind hindexed
    have hindexed' : LeaseStore.Indexed (leases.revoke hash now).1 :=
      (revokeRow_keeps hindexed fun found h => (findByHash_eq_some h hindexed).1).2
    obtain ⟨hlook', hhash'⟩ := findByHash_eq_some hfind' hindexed'
    obtain ⟨row'', hlook'', hsame, hdead⟩ := @revokeRow_dead leases now row hlook
    rw [revoke, hfind] at hlook' hindexed'
    have hid : row'.id = row.id := by
      refine hindexed'.unique _ _ row' row'' hlook' hlook'' ?_
      rw [hhash', hsame.bearerHash, hhash]
    rw [hid, hlook''] at hlook'
    cases hlook'
    exact ⟨hdead, row, rfl, hid.symm⟩

/-- A validation either finds the row of the bearer live, or leaves the rows as
    they are. -/
theorem validateAndExtend_cases {bearer : Bearer} (hindexed : leases.Indexed) :
    (∃ row, leases.lookup row.id = some row ∧ row.bearerHash = bearer.hash ∧
        row.dead now = false ∧
        leases.validateAndExtend bearer now =
          (.ok (some ⟨row.extend now, row.wrappedExportKey.payload⟩),
            leases.insert row.id (row.extend now))) ∨
      (∀ v, (leases.validateAndExtend bearer now).1 ≠ .ok (some v)) ∧
        (leases.validateAndExtend bearer now).2 = leases ∧
        ∀ row, leases.findByHash bearer.hash = some row → row.dead now = true := by
  unfold validateAndExtend
  cases hfind : leases.findByHash bearer.hash with
  | none =>
    refine Or.inr ⟨fun v h => ?_, rfl, fun row h => ?_⟩
    · cases h
    · cases h
  | some row =>
    obtain ⟨hlook, hhash⟩ := findByHash_eq_some hfind hindexed
    by_cases hrevoked : row.revokedAt.isSome = true
    · refine Or.inr ⟨fun v h => ?_, ?_, fun row' h => ?_⟩
      · simp [hrevoked] at h
      · simp [hrevoked]
      · cases h
        simp [LeaseRow.dead, hrevoked]
    · by_cases htime : row.expiresAt ≤ now ∨ row.idleExtendsTo ≤ now
      · refine Or.inr ⟨fun v h => ?_, ?_, fun row' h => ?_⟩
        · simp [hrevoked, htime] at h
        · simp [hrevoked, htime]
        · cases h
          simpa [LeaseRow.dead, hrevoked] using htime
      · -- the row unwraps, since it was wrapped under its own bearer
        have hkey : row.wrappedExportKey.key = bearer.bytes := by
          rw [hindexed.wrapped _ row hlook, hhash]
          rfl
        have hopen : unwrapSessionKey bearer row.wrappedExportKey =
            some row.wrappedExportKey.payload := by
          rw [unwrapSessionKey, Sealed.open_eq_ok.mpr ⟨hkey, rfl⟩]
          rfl
        refine Or.inl ⟨row, hlook, hhash, ?_, ?_⟩
        · rw [not_or] at htime
          simpa [LeaseRow.dead, hrevoked] using htime
        · simp only [hrevoked, Bool.false_eq_true, if_false, htime, hopen]

theorem validateAndExtend_keeps {bearer : Bearer} (hindexed : leases.Indexed) :
    leases.Keeps (leases.validateAndExtend bearer now).2 now ∧
      (leases.validateAndExtend bearer now).2.Indexed := by
  rcases @validateAndExtend_cases leases now bearer hindexed with ⟨row, hlook, -, hlive, heq⟩ | ⟨-, heq, -⟩
  · rw [heq]
    refine update_keeps row (row.extend now) hindexed hlook (row.same_extend now) fun hdead => ?_
    rw [hlive] at hdead
    cases hdead
  · rw [heq]
    exact ⟨Keeps.refl _ _, hindexed⟩

theorem lookup_validateAndExtend {bearer : Bearer} (hindexed : leases.Indexed) {id : LeaseId}
    {row' : LeaseRow} (hlook : (leases.validateAndExtend bearer now).2.lookup id = some row') :
    ∃ old, leases.lookup id = some old ∧ old.Same row' := by
  obtain ⟨row, hrow, -, -, heq⟩ | ⟨-, heq, -⟩ := @validateAndExtend_cases leases now bearer hindexed
  · rw [heq] at hlook
    exact lookup_update hrow (row.same_extend now) hlook
  · rw [heq] at hlook
    exact ⟨row', hlook, .refl row'⟩

end LeaseStore

-- ════════════════════════════════════════════════════════════════════════
-- Caps and the cache
-- ════════════════════════════════════════════════════════════════════════

/-- The BLAKE2b digest of a tenant name and a bearer. -/
structure CacheKey where
  tenant : String
  bearer : Token
  deriving DecidableEq

def capTtl : Nat := seconds 60

structure CapEntry where
  cacheKey : CacheKey
  namesp : String
  plugin : String
  expiresAt : Nat
  leaseId : LeaseId
  deriving DecidableEq

abbrev CapMap := FiniteMap CapId CapEntry

def CapEntry.isExpired (entry : CapEntry) (now : Nat) : Bool := entry.expiresAt ≤ now

/-- `mint_cap_value`. -/
def mintCapValue (cacheKey : CacheKey) (namesp plugin : String) (leaseId : LeaseId) (now : Nat) :
    CapEntry :=
  ⟨cacheKey, namesp, plugin, now + capTtl, leaseId⟩

def CapMap.evictCapsForLease (caps : CapMap) (leaseId : LeaseId) : CapMap :=
  caps.retain fun _ entry => entry.leaseId ≠ leaseId

def CapMap.evictCapsForCacheKey (caps : CapMap) (cacheKey : CacheKey) : CapMap :=
  caps.retain fun _ entry => entry.cacheKey ≠ cacheKey

def CapMap.pruneCaps (caps : CapMap) (evicted : List CacheKey) (now : Nat) : CapMap :=
  caps.retain fun _ entry => !evicted.contains entry.cacheKey && !entry.isExpired now

/-- `TtlConfig`; the constructors have raised every value to its floor. -/
structure TtlConfig where
  defaultIdle : Nat
  defaultAbsolute : Nat
  minIdle : Nat
  minAbsolute : Nat
  perTenantIdle : FiniteMap String Nat
  perTenantAbsolute : FiniteMap String Nat

def TtlConfig.default : TtlConfig where
  defaultIdle := seconds (5 * 60)
  defaultAbsolute := seconds (8 * 3600)
  minIdle := seconds 1
  minAbsolute := seconds 1
  perTenantIdle := ∅
  perTenantAbsolute := ∅

def TtlConfig.idleFor (ttl : TtlConfig) (tenant : String) : Nat :=
  max ((ttl.perTenantIdle.lookup tenant).getD ttl.defaultIdle) ttl.minIdle

def TtlConfig.absoluteFor (ttl : TtlConfig) (tenant : String) : Nat :=
  max ((ttl.perTenantAbsolute.lookup tenant).getD ttl.defaultAbsolute) ttl.minAbsolute

/-- A cached master key; the tenant's name is also where its vault lies. -/
structure CacheEntry where
  tenant : String
  master : Bytes
  suiteVersion : UInt8
  expiresAt : Nat
  lastUsed : Nat
  createdAt : Nat
  idleTtl : Nat
  deriving DecidableEq

def CacheEntry.isExpired (entry : CacheEntry) (now : Nat) : Bool :=
  entry.expiresAt < now || entry.idleTtl < now - entry.lastUsed

/-- Age after which a remembered export key is dropped. -/
def leaseExportKeyTtl : Nat := seconds (5 * 60)

end Botwork.AuthBroker
