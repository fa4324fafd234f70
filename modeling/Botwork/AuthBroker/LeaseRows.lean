import Botwork.AuthBroker.Leases
import Botwork.Foundations.ReadCommitted
import Botwork.Foundations.Transition

/-!
# Leases between statements

The statements of `auth/lease.rs` on the lease table, with the SELECT, the UPDATE
and the COMMIT of a validation as separate steps.  A validation rewrites
`idle_extends_to` from the row its SELECT read, so of two validations with
different clocks the later UPDATE may set it back.  `lease_state_machine` proves
the laws of a lease over all runs, and that `idle_extends_to` never decreases in
the runs in which no UPDATE does that.

## Main definitions

- `LeaseDb` — the table, the validations and their results
- `leaseTable` — the transition system
- `Sliding` — no UPDATE overtakes a later clock
- `LeaseDb.Inv` — the invariant
-/

namespace Botwork.AuthBroker

open Botwork.Foundations Botwork.Vault

/-- A time as a `timestamptz` column holds it. -/
def micros (time : Nat) : Nat := time / 1000 * 1000

theorem micros_le (time : Nat) : micros time ≤ time := Nat.div_mul_le_self time 1000

theorem micros_mono {time later : Nat} (h : time ≤ later) : micros time ≤ micros later :=
  Nat.mul_le_mul_right 1000 (Nat.div_le_div_right h)

@[simp]
theorem micros_micros (time : Nat) : micros (micros time) = micros time := by
  unfold micros
  omega

theorem micros_add_seconds (time n : Nat) : micros (time + seconds n) = micros time + seconds n := by
  unfold micros seconds
  omega

-- ════════════════════════════════════════════════════════════════════════
-- The table and its statements
-- ════════════════════════════════════════════════════════════════════════

/-- Where a validation stands: before its UPDATE, with the row its SELECT read,
    or before its COMMIT. -/
inductive ValidationStage where
  | update (read : LeaseRow) (exportKey : Bytes)
  | commit (result : ValidatedLease)
  deriving DecidableEq

structure Validation where
  now : Nat
  stage : ValidationStage
  deriving DecidableEq

abbrev ValidationResult := Except ValidationError (Option ValidatedLease)

structure LeaseDb where
  rows : Table CallId LeaseId LeaseRow
  calls : Nat
  inFlight : FiniteMap CallId Validation
  results : FiniteMap CallId ValidationResult

inductive LeaseEvent where
  | insertLease (id : LeaseId) (tenantId : TenantId) (hash : BearerHash) (wrapped : Sealed Bytes)
      (leaseSeconds now : Nat)
  /-- `validate_and_extend` begins its transaction and selects the row -/
  | select (bearer : Bearer) (now : Nat)
  | update (call : CallId)
  | commit (call : CallId)
  /-- the database fails -/
  | fail (call : CallId)
  /-- the handler goes away -/
  | drop (call : CallId)
  | revoke (hash : BearerHash) (now : Nat)
  | revokeById (id : LeaseId) (now : Nat)

namespace LeaseDb

def init : LeaseDb := ⟨∅, 0, ∅, ∅⟩

/-- `insert_lease`; `none` when the primary key or the index on the hash refuses
    the row. -/
def insertLease (s : LeaseDb) (id : LeaseId) (tenantId : TenantId) (hash : BearerHash)
    (wrapped : Sealed Bytes) (leaseSeconds now : Nat) : Option LeaseDb :=
  if (Table.view s.rows s.calls id).isSome ∨
      Table.any s.rows s.calls (fun _ row => row.bearerHash = hash) then none
  else
    let expiresAt := now + seconds (capLeaseSeconds leaseSeconds)
    (Table.write s.rows s.calls id (some
      { id := id
        tenantId := tenantId
        bearerHash := hash
        wrappedExportKey := wrapped
        issuedAt := micros now
        expiresAt := micros expiresAt
        idleExtendsTo := micros (computeIdleExtendsTo now expiresAt)
        revokedAt := none })).map fun rows =>
          { s with rows := Table.commit rows s.calls, calls := s.calls + 1 }

/-- A validation ends with this result. -/
def finish (s : LeaseDb) (call : CallId) (result : ValidationResult) : LeaseDb :=
  { s with inFlight := s.inFlight.erase call, results := s.results.insert call result }

/-- The SELECT of `validate_and_extend_inner` and the checks of its row. -/
def select (s : LeaseDb) (bearer : Bearer) (now : Nat) : LeaseDb :=
  let s' := { s with calls := s.calls + 1 }
  match Table.find? s.rows s.calls (fun _ row => row.bearerHash = bearer.hash) with
  | none => s'.finish s.calls (.ok none)
  | some (_, row) =>
    if row.revokedAt.isSome then s'.finish s.calls (.error .revoked)
    else if row.expiresAt ≤ now ∨ row.idleExtendsTo ≤ now then s'.finish s.calls (.error .expired)
    else
      match unwrapSessionKey bearer row.wrappedExportKey with
      | none => s'.finish s.calls (.ok none)
      | some exportKey =>
        { s' with inFlight := s.inFlight.insert s.calls ⟨now, .update row exportKey⟩ }

/-- The transaction of a validation is rolled back. -/
def abort (s : LeaseDb) (call : CallId) : LeaseDb :=
  { s with rows := Table.rollback s.rows call, inFlight := s.inFlight.erase call }

/-- The UPDATE, which sets one column of the row as it stands. -/
def update (s : LeaseDb) (call : CallId) (v : Validation) : Option LeaseDb :=
  match v.stage with
  | .update read exportKey =>
    match Table.view s.rows call read.id with
    | none => some ((s.abort call).finish call (.error .db))
    | some row =>
      (Table.write s.rows call read.id
        (some { row with idleExtendsTo := micros (read.extend v.now).idleExtendsTo })).map fun rows =>
          { s with
            rows := rows
            inFlight := s.inFlight.insert call ⟨v.now, .commit ⟨read.extend v.now, exportKey⟩⟩ }
  | .commit _ => none

def commit (s : LeaseDb) (call : CallId) (v : Validation) : Option LeaseDb :=
  match v.stage with
  | .update _ _ => none
  | .commit result =>
    some ({ s with rows := Table.commit s.rows call }.finish call (.ok (some result)))

/-- `revoke` and `revoke_by_id`: one UPDATE of the rows that are not revoked. -/
def revokeWhere (s : LeaseDb) (p : LeaseRow → Bool) (now : Nat) : Option LeaseDb :=
  match Table.find? s.rows s.calls (fun _ row => p row && row.revokedAt.isNone) with
  | none => some s
  | some (id, row) =>
    (Table.write s.rows s.calls id (some { row with revokedAt := some (micros now) })).map fun rows =>
      { s with rows := Table.commit rows s.calls, calls := s.calls + 1 }

def next (s : LeaseDb) : LeaseEvent → Option LeaseDb
  | .insertLease id tenantId hash wrapped leaseSeconds now =>
    s.insertLease id tenantId hash wrapped leaseSeconds now
  | .select bearer now => some (s.select bearer now)
  | .update call => (s.inFlight.lookup call).bind (s.update call)
  | .commit call => (s.inFlight.lookup call).bind (s.commit call)
  | .fail call => (s.inFlight.lookup call).map fun _ => (s.abort call).finish call (.error .db)
  | .drop call => (s.inFlight.lookup call).map fun _ => s.abort call
  | .revoke hash now => s.revokeWhere (fun row => row.bearerHash = hash) now
  | .revokeById id now => s.revokeWhere (fun row => row.id = id) now

end LeaseDb

def leaseTable : Machine LeaseDb LeaseEvent where
  Start s := s = LeaseDb.init
  next := LeaseDb.next

/-- The row an UPDATE meets reaches no further than the row its SELECT read, or
    than the idle window of its own clock. -/
def Sliding (s : LeaseDb) : LeaseEvent → Bool
  | .update call => (s.inFlight.lookup call).all fun v =>
    match v.stage with
    | .update read _ => (Table.view s.rows call read.id).all fun row =>
        row.idleExtendsTo ≤ read.idleExtendsTo ||
          row.idleExtendsTo ≤ v.now + seconds leaseIdleWindowSeconds
    | .commit _ => true
  | _ => true

-- ════════════════════════════════════════════════════════════════════════
-- Rows
-- ════════════════════════════════════════════════════════════════════════

/-- The bounds of a row, whose times are those of columns. -/
structure LeaseRow.Bounded (row : LeaseRow) : Prop where
  idle_le : row.idleExtendsTo ≤ row.expiresAt
  expires_le : row.expiresAt ≤ row.issuedAt + seconds leaseHardCapSeconds
  idle_micros : micros row.idleExtendsTo = row.idleExtendsTo
  expires_micros : micros row.expiresAt = row.expiresAt

/-- What no statement changes about a committed row: whose it is, when it expires,
    and when it was revoked. -/
structure LeaseRow.Lasts (row row' : LeaseRow) : Prop where
  id : row'.id = row.id
  bearerHash : row'.bearerHash = row.bearerHash
  issuedAt : row'.issuedAt = row.issuedAt
  expiresAt : row'.expiresAt = row.expiresAt
  revokedAt : ∀ time, row.revokedAt = some time → row'.revokedAt = some time

theorem LeaseRow.Lasts.refl (row : LeaseRow) : row.Lasts row := ⟨rfl, rfl, rfl, rfl, fun _ h => h⟩

theorem LeaseRow.Lasts.trans {row row' row'' : LeaseRow} (h : row.Lasts row')
    (h' : row'.Lasts row'') : row.Lasts row'' where
  id := h'.id.trans h.id
  bearerHash := h'.bearerHash.trans h.bearerHash
  issuedAt := h'.issuedAt.trans h.issuedAt
  expiresAt := h'.expiresAt.trans h.expiresAt
  revokedAt time htime := h'.revokedAt time (h.revokedAt time htime)

theorem extend_idle (row : LeaseRow) (now : Nat) :
    (row.extend now).idleExtendsTo =
      max (computeIdleExtendsTo now row.expiresAt) row.idleExtendsTo := by
  rw [LeaseRow.extend]

/-- The extension of what was read keeps within the bounds of the row. -/
theorem LeaseRow.Bounded.extend {read row : LeaseRow} (h : row.Bounded) (hread : read.Bounded)
    (hexpires : read.expiresAt = row.expiresAt) (now : Nat) :
    LeaseRow.Bounded { row with idleExtendsTo := micros (read.extend now).idleExtendsTo } where
  idle_le := by
    show micros (read.extend now).idleExtendsTo ≤ row.expiresAt
    apply Nat.le_trans (micros_le _)
    rw [extend_idle, computeIdleExtendsTo, ← hexpires]
    have hidle := hread.idle_le
    omega
  expires_le := h.expires_le
  idle_micros := micros_micros _
  expires_micros := h.expires_micros

/-- A sliding UPDATE does not set the row back. -/
theorem idle_le_extend {read row : LeaseRow} {now : Nat} (h : row.Bounded)
    (hexpires : read.expiresAt = row.expiresAt)
    (hsliding : row.idleExtendsTo ≤ read.idleExtendsTo ∨
      row.idleExtendsTo ≤ now + seconds leaseIdleWindowSeconds) :
    row.idleExtendsTo ≤ micros (read.extend now).idleExtendsTo := by
  rw [← h.idle_micros]
  apply micros_mono
  rw [extend_idle, computeIdleExtendsTo, hexpires]
  have hidle := h.idle_le
  omega

-- ════════════════════════════════════════════════════════════════════════
-- The invariant
-- ════════════════════════════════════════════════════════════════════════

/-- The version a validation has written but not committed: it differs from the
    committed row in `idle_extends_to`. -/
structure Extends (committed : Option LeaseRow) (version : Option LeaseRow) (row new : LeaseRow) :
    Prop where
  committed : committed = some row
  version : version = some new
  lasts : row.Lasts new
  bounded : new.Bounded

/-- What a validation knows of its row. -/
def Validation.Knows (rows : Table CallId LeaseId LeaseRow) (v : Validation) : Prop :=
  match v.stage with
  | .update read _ => read.Bounded ∧ ∃ row, Table.committed rows read.id = some row ∧
      row.expiresAt = read.expiresAt
  | .commit _ => True

structure LeaseDb.Inv (s : LeaseDb) : Prop where
  rows : ∀ id row, Table.committed s.rows id = some row → row.id = id ∧ row.Bounded
  unique : ∀ id id' row row', Table.committed s.rows id = some row →
    Table.committed s.rows id' = some row' → row.bearerHash = row'.bearerHash → id = id'
  pending : ∀ id call version, (Table.slot s.rows id).pending = some (call, version) →
    call < s.calls ∧ ∃ row new, Extends (Table.committed s.rows id) version row new
  flights : ∀ call v, s.inFlight.lookup call = some v →
    call < s.calls ∧ s.results.lookup call = none ∧ v.Knows s.rows
  answered : ∀ call result, s.results.lookup call = some result → call < s.calls

namespace LeaseDb

variable {s s' : LeaseDb}

/-- A call that has not begun holds no lock. -/
theorem Inv.fresh (inv : s.Inv) (id : LeaseId) : (Table.slot s.rows id).heldBy s.calls = false := by
  apply eq_false_of_ne_true
  intro hheld
  obtain ⟨version, hpending⟩ := Slot.heldBy_iff.mp hheld
  exact absurd (inv.pending id _ version hpending).1 (lt_irrefl _)

theorem Inv.view_fresh (inv : s.Inv) (id : LeaseId) :
    Table.view s.rows s.calls id = Table.committed s.rows id :=
  Table.view_of_not_heldBy (inv.fresh id)

/-- The committed rows last, and none is set back unless a version that sets it
    back stands to be committed. -/
def Later (s s' : LeaseDb) : Prop :=
  ∀ id row, Table.committed s.rows id = some row → ∃ row', Table.committed s'.rows id = some row' ∧
    row.Lasts row' ∧ (row.idleExtendsTo ≤ row'.idleExtendsTo ∨ ∃ call,
      (Table.slot s.rows id).pending = some (call, some row'))

theorem Later.of_committed (h : ∀ id, Table.committed s'.rows id = Table.committed s.rows id) :
    s.Later s' :=
  fun id row hrow => ⟨row, (h id).trans hrow, .refl row, .inl le_rfl⟩

/-- What is pending carries over where a lock is kept. -/
theorem Inv.pending_of_kept (inv : s.Inv) (hkept : Table.Kept s.rows s'.rows)
    (hcalls : s.calls ≤ s'.calls) (id : LeaseId) (call : CallId) (version : Option LeaseRow)
    (hpending : (Table.slot s'.rows id).pending = some (call, version)) :
    call < s'.calls ∧ ∃ row new, Extends (Table.committed s'.rows id) version row new := by
  obtain ⟨hbefore, hsame⟩ := hkept id (call, version) hpending
  obtain ⟨hlt, hext⟩ := inv.pending id call version hbefore
  exact ⟨Nat.lt_of_lt_of_le hlt hcalls, hsame ▸ hext⟩

/-- The facts about validations carry over when the committed rows last. -/
theorem Validation.Knows.later {v : Validation} (h : v.Knows s.rows) (hlater : s.Later s') :
    v.Knows s'.rows := by
  obtain ⟨now, read | result⟩ := v
  · obtain ⟨hread, row, hrow, hexpires⟩ := h
    obtain ⟨row', hrow', hlasts, -⟩ := hlater read.id row hrow
    exact ⟨hread, row', hrow', hlasts.expiresAt.trans hexpires⟩
  · trivial

/-- A statement of its own puts a row in place of one that is not locked. -/
theorem Inv.autocommit {id : LeaseId} {new : LeaseRow} {rows : Table CallId LeaseId LeaseRow}
    (inv : s.Inv) (hwrite : Table.write s.rows s.calls id (some new) = some rows)
    (hid : new.id = id) (hbounded : new.Bounded)
    (hlasts : ∀ row, Table.committed s.rows id = some row → row.Lasts new ∧
      row.idleExtendsTo ≤ new.idleExtendsTo)
    (hunique : ∀ id' row, Table.committed s.rows id' = some row →
      row.bearerHash = new.bearerHash → id' = id) :
    Inv { s with rows := Table.commit rows s.calls, calls := s.calls + 1 } ∧
      s.Later { s with rows := Table.commit rows s.calls, calls := s.calls + 1 } := by
  have hslot := Table.slot_autocommit hwrite inv.fresh
  have hcommitted : ∀ id', Table.committed (Table.commit rows s.calls) id' =
      if id' = id then some new else Table.committed s.rows id' := by
    intro id'
    rw [Table.committed, hslot id']
    split <;> rfl
  have hlater : s.Later { s with rows := Table.commit rows s.calls, calls := s.calls + 1 } := by
    intro id' row hrow
    by_cases heq : id' = id
    · subst heq
      obtain ⟨hlast, hidle⟩ := hlasts row hrow
      exact ⟨new, (hcommitted id').trans (if_pos rfl), hlast, .inl hidle⟩
    · exact ⟨row, ((hcommitted id').trans (if_neg heq)).trans hrow, .refl row, .inl le_rfl⟩
  refine ⟨⟨fun id' row hrow => ?_, fun id₁ id₂ row₁ row₂ hrow₁ hrow₂ heq => ?_,
    inv.pending_of_kept (Table.kept_autocommit hwrite inv.fresh) (Nat.le_succ _),
    fun call v hlook => ?_, fun call result hlook => ?_⟩, hlater⟩
  · rw [hcommitted id'] at hrow
    split at hrow
    next heq => cases hrow; exact ⟨hid.trans heq.symm, hbounded⟩
    next => exact inv.rows id' row hrow
  · rw [hcommitted id₁] at hrow₁
    rw [hcommitted id₂] at hrow₂
    split at hrow₁ <;> split at hrow₂
    next h₁ h₂ => rw [h₁, h₂]
    next h₁ _ => cases hrow₁; rw [h₁]; exact (hunique id₂ row₂ hrow₂ heq.symm).symm
    next _ h₂ => cases hrow₂; rw [h₂]; exact hunique id₁ row₁ hrow₁ heq
    next => exact inv.unique id₁ id₂ row₁ row₂ hrow₁ hrow₂ heq
  · obtain ⟨hlt, hnone, hknows⟩ := inv.flights call v hlook
    exact ⟨Nat.lt_succ_of_lt hlt, hnone, Validation.Knows.later hknows hlater⟩
  · exact Nat.lt_succ_of_lt (inv.answered call result hlook)

variable {call : CallId}

theorem Inv.finish (inv : s.Inv) (hlt : call < s.calls) (result : ValidationResult) :
    (s.finish call result).Inv := by
  refine ⟨inv.rows, inv.unique, inv.pending, fun call' v hlook => ?_, fun call' result' hlook => ?_⟩
  · have hlook' : (s.inFlight.erase call).lookup call' = some v := hlook
    rw [FiniteMap.lookup_erase_ite] at hlook'
    split at hlook'
    next => cases hlook'
    next hne =>
      obtain ⟨hlt', hnone, hknows⟩ := inv.flights call' v hlook'
      refine ⟨hlt', ?_, hknows⟩
      show (s.results.insert call result).lookup call' = none
      rw [FiniteMap.lookup_insert_ite, if_neg hne]
      exact hnone
  · have hlook' : (s.results.insert call result).lookup call' = some result' := hlook
    rw [FiniteMap.lookup_insert_ite] at hlook'
    split at hlook'
    next heq => exact heq ▸ hlt
    next => exact inv.answered call' result' hlook'

theorem Inv.abort (inv : s.Inv) (call : CallId) : (s.abort call).Inv := by
  have hcommitted : ∀ id, Table.committed (s.abort call).rows id = Table.committed s.rows id :=
    fun _ => Table.committed_rollback
  have hlater : s.Later (s.abort call) := .of_committed hcommitted
  refine ⟨fun id row hrow => ?_, fun id id' row row' hrow hrow' => ?_,
    inv.pending_of_kept Table.kept_rollback le_rfl, fun call' v hlook => ?_, inv.answered⟩
  · rw [hcommitted] at hrow
    exact inv.rows id row hrow
  · rw [hcommitted] at hrow hrow'
    exact inv.unique id id' row row' hrow hrow'
  · have hlook' : (s.inFlight.erase call).lookup call' = some v := hlook
    rw [FiniteMap.lookup_erase_ite] at hlook'
    split at hlook'
    next => cases hlook'
    next =>
      obtain ⟨hlt, hnone, hknows⟩ := inv.flights call' v hlook'
      exact ⟨hlt, hnone, Validation.Knows.later hknows hlater⟩

/-- What a validation sees of a row: the committed one, or a version of its own. -/
theorem Inv.of_view {id : LeaseId} {row' : LeaseRow} (inv : s.Inv)
    (hview : Table.view s.rows call id = some row') :
    ∃ row, Table.committed s.rows id = some row ∧ row.Lasts row' ∧ row'.Bounded ∧
      (row = row' ∨ (Table.slot s.rows id).pending = some (call, some row')) := by
  by_cases hheld : (Table.slot s.rows id).heldBy call = true
  · obtain ⟨version, hpending⟩ := Slot.heldBy_iff.mp hheld
    obtain ⟨-, row, new, hext⟩ := inv.pending id call version hpending
    rw [Table.view, Slot.view, hpending] at hview
    have hversion : version = some row' := (if_pos rfl).symm.trans hview
    obtain rfl : new = row' := Option.some.inj (hext.version.symm.trans hversion)
    exact ⟨row, hext.committed, hext.lasts, hext.bounded, .inr (hversion ▸ hpending)⟩
  · rw [Table.view_of_not_heldBy (eq_false_of_ne_true hheld)] at hview
    exact ⟨row', hview, .refl row', (inv.rows id row' hview).2, .inl rfl⟩

theorem Inv.commitRows (inv : s.Inv) (call : CallId) :
    Inv { s with rows := Table.commit s.rows call } ∧
      s.Later { s with rows := Table.commit s.rows call } := by
  have hback : ∀ id row', Table.committed (Table.commit s.rows call) id = some row' →
      ∃ row, Table.committed s.rows id = some row ∧ row.Lasts row' ∧ row'.Bounded ∧
        (row = row' ∨ (Table.slot s.rows id).pending = some (call, some row')) := by
    intro id row' hrow'
    rw [Table.committed_commit] at hrow'
    exact inv.of_view hrow'
  have hlater : s.Later { s with rows := Table.commit s.rows call } := by
    intro id row hrow
    cases hview : Table.view s.rows call id with
    | none =>
      -- a validation deletes nothing
      by_cases hheld : (Table.slot s.rows id).heldBy call = true
      · obtain ⟨version, hpending⟩ := Slot.heldBy_iff.mp hheld
        obtain ⟨-, _, new, hext⟩ := inv.pending id call version hpending
        rw [Table.view, Slot.view, hpending, hext.version] at hview
        cases (if_pos rfl).symm.trans hview
      · rw [Table.view_of_not_heldBy (eq_false_of_ne_true hheld), hrow] at hview
        cases hview
    | some row' =>
      obtain ⟨row₀, hrow₀, hlasts, -, hor⟩ := inv.of_view hview
      obtain rfl : row₀ = row := Option.some.inj (hrow₀.symm.trans hrow)
      refine ⟨row', Table.committed_commit.trans hview, hlasts, ?_⟩
      exact hor.imp (fun heq => by rw [heq]) fun hpending => ⟨call, hpending⟩
  refine ⟨⟨fun id row' hrow' => ?_, fun id₁ id₂ row₁ row₂ hrow₁ hrow₂ heq => ?_,
    inv.pending_of_kept Table.kept_commit le_rfl, fun call' v hlook => ?_, inv.answered⟩, hlater⟩
  · obtain ⟨row, hrow, hlasts, hbounded, -⟩ := hback id row' hrow'
    exact ⟨hlasts.id.trans (inv.rows id row hrow).1, hbounded⟩
  · obtain ⟨old₁, hold₁, hlasts₁, -, -⟩ := hback id₁ row₁ hrow₁
    obtain ⟨old₂, hold₂, hlasts₂, -, -⟩ := hback id₂ row₂ hrow₂
    rw [hlasts₁.bearerHash, hlasts₂.bearerHash] at heq
    exact inv.unique id₁ id₂ old₁ old₂ hold₁ hold₂ heq
  · obtain ⟨hlt, hnone, hknows⟩ := inv.flights call' v hlook
    exact ⟨hlt, hnone, Validation.Knows.later hknows hlater⟩

/-- The UPDATE of a validation. -/
theorem Inv.updateRow {v : Validation} {read row : LeaseRow} {exportKey : Bytes}
    {rows : Table CallId LeaseId LeaseRow} {result : ValidatedLease} (inv : s.Inv)
    (hlook : s.inFlight.lookup call = some v) (hstage : v.stage = .update read exportKey)
    (hview : Table.view s.rows call read.id = some row)
    (hwrite : Table.write s.rows call read.id
      (some { row with idleExtendsTo := micros (read.extend v.now).idleExtendsTo }) = some rows) :
    Inv { s with rows := rows, inFlight := s.inFlight.insert call ⟨v.now, .commit result⟩ } := by
  have hcommitted := Table.committed_write hwrite
  have hlater : s.Later { s with rows := rows } := .of_committed hcommitted
  obtain ⟨hlt, hnone, hknows⟩ := inv.flights call v hlook
  obtain ⟨row₀, hrow₀, hlasts, hbounded, -⟩ := inv.of_view hview
  refine ⟨fun id row hrow => ?_, fun id id' row row' hrow hrow' => ?_,
    fun id call' version hpending => ?_, fun call' v' hlook' => ?_, inv.answered⟩
  · rw [hcommitted] at hrow
    exact inv.rows id row hrow
  · rw [hcommitted] at hrow hrow'
    exact inv.unique id id' row row' hrow hrow'
  · rw [(Table.write_eq_some hwrite).2 id] at hpending
    rw [hcommitted]
    split at hpending
    next heq =>
      cases hpending
      rw [Validation.Knows, hstage] at hknows
      obtain ⟨hread, row₁, hrow₁, hexpires⟩ := hknows
      obtain rfl : row₁ = row₀ := Option.some.inj (hrow₁.symm.trans hrow₀)
      refine ⟨hlt, row₁, _, heq ▸ hrow₁, rfl, ?_, ?_⟩
      · exact ⟨hlasts.id, hlasts.bearerHash, hlasts.issuedAt, hlasts.expiresAt, hlasts.revokedAt⟩
      · exact hbounded.extend hread (hexpires.symm.trans hlasts.expiresAt.symm) v.now
    next => exact inv.pending id call' version hpending
  · have hlook'' : (s.inFlight.insert call _).lookup call' = some v' := hlook'
    rw [FiniteMap.lookup_insert_ite] at hlook''
    split at hlook''
    next heq => cases hlook''; exact ⟨heq ▸ hlt, heq ▸ hnone, trivial⟩
    next =>
      obtain ⟨hlt', hnone', hknows'⟩ := inv.flights call' v' hlook''
      exact ⟨hlt', hnone', Validation.Knows.later hknows' hlater⟩

-- ════════════════════════════════════════════════════════════════════════
-- Steps
-- ════════════════════════════════════════════════════════════════════════

theorem inv_insertLease {id : LeaseId} {tenantId : TenantId} {hash : BearerHash}
    {wrapped : Sealed Bytes} {leaseSeconds now : Nat} (inv : s.Inv)
    (h : s.insertLease id tenantId hash wrapped leaseSeconds now = some s') :
    s'.Inv ∧ s.Later s' := by
  unfold insertLease at h
  split at h
  next => cases h
  next hfree =>
    rw [not_or, inv.view_fresh, Bool.not_eq_true, Option.isSome_eq_false_iff,
      Option.isNone_iff_eq_none] at hfree
    obtain ⟨hnone, hunused⟩ := hfree
    obtain ⟨rows, hwrite, rfl⟩ := Option.map_eq_some_iff.mp h
    refine inv.autocommit hwrite rfl ⟨micros_mono (min_le_right _ _), ?_, micros_micros _,
      micros_micros _⟩ (fun row hrow => ?_) fun id' row hrow heq => ?_
    · show micros (now + seconds (capLeaseSeconds leaseSeconds)) ≤
        micros now + seconds leaseHardCapSeconds
      rw [micros_add_seconds]
      have hcap : seconds (capLeaseSeconds leaseSeconds) ≤ seconds leaseHardCapSeconds := by
        unfold seconds
        exact Nat.mul_le_mul_right _ (min_le_right _ _)
      omega
    · rw [hnone] at hrow
      cases hrow
    · refine absurd (Table.any_eq_true.mpr ⟨id', row, ?_, decide_eq_true heq⟩) hunused
      rw [inv.view_fresh]
      exact hrow

theorem inv_revokeWhere {p : LeaseRow → Bool} {now : Nat} (inv : s.Inv)
    (h : s.revokeWhere p now = some s') : s'.Inv ∧ s.Later s' := by
  unfold revokeWhere at h
  split at h
  next =>
    cases h
    exact ⟨inv, .of_committed fun _ => rfl⟩
  next id row hfind =>
    obtain ⟨hview, hp⟩ := Table.find?_eq_some hfind
    rw [inv.view_fresh] at hview
    rw [Bool.and_eq_true, Option.isNone_iff_eq_none] at hp
    obtain ⟨hid, hbounded⟩ := inv.rows id row hview
    obtain ⟨rows, hwrite, rfl⟩ := Option.map_eq_some_iff.mp h
    refine inv.autocommit hwrite hid ⟨hbounded.idle_le, hbounded.expires_le, hbounded.idle_micros,
      hbounded.expires_micros⟩ (fun row' hrow' => ?_) fun id' row' hrow' heq => ?_
    · obtain rfl : row = row' := Option.some.inj (hview.symm.trans hrow')
      refine ⟨⟨rfl, rfl, rfl, rfl, fun time htime => ?_⟩, le_rfl⟩
      rw [hp.2] at htime
      cases htime
    · exact inv.unique id' id row' row hrow' hview heq

theorem inv_select {bearer : Bearer} {now : Nat} (inv : s.Inv) : (s.select bearer now).Inv := by
  have inv' : Inv { s with calls := s.calls + 1 } := by
    refine ⟨inv.rows, inv.unique, fun id call version hpending => ?_, fun call v hlook => ?_,
      fun call result hlook => ?_⟩
    · obtain ⟨hlt, hext⟩ := inv.pending id call version hpending
      exact ⟨Nat.lt_succ_of_lt hlt, hext⟩
    · obtain ⟨hlt, hrest⟩ := inv.flights call v hlook
      exact ⟨Nat.lt_succ_of_lt hlt, hrest⟩
    · exact Nat.lt_succ_of_lt (inv.answered call result hlook)
  have hlt : s.calls < s.calls + 1 := Nat.lt_succ_self s.calls
  unfold select
  dsimp only
  split
  next => exact inv'.finish hlt _
  next id row hfind =>
    obtain ⟨hview, -⟩ := Table.find?_eq_some hfind
    rw [inv.view_fresh] at hview
    obtain ⟨hid, hbounded⟩ := inv.rows id row hview
    split_ifs
    · exact inv'.finish hlt _
    · exact inv'.finish hlt _
    · split
      next => exact inv'.finish hlt _
      next exportKey _ =>
        refine ⟨inv'.rows, inv'.unique, inv'.pending, fun call v hlook => ?_, inv'.answered⟩
        have hlook' : (s.inFlight.insert s.calls _).lookup call = some v := hlook
        rw [FiniteMap.lookup_insert_ite] at hlook'
        split at hlook'
        next heq =>
          cases hlook'
          refine ⟨heq ▸ hlt, ?_, hbounded, row, hid ▸ hview, rfl⟩
          refine Option.eq_none_iff_forall_ne_some.mpr fun result hresult => ?_
          exact absurd (inv.answered call result hresult) (heq ▸ lt_irrefl _)
        next => exact inv'.flights call v hlook'

/-- **Step lemma**: the invariant, and that committed rows last. -/
theorem inv_next {e : LeaseEvent} (inv : s.Inv) (hnext : s.next e = some s') :
    s'.Inv ∧ s.Later s' := by
  cases e with
  | insertLease => exact inv_insertLease inv hnext
  | select bearer now =>
    cases hnext
    refine ⟨inv_select inv, .of_committed fun _ => ?_⟩
    unfold select
    dsimp only
    split
    · rfl
    · split_ifs
      · rfl
      · rfl
      · split <;> rfl
  | update call =>
    obtain ⟨v, hlook, hupdate⟩ := Option.bind_eq_some_iff.mp hnext
    unfold update at hupdate
    split at hupdate
    next read exportKey hstage =>
      split at hupdate
      next =>
        cases hupdate
        exact ⟨(inv.abort call).finish (inv.flights call v hlook).1 _,
          .of_committed fun _ => Table.committed_rollback⟩
      next row hview =>
        obtain ⟨rows, hwrite, rfl⟩ := Option.map_eq_some_iff.mp hupdate
        exact ⟨inv.updateRow hlook hstage hview hwrite,
          .of_committed (Table.committed_write hwrite)⟩
    next => cases hupdate
  | commit call =>
    obtain ⟨v, hlook, hcommit⟩ := Option.bind_eq_some_iff.mp hnext
    unfold commit at hcommit
    split at hcommit
    next => cases hcommit
    next =>
      cases hcommit
      obtain ⟨inv', hlater⟩ := inv.commitRows call
      exact ⟨inv'.finish (inv.flights call v hlook).1 _, hlater⟩
  | fail call =>
    obtain ⟨v, hlook, rfl⟩ := Option.map_eq_some_iff.mp hnext
    exact ⟨(inv.abort call).finish (inv.flights call v hlook).1 _,
      .of_committed fun _ => Table.committed_rollback⟩
  | drop call =>
    obtain ⟨v, hlook, rfl⟩ := Option.map_eq_some_iff.mp hnext
    exact ⟨inv.abort call, .of_committed fun _ => Table.committed_rollback⟩
  | revoke => exact inv_revokeWhere inv hnext
  | revokeById => exact inv_revokeWhere inv hnext

theorem inv_init : init.Inv := by
  have hcommitted : ∀ id, Table.committed init.rows id = none := fun _ => rfl
  refine ⟨fun id row hrow => ?_, fun id id' row row' hrow => ?_, fun id call version hpending => ?_,
    fun call v hlook => ?_, fun call result hlook => ?_⟩
  · cases (hcommitted id).symm.trans hrow
  · cases (hcommitted id).symm.trans hrow
  · cases hpending
  · cases hlook
  · cases hlook

theorem inv_of_reachable (hreach : leaseTable.Reachable s) : s.Inv :=
  hreach.invariant (fun _ hstart => hstart ▸ inv_init) fun _ _ _ inv _ hnext => (inv_next inv hnext).1

-- ════════════════════════════════════════════════════════════════════════
-- Sliding
-- ════════════════════════════════════════════════════════════════════════

/-- No version that stands to be committed sets its row back. -/
def Forward (s : LeaseDb) : Prop :=
  ∀ id call row new, (Table.slot s.rows id).pending = some (call, some new) →
    Table.committed s.rows id = some row → row.idleExtendsTo ≤ new.idleExtendsTo

theorem Forward.of_kept (h : s.Forward) (hkept : Table.Kept s.rows s'.rows) : s'.Forward := by
  intro id call row new hpending hrow
  obtain ⟨hbefore, hsame⟩ := hkept id _ hpending
  exact h id call row new hbefore (hsame ▸ hrow)

theorem kept_revokeWhere {p : LeaseRow → Bool} {now : Nat} (inv : s.Inv)
    (h : s.revokeWhere p now = some s') : Table.Kept s.rows s'.rows := by
  unfold revokeWhere at h
  split at h
  next => cases h; exact .refl _
  next =>
    obtain ⟨rows, hwrite, rfl⟩ := Option.map_eq_some_iff.mp h
    exact Table.kept_autocommit hwrite inv.fresh

theorem forward_next {e : LeaseEvent} (h : s.Forward) (inv : s.Inv) (hsliding : Sliding s e = true)
    (hnext : s.next e = some s') : s'.Forward := by
  cases e with
  | insertLease id tenantId hash wrapped leaseSeconds now =>
    have hinsert : s.insertLease id tenantId hash wrapped leaseSeconds now = some s' := hnext
    unfold insertLease at hinsert
    split at hinsert
    next => cases hinsert
    next =>
      obtain ⟨rows, hwrite, rfl⟩ := Option.map_eq_some_iff.mp hinsert
      exact h.of_kept (Table.kept_autocommit hwrite inv.fresh)
  | select bearer now =>
    cases hnext
    apply h.of_kept
    unfold select
    dsimp only
    split
    · exact .refl _
    · split_ifs
      · exact .refl _
      · exact .refl _
      · split <;> exact .refl _
  | update call =>
    obtain ⟨v, hlook, hupdate⟩ := Option.bind_eq_some_iff.mp hnext
    unfold update at hupdate
    split at hupdate
    next read exportKey hstage =>
      split at hupdate
      next => cases hupdate; exact h.of_kept Table.kept_rollback
      next row hview =>
        obtain ⟨rows, hwrite, rfl⟩ := Option.map_eq_some_iff.mp hupdate
        simp only [Sliding, hlook, Option.all_some, hstage, hview, Bool.or_eq_true,
          decide_eq_true_eq] at hsliding
        obtain ⟨-, -, hknows⟩ := inv.flights call v hlook
        rw [Validation.Knows, hstage] at hknows
        obtain ⟨-, row₁, hrow₁, hexpires⟩ := hknows
        obtain ⟨row₀, hrow₀, hlasts, hbounded, hor⟩ := inv.of_view hview
        obtain rfl : row₁ = row₀ := Option.some.inj (hrow₁.symm.trans hrow₀)
        have hidle : row₁.idleExtendsTo ≤ row.idleExtendsTo := by
          cases hor with
          | inl heq => rw [heq]
          | inr hpending => exact h _ _ _ _ hpending hrow₁
        have hextend := idle_le_extend hbounded (hexpires.symm.trans hlasts.expiresAt.symm) hsliding
        intro id call' old new hpending hold
        rw [(Table.write_eq_some hwrite).2 id] at hpending
        rw [Table.committed_write hwrite] at hold
        split at hpending
        next heq =>
          cases hpending
          obtain rfl : row₁ = old := Option.some.inj (hrow₁.symm.trans (heq ▸ hold))
          exact Nat.le_trans hidle hextend
        next => exact h id call' old new hpending hold
    next => cases hupdate
  | commit call =>
    obtain ⟨v, hlook, hcommit⟩ := Option.bind_eq_some_iff.mp hnext
    unfold commit at hcommit
    split at hcommit
    next => cases hcommit
    next => cases hcommit; exact h.of_kept Table.kept_commit
  | fail call | drop call =>
    obtain ⟨v, hlook, rfl⟩ := Option.map_eq_some_iff.mp hnext
    exact h.of_kept Table.kept_rollback
  | revoke | revokeById => exact h.of_kept (kept_revokeWhere inv hnext)

theorem forward_of_reachable (hreach : leaseTable.ReachableUnder (fun s e => Sliding s e = true) s) :
    s.Inv ∧ s.Forward := by
  apply hreach.invariant (P := fun s => s.Inv ∧ s.Forward)
  · rintro _ rfl
    refine ⟨inv_init, fun id call row new hpending => ?_⟩
    cases hpending
  · rintro s e s' ⟨inv, hforward⟩ hsliding hnext
    exact ⟨(inv_next inv hnext).1, forward_next hforward inv hsliding hnext⟩

/-- **Run lemma**: committed rows last. -/
theorem lasts_of_run {id : LeaseId} {row : LeaseRow} (hreach : leaseTable.Reachable s)
    (hrun : leaseTable.Run s s') (hrow : Table.committed s.rows id = some row) :
    ∃ row', Table.committed s'.rows id = some row' ∧ row.Lasts row' := by
  have h : s'.Inv ∧ ∃ row', Table.committed s'.rows id = some row' ∧ row.Lasts row' := by
    refine hrun.preserves (P := fun t => t.Inv ∧ ∃ row', Table.committed t.rows id = some row' ∧
      row.Lasts row') ?_ ⟨inv_of_reachable hreach, row, hrow, .refl row⟩
    rintro t e t' ⟨inv, row', hrow', hlasts⟩ - hnext
    obtain ⟨inv', hlater⟩ := inv_next inv hnext
    obtain ⟨row'', hrow'', hlasts', -⟩ := hlater id row' hrow'
    exact ⟨inv', row'', hrow'', hlasts.trans hlasts'⟩
  exact h.2

/-- Over a sliding run no committed row is set back. -/
theorem idle_le_of_run {id : LeaseId} {row : LeaseRow}
    (hreach : leaseTable.ReachableUnder (fun s e => Sliding s e = true) s)
    (hrun : leaseTable.RunUnder (fun s e => Sliding s e = true) s s')
    (hrow : Table.committed s.rows id = some row) :
    ∃ row', Table.committed s'.rows id = some row' ∧ row.idleExtendsTo ≤ row'.idleExtendsTo := by
  have h : (s'.Inv ∧ s'.Forward) ∧ ∃ row', Table.committed s'.rows id = some row' ∧
      row.idleExtendsTo ≤ row'.idleExtendsTo := by
    refine hrun.preserves (P := fun t => (t.Inv ∧ t.Forward) ∧ ∃ row',
      Table.committed t.rows id = some row' ∧ row.idleExtendsTo ≤ row'.idleExtendsTo) ?_
      ⟨forward_of_reachable hreach, row, hrow, le_rfl⟩
    rintro t e t' ⟨⟨inv, hforward⟩, row', hrow', hidle⟩ hsliding hnext
    obtain ⟨inv', hlater⟩ := inv_next inv hnext
    obtain ⟨row'', hrow'', -, hor⟩ := hlater id row' hrow'
    refine ⟨⟨inv', forward_next hforward inv hsliding hnext⟩, row'', hrow'', Nat.le_trans hidle ?_⟩
    cases hor with
    | inl hle => exact hle
    | inr hpending => exact hforward id _ row' row'' hpending.choose_spec hrow'
  exact h.2

-- ════════════════════════════════════════════════════════════════════════
-- Results
-- ════════════════════════════════════════════════════════════════════════

theorem lookup_finish {call' : CallId} {result : ValidationResult} (hne : call' ≠ call) :
    (s.finish call result).results.lookup call' = s.results.lookup call' := by
  show (s.results.insert call result).lookup call' = s.results.lookup call'
  rw [FiniteMap.lookup_insert_ite, if_neg hne]

/-- The result of a validation is its last word. -/
theorem results_next {e : LeaseEvent} {result : ValidationResult} (inv : s.Inv)
    (hresult : s.results.lookup call = some result) (hnext : s.next e = some s') :
    s'.results.lookup call = some result := by
  have hne : ∀ call' v, s.inFlight.lookup call' = some v → call ≠ call' := by
    rintro call' v hlook rfl
    rw [(inv.flights call v hlook).2.1] at hresult
    cases hresult
  cases e with
  | insertLease id tenantId hash wrapped leaseSeconds now =>
    have hinsert : s.insertLease id tenantId hash wrapped leaseSeconds now = some s' := hnext
    unfold insertLease at hinsert
    split at hinsert
    next => cases hinsert
    next =>
      obtain ⟨rows, -, rfl⟩ := Option.map_eq_some_iff.mp hinsert
      exact hresult
  | select bearer now =>
    cases hnext
    have hnew : call ≠ s.calls := Nat.ne_of_lt (inv.answered call result hresult)
    unfold select
    dsimp only
    split
    · exact (lookup_finish hnew).trans hresult
    · split_ifs
      · exact (lookup_finish hnew).trans hresult
      · exact (lookup_finish hnew).trans hresult
      · split
        · exact (lookup_finish hnew).trans hresult
        · exact hresult
  | update call' =>
    obtain ⟨v, hlook, hupdate⟩ := Option.bind_eq_some_iff.mp hnext
    unfold update at hupdate
    split at hupdate
    next =>
      split at hupdate
      next => cases hupdate; exact (lookup_finish (hne call' v hlook)).trans hresult
      next =>
        obtain ⟨rows, -, rfl⟩ := Option.map_eq_some_iff.mp hupdate
        exact hresult
    next => cases hupdate
  | commit call' =>
    obtain ⟨v, hlook, hcommit⟩ := Option.bind_eq_some_iff.mp hnext
    unfold commit at hcommit
    split at hcommit
    next => cases hcommit
    next => cases hcommit; exact (lookup_finish (hne call' v hlook)).trans hresult
  | fail call' =>
    obtain ⟨v, hlook, rfl⟩ := Option.map_eq_some_iff.mp hnext
    exact (lookup_finish (hne call' v hlook)).trans hresult
  | drop call' =>
    obtain ⟨v, -, rfl⟩ := Option.map_eq_some_iff.mp hnext
    exact hresult
  | revoke | revokeById =>
    simp only [next, revokeWhere] at hnext
    split at hnext
    next => cases hnext; exact hresult
    next =>
      obtain ⟨rows, -, rfl⟩ := Option.map_eq_some_iff.mp hnext
      exact hresult

theorem results_of_run {result : ValidationResult} (inv : s.Inv) (hrun : leaseTable.Run s s')
    (hresult : s.results.lookup call = some result) : s'.results.lookup call = some result := by
  refine (hrun.preserves (P := fun t => t.Inv ∧ t.results.lookup call = some result) ?_
    ⟨inv, hresult⟩).2
  rintro t e t' ⟨inv, hresult⟩ - hnext
  exact ⟨(inv_next inv hnext).1, results_next inv hresult hnext⟩

/-- A validation whose SELECT finds a dead row has its result at once. -/
theorem select_dead {id : LeaseId} {row : LeaseRow} {bearer : Bearer} {now : Nat} (inv : s.Inv)
    (hrow : Table.committed s.rows id = some row) (hhash : row.bearerHash = bearer.hash)
    (hdead : row.dead now = true) :
    ∃ err, (s.select bearer now).results.lookup s.calls = some (.error err) := by
  unfold select
  dsimp only
  split
  next hfind =>
    have hview : Table.view s.rows s.calls id = some row := (inv.view_fresh id).trans hrow
    have hfound := Table.find?_eq_none hfind hview
    rw [decide_eq_false_iff_not] at hfound
    exact absurd hhash hfound
  next id' row' hfind =>
    obtain ⟨hview, hhash'⟩ := Table.find?_eq_some hfind
    rw [inv.view_fresh] at hview
    obtain rfl := inv.unique id id' row row' hrow hview (hhash.trans (of_decide_eq_true hhash').symm)
    obtain rfl : row = row' := Option.some.inj (hrow.symm.trans hview)
    simp only [LeaseRow.dead, Bool.or_eq_true, decide_eq_true_eq, or_assoc] at hdead
    by_cases hrevoked : row.revokedAt.isSome = true
    · rw [if_pos hrevoked]
      exact ⟨.revoked, AList.lookup_insert _⟩
    · rw [if_neg hrevoked, if_pos (hdead.resolve_left hrevoked)]
      exact ⟨.expired, AList.lookup_insert _⟩

theorem not_validated {id : LeaseId} {row : LeaseRow} {bearer : Bearer} {now : Nat}
    (hreach : leaseTable.Reachable s) (hrow : Table.committed s.rows id = some row)
    (hhash : row.bearerHash = bearer.hash) (hdead : row.dead now = true)
    (hrun : leaseTable.Run (s.select bearer now) s') (v : ValidatedLease) :
    s'.results.lookup s.calls ≠ some (.ok (some v)) := by
  have inv := inv_of_reachable hreach
  obtain ⟨err, hresult⟩ := select_dead inv hrow hhash hdead
  intro hok
  cases (results_of_run (inv_select inv) hrun hresult).symm.trans hok

/-- The statement revokes the row. -/
def Revokes (row : LeaseRow) (e : LeaseEvent) : Prop :=
  ∃ now, e = .revoke row.bearerHash now ∨ e = .revokeById row.id now

theorem revoked_of_revokeWhere {p : LeaseRow → Bool} {now : Nat} {id : LeaseId} {row : LeaseRow}
    (inv : s.Inv) (hrow : Table.committed s.rows id = some row) (hp : p row = true)
    (hone : ∀ id' row', Table.committed s.rows id' = some row' → p row' = true → id' = id)
    (h : s.revokeWhere p now = some s') : ∃ row', Table.committed s'.rows id = some row' ∧
      row'.bearerHash = row.bearerHash ∧ row'.revokedAt.isSome = true := by
  unfold revokeWhere at h
  split at h
  next hfind =>
    cases h
    have hview : Table.view s.rows s.calls id = some row := (inv.view_fresh id).trans hrow
    have hfound := Table.find?_eq_none hfind hview
    rw [hp, Bool.true_and, Option.isNone_eq_false_iff] at hfound
    exact ⟨row, hrow, rfl, hfound⟩
  next id' row' hfind =>
    obtain ⟨hview, hp'⟩ := Table.find?_eq_some hfind
    rw [inv.view_fresh] at hview
    rw [Bool.and_eq_true] at hp'
    obtain rfl := hone id' row' hview hp'.1
    obtain rfl : row = row' := Option.some.inj (hrow.symm.trans hview)
    obtain ⟨rows, hwrite, rfl⟩ := Option.map_eq_some_iff.mp h
    refine ⟨{ row with revokedAt := some (micros now) }, ?_, rfl, rfl⟩
    show Table.committed (Table.commit rows s.calls) id' = some _
    rw [Table.committed, Table.slot_autocommit hwrite inv.fresh, if_pos rfl]

theorem revoked_of_revokes {id : LeaseId} {row : LeaseRow} {e : LeaseEvent} (inv : s.Inv)
    (hrow : Table.committed s.rows id = some row) (hrevokes : Revokes row e)
    (hnext : s.next e = some s') : ∃ row', Table.committed s'.rows id = some row' ∧
      row'.bearerHash = row.bearerHash ∧ row'.revokedAt.isSome = true := by
  obtain ⟨now, rfl | rfl⟩ := hrevokes
  · refine revoked_of_revokeWhere inv hrow (decide_eq_true rfl) (fun id' row' hrow' hp => ?_) hnext
    exact inv.unique id' id row' row hrow' hrow (of_decide_eq_true hp)
  · refine revoked_of_revokeWhere inv hrow (decide_eq_true rfl) (fun id' row' hrow' hp => ?_) hnext
    rw [← (inv.rows id' row' hrow').1, ← (inv.rows id row hrow).1]
    exact of_decide_eq_true hp

end LeaseDb

-- ════════════════════════════════════════════════════════════════════════
-- The state machine of a lease
-- ════════════════════════════════════════════════════════════════════════

/-- **The lease state machine**.  Over all runs a lease stays within its bounds,
    keeps its expiry and its revocation, and no validation succeeds that selects
    the row when it is revoked or past one of its times, or that selects it after
    a revoke; over sliding runs `idle_extends_to` never decreases. -/
theorem lease_state_machine {s : LeaseDb} {id : Nat} {row : LeaseRow}
    (hreach : leaseTable.Reachable s) (hrow : Table.committed s.rows id = some row) :
    (row.idleExtendsTo ≤ row.expiresAt ∧
      row.expiresAt ≤ row.issuedAt + seconds leaseHardCapSeconds) ∧
    (∀ s' row', leaseTable.ReachableUnder (fun s e => Sliding s e = true) s →
      leaseTable.RunUnder (fun s e => Sliding s e = true) s s' →
      Table.committed s'.rows id = some row' → row.idleExtendsTo ≤ row'.idleExtendsTo) ∧
    (∀ s', leaseTable.Run s s' →
      ∃ row', Table.committed s'.rows id = some row' ∧ row.Lasts row') ∧
    (∀ s' bearer now, row.bearerHash = bearer.hash → row.dead now = true →
      leaseTable.Run (s.select bearer now) s' →
      ∀ v, s'.results.lookup s.calls ≠ some (.ok (some v))) ∧
    ∀ s₁ s₂ s₃ e bearer now, LeaseDb.Revokes row e → s.next e = some s₁ →
      leaseTable.Run s₁ s₂ → row.bearerHash = bearer.hash →
      leaseTable.Run (s₂.select bearer now) s₃ →
      ∀ v, s₃.results.lookup s₂.calls ≠ some (.ok (some v)) := by
  refine ⟨?_, fun s' row' hreach hrun hrow' => ?_,
    fun s' hrun => LeaseDb.lasts_of_run hreach hrun hrow,
    fun s' bearer now hhash hdead hrun =>
      LeaseDb.not_validated hreach hrow hhash hdead hrun, ?_⟩
  · obtain ⟨-, hbounded⟩ := (LeaseDb.inv_of_reachable hreach).rows id row hrow
    exact ⟨hbounded.idle_le, hbounded.expires_le⟩
  · obtain ⟨found, hfound, hidle⟩ := LeaseDb.idle_le_of_run hreach hrun hrow
    obtain rfl : found = row' := Option.some.inj (hfound.symm.trans hrow')
    exact hidle
  · intro s₁ s₂ s₃ e bearer now hrevokes hnext hrun hhash hrun'
    have hreach₁ : leaseTable.Reachable s₁ :=
      hreach.trans (Relation.ReflTransGen.single ⟨e, trivial, hnext⟩)
    obtain ⟨row₁, hrow₁, hhash₁, hrevoked⟩ :=
      LeaseDb.revoked_of_revokes (LeaseDb.inv_of_reachable hreach) hrow hrevokes hnext
    obtain ⟨row₂, hrow₂, hlasts⟩ := LeaseDb.lasts_of_run hreach₁ hrun hrow₁
    obtain ⟨time, htime⟩ := Option.isSome_iff_exists.mp hrevoked
    have hdead : row₂.dead now = true := by
      rw [LeaseRow.dead, hlasts.revokedAt time htime]
      rfl
    exact LeaseDb.not_validated (hreach₁.trans hrun) hrow₂
      ((hlasts.bearerHash.trans hhash₁).trans hhash) hdead hrun'

private def leaseBearer : Bearer := ⟨List.replicate bearerBytes 5, List.length_replicate⟩

/-- A lease is issued at time 0. -/
private def issueRun : List LeaseEvent :=
  [.insertLease 1 1 leaseBearer.hash (wrapSessionKey leaseBearer [7]) 86400 0]

private def validateRun (call : CallId) (now : Nat) : List LeaseEvent :=
  [.select leaseBearer now, .update call, .commit call]

/-- The lease idles until this time. -/
private def idlesUntil (s : LeaseDb) (time : Nat) : Bool :=
  (Table.committed s.rows 1).any fun row =>
    row.idleExtendsTo = time && row.bearerHash = leaseBearer.hash

private theorem idlesUntil_spec {s : LeaseDb} {time : Nat} (h : idlesUntil s time = true) :
    ∃ row, Table.committed s.rows 1 = some row ∧ row.idleExtendsTo = time ∧
      row.bearerHash = leaseBearer.hash := by
  simpa [idlesUntil, Option.any_eq_true] using h

theorem lease_state_machine_two_validations :
    ∃ (s s' : LeaseDb) (row row' : LeaseRow), Table.committed s.rows 1 = some row ∧
      row.idleExtendsTo = seconds 3700 ∧ Table.committed s'.rows 1 = some row' ∧
      row'.idleExtendsTo = seconds 3800 ∧ row.idleExtendsTo ≤ row'.idleExtendsTo ∧
      ∀ s'' v, leaseTable.Run (s'.select leaseBearer (seconds 4000)) s'' →
        s''.results.lookup s'.calls ≠ some (.ok (some v)) := by
  obtain ⟨s, s', hrun, hs, hrun', hs'⟩ := Machine.exists_runs_of_execUnder (M := leaseTable)
    (C := fun s e => Sliding s e = true) (s := LeaseDb.init) (issueRun ++ validateRun 1 (seconds 100))
    (validateRun 2 (seconds 200)) (idlesUntil · (seconds 3700))
    (idlesUntil · (seconds 3800)) (by decide +kernel) (by decide +kernel)
  obtain ⟨row, hrow, hidle, -⟩ := idlesUntil_spec hs
  obtain ⟨row', hrow', hidle', hhash⟩ := idlesUntil_spec hs'
  have hreach : leaseTable.ReachableUnder (fun s e => Sliding s e = true) s := ⟨_, rfl, hrun⟩
  have hreach' : leaseTable.Reachable s' := (hreach.trans hrun').weaken fun _ _ _ => trivial
  refine ⟨s, s', row, row', hrow, hidle, hrow', hidle',
    (lease_state_machine (hreach.weaken fun _ _ _ => trivial) hrow).2.1 s' row' hreach hrun' hrow',
    fun s'' v hrun'' => ?_⟩
  have hdead : row'.dead (seconds 4000) = true := by
    have hpast : row'.idleExtendsTo ≤ seconds 4000 := by
      rw [hidle']
      unfold seconds
      omega
    simp [LeaseRow.dead, hpast]
  exact (lease_state_machine hreach' hrow').2.2.2.1 s'' leaseBearer (seconds 4000) hhash hdead
    hrun'' v

/-- Two validations select the row; the UPDATE of the later clock comes first. -/
private def overtakenRun : List LeaseEvent :=
  [.select leaseBearer (seconds 100), .select leaseBearer (seconds 200), .update 2, .commit 2]

theorem idle_window_set_back :
    ¬ ∀ s s' id row row', leaseTable.Reachable s → leaseTable.Run s s' →
      Table.committed s.rows id = some row → Table.committed s'.rows id = some row' →
      row.idleExtendsTo ≤ row'.idleExtendsTo := by
  intro hclaim
  obtain ⟨s, s', hrun, hs, hrun', hs'⟩ := Machine.exists_runs_of_execUnder (M := leaseTable)
    (C := fun _ _ => True) (s := LeaseDb.init) (issueRun ++ overtakenRun) [.update 1, .commit 1]
    (idlesUntil · (seconds 3800)) (idlesUntil · (seconds 3700))
    (by decide +kernel) (by decide +kernel)
  obtain ⟨row, hrow, hidle, -⟩ := idlesUntil_spec hs
  obtain ⟨row', hrow', hidle', -⟩ := idlesUntil_spec hs'
  have hle := hclaim s s' 1 row row' ⟨_, rfl, hrun⟩ hrun' hrow hrow'
  rw [hidle, hidle'] at hle
  revert hle
  decide +kernel

end Botwork.AuthBroker
