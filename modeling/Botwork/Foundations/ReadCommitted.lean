import Botwork.Foundations.FiniteMap

/-!
# Rows under READ COMMITTED

A table whose rows are written by transactions.  A row has a committed version
and at most one that is written but not committed; the transaction that wrote it
holds the row's lock until it commits or rolls back.  A statement sees its own
transaction's versions and else the committed ones, of the moment it runs.

## Main definitions

- `Slot` — the versions of one row
- `Table` — the rows by key
- `Table.view`, `Table.snapshot`, `Table.find?` — what a statement sees
- `Table.write` — a statement by key, which waits for the lock
- `Table.commit`, `Table.rollback` — the end of a transaction
- `Table.Kept` — what the locks that remain protect
- `Table.Frame` — what a step leaves to the other transactions
- `Slot.HasVersion` — a version that is committed or may be
-/

namespace Botwork.Foundations

-- ════════════════════════════════════════════════════════════════════════
-- One row
-- ════════════════════════════════════════════════════════════════════════

/-- A row of transactions `τ`: its committed version and the one a transaction
    has written; `none` stands for no row. -/
structure Slot (τ ρ : Type*) where
  committed : Option ρ
  pending : Option (τ × Option ρ)
  deriving DecidableEq

namespace Slot

variable {τ ρ : Type*} [DecidableEq τ] {slot : Slot τ ρ} {t t' : τ} {row : ρ}

def absent : Slot τ ρ := ⟨none, none⟩

/-- The transaction holds the lock. -/
def heldBy (slot : Slot τ ρ) (t : τ) : Bool := slot.pending.any fun p => p.1 = t

/-- Another transaction holds the lock. -/
def lockedFor (slot : Slot τ ρ) (t : τ) : Bool := slot.pending.any fun p => p.1 ≠ t

/-- What a statement of the transaction sees. -/
def view (slot : Slot τ ρ) (t : τ) : Option ρ :=
  match slot.pending with
  | some (writer, version) => if writer = t then version else slot.committed
  | none => slot.committed

def commit (slot : Slot τ ρ) (t : τ) : Slot τ ρ :=
  if slot.heldBy t then ⟨slot.view t, none⟩ else slot

def rollback (slot : Slot τ ρ) (t : τ) : Slot τ ρ :=
  if slot.heldBy t then ⟨slot.committed, none⟩ else slot

/-- The row is the committed version, or becomes it if its writer commits. -/
def HasVersion (slot : Slot τ ρ) (row : ρ) : Prop :=
  slot.committed = some row ∨ ∃ t, slot.pending = some (t, some row)

def versions (slot : Slot τ ρ) : List ρ :=
  slot.committed.toList ++ (slot.pending.bind (·.2)).toList

omit [DecidableEq τ] in
theorem mem_versions : row ∈ slot.versions ↔ slot.HasVersion row := by
  obtain ⟨committed, _ | ⟨writer, version⟩⟩ := slot <;>
    simp [versions, HasVersion, Option.mem_toList]

theorem view_of_not_heldBy (h : slot.heldBy t = false) : slot.view t = slot.committed := by
  obtain ⟨committed, _ | ⟨writer, version⟩⟩ := slot
  · rfl
  · simp only [heldBy, Option.any_some, decide_eq_false_iff_not] at h
    exact if_neg h

theorem heldBy_iff : slot.heldBy t = true ↔ ∃ version, slot.pending = some (t, version) := by
  rw [heldBy, Option.any_eq_true]
  constructor
  · rintro ⟨⟨writer, version⟩, hpending, hwriter⟩
    obtain rfl : writer = t := of_decide_eq_true hwriter
    exact ⟨version, hpending⟩
  · rintro ⟨version, hpending⟩
    exact ⟨(t, version), hpending, decide_eq_true rfl⟩

@[simp]
theorem view_mk (committed version : Option ρ) :
    (⟨committed, some (t, version)⟩ : Slot τ ρ).view t = version := if_pos rfl

/-- A commit makes what its transaction sees the committed version. -/
@[simp]
theorem commit_committed : (slot.commit t).committed = slot.view t := by
  unfold commit
  split
  next => rfl
  next h => exact (view_of_not_heldBy (eq_false_of_ne_true h)).symm

@[simp]
theorem rollback_committed : (slot.rollback t).committed = slot.committed := by
  unfold rollback
  split <;> rfl

/-- The end of a transaction leaves the locks of the others. -/
theorem pending_commit {p : τ × Option ρ} :
    (slot.commit t).pending = some p ↔ slot.pending = some p ∧ p.1 ≠ t := by
  obtain ⟨committed, _ | ⟨writer, version⟩⟩ := slot
  · simp [commit, heldBy]
  · by_cases h : writer = t
    · simp only [commit, heldBy, Option.any_some, h, decide_true, if_true]
      constructor
      · intro hp; cases hp
      · rintro ⟨hp, hne⟩; cases hp; exact absurd rfl hne
    · simp only [commit, heldBy, Option.any_some, h, decide_false, Bool.false_eq_true, if_false]
      constructor
      · intro hp; cases hp; exact ⟨rfl, h⟩
      · exact fun hp => hp.1

theorem pending_rollback {p : τ × Option ρ} :
    (slot.rollback t).pending = some p ↔ slot.pending = some p ∧ p.1 ≠ t := by
  rw [← pending_commit]
  unfold commit rollback
  split <;> rfl

/-- The other locks are held as before. -/
theorem heldBy_commit_of_ne (hne : t' ≠ t) : (slot.commit t).heldBy t' = slot.heldBy t' := by
  rw [Bool.eq_iff_iff, heldBy_iff, heldBy_iff]
  simp only [pending_commit, hne, ne_eq, not_false_eq_true, and_true]

theorem heldBy_rollback_of_ne (hne : t' ≠ t) : (slot.rollback t).heldBy t' = slot.heldBy t' := by
  rw [Bool.eq_iff_iff, heldBy_iff, heldBy_iff]
  simp only [pending_rollback, hne, ne_eq, not_false_eq_true, and_true]

theorem heldBy_commit_self : (slot.commit t).heldBy t = false := by
  apply eq_false_of_ne_true
  intro h
  obtain ⟨version, hpending⟩ := heldBy_iff.mp h
  exact (pending_commit.mp hpending).2 rfl

/-- A row has one lock. -/
theorem heldBy_of_ne (h : slot.heldBy t = true) (hne : t' ≠ t) : slot.heldBy t' = false := by
  obtain ⟨version, hpending⟩ := heldBy_iff.mp h
  apply eq_false_of_ne_true
  intro h'
  obtain ⟨version', hpending'⟩ := heldBy_iff.mp h'
  rw [hpending] at hpending'
  cases hpending'
  exact hne rfl

theorem not_heldBy_of_free (h : slot.lockedFor t = false) (hne : t' ≠ t) :
    slot.heldBy t' = false := by
  obtain ⟨committed, _ | ⟨writer, version⟩⟩ := slot
  · rfl
  · simp only [lockedFor, heldBy, Option.any_some, decide_eq_false_iff_not, not_not] at h ⊢
    exact fun heq => hne (heq.symm.trans h)

theorem HasVersion.of_view (h : slot.view t = some row) : slot.HasVersion row := by
  obtain ⟨committed, _ | ⟨writer, version⟩⟩ := slot
  · exact .inl h
  · simp only [view] at h
    split at h
    next => exact .inr ⟨writer, by rw [h]⟩
    next => exact .inl h

/-- A row that a transaction sees and that is not committed is its own. -/
theorem pending_of_view (h : slot.view t = some row) (hne : slot.committed ≠ some row) :
    slot.pending = some (t, some row) := by
  obtain ⟨committed, _ | ⟨writer, version⟩⟩ := slot
  · exact absurd h hne
  · simp only [view] at h
    split at h
    next heq => rw [heq, h]
    next => exact absurd h hne

/-- No commit makes a new version. -/
theorem HasVersion.of_commit (h : (slot.commit t).HasVersion row) : slot.HasVersion row := by
  obtain h | ⟨t', h⟩ := h
  · rw [commit_committed] at h
    exact .of_view h
  · exact .inr ⟨t', (pending_commit.mp h).1⟩

theorem HasVersion.of_rollback (h : (slot.rollback t).HasVersion row) : slot.HasVersion row := by
  obtain h | ⟨t', h⟩ := h
  · rw [rollback_committed] at h
    exact .inl h
  · exact .inr ⟨t', (pending_rollback.mp h).1⟩

end Slot

-- ════════════════════════════════════════════════════════════════════════
-- Tables
-- ════════════════════════════════════════════════════════════════════════

/-- A call of a handler, which is the transaction it runs. -/
abbrev CallId := Nat

/-- Rows by key; a key without an entry has no version. -/
abbrev Table (τ κ ρ : Type*) := FiniteMap κ (Slot τ ρ)

namespace Table

variable {τ κ ρ : Type*} [DecidableEq κ]

def slot (table : Table τ κ ρ) (k : κ) : Slot τ ρ := (table.lookup k).getD .absent

def committed (table : Table τ κ ρ) (k : κ) : Option ρ := (slot table k).committed

theorem slot_of_lookup {table : Table τ κ ρ} {k : κ} {s : Slot τ ρ} (h : table.lookup k = some s) :
    slot table k = s := by
  rw [slot, h]
  rfl

theorem slot_insert {table : Table τ κ ρ} {k k' : κ} (s : Slot τ ρ) :
    slot (table.insert k s) k' = if k' = k then s else slot table k' := by
  rw [slot, FiniteMap.lookup_insert_ite]
  split <;> rfl

/-- A table of committed rows. -/
def ofRows (rows : FiniteMap κ ρ) : Table τ κ ρ := rows.mapValues fun row => ⟨some row, none⟩

/-- Every lock that is held now was held before, and its row has been left alone. -/
def Kept (table table' : Table τ κ ρ) : Prop :=
  ∀ k p, (slot table' k).pending = some p →
    (slot table k).pending = some p ∧ committed table' k = committed table k

theorem Kept.refl (table : Table τ κ ρ) : Kept table table := fun _ _ h => ⟨h, rfl⟩

/-- A step of one transaction leaves the locks of the others, and what they protect. -/
def Frame (t : τ) (table table' : Table τ κ ρ) : Prop :=
  ∀ k p, p.1 ≠ t → ((slot table' k).pending = some p ↔ (slot table k).pending = some p) ∧
    ((slot table k).pending = some p → committed table' k = committed table k)

theorem Frame.refl (t : τ) (table : Table τ κ ρ) : Frame t table table :=
  fun _ _ _ => ⟨Iff.rfl, fun _ => rfl⟩

theorem Frame.trans {t : τ} {table table' table'' : Table τ κ ρ} (h : Frame t table table')
    (h' : Frame t table' table'') : Frame t table table'' := by
  intro k p hne
  obtain ⟨hpending, hsame⟩ := h k p hne
  obtain ⟨hpending', hsame'⟩ := h' k p hne
  exact ⟨hpending'.trans hpending, fun hp => (hsame' (hpending.mpr hp)).trans (hsame hp)⟩

variable [DecidableEq τ]

/-- What a statement of the transaction sees under the key. -/
def view (table : Table τ κ ρ) (t : τ) (k : κ) : Option ρ := (slot table k).view t

/-- The rows that a statement of the transaction sees. -/
def snapshot (table : Table τ κ ρ) (t : τ) : FiniteMap κ ρ := table.filterMapValues (·.view t)

/-- Some row that a statement of the transaction sees and that satisfies `p`. -/
def find? (table : Table τ κ ρ) (t : τ) (p : κ → ρ → Bool) : Option (κ × ρ) :=
  table.entries.findSome? fun e => ((e.2.view t).filter (p e.1)).map (e.1, ·)

def any (table : Table τ κ ρ) (t : τ) (p : κ → ρ → Bool) : Bool := (find? table t p).isSome

/-- A statement writes a version under the key; `none` while it waits. -/
def write (table : Table τ κ ρ) (t : τ) (k : κ) (version : Option ρ) : Option (Table τ κ ρ) :=
  if (slot table k).lockedFor t then none
  else some (table.insert k ⟨committed table k, some (t, version)⟩)

def commit (table : Table τ κ ρ) (t : τ) : Table τ κ ρ := table.mapValues (·.commit t)

def rollback (table : Table τ κ ρ) (t : τ) : Table τ κ ρ := table.mapValues (·.rollback t)

variable {table table' : Table τ κ ρ} {t : τ} {k k' : κ} {version : Option ρ} {row : ρ}

@[simp]
theorem slot_commit : slot (commit table t) k = (slot table k).commit t := by
  simp only [slot, commit, FiniteMap.lookup_mapValues]
  cases table.lookup k <;> rfl

@[simp]
theorem slot_rollback : slot (rollback table t) k = (slot table k).rollback t := by
  simp only [slot, rollback, FiniteMap.lookup_mapValues]
  cases table.lookup k <;> rfl

@[simp]
theorem committed_commit : committed (commit table t) k = view table t k := by
  rw [committed, slot_commit, Slot.commit_committed, view]

@[simp]
theorem committed_rollback : committed (rollback table t) k = committed table k := by
  rw [committed, slot_rollback, Slot.rollback_committed, committed]

/-- What a statement that has not waited does. -/
theorem write_eq_some (h : write table t k version = some table') :
    (slot table k).lockedFor t = false ∧
      ∀ k', slot table' k' =
        if k' = k then ⟨committed table k, some (t, version)⟩ else slot table k' := by
  unfold write at h
  split at h
  next => cases h
  next hfree =>
    cases h
    exact ⟨eq_false_of_ne_true hfree, fun k' => slot_insert _⟩

theorem committed_write (h : write table t k version = some table') (k' : κ) :
    committed table' k' = committed table k' := by
  rw [committed, (write_eq_some h).2 k']
  split
  next heq => rw [heq]
  next => rfl

@[simp]
theorem lookup_snapshot : (snapshot table t).lookup k = view table t k := by
  rw [snapshot, FiniteMap.lookup_filterMapValues, view, slot]
  cases table.lookup k <;> rfl

theorem view_of_not_heldBy (h : (slot table k).heldBy t = false) :
    view table t k = committed table k := Slot.view_of_not_heldBy h

theorem view_write (h : write table t k version = some table') (k' : κ) :
    view table' t k' = if k' = k then version else view table t k' := by
  rw [view, (write_eq_some h).2 k']
  split
  next => exact Slot.view_mk _ _
  next => rfl

/-- A statement that is a transaction of its own. -/
theorem slot_autocommit (h : write table t k version = some table')
    (hfresh : ∀ k, (slot table k).heldBy t = false) (k' : κ) :
    slot (commit table' t) k' = if k' = k then ⟨version, none⟩ else slot table k' := by
  rw [slot_commit, (write_eq_some h).2 k']
  split
  next =>
    rw [Slot.commit, if_pos (Slot.heldBy_iff.mpr ⟨version, rfl⟩), Slot.view_mk]
  next =>
    rw [Slot.commit, hfresh k', if_neg Bool.false_ne_true]

theorem kept_autocommit (h : write table t k version = some table')
    (hfresh : ∀ k, (slot table k).heldBy t = false) : Kept table (commit table' t) := by
  intro k' p hpending
  have hslot := slot_autocommit h hfresh k'
  rw [committed, hslot]
  rw [hslot] at hpending
  split at hpending
  next => cases hpending
  next hne => exact ⟨hpending, by rw [if_neg hne, committed]⟩

theorem kept_commit : Kept table (commit table t) := by
  intro k p hpending
  rw [slot_commit] at hpending
  obtain ⟨hbefore, hne⟩ := Slot.pending_commit.mp hpending
  refine ⟨hbefore, ?_⟩
  rw [committed_commit, view, Slot.view, hbefore]
  exact if_neg hne

theorem kept_rollback : Kept table (rollback table t) := by
  intro k p hpending
  rw [slot_rollback] at hpending
  exact ⟨(Slot.pending_rollback.mp hpending).1, committed_rollback⟩

theorem frame_write (h : write table t k version = some table') : Frame t table table' := by
  intro k' p hne
  refine ⟨?_, fun _ => committed_write h k'⟩
  rw [(write_eq_some h).2 k']
  by_cases heq : k' = k
  · rw [if_pos heq, heq]
    constructor
    · intro hp
      cases hp
      exact absurd rfl hne
    · intro hp
      have hfree := (write_eq_some h).1
      rw [Slot.lockedFor, hp] at hfree
      exact absurd (decide_eq_true hne) (Bool.eq_false_iff.mp hfree)
  · rw [if_neg heq]

theorem frame_commit : Frame t table (commit table t) := by
  intro k p hne
  rw [slot_commit, Slot.pending_commit]
  refine ⟨and_iff_left hne, fun hp => ?_⟩
  rw [committed_commit, view, Slot.view, hp]
  exact if_neg hne

theorem frame_rollback : Frame t table (rollback table t) := by
  intro k p hne
  rw [slot_rollback, Slot.pending_rollback]
  exact ⟨and_iff_left hne, fun _ => committed_rollback⟩

/-- The locks of the others are theirs as before. -/
theorem Frame.heldBy {t' : τ} (h : Frame t table table') (hne : t' ≠ t) (k : κ) :
    (slot table' k).heldBy t' = (slot table k).heldBy t' := by
  rw [Bool.eq_iff_iff, Slot.heldBy_iff, Slot.heldBy_iff]
  exact exists_congr fun version => (h k (t', version) hne).1

/-- What another transaction has written it sees as before. -/
theorem Frame.view {t' : τ} (h : Frame t table table') (hne : t' ≠ t)
    (hheld : (slot table k).heldBy t' = true) : view table' t' k = view table t' k := by
  obtain ⟨version, hp⟩ := Slot.heldBy_iff.mp hheld
  have hp' := (h k (t', version) hne).1.mpr hp
  rw [Table.view, Table.view, Slot.view, Slot.view, hp, hp']
  exact (if_pos rfl).trans (if_pos rfl).symm

/-- Every version after a write was there or is the one written. -/
theorem hasVersion_write (h : write table t k version = some table')
    (hversion : (slot table' k').HasVersion row) :
    (slot table k').HasVersion row ∨ k' = k ∧ version = some row := by
  rw [(write_eq_some h).2 k'] at hversion
  split at hversion
  next heq =>
    obtain hcommitted | ⟨t', hpending⟩ := hversion
    · rw [heq]
      exact .inl (.inl hcommitted)
    · cases hpending
      exact .inr ⟨heq, rfl⟩
  next => exact .inl hversion

theorem find?_eq_some {p : κ → ρ → Bool} (h : find? table t p = some (k, row)) :
    view table t k = some row ∧ p k row = true := by
  obtain ⟨⟨k', s⟩, hmem, heq⟩ := List.exists_of_findSome?_eq_some h
  obtain ⟨row', hrow, hpair⟩ := Option.map_eq_some_iff.mp heq
  cases hpair
  obtain ⟨hview, hp⟩ := Option.filter_eq_some_iff.mp hrow
  have hlook := (FiniteMap.lookup_eq_some_iff table k' s).mpr hmem
  rw [view, slot_of_lookup hlook]
  exact ⟨hview, hp⟩

theorem find?_eq_none {p : κ → ρ → Bool} (h : find? table t p = none)
    (hrow : view table t k = some row) : p k row = false := by
  cases hlook : table.lookup k with
  | none =>
    rw [view, slot, hlook] at hrow
    cases hrow
  | some s =>
    rw [view, slot_of_lookup hlook] at hrow
    have hmem := (FiniteMap.lookup_eq_some_iff table k s).mp hlook
    have hnone := List.findSome?_eq_none_iff.mp h ⟨k, s⟩ hmem
    rw [Option.map_eq_none_iff, Option.filter_eq_none_iff] at hnone
    exact eq_false_of_ne_true (hnone row hrow)

theorem any_eq_true {p : κ → ρ → Bool} :
    any table t p = true ↔ ∃ k row, view table t k = some row ∧ p k row = true := by
  rw [any, Option.isSome_iff_exists]
  constructor
  · rintro ⟨⟨k, row⟩, hfind⟩
    exact ⟨k, row, find?_eq_some hfind⟩
  · rintro ⟨k, row, hrow, hp⟩
    cases hfind : find? table t p with
    | some found => exact ⟨found, rfl⟩
    | none =>
      rw [find?_eq_none hfind hrow] at hp
      cases hp

end Table

end Botwork.Foundations
