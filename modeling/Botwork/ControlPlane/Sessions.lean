import Mathlib.Data.List.Sort
import Botwork.Foundations.FiniteMap
import Botwork.Foundations.Json

/-!
# Session store

The in-memory table of session records and its two counters.  `insert` and
`remove` mutate the table inside one write-lock section and bump the generation
after the lock is dropped, so each is given as a section followed by `bump`;
other tasks can run between the two.

## Main definitions

- `SessionRecord` — one running plugin session
- `SessionTable` — records keyed by their own `sessionId`
- `SessionStore` — table, generation counter, acked-version gauge, subscribers
- `SessionStore.insertSection`, `SessionStore.removeSection` — the locked sections
-/

namespace Botwork.ControlPlane

open Botwork.Foundations

/-- An IPv4 address, as its four octets. -/
structure Ipv4Addr where
  a : Fin 256
  b : Fin 256
  c : Fin 256
  d : Fin 256
  deriving DecidableEq, Repr

instance neZero_octet : NeZero 256 := inferInstance

/-- One decimal octet: one to three digits, no leading zero, at most 255. -/
def Ipv4Addr.parseOctet (digits : List Char) : Option (Fin 256) :=
  let leadingZero := decide (1 < digits.length) && digits.head? == some '0'
  if digits.isEmpty || decide (3 < digits.length) || leadingZero || !digits.all Char.isDigit then
    none
  else
    let n := Nat.ofDigitChars 10 digits 0
    if h : n < 256 then some ⟨n, h⟩ else none

/-- Dotted-quad notation. -/
def Ipv4Addr.parse (s : String) : Option Ipv4Addr :=
  match s.toList.splitOn '.' with
  | [a, b, c, d] => do
    return ⟨← parseOctet a, ← parseOctet b, ← parseOctet c, ← parseOctet d⟩
  | _ => none

/-- One running plugin session as seen by control-plane. -/
structure SessionRecord where
  sessionId : String
  containerIp : Ipv4Addr
  tenant : String
  workspace : String
  plugin : String
  egressPolicy : Json
  deriving DecidableEq

inductive StoreError where
  | alreadyExists (sessionId : String)
  | notFound (sessionId : String)
  deriving DecidableEq, Repr

-- ════════════════════════════════════════════════════════════════════════
-- Session table
-- ════════════════════════════════════════════════════════════════════════

/-- The map behind the lock.  Every record is stored under its own id. -/
structure SessionTable where
  records : FiniteMap String SessionRecord
  keyed : ∀ id r, records.lookup id = some r → r.sessionId = id

namespace SessionTable

def empty : SessionTable where
  records := ∅
  keyed := by intro id r h; simp at h

def get (t : SessionTable) (id : String) : Option SessionRecord := t.records.lookup id

def set (t : SessionTable) (record : SessionRecord) : SessionTable where
  records := t.records.insert record.sessionId record
  keyed := by
    intro id r h
    rw [FiniteMap.lookup_insert_ite] at h
    split at h
    next heq => cases h; exact heq.symm
    next => exact t.keyed id r h

def unset (t : SessionTable) (id : String) : SessionTable where
  records := t.records.erase id
  keyed := by
    intro id' r h
    rw [FiniteMap.lookup_erase_ite] at h
    split at h
    next => cases h
    next => exact t.keyed id' r h

@[simp] theorem get_empty (id : String) : empty.get id = none := rfl

@[grind =]
theorem get_set (t : SessionTable) (record : SessionRecord) (id : String) :
    (t.set record).get id = if id = record.sessionId then some record else t.get id :=
  FiniteMap.lookup_insert_ite _ _ _ _

@[grind =]
theorem get_unset (t : SessionTable) (id id' : String) :
    (t.unset id).get id' = if id' = id then none else t.get id' :=
  FiniteMap.lookup_erase_ite _ _ _

theorem sessionId_of_get {t : SessionTable} {id : String} {r : SessionRecord}
    (h : t.get id = some r) : r.sessionId = id := t.keyed id r h

end SessionTable

-- ════════════════════════════════════════════════════════════════════════
-- Session store
-- ════════════════════════════════════════════════════════════════════════

/-- `generation` and `ackedVersion` are the current values of the two watch
    channels, both 64-bit counters. -/
structure SessionStore where
  inner : SessionTable
  generation : Nat
  ackedVersion : Nat
  xdsSubscribers : Nat

namespace SessionStore

def new : SessionStore where
  inner := SessionTable.empty
  generation := 0
  ackedVersion := 0
  xdsSubscribers := 0

/-- The generation after one more mutation; the counter wraps. -/
def bump (s : SessionStore) : SessionStore :=
  { s with generation := (s.generation + 1) % 2 ^ 64 }

/-- The gauge moves only upwards. -/
def recordAckedVersion (s : SessionStore) (version : Nat) : SessionStore :=
  { s with ackedVersion := if s.ackedVersion < version then version else s.ackedVersion }

/-- `insert` up to the release of the write lock. -/
def insertSection (s : SessionStore) (record : SessionRecord) : Except StoreError SessionStore :=
  if (s.inner.get record.sessionId).isSome then .error (.alreadyExists record.sessionId)
  else .ok { s with inner := s.inner.set record }

/-- Strict insert: a second insert under the same id is rejected. -/
def insert (s : SessionStore) (record : SessionRecord) : Except StoreError SessionStore :=
  (s.insertSection record).map bump

/-- `remove` up to the release of the write lock. -/
def removeSection (s : SessionStore) (id : String) :
    Except StoreError (SessionRecord × SessionStore) :=
  match s.inner.get id with
  | none => .error (.notFound id)
  | some record => .ok (record, { s with inner := s.inner.unset id })

/-- Strict delete: an unknown id is rejected. -/
def remove (s : SessionStore) (id : String) : Except StoreError (SessionRecord × SessionStore) :=
  (s.removeSection id).map fun (record, s') => (record, s'.bump)

/-- Snapshot of all records, sorted by id. -/
def list (s : SessionStore) : List SessionRecord :=
  s.inner.records.values.insertionSort fun r r' => r.sessionId ≤ r'.sessionId

/-- Cold-start seeding: duplicates are skipped. -/
def seedStore (s : SessionStore) (records : List SessionRecord) : SessionStore :=
  records.foldl (fun s record => (s.insert record).toOption.getD s) s

/-- Bulk load under one write lock: the first duplicate ends it, and what was
    loaded before stays without a bump. -/
def bulkSeed (s : SessionStore) (count : Nat) :
    List SessionRecord → SessionStore × Except StoreError Nat
  | [] => (s.bump, .ok count)
  | record :: records =>
    match s.insertSection record with
    | .error err => (s, .error err)
    | .ok s' => s'.bulkSeed (count + 1) records

-- ════════════════════════════════════════════════════════════════════════
-- What the sections do
-- ════════════════════════════════════════════════════════════════════════

theorem mem_list_iff (s : SessionStore) (r : SessionRecord) :
    r ∈ s.list ↔ s.inner.get r.sessionId = some r := by
  rw [list, List.mem_insertionSort, FiniteMap.mem_values_iff]
  constructor
  · rintro ⟨id, h⟩
    have hid := s.inner.keyed id r h
    rw [hid]
    exact h
  · intro h
    exact ⟨r.sessionId, h⟩

theorem nodup_list (s : SessionStore) : (s.list.map SessionRecord.sessionId).Nodup := by
  have hkeys : s.inner.records.values.map SessionRecord.sessionId = s.inner.records.keys := by
    rw [FiniteMap.values, List.map_map]
    refine List.map_congr_left fun e he => ?_
    exact s.inner.keyed e.1 e.2 ((FiniteMap.lookup_eq_some_iff _ _ _).mpr he)
  have hperm := (List.perm_insertionSort (fun r r' : SessionRecord => r.sessionId ≤ r'.sessionId)
    s.inner.records.values).map SessionRecord.sessionId
  exact hperm.nodup_iff.mpr (hkeys ▸ s.inner.records.keys_nodup)

theorem list_congr {s s' : SessionStore} (h : s'.inner = s.inner) : s'.list = s.list := by
  unfold list
  rw [h]

theorem insertSection_eq_ok {s s' : SessionStore} {record : SessionRecord}
    (h : s.insertSection record = .ok s') :
    s.inner.get record.sessionId = none ∧ s' = { s with inner := s.inner.set record } := by
  unfold insertSection at h
  split at h
  next => cases h
  next hnone =>
    have hnone' : s.inner.get record.sessionId = none := by simpa using hnone
    exact ⟨hnone', (Except.ok.inj h).symm⟩

theorem removeSection_eq_ok {s s' : SessionStore} {id : String} {record : SessionRecord}
    (h : s.removeSection id = .ok (record, s')) :
    s.inner.get id = some record ∧ s' = { s with inner := s.inner.unset id } := by
  unfold removeSection at h
  split at h
  next => cases h
  next r hget =>
    obtain ⟨rfl, rfl⟩ := Prod.mk.inj (Except.ok.inj h)
    exact ⟨hget, rfl⟩

theorem generation_bump {s : SessionStore} (h : s.generation + 1 < 2 ^ 64) :
    s.bump.generation = s.generation + 1 := Nat.mod_eq_of_lt h

theorem generation_bump_lt (s : SessionStore) : s.bump.generation < 2 ^ 64 :=
  Nat.mod_lt _ (by decide)

theorem generation_seedStore_lt {s : SessionStore} (records : List SessionRecord)
    (h : s.generation < 2 ^ 64) : (s.seedStore records).generation < 2 ^ 64 := by
  induction records generalizing s with
  | nil => exact h
  | cons record records ih =>
    refine ih ?_
    cases hins : s.insertSection record with
    | error e => simpa [insert, hins, Except.map, Except.toOption] using h
    | ok s' => simpa [insert, hins, Except.map, Except.toOption] using s'.generation_bump_lt

theorem seedStore_counters (s : SessionStore) (records : List SessionRecord) :
    (s.seedStore records).ackedVersion = s.ackedVersion ∧
      (s.seedStore records).xdsSubscribers = s.xdsSubscribers := by
  induction records generalizing s with
  | nil => exact ⟨rfl, rfl⟩
  | cons record records ih =>
    obtain ⟨hacked, hsubs⟩ := ih ((s.insert record).toOption.getD s)
    have hone : ((s.insert record).toOption.getD s).ackedVersion = s.ackedVersion ∧
        ((s.insert record).toOption.getD s).xdsSubscribers = s.xdsSubscribers := by
      cases hins : s.insertSection record with
      | error e => simp [insert, hins, Except.map, Except.toOption]
      | ok s' =>
        obtain ⟨-, rfl⟩ := insertSection_eq_ok hins
        simp [insert, hins, Except.map, Except.toOption, bump]
    exact ⟨hacked.trans hone.1, hsubs.trans hone.2⟩

/-- A loaded record was there before or is the inserted one. -/
theorem get_insertSection {s s' : SessionStore} {record r : SessionRecord} {id : String}
    (hins : s.insertSection record = .ok s') (h : s'.inner.get id = some r) :
    s.inner.get id = some r ∨ r = record := by
  obtain ⟨-, rfl⟩ := insertSection_eq_ok hins
  rw [SessionTable.get_set] at h
  split at h
  next => exact .inr (Option.some.inj h).symm
  next => exact .inl h

theorem mem_of_get_seedStore {s : SessionStore} {records : List SessionRecord}
    {id : String} {r : SessionRecord} (h : (s.seedStore records).inner.get id = some r) :
    s.inner.get id = some r ∨ r ∈ records := by
  induction records generalizing s with
  | nil => exact .inl h
  | cons record records ih =>
    rcases ih h with h | hmem
    · cases hins : s.insertSection record with
      | error e =>
        have hsame : (s.insert record).toOption.getD s = s := by
          simp [insert, hins, Except.map, Except.toOption]
        exact .inl (hsame ▸ h)
      | ok s' =>
        have hbumped : ((s.insert record).toOption.getD s).inner = s'.inner := by
          simp [insert, hins, Except.map, Except.toOption, bump]
        rcases get_insertSection hins (hbumped ▸ h) with h | rfl
        · exact .inl h
        · exact .inr List.mem_cons_self
    · exact .inr (List.mem_cons_of_mem _ hmem)

theorem mem_of_get_bulkSeed {s : SessionStore} {records : List SessionRecord} {count : Nat}
    {id : String} {r : SessionRecord} (h : (s.bulkSeed count records).1.inner.get id = some r) :
    s.inner.get id = some r ∨ r ∈ records := by
  induction records generalizing s count with
  | nil => exact .inl h
  | cons record records ih =>
    rw [bulkSeed] at h
    split at h
    next => exact .inl h
    next s' hins =>
      rcases ih h with h | hmem
      · rcases get_insertSection hins h with h | rfl
        · exact .inl h
        · exact .inr List.mem_cons_self
      · exact .inr (List.mem_cons_of_mem _ hmem)

end SessionStore

end Botwork.ControlPlane
