import Mathlib.Algebra.Group.Int.Defs
import Mathlib.Algebra.GroupWithZero.Nat
import Mathlib.Data.List.AList
import Mathlib.Tactic.Common

/-!
# Finite maps

A finite map is Mathlib's `AList` with a constant value type: a list of
key-value pairs whose keys are pairwise distinct.  This file adds the
operations a mutable hash map offers beyond `insert`, `erase` and `lookup`
(`retain`, `values`, `find?`, `all`) and states every lookup law as one
rewrite rule, so that a proof about a state update is a case split on key
equality.

## Main definitions

- `FiniteMap κ ν` — finite maps from `κ` to `ν`
- `FiniteMap.retain` — keep the entries that satisfy a predicate
- `FiniteMap.mapValues`, `FiniteMap.filterMapValues` — every value through a function
- `FiniteMap.find?` — some entry that satisfies a predicate
- `FiniteMap.insertAll` — insert a list of entries
- `FiniteMap.countP` — the number of entries whose value satisfies a predicate
-/

namespace Botwork.Foundations

/-- A finite map with keys in `κ` and values in `ν`. -/
abbrev FiniteMap (κ ν : Type*) := AList (fun _ : κ => ν)

namespace FiniteMap

variable {κ ν : Type*} [DecidableEq κ]

-- Mathlib's instance for `AList` is a rewrite, on which the kernel gets stuck.
instance [DecidableEq ν] : DecidableEq (FiniteMap κ ν) := fun m m' =>
  decidable_of_iff (m.entries = m'.entries) AList.ext_iff.symm

/-- Lookup after an insertion, for both outcomes of the key comparison. -/
@[grind =]
theorem lookup_insert_ite (m : FiniteMap κ ν) (k k' : κ) (v : ν) :
    (m.insert k v).lookup k' = if k' = k then some v else m.lookup k' := by
  split
  next h => subst h; exact AList.lookup_insert m
  next h => exact AList.lookup_insert_ne h

/-- Lookup after an erasure, for both outcomes of the key comparison. -/
@[grind =]
theorem lookup_erase_ite (m : FiniteMap κ ν) (k k' : κ) :
    (m.erase k).lookup k' = if k' = k then none else m.lookup k' := by
  split
  next h => subst h; exact AList.lookup_erase k' m
  next h => exact AList.lookup_erase_ne h

theorem lookup_eq_some_iff (m : FiniteMap κ ν) (k : κ) (v : ν) :
    m.lookup k = some v ↔ (⟨k, v⟩ : Sigma fun _ : κ => ν) ∈ m.entries :=
  AList.mem_lookup_iff

-- ════════════════════════════════════════════════════════════════════════
-- Whole-map operations
-- ════════════════════════════════════════════════════════════════════════

/-- Keep exactly the entries that satisfy `p`. -/
def retain (p : κ → ν → Bool) (m : FiniteMap κ ν) : FiniteMap κ ν where
  entries := m.entries.filter fun e => p e.1 e.2
  nodupKeys := m.nodupKeys.sublist List.filter_sublist

/-- The values of a map, one for each key. -/
def values (m : FiniteMap κ ν) : List ν := m.entries.map Sigma.snd

/-- Every value through a function. -/
def mapValues {ν' : Type*} (f : ν → ν') (m : FiniteMap κ ν) : FiniteMap κ ν' where
  entries := m.entries.map fun e => ⟨e.1, f e.2⟩
  nodupKeys := by
    have hnodup := m.nodupKeys
    rw [List.NodupKeys, List.keys] at hnodup ⊢
    rw [List.map_map]
    exact hnodup

omit [DecidableEq κ] in
theorem keys_filterMap_sublist {ν' : Type*} (f : ν → Option ν') (l : List (Sigma fun _ : κ => ν)) :
    (List.keys (l.filterMap fun e => (f e.2).map (Sigma.mk (β := fun _ : κ => ν') e.1))).Sublist
      (List.keys l) := by
  induction l with
  | nil => exact List.Sublist.slnil
  | cons e l ih =>
    cases hf : f e.2 with
    | none =>
      rw [List.filterMap_cons_none (by rw [hf]; rfl)]
      exact ih.cons _
    | some w =>
      rw [List.filterMap_cons_some (by rw [hf]; rfl)]
      exact ih.cons_cons _

/-- The values that a partial function is defined at, through it. -/
def filterMapValues {ν' : Type*} (f : ν → Option ν') (m : FiniteMap κ ν) : FiniteMap κ ν' where
  entries := m.entries.filterMap fun e : (_ : κ) × ν => (f e.2).map (Sigma.mk e.1)
  nodupKeys := (keys_filterMap_sublist f m.entries).nodup m.nodupKeys

/-- The first entry of the underlying list that satisfies `p`. -/
def find? (p : κ → ν → Bool) (m : FiniteMap κ ν) : Option (κ × ν) :=
  (m.entries.find? fun e => p e.1 e.2).map fun e => (e.1, e.2)

/-- Whether every entry satisfies `p`. -/
def all (p : κ → ν → Bool) (m : FiniteMap κ ν) : Bool := m.entries.all fun e => p e.1 e.2

/-- Whether the map has no entry. -/
def isEmpty (m : FiniteMap κ ν) : Bool := m.entries.isEmpty

/-- Insert the entries of a list in order; the last one under a key stays. -/
def insertAll (m : FiniteMap κ ν) (entries : List (κ × ν)) : FiniteMap κ ν :=
  entries.foldl (fun m e => m.insert e.1 e.2) m

theorem lookup_insertAll_of_ne {m : FiniteMap κ ν} {entries : List (κ × ν)} {k : κ}
    (h : ∀ v, (k, v) ∉ entries) : (m.insertAll entries).lookup k = m.lookup k := by
  unfold insertAll
  induction entries generalizing m with
  | nil => rfl
  | cons e entries ih =>
    have hne : k ≠ e.1 := fun heq => h e.2 (by rw [heq]; exact List.mem_cons_self)
    rw [List.foldl_cons, ih fun v hmem => h v (List.mem_cons_of_mem _ hmem)]
    exact AList.lookup_insert_ne hne

/-- The entry under a key that the list writes is one of the list's. -/
theorem exists_lookup_insertAll {m : FiniteMap κ ν} {entries : List (κ × ν)} {k : κ} {v : ν}
    (h : (k, v) ∈ entries) : ∃ w, (k, w) ∈ entries ∧ (m.insertAll entries).lookup k = some w := by
  unfold insertAll
  induction entries generalizing m v with
  | nil => cases h
  | cons e entries ih =>
    by_cases hlater : ∃ w, (k, w) ∈ entries
    · obtain ⟨w, hw⟩ := hlater
      obtain ⟨w', hmem, hlook⟩ := ih (m := m.insert e.1 e.2) hw
      exact ⟨w', List.mem_cons_of_mem _ hmem, hlook⟩
    · have hhead : (k, v) = e := by
        rcases List.mem_cons.mp h with heq | hmem
        · exact heq
        · exact absurd ⟨v, hmem⟩ hlater
      subst hhead
      refine ⟨v, List.mem_cons_self, ?_⟩
      rw [List.foldl_cons]
      exact (lookup_insertAll_of_ne fun w hw => hlater ⟨w, hw⟩).trans (AList.lookup_insert m)

theorem mem_of_lookup_insertAll {entries : List (κ × ν)} {k : κ} {v : ν}
    (h : (insertAll ∅ entries).lookup k = some v) : (k, v) ∈ entries := by
  by_cases hmem : ∃ w, (k, w) ∈ entries
  · obtain ⟨w, hw⟩ := hmem
    obtain ⟨w', hmem', hlook⟩ := exists_lookup_insertAll (m := ∅) hw
    rw [h] at hlook
    cases hlook
    exact hmem'
  · rw [lookup_insertAll_of_ne fun w hw => hmem ⟨w, hw⟩, AList.lookup_empty] at h
    cases h

theorem mem_values_iff (m : FiniteMap κ ν) (v : ν) :
    v ∈ m.values ↔ ∃ k, m.lookup k = some v := by
  simp only [values, List.mem_map, lookup_eq_some_iff]
  constructor
  · rintro ⟨⟨k, w⟩, hmem, rfl⟩
    exact ⟨k, hmem⟩
  · rintro ⟨k, hmem⟩
    exact ⟨⟨k, v⟩, hmem, rfl⟩

/-- The values of a map built from a list that gives each key one value. -/
theorem mem_values_insertAll {entries : List (κ × ν)} {v : ν}
    (hone : ∀ k v w, (k, v) ∈ entries → (k, w) ∈ entries → v = w) :
    v ∈ (insertAll ∅ entries).values ↔ ∃ k, (k, v) ∈ entries := by
  rw [mem_values_iff]
  constructor
  · rintro ⟨k, hlook⟩
    exact ⟨k, mem_of_lookup_insertAll hlook⟩
  · rintro ⟨k, hmem⟩
    obtain ⟨w, hw, hlook⟩ := exists_lookup_insertAll (m := ∅) hmem
    rw [hone k v w hmem hw]
    exact ⟨k, hlook⟩

theorem insertAll_append (m : FiniteMap κ ν) (l l' : List (κ × ν)) :
    m.insertAll (l ++ l') = (m.insertAll l).insertAll l' := List.foldl_append

theorem lookup_of_isEmpty {m : FiniteMap κ ν} (h : m.isEmpty = true) (k : κ) :
    m.lookup k = none := by
  have hempty : m = ∅ := AList.ext (List.isEmpty_iff.mp h)
  rw [hempty]
  exact AList.lookup_empty k

theorem lookup_retain_eq_some (p : κ → ν → Bool) (m : FiniteMap κ ν) (k : κ) (v : ν) :
    (m.retain p).lookup k = some v ↔ m.lookup k = some v ∧ p k v = true := by
  rw [lookup_eq_some_iff, lookup_eq_some_iff]
  exact List.mem_filter

@[grind =]
theorem lookup_retain (p : κ → ν → Bool) (m : FiniteMap κ ν) (k : κ) :
    (m.retain p).lookup k = (m.lookup k).filter (p k) := by
  ext v
  rw [lookup_retain_eq_some, Option.filter_eq_some_iff]

@[simp]
theorem lookup_mapValues {ν' : Type*} (f : ν → ν') (m : FiniteMap κ ν) (k : κ) :
    (m.mapValues f).lookup k = (m.lookup k).map f := by
  ext w
  rw [lookup_eq_some_iff, Option.map_eq_some_iff]
  constructor
  · intro h
    obtain ⟨⟨k', v⟩, hmem, heq⟩ := List.mem_map.mp h
    cases heq
    exact ⟨v, (lookup_eq_some_iff m _ v).mpr hmem, rfl⟩
  · rintro ⟨v, hlook, rfl⟩
    exact List.mem_map.mpr ⟨⟨k, v⟩, (lookup_eq_some_iff m k v).mp hlook, rfl⟩

@[simp]
theorem lookup_filterMapValues {ν' : Type*} (f : ν → Option ν') (m : FiniteMap κ ν) (k : κ) :
    (m.filterMapValues f).lookup k = (m.lookup k).bind f := by
  ext w
  rw [lookup_eq_some_iff, Option.bind_eq_some_iff]
  constructor
  · intro h
    obtain ⟨⟨k', v⟩, hmem, heq⟩ := List.mem_filterMap.mp h
    obtain ⟨w', hw, hpair⟩ := Option.map_eq_some_iff.mp heq
    cases hpair
    exact ⟨v, (lookup_eq_some_iff m _ v).mpr hmem, hw⟩
  · rintro ⟨v, hlook, hw⟩
    exact List.mem_filterMap.mpr ⟨⟨k, v⟩, (lookup_eq_some_iff m k v).mp hlook, by rw [hw]; rfl⟩

/-- What `find?` returns is an entry of the map and satisfies the predicate. -/
theorem find?_eq_some {p : κ → ν → Bool} {m : FiniteMap κ ν} {k : κ} {v : ν}
    (h : m.find? p = some (k, v)) : m.lookup k = some v ∧ p k v = true := by
  simp only [find?, Option.map_eq_some_iff, Prod.mk.injEq] at h
  obtain ⟨⟨k', v'⟩, hfind, rfl, rfl⟩ := h
  have hp : p k' v' = true := by simpa using List.find?_some hfind
  exact ⟨(lookup_eq_some_iff m k' v').mpr (List.mem_of_find?_eq_some hfind), hp⟩

/-- `find?` fails only when no entry satisfies the predicate. -/
theorem find?_eq_none {p : κ → ν → Bool} {m : FiniteMap κ ν} (h : m.find? p = none)
    {k : κ} {v : ν} (hk : m.lookup k = some v) : p k v = false := by
  simp only [find?, Option.map_eq_none_iff, List.find?_eq_none, Bool.not_eq_true] at h
  exact h _ ((lookup_eq_some_iff m k v).mp hk)

theorem all_eq_true_iff (p : κ → ν → Bool) (m : FiniteMap κ ν) :
    m.all p = true ↔ ∀ k v, m.lookup k = some v → p k v = true := by
  simp only [all, List.all_eq_true, lookup_eq_some_iff]
  exact ⟨fun h k v hmem => h ⟨k, v⟩ hmem, fun h e hmem => h e.1 e.2 hmem⟩

-- ════════════════════════════════════════════════════════════════════════
-- Counting
-- ════════════════════════════════════════════════════════════════════════

/-- The number of entries whose value satisfies `p`. -/
def countP (p : ν → Bool) (m : FiniteMap κ ν) : Nat := m.entries.countP fun e => p e.2

theorem entries_perm {m : FiniteMap κ ν} {k : κ} {v : ν} (h : m.lookup k = some v) :
    m.entries.Perm (⟨k, v⟩ :: (m.erase k).entries) := by
  have hmem : k ∈ m := AList.lookup_isSome.mp (by rw [h]; rfl)
  obtain ⟨b, l, l', -, heq, herase⟩ := List.exists_of_kerase (AList.mem_keys.mp hmem)
  have hb : (⟨k, b⟩ : Sigma fun _ : κ => ν) ∈ m.entries := by rw [heq]; simp
  obtain rfl : v = b := by
    rw [(lookup_eq_some_iff m k b).mpr hb] at h
    exact (Option.some.inj h).symm
  show m.entries.Perm (⟨k, v⟩ :: List.kerase k m.entries)
  rw [herase, heq]
  exact List.perm_middle

theorem countP_erase (p : ν → Bool) {m : FiniteMap κ ν} {k : κ} {v : ν}
    (h : m.lookup k = some v) : countP p (m.erase k) + (p v).toNat = countP p m := by
  unfold countP
  rw [(entries_perm h).countP_eq, List.countP_cons]
  cases p v <;> rfl

theorem countP_insert (p : ν → Bool) (m : FiniteMap κ ν) (k : κ) (v : ν) :
    countP p (m.insert k v) = countP p (m.erase k) + (p v).toNat := by
  unfold countP
  rw [AList.entries_insert, List.countP_cons]
  cases p v <;> rfl

theorem erase_eq_self {m : FiniteMap κ ν} {k : κ} (h : m.lookup k = none) : m.erase k = m :=
  AList.ext (List.kerase_of_notMem_keys (AList.lookup_eq_none.mp h))

theorem countP_pos {p : ν → Bool} {m : FiniteMap κ ν} :
    0 < countP p m ↔ ∃ k v, m.lookup k = some v ∧ p v = true := by
  simp only [countP, List.countP_pos_iff, lookup_eq_some_iff]
  constructor
  · rintro ⟨⟨k, v⟩, hmem, hp⟩
    exact ⟨k, v, hmem, hp⟩
  · rintro ⟨k, v, hmem, hp⟩
    exact ⟨⟨k, v⟩, hmem, hp⟩

end FiniteMap

end Botwork.Foundations
