import Mathlib.Data.List.Nodup
import Mathlib.Data.List.Perm.Basic
import Mathlib.Data.String.Basic
import Mathlib.Tactic.Common

/-!
# Sorted maps

Maps that iterate in the order of their keys: lists of entries with ascending keys.
Two such maps are equal exactly if every lookup agrees, so a map that is collected
from a list does not depend on the order of the list, as long as no key stands in it
with two values.

## Main definitions

- `SortedMap κ ν` — sorted maps from `κ` to `ν`
- `SortedMap.insert`, `SortedMap.get?`, `SortedMap.ofList` — the operations of a map
- `SortedMap.extend`, `SortedMap.filterKeys`, `SortedMap.mapValues` — on whole maps
- `Consistent` — no key stands in a list with two values
-/

namespace Botwork.Foundations

-- ════════════════════════════════════════════════════════════════════════
-- Entries
-- ════════════════════════════════════════════════════════════════════════

namespace SortedEntries

variable {κ ν : Type} [LinearOrder κ]

/-- Insert an entry where its key belongs; a value that stands there is replaced. -/
def insert (k : κ) (v : ν) : List (κ × ν) → List (κ × ν)
  | [] => [(k, v)]
  | (k', v') :: entries =>
    if k = k' then (k, v) :: entries
    else if k < k' then (k, v) :: (k', v') :: entries
    else (k', v') :: insert k v entries

def get? (k : κ) : List (κ × ν) → Option ν
  | [] => none
  | (k', v') :: entries => if k = k' then some v' else get? k entries

def Ascend (entries : List (κ × ν)) : Prop := (entries.map Prod.fst).Pairwise (· < ·)

theorem mem_insert {k : κ} {v : ν} {entries : List (κ × ν)} {e : κ × ν}
    (h : e ∈ insert k v entries) : e = (k, v) ∨ e ∈ entries := by
  induction entries with
  | nil => exact .inl (List.mem_singleton.mp h)
  | cons e' entries ih =>
    rw [insert] at h
    split_ifs at h
    · obtain h | h := List.mem_cons.mp h
      · exact .inl h
      · exact .inr (List.mem_cons_of_mem _ h)
    · exact List.mem_cons.mp h
    · obtain h | h := List.mem_cons.mp h
      · exact .inr (h ▸ List.mem_cons_self)
      · exact (ih h).imp_right (List.mem_cons_of_mem _)

theorem Ascend.insert {k : κ} {v : ν} {entries : List (κ × ν)} (h : Ascend entries) :
    Ascend (insert k v entries) := by
  induction entries with
  | nil => exact List.pairwise_singleton _ _
  | cons e entries ih =>
    obtain ⟨k', v'⟩ := e
    obtain ⟨hk', hrest⟩ := List.pairwise_cons.mp h
    rw [SortedEntries.insert]
    split_ifs with heq hlt
    · subst heq
      exact List.pairwise_cons.mpr ⟨hk', hrest⟩
    · refine List.pairwise_cons.mpr ⟨fun k'' hk'' => ?_, h⟩
      obtain rfl | hk'' := List.mem_cons.mp hk''
      · exact hlt
      · exact hlt.trans (hk' k'' hk'')
    · refine List.pairwise_cons.mpr ⟨fun k'' hk'' => ?_, ih hrest⟩
      obtain ⟨e, he, rfl⟩ := List.mem_map.mp hk''
      obtain rfl | he := mem_insert he
      · exact lt_of_le_of_ne (not_lt.mp hlt) (Ne.symm heq)
      · exact hk' _ (List.mem_map_of_mem he)

theorem get?_insert (k k' : κ) (v : ν) (entries : List (κ × ν)) :
    get? k' (insert k v entries) = if k' = k then some v else get? k' entries := by
  induction entries with
  | nil => rfl
  | cons e entries ih =>
    obtain ⟨k'', v''⟩ := e
    rw [insert]
    by_cases heq : k = k''
    · subst heq
      rw [if_pos rfl, get?, get?]
      by_cases hk : k' = k
      · rw [if_pos hk, if_pos hk]
      · rw [if_neg hk, if_neg hk, if_neg hk]
    · rw [if_neg heq]
      by_cases hlt : k < k''
      · rw [if_pos hlt, get?]
      · rw [if_neg hlt, get?, get?, ih]
        by_cases hk : k' = k''
        · subst hk
          rw [if_pos rfl, if_pos rfl, if_neg (Ne.symm heq)]
        · rw [if_neg hk, if_neg hk]

theorem get?_eq_some {k : κ} {v : ν} {entries : List (κ × ν)} (h : Ascend entries) :
    get? k entries = some v ↔ (k, v) ∈ entries := by
  induction entries with
  | nil => exact ⟨nofun, fun hmem => absurd hmem List.not_mem_nil⟩
  | cons e entries ih =>
    obtain ⟨k', v'⟩ := e
    obtain ⟨hk', hrest⟩ := List.pairwise_cons.mp h
    rw [get?, List.mem_cons]
    split_ifs with heq
    · subst heq
      constructor
      · intro hv
        cases hv
        exact .inl rfl
      · rintro (hv | hmem)
        · cases hv
          rfl
        · exact absurd (hk' _ (List.mem_map_of_mem hmem)) (lt_irrefl _)
    · rw [ih hrest]
      exact ⟨.inr, fun hmem => hmem.resolve_left fun hv => heq (Prod.mk.inj hv).1⟩

/-- Ascending entries are known by their lookups. -/
theorem eq_of_get? {entries entries' : List (κ × ν)} (h : Ascend entries) (h' : Ascend entries')
    (hget : ∀ k, get? k entries = get? k entries') : entries = entries' := by
  have hnodup : ∀ {l : List (κ × ν)}, Ascend l → l.Nodup := fun hl =>
    (List.pairwise_map.mp hl).imp fun hlt heq => absurd (congrArg Prod.fst heq) hlt.ne
  have hperm : entries.Perm entries' :=
    (List.perm_ext_iff_of_nodup (hnodup h) (hnodup h')).mpr fun e => by
      rw [← get?_eq_some h, ← get?_eq_some h', hget]
  exact hperm.eq_of_pairwise (fun a b _ _ hab hba => absurd (hab.trans hba) (lt_irrefl _))
    (List.pairwise_map.mp h) (List.pairwise_map.mp h')

end SortedEntries

-- ════════════════════════════════════════════════════════════════════════
-- Maps
-- ════════════════════════════════════════════════════════════════════════

structure SortedMap (κ ν : Type) [LinearOrder κ] where
  entries : List (κ × ν)
  ascend : SortedEntries.Ascend entries

namespace SortedMap

variable {κ ν : Type} [LinearOrder κ]

instance [DecidableEq ν] : DecidableEq (SortedMap κ ν) := fun m m' =>
  decidable_of_iff (m.entries = m'.entries) ⟨fun h => by cases m; cases m'; cases h; rfl,
    fun h => h ▸ rfl⟩

def empty : SortedMap κ ν := ⟨[], .nil⟩

def get? (m : SortedMap κ ν) (k : κ) : Option ν := SortedEntries.get? k m.entries

def insert (m : SortedMap κ ν) (k : κ) (v : ν) : SortedMap κ ν :=
  ⟨SortedEntries.insert k v m.entries, m.ascend.insert⟩

def size (m : SortedMap κ ν) : Nat := m.entries.length

def keys (m : SortedMap κ ν) : List κ := m.entries.map Prod.fst

/-- Insert entries one after the other. -/
def insertAll (m : SortedMap κ ν) (entries : List (κ × ν)) : SortedMap κ ν :=
  entries.foldl (fun m e => m.insert e.1 e.2) m

def ofList (entries : List (κ × ν)) : SortedMap κ ν := empty.insertAll entries

/-- The entries of another map win. -/
def extend (m m' : SortedMap κ ν) : SortedMap κ ν := m.insertAll m'.entries

def filterKeys (p : κ → Bool) (m : SortedMap κ ν) : SortedMap κ ν where
  entries := m.entries.filter fun e => p e.1
  ascend := m.ascend.sublist (List.filter_sublist.map Prod.fst)

def mapValues {ν' : Type} (f : ν → ν') (m : SortedMap κ ν) : SortedMap κ ν' where
  entries := m.entries.map fun e => (e.1, f e.2)
  ascend := by
    rw [SortedEntries.Ascend, List.map_map]
    exact m.ascend

-- ════════════════════════════════════════════════════════════════════════
-- Lookups
-- ════════════════════════════════════════════════════════════════════════

variable {m m' : SortedMap κ ν} {k k' : κ} {v : ν}

@[ext]
theorem ext (h : ∀ k, m.get? k = m'.get? k) : m = m' := by
  obtain ⟨entries, ascend⟩ := m
  obtain ⟨entries', ascend'⟩ := m'
  obtain rfl := SortedEntries.eq_of_get? ascend ascend' h
  rfl

@[simp] theorem get?_empty : (empty : SortedMap κ ν).get? k = none := rfl

theorem get?_eq_some : m.get? k = some v ↔ (k, v) ∈ m.entries :=
  SortedEntries.get?_eq_some m.ascend

theorem get?_insert : (m.insert k v).get? k' = if k' = k then some v else m.get? k' :=
  SortedEntries.get?_insert k k' v m.entries

theorem mem_keys : k ∈ m.keys ↔ (m.get? k).isSome = true := by
  rw [Option.isSome_iff_exists]
  simp only [get?_eq_some]
  constructor
  · intro h
    obtain ⟨e, he, rfl⟩ := List.mem_map.mp h
    exact ⟨e.2, he⟩
  · rintro ⟨v, h⟩
    exact List.mem_map_of_mem (f := Prod.fst) h

theorem get?_filterKeys (p : κ → Bool) :
    (m.filterKeys p).get? k = if p k then m.get? k else none := by
  split_ifs with hp
  · refine Option.ext fun v => ?_
    rw [get?_eq_some, get?_eq_some]
    exact List.mem_filter.trans (and_iff_left hp)
  · refine Option.eq_none_iff_forall_ne_some.mpr fun v hv => hp ?_
    exact (List.mem_filter.mp (get?_eq_some.mp hv)).2

theorem get?_mapValues {ν' : Type} (f : ν → ν') : (m.mapValues f).get? k = (m.get? k).map f := by
  refine Option.ext fun v => ?_
  rw [get?_eq_some, Option.map_eq_some_iff]
  constructor
  · intro h
    obtain ⟨e, he, heq⟩ := List.mem_map.mp h
    cases heq
    exact ⟨e.2, get?_eq_some.mpr he, rfl⟩
  · rintro ⟨w, hw, rfl⟩
    exact List.mem_map.mpr ⟨(k, w), get?_eq_some.mp hw, rfl⟩

-- ════════════════════════════════════════════════════════════════════════
-- Lists of entries
-- ════════════════════════════════════════════════════════════════════════

theorem insertAll_append (m : SortedMap κ ν) (l l' : List (κ × ν)) :
    m.insertAll (l ++ l') = (m.insertAll l).insertAll l' := List.foldl_append

theorem get?_insertAll_of_forall_ne {l : List (κ × ν)} (h : ∀ e ∈ l, e.1 ≠ k) :
    (m.insertAll l).get? k = m.get? k := by
  induction l generalizing m with
  | nil => rfl
  | cons e l ih =>
    have hrest : ((m.insert e.1 e.2).insertAll l).get? k = (m.insert e.1 e.2).get? k :=
      ih fun e' he' => h e' (List.mem_cons_of_mem _ he')
    exact hrest.trans (get?_insert.trans (if_neg (h e List.mem_cons_self).symm))

/-- What is found under a key is what was there or an entry that was put over it. -/
theorem mem_of_get?_insertAll {l : List (κ × ν)} (h : (m.insertAll l).get? k = some v) :
    (k, v) ∈ l ∨ m.get? k = some v := by
  induction l generalizing m with
  | nil => exact .inr h
  | cons e l ih =>
    obtain hmem | hget := ih (m := m.insert e.1 e.2) h
    · exact .inl (List.mem_cons_of_mem _ hmem)
    · rw [get?_insert] at hget
      split_ifs at hget with hk
      · cases hget
        subst hk
        exact .inl List.mem_cons_self
      · exact .inr hget

theorem exists_get?_insertAll {l : List (κ × ν)} (h : ∃ e ∈ l, e.1 = k) :
    ∃ v, (k, v) ∈ l ∧ (m.insertAll l).get? k = some v := by
  induction l generalizing m with
  | nil =>
    obtain ⟨e, he, -⟩ := h
    exact absurd he List.not_mem_nil
  | cons e l ih =>
    by_cases hlater : ∃ e' ∈ l, e'.1 = k
    · obtain ⟨v, hv, hget⟩ := ih (m := m.insert e.1 e.2) hlater
      exact ⟨v, List.mem_cons_of_mem _ hv, hget⟩
    · obtain ⟨e', he', hk⟩ := h
      obtain rfl | he' := List.mem_cons.mp he'
      · have hrest : ((m.insert e'.1 e'.2).insertAll l).get? k = (m.insert e'.1 e'.2).get? k :=
          get?_insertAll_of_forall_ne fun e he heq => hlater ⟨e, he, heq⟩
        refine ⟨e'.2, hk ▸ List.mem_cons_self, hrest.trans ?_⟩
        rw [get?_insert, if_pos hk.symm]
      · exact absurd ⟨e', he', hk⟩ hlater

end SortedMap

/-- No key stands in the list with two values. -/
def Consistent {κ ν : Type} (l : List (κ × ν)) : Prop :=
  ∀ e ∈ l, ∀ e' ∈ l, e.1 = e'.1 → e.2 = e'.2

theorem consistent_of_nodup {κ ν : Type} {l : List (κ × ν)} (h : (l.map Prod.fst).Nodup) :
    Consistent l := fun _ he _ he' heq => congrArg Prod.snd (List.inj_on_of_nodup_map h he he' heq)

namespace SortedMap

variable {κ ν : Type} [LinearOrder κ] {m : SortedMap κ ν} {k : κ} {v : ν} {l l' : List (κ × ν)}

theorem get?_insertAll_of_mem (hl : Consistent l) (h : (k, v) ∈ l) :
    (m.insertAll l).get? k = some v := by
  obtain ⟨w, hw, hget⟩ := exists_get?_insertAll (m := m) (k := k) ⟨(k, v), h, rfl⟩
  rw [hget]
  exact congrArg some (hl _ hw _ h rfl)

theorem get?_ofList (hl : Consistent l) : (ofList l).get? k = some v ↔ (k, v) ∈ l := by
  constructor
  · intro h
    exact (mem_of_get?_insertAll h).resolve_right nofun
  · exact get?_insertAll_of_mem hl

/-- A map does not depend on the order in which its entries were listed. -/
theorem ofList_congr (hl : Consistent l) (hmem : ∀ e, e ∈ l ↔ e ∈ l') : ofList l = ofList l' := by
  have hl' : Consistent l' := fun e he e' he' =>
    hl e ((hmem e).mpr he) e' ((hmem e').mpr he')
  ext k v
  rw [get?_ofList hl, get?_ofList hl', hmem]

theorem mapValues_insert {ν' : Type} (f : ν → ν') :
    (m.insert k v).mapValues f = (m.mapValues f).insert k (f v) := by
  ext k' : 1
  rw [get?_mapValues, get?_insert, get?_insert, get?_mapValues]
  split_ifs <;> rfl

theorem mapValues_ofList {ν' : Type} (f : ν → ν') :
    (ofList l).mapValues f = ofList (l.map fun e => (e.1, f e.2)) := by
  have hall : ∀ m : SortedMap κ ν, (m.insertAll l).mapValues f =
      (m.mapValues f).insertAll (l.map fun e => (e.1, f e.2)) := by
    induction l with
    | nil => exact fun _ => rfl
    | cons e l ih =>
      intro m
      refine (ih (m.insert e.1 e.2)).trans ?_
      rw [mapValues_insert]
      rfl
  exact hall empty

theorem consistent_entries (m : SortedMap κ ν) : Consistent m.entries := by
  rintro ⟨k, v⟩ he ⟨k', v'⟩ he' rfl
  have heq := (get?_eq_some.mpr he).symm.trans (get?_eq_some.mpr he')
  exact Option.some.inj heq

theorem get?_extend {m' : SortedMap κ ν} : (m.extend m').get? k = (m'.get? k).or (m.get? k) := by
  cases hk : m'.get? k with
  | none =>
    refine get?_insertAll_of_forall_ne fun e he heq => ?_
    have hget : m'.get? k = some e.2 := get?_eq_some.mpr (heq ▸ he)
    rw [hk] at hget
    cases hget
  | some v => exact get?_insertAll_of_mem m'.consistent_entries (get?_eq_some.mp hk)

/-- Of a map that was put over another one, only its own entries satisfy `p` exactly if
    no others did before. -/
theorem filterKeys_extend_eq_iff {m' : SortedMap κ ν} {p : κ → Bool}
    (hp : ∀ k ∈ m'.keys, p k = true) :
    (m.extend m').filterKeys p = m' ↔ ∀ k ∈ m.keys, p k = true → k ∈ m'.keys := by
  constructor
  · intro h k hk hpk
    rw [mem_keys, ← h, get?_filterKeys, if_pos hpk, get?_extend, Option.isSome_or,
      mem_keys.mp hk, Bool.or_true]
  · intro h
    ext k : 1
    rw [get?_filterKeys, get?_extend]
    cases hk : m'.get? k with
    | some v =>
      rw [if_pos (hp k (mem_keys.mpr (by rw [hk]; rfl))), Option.some_or]
    | none =>
      rw [Option.none_or]
      split_ifs with hpk
      · by_contra hne
        have hmem := h k (mem_keys.mpr (Option.isSome_iff_ne_none.mpr hne)) hpk
        rw [mem_keys, hk] at hmem
        cases hmem
      · rfl

end SortedMap

end Botwork.Foundations
