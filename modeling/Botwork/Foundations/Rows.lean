import Mathlib.Algebra.Group.Int.Defs
import Mathlib.Algebra.GroupWithZero.Nat
import Mathlib.Data.List.Find
import Mathlib.Data.List.Nodup
import Mathlib.Data.List.Sort

/-!
# Rows with a key

Tables as lists of rows of which no two have the same key: what a key finds, and
what insertion and the update of one row do.

## Main definitions

- `Keyed` — no two rows have the same key
- `replaceRow` — the row of a key is replaced
- `findRow` — the row of a name, another key that rows are looked up by
- `Put` — a row is brought under its name, and nothing else is
- `orderBy` — the rows in the order of a key
-/

namespace Botwork.Foundations

variable {ρ κ : Type*} {key : ρ → κ} {rows : List ρ} {row row' : ρ}

/-- No two rows have the same key. -/
def Keyed (key : ρ → κ) (rows : List ρ) : Prop := (rows.map key).Nodup

instance [DecidableEq κ] : Decidable (Keyed key rows) :=
  inferInstanceAs (Decidable (rows.map key).Nodup)

theorem keyed_nil : Keyed key [] := List.nodup_nil

theorem Keyed.eq_of_key (h : Keyed key rows) (hrow : row ∈ rows) (hrow' : row' ∈ rows)
    (hkey : key row = key row') : row = row' := List.inj_on_of_nodup_map h hrow hrow' hkey

theorem Keyed.append (h : Keyed key rows) (hnew : ∀ r ∈ rows, key r ≠ key row) :
    Keyed key (rows ++ [row]) := by
  rw [Keyed, List.map_append, List.map_singleton]
  refine List.nodup_append'.mpr ⟨h, List.nodup_singleton _, ?_⟩
  rintro k hk hk'
  obtain ⟨r, hr, rfl⟩ := List.mem_map.mp hk
  exact hnew r hr (List.mem_singleton.mp hk')

/-- The row of a key is replaced. -/
def replaceRow [DecidableEq κ] (key : ρ → κ) (new : ρ) (rows : List ρ) : List ρ :=
  rows.map fun r => if key r = key new then new else r

variable [DecidableEq κ] {new : ρ}

theorem map_key_replaceRow {α : Type*} {f : ρ → α} (hf : ∀ r ∈ rows, key r = key new → f r = f new) :
    (replaceRow key new rows).map f = rows.map f := by
  rw [replaceRow, List.map_map]
  refine List.map_congr_left fun r hr => ?_
  rw [Function.comp_apply]
  split_ifs with hkey
  · exact (hf r hr hkey).symm
  · rfl

/-- What the update leaves of another key. -/
theorem Keyed.replaceRow {κ' : Type*} {key' : ρ → κ'} (h : Keyed key' rows)
    (hf : ∀ r ∈ rows, key r = key new → key' r = key' new) :
    Keyed key' (replaceRow key new rows) := by
  rw [Keyed, map_key_replaceRow hf]
  exact h

-- ════════════════════════════════════════════════════════════════════════
-- Rows with a name
-- ════════════════════════════════════════════════════════════════════════

variable {ν : Type*} [DecidableEq ν] {name : ρ → ν} {old : ρ} {rows' : List ρ} {n : ν}

/-- The first row of a name. -/
def findRow (name : ρ → ν) (rows : List ρ) (n : ν) : Option ρ := rows.find? fun r => name r = n

theorem findRow_eq_some (h : findRow name rows n = some row) : row ∈ rows ∧ name row = n :=
  ⟨List.mem_of_find?_eq_some h, by simpa using List.find?_some h⟩

theorem findRow_eq_none (h : findRow name rows n = none) (hrow : row ∈ rows) : name row ≠ n := by
  have hnot := List.find?_eq_none.mp h row hrow
  simpa using hnot

omit [DecidableEq κ] in
/-- Two names of rows with one key are one name. -/
theorem findRow_inj (h : Keyed key rows) {n' : ν} (hrow : findRow name rows n = some row)
    (hrow' : findRow name rows n' = some row') (hkey : key row = key row') : n = n' := by
  obtain ⟨hmem, rfl⟩ := findRow_eq_some hrow
  obtain ⟨hmem', rfl⟩ := findRow_eq_some hrow'
  rw [h.eq_of_key hmem hmem' hkey]

/-- Where the name is a key, a lookup finds exactly the row of that name. -/
theorem findRow_eq_some_iff (h : Keyed name rows) :
    findRow name rows n = some row ↔ row ∈ rows ∧ name row = n := by
  refine ⟨findRow_eq_some, ?_⟩
  rintro ⟨hrow, hname⟩
  cases hfind : findRow name rows n with
  | none => exact absurd hname (findRow_eq_none hfind hrow)
  | some row' =>
    obtain ⟨hrow', hname'⟩ := findRow_eq_some hfind
    rw [h.eq_of_key hrow' hrow (hname'.trans hname.symm)]

omit [DecidableEq κ] [DecidableEq ν] in
theorem Keyed.filter (h : Keyed key rows) (p : ρ → Bool) : Keyed key (rows.filter p) :=
  (List.filter_sublist.map key).nodup h

omit [DecidableEq κ] [DecidableEq ν] in
/-- What determines a key is a key. -/
theorem Keyed.of_comp {κ' : Type*} {key' : ρ → κ'} {f : κ' → κ}
    (h : Keyed (fun row => f (key' row)) rows) : Keyed key' rows := by
  have hmap : rows.map (fun row => f (key' row)) = (rows.map key').map f := by
    rw [List.map_map]
    rfl
  rw [Keyed, hmap] at h
  exact h.of_map

omit [DecidableEq κ] [DecidableEq ν] in
theorem Keyed.nodup (h : Keyed key rows) : rows.Nodup := List.Nodup.of_map key h

/-- A lookup among the rows that pass a check. -/
theorem findRow_filter (h : Keyed name rows) (p : ρ → Bool) :
    findRow name (rows.filter p) n = (findRow name rows n).filter p := by
  refine Option.ext fun row => ?_
  rw [findRow_eq_some_iff (h.filter p), Option.filter_eq_some_iff, findRow_eq_some_iff h,
    List.mem_filter]
  exact and_right_comm

/-- Whether some row of a name passes a check. -/
theorem any_findRow (h : Keyed name rows) (p : ρ → Bool) :
    (rows.any fun row => name row = n ∧ p row) = (findRow name rows n).any p := by
  rw [Bool.eq_iff_iff, List.any_eq_true, Option.any_eq_true]
  simp only [findRow_eq_some_iff h, decide_eq_true_eq, and_assoc]

theorem findRow_perm (h : Keyed name rows) (hperm : rows.Perm rows') :
    findRow name rows n = findRow name rows' n := by
  refine Option.ext fun row => ?_
  have h' : Keyed name rows' := (hperm.map name).nodup h
  rw [findRow_eq_some_iff h, findRow_eq_some_iff h', hperm.mem_iff]

/-- A name of two columns. -/
theorem findRow_pair {α β : Type*} [DecidableEq α] [DecidableEq β] {f : ρ → α} {g : ρ → β} {a : α}
    {b : β} : findRow (fun row => (f row, g row)) rows (a, b) =
      rows.find? fun row => f row = a ∧ g row = b := by
  simp only [findRow, Prod.mk.injEq]

/-- A write leaves `row` under its name, with the key of the row that stood there,
    and every other name finds what it found. -/
structure Put (key : ρ → κ) (name : ρ → ν) (rows : List ρ) (row : ρ) (rows' : List ρ) : Prop where
  keyed : Keyed key rows'
  found : findRow name rows' (name row) = some row
  same : ∀ old, findRow name rows (name row) = some old → key old = key row
  others : ∀ n, n ≠ name row → findRow name rows' n = findRow name rows n

omit [DecidableEq κ] in
/-- The row stands there. -/
theorem Put.refl (hkeyed : Keyed key rows) (hfound : findRow name rows (name row) = some row) :
    Put key name rows row rows where
  keyed := hkeyed
  found := hfound
  same old hold := by
    rw [hfound] at hold
    cases hold
    rfl
  others _ _ := rfl

omit [DecidableEq κ] in
/-- The row is new. -/
theorem Put.append (hkeyed : Keyed key rows) (hfresh : ∀ r ∈ rows, key r ≠ key row)
    (hnone : findRow name rows (name row) = none) : Put key name rows row (rows ++ [row]) where
  keyed := hkeyed.append hfresh
  found := by
    rw [findRow] at hnone
    rw [findRow, List.find?_append, hnone, Option.none_or, List.find?_singleton, decide_eq_true rfl]
    rfl
  same old hold := by
    rw [hnone] at hold
    cases hold
  others n hne := by
    rw [findRow, findRow, List.find?_append, List.find?_singleton, decide_eq_false hne.symm]
    exact Option.or_none

/-- The row takes the place of the one with its key. -/
theorem Put.replace (hkeyed : Keyed key rows) (hold : findRow name rows (name new) = some old)
    (hkey : key old = key new) : Put key name rows new (Foundations.replaceRow key new rows) := by
  obtain ⟨hmem, hname⟩ := findRow_eq_some hold
  have hrow : ∀ r ∈ rows, key r = key new → r = old := fun r hr h =>
    hkeyed.eq_of_key hr hmem (h.trans hkey.symm)
  have hfind : ∀ n, findRow name (Foundations.replaceRow key new rows) n =
      (findRow name rows n).map fun r => if key r = key new then new else r := by
    intro n
    rw [findRow, Foundations.replaceRow, List.find?_map, findRow]
    have hnames : ∀ r ∈ rows, name (if key r = key new then new else r) = name r := by
      intro r hr
      split_ifs with h
      · rw [hrow r hr h, hname]
      · rfl
    refine congrArg (Option.map _) (List.find?_congr fun r hr => ?_)
    rw [Function.comp_apply, hnames r hr]
  refine ⟨hkeyed.replaceRow fun _ _ h => h, ?_, fun old' hold' => ?_, fun n hne => ?_⟩
  · rw [hfind, hold, Option.map_some, if_pos hkey]
  · rw [hold] at hold'
    cases hold'
    exact hkey
  · rw [hfind]
    cases hfound : findRow name rows n with
    | none => rfl
    | some r =>
      obtain ⟨hr, hrname⟩ := findRow_eq_some hfound
      rw [Option.map_some, if_neg]
      intro h
      rw [hrow r hr h, hname] at hrname
      exact hne hrname.symm

omit [DecidableEq κ] in
/-- What a name finds keeps its key. -/
theorem Put.stable (h : Put key name rows new rows') (hfound : findRow name rows n = some row) :
    ∃ row', findRow name rows' n = some row' ∧ key row' = key row := by
  by_cases hn : n = name new
  · subst hn
    exact ⟨new, h.found, (h.same row hfound).symm⟩
  · exact ⟨row, (h.others n hn).trans hfound, rfl⟩

-- ════════════════════════════════════════════════════════════════════════
-- Rows in order
-- ════════════════════════════════════════════════════════════════════════

section

variable {ο : Type*} [LinearOrder ο] {place : ρ → ο}

/-- The rows in the order of a key. -/
def orderBy (place : ρ → ο) (rows : List ρ) : List ρ :=
  rows.mergeSort fun a b => decide (place a ≤ place b)

omit [DecidableEq κ] [DecidableEq ν]

theorem orderBy_perm : (orderBy place rows).Perm rows := List.mergeSort_perm _ _

theorem mem_orderBy : row ∈ orderBy place rows ↔ row ∈ rows := orderBy_perm.mem_iff

theorem orderBy_nil : orderBy place ([] : List ρ) = [] := List.mergeSort_nil

theorem orderBy_pairwise : (orderBy place rows).Pairwise fun a b => place a ≤ place b := by
  have htrans : ∀ a b c : ρ, decide (place a ≤ place b) = true → decide (place b ≤ place c) = true →
      decide (place a ≤ place c) = true := by
    intro a b c hab hbc
    rw [decide_eq_true_eq] at hab hbc ⊢
    exact hab.trans hbc
  have htotal : ∀ a b : ρ, (decide (place a ≤ place b) || decide (place b ≤ place a)) = true := by
    intro a b
    rw [Bool.or_eq_true, decide_eq_true_eq, decide_eq_true_eq]
    exact le_total _ _
  exact (List.pairwise_mergeSort htrans htotal rows).imp fun h => by rwa [decide_eq_true_eq] at h

/-- Rows of which no two share a place have one order. -/
theorem orderBy_congr (h : Keyed place rows) (hperm : rows.Perm rows') :
    orderBy place rows = orderBy place rows' := by
  have hsame : (orderBy place rows).Perm (orderBy place rows') :=
    orderBy_perm.trans (hperm.trans orderBy_perm.symm)
  refine hsame.eq_of_pairwise (fun a b ha hb hab hba => ?_) orderBy_pairwise orderBy_pairwise
  refine h.eq_of_key (mem_orderBy.mp ha) (hperm.mem_iff.mpr (mem_orderBy.mp hb)) ?_
  exact le_antisymm hab hba

end

end Botwork.Foundations
