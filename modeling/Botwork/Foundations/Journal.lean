import Mathlib.Algebra.Group.Int.Defs
import Mathlib.Algebra.GroupWithZero.Nat
import Mathlib.Data.List.Basic
import Mathlib.Tactic.Common

/-!
# Journals of a strict cell

A cell holds at most one value.  An insertion into a taken cell is refused and
changes nothing; a removal empties the cell and is labelled with the value it
took.  A journal is the list of the operations that stand.  Withdrawing one of
them is to run the others alone; the lemmas say which single operation on the
cell has that effect.

## Main definitions

- `CellOp` — an insertion or a removal
- `CellOp.inverse` — the compensating operation
- `CellOp.run` — the value a journal leaves
- `CellOp.Sound` — insertions find the cell free, removals take what they name
- `before`, `after` — the entries around the one of an owner
-/

namespace Botwork.Foundations

inductive CellOp (ν : Type*) where
  | insert (value : ν)
  | remove (value : ν)

namespace CellOp

variable {ν ε : Type*}

def apply : Option ν → CellOp ν → Option ν
  | some old, .insert _ => some old
  | none, .insert value => some value
  | _, .remove _ => none

/-- The operation that compensates another one. -/
def inverse : CellOp ν → CellOp ν
  | .insert value => .remove value
  | .remove value => .insert value

variable (op : ε → CellOp ν)

/-- Run the operations of the entries in order. -/
def run : Option ν → List ε → Option ν
  | cell, [] => cell
  | cell, e :: es => run ((op e).apply cell) es

/-- Every insertion takes effect, and a removal that finds a value finds the
    one it names. -/
def Sound : Option ν → List ε → Prop
  | _, [] => True
  | cell, e :: es =>
    (match op e with
      | .insert _ => cell = none
      | .remove value => ∀ found ∈ cell, found = value) ∧
      Sound ((op e).apply cell) es

variable {op} {cell : Option ν} {es front back : List ε} {e : ε} {value : ν}

@[simp] theorem apply_remove : (CellOp.remove value).apply cell = none := by
  cases cell <;> rfl

@[simp] theorem apply_insert_none : (CellOp.insert value).apply none = some value := rfl

theorem run_append : run op cell (front ++ back) = run op (run op cell front) back := by
  induction front generalizing cell with
  | nil => rfl
  | cons e front ih => exact ih

theorem sound_append :
    Sound op cell (front ++ back) ↔ Sound op cell front ∧ Sound op (run op cell front) back := by
  induction front generalizing cell with
  | nil => simp [Sound, run]
  | cons e front ih => simp only [List.cons_append, Sound, run, ih, and_assoc]

theorem sound_insert (he : op e = .insert value) :
    Sound op cell (e :: back) ↔ cell = none ∧ Sound op (some value) back := by
  simp only [Sound, he]
  constructor
  · rintro ⟨rfl, h⟩
    exact ⟨rfl, h⟩
  · rintro ⟨rfl, h⟩
    exact ⟨rfl, h⟩

theorem sound_remove (he : op e = .remove value) :
    Sound op cell (e :: back) ↔ (∀ found ∈ cell, found = value) ∧ Sound op none back := by
  simp only [Sound, he, apply_remove]

theorem run_cons_remove (he : op e = .remove value) :
    run op cell (e :: back) = run op none back := by
  simp only [run, he, apply_remove]

/-- After an insertion comes a removal or nothing. -/
theorem Sound.after_value (h : Sound op (some value) back) :
    back = [] ∨ ∃ e taken rest, back = e :: rest ∧ op e = .remove taken := by
  cases back with
  | nil => exact .inl rfl
  | cons e rest =>
    cases he : op e with
    | insert other => exact absurd ((sound_insert he).mp h).1 (by simp)
    | remove taken => exact .inr ⟨e, taken, rest, rfl, he⟩

-- ════════════════════════════════════════════════════════════════════════
-- Withdrawing one operation
-- ════════════════════════════════════════════════════════════════════════

/-- A later operation stands: withdrawing the insertion changes nothing. -/
theorem Sound.withdraw_insert (he : op e = .insert value)
    (h : Sound op cell (front ++ e :: back)) (hback : back ≠ []) :
    Sound op cell (front ++ back) ∧
      run op cell (front ++ back) = run op cell (front ++ e :: back) := by
  obtain ⟨hfront, hback'⟩ := sound_append.mp h
  obtain ⟨hnone, hrest⟩ := (sound_insert he).mp hback'
  rcases hrest.after_value with rfl | ⟨d, taken, rest, rfl, hd⟩
  · exact absurd rfl hback
  · have hrest' := ((sound_remove hd).mp hrest).2
    constructor
    · exact sound_append.mpr ⟨hfront, (sound_remove hd).mpr ⟨by simp [hnone], hrest'⟩⟩
    · rw [run_append, run_append, run_cons_remove hd]
      simp only [run, he, hd, apply_remove]

/-- The last operation is an insertion: without it the cell is empty. -/
theorem Sound.withdraw_last_insert (he : op e = .insert value)
    (h : Sound op cell (front ++ [e])) :
    Sound op cell front ∧ run op cell front = none ∧ run op cell (front ++ [e]) = some value := by
  obtain ⟨hfront, hlast⟩ := sound_append.mp h
  have hnone := ((sound_insert he).mp hlast).1
  refine ⟨hfront, hnone, ?_⟩
  rw [run_append, hnone]
  simp [run, he]

/-- The removal found nothing: withdrawing it changes nothing. -/
theorem Sound.withdraw_void (he : op e = .remove value)
    (h : Sound op cell (front ++ e :: back)) (hvoid : run op cell front = none) :
    Sound op cell (front ++ back) ∧
      run op cell (front ++ back) = run op cell (front ++ e :: back) := by
  obtain ⟨hfront, hback⟩ := sound_append.mp h
  have hrest := ((sound_remove he).mp hback).2
  constructor
  · exact sound_append.mpr ⟨hfront, hvoid ▸ hrest⟩
  · rw [run_append, run_append, run_cons_remove he, hvoid]

/-- The last operation is a removal that took a value: without it the cell
    holds the value it names. -/
theorem Sound.withdraw_last_remove (he : op e = .remove value)
    (h : Sound op cell (front ++ [e])) (hheld : (run op cell front).isSome) :
    Sound op cell front ∧ run op cell front = some value ∧ run op cell (front ++ [e]) = none := by
  obtain ⟨hfront, hlast⟩ := sound_append.mp h
  obtain ⟨found, hfound⟩ := Option.isSome_iff_exists.mp hheld
  have hvalue := ((sound_remove he).mp hlast).1 found hfound
  refine ⟨hfront, hvalue ▸ hfound, ?_⟩
  rw [run_append, run_cons_remove he]
  rfl

/-- **Compensation**: when the guard of its kind holds, the inverse of a
    standing operation leaves what the other operations alone leave. -/
theorem Sound.compensate (h : Sound op cell (front ++ e :: back))
    (hguard : match op e with
      | .insert _ => run op cell (front ++ e :: back) = none ∨ back = []
      | .remove _ =>
        if (run op cell front).isSome then back = []
        else run op cell (front ++ e :: back) ≠ none) :
    Sound op cell (front ++ back) ∧
      (op e).inverse.apply (run op cell (front ++ e :: back)) = run op cell (front ++ back) := by
  cases he : op e with
  | insert value =>
    simp only [he] at hguard
    by_cases hback : back = []
    · subst hback
      obtain ⟨hfront, hnone, -⟩ := h.withdraw_last_insert he
      rw [List.append_nil, hnone]
      exact ⟨hfront, apply_remove⟩
    · obtain ⟨hsound, hrun⟩ := h.withdraw_insert he hback
      refine ⟨hsound, ?_⟩
      rw [hrun, hguard.resolve_right hback]
      rfl
  | remove value =>
    simp only [he] at hguard
    split at hguard
    next hheld =>
      subst hguard
      obtain ⟨hfront, hvalue, hnone⟩ := h.withdraw_last_remove he hheld
      rw [List.append_nil, hvalue, hnone]
      exact ⟨hfront, rfl⟩
    next hvoid =>
      obtain ⟨hsound, hrun⟩ := h.withdraw_void he (by simpa using hvoid)
      obtain ⟨found, hfound⟩ := Option.ne_none_iff_exists'.mp hguard
      refine ⟨hsound, ?_⟩
      rw [hrun, hfound]
      rfl

/-- What the last operation says about the cell. -/
theorem Sound.run_isSome (h : Sound op cell es) :
    (run op cell es).isSome = match es.getLast? with
      | none => cell.isSome
      | some last => match op last with
        | .insert _ => true
        | .remove _ => false := by
  rcases List.eq_nil_or_concat es with rfl | ⟨front, last, rfl⟩
  · rfl
  · obtain ⟨hfront, hlast⟩ := sound_append.mp (List.concat_eq_append ▸ h)
    rw [List.concat_eq_append, List.getLast?_append, run_append]
    cases hop : op last with
    | insert value =>
      rw [((sound_insert hop).mp hlast).1]
      simp [run, hop]
    | remove value => simp [run, hop]

end CellOp

-- ════════════════════════════════════════════════════════════════════════
-- Journals with one entry for each owner
-- ════════════════════════════════════════════════════════════════════════

section Owners

variable {ι μ : Type*} [DecidableEq ι]

/-- The entries before the one of `owner`. -/
def before (owner : ι) (entries : List (ι × μ)) : List (ι × μ) :=
  entries.takeWhile fun e => e.1 ≠ owner

/-- The entries after the one of `owner`. -/
def after (owner : ι) (entries : List (ι × μ)) : List (ι × μ) :=
  (entries.dropWhile fun e => e.1 ≠ owner).tail

variable {owner : ι} {m : μ} {entries : List (ι × μ)}

theorem split_owner (hmem : (owner, m) ∈ entries) (hnodup : (entries.map Prod.fst).Nodup) :
    entries = before owner entries ++ (owner, m) :: after owner entries ∧
      entries.filter (fun e => e.1 ≠ owner) = before owner entries ++ after owner entries := by
  induction entries with
  | nil => cases hmem
  | cons e entries ih =>
    obtain ⟨hnot, hnodup⟩ := List.nodup_cons.mp hnodup
    by_cases he : e.1 = owner
    · have hothers : ∀ e' ∈ entries, e'.1 ≠ owner := by
        rintro e' he' rfl
        exact hnot (he ▸ List.mem_map_of_mem he')
      have heq : e = (owner, m) := by
        rcases List.mem_cons.mp hmem with heq | hmem
        · exact heq.symm
        · exact absurd rfl (hothers _ hmem)
      subst heq
      have hfilter : entries.filter (fun e => e.1 ≠ owner) = entries :=
        List.filter_eq_self.mpr fun e' he' => by simpa using hothers e' he'
      simpa [before, after] using hfilter
    · have hmem : (owner, m) ∈ entries := by
        rcases List.mem_cons.mp hmem with heq | hmem
        · exact absurd (congrArg Prod.fst heq.symm) he
        · exact hmem
      obtain ⟨hsplit, hfilter⟩ := ih hmem hnodup
      constructor
      · simpa [before, after, he] using hsplit
      · simpa [before, after, he] using hfilter

end Owners

end Botwork.Foundations
