import Mathlib.Algebra.Group.Int.Defs
import Mathlib.Algebra.GroupWithZero.Nat
import Mathlib.Data.List.Nodup
import Mathlib.Tactic.Common

/-!
# Single-use tickets

A ticket lies at one place at a time, moves from place to place, may be lost, and
is spent at most once.  A place is anything that holds a ticket: an entry of a
map, a call between two steps.

## Main definitions

- `Affine lies spent` — no ticket lies at two places, or at one after it was spent
-/

namespace Botwork.Foundations

variable {P T : Type*}

structure Affine (lies : P → Option T) (spent : List T) : Prop where
  one_place : ∀ p q t, lies p = some t → lies q = some t → p = q
  unspent : ∀ p t, lies p = some t → t ∉ spent
  spent_once : spent.Nodup

namespace Affine

variable {lies lies' : P → Option T} {spent : List T}

theorem init (h : ∀ p, lies p = none) : Affine lies [] where
  one_place p q t hp _ := by
    rw [h p] at hp
    cases hp
  unspent p t _ := List.not_mem_nil
  spent_once := List.nodup_nil

/-- Tickets that stay where they are, or are lost. -/
theorem shrink (h : Affine lies spent) (hsub : ∀ p t, lies' p = some t → lies p = some t) :
    Affine lies' spent where
  one_place p q t hp hq := h.one_place p q t (hsub p t hp) (hsub q t hq)
  unspent p t hp := h.unspent p t (hsub p t hp)
  spent_once := h.spent_once

/-- One ticket moves from `p` to `q`. -/
theorem move (h : Affine lies spent) (p q : P)
    (hsub : ∀ r t, lies' r = some t → (r = q ∧ lies p = some t) ∨ (r ≠ p ∧ lies r = some t)) :
    Affine lies' spent where
  one_place r r' t hr hr' := by
    obtain ⟨rfl, hp⟩ | ⟨hne, hlies⟩ := hsub r t hr
    · obtain ⟨rfl, -⟩ | ⟨hne', hlies'⟩ := hsub r' t hr'
      · rfl
      · exact absurd (h.one_place r' p t hlies' hp) hne'
    · obtain ⟨-, hp⟩ | ⟨-, hlies'⟩ := hsub r' t hr'
      · exact absurd (h.one_place r p t hlies hp) hne
      · exact h.one_place r r' t hlies hlies'
  unspent r t hr := by
    obtain ⟨-, hp⟩ | ⟨-, hlies⟩ := hsub r t hr
    · exact h.unspent p t hp
    · exact h.unspent r t hlies
  spent_once := h.spent_once

/-- A ticket that lies nowhere and is not spent is put at `q`. -/
theorem issue (h : Affine lies spent) (q : P) {t : T} (hfresh : ∀ p, lies p ≠ some t)
    (hspent : t ∉ spent)
    (hsub : ∀ r u, lies' r = some u → (r = q ∧ u = t) ∨ lies r = some u) :
    Affine lies' spent where
  one_place r r' u hr hr' := by
    obtain ⟨rfl, rfl⟩ | hlies := hsub r u hr
    · obtain ⟨rfl, -⟩ | hlies' := hsub r' _ hr'
      · rfl
      · exact absurd hlies' (hfresh r')
    · obtain ⟨-, rfl⟩ | hlies' := hsub r' u hr'
      · exact absurd hlies (hfresh r)
      · exact h.one_place r r' u hlies hlies'
  unspent r u hr := by
    obtain ⟨-, rfl⟩ | hlies := hsub r u hr
    · exact hspent
    · exact h.unspent r u hlies
  spent_once := h.spent_once

/-- The ticket at `p` is spent. -/
theorem spend (h : Affine lies spent) (p : P) {t : T} (hp : lies p = some t)
    (hsub : ∀ r u, lies' r = some u → r ≠ p ∧ lies r = some u) :
    Affine lies' (t :: spent) where
  one_place r r' u hr hr' := h.one_place r r' u (hsub r u hr).2 (hsub r' u hr').2
  unspent r u hr := by
    obtain ⟨hne, hlies⟩ := hsub r u hr
    rw [List.mem_cons, not_or]
    refine ⟨?_, h.unspent r u hlies⟩
    rintro rfl
    exact hne (h.one_place r p u hlies hp)
  spent_once := List.nodup_cons.mpr ⟨h.unspent p t hp, h.spent_once⟩

end Affine

end Botwork.Foundations
