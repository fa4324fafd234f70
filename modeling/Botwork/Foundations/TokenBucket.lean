import Mathlib.Algebra.Group.Int.Defs
import Mathlib.Algebra.GroupWithZero.Nat
import Mathlib.Tactic.Common

/-!
# Token buckets

What a bucket that refills with time lets through in any window of time.  Tokens
are counted in parts, of which `unit` make one, so that a bucket gains `rate`
parts in each unit of time.

## Main definitions

- `Meter` — the size of a token, the rate and the capacity
- `Meter.refilled` — the level after some time
- `Meter.Metered` — what a level and the instants of the tokens taken satisfy
- `Meter.Metered.window` — the bound over a window
-/

namespace Botwork.Foundations

structure Meter where
  unit : Nat
  rate : Nat
  capacity : Nat

namespace Meter

variable (m : Meter)

/-- The level after `elapsed`. -/
def refilled (level elapsed : Nat) : Nat := min (level + elapsed * m.rate) m.capacity

/-- The tokens taken from `start` on. -/
def takenSince (start : Nat) (taken : List Nat) : Nat := taken.countP fun t => start ≤ t

def takenWithin (start stop : Nat) (taken : List Nat) : Nat :=
  taken.countP fun t => start ≤ t && t ≤ stop

/-- A bucket at `level`, last looked at when `latest` was, out of which a token was
    taken at each instant of `taken`. -/
structure Metered (level latest : Nat) (taken : List Nat) : Prop where
  level_le : level ≤ m.capacity
  past : ∀ t ∈ taken, t ≤ latest
  since : ∀ start ≤ latest,
    takenSince start taken * m.unit + level ≤ m.capacity + (latest - start) * m.rate
  within : ∀ start stop, start ≤ stop →
    takenWithin start stop taken * m.unit ≤ m.capacity + (stop - start) * m.rate

variable {m} {level latest : Nat} {taken : List Nat}

/-- A full bucket out of which nothing was taken. -/
theorem metered_full (latest : Nat) : m.Metered m.capacity latest [] where
  level_le := Nat.le_refl _
  past _ h := absurd h List.not_mem_nil
  since start _ := by simp [takenSince]
  within start stop _ := by simp [takenWithin]

namespace Metered

/-- Time passes. -/
theorem wait {now : Nat} (h : m.Metered level latest taken) (hnow : latest ≤ now) :
    m.Metered (m.refilled level (now - latest)) now taken where
  level_le := Nat.min_le_right _ _
  past t ht := Nat.le_trans (h.past t ht) hnow
  since start hstart := by
    by_cases hlate : start ≤ latest
    · have hsince := h.since start hlate
      have hlevel : m.refilled level (now - latest) ≤ level + (now - latest) * m.rate :=
        Nat.min_le_left _ _
      have hsplit : (now - start) * m.rate = (latest - start) * m.rate + (now - latest) * m.rate := by
        rw [← Nat.add_mul]
        congr 1
        omega
      omega
    · have hnone : takenSince start taken = 0 := by
        rw [takenSince, List.countP_eq_zero]
        intro t ht
        have hpast := h.past t ht
        simp only [decide_eq_true_eq]
        omega
      have hlevel : m.refilled level (now - latest) ≤ m.capacity := Nat.min_le_right _ _
      rw [hnone]
      omega
  within := h.within

/-- A token is taken. -/
theorem take (h : m.Metered level latest taken) (hunit : m.unit ≤ level) :
    m.Metered (level - m.unit) latest (latest :: taken) where
  level_le := Nat.le_trans (Nat.sub_le _ _) h.level_le
  past t ht := by
    obtain rfl | ht := List.mem_cons.mp ht
    · exact Nat.le_refl _
    · exact h.past t ht
  since start hstart := by
    have hsince := h.since start hstart
    have hcount : takenSince start (latest :: taken) = takenSince start taken + 1 :=
      List.countP_cons_of_pos (by simpa using hstart)
    rw [hcount, Nat.add_mul, Nat.one_mul]
    omega
  within start stop hle := by
    by_cases hin : start ≤ latest ∧ latest ≤ stop
    · -- nothing is later than `latest`, so the window is what was taken since `start`
      have hsince := h.since start hin.1
      have hmono : takenWithin start stop taken ≤ takenSince start taken :=
        List.countP_mono_left fun t _ ht => (Bool.and_eq_true _ _ ▸ ht).1
      have hcount : takenWithin start stop (latest :: taken) = takenWithin start stop taken + 1 :=
        List.countP_cons_of_pos (by simpa using hin)
      have hunits := Nat.mul_le_mul_right m.unit hmono
      have hrate : (latest - start) * m.rate ≤ (stop - start) * m.rate :=
        Nat.mul_le_mul_right _ (by omega)
      rw [hcount, Nat.add_mul, Nat.one_mul]
      omega
    · have hcount : takenWithin start stop (latest :: taken) = takenWithin start stop taken :=
        List.countP_cons_of_neg (by simpa using hin)
      rw [hcount]
      exact h.within start stop hle

/-- A bucket that is full by then is as good as new. -/
theorem renew {now : Nat} (h : m.Metered level latest taken) (hnow : latest ≤ now)
    (hfull : m.capacity ≤ level + (now - latest) * m.rate) : m.Metered m.capacity now taken := by
  have hlevel : m.refilled level (now - latest) = m.capacity := Nat.min_eq_right hfull
  have hwait := h.wait hnow
  rwa [hlevel] at hwait

end Metered

end Meter

end Botwork.Foundations
