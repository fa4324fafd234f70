import Mathlib.Algebra.Group.Int.Defs
import Mathlib.Algebra.GroupWithZero.Nat
import Mathlib.Logic.Relation
import Mathlib.Tactic.Common

/-!
# Guarded transition systems

A `Machine` is a set of start states and a partial step function: a label that
is not enabled in a state has no successor.  All reasoning about runs is by two
rules: one for what a run preserves whose steps meet a guard, and an invariant rule
for the states such runs reach.

## Main definitions

- `Machine σ α` — states `σ`, labels `α`, start states, step function
- `Machine.RunUnder C` — runs all of whose steps meet the guard `C`
- `Machine.ReachableUnder C` — the states such runs reach from a start state
- `Machine.exec` — execute a list of labels
-/

namespace Botwork.Foundations

/-- A labelled transition system with a partial, executable step function. -/
structure Machine (σ α : Type*) where
  Start : σ → Prop
  next : σ → α → Option σ

namespace Machine

variable {σ α : Type*} (M : Machine σ α)

/-- One step whose source state and label meet the guard `C`. -/
def StepUnder (C : σ → α → Prop) (s s' : σ) : Prop := ∃ a, C s a ∧ M.next s a = some s'

/-- A finite run, every step of which meets the guard `C`. -/
abbrev RunUnder (C : σ → α → Prop) : σ → σ → Prop := Relation.ReflTransGen (M.StepUnder C)

/-- The states that guarded runs reach from a start state. -/
def ReachableUnder (C : σ → α → Prop) (s : σ) : Prop := ∃ s₀, M.Start s₀ ∧ M.RunUnder C s₀ s

/-- A finite run without a guard. -/
abbrev Run : σ → σ → Prop := M.RunUnder fun _ _ => True

/-- The states that unguarded runs reach from a start state. -/
abbrev Reachable : σ → Prop := M.ReachableUnder fun _ _ => True

/-- Execute the labels in order; `none` when one of them is not enabled. -/
def exec (s : σ) : List α → Option σ
  | [] => some s
  | a :: as => (M.next s a).bind fun s' => exec s' as

/-- Execute the labels in order; `none` when one is not enabled or misses the guard. -/
def execUnder (C : σ → α → Prop) [∀ s a, Decidable (C s a)] (s : σ) : List α → Option σ
  | [] => some s
  | a :: as => if C s a then (M.next s a).bind fun s' => execUnder C s' as else none

variable {M} {C D : σ → α → Prop}

-- ════════════════════════════════════════════════════════════════════════
-- Rules for runs
-- ════════════════════════════════════════════════════════════════════════

/-- **Invariant rule for runs**: what every guarded step preserves, every
    guarded run preserves. -/
theorem RunUnder.preserves {P : σ → Prop} {s s' : σ} (hrun : M.RunUnder C s s')
    (hstep : ∀ t a t', P t → C t a → M.next t a = some t' → P t') (hs : P s) : P s' := by
  induction hrun with
  | refl => exact hs
  | tail _ h ih =>
    obtain ⟨a, hc, hnext⟩ := h
    exact hstep _ a _ ih hc hnext

/-- **Invariant rule for reachable states**. -/
theorem ReachableUnder.invariant {P : σ → Prop} {s : σ} (hreach : M.ReachableUnder C s)
    (hstart : ∀ t, M.Start t → P t)
    (hstep : ∀ t a t', P t → C t a → M.next t a = some t' → P t') : P s := by
  obtain ⟨s₀, h₀, hrun⟩ := hreach
  exact hrun.preserves hstep (hstart s₀ h₀)

/-- A weaker guard admits every run of a stronger one. -/
theorem RunUnder.weaken {s s' : σ} (hrun : M.RunUnder C s s')
    (hCD : ∀ t a, C t a → D t a) : M.RunUnder D s s' :=
  Relation.ReflTransGen.mono (fun _ _ ⟨a, hc, hnext⟩ => ⟨a, hCD _ a hc, hnext⟩) _ _ hrun

theorem ReachableUnder.weaken {s : σ} (hreach : M.ReachableUnder C s)
    (hCD : ∀ t a, C t a → D t a) : M.ReachableUnder D s := by
  obtain ⟨s₀, h₀, hrun⟩ := hreach
  exact ⟨s₀, h₀, hrun.weaken hCD⟩

/-- A guarded run prolongs a guarded reachability. -/
theorem ReachableUnder.trans {s s' : σ} (hreach : M.ReachableUnder C s)
    (hrun : M.RunUnder C s s') : M.ReachableUnder C s' := by
  obtain ⟨s₀, h₀, hrun₀⟩ := hreach
  exact ⟨s₀, h₀, Relation.ReflTransGen.trans hrun₀ hrun⟩

-- ════════════════════════════════════════════════════════════════════════
-- Executions are runs
-- ════════════════════════════════════════════════════════════════════════

theorem runUnder_of_execUnder [∀ s a, Decidable (C s a)] {s s' : σ} {as : List α}
    (h : M.execUnder C s as = some s') : M.RunUnder C s s' := by
  induction as generalizing s with
  | nil => cases h; exact Relation.ReflTransGen.refl
  | cons a as ih =>
    simp only [execUnder] at h
    split at h
    next hc =>
      obtain ⟨t, hnext, hrest⟩ := Option.bind_eq_some_iff.mp h
      exact Relation.ReflTransGen.head ⟨a, hc, hnext⟩ (ih hrest)
    next => cases h

theorem run_of_exec {s s' : σ} {as : List α} (h : M.exec s as = some s') : M.Run s s' := by
  induction as generalizing s with
  | nil => cases h; exact Relation.ReflTransGen.refl
  | cons a as ih =>
    obtain ⟨t, hnext, hrest⟩ := Option.bind_eq_some_iff.mp h
    exact Relation.ReflTransGen.head ⟨a, trivial, hnext⟩ (ih hrest)

/-- An execution whose last state passes the check `P` reaches such a state. -/
theorem exists_run_of_execUnder [∀ s a, Decidable (C s a)] {s : σ} {as : List α} (P : σ → Bool)
    (h : (M.execUnder C s as).any P = true) : ∃ t, M.RunUnder C s t ∧ P t = true := by
  obtain ⟨t, ht, hP⟩ := (Option.any_eq_true P _).mp h
  exact ⟨t, runUnder_of_execUnder ht, hP⟩

theorem execUnder_append [∀ s a, Decidable (C s a)] (s : σ) (as bs : List α) :
    M.execUnder C s (as ++ bs) = (M.execUnder C s as).bind fun t => M.execUnder C t bs := by
  induction as generalizing s with
  | nil => rfl
  | cons a as ih =>
    rw [List.cons_append, execUnder, execUnder]
    split
    next =>
      cases M.next s a with
      | none => rfl
      | some t => exact ih t
    next => rfl

/-- **Exactness rule**: when the steps that keep `P` are those that meet the guard,
    the executions that end in `P` are the guarded ones. -/
theorem exec_iff_execUnder [∀ s a, Decidable (C s a)] {I P : σ → Prop}
    (hstep : ∀ t a t', I t → M.next t a = some t' → I t' ∧ (P t' ↔ P t ∧ C t a))
    {s s' : σ} {as : List α} (h : M.exec s as = some s') (hs : I s) :
    I s' ∧ (P s' ↔ P s ∧ M.execUnder C s as = some s') := by
  induction as generalizing s with
  | nil =>
    cases h
    exact ⟨hs, (and_iff_left rfl).symm⟩
  | cons a as ih =>
    obtain ⟨t, hnext, hrest⟩ := Option.bind_eq_some_iff.mp h
    obtain ⟨ht, hkeeps⟩ := hstep s a t hs hnext
    obtain ⟨hs', hiff⟩ := ih hrest ht
    refine ⟨hs', ?_⟩
    rw [hiff, hkeeps, execUnder, hnext]
    by_cases hc : C s a
    · simp only [hc, and_true, if_true, Option.bind_some]
    · simp only [hc, and_false, false_and, if_false, reduceCtorEq]

/-- **Potential rule**: when every guarded step pays its cost out of a potential,
    an execution costs no more than the potential it starts with. -/
theorem execUnder_potential [∀ s a, Decidable (C s a)] {P : σ → Prop} {cost : α → Nat}
    {potential : σ → Nat}
    (hstep : ∀ t a t', P t → C t a → M.next t a = some t' →
      P t' ∧ cost a + potential t' ≤ potential t)
    {s s' : σ} {as : List α} (h : M.execUnder C s as = some s') (hs : P s) :
    P s' ∧ (as.map cost).sum + potential s' ≤ potential s := by
  induction as generalizing s with
  | nil =>
    cases h
    simpa using hs
  | cons a as ih =>
    simp only [execUnder] at h
    split at h
    next hc =>
      obtain ⟨t, hnext, hrest⟩ := Option.bind_eq_some_iff.mp h
      obtain ⟨ht, hpay⟩ := hstep s a t hs hc hnext
      obtain ⟨hs', hcost⟩ := ih hrest ht
      refine ⟨hs', ?_⟩
      rw [List.map_cons, List.sum_cons]
      omega
    next => cases h

/-- An execution in two parts passes through a state between them. -/
theorem exists_runs_of_execUnder [∀ s a, Decidable (C s a)] {s : σ} (as bs : List α)
    (Q P : σ → Bool) (hmid : (M.execUnder C s as).any Q = true)
    (hend : (M.execUnder C s (as ++ bs)).any P = true) :
    ∃ t u, M.RunUnder C s t ∧ Q t = true ∧ M.RunUnder C t u ∧ P u = true := by
  obtain ⟨t, ht, hQ⟩ := (Option.any_eq_true Q _).mp hmid
  rw [execUnder_append, ht] at hend
  obtain ⟨u, hrun, hP⟩ := exists_run_of_execUnder P hend
  exact ⟨t, u, runUnder_of_execUnder ht, hQ, hrun, hP⟩

end Machine

end Botwork.Foundations
