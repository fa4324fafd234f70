import Mathlib.Algebra.Group.Int.Defs
import Mathlib.Algebra.GroupWithZero.Nat
import Mathlib.Tactic.Common

/-!
# Effects that remain

A computation that reads and changes a state and can fail; what it has changed
until then remains.

## Main definitions

- `Effectful` — a computation
- `act`, `actOn` — one call, with its effect when it succeeds and when it fails
- `onPart` — a computation on a part of a larger state
- `Yields`, `Fails` — how a computation ends, and with what state
- `Ends` — what holds of the state behind it
- `Returns` — its result, whatever the state
- `Simulates` — it does, on the state it stands for, what another does
-/

namespace Botwork.Foundations

abbrev Effectful (ε σ α : Type) := ExceptT ε (StateM σ) α

namespace Effectful

variable {ε σ α β : Type}

/-- The result and the state after it. -/
def exec (m : Effectful ε σ α) (s : σ) : Except ε α × σ := StateT.run (ExceptT.run m) s

/-- A call that is answered with `answer`. -/
def act (answer : Except ε α) (done failed : σ → σ) : Effectful ε σ α :=
  ExceptT.mk fun s => (answer, if answer.toBool then done s else failed s)

/-- A call whose answer depends on the state. -/
def actOn (answer : σ → Except ε α) (done failed : σ → σ) : Effectful ε σ α :=
  ExceptT.mk fun s => (answer s, if (answer s).toBool then done s else failed s)

/-- A computation on a part of a larger state. -/
def onPart {τ : Type} (part : τ → σ) (put : τ → σ → τ) (m : Effectful ε σ α) : Effectful ε τ α :=
  ExceptT.mk fun t => ((m.exec (part t)).1, put t (m.exec (part t)).2)

/-- A check that changes nothing. -/
def check (answer : Except ε α) : Effectful ε σ α := act answer id id

def Yields (m : Effectful ε σ α) (s : σ) (a : α) (s' : σ) : Prop := m.exec s = (.ok a, s')

def Fails (m : Effectful ε σ α) (s s' : σ) : Prop := ∃ err, m.exec s = (.error err, s')

theorem fails_of_exec {m : Effectful ε σ α} {s : σ} (h : (m.exec s).1.toBool = false) :
    m.Fails s (m.exec s).2 := by
  cases hresult : m.exec s with
  | mk result s' =>
    cases result with
    | error err => exact ⟨err, hresult⟩
    | ok a =>
      rw [hresult] at h
      cases h

theorem exec_bind (m : Effectful ε σ α) (f : α → Effectful ε σ β) (s : σ) :
    (m >>= f).exec s =
      match m.exec s with
      | (.ok a, s') => (f a).exec s'
      | (.error err, s') => (.error err, s') := by
  unfold exec ExceptT.run StateT.run
  simp only [bind, ExceptT.bind, ExceptT.mk, StateT.bind]
  cases m s with
  | mk result s' => cases result <;> rfl

variable {m : Effectful ε σ α} {f : α → Effectful ε σ β} {s s' : σ}

theorem fails_bind :
    (m >>= f).Fails s s' ↔ m.Fails s s' ∨ ∃ a s₁, m.Yields s a s₁ ∧ (f a).Fails s₁ s' := by
  simp only [Fails, Yields, exec_bind]
  cases m.exec s with
  | mk result s₁ =>
    cases result with
    | error err => simp
    | ok a =>
      constructor
      · exact fun h => .inr ⟨a, s₁, rfl, h⟩
      · rintro (⟨err, h⟩ | ⟨b, s₂, hyields, hfails⟩)
        · cases h
        · cases hyields
          exact hfails

theorem yields_bind {b : β} :
    (m >>= f).Yields s b s' ↔ ∃ a s₁, m.Yields s a s₁ ∧ (f a).Yields s₁ b s' := by
  simp only [Yields, exec_bind]
  cases m.exec s with
  | mk result s₁ =>
    cases result with
    | error err => simp
    | ok a =>
      constructor
      · exact fun h => ⟨a, s₁, rfl, h⟩
      · rintro ⟨c, s₂, hyields, hrest⟩
        cases hyields
        exact hrest

theorem yields_pure {a b : α} : (pure a : Effectful ε σ α).Yields s b s' ↔ b = a ∧ s' = s := by
  constructor
  · intro h
    cases h
    exact ⟨rfl, rfl⟩
  · rintro ⟨rfl, rfl⟩
    rfl

theorem not_fails_pure {a : α} : ¬ (pure a : Effectful ε σ α).Fails s s' := by
  rintro ⟨err, h⟩
  cases h

section

variable {answer : Except ε α} {done failed : σ → σ} {a : α}

theorem yields_act :
    (act answer done failed).Yields s a s' ↔ answer = .ok a ∧ s' = done s := by
  show (answer, if answer.toBool then done s else failed s) = (Except.ok a, s') ↔ _
  cases answer with
  | error err => simp
  | ok b => simp [Except.toBool, eq_comm]

theorem fails_act :
    (act answer done failed).Fails s s' ↔ answer.toBool = false ∧ s' = failed s := by
  show (∃ err, (answer, if answer.toBool then done s else failed s) = (Except.error err, s')) ↔ _
  cases answer with
  | error err => simp [Except.toBool, eq_comm]
  | ok b => simp [Except.toBool]

theorem yields_actOn {answer : σ → Except ε α} :
    (actOn answer done failed).Yields s a s' ↔ answer s = .ok a ∧ s' = done s := by
  show (answer s, if (answer s).toBool then done s else failed s) = (Except.ok a, s') ↔ _
  cases answer s with
  | error err => simp
  | ok b => simp [Except.toBool, eq_comm]

theorem fails_actOn {answer : σ → Except ε α} :
    (actOn answer done failed).Fails s s' ↔ (answer s).toBool = false ∧ s' = failed s := by
  show (∃ err, (answer s, if (answer s).toBool then done s else failed s) =
    (Except.error err, s')) ↔ _
  cases answer s with
  | error err => simp [Except.toBool, eq_comm]
  | ok b => simp [Except.toBool]

theorem yields_check : (check answer).Yields s a s' ↔ answer = .ok a ∧ s' = s := yields_act

theorem fails_check :
    (check answer).Fails s s' ↔ answer.toBool = false ∧ s' = s := fails_act

end

/-- A call that succeeds hands its answer on. -/
theorem exec_actOn_bind {answer : σ → Except ε α} {done failed : σ → σ} {a : α}
    (h : answer s = .ok a) : (actOn answer done failed >>= f).exec s = (f a).exec (done s) := by
  rw [exec_bind]
  show (match (answer s, if (answer s).toBool then done s else failed s) with
    | (.ok a, s') => (f a).exec s'
    | (.error err, s') => (.error err, s')) = (f a).exec (done s)
  rw [h]
  rfl

theorem exec_act_bind {a : α} {done failed : σ → σ} :
    (act (.ok a) done failed >>= f).exec s = (f a).exec (done s) :=
  exec_actOn_bind rfl

/-- The state behind it has `P`, however it ends. -/
def Ends (P : σ → Prop) (m : Effectful ε σ α) (s : σ) : Prop := P (m.exec s).2

section

variable {P : σ → Prop} {answer : Except ε α}

theorem ends_actOn_bind {answer : σ → Except ε α} {done failed : σ → σ} (hs : P (failed s))
    (hf : ∀ a, answer s = .ok a → Ends P (f a) (done s)) :
    Ends P (actOn answer done failed >>= f) s := by
  rw [Ends, exec_bind]
  show P (match (answer s, if (answer s).toBool then done s else failed s) with
    | (.ok a, s') => (f a).exec s'
    | (.error err, s') => (.error err, s')).2
  cases hanswer : answer s with
  | error err => exact hs
  | ok a => exact hf a hanswer

theorem ends_act_bind {done failed : σ → σ} (hs : P (failed s))
    (hf : ∀ a, answer = .ok a → Ends P (f a) (done s)) :
    Ends P (act answer done failed >>= f) s :=
  ends_actOn_bind hs hf

theorem ends_act {done failed : σ → σ} (hdone : P (done s)) (hfailed : P (failed s)) :
    Ends P (act answer done failed) s := by
  show P (if answer.toBool then done s else failed s)
  split
  next => exact hdone
  next => exact hfailed

theorem ends_pure {a : α} (hs : P s) : Ends P (pure a : Effectful ε σ α) s := hs

theorem Ends.bind (hm : Ends P m s) (hf : ∀ a s', P s' → Ends P (f a) s') : Ends P (m >>= f) s := by
  rw [Ends, exec_bind]
  rw [Ends] at hm
  cases hexec : m.exec s with
  | mk result s' =>
    rw [hexec] at hm
    cases result with
    | error err => exact hm
    | ok a => exact hf a s' hm

theorem ends_check_bind (hs : P s) (hf : ∀ a, answer = .ok a → Ends P (f a) s) :
    Ends P (check answer >>= f) s :=
  ends_actOn_bind hs hf

theorem Ends.of_yields {a : α} (h : Ends P m s) (hyields : m.Yields s a s') : P s' := by
  rwa [Ends, hyields] at h

theorem Ends.of_fails (h : Ends P m s) (hfails : m.Fails s s') : P s' := by
  obtain ⟨err, hexec⟩ := hfails
  rwa [Ends, hexec] at h

end

/-- The result of a computation without its effects. -/
def Returns (m : Effectful ε σ α) (result : Except ε α) : Prop := ∀ s, (m.exec s).1 = result

theorem returns_pure (a : α) : (pure a : Effectful ε σ α).Returns (.ok a) := fun _ => rfl

theorem returns_act (answer : Except ε α) (done failed : σ → σ) :
    (act answer done failed).Returns answer := fun _ => rfl

theorem Returns.bind {x : Except ε α} {g : α → Except ε β} (hm : m.Returns x)
    (hf : ∀ a, (f a).Returns (g a)) : (m >>= f).Returns (x >>= g) := by
  intro s
  rw [exec_bind, ← hm s]
  cases m.exec s with
  | mk result s' =>
    cases result with
    | error err => rfl
    | ok a => exact hf a s'

-- ════════════════════════════════════════════════════════════════════════
-- Simulation
-- ════════════════════════════════════════════════════════════════════════

/-- From `s`, `m` does what `n` does on the state that `s` stands for. -/
def Simulates {τ : Type} (abs : σ → τ) (m : Effectful ε σ α) (n : Effectful ε τ α) (s : σ) : Prop :=
  n.exec (abs s) = ((m.exec s).1, abs (m.exec s).2)

section

variable {τ : Type} {abs : σ → τ} {n : Effectful ε τ α} {g : α → Effectful ε τ β}

theorem simulates_pure (a : α) :
    Simulates abs (pure a : Effectful ε σ α) (pure a) s := rfl

theorem simulates_act {answer : Except ε α} {done failed : σ → σ} {done' failed' : τ → τ}
    (hdone : done' (abs s) = abs (done s)) (hfailed : failed' (abs s) = abs (failed s)) :
    Simulates abs (act answer done failed) (act answer done' failed') s := by
  show (answer, if answer.toBool then done' (abs s) else failed' (abs s)) =
    (answer, abs (if answer.toBool then done s else failed s))
  rw [hdone, hfailed, apply_ite abs]

theorem simulates_check (answer : Except ε α) :
    Simulates abs (check answer) (check answer) s := simulates_act rfl rfl

theorem Simulates.bind (hm : Simulates abs m n s)
    (hf : ∀ a s₁, m.Yields s a s₁ → Simulates abs (f a) (g a) s₁) :
    Simulates abs (m >>= f) (n >>= g) s := by
  rw [Simulates, exec_bind, exec_bind, hm]
  cases hexec : m.exec s with
  | mk result s₁ =>
    cases result with
    | error err => rfl
    | ok a => exact hf a s₁ hexec

end

end Effectful

end Botwork.Foundations
