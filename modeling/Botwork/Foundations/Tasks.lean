import Botwork.Foundations.FiniteMap

/-!
# Tasks over shared memory

A pool of tasks that take turns on one shared state.  A turn is what a task does
between two await points: it changes the shared state, moves on or returns, may
spawn one task and may abort one.  An aborted task that only waits is gone at
once; any other goes on until it is cancelled at an await point.

## Main definitions

- `TaskState`, `Turn`, `Pool`
- `Pool.resume` — one turn of one task
- `Pool.start`, `Pool.cancel` — a new task, the end of an aborted one
- `Pool.Has`, `Pool.count` — some task at a point of one kind, and the number of them

## Main results

- `Pool.resume_cases` — where a task of the next pool comes from
- `Pool.resume_keeps`, `Pool.resume_survives`, `Pool.resume_moves`, `Pool.resume_spawned` — what is
  there after a turn
- `Pool.has_resume`, `Pool.count_resume` — carrying and counting across a turn
-/

namespace Botwork.Foundations

/-- A task at program point `pc`. -/
structure TaskState (π : Type*) where
  pc : π
  aborted : Bool
  deriving DecidableEq

/-- What a task does in one turn; `next` is `none` when it returns. -/
structure Turn (σ π : Type*) where
  shared : σ
  next : Option π
  spawned : Option π
  abort : Option Nat

/-- Tasks by number, over a shared state.  Numbers are not used twice. -/
structure Pool (σ π : Type*) where
  shared : σ
  tasks : FiniteMap Nat (TaskState π)
  nextTask : Nat

namespace Pool

variable {σ π : Type*}

def keep (tasks : FiniteMap Nat (TaskState π)) (k : Nat) (aborted : Bool) :
    Option π → FiniteMap Nat (TaskState π)
  | some pc => tasks.insert k ⟨pc, aborted⟩
  | none => tasks.erase k

def launch (tasks : FiniteMap Nat (TaskState π)) (n : Nat) : Option π → FiniteMap Nat (TaskState π)
  | some pc => tasks.insert n ⟨pc, false⟩
  | none => tasks

def interrupt (waits : π → Bool) (tasks : FiniteMap Nat (TaskState π)) :
    Option Nat → FiniteMap Nat (TaskState π)
  | some j =>
    match tasks.lookup j with
    | some t => if waits t.pc then tasks.erase j else tasks.insert j { t with aborted := true }
    | none => tasks
  | none => tasks

/-- The pool after task `k`, which is `t`, has taken the turn `o`. -/
def resume (waits : π → Bool) (p : Pool σ π) (k : Nat) (t : TaskState π) (o : Turn σ π) :
    Pool σ π where
  shared := o.shared
  tasks := interrupt waits (launch (keep p.tasks k t.aborted o.next) p.nextTask o.spawned) o.abort
  nextTask := p.nextTask + 1

/-- A new task. -/
def start (p : Pool σ π) (pc : π) : Pool σ π :=
  { p with tasks := p.tasks.insert p.nextTask ⟨pc, false⟩, nextTask := p.nextTask + 1 }

/-- An aborted task ends at an await point. -/
def cancel (p : Pool σ π) (k : Nat) : Pool σ π := { p with tasks := p.tasks.erase k }

/-- The number of tasks at a point that satisfies `f`. -/
def count (f : π → Bool) (p : Pool σ π) : Nat := FiniteMap.countP (fun t => f t.pc) p.tasks

/-- Tasks have numbers that were given out. -/
def Numbered (p : Pool σ π) : Prop := ∀ j t, p.tasks.lookup j = some t → j < p.nextTask

variable {p : Pool σ π} {waits : π → Bool} {k j : Nat} {t u v : TaskState π} {o : Turn σ π} {pc : π}

theorem Numbered.free (h : p.Numbered) : p.tasks.lookup p.nextTask = none := by
  cases hfree : p.tasks.lookup p.nextTask with
  | none => rfl
  | some t => exact absurd (h _ t hfree) (Nat.lt_irrefl _)

-- ════════════════════════════════════════════════════════════════════════
-- The parts of a turn
-- ════════════════════════════════════════════════════════════════════════

theorem lookup_keep (tasks : FiniteMap Nat (TaskState π)) (aborted : Bool) (next : Option π) :
    (keep tasks k aborted next).lookup j =
      if j = k then next.map fun pc => ⟨pc, aborted⟩ else tasks.lookup j := by
  cases next with
  | none => exact FiniteMap.lookup_erase_ite tasks k j
  | some pc => exact FiniteMap.lookup_insert_ite tasks k j _

theorem lookup_launch_of_ne (tasks : FiniteMap Nat (TaskState π)) {n : Nat} (h : j ≠ n)
    (spawned : Option π) : (launch tasks n spawned).lookup j = tasks.lookup j := by
  cases spawned with
  | none => rfl
  | some pc => exact AList.lookup_insert_ne h

/-- Aborting a task changes no other. -/
theorem lookup_interrupt_of_ne (tasks : FiniteMap Nat (TaskState π)) {abort : Option Nat}
    (h : abort ≠ some j) : (interrupt waits tasks abort).lookup j = tasks.lookup j := by
  cases abort with
  | none => rfl
  | some i =>
    have hne : j ≠ i := fun heq => h (heq ▸ rfl)
    simp only [interrupt]
    split
    next =>
      split
      next => exact AList.lookup_erase_ne hne
      next => exact AList.lookup_insert_ne hne
    next => rfl

/-- A task that survives an abort was there, at the same point. -/
theorem of_lookup_interrupt {tasks : FiniteMap Nat (TaskState π)} {abort : Option Nat}
    (h : (interrupt waits tasks abort).lookup j = some u) :
    ∃ v, tasks.lookup j = some v ∧ v.pc = u.pc ∧
      (u = v ∨ abort = some j ∧ waits v.pc = false) := by
  by_cases habort : abort = some j
  · subst habort
    unfold interrupt at h
    simp only at h
    split at h
    next v hv =>
      split at h
      next =>
        rw [AList.lookup_erase] at h
        cases h
      next hwaits =>
        rw [AList.lookup_insert] at h
        cases h
        exact ⟨v, hv, rfl, Or.inr ⟨rfl, by simpa using hwaits⟩⟩
    next hnone =>
      rw [hnone] at h
      cases h
  · rw [lookup_interrupt_of_ne tasks habort] at h
    exact ⟨u, h, rfl, Or.inl rfl⟩

theorem lookup_interrupt_of_not_waits {tasks : FiniteMap Nat (TaskState π)}
    (hj : tasks.lookup j = some v) (hwaits : waits v.pc = false) (abort : Option Nat) :
    ∃ u, (interrupt waits tasks abort).lookup j = some u ∧ u.pc = v.pc := by
  by_cases habort : abort = some j
  · subst habort
    refine ⟨{ v with aborted := true }, ?_, rfl⟩
    simp only [interrupt, hj, hwaits]
    exact AList.lookup_insert _
  · exact ⟨v, (lookup_interrupt_of_ne tasks habort).trans hj, rfl⟩

-- ════════════════════════════════════════════════════════════════════════
-- Turns
-- ════════════════════════════════════════════════════════════════════════

/-- **Where a task comes from**: it is the one that took the turn, the one that
    was spawned, or one of the others; none of them waits and was aborted. -/
theorem resume_cases (h : (p.resume waits k t o).tasks.lookup j = some u) :
    (o.abort = some j → waits u.pc = false) ∧
      ((j = k ∧ o.next = some u.pc) ∨ (j = p.nextTask ∧ o.spawned = some u.pc) ∨
        (j ≠ k ∧ ∃ v, p.tasks.lookup j = some v ∧ v.pc = u.pc)) := by
  obtain ⟨v, hv, hpc, hsame⟩ := of_lookup_interrupt h
  refine ⟨fun habort => ?_, ?_⟩
  · rcases hsame with rfl | ⟨-, hwaits⟩
    · by_contra hwaits
      rw [Bool.not_eq_false] at hwaits
      have hgone : (interrupt waits (launch (keep p.tasks k t.aborted o.next) p.nextTask
          o.spawned) o.abort).lookup j = none := by
        rw [habort]
        unfold interrupt
        simp only [hv, hwaits, if_true]
        exact AList.lookup_erase _ _
      exact absurd (hgone.symm.trans h) (by simp)
    · rw [← hpc]
      exact hwaits
  · by_cases hnew : j = p.nextTask
    · subst hnew
      cases hsp : o.spawned with
      | some pc =>
        rw [hsp, launch, AList.lookup_insert] at hv
        cases hv
        exact Or.inr (Or.inl ⟨rfl, congrArg some hpc⟩)
      | none =>
        rw [hsp] at hv
        change (keep p.tasks k t.aborted o.next).lookup p.nextTask = some v at hv
        rw [lookup_keep] at hv
        split at hv
        next heq =>
          obtain ⟨pc, hnext, rfl⟩ := Option.map_eq_some_iff.mp hv
          exact Or.inl ⟨heq, hnext.trans (congrArg some hpc)⟩
        next hne => exact Or.inr (Or.inr ⟨hne, v, hv, hpc⟩)
    · rw [lookup_launch_of_ne _ hnew, lookup_keep] at hv
      split at hv
      next heq =>
        obtain ⟨pc, hnext, rfl⟩ := Option.map_eq_some_iff.mp hv
        exact Or.inl ⟨heq, hnext.trans (congrArg some hpc)⟩
      next hne => exact Or.inr (Or.inr ⟨hne, v, hv, hpc⟩)

/-- Only the aborted task gets the mark of an aborted one. -/
theorem resume_aborted (hk : p.tasks.lookup k = some t)
    (h : (p.resume waits k t o).tasks.lookup j = some u) (haborted : u.aborted = true) :
    o.abort = some j ∨ ∃ v, p.tasks.lookup j = some v ∧ v.aborted = true := by
  obtain ⟨v, hv, -, rfl | ⟨habort, -⟩⟩ := of_lookup_interrupt h
  · refine Or.inr ?_
    have hkept : ∀ {w}, (keep p.tasks k t.aborted o.next).lookup j = some w → w.aborted = true →
        ∃ v, p.tasks.lookup j = some v ∧ v.aborted = true := by
      intro w hw haborted
      rw [lookup_keep] at hw
      split at hw
      next heq =>
        subst heq
        obtain ⟨pc, -, rfl⟩ := Option.map_eq_some_iff.mp hw
        exact ⟨t, hk, haborted⟩
      next => exact ⟨w, hw, haborted⟩
    cases hsp : o.spawned with
    | none =>
      rw [hsp] at hv
      exact hkept hv haborted
    | some pc =>
      rw [hsp, launch, FiniteMap.lookup_insert_ite] at hv
      split at hv
      next =>
        cases hv
        cases haborted
      next => exact hkept hv haborted
  · exact Or.inl habort

/-- A task that neither takes the turn nor is aborted stays as it is. -/
theorem resume_keeps (waits : π → Bool) (hp : p.Numbered) (hj : p.tasks.lookup j = some v)
    (hne : j ≠ k) (habort : o.abort ≠ some j) : (p.resume waits k t o).tasks.lookup j = some v := by
  have hnew : j ≠ p.nextTask := Nat.ne_of_lt (hp j v hj)
  show (interrupt waits _ o.abort).lookup j = some v
  rw [lookup_interrupt_of_ne _ habort, lookup_launch_of_ne _ hnew, lookup_keep, if_neg hne]
  exact hj

/-- A task that does not wait outlives an abort. -/
theorem resume_survives (waits : π → Bool) (hp : p.Numbered) (hj : p.tasks.lookup j = some v)
    (hne : j ≠ k) (hwaits : waits v.pc = false) :
    ∃ u, (p.resume waits k t o).tasks.lookup j = some u ∧ u.pc = v.pc := by
  have hnew : j ≠ p.nextTask := Nat.ne_of_lt (hp j v hj)
  have hmid : (launch (keep p.tasks k t.aborted o.next) p.nextTask o.spawned).lookup j = some v := by
    rw [lookup_launch_of_ne _ hnew, lookup_keep, if_neg hne]
    exact hj
  exact lookup_interrupt_of_not_waits hmid hwaits o.abort

theorem resume_moves (waits : π → Bool) (hp : p.Numbered) (hk : p.tasks.lookup k = some t)
    (hnext : o.next = some pc) (hwaits : waits pc = false) :
    ∃ u, (p.resume waits k t o).tasks.lookup k = some u ∧ u.pc = pc := by
  have hnew : k ≠ p.nextTask := Nat.ne_of_lt (hp k t hk)
  have hmid : (launch (keep p.tasks k t.aborted o.next) p.nextTask o.spawned).lookup k =
      some ⟨pc, t.aborted⟩ := by
    rw [lookup_launch_of_ne _ hnew, lookup_keep, if_pos rfl, hnext]
    rfl
  exact lookup_interrupt_of_not_waits hmid hwaits o.abort

theorem resume_spawned (hsp : o.spawned = some pc) (habort : o.abort ≠ some p.nextTask) :
    (p.resume waits k t o).tasks.lookup p.nextTask = some ⟨pc, false⟩ := by
  show (interrupt waits _ o.abort).lookup p.nextTask = _
  rw [lookup_interrupt_of_ne _ habort, hsp]
  exact AList.lookup_insert _

/-- Some task is at a point that satisfies `f`. -/
def Has (f : π → Bool) (p : Pool σ π) : Prop := ∃ j t, p.tasks.lookup j = some t ∧ f t.pc = true

/-- What a turn hands on to its next point or to the task it spawns is there after
    it, if a task that waits cannot have it. -/
theorem has_of_turn (waits : π → Bool) {f : π → Bool} (hf : ∀ pc, f pc = true → waits pc = false)
    (hp : p.Numbered) (hk : p.tasks.lookup k = some t)
    (h : o.next.any f = true ∨ o.spawned.any f = true) : (p.resume waits k t o).Has f := by
  rcases h with hnext | hspawned
  · obtain ⟨pc, heq, hpc⟩ := (Option.any_eq_true _ _).mp hnext
    obtain ⟨u, hu, hupc⟩ := resume_moves waits hp hk heq (hf pc hpc)
    exact ⟨k, u, hu, hupc ▸ hpc⟩
  · obtain ⟨pc, heq, hpc⟩ := (Option.any_eq_true _ _).mp hspawned
    have hmid : (launch (keep p.tasks k t.aborted o.next) p.nextTask o.spawned).lookup p.nextTask =
        some ⟨pc, false⟩ := by
      rw [heq]
      exact AList.lookup_insert _
    obtain ⟨u, hu, hupc⟩ := @lookup_interrupt_of_not_waits π waits p.nextTask _ _ hmid (hf pc hpc) o.abort
    exact ⟨p.nextTask, u, hu, hupc ▸ hpc⟩

/-- **Carrying across a turn**: what a task has, some task has after the turn,
    unless the task that took the turn had it and has not handed it on. -/
theorem has_resume (waits : π → Bool) {f : π → Bool} {R : Prop}
    (hf : ∀ pc, f pc = true → waits pc = false) (hp : p.Numbered) (hk : p.tasks.lookup k = some t)
    (hself : f t.pc = true → R ∨ o.next.any f = true ∨ o.spawned.any f = true) (h : p.Has f) :
    R ∨ (p.resume waits k t o).Has f := by
  obtain ⟨j, u, hu, hpc⟩ := h
  by_cases heq : j = k
  · subst heq
    rw [hk] at hu
    cases hu
    rcases hself hpc with hdone | hon
    · exact Or.inl hdone
    · exact Or.inr (has_of_turn waits hf hp hk hon)
  · obtain ⟨v, hv, hvpc⟩ := resume_survives waits (k := k) (t := t) (o := o) hp hu heq (hf _ hpc)
    exact Or.inr ⟨j, v, hv, hvpc ▸ hpc⟩

theorem numbered_resume (hp : p.Numbered) (hk : p.tasks.lookup k = some t) :
    (p.resume waits k t o).Numbered := by
  intro j u hu
  show j < p.nextTask + 1
  rcases (resume_cases hu).2 with ⟨rfl, -⟩ | ⟨rfl, -⟩ | ⟨-, v, hv, -⟩
  · exact Nat.lt_succ_of_lt (hp _ t hk)
  · exact Nat.lt_succ_self _
  · exact Nat.lt_succ_of_lt (hp _ v hv)

-- ════════════════════════════════════════════════════════════════════════
-- New and cancelled tasks
-- ════════════════════════════════════════════════════════════════════════

theorem lookup_start (p : Pool σ π) (pc : π) (j : Nat) :
    (p.start pc).tasks.lookup j =
      if j = p.nextTask then some ⟨pc, false⟩ else p.tasks.lookup j :=
  FiniteMap.lookup_insert_ite p.tasks p.nextTask j _

theorem start_keeps (hp : p.Numbered) (hj : p.tasks.lookup j = some v) (pc : π) :
    (p.start pc).tasks.lookup j = some v := by
  rw [lookup_start, if_neg (Nat.ne_of_lt (hp j v hj))]
  exact hj

theorem has_start {f : π → Bool} (hp : p.Numbered) (pc : π) (h : p.Has f) : (p.start pc).Has f := by
  obtain ⟨j, u, hu, hpc⟩ := h
  exact ⟨j, u, start_keeps hp hu pc, hpc⟩

theorem has_start_self {f : π → Bool} (p : Pool σ π) (h : f pc = true) : (p.start pc).Has f :=
  ⟨p.nextTask, ⟨pc, false⟩, by rw [lookup_start, if_pos rfl], h⟩

theorem numbered_start (hp : p.Numbered) (pc : π) : (p.start pc).Numbered := by
  intro j u hu
  show j < p.nextTask + 1
  rw [lookup_start] at hu
  split at hu
  next heq => omega
  next => exact Nat.lt_succ_of_lt (hp j u hu)

theorem lookup_cancel (p : Pool σ π) (k j : Nat) :
    (p.cancel k).tasks.lookup j = if j = k then none else p.tasks.lookup j :=
  FiniteMap.lookup_erase_ite p.tasks k j

theorem of_lookup_cancel (hu : (p.cancel k).tasks.lookup j = some u) : p.tasks.lookup j = some u := by
  rw [lookup_cancel] at hu
  split at hu
  next => cases hu
  next => exact hu

/-- A task other than the cancelled one is told by what holds of it. -/
theorem cancel_keeps (hk : p.tasks.lookup k = some t) (hu : p.tasks.lookup j = some u)
    (hne : t ≠ u) : (p.cancel k).tasks.lookup j = some u := by
  rw [lookup_cancel, if_neg]
  · exact hu
  · rintro rfl
    exact hne (Option.some.inj (hk.symm.trans hu))

theorem has_cancel {f : π → Bool} (hk : p.tasks.lookup k = some t) (hf : f t.pc = false)
    (h : p.Has f) : (p.cancel k).Has f := by
  obtain ⟨j, u, hu, hpc⟩ := h
  refine ⟨j, u, cancel_keeps hk hu ?_, hpc⟩
  rintro rfl
  rw [hf] at hpc
  cases hpc

theorem numbered_cancel (hp : p.Numbered) (k : Nat) : (p.cancel k).Numbered :=
  fun j u hu => hp j u (of_lookup_cancel hu)

-- ════════════════════════════════════════════════════════════════════════
-- Counting
-- ════════════════════════════════════════════════════════════════════════

theorem count_pos {f : π → Bool} :
    0 < p.count f ↔ ∃ j t, p.tasks.lookup j = some t ∧ f t.pc = true :=
  FiniteMap.countP_pos

theorem countP_keep (f : π → Bool) {tasks : FiniteMap Nat (TaskState π)}
    (hk : tasks.lookup k = some t) (next : Option π) :
    FiniteMap.countP (fun t => f t.pc) (keep tasks k t.aborted next) + (f t.pc).toNat =
      FiniteMap.countP (fun t => f t.pc) tasks + (next.any f).toNat := by
  have herase := FiniteMap.countP_erase (fun t => f t.pc) hk
  cases next with
  | none =>
    simp only [keep, Option.any_none, Bool.toNat_false]
    omega
  | some pc =>
    simp only [keep, Option.any_some, FiniteMap.countP_insert]
    omega

theorem countP_launch (f : π → Bool) {tasks : FiniteMap Nat (TaskState π)} {n : Nat}
    (hn : tasks.lookup n = none) (spawned : Option π) :
    FiniteMap.countP (fun t => f t.pc) (launch tasks n spawned) =
      FiniteMap.countP (fun t => f t.pc) tasks + (spawned.any f).toNat := by
  cases spawned with
  | none => rfl
  | some pc => rw [launch, FiniteMap.countP_insert, FiniteMap.erase_eq_self hn, Option.any_some]

/-- An abort ends tasks that wait and moves none. -/
theorem countP_interrupt (f : π → Bool) (hwaits : ∀ pc, waits pc = true → f pc = false)
    (tasks : FiniteMap Nat (TaskState π)) (abort : Option Nat) :
    FiniteMap.countP (fun t => f t.pc) (interrupt waits tasks abort) =
      FiniteMap.countP (fun t => f t.pc) tasks := by
  fun_cases interrupt waits tasks abort with
  | case1 j t ht hwait =>
    have herase := FiniteMap.countP_erase (fun t => f t.pc) ht
    rw [hwaits _ hwait] at herase
    exact herase
  | case2 j t ht _ =>
    rw [FiniteMap.countP_insert]
    exact FiniteMap.countP_erase (fun t => f t.pc) ht
  | case3 => rfl
  | case4 => rfl

/-- **Counting across a turn**: the task that took it leaves its point and
    reaches its next one, and the spawned task appears. -/
theorem count_resume (waits : π → Bool) (f : π → Bool)
    (hwaits : ∀ pc, waits pc = true → f pc = false) (hp : p.Numbered) (hk : p.tasks.lookup k = some t) :
    (p.resume waits k t o).count f + (f t.pc).toNat =
      p.count f + (o.next.any f).toNat + (o.spawned.any f).toNat := by
  have hfree : (keep p.tasks k t.aborted o.next).lookup p.nextTask = none := by
    rw [lookup_keep, if_neg (Nat.ne_of_gt (hp k t hk))]
    exact hp.free
  have hkeep := countP_keep f hk o.next
  have hlaunch := countP_launch f hfree o.spawned
  have habort := countP_interrupt f hwaits
    (launch (keep p.tasks k t.aborted o.next) p.nextTask o.spawned) o.abort
  simp only [count, resume]
  omega

theorem count_start (f : π → Bool) (hp : p.Numbered) (pc : π) :
    (p.start pc).count f = p.count f + (f pc).toNat := by
  simp only [count, start, FiniteMap.countP_insert, FiniteMap.erase_eq_self hp.free]

theorem count_cancel (f : π → Bool) (hk : p.tasks.lookup k = some t) :
    (p.cancel k).count f + (f t.pc).toNat = p.count f := by
  have herase := FiniteMap.countP_erase (fun t : TaskState π => f t.pc) hk
  exact herase

end Pool

end Botwork.Foundations
