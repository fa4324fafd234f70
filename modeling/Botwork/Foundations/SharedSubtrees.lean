import Mathlib.Logic.Function.Basic
import Mathlib.Tactic.Common

/-!
# Mounts stacked on directories

Bind mounts with their propagation.  A shared mount has peers, and what is mounted
on one of them at a directory is mounted on each of them that shows the directory;
where a peer carries a mount there already, the new one slides in beneath it.  An
unmount takes what is mounted at the directory on every peer, and what was stacked
on it stays.

## Main definitions

- `Mount` — a mount, by its root and its peers
- `pushed`, `popped` — a stack after a mount and after an unmount on its top
- `MountTable` — the stacks on all directories; `bind`, `makeShared`, `umount`
- `Kernel`, `Kernel.PropagatesMounts` — a kernel, and that its tables change so
-/

namespace Botwork.Foundations

variable {δ : Type} [DecidableEq δ]

/-- A mount: the directory it shows, and its peer group if it is shared.  Two mounts
    are peers with the same directory when they are equal and shared. -/
structure Mount (δ : Type) where
  root : δ
  peers : Option Nat
  deriving DecidableEq

namespace Mount

def isShared (mount : Mount δ) : Bool := mount.peers.isSome

-- A stack is the list of its mounts, the lowest first; `ground` is what the lowest
-- is mounted on.

/-- `new` is mounted on every peer of `peer`, beneath what is there. -/
def spread (peer new ground : Mount δ) : List (Mount δ) → List (Mount δ)
  | [] => if ground = peer then [new] else []
  | mount :: above => (if ground = peer then [new] else []) ++ mount :: spread peer new mount above

/-- What is mounted on the peers of `peer` is taken away. -/
def strip (peer ground : Mount δ) : List (Mount δ) → List (Mount δ)
  | [] => []
  | mount :: above =>
    if ground = peer then strip peer mount above else mount :: strip peer mount above

def top (ground : Mount δ) (stack : List (Mount δ)) : Mount δ := stack.getLastD ground

/-- What the top of a stack is mounted on. -/
def beneath (ground : Mount δ) : List (Mount δ) → Option (Mount δ)
  | [] => none
  | mount :: above => (beneath mount above).or (some ground)

/-- A stack after a mount on its top. -/
def pushed (new ground : Mount δ) (stack : List (Mount δ)) : List (Mount δ) :=
  if (top ground stack).isShared then spread (top ground stack) new ground stack else stack ++ [new]

/-- A stack after an unmount of its top. -/
def popped (ground : Mount δ) (stack : List (Mount δ)) : List (Mount δ) :=
  match beneath ground stack with
  | none => stack
  | some mount => if mount.isShared then strip mount ground stack else stack.dropLast

section

variable {peer new ground mount : Mount δ} {stack : List (Mount δ)}

omit [DecidableEq δ] in
@[simp] theorem top_nil : top ground [] = ground := rfl

omit [DecidableEq δ] in
@[simp] theorem top_cons : top ground (mount :: stack) = top mount stack := by
  cases stack <;> rfl

omit [DecidableEq δ] in
@[simp] theorem top_concat : top ground (stack ++ [mount]) = mount := by
  simp [top, List.getLastD_eq_getLast?]

omit [DecidableEq δ] in
theorem beneath_concat : beneath ground (stack ++ [mount]) = some (top ground stack) := by
  induction stack generalizing ground with
  | nil => rfl
  | cons m above ih => rw [List.cons_append, beneath, ih, top_cons, Option.some_or]

omit [DecidableEq δ] in
theorem beneath_eq_none_iff : beneath ground stack = none ↔ stack = [] := by
  cases stack <;> simp [beneath]

/-- The new mount is the one that is seen. -/
theorem spread_top : ∃ below, spread (top ground stack) new ground stack = below ++ [new] ∧
    top ground below = top ground stack := by
  induction stack generalizing ground with
  | nil => exact ⟨[], by simp [spread], rfl⟩
  | cons m above ih =>
    obtain ⟨below, heq, htop⟩ := @ih m
    refine ⟨(if ground = top m above then [new] else []) ++ m :: below, ?_, ?_⟩
    · rw [top_cons, spread, heq]
      simp
    · split <;> simp [htop]

theorem pushed_eq_concat : ∃ below, pushed new ground stack = below ++ [new] ∧
    top ground below = top ground stack := by
  rw [pushed]
  split
  next => exact spread_top
  next => exact ⟨stack, rfl, rfl⟩

theorem beneath_pushed : beneath ground (pushed new ground stack) = some (top ground stack) := by
  obtain ⟨below, heq, htop⟩ := @pushed_eq_concat _ _ new ground stack
  rw [heq, beneath_concat, htop]

theorem strip_spread (hne : new ≠ peer) :
    strip peer ground (spread peer new ground stack) = stack := by
  induction stack generalizing ground with
  | nil => by_cases h : ground = peer <;> simp [spread, strip, h]
  | cons m above ih =>
    by_cases h : ground = peer
    · simp [spread, strip, h, hne, ih]
    · simp [spread, strip, h, ih]

theorem strip_spread_self :
    strip peer ground (spread peer peer ground stack) = strip peer ground stack := by
  induction stack generalizing ground with
  | nil => by_cases h : ground = peer <;> simp [spread, strip, h]
  | cons m above ih =>
    by_cases h : ground = peer
    · simp [spread, strip, h, ih]
    · simp [spread, strip, h, ih]

/-- An unmount undoes the mount of something else. -/
theorem popped_pushed (hne : new ≠ top ground stack) : popped ground (pushed new ground stack) = stack := by
  rw [popped, beneath_pushed]
  by_cases h : (top ground stack).isShared = true
  · simp only [h, if_true, pushed]
    exact strip_spread hne
  · simp [h, pushed]

/-- Of a private mount an unmount undoes every mount. -/
theorem popped_pushed_of_private (h : (top ground stack).isShared = false) :
    popped ground (pushed new ground stack) = stack := by
  rw [popped, beneath_pushed]
  simp [h, pushed]

/-- A copy of the top goes with all that is mounted on its peers. -/
theorem popped_pushed_self (h : (top ground stack).isShared = true) :
    popped ground (pushed (top ground stack) ground stack) = strip (top ground stack) ground stack := by
  rw [popped, beneath_pushed]
  simp only [h, if_true, pushed]
  exact strip_spread_self

@[simp] theorem popped_nil : popped ground [] = [] := rfl

theorem strip_of_strip_eq_nil {other : Mount δ} (hne : other ≠ peer)
    (h : strip peer ground stack = []) : strip other ground stack = stack := by
  induction stack generalizing ground with
  | nil => rfl
  | cons m above ih =>
    by_cases hground : ground = peer
    · rw [strip, if_pos hground] at h
      rw [strip, if_neg (hground ▸ Ne.symm hne), ih h]
    · rw [strip, if_neg hground] at h
      cases h

theorem popped_of_beneath (hbeneath : beneath ground stack = some peer) (h : peer.isShared = true) :
    popped ground stack = strip peer ground stack := by
  rw [popped, hbeneath]
  exact if_pos h

/-- Where one unmount takes all, what is mounted on the peers of the top can go
    before it. -/
theorem popped_strip_top (h : popped ground stack = []) :
    popped ground (strip (top ground stack) ground stack) = [] := by
  cases stack with
  | nil => rfl
  | cons m above =>
    cases above with
    | nil =>
      by_cases hground : ground = m
      · simp [strip, hground]
      · simpa [strip, hground] using h
    | cons m' above' =>
      -- more than one goes only where all are mounted on peers of one mount
      obtain ⟨mount, hbeneath⟩ := Option.ne_none_iff_exists'.mp
        fun hnone => List.cons_ne_nil _ _ (beneath_eq_none_iff.mp hnone)
      rw [popped, hbeneath] at h
      by_cases hshared : mount.isShared = true
      · simp only [hshared, if_true] at h
        by_cases hsame : top ground (m :: m' :: above') = mount
        · rw [hsame, h, popped_nil]
        · rw [strip_of_strip_eq_nil hsame h, popped, hbeneath]
          simpa [hshared] using h
      · simp [hshared] at h

theorem strip_top_concat (h : top ground stack = peer) :
    strip peer ground (stack ++ [mount]) = strip peer ground stack := by
  induction stack generalizing ground with
  | nil => simp [strip, show ground = peer from h]
  | cons m above ih => simp only [List.cons_append, strip, ih (top_cons.symm.trans h)]

/-- Only what lies beneath the top counts. -/
theorem popped_concat :
    popped ground (stack ++ [mount]) =
      if (top ground stack).isShared then strip (top ground stack) ground stack else stack := by
  rw [popped, beneath_concat]
  simp [strip_top_concat]

end

end Mount

-- ════════════════════════════════════════════════════════════════════════
-- Tables
-- ════════════════════════════════════════════════════════════════════════

/-- The mounts of a host: the stack on every directory, and the peers of the mount
    that holds the directory. -/
structure MountTable (δ : Type) where
  holder : δ → Option Nat
  stack : δ → List (Mount δ)

namespace MountTable

/-- A directory without the mounts on it. -/
def ground (table : MountTable δ) (d : δ) : Mount δ := ⟨d, table.holder d⟩

/-- The mount that is seen at a directory. -/
def top (table : MountTable δ) (d : δ) : Mount δ := Mount.top (table.ground d) (table.stack d)

/-- What is seen at `source` as it is mounted on `target`: a shared mount has a copy
    among its peers, and on a shared one a private mount becomes one of the peer group
    `group`. -/
def copy (group : Nat) (source target : δ) (table : MountTable δ) : Mount δ :=
  if (table.top target).isShared then
    ⟨(table.top source).root, some ((table.top source).peers.getD group)⟩
  else table.top source

/-- `mount --bind`. -/
def bind (group : Nat) (source target : δ) (table : MountTable δ) : MountTable δ :=
  let new := table.copy group source target
  { table with
    stack := fun d =>
      if d = target then Mount.pushed new (table.ground d) (table.stack d)
      else if (table.top target).isShared then
        Mount.spread (table.top target) new (table.ground d) (table.stack d)
      else table.stack d }

/-- `mount --make-shared`: a private mount becomes one of the peer group `group`. -/
def makeShared (group : Nat) (target : δ) (table : MountTable δ) : MountTable δ :=
  { table with
    stack := fun d =>
      if d = target then
        match (table.stack d).getLast? with
        | some mount =>
          (table.stack d).dropLast ++ [{ mount with peers := some (mount.peers.getD group) }]
        | none => []
      else table.stack d }

def umount (target : δ) (table : MountTable δ) : MountTable δ :=
  match Mount.beneath (table.ground target) (table.stack target) with
  | none => table
  | some peer =>
    { table with
      stack := fun d =>
        if d = target then Mount.popped (table.ground d) (table.stack d)
        else if peer.isShared then Mount.strip peer (table.ground d) (table.stack d)
        else table.stack d }

section

variable (table : MountTable δ) (group : Nat) (source target : δ)

@[simp] theorem ground_bind : (table.bind group source target).ground = table.ground := rfl

@[simp] theorem ground_makeShared : (table.makeShared group target).ground = table.ground := rfl

@[simp] theorem ground_umount : (table.umount target).ground = table.ground := by
  unfold umount
  split <;> rfl

@[simp] theorem stack_bind : (table.bind group source target).stack target =
    Mount.pushed (table.copy group source target) (table.ground target) (table.stack target) :=
  if_pos rfl

@[simp] theorem stack_umount : (table.umount target).stack target =
    Mount.popped (table.ground target) (table.stack target) := by
  unfold umount
  split
  next hnone => rw [Mount.popped, hnone]
  next => exact if_pos rfl

/-- Sharing does not change what an unmount leaves. -/
theorem popped_makeShared :
    Mount.popped (table.ground target) ((table.makeShared group target).stack target) =
      Mount.popped (table.ground target) (table.stack target) := by
  simp only [makeShared, if_true]
  split
  next mount hlast =>
    obtain ⟨below, hstack⟩ := List.getLast?_eq_some_iff.mp hlast
    rw [hstack, List.dropLast_concat, Mount.popped_concat, Mount.popped_concat]
  next hlast => rw [List.getLast?_eq_none_iff.mp hlast]

omit [DecidableEq δ] in
theorem copy_root : (table.copy group source target).root = (table.top source).root := by
  unfold copy
  split <;> rfl

omit [DecidableEq δ] in
/-- A directory bound onto itself: where it is shared, the copy is a peer. -/
theorem copy_self (h : (table.top target).isShared = true) :
    table.copy group target target = table.top target := by
  obtain ⟨peers, hpeers⟩ := Option.isSome_iff_exists.mp h
  rw [copy, if_pos h, hpeers, Option.getD_some, ← hpeers]

end

end MountTable

-- ════════════════════════════════════════════════════════════════════════
-- Kernels
-- ════════════════════════════════════════════════════════════════════════

/-- A kernel, by the mounts it lists. -/
structure Kernel (σ δ : Type) where
  bind : δ → δ → σ → σ
  makeShared : δ → σ → σ
  umount : δ → σ → σ
  mounts : σ → MountTable δ

/-- The kernel propagates mounts and unmounts between peers, as shared subtrees are
    documented; it chooses the numbers of peer groups. -/
structure Kernel.PropagatesMounts {σ : Type} (kernel : Kernel σ δ) : Prop where
  bind : ∀ source target s, ∃ group,
    kernel.mounts (kernel.bind source target s) = (kernel.mounts s).bind group source target
  makeShared : ∀ target s, ∃ group,
    kernel.mounts (kernel.makeShared target s) = (kernel.mounts s).makeShared group target
  umount : ∀ target s, kernel.mounts (kernel.umount target s) = (kernel.mounts s).umount target

/-- A kernel that is its table, and the number of the next peer group. -/
def tableKernel : Kernel (MountTable δ × Nat) δ where
  bind source target s := (s.1.bind s.2 source target, s.2 + 1)
  makeShared target s := (s.1.makeShared s.2 target, s.2 + 1)
  umount target s := (s.1.umount target, s.2)
  mounts := Prod.fst

theorem tableKernel_propagatesMounts : (tableKernel : Kernel (MountTable δ × Nat) δ).PropagatesMounts where
  bind _ _ s := ⟨s.2, rfl⟩
  makeShared _ s := ⟨s.2, rfl⟩
  umount _ _ := rfl

end Botwork.Foundations
