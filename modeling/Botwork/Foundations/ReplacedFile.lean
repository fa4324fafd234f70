import Mathlib.Logic.Function.Basic
import Mathlib.Tactic.Common

/-!
# Files that a rename replaces

A program replaces a file by writing a temp file next to it and renaming that over it.
Any number of programs do so on one temp name, and a handle stays on the file it was
opened on: behind a rename it writes into what is published.

## Main definitions

- `ReplacedFile β` — what the two names stand for, with contents in `β`
- `ReplacedFile.published` — what a reader of the name finds
- `ReplacedFile.Sound` — the two names stand for different files
-/

namespace Botwork.Foundations

/-- The inodes of the published file and of the temp file.  No inode from `fresh` on
    has been used. -/
structure ReplacedFile (β : Type) where
  path : Option Nat
  tmp : Option Nat
  contents : Nat → β
  fresh : Nat

namespace ReplacedFile

variable {β : Type} {d d' : ReplacedFile β} {inode : Nat} {b : β}

def published (d : ReplacedFile β) : Option β := d.path.map d.contents

def write (d : ReplacedFile β) (inode : Nat) (b : β) : ReplacedFile β :=
  { d with contents := Function.update d.contents inode b }

/-- The temp file is truncated to `b`, or made.  The second component is the inode
    that the handle is on. -/
def create (d : ReplacedFile β) (b : β) : ReplacedFile β × Nat :=
  match d.tmp with
  | some inode => (d.write inode b, inode)
  | none => ({ d.write d.fresh b with tmp := some d.fresh, fresh := d.fresh + 1 }, d.fresh)

/-- The rename; there may be no temp file. -/
def rename (d : ReplacedFile β) : Option (ReplacedFile β) :=
  d.tmp.map fun inode => { d with path := some inode, tmp := none }

def remove (d : ReplacedFile β) : ReplacedFile β := { d with path := none }

/-- A root whose two names stand for different files. -/
structure Sound (d : ReplacedFile β) : Prop where
  path_lt : ∀ inode, d.path = some inode → inode < d.fresh
  tmp_lt : ∀ inode, d.tmp = some inode → inode < d.fresh
  apart : ∀ inode, d.path = some inode → d.tmp ≠ some inode

@[simp] theorem published_remove : d.remove.published = none := rfl

theorem published_write_self (h : d.path = some inode) :
    (d.write inode b).published = some b := by
  show d.path.map (Function.update d.contents inode b) = some b
  rw [h, Option.map_some, Function.update_self]

/-- A file that the name does not stand for may change. -/
theorem published_write_of_ne (h : d.path ≠ some inode) :
    (d.write inode b).published = d.published := by
  show d.path.map (Function.update d.contents inode b) = d.path.map d.contents
  cases hpath : d.path with
  | none => rfl
  | some other =>
    have hne : other ≠ inode := by
      rintro rfl
      exact h hpath
    rw [Option.map_some, Option.map_some, Function.update_of_ne hne]

theorem rename_of_tmp (h : d.tmp = some inode) :
    d.rename = some { d with path := some inode, tmp := none } := by
  rw [rename, h, Option.map_some]

theorem rename_of_none (h : d.tmp = none) : d.rename = none := by
  rw [rename, h, Option.map_none]

/-- What a rename publishes. -/
theorem published_of_rename (h : d.rename = some d') :
    ∃ inode, d.tmp = some inode ∧ d'.published = some (d.contents inode) := by
  obtain ⟨inode, htmp, rfl⟩ := Option.map_eq_some_iff.mp h
  exact ⟨inode, htmp, rfl⟩

namespace Sound

theorem write (hd : d.Sound) : (d.write inode b).Sound := ⟨hd.path_lt, hd.tmp_lt, hd.apart⟩

theorem remove (hd : d.Sound) : d.remove.Sound := ⟨nofun, hd.tmp_lt, nofun⟩

theorem rename (hd : d.Sound) (h : d.rename = some d') : d'.Sound := by
  obtain ⟨inode, htmp, rfl⟩ := Option.map_eq_some_iff.mp h
  refine ⟨?_, nofun, fun _ _ => nofun⟩
  intro published hpath
  cases hpath
  exact hd.tmp_lt inode htmp

theorem create (hd : d.Sound) : (d.create b).1.Sound := by
  cases htmp : d.tmp with
  | some inode =>
    rw [ReplacedFile.create, htmp]
    exact hd.write
  | none =>
    simp only [ReplacedFile.create, htmp]
    refine ⟨fun inode h => Nat.lt_succ_of_lt (hd.path_lt inode h), ?_, ?_⟩
    · intro inode h
      cases h
      exact Nat.lt_succ_self d.fresh
    · intro inode h heq
      cases heq
      exact Nat.lt_irrefl d.fresh (hd.path_lt d.fresh h)

/-- A truncated or a new temp file is not the published one. -/
theorem published_create (hd : d.Sound) : (d.create b).1.published = d.published := by
  cases htmp : d.tmp with
  | some inode =>
    rw [ReplacedFile.create, htmp]
    exact published_write_of_ne fun h => hd.apart inode h htmp
  | none =>
    simp only [ReplacedFile.create, htmp]
    exact published_write_of_ne (d := d) fun h => Nat.lt_irrefl d.fresh (hd.path_lt d.fresh h)

end Sound

end ReplacedFile

end Botwork.Foundations
