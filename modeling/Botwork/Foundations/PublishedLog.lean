import Mathlib.Data.List.Basic
import Mathlib.Tactic.Common

/-!
# Logs whose entries are published later

Edits enter a log in the order in which they are made.  Each has an owner, who
publishes it afterwards under a version; versions rise, but entries are not published
in the order in which they entered.  A reader that reads the version first and the
edits then has everything that was published up to that version.

## Main definitions

- `LogEntry` — an edit, its owner and the version under which it is published
- `CoveredBy` — a front part of the log has all that is published up to a version
- `Holds` — a front part of the log has an edit of an owner
- `publish` — an owner publishes what it has in the log
-/

namespace Botwork.Foundations

structure LogEntry (ι ε : Type*) where
  owner : ι
  edit : ε
  published : Option Nat
  deriving DecidableEq

namespace PublishedLog

variable {ι ε : Type*} {log new : List (LogEntry ι ε)} {version count : Nat} {owner : ι} {edit : ε}

def edits (log : List (LogEntry ι ε)) : List ε := log.map LogEntry.edit

/-- The first `count` entries have everything that is published up to the version. -/
def CoveredBy (log : List (LogEntry ι ε)) (version count : Nat) : Prop :=
  ∀ j e v, log[j]? = some e → e.published = some v → v ≤ version → j < count

/-- This edit of the owner is one of the first `count` entries. -/
def Holds (log : List (LogEntry ι ε)) (owner : ι) (edit : ε) (count : Nat) : Prop :=
  ∃ j e, log[j]? = some e ∧ e.owner = owner ∧ e.edit = edit ∧ j < count

-- ════════════════════════════════════════════════════════════════════════
-- New entries
-- ════════════════════════════════════════════════════════════════════════

theorem edits_append : edits (log ++ new) = edits log ++ edits new := List.map_append

/-- What a front part has is not changed by later entries. -/
theorem take_edits_append (h : count ≤ log.length) :
    (edits (log ++ new)).take count = (edits log).take count := by
  rw [edits_append, List.take_append_of_le_length]
  rw [edits, List.length_map]
  exact h

theorem coveredBy_length (log : List (LogEntry ι ε)) (version : Nat) :
    CoveredBy log version log.length := by
  intro j e v hlook _ _
  exact (List.getElem?_eq_some_iff.mp hlook).1

/-- New entries are published under later versions only. -/
theorem CoveredBy.append (h : CoveredBy log version count)
    (hnew : ∀ e ∈ new, e.published = none) : CoveredBy (log ++ new) version count := by
  intro j e v hlook hpublished hle
  by_cases hj : j < log.length
  · rw [List.getElem?_append_left hj] at hlook
    exact h j e v hlook hpublished hle
  · rw [List.getElem?_append_right (Nat.not_lt.mp hj)] at hlook
    rw [hnew e (List.mem_of_getElem? hlook)] at hpublished
    cases hpublished

theorem Holds.append (h : Holds log owner edit count) : Holds (log ++ new) owner edit count := by
  obtain ⟨j, e, hlook, hown, hedit, hlt⟩ := h
  refine ⟨j, e, ?_, hown, hedit, hlt⟩
  rw [List.getElem?_append_left (List.getElem?_eq_some_iff.mp hlook).1]
  exact hlook

/-- A front part that covers a version has every edit that is published up to it. -/
theorem CoveredBy.holds {v : Nat} {e : LogEntry ι ε} (h : CoveredBy log version count)
    (hmem : e ∈ log) (hpublished : e.published = some v) (hle : v ≤ version) :
    Holds log e.owner e.edit count := by
  obtain ⟨j, hlook⟩ := List.getElem?_of_mem hmem
  exact ⟨j, e, hlook, rfl, rfl, h j e v hlook hpublished hle⟩

-- ════════════════════════════════════════════════════════════════════════
-- Publishing
-- ════════════════════════════════════════════════════════════════════════

section

variable [DecidableEq ι]

/-- An entry of the owner that is not published yet gets this version. -/
def mark (owner : ι) (version : Nat) (e : LogEntry ι ε) : LogEntry ι ε :=
  if e.owner = owner ∧ e.published = none then { e with published := some version } else e

/-- An owner publishes all that it has not published yet. -/
def publish (owner : ι) (version : Nat) (log : List (LogEntry ι ε)) : List (LogEntry ι ε) :=
  log.map (mark owner version)

theorem mark_cases (owner : ι) (version : Nat) (e : LogEntry ι ε) :
    (mark owner version e).owner = e.owner ∧ (mark owner version e).edit = e.edit ∧
      (¬ (e.owner = owner ∧ e.published = none) ∧
          (mark owner version e).published = e.published ∨
        (e.owner = owner ∧ e.published = none) ∧
          (mark owner version e).published = some version) := by
  unfold mark
  by_cases hown : e.owner = owner ∧ e.published = none
  · rw [if_pos hown]
    exact ⟨rfl, rfl, .inr ⟨hown, rfl⟩⟩
  · rw [if_neg hown]
    exact ⟨rfl, rfl, .inl ⟨hown, rfl⟩⟩

@[simp] theorem length_publish : (publish owner version log).length = log.length :=
  List.length_map _

theorem edits_publish : edits (publish owner version log) = edits log := by
  rw [edits, edits, publish, List.map_map]
  exact List.map_congr_left fun e _ => (mark_cases owner version e).2.1

theorem CoveredBy.publish {later : Nat} (h : CoveredBy log version count) (hlt : version < later) :
    CoveredBy (publish owner later log) version count := by
  intro j e v hlook hpublished hle
  rw [PublishedLog.publish, List.getElem?_map, Option.map_eq_some_iff] at hlook
  obtain ⟨e₀, hlook, rfl⟩ := hlook
  obtain ⟨-, -, ⟨-, hsame⟩ | ⟨-, hnow⟩⟩ := mark_cases owner later e₀
  · exact h j e₀ v hlook (hsame ▸ hpublished) hle
  · rw [hnow, Option.some.injEq] at hpublished
    omega

theorem Holds.publish {owner' : ι} (h : Holds log owner edit count) :
    Holds (publish owner' version log) owner edit count := by
  obtain ⟨j, e, hlook, hown, hedit, hlt⟩ := h
  obtain ⟨hown', hedit', -⟩ := mark_cases owner' version e
  refine ⟨j, mark owner' version e, ?_, hown'.trans hown, hedit'.trans hedit, hlt⟩
  rw [PublishedLog.publish, List.getElem?_map, hlook]
  rfl

end

end PublishedLog

end Botwork.Foundations
