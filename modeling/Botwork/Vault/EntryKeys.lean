import Botwork.Vault.Conflicts

/-!
# What a vault file seals

Every entry of a vault file is sealed under the key the file itself is sealed
with, and its key is a valid one: whoever opens the file opens every entry.

## Main definitions

- `VaultContents.SealedUnder` — every entry opens under a master key

## Main results

- `sealed_under` — the file of every reachable root
-/

namespace Botwork.Vault

open Botwork.Foundations

variable {hkdf : Bytes → Bytes → UInt8 → Bytes} {w w' : Root} {h : Nat} {hd : Handle}

/-- Every entry has a valid key and is sealed under `master`. -/
def VaultContents.SealedUnder (contents : VaultContents) (master : Bytes) : Prop :=
  ∀ key envelope, contents.entries.lookup key = some envelope →
    key.validate = .ok () ∧ envelope.value.key = master

theorem VaultContents.sealedUnder_new (now : Int) (master : Bytes) :
    (VaultContents.new now).SealedUnder master := by
  intro key envelope hlook
  rw [show (VaultContents.new now).entries = ∅ from rfl, AList.lookup_empty] at hlook
  cases hlook

/-- An edit under the master key keeps every entry sealed under it. -/
theorem VaultContents.SealedUnder.edit {contents contents' : VaultContents} {master : Bytes}
    {write : Write} {now nowUtc : Int} (hsealed : contents.SealedUnder master)
    (h : write.edit contents master now nowUtc = .ok contents') :
    contents'.SealedUnder master := by
  intro key envelope hlook
  by_cases hkey : key = write.key
  · subst hkey
    cases write with
    | put target entry =>
      simp only [Write.edit, VaultContents.put] at h
      cases hvalid : target.validate with
      | error err => rw [hvalid] at h; cases h
      | ok =>
        rw [hvalid] at h
        cases h
        simp only [Write.key, AList.lookup_insert] at hlook
        cases hlook
        exact ⟨hvalid, rfl⟩
    | delete target =>
      simp only [Write.edit, VaultContents.delete] at h
      split at h
      next =>
        cases h
        simp only [Write.key, AList.lookup_erase] at hlook
        cases hlook
      next => cases h
    | touch target =>
      simp only [Write.edit, VaultContents.touch] at h
      split at h
      next => cases h
      next old hold =>
        cases hopen : old.value.open master with
        | error err => rw [hopen] at h; cases h
        | ok plaintext =>
          rw [hopen] at h
          cases h
          simp only [Write.key, AList.lookup_insert] at hlook
          cases hlook
          exact ⟨(hsealed target old hold).1, rfl⟩
  · rw [Write.lookup_edit_of_ne h hkey] at hlook
    exact hsealed key envelope hlook

-- ════════════════════════════════════════════════════════════════════════
-- The invariant
-- ════════════════════════════════════════════════════════════════════════

def UnlockedState.Sealed (u : UnlockedState) : Prop := u.contents.SealedUnder u.master

/-- The state a call carries until it returns. -/
def HandlePc.opened? : HandlePc → Option UnlockedState
  | .initialising u _ | .peeking u _ => some u
  | _ => none

structure Handle.Sealed (hd : Handle) : Prop where
  state : ∀ u, hd.state = some u → u.Sealed
  opened : ∀ u, hd.pc.opened? = some u → u.Sealed

def VaultFile.Sealed (file : VaultFile) : Prop := file.body.payload.SealedUnder file.body.key

structure Root.Sealed (w : Root) : Prop where
  file : ∀ file, w.file = some file → file.Sealed
  handles : ∀ h hd, w.handles.lookup h = some hd → hd.Sealed

/-- A handle that moves keeps the invariant when the file it may have written
    and its own state do. -/
theorem Root.Sealed.setHandle {w₁ : Root} {hd' : Handle} (inv : w.Sealed)
    (hhandles : w₁.handles = w.handles)
    (hfile : w₁.file = w.file ∨ ∃ u : UnlockedState, u.Sealed ∧ w₁.file = some u.file)
    (hsealed : hd'.Sealed) : (w₁.setHandle h hd').Sealed where
  file file hlook := by
    have hlook' : w₁.file = some file := hlook
    rcases hfile with hsame | ⟨u, hu, hwrote⟩
    · exact inv.file file (hsame ▸ hlook')
    · rw [hwrote] at hlook'
      cases hlook'
      exact hu
  handles j hdj hlook := by
    simp only [Root.setHandle, FiniteMap.lookup_insert_ite, hhandles] at hlook
    split at hlook
    next =>
      cases hlook
      exact hsealed
    next => exact inv.handles j hdj hlook

/-- A step that writes no file and leaves the state of its handle as it is. -/
theorem Root.Sealed.quiet {w₁ : Root} {hd' : Handle} (inv : w.Sealed) (hsealed : hd.Sealed)
    (hhandles : w₁.handles = w.handles) (hfile : w₁.file = w.file)
    (hpc : hd'.pc.opened? = none) (hstate : hd'.state = hd.state) :
    (w₁.setHandle h hd').Sealed := by
  apply inv.setHandle hhandles (Or.inl hfile)
  refine ⟨fun u hu => hsealed.state u (hstate ▸ hu), ?_⟩
  intro u hu
  rw [hpc] at hu
  cases hu

theorem Root.Sealed.setDone {outcome : Except VaultError Unit} (inv : w.Sealed)
    (hsealed : hd.Sealed) : (w.setHandle h (hd.done outcome)).Sealed :=
  inv.quiet hsealed rfl rfl rfl rfl

theorem Root.Sealed.startOpen {openFile : VaultFile → Except VaultError (Bytes × VaultContents)}
    (inv : w.Sealed) (hsealed : hd.Sealed)
    (hopen : ∀ file master contents, openFile file = .ok (master, contents) →
      file.body = ⟨master, contents⟩) : (w.startOpen h hd openFile).Sealed := by
  unfold Root.startOpen
  split
  next => exact inv.setDone hsealed
  next file hfile =>
    split
    next => exact inv.setDone hsealed
    next master contents hok =>
      apply inv.setHandle rfl (Or.inl rfl)
      refine ⟨hsealed.state, ?_⟩
      intro u hu
      cases hu
      have hbody := inv.file file hfile
      rw [VaultFile.Sealed, hopen file master contents hok] at hbody
      exact hbody

theorem Root.Sealed.startWrite {write : Write} {now nowUtc : Int} (inv : w.Sealed)
    (hsealed : hd.Sealed) : (w.startWrite h hd write now nowUtc).Sealed := by
  unfold Root.startWrite
  split
  next => exact inv.setDone hsealed
  next u hstate =>
    split
    next => exact inv.setDone hsealed
    next contents hedit =>
      apply inv.setHandle rfl (Or.inl rfl)
      refine ⟨?_, fun _ h => by cases h⟩
      intro u' hu'
      cases hu'
      exact (hsealed.state u hstate).edit hedit

theorem Root.firstFile_sealed {exportKey salt : Bytes} {suiteVersion : UInt8} {now : Int}
    {u : UnlockedState} (hfirst : Root.firstFile hkdf exportKey suiteVersion salt now = .ok u) :
    u.Sealed := by
  unfold Root.firstFile at hfirst
  cases hderive : deriveMasterKey hkdf exportKey salt suiteVersion with
  | error err => rw [hderive] at hfirst; cases hfirst
  | ok master =>
    rw [hderive] at hfirst
    cases hfirst
    exact VaultContents.sealedUnder_new now master

/-- An unlock or a create that succeeds has opened what it carried. -/
theorem Root.Sealed.setOpened {w₁ : Root} {u : UnlockedState} {version : Nat} (inv : w.Sealed)
    (hhandles : w₁.handles = w.handles) (hfile : w₁.file = w.file) (hu : u.Sealed) :
    (w₁.setHandle h (hd.opened u version)).Sealed := by
  apply inv.setHandle hhandles (Or.inl hfile)
  refine ⟨?_, fun _ h => by cases h⟩
  intro u' hu'
  cases hu'
  exact hu

theorem Root.Sealed.finishWrite {u : UnlockedState} {key : SecretKey} {diskGen : Nat}
    (inv : w.Sealed) (hu : u.Sealed) : (w.finishWrite h hd u key diskGen).Sealed where
  file := inv.file
  handles j hdj hlook := by
    simp only [Root.finishWrite, FiniteMap.lookup_insert_ite] at hlook
    split at hlook
    next =>
      cases hlook
      refine ⟨?_, fun _ h => by cases h⟩
      intro u' hu'
      cases hu'
      exact hu
    next => exact inv.handles j hdj hlook

/-- **Step lemma**: a step of a call keeps the invariant. -/
theorem Root.Sealed.step {c : Call} (inv : w.Sealed) (hsealed : hd.Sealed)
    (hstep : w.step hkdf h hd c hd.pc = some w') : w'.Sealed := by
  have hopened := hsealed.opened
  generalize hd.pc = pc at hstep hopened
  revert hstep hopened
  fun_cases Root.step hkdf w h hd c pc <;> intro hstep hopened
  all_goals try cases hstep
  case case2 hfirst =>
    have hu := Root.firstFile_sealed hfirst
    refine inv.setHandle ?_ (Or.inr ⟨_, hu, ?_⟩) ⟨hsealed.state, ?_⟩
    · rfl
    · rfl
    · intro u hu'
      cases hu'
      exact hu
  case case3 u _ _ => exact inv.setOpened rfl rfl (hopened u rfl)
  case case5 => exact inv.startOpen hsealed fun _ _ _ => VaultFile.openWithExportKey_eq_ok
  case case6 => exact inv.startOpen hsealed fun _ _ _ => VaultFile.openWithKey_map_eq_ok
  case case7 u _ =>
    apply inv.setOpened rfl rfl
    exact hopened u rfl
  case case8 =>
    apply inv.setHandle rfl (Or.inl rfl)
    exact ⟨fun _ h => (by cases h), hsealed.opened⟩
  case case9 => exact inv.startWrite hsealed
  case case12 =>
    obtain ⟨u, -, rfl⟩ := Option.map_eq_some_iff.mp hstep
    split
    next => exact inv.quiet hsealed rfl rfl rfl rfl
    next => exact inv.quiet hsealed rfl rfl rfl rfl
  case case13 =>
    obtain ⟨u, hstate, rfl⟩ := Option.map_eq_some_iff.mp hstep
    refine inv.setHandle ?_ (Or.inr ⟨u, hsealed.state u hstate, ?_⟩) ⟨hsealed.state, fun _ h => by cases h⟩
    · rfl
    · rfl
  case case14 =>
    obtain ⟨u, hstate, rfl⟩ := Option.map_eq_some_iff.mp hstep
    split
    next => exact inv.finishWrite (hsealed.state u hstate)
    next => exact inv.quiet hsealed rfl rfl rfl rfl
  case case23 hfirst =>
    refine inv.setHandle ?_ (Or.inr ⟨_, Root.firstFile_sealed hfirst, ?_⟩) ⟨hsealed.state, fun _ h => by cases h⟩
    · rfl
    · rfl
  case case26 =>
    obtain ⟨u, hstate, rfl⟩ := Option.map_eq_some_iff.mp hstep
    refine inv.setHandle ?_ (Or.inr ⟨u, hsealed.state u hstate, ?_⟩) ⟨hsealed.state, fun _ h => by cases h⟩
    · rfl
    · rfl
  all_goals exact inv.quiet hsealed rfl rfl rfl rfl

theorem Root.Sealed.next {a : Action} (inv : w.Sealed) (hnext : w.next hkdf a = some w') :
    w'.Sealed := by
  have hlocked : Handle.locked.Sealed := ⟨fun _ h => (by cases h), fun _ h => (by cases h)⟩
  revert hnext
  fun_cases Root.next hkdf w a <;> intro hnext
  all_goals try cases hnext
  · exact inv.quiet hlocked rfl rfl rfl rfl
  · exact inv.setDone hlocked
  · exact inv.quiet hlocked rfl rfl rfl rfl
  · obtain ⟨hd, hlook, hstep⟩ := Option.bind_eq_some_iff.mp hnext
    exact inv.step (inv.handles _ hd hlook) hstep

/-- **The file of every reachable root** is one whose entries open under the key
    the file opens with. -/
theorem sealed_under (hreach : (vault hkdf).Reachable w) : w.Sealed := by
  apply hreach.invariant
  · rintro t rfl
    refine ⟨fun _ h => (by cases h), ?_⟩
    intro h hd hlook
    cases hlook
  · exact fun t a t' inv _ hnext => inv.next hnext

end Botwork.Vault
