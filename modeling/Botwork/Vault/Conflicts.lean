import Botwork.Vault.Handles

/-!
# No lost update

What the last successful write of a key left there should be what a fresh unlock
shows, and a handle that is behind the file should never overwrite it.  Both
rest on the generation a handle remembers belonging to the bytes it has read.
The code reads the file before the generation, writes generation 0 at the end of
`create` whatever has happened since, and leaves the generation alone when a
write fails after it has replaced the file.  `no_lost_update` proves the
property of every run in which these windows are not hit.

## Main definitions

- `NoLostUpdate` — successful writes are kept, overwrites are current
- `UpdateGuard` — the steps that lose no update
- `HandleInv` — what the generation of a handle says about its contents
-/

namespace Botwork.Vault

open Botwork.Foundations

variable {hkdf : Bytes → Bytes → UInt8 → Bytes} {w w' : Root} {h : Nat} {hd : Handle}

-- ════════════════════════════════════════════════════════════════════════
-- The property
-- ════════════════════════════════════════════════════════════════════════

/-- The key of a write that has replaced the file and not returned yet. -/
def HandlePc.bumping? : HandlePc → Option SecretKey
  | .bumping key _ => some key
  | _ => none

/-- A write of the key has replaced the file and not returned yet. -/
def InFlight (w : Root) (key : SecretKey) : Prop :=
  ∃ h hd, w.handles.lookup h = some hd ∧ hd.pc.bumping? = some key

/-- Successful writes are what a fresh unlock shows, and a handle that is about
    to overwrite the file holds its latest contents. -/
structure NoLostUpdate (w : Root) : Prop where
  kept : ∀ key left, w.lastOk.lookup key = some left → w.shown key = left ∨ InFlight w key
  current : ∀ h hd key diskGen, w.handles.lookup h = some hd → hd.pc = .replacing key diskGen →
    hd.basis = w.version

-- ════════════════════════════════════════════════════════════════════════
-- The guard
-- ════════════════════════════════════════════════════════════════════════

/-- The condition on one step of a call. -/
def callGuard (w : Root) (hd : Handle) : Call → HandlePc → Bool
  | .createWrite, .creating _ _ _ _ | .failLate, .creating _ _ _ _ => w.file.isNone
  | .createInit, .initialising _ _ | .failLate, .initialising _ _ => w.diskGen = 0
  | .peek, .peeking _ version => w.bumped ≤ version
  | .write write _ _, .idle => hd.unsaved.all (· = write.key)
  | .bump, .bumping _ diskGen => diskGen + 1 < u64Bound
  | .fail, .bumping _ _ | .failLate, .replacing _ _ | .failLate, .bumping _ _ => false
  | _, _ => true

/-- The steps that lose no update. -/
def UpdateGuard (w : Root) : Action → Prop
  | .call h c => ∀ hd ∈ w.handles.lookup h, callGuard w hd c hd.pc = true
  | .new _ | .create _ _ _ _ _ => True

instance (w : Root) : (a : Action) → Decidable (UpdateGuard w a)
  | .call h c =>
    inferInstanceAs (Decidable (∀ hd ∈ w.handles.lookup h, callGuard w hd c hd.pc = true))
  | .new _ | .create _ _ _ _ _ => isTrue trivial

-- ════════════════════════════════════════════════════════════════════════
-- Handles
-- ════════════════════════════════════════════════════════════════════════

/-- What the handles see of a root. -/
structure View where
  diskGen : Nat
  version : Nat
  shown : SecretKey → Option EntryEnvelope
  /-- the file has been replaced and its generation not written yet -/
  window : Prop

def Root.view (w : Root) : View := ⟨w.diskGen, w.version, w.shown, ∃ key, InFlight w key⟩

/-- The contents are those of the file. -/
def UnlockedState.Shows (u : UnlockedState) (v : View) : Prop :=
  ∀ key, u.contents.entries.lookup key = v.shown key

/-- The contents are those of the file, up to the write in progress and writes
    that have failed. -/
structure Fresh (v : View) (hd : Handle) (u : UnlockedState) : Prop where
  basis : hd.basis = v.version
  agrees : ∀ key, key ∉ hd.unsaved → hd.pc.key? ≠ some key →
    u.contents.entries.lookup key = v.shown key

/-- What the point a call has reached says. -/
def PcInv (v : View) (hd : Handle) : HandlePc → Prop
  | .initialising u version =>
    u.generation = 0 ∧ (version = v.version → u.Shows v) ∧ version ≤ v.version ∧
      (v.diskGen = 0 → ¬ v.window → version = v.version)
  | .peeking u version => version ≤ v.version ∧ (version = v.version → u.Shows v)
  | .checking _ diskGen => diskGen = v.diskGen
  | .replacing _ diskGen => diskGen = v.diskGen ∧ ∃ u, hd.state = some u ∧ u.generation = diskGen
  | .bumping _ diskGen =>
    diskGen = v.diskGen ∧ hd.basis = v.version ∧ ∃ u, hd.state = some u ∧ u.Shows v
  | _ => True

/-- A handle whose generation is the one on disk holds the contents of the file. -/
structure HandleInv (v : View) (hd : Handle) : Prop where
  generation : ∀ u, hd.state = some u → u.generation ≤ v.diskGen
  fresh : ∀ u, hd.state = some u → u.generation = v.diskGen → ¬ v.window → Fresh v hd u
  unsaved : ∀ key, hd.pc.key? = some key → ∀ k ∈ hd.unsaved, k = key
  pc : PcInv v hd hd.pc

/-- A call returns without having started a write. -/
theorem HandleInv.done {v : View} (inv : HandleInv v hd) (hkey : hd.pc.key? = none)
    (outcome : Except VaultError Unit) : HandleInv v (hd.done outcome) where
  generation := inv.generation
  fresh u hu hgen hwin :=
    ⟨(inv.fresh u hu hgen hwin).basis, fun key hunsaved _ =>
      (inv.fresh u hu hgen hwin).agrees key hunsaved (by rw [hkey]; exact Option.some_ne_none key |>.symm)⟩
  unsaved key h := by cases h
  pc := trivial

/-- A write fails on I/O: its key counts as unsaved from now on. -/
theorem HandleInv.failWrite {v : View} {key : SecretKey} (inv : HandleInv v hd)
    (hkey : hd.pc.key? = some key) (err : VaultError) : HandleInv v (hd.failWrite key err) where
  generation := inv.generation
  fresh u hu hgen hwin := by
    have hfresh := inv.fresh u hu hgen hwin
    refine ⟨hfresh.basis, fun k hunsaved _ => ?_⟩
    obtain ⟨hne, hold⟩ := not_or.mp (List.mem_cons.not.mp hunsaved)
    refine hfresh.agrees k hold ?_
    rw [hkey]
    exact fun heq => hne (Option.some.inj heq).symm
  unsaved k h := by cases h
  pc := trivial

/-- A handle that is behind stays behind. -/
theorem HandleInv.conflict {v : View} (inv : HandleInv v hd)
    (hbehind : ∀ u, hd.state = some u → u.generation ≠ v.diskGen) (err : VaultError) :
    HandleInv v (hd.done (.error err)) where
  generation := inv.generation
  fresh u hu hgen _ := absurd hgen (hbehind u hu)
  unsaved key h := by cases h
  pc := trivial

/-- A handle takes over what it has read or written. -/
theorem HandleInv.opened {v : View} {u : UnlockedState} {version : Nat}
    (hle : u.generation ≤ v.diskGen)
    (hfresh : u.generation = v.diskGen → ¬ v.window → version = v.version ∧ u.Shows v) :
    HandleInv v (hd.opened u version) where
  generation u' hu' := by cases hu'; exact hle
  fresh u' hu' hgen hwin := by
    cases hu'
    obtain ⟨hversion, hshows⟩ := hfresh hgen hwin
    exact ⟨hversion, fun key _ _ => hshows key⟩
  unsaved key h := by cases h
  pc := trivial

/-- A handle that holds nothing is between two calls or creates the file. -/
theorem HandleInv.closed {v : View} (hstate : hd.state = none) (hkey : hd.pc.key? = none)
    (hpc : PcInv v hd hd.pc) : HandleInv v hd where
  generation u hu := by rw [hstate] at hu; cases hu
  fresh u hu := by rw [hstate] at hu; cases hu
  unsaved key h := by rw [hkey] at h; cases h
  pc := hpc

/-- An unlock has read the file of the root. -/
theorem HandleInv.peeking {v : View} {u : UnlockedState} (inv : HandleInv v hd)
    (hkey : hd.pc.key? = none) (hshows : u.Shows v) :
    HandleInv v { hd with pc := .peeking u v.version } where
  generation := inv.generation
  fresh u' hu hgen hwin :=
    ⟨(inv.fresh u' hu hgen hwin).basis, fun key hunsaved _ =>
      (inv.fresh u' hu hgen hwin).agrees key hunsaved (by simp [hkey])⟩
  unsaved key h := by cases h
  pc := ⟨le_rfl, fun _ => hshows⟩

/-- A write has edited the contents in memory. -/
theorem HandleInv.acquiring {v : View} {u : UnlockedState} {write : Write} {now nowUtc : Int}
    {contents : VaultContents} (inv : HandleInv v hd) (hkey : hd.pc.key? = none)
    (hstate : hd.state = some u) (hedit : write.edit u.contents u.master now nowUtc = .ok contents)
    (hunsaved : ∀ k ∈ hd.unsaved, k = write.key) :
    HandleInv v { hd with
      pc := .acquiring write.key, state := some { u with contents := contents } } where
  generation u' hu' := by
    cases hu'
    exact inv.generation u hstate
  fresh u' hu' hgen hwin := by
    cases hu'
    have hfresh := inv.fresh u hstate hgen hwin
    refine ⟨hfresh.basis, fun key hkey' hne => ?_⟩
    have hne' : key ≠ write.key := fun heq => hne (congrArg some heq.symm)
    rw [Write.lookup_edit_of_ne hedit hne']
    exact hfresh.agrees key hkey' (by simp [hkey])
  unsaved key hk k hmem := by
    cases hk
    exact hunsaved k hmem
  pc := trivial

/-- A write moves on without changing what the handle holds. -/
theorem HandleInv.advance {v : View} {pc : HandlePc} (inv : HandleInv v hd)
    (hkey : pc.key? = hd.pc.key?) (hpc : PcInv v { hd with pc := pc } pc) :
    HandleInv v { hd with pc := pc } where
  generation := inv.generation
  fresh u hu hgen hwin :=
    ⟨(inv.fresh u hu hgen hwin).basis, fun key hunsaved hne =>
      (inv.fresh u hu hgen hwin).agrees key hunsaved (hkey ▸ hne)⟩
  unsaved key h := inv.unsaved key (hkey ▸ h)
  pc := hpc

-- ════════════════════════════════════════════════════════════════════════
-- The invariant
-- ════════════════════════════════════════════════════════════════════════

/-- A call stands where it can stand before there is a file. -/
def HandlePc.early : HandlePc → Bool
  | .idle | .creating _ _ _ _ => true
  | _ => false

/-- The handle has no part in a file. -/
def Handle.early (hd : Handle) : Prop := hd.state = none ∧ hd.pc.early = true

/-- The invariant of guarded runs. -/
structure VaultInv (w : Root) : Prop where
  handles : ∀ h hd, w.handles.lookup h = some hd → HandleInv w.view hd
  lock : ∀ h hd, w.handles.lookup h = some hd → hd.pc.locked = true → w.lockedBy = some h
  bumped : (¬ ∃ key, InFlight w key) → w.bumped = w.version
  kept : ∀ key left, w.lastOk.lookup key = some left → w.shown key = left ∨ InFlight w key
  absent : w.file = none → (∀ key, w.lastOk.lookup key = none) ∧
    ∀ h hd, w.handles.lookup h = some hd → hd.early

theorem vaultInv_init : VaultInv Root.init where
  handles h hd hlook := by simp [Root.init] at hlook
  lock h hd hlook := by simp [Root.init] at hlook
  bumped _ := rfl
  kept key left hlook := by simp [Root.init] at hlook
  absent _ := ⟨fun key => by simp [Root.init], fun h hd hlook => by simp [Root.init] at hlook⟩

/-- Only the holder of the lock can be between replace and bump. -/
theorem VaultInv.inFlight_holder (inv : VaultInv w) {key : SecretKey}
    (hlocked : w.lockedBy = some h) (hlook : w.handles.lookup h = some hd)
    (hflight : InFlight w key) : hd.pc.bumping? = some key := by
  obtain ⟨h', hd', hlook', hbump⟩ := hflight
  have hlock' : hd'.pc.locked = true := by
    cases hpc : hd'.pc with
    | bumping => rfl
    | _ => rw [hpc] at hbump; cases hbump
  have heq : some h = some h' := hlocked.symm.trans (inv.lock h' hd' hlook' hlock')
  cases heq
  rw [hlook] at hlook'
  cases hlook'
  exact hbump

/-- Writes between replace and bump, after a handle outside that window moves. -/
theorem inFlight_setHandle {w₁ : Root} {hd' : Handle} (hhandles : w₁.handles = w.handles)
    (hold : ∀ hd, w.handles.lookup h = some hd → hd.pc.bumping? = none)
    (hnew : hd'.pc.bumping? = none) (key : SecretKey) :
    InFlight (w₁.setHandle h hd') key ↔ InFlight w key := by
  constructor
  · rintro ⟨j, hdj, hlook, hbump⟩
    simp only [Root.setHandle, FiniteMap.lookup_insert_ite, hhandles] at hlook
    split at hlook
    next => cases hlook; rw [hnew] at hbump; cases hbump
    next => exact ⟨j, hdj, hlook, hbump⟩
  · rintro ⟨j, hdj, hlook, hbump⟩
    refine ⟨j, hdj, ?_, hbump⟩
    simp only [Root.setHandle, FiniteMap.lookup_insert_ite, hhandles]
    rw [if_neg]
    · exact hlook
    · rintro rfl
      rw [hold hdj hlook] at hbump
      cases hbump

/-- **Quiet steps**: a step that writes no file, and leaves the generation as it
    is, keeps the invariant when it keeps that of its own handle. -/
theorem VaultInv.quiet {w₁ : Root} {hd' : Handle} (inv : VaultInv w)
    (hhandles : w₁.handles = w.handles) (hfile : w₁.file = w.file)
    (hversion : w₁.version = w.version) (hbumped : w₁.bumped = w.bumped)
    (hlast : w₁.lastOk = w.lastOk) (hgen : w₁.diskGen = w.diskGen)
    (hold : ∀ hd, w.handles.lookup h = some hd → hd.pc.bumping? = none)
    (hnew : hd'.pc.bumping? = none) (hinv : HandleInv w.view hd')
    (hlock : ∀ j hdj, j ≠ h → w.handles.lookup j = some hdj → hdj.pc.locked = true →
      w₁.lockedBy = some j)
    (hlock' : hd'.pc.locked = true → w₁.lockedBy = some h)
    (hearly : w.file = none → hd'.early) : VaultInv (w₁.setHandle h hd') := by
  have hflight := inFlight_setHandle hhandles hold hnew
  have hshown : (w₁.setHandle h hd').shown = w.shown := by
    funext key
    simp only [Root.shown, Root.setHandle, hfile]
  have hview : (w₁.setHandle h hd').view = w.view := by
    have hgen' : (w₁.setHandle h hd').diskGen = w.diskGen := hgen
    have hversion' : (w₁.setHandle h hd').version = w.version := hversion
    simp only [Root.view, hgen', hversion', hshown, hflight]
  have hcases : ∀ j hdj, (w₁.setHandle h hd').handles.lookup j = some hdj →
      j = h ∧ hdj = hd' ∨ j ≠ h ∧ w.handles.lookup j = some hdj := by
    intro j hdj hlook
    simp only [Root.setHandle, FiniteMap.lookup_insert_ite, hhandles] at hlook
    split at hlook
    next heq => cases hlook; exact Or.inl ⟨heq, rfl⟩
    next hne => exact Or.inr ⟨hne, hlook⟩
  constructor
  · intro j hdj hlook
    rw [hview]
    rcases hcases j hdj hlook with ⟨-, rfl⟩ | ⟨-, hold⟩
    · exact hinv
    · exact inv.handles j hdj hold
  · intro j hdj hlook hlocked
    rcases hcases j hdj hlook with ⟨rfl, rfl⟩ | ⟨hne, hold⟩
    · exact hlock' hlocked
    · exact hlock j hdj hne hold hlocked
  · intro hnone
    have hb : (w₁.setHandle h hd').bumped = w.bumped := hbumped
    have hv : (w₁.setHandle h hd').version = w.version := hversion
    rw [hb, hv]
    exact inv.bumped (by simpa only [hflight] using hnone)
  · intro key left hleft
    rw [hshown, hflight]
    exact inv.kept key left (hlast ▸ hleft)
  · intro hnone
    have hnone' : w.file = none := hfile ▸ hnone
    obtain ⟨hempty, hall⟩ := inv.absent hnone'
    refine ⟨fun key => ?_, fun j hdj hlook => ?_⟩
    · have hl : (w₁.setHandle h hd').lastOk = w.lastOk := hlast
      rw [hl]
      exact hempty key
    · rcases hcases j hdj hlook with ⟨-, rfl⟩ | ⟨-, hold⟩
      · exact hearly hnone'
      · exact hall j hdj hold

theorem VaultInv.state_eq_none (inv : VaultInv w) (hlook : w.handles.lookup h = some hd)
    (hnone : w.file = none) : hd.state = none := ((inv.absent hnone).2 h hd hlook).1

theorem VaultInv.file_ne_none (inv : VaultInv w) (hlook : w.handles.lookup h = some hd)
    (hlate : hd.pc.early = false) : w.file ≠ none := by
  intro hnone
  have hearly := ((inv.absent hnone).2 h hd hlook).2
  rw [hlate] at hearly
  cases hearly

theorem Handle.early_done (hstate : hd.state = none) (outcome : Except VaultError Unit) :
    (hd.done outcome).early := ⟨hstate, rfl⟩

/-- A step of a handle that touches neither file and not the lock. -/
theorem VaultInv.set {hd' : Handle} (inv : VaultInv w) (hlook : w.handles.lookup h = some hd)
    (hold : hd.pc.bumping? = none) (hnew : hd'.pc.bumping? = none) (hinv : HandleInv w.view hd')
    (hlock : hd'.pc.locked = true → hd.pc.locked = true)
    (hearly : w.file = none → hd'.early) : VaultInv (w.setHandle h hd') := by
  refine inv.quiet rfl rfl rfl rfl rfl rfl ?_ hnew hinv ?_ ?_ hearly
  · intro hd₀ hlook₀
    rw [hlook] at hlook₀
    cases hlook₀
    exact hold
  · exact fun j hdj _ hlookj hlockedj => inv.lock j hdj hlookj hlockedj
  · exact fun hlocked => inv.lock h hd hlook (hlock hlocked)

/-- A step of the holder of the lock that releases it and writes nothing. -/
theorem VaultInv.release {hd' : Handle} (inv : VaultInv w) (hlook : w.handles.lookup h = some hd)
    (hold : hd.pc.bumping? = none) (hlocked : hd.pc.locked = true) (hidle : hd'.pc = .idle)
    (hinv : HandleInv w.view hd') (hearly : w.file = none → hd'.early) :
    VaultInv (w.unlock.setHandle h hd') := by
  refine inv.quiet rfl rfl rfl rfl rfl rfl ?_ (by rw [hidle]; rfl) hinv ?_ ?_ hearly
  · intro hd₀ hlook₀
    rw [hlook] at hlook₀
    cases hlook₀
    exact hold
  · intro j hdj hne hlookj hlockedj
    have hj := inv.lock j hdj hlookj hlockedj
    rw [inv.lock h hd hlook hlocked] at hj
    exact absurd (Option.some.inj hj).symm hne
  · intro h'
    rw [hidle] at h'
    cases h'

-- ════════════════════════════════════════════════════════════════════════
-- Create
-- ════════════════════════════════════════════════════════════════════════

theorem Handle.early.handleInv (hearly : hd.early) (v : View) : HandleInv v hd := by
  obtain ⟨hstate, hpc⟩ := hearly
  cases hcase : hd.pc with
  | idle => exact HandleInv.closed hstate (by rw [hcase]; rfl) (by rw [hcase]; trivial)
  | creating => exact HandleInv.closed hstate (by rw [hcase]; rfl) (by rw [hcase]; trivial)
  | _ => rw [hcase] at hpc; cases hpc

theorem Handle.early.locked_eq_false (hearly : hd.early) : hd.pc.locked = false := by
  obtain ⟨-, hpc⟩ := hearly
  cases hcase : hd.pc with
  | idle | creating => rfl
  | _ => rw [hcase] at hpc; cases hpc

/-- The first file of an empty root. -/
theorem vaultInv_putFirstFile {u : UnlockedState} {hd' : Handle} (inv : VaultInv w)
    (hnone : w.file = none)
    (hinv : ∀ window, HandleInv ⟨w.diskGen, w.version + 1, u.contents.entries.lookup, window⟩ hd')
    (hlocked : hd'.pc.locked = false) : VaultInv ((w.putFirstFile u).setHandle h hd') := by
  obtain ⟨hempty, hall⟩ := inv.absent hnone
  have hcases : ∀ j hdj, ((w.putFirstFile u).setHandle h hd').handles.lookup j = some hdj →
      hdj = hd' ∨ hdj.early := by
    intro j hdj hlook
    simp only [Root.setHandle, FiniteMap.lookup_insert_ite] at hlook
    split at hlook
    next => cases hlook; exact Or.inl rfl
    next => exact Or.inr (hall j hdj hlook)
  refine ⟨?_, ?_, fun _ => rfl, ?_, ?_⟩
  · intro j hdj hlook
    rcases hcases j hdj hlook with rfl | hearly
    · exact hinv _
    · exact hearly.handleInv _
  · intro j hdj hlook hlockedj
    rcases hcases j hdj hlook with rfl | hearly
    · rw [hlocked] at hlockedj; cases hlockedj
    · rw [hearly.locked_eq_false] at hlockedj; cases hlockedj
  · intro key left hleft
    have hleft' : w.lastOk.lookup key = some left := hleft
    rw [hempty key] at hleft'
    cases hleft'
  · intro hfile
    cases hfile

theorem firstFile_eq_ok {exportKey salt : Bytes} {suiteVersion : UInt8} {now : Int}
    {u : UnlockedState} (hfirst : Root.firstFile hkdf exportKey suiteVersion salt now = .ok u) :
    u.generation = 0 := by
  unfold Root.firstFile at hfirst
  cases hderive : deriveMasterKey hkdf exportKey salt suiteVersion with
  | error err => rw [hderive] at hfirst; cases hfirst
  | ok master => rw [hderive] at hfirst; cases hfirst; rfl

theorem vaultInv_createInit {u : UnlockedState} {version : Nat} (inv : VaultInv w)
    (hlook : w.handles.lookup h = some hd) (hpc : hd.pc = .initialising u version)
    (hgen : w.diskGen = 0) {hd' : Handle} (hd'_eq : hd' = hd.opened u version ∨
      hd' = hd.done (.error .io)) : VaultInv ({ w with genFile := some 0 }.setHandle h hd') := by
  have hold := inv.handles h hd hlook
  have hpcInv : PcInv w.view hd (.initialising u version) := hpc ▸ hold.pc
  obtain ⟨hzero, hshows, -, hversion⟩ := hpcInv
  have hpresent : w.file ≠ none := inv.file_ne_none hlook (by rw [hpc]; rfl)
  have hinv : HandleInv w.view hd' := by
    rcases hd'_eq with rfl | rfl
    · refine HandleInv.opened (by rw [hzero]; exact Nat.zero_le _) fun _ hwin => ?_
      have heq := hversion hgen hwin
      exact ⟨heq, hshows heq⟩
    · exact hold.done (by rw [hpc]; rfl) _
  have hidle : hd'.pc = .idle := by rcases hd'_eq with rfl | rfl <;> rfl
  refine inv.quiet rfl rfl rfl rfl rfl hgen.symm ?_ (by rw [hidle]; rfl) hinv ?_ ?_ ?_
  · intro hd₀ hlook₀
    rw [hlook] at hlook₀
    cases hlook₀
    rw [hpc]
    rfl
  · exact fun j hdj _ hlookj hlockedj => inv.lock j hdj hlookj hlockedj
  · intro hlocked
    rw [hidle] at hlocked
    cases hlocked
  · exact fun hnone => absurd hnone hpresent

-- ════════════════════════════════════════════════════════════════════════
-- Unlock
-- ════════════════════════════════════════════════════════════════════════

theorem vaultInv_startOpen {openFile : VaultFile → Except VaultError (Bytes × VaultContents)}
    (inv : VaultInv w) (hlook : w.handles.lookup h = some hd) (hpc : hd.pc = .idle)
    (hopen : ∀ file master contents, openFile file = .ok (master, contents) →
      file.body.payload = contents) : VaultInv (w.startOpen h hd openFile) := by
  have hold := inv.handles h hd hlook
  have hdone : ∀ outcome, VaultInv (w.setHandle h (hd.done outcome)) := by
    intro outcome
    refine inv.set hlook (by rw [hpc]; rfl) rfl (hold.done (by rw [hpc]; rfl) _) (by simp [Handle.done, HandlePc.locked]) ?_
    exact fun hnone => Handle.early_done (inv.state_eq_none hlook hnone) _
  unfold Root.startOpen
  split
  next => exact hdone _
  next file hfile =>
    split
    next => exact hdone _
    next master contents hok =>
      refine inv.set hlook (by rw [hpc]; rfl) rfl (hold.peeking (by rw [hpc]; rfl) ?_)
        (by simp [HandlePc.locked]) ?_
      · intro key
        have hpayload := hopen file master contents hok
        simp only [Root.view, Root.shown, hfile, Option.bind_some, hpayload]
      · intro hnone
        rw [hfile] at hnone
        cases hnone

theorem vaultInv_peek {u : UnlockedState} {version : Nat} (inv : VaultInv w)
    (hlook : w.handles.lookup h = some hd) (hpc : hd.pc = .peeking u version)
    (hguard : w.bumped ≤ version) :
    VaultInv (w.setHandle h (hd.opened { u with generation := w.diskGen } version)) := by
  have hpcInv : PcInv w.view hd (.peeking u version) := hpc ▸ (inv.handles h hd hlook).pc
  obtain ⟨hle, hshows⟩ := hpcInv
  refine inv.set hlook (by rw [hpc]; rfl) rfl ?_ (by simp [Handle.opened, Handle.done, HandlePc.locked]) ?_
  · refine HandleInv.opened le_rfl fun _ hwin => ?_
    -- nobody is between replace and bump, so the file that was read is the last one
    have hbumped : w.bumped = w.version := inv.bumped hwin
    have heq : version = w.version := le_antisymm hle (hbumped ▸ hguard)
    exact ⟨heq, hshows heq⟩
  · exact fun hnone => absurd hnone (inv.file_ne_none hlook (by rw [hpc]; rfl))

-- ════════════════════════════════════════════════════════════════════════
-- Writes
-- ════════════════════════════════════════════════════════════════════════

theorem vaultInv_startWrite {write : Write} {now nowUtc : Int} (inv : VaultInv w)
    (hlook : w.handles.lookup h = some hd) (hpc : hd.pc = .idle)
    (hunsaved : ∀ key ∈ hd.unsaved, key = write.key) :
    VaultInv (w.startWrite h hd write now nowUtc) := by
  have hold := inv.handles h hd hlook
  have hkey : hd.pc.key? = none := by rw [hpc]; rfl
  have hbump : hd.pc.bumping? = none := by rw [hpc]; rfl
  have hdone : ∀ outcome, VaultInv (w.setHandle h (hd.done outcome)) := by
    intro outcome
    refine inv.set hlook hbump rfl (hold.done hkey _) (by simp [Handle.done, HandlePc.locked]) ?_
    exact fun hnone => Handle.early_done (inv.state_eq_none hlook hnone) _
  unfold Root.startWrite
  split
  next => exact hdone _
  next u hstate =>
    split
    next => exact hdone _
    next contents hedit =>
      refine inv.set hlook hbump rfl (hold.acquiring hkey hstate hedit hunsaved)
        (by simp [HandlePc.locked]) ?_
      intro hnone
      rw [inv.state_eq_none hlook hnone] at hstate
      cases hstate

theorem vaultInv_acquire {key : SecretKey} (inv : VaultInv w)
    (hlook : w.handles.lookup h = some hd) (hpc : hd.pc = .acquiring key)
    (hfree : w.lockedBy = none) :
    VaultInv ({ w with lockedBy := some h, genFile := some w.diskGen }.setHandle h
      { hd with pc := .checking key w.diskGen }) := by
  have hold := inv.handles h hd hlook
  refine inv.quiet rfl rfl rfl rfl rfl rfl ?_ rfl (hold.advance (by rw [hpc]; rfl) rfl) ?_
    (fun _ => rfl) ?_
  · intro hd₀ hlook₀
    rw [hlook] at hlook₀
    cases hlook₀
    rw [hpc]
    rfl
  · intro j hdj _ hlookj hlockedj
    have hj := inv.lock j hdj hlookj hlockedj
    rw [hfree] at hj
    cases hj
  · exact fun hnone => absurd hnone (inv.file_ne_none hlook (by rw [hpc]; rfl))

theorem vaultInv_check {key : SecretKey} {diskGen : Nat} {u : UnlockedState} (inv : VaultInv w)
    (hlook : w.handles.lookup h = some hd) (hpc : hd.pc = .checking key diskGen)
    (hstate : hd.state = some u) :
    VaultInv (if diskGen ≠ u.generation then
        w.unlock.setHandle h (hd.done (.error (.conflict u.generation diskGen)))
      else w.setHandle h { hd with pc := .replacing key diskGen }) := by
  have hold := inv.handles h hd hlook
  have hpcInv : PcInv w.view hd (.checking key diskGen) := hpc ▸ hold.pc
  have hdisk : diskGen = w.diskGen := hpcInv
  have hpresent := inv.file_ne_none hlook (by rw [hpc]; rfl)
  have hbump : hd.pc.bumping? = none := by rw [hpc]; rfl
  split
  next hne =>
    refine inv.release hlook hbump (by rw [hpc]; rfl) rfl (hold.conflict ?_ _)
      fun hnone => absurd hnone hpresent
    intro u' hu' heq
    rw [hstate] at hu'
    cases hu'
    exact hne (hdisk.trans heq.symm)
  next heq =>
    refine inv.set hlook hbump rfl (hold.advance (by rw [hpc]; rfl) ⟨hdisk, u, hstate, ?_⟩)
      (fun _ => by rw [hpc]; rfl) fun hnone => absurd hnone hpresent
    exact (not_not.mp heq).symm

/-- What `replacing` knows: the handle holds the latest contents. -/
theorem VaultInv.fresh_of_replacing {key : SecretKey} {diskGen : Nat} (inv : VaultInv w)
    (hlook : w.handles.lookup h = some hd) (hpc : hd.pc = .replacing key diskGen) :
    ∃ u, hd.state = some u ∧ Fresh w.view hd u := by
  have hold := inv.handles h hd hlook
  have hpcInv : PcInv w.view hd (.replacing key diskGen) := hpc ▸ hold.pc
  obtain ⟨hdisk, u, hstate, hgen⟩ := hpcInv
  refine ⟨u, hstate, hold.fresh u hstate (hgen.trans hdisk) ?_⟩
  rintro ⟨key', hflight⟩
  have hlocked := inv.lock h hd hlook (by rw [hpc]; rfl)
  have hbump := inv.inFlight_holder hlocked hlook hflight
  rw [hpc] at hbump
  cases hbump

theorem vaultInv_replace {key : SecretKey} {diskGen : Nat} {u : UnlockedState} (inv : VaultInv w)
    (hlook : w.handles.lookup h = some hd) (hpc : hd.pc = .replacing key diskGen)
    (hstate : hd.state = some u) :
    VaultInv ((w.putFile u).setHandle h
      { hd with pc := .bumping key diskGen, basis := w.version + 1 }) := by
  have hold := inv.handles h hd hlook
  have hpcInv : PcInv w.view hd (.replacing key diskGen) := hpc ▸ hold.pc
  have hdisk : diskGen = w.diskGen := hpcInv.1
  have hlocked : w.lockedBy = some h := inv.lock h hd hlook (by rw [hpc]; rfl)
  have hkey : hd.pc.key? = some key := by rw [hpc]; rfl
  obtain ⟨u', hu', hfresh⟩ := inv.fresh_of_replacing hlook hpc
  rw [hstate] at hu'
  cases hu'
  generalize hw' : (w.putFile u).setHandle h
    { hd with pc := .bumping key diskGen, basis := w.version + 1 } = w'
  have hself : w'.handles.lookup h =
      some { hd with pc := .bumping key diskGen, basis := w.version + 1 } := by
    rw [← hw']
    exact AList.lookup_insert _
  have hflight : InFlight w' key := ⟨h, _, hself, rfl⟩
  have hview : w'.view = ⟨w.diskGen, w.version + 1, u.contents.entries.lookup, True⟩ := by
    have hwindow : (∃ key, InFlight w' key) = True := eq_true ⟨key, hflight⟩
    rw [Root.view, hwindow, ← hw']
    rfl
  have hcases : ∀ j hdj, w'.handles.lookup j = some hdj →
      (j = h ∧ hdj = { hd with pc := .bumping key diskGen, basis := w.version + 1 }) ∨
        j ≠ h ∧ w.handles.lookup j = some hdj := by
    intro j hdj hlookj
    rw [← hw'] at hlookj
    simp only [Root.setHandle, Root.putFile, FiniteMap.lookup_insert_ite] at hlookj
    split at hlookj
    next heq => cases hlookj; exact Or.inl ⟨heq, rfl⟩
    next hne => exact Or.inr ⟨hne, hlookj⟩
  constructor
  · intro j hdj hlookj
    rw [hview]
    rcases hcases j hdj hlookj with ⟨-, rfl⟩ | ⟨hne, hlookj⟩
    · refine ⟨hold.generation, fun _ _ _ hwin => absurd trivial hwin, ?_, ?_⟩
      · intro key' hkey'
        cases hkey'
        exact hold.unsaved key hkey
      · exact ⟨hdisk, rfl, u, hstate, fun _ => rfl⟩
    · have hj := inv.handles j hdj hlookj
      refine ⟨hj.generation, fun _ _ _ hwin => absurd trivial hwin, hj.unsaved, ?_⟩
      -- every other handle is behind the new file, and none holds the lock
      have hpcj := hj.pc
      cases hcase : hdj.pc with
      | idle | creating | acquiring => trivial
      | initialising u₁ version =>
        rw [hcase] at hpcj
        obtain ⟨hzero, -, hle, -⟩ := hpcj
        have hle' : version ≤ w.version := hle
        refine ⟨hzero, fun heq => ?_, Nat.le_succ_of_le hle', fun _ hwin => absurd trivial hwin⟩
        have heq' : version = w.version + 1 := heq
        omega
      | peeking u₁ version =>
        rw [hcase] at hpcj
        have hle : version ≤ w.version := hpcj.1
        refine ⟨Nat.le_succ_of_le hle, fun heq => ?_⟩
        have heq' : version = w.version + 1 := heq
        omega
      | checking | replacing | bumping =>
        have hlockj := inv.lock j hdj hlookj (by rw [hcase]; rfl)
        rw [hlocked] at hlockj
        exact absurd (Option.some.inj hlockj).symm hne
  · intro j hdj hlookj hlockedj
    have hsame : w'.lockedBy = w.lockedBy := by rw [← hw']; rfl
    rw [hsame]
    rcases hcases j hdj hlookj with ⟨rfl, -⟩ | ⟨-, hlookj⟩
    · exact hlocked
    · exact inv.lock j hdj hlookj hlockedj
  · exact fun hnone => absurd ⟨key, hflight⟩ hnone
  · intro key' left hleft
    by_cases heq : key' = key
    · exact Or.inr (heq ▸ hflight)
    · -- the other keys are written as they were
      have hleft' : w.lastOk.lookup key' = some left := by rw [← hw'] at hleft; exact hleft
      have hshown : w'.shown key' = u.contents.entries.lookup key' := by rw [← hw']; rfl
      refine Or.inl ?_
      rw [hshown, hfresh.agrees key' (fun hmem => heq (hold.unsaved key hkey key' hmem))
        (by rw [hkey]; exact fun hsome => heq (Option.some.inj hsome).symm)]
      rcases inv.kept key' left hleft' with hshow | hflight'
      · exact hshow
      · have hbump := inv.inFlight_holder hlocked hlook hflight'
        rw [hpc] at hbump
        cases hbump
  · intro hnone
    rw [← hw'] at hnone
    cases hnone

theorem vaultInv_finishWrite {key : SecretKey} {diskGen : Nat} {u : UnlockedState}
    (inv : VaultInv w) (hlook : w.handles.lookup h = some hd) (hpc : hd.pc = .bumping key diskGen)
    (hstate : hd.state = some u) : VaultInv (w.finishWrite h hd u key diskGen) := by
  have hold := inv.handles h hd hlook
  have hpcInv : PcInv w.view hd (.bumping key diskGen) := hpc ▸ hold.pc
  obtain ⟨hdisk, hbasis, u', hu', hshows⟩ := hpcInv
  rw [hstate] at hu'
  cases hu'
  have hdisk' : diskGen = w.diskGen := hdisk
  have hlocked : w.lockedBy = some h := inv.lock h hd hlook (by rw [hpc]; rfl)
  have hcases : ∀ j hdj, (w.finishWrite h hd u key diskGen).handles.lookup j = some hdj →
      (hdj = { hd.done (.ok ()) with
          state := some { u with generation := diskGen + 1 }, unsaved := [] }) ∨
        w.handles.lookup j = some hdj ∧ hdj.pc.locked = false := by
    intro j hdj hlookj
    simp only [Root.finishWrite, FiniteMap.lookup_insert_ite] at hlookj
    split at hlookj
    next => cases hlookj; exact Or.inl rfl
    next hne =>
      refine Or.inr ⟨hlookj, ?_⟩
      by_contra hlockedj
      have hj := inv.lock j hdj hlookj (by simpa using hlockedj)
      rw [hlocked] at hj
      exact hne (Option.some.inj hj).symm
  have hclosed : ∀ key', ¬ InFlight (w.finishWrite h hd u key diskGen) key' := by
    rintro key' ⟨j, hdj, hlookj, hbump⟩
    rcases hcases j hdj hlookj with rfl | ⟨-, hfree⟩
    · cases hbump
    · cases hcase : hdj.pc with
      | bumping => rw [hcase] at hfree; cases hfree
      | _ => rw [hcase] at hbump; cases hbump
  have hview : (w.finishWrite h hd u key diskGen).view =
      ⟨diskGen + 1, w.version, w.shown, False⟩ := by
    have hwindow : (∃ key', InFlight (w.finishWrite h hd u key diskGen) key') = False :=
      eq_false (by rintro ⟨key', hflight⟩; exact hclosed key' hflight)
    rw [Root.view, hwindow]
    rfl
  constructor
  · intro j hdj hlookj
    rw [hview]
    rcases hcases j hdj hlookj with rfl | ⟨hlookj, hfree⟩
    · refine ⟨fun u' hu' => ?_, fun u' hu' _ _ => ?_, fun key' hkey' => ?_, trivial⟩
      · cases hu'; exact le_rfl
      · cases hu'; exact ⟨hbasis, fun key' _ _ => hshows key'⟩
      · cases hkey'
    · have hj := inv.handles j hdj hlookj
      have hle : ∀ u', hdj.state = some u' → u'.generation ≤ diskGen := by
        intro u' hu'
        rw [hdisk']
        exact hj.generation u' hu'
      refine ⟨fun u' hu' => Nat.le_succ_of_le (hle u' hu'), fun u' hu' heq => ?_, hj.unsaved, ?_⟩
      · -- the generation on disk has moved past every other handle
        have hgen : u'.generation = diskGen + 1 := heq
        have hbound := hle u' hu'
        omega
      · have hpcj := hj.pc
        cases hcase : hdj.pc with
        | idle | creating | acquiring => trivial
        | initialising u₁ version =>
          rw [hcase] at hpcj
          exact ⟨hpcj.1, hpcj.2.1, hpcj.2.2.1, fun hzero => absurd hzero (Nat.succ_ne_zero _)⟩
        | peeking u₁ version =>
          rw [hcase] at hpcj
          exact hpcj
        | checking | replacing | bumping => rw [hcase] at hfree; cases hfree
  · intro j hdj hlookj hlockedj
    rcases hcases j hdj hlookj with rfl | ⟨-, hfree⟩
    · cases hlockedj
    · rw [hfree] at hlockedj
      cases hlockedj
  · exact fun _ => rfl
  · intro key' left hleft
    refine Or.inl ?_
    simp only [Root.finishWrite, FiniteMap.lookup_insert_ite] at hleft
    split at hleft
    next heq =>
      cases hleft
      rw [heq]
      exact (hshows key).symm
    next hne =>
      rcases inv.kept key' left hleft with hshow | hflight
      · exact hshow
      · have hbump := inv.inFlight_holder hlocked hlook hflight
        rw [hpc] at hbump
        exact absurd (Option.some.inj hbump).symm hne
  · intro hnone
    exact absurd hnone (inv.file_ne_none hlook (by rw [hpc]; rfl))

/-- A write fails before it has replaced the file. -/
theorem vaultInv_failWrite {key : SecretKey} (inv : VaultInv w)
    (hlook : w.handles.lookup h = some hd) (hkey : hd.pc.key? = some key)
    (hbump : hd.pc.bumping? = none) :
    VaultInv (w.setHandle h (hd.failWrite key .io)) ∧
      (hd.pc.locked = true → VaultInv (w.unlock.setHandle h (hd.failWrite key .io))) := by
  have hinv := (inv.handles h hd hlook).failWrite hkey .io
  have hpresent : w.file ≠ none := by
    refine inv.file_ne_none hlook ?_
    cases hpc : hd.pc with
    | idle | creating => rw [hpc] at hkey; cases hkey
    | _ => rfl
  refine ⟨inv.set hlook hbump rfl hinv ?_ fun hnone => absurd hnone hpresent, fun hlocked => ?_⟩
  · simp [Handle.failWrite, Handle.done, HandlePc.locked]
  · exact inv.release hlook hbump hlocked rfl hinv fun hnone => absurd hnone hpresent

-- ════════════════════════════════════════════════════════════════════════
-- Runs
-- ════════════════════════════════════════════════════════════════════════

theorem vaultInv_call {c : Call} (inv : VaultInv w) (hlook : w.handles.lookup h = some hd)
    (hguard : callGuard w hd c hd.pc = true) (hstep : w.step hkdf h hd c hd.pc = some w') :
    VaultInv w' := by
  have hold := inv.handles h hd hlook
  have hdone : hd.pc.key? = none → hd.pc.bumping? = none →
      ∀ outcome, VaultInv (w.setHandle h (hd.done outcome)) := by
    intro hkey hbump outcome
    refine inv.set hlook hbump rfl (hold.done hkey outcome)
      (by simp [Handle.done, HandlePc.locked]) ?_
    exact fun hnone => Handle.early_done (inv.state_eq_none hlook hnone) _
  generalize hpc : hd.pc = pc at hguard hstep
  revert hstep hguard
  fun_cases Root.step hkdf w h hd c pc <;> intro hguard hstep
  all_goals try cases hstep
  · -- createWrite, no key material
    exact hdone (by rw [hpc]; rfl) (by rw [hpc]; rfl) _
  · -- createWrite
    rename_i hfirst
    have hnone : w.file = none := Option.isNone_iff_eq_none.mp hguard
    have hstate := inv.state_eq_none hlook hnone
    refine vaultInv_putFirstFile inv hnone (fun window => ?_) rfl
    exact HandleInv.closed hstate rfl
      ⟨firstFile_eq_ok hfirst, fun _ _ => rfl, le_rfl, fun _ _ => rfl⟩
  · -- createInit
    exact vaultInv_createInit inv hlook hpc (of_decide_eq_true hguard) (Or.inl rfl)
  · -- unlockMaster
    exact vaultInv_startOpen inv hlook hpc fun _ _ _ hok =>
      congrArg Sealed.payload (VaultFile.openWithExportKey_eq_ok hok)
  · -- openWithMaster
    exact vaultInv_startOpen inv hlook hpc fun _ _ _ hok =>
      congrArg Sealed.payload (VaultFile.openWithKey_map_eq_ok hok)
  · -- peek
    exact vaultInv_peek inv hlook hpc (of_decide_eq_true hguard)
  · -- lock
    have hkey : hd.pc.key? = none := by rw [hpc]; rfl
    refine inv.set hlook (by rw [hpc]; rfl) (by rw [hpc]; rfl)
      (HandleInv.closed rfl hkey (by rw [hpc]; trivial)) id fun _ => ⟨rfl, by rw [hpc]; rfl⟩
  · -- write
    refine vaultInv_startWrite inv hlook hpc fun key hmem => ?_
    exact of_decide_eq_true (List.all_eq_true.mp hguard key hmem)
  · -- acquire
    rename_i hfree
    exact vaultInv_acquire inv hlook hpc hfree
  · -- check
    obtain ⟨u, hstate, rfl⟩ := Option.map_eq_some_iff.mp hstep
    exact vaultInv_check inv hlook hpc hstate
  · -- replace
    obtain ⟨u, hstate, rfl⟩ := Option.map_eq_some_iff.mp hstep
    exact vaultInv_replace inv hlook hpc hstate
  · -- bump
    obtain ⟨u, hstate, rfl⟩ := Option.map_eq_some_iff.mp hstep
    rw [if_pos (of_decide_eq_true hguard)]
    exact vaultInv_finishWrite inv hlook hpc hstate
  · -- fail in create
    exact hdone (by rw [hpc]; rfl) (by rw [hpc]; rfl) _
  · -- fail in create
    exact hdone (by rw [hpc]; rfl) (by rw [hpc]; rfl) _
  · -- fail in an unlock
    exact hdone (by rw [hpc]; rfl) (by rw [hpc]; rfl) _
  · -- fail in a write
    exact (vaultInv_failWrite inv hlook (by rw [hpc]; rfl) (by rw [hpc]; rfl)).1
  · -- fail in a write
    exact (vaultInv_failWrite inv hlook (by rw [hpc]; rfl) (by rw [hpc]; rfl)).2 (by rw [hpc]; rfl)
  · -- fail in a write
    exact (vaultInv_failWrite inv hlook (by rw [hpc]; rfl) (by rw [hpc]; rfl)).2 (by rw [hpc]; rfl)
  · -- fail after replace
    cases hguard
  · -- failLate in create
    have hnone : w.file = none := Option.isNone_iff_eq_none.mp hguard
    have hstate := inv.state_eq_none hlook hnone
    exact vaultInv_putFirstFile inv hnone (fun window => HandleInv.closed hstate rfl trivial) rfl
  · -- failLate in create
    exact vaultInv_createInit inv hlook hpc (of_decide_eq_true hguard) (Or.inr rfl)
  · -- failLate in a write
    cases hguard
  · -- failLate in a write
    cases hguard

theorem vaultInv_new (inv : VaultInv w) (hfree : ¬ (w.handles.lookup h).isSome = true)
    (hearly : hd.early) : VaultInv (w.setHandle h hd) := by
  have hnone : ∀ hd₀, w.handles.lookup h ≠ some hd₀ := fun hd₀ hlook => hfree (by rw [hlook]; rfl)
  have hbump : hd.pc.bumping? = none := by
    have hpc := hearly.2
    cases hcase : hd.pc with
    | bumping => rw [hcase] at hpc; cases hpc
    | _ => rfl
  refine inv.quiet rfl rfl rfl rfl rfl rfl (fun hd₀ hlook => absurd hlook (hnone hd₀)) hbump
    (hearly.handleInv _) (fun j hdj _ hlookj hlockedj => inv.lock j hdj hlookj hlockedj) ?_
    fun _ => hearly
  intro hlocked
  rw [hearly.locked_eq_false] at hlocked
  cases hlocked

theorem vaultInv_step {a : Action} (inv : VaultInv w) (hguard : UpdateGuard w a)
    (hnext : w.next hkdf a = some w') : VaultInv w' := by
  cases a with
  | new h =>
    simp only [Root.next] at hnext
    split at hnext
    next => cases hnext
    next hfree => cases hnext; exact vaultInv_new inv hfree ⟨rfl, rfl⟩
  | create h exportKey suiteVersion salt now =>
    simp only [Root.next] at hnext
    split at hnext
    next => cases hnext
    next hfree =>
      split at hnext <;> cases hnext <;> exact vaultInv_new inv hfree ⟨rfl, rfl⟩
  | call h c =>
    obtain ⟨hd, hlook, hstep⟩ := Option.bind_eq_some_iff.mp hnext
    exact vaultInv_call inv hlook (hguard hd hlook) hstep

/-- **No lost update**: in every run whose steps lose no update, successful
    writes are kept and the file is overwritten only with its latest contents. -/
theorem no_lost_update (hreach : (vault hkdf).ReachableUnder UpdateGuard w) : NoLostUpdate w := by
  have inv : VaultInv w := hreach.invariant (fun _ hstart => hstart ▸ vaultInv_init)
    fun _ _ _ inv hguard hnext => vaultInv_step inv hguard hnext
  refine ⟨inv.kept, fun h hd key diskGen hlook hpc => ?_⟩
  obtain ⟨u, -, hfresh⟩ := inv.fresh_of_replacing hlook hpc
  exact hfresh.basis

/-- A key derivation for the sample runs. -/
private def sampleHkdf (exportKey salt : Bytes) (suiteVersion : UInt8) : Bytes :=
  suiteVersion :: (exportKey ++ salt)

private def sampleKey (name : String) : SecretKey := ⟨"github.com", name⟩

private def samplePut (name : String) (value : Bytes) : Call :=
  .write (.put (sampleKey name) ⟨.apiKey, value, 1, 1, none, [], ["echo"]⟩) 1 1

/-- A handle creates the vault. -/
private def createRun : List Action :=
  [.create 0 [7] 1 [9] 0, .call 0 .createWrite, .call 0 .createInit]

/-- A write of a handle, to its end. -/
private def writeRun (h : Nat) (name : String) (value : Bytes) : List Action :=
  [.call h (samplePut name value), .call h .acquire, .call h .check, .call h .replace,
    .call h .bump]

/-- The last successful put of "a" is known, and no write is under way. -/
private def wroteA (w : Root) : Bool :=
  (w.lastOk.lookup (sampleKey "a")).any (·.isSome) &&
    w.handles.all fun _ hd => hd.pc.bumping?.isNone

private theorem exists_of_wroteA (hw : wroteA w = true) :
    ∃ envelope, w.lastOk.lookup (sampleKey "a") = some (some envelope) ∧
      ∀ key, ¬ InFlight w key := by
  rw [wroteA, Bool.and_eq_true] at hw
  obtain ⟨left, hleft, hsome⟩ := (Option.any_eq_true _ _).mp hw.1
  obtain ⟨envelope, rfl⟩ := Option.isSome_iff_exists.mp hsome
  refine ⟨envelope, hleft, ?_⟩
  rintro key ⟨h, hd, hlook, hbump⟩
  have hidle := (FiniteMap.all_eq_true_iff _ _).mp hw.2 h hd hlook
  rw [hbump] at hidle
  cases hidle

/-- A second handle unlocks before the first one writes; its own write is then
    refused, and it succeeds after a fresh unlock. -/
private def conflictRun : List Action :=
  createRun ++ [.new 1, .call 1 (.unlockMaster [7] 1), .call 1 .peek] ++ writeRun 0 "a" [1] ++
    [.call 1 (samplePut "b" [2]), .call 1 .acquire, .call 1 .check,
      .call 1 (.unlockMaster [7] 1), .call 1 .peek] ++ writeRun 1 "b" [2]

theorem no_lost_update_conflict_run :
    ∃ (w : Root) (envelope : EntryEnvelope),
      w.lastOk.lookup (sampleKey "a") = some (some envelope) ∧
      (w.lastOk.lookup (sampleKey "b")).isSome = true ∧
      w.shown (sampleKey "a") = some envelope := by
  have hexec : ((vault sampleHkdf).execUnder UpdateGuard Root.init conflictRun).any (fun w =>
      wroteA w && (w.lastOk.lookup (sampleKey "b")).isSome) = true := by decide +kernel
  obtain ⟨w, hrun, hw⟩ := Machine.exists_run_of_execUnder _ hexec
  rw [Bool.and_eq_true] at hw
  obtain ⟨envelope, hleft, hidle⟩ := exists_of_wroteA hw.1
  have hkept := (no_lost_update ⟨Root.init, rfl, hrun⟩).kept _ _ hleft
  exact ⟨w, envelope, hleft, hw.2, hkept.resolve_right (hidle _)⟩

/-- A handle reads the file, another one writes, the first reads the new
    generation: its own write passes the check and drops the other's. -/
private def latePeekRun : List Action :=
  createRun ++ [.new 1, .call 1 (.unlockMaster [7] 1)] ++ writeRun 0 "a" [1] ++
    [.call 1 .peek] ++ writeRun 1 "b" [2]

theorem late_peek_drops_write :
    ¬ ∀ w, (vault sampleHkdf).Reachable w → NoLostUpdate w := by
  intro hclaim
  have hexec : ((vault sampleHkdf).execUnder (fun _ _ => True) Root.init latePeekRun).any
      (fun w => wroteA w && (w.shown (sampleKey "a")).isNone) = true := by decide +kernel
  obtain ⟨w, hrun, hw⟩ := Machine.exists_run_of_execUnder _ hexec
  rw [Bool.and_eq_true] at hw
  obtain ⟨envelope, hleft, hidle⟩ := exists_of_wroteA hw.1
  rcases (hclaim w ⟨Root.init, rfl, hrun⟩).kept _ _ hleft with hshow | hflight
  · rw [hshow] at hw
    cases hw.2
  · exact hidle _ hflight

end Botwork.Vault
