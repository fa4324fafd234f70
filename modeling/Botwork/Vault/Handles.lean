import Botwork.Foundations.Transition
import Botwork.Vault.Contents

/-!
# Vault handles on one root

Any number of `Vault` handles, in one or several processes, work on the same
root: the vault file, its generation sidecar and the lock on the sidecar.  Every
file read, generation peek, lock acquisition, generation check, file replace and
generation write is a step of its own, and each of them can fail.

## Main definitions

- `Handle` — one `Vault` value and where its current call stands
- `Root` — the two files, the lock, the handles and the history
- `Root.next` — one step of one handle
- `vault` — the transition system
-/

namespace Botwork.Vault

open Botwork.Foundations

-- ════════════════════════════════════════════════════════════════════════
-- State
-- ════════════════════════════════════════════════════════════════════════

/-- What an unlocked handle holds in memory. -/
structure UnlockedState where
  contents : VaultContents
  master : Bytes
  salt : Bytes
  suiteVersion : UInt8
  generation : Nat

def UnlockedState.file (u : UnlockedState) : VaultFile :=
  sealWithMaster u.contents u.master u.salt u.suiteVersion

/-- Where a call of a handle stands, named by its next access to the root.  The
    version is the history's number of the file that was read or written. -/
inductive HandlePc where
  | idle
  /-- `create` has found the root empty and is about to write the file -/
  | creating (exportKey : Bytes) (suiteVersion : UInt8) (salt : Bytes) (now : Int)
  /-- `create` is about to write generation 0 -/
  | initialising (opened : UnlockedState) (version : Nat)
  /-- an unlock has read and opened the file and is about to read the generation -/
  | peeking (opened : UnlockedState) (version : Nat)
  /-- a write has edited the contents in memory and is about to take the lock -/
  | acquiring (key : SecretKey)
  /-- a write holds the lock and has read the generation on disk -/
  | checking (key : SecretKey) (diskGen : Nat)
  /-- a write is about to replace the file -/
  | replacing (key : SecretKey) (diskGen : Nat)
  /-- a write has replaced the file and is about to bump the generation -/
  | bumping (key : SecretKey) (diskGen : Nat)

/-- The lock on the sidecar is held. -/
def HandlePc.locked : HandlePc → Bool
  | .checking _ _ | .replacing _ _ | .bumping _ _ => true
  | _ => false

/-- The key of the write in progress. -/
def HandlePc.key? : HandlePc → Option SecretKey
  | .acquiring key | .checking key _ | .replacing key _ | .bumping key _ => some key
  | _ => none

/-- One `Vault` value.  Nothing in the code reads the last two fields: the
    version of the file the contents come from, and the keys of writes that
    failed on I/O since the handle was unlocked or saved. -/
structure Handle where
  pc : HandlePc
  state : Option UnlockedState
  outcome : Option (Except VaultError Unit)
  basis : Nat
  unsaved : List SecretKey

/-- One vault root.  `version` and `bumped` number the file and the last file
    whose generation was written; `lastOk` is what the last write of a key that
    returned `Ok` left there.  Nothing in the code reads these three. -/
structure Root where
  file : Option VaultFile
  genFile : Option Nat
  lockedBy : Option Nat
  handles : FiniteMap Nat Handle
  version : Nat
  bumped : Nat
  lastOk : FiniteMap SecretKey (Option EntryEnvelope)

/-- One step of a call on a handle. -/
inductive Call where
  | createWrite
  | createInit
  | unlockMaster (exportKey : Bytes) (suiteVersion : UInt8)
  | openWithMaster (master : Bytes)
  | peek
  /-- `Vault::lock` -/
  | lock
  | write (write : Write) (now nowUtc : Int)
  | acquire
  | check
  | replace
  | bump
  /-- the next access of the call fails without effect -/
  | fail
  /-- the next file operation of the call takes effect and is reported as failed -/
  | failLate
  deriving DecidableEq

inductive Action where
  /-- `Vault::new` -/
  | new (h : Nat)
  | create (h : Nat) (exportKey : Bytes) (suiteVersion : UInt8) (salt : Bytes) (now : Int)
  | call (h : Nat) (c : Call)
  deriving DecidableEq

-- ════════════════════════════════════════════════════════════════════════
-- Steps
-- ════════════════════════════════════════════════════════════════════════

/-- `u64` counters. -/
def u64Bound : Nat := 2 ^ 64

def Handle.locked : Handle := ⟨.idle, none, none, 0, []⟩

/-- The call returns. -/
def Handle.done (hd : Handle) (outcome : Except VaultError Unit) : Handle :=
  { hd with pc := .idle, outcome := some outcome }

/-- A write fails after it has edited the contents in memory. -/
def Handle.failWrite (hd : Handle) (key : SecretKey) (err : VaultError) : Handle :=
  { hd.done (.error err) with unsaved := key :: hd.unsaved }

/-- An unlock or a create succeeds. -/
def Handle.opened (hd : Handle) (u : UnlockedState) (version : Nat) : Handle :=
  { hd.done (.ok ()) with state := some u, basis := version, unsaved := [] }

namespace Root

def setHandle (w : Root) (h : Nat) (hd : Handle) : Root :=
  { w with handles := w.handles.insert h hd }

/-- The generation a reader finds: an absent or empty sidecar counts as 0. -/
def diskGen (w : Root) : Nat := w.genFile.getD 0

/-- `root.exists()` and the directory has an entry. -/
def nonEmpty (w : Root) : Bool := w.file.isSome || w.genFile.isSome

/-- The vault file is replaced atomically. -/
def putFile (w : Root) (u : UnlockedState) : Root :=
  { w with file := some u.file, version := w.version + 1 }

/-- What a fresh unlock shows under a key. -/
def shown (w : Root) (key : SecretKey) : Option EntryEnvelope :=
  w.file.bind fun file => file.body.payload.entries.lookup key

/-- The file read of an unlock and what it does with the bytes. -/
def startOpen (w : Root) (h : Nat) (hd : Handle)
    (openFile : VaultFile → Except VaultError (Bytes × VaultContents)) : Root :=
  match w.file with
  | none => w.setHandle h (hd.done (.error .notInitialized))
  | some file =>
    match openFile file with
    | .error err => w.setHandle h (hd.done (.error err))
    | .ok (master, contents) =>
      w.setHandle h { hd with
        pc := .peeking ⟨contents, master, file.salt, file.suiteVersion, 0⟩ w.version }

/-- The edit of a write, before it is persisted. -/
def startWrite (w : Root) (h : Nat) (hd : Handle) (write : Write) (now nowUtc : Int) : Root :=
  match hd.state with
  | none => w.setHandle h (hd.done (.error .locked))
  | some u =>
    match write.edit u.contents u.master now nowUtc with
    | .error err => w.setHandle h (hd.done (.error err))
    | .ok contents =>
      w.setHandle h { hd with
        pc := .acquiring write.key, state := some { u with contents := contents } }

/-- The file `create` writes, with the state of its handle. -/
def firstFile (hkdf : Bytes → Bytes → UInt8 → Bytes) (exportKey : Bytes) (suiteVersion : UInt8)
    (salt : Bytes) (now : Int) : Except VaultError UnlockedState :=
  (deriveMasterKey hkdf exportKey salt suiteVersion).map fun master =>
    ⟨VaultContents.new now, master, salt, suiteVersion, 0⟩

/-- `create` puts its file in place. -/
def putFirstFile (w : Root) (u : UnlockedState) : Root :=
  { w.putFile u with bumped := w.version + 1 }

def unlock (w : Root) : Root := { w with lockedBy := none }

/-- The end of a successful write. -/
def finishWrite (w : Root) (h : Nat) (hd : Handle) (u : UnlockedState) (key : SecretKey)
    (diskGen : Nat) : Root :=
  { w with
    genFile := some (diskGen + 1)
    lockedBy := none
    bumped := w.version
    lastOk := w.lastOk.insert key (u.contents.entries.lookup key)
    handles := w.handles.insert h { hd.done (.ok ()) with
      state := some { u with generation := diskGen + 1 }, unsaved := [] } }

/-- One step of the call of handle `h`, by where the call stands. -/
def step (hkdf : Bytes → Bytes → UInt8 → Bytes) (w : Root) (h : Nat) (hd : Handle) :
    Call → HandlePc → Option Root
  | .createWrite, .creating exportKey suiteVersion salt now =>
    match firstFile hkdf exportKey suiteVersion salt now with
    | .error err => some (w.setHandle h (hd.done (.error err)))
    | .ok u =>
      some ((w.putFirstFile u).setHandle h { hd with pc := .initialising u (w.version + 1) })
  | .createInit, .initialising u version =>
    if w.lockedBy = none then
      some ({ w with genFile := some 0 }.setHandle h (hd.opened u version))
    else none
  | .unlockMaster exportKey suiteVersion, .idle =>
    some (w.startOpen h hd fun file => file.openWithExportKey hkdf exportKey suiteVersion)
  | .openWithMaster master, .idle =>
    some (w.startOpen h hd fun file => (file.openWithKey master).map fun contents =>
      (master, contents))
  | .peek, .peeking u version =>
    some (w.setHandle h (hd.opened { u with generation := w.diskGen } version))
  | .lock, .idle => some (w.setHandle h { hd with state := none, unsaved := [] })
  | .write write now nowUtc, .idle => some (w.startWrite h hd write now nowUtc)
  | .acquire, .acquiring key =>
    if w.lockedBy = none then
      some ({ w with lockedBy := some h, genFile := some w.diskGen }.setHandle h
        { hd with pc := .checking key w.diskGen })
    else none
  | .check, .checking key diskGen =>
    hd.state.map fun u =>
      if diskGen ≠ u.generation then
        w.unlock.setHandle h (hd.done (.error (.conflict u.generation diskGen)))
      else w.setHandle h { hd with pc := .replacing key diskGen }
  | .replace, .replacing key diskGen =>
    hd.state.map fun u =>
      (w.putFile u).setHandle h
        { hd with pc := .bumping key diskGen, basis := w.version + 1 }
  | .bump, .bumping key diskGen =>
    hd.state.map fun u =>
      if diskGen + 1 < u64Bound then w.finishWrite h hd u key diskGen
      else
        w.unlock.setHandle h
          (hd.failWrite key (.integrity "vault generation counter overflow"))
  | .fail, .creating _ _ _ _ | .fail, .initialising _ _ | .fail, .peeking _ _ =>
    some (w.setHandle h (hd.done (.error .io)))
  | .fail, .acquiring key => some (w.setHandle h (hd.failWrite key .io))
  | .fail, .checking key _ | .fail, .replacing key _ | .fail, .bumping key _ =>
    some (w.unlock.setHandle h (hd.failWrite key .io))
  | .failLate, .creating exportKey suiteVersion salt now =>
    match firstFile hkdf exportKey suiteVersion salt now with
    | .error _ => none
    | .ok u => some ((w.putFirstFile u).setHandle h (hd.done (.error .io)))
  | .failLate, .initialising _ _ =>
    if w.lockedBy = none then
      some ({ w with genFile := some 0 }.setHandle h (hd.done (.error .io)))
    else none
  | .failLate, .replacing key _ =>
    hd.state.map fun u => (w.putFile u).unlock.setHandle h (hd.failWrite key .io)
  | .failLate, .bumping key diskGen =>
    some ({ w.unlock with genFile := some (diskGen + 1), bumped := w.version }.setHandle h
      (hd.failWrite key .io))
  | _, _ => none

def next (hkdf : Bytes → Bytes → UInt8 → Bytes) (w : Root) : Action → Option Root
  | .new h => if (w.handles.lookup h).isSome then none else some (w.setHandle h Handle.locked)
  | .create h exportKey suiteVersion salt now =>
    if (w.handles.lookup h).isSome then none
    else if w.nonEmpty then
      some (w.setHandle h (Handle.locked.done (.error .alreadyInitialized)))
    else
      some (w.setHandle h { Handle.locked with pc := .creating exportKey suiteVersion salt now })
  | .call h c => (w.handles.lookup h).bind fun hd => w.step hkdf h hd c hd.pc

def init : Root where
  file := none
  genFile := none
  lockedBy := none
  handles := ∅
  version := 0
  bumped := 0
  lastOk := ∅

end Root

/-- The handles on one vault root, which starts empty. -/
def vault (hkdf : Bytes → Bytes → UInt8 → Bytes) : Machine Root Action where
  Start w := w = Root.init
  next := Root.next hkdf

end Botwork.Vault
