import Botwork.Foundations.Transition
import Botwork.Vault.FailedWrites

/-!
# Cut writes

`create` and a write of a vault are sequences of file steps, and a crash or an I/O
error can cut each of them behind any step.  An error removes the temp file of the
call and a crash does not.  Any number of handles stay open on the root.  A cut in
`create` with the temp file in place makes the root unusable; a cut of a write
between the rename and the generation lets a handle that has not seen the write
overwrite it.

## Main definitions

- `Disk`, `FileStep` — the files of a root and one step on them
- `Disk.createSteps`, `Disk.persistSteps` — the steps of a call
- `Cut` — where a call ends, and by what
- `World` — a root, its handles and the history
- `CrashSafe` — what holds behind a call, cut or not
- `World.Spared` — the calls behind which it holds

## Main results

- `crash_safe_iff`
-/

namespace Botwork.Vault

open Botwork.Foundations

-- ════════════════════════════════════════════════════════════════════════
-- The generation file
-- ════════════════════════════════════════════════════════════════════════

/-- The lowest `width` bytes of a number, the least significant one first. -/
def leBytes : Nat → Nat → Bytes
  | 0, _ => []
  | width + 1, n => UInt8.ofNat (n % 256) :: leBytes width (n / 256)

def ofLeBytes : Bytes → Nat
  | [] => 0
  | b :: bytes => b.toNat + 256 * ofLeBytes bytes

@[simp] theorem length_leBytes (width n : Nat) : (leBytes width n).length = width := by
  induction width generalizing n with
  | zero => rfl
  | succ width ih => rw [leBytes, List.length_cons, ih]

theorem ofLeBytes_leBytes {width n : Nat} (h : n < 256 ^ width) :
    ofLeBytes (leBytes width n) = n := by
  induction width generalizing n with
  | zero =>
    rw [pow_zero] at h
    show 0 = n
    omega
  | succ width ih =>
    have hdiv : n / 256 < 256 ^ width := by
      rw [Nat.div_lt_iff_lt_mul (by omega)]
      rwa [pow_succ] at h
    have hmod : n % 256 < UInt8.size := Nat.mod_lt _ (by decide)
    rw [leBytes, ofLeBytes, ih hdiv, UInt8.toNat_ofNat_of_lt' hmod]
    omega

/-- `read_gen_from`. -/
def readGenFrom (bytes : Bytes) : Except VaultError Nat :=
  if (bytes.take 8).length = 0 then .ok 0
  else if (bytes.take 8).length = 8 then .ok (ofLeBytes (bytes.take 8))
  else .error (.integrity "vault generation file is truncated")

/-- `File::set_len`. -/
def setLen (width : Nat) (bytes : Bytes) : Bytes :=
  bytes.take width ++ List.replicate (width - bytes.length) 0

/-- `File::write_all` at the start of the file. -/
def writeAtStart (written bytes : Bytes) : Bytes := written ++ bytes.drop written.length

/-- A file that the steps of `create` and `persist` leave. -/
def WholeGen (bytes : Bytes) : Prop := bytes = [] ∨ bytes.length = 8

theorem readGenFrom_of_length {bytes : Bytes} (h : bytes.length = 8) :
    readGenFrom bytes = .ok (ofLeBytes bytes) := by
  have htake : bytes.take 8 = bytes := List.take_of_length_le h.le
  rw [readGenFrom, htake, if_neg (by omega), if_pos h]

theorem WholeGen.length_setLen {bytes : Bytes} (h : WholeGen bytes) :
    (setLen 8 bytes).length = 8 := by
  rcases h with rfl | h
  · rfl
  · rw [setLen, List.length_append, List.length_take, List.length_replicate]
    omega

/-- Extending the file keeps the number in it. -/
theorem WholeGen.readGenFrom_setLen {bytes : Bytes} (h : WholeGen bytes) :
    readGenFrom (setLen 8 bytes) = readGenFrom bytes := by
  rcases h with rfl | h
  · rfl
  · rw [setLen, List.take_of_length_le h.le, h, Nat.sub_self, List.replicate_zero, List.append_nil]

theorem WholeGen.exists_readGenFrom {bytes : Bytes} (h : WholeGen bytes) :
    ∃ g, readGenFrom bytes = .ok g := by
  rcases h with rfl | h
  · exact ⟨0, rfl⟩
  · exact ⟨_, readGenFrom_of_length h⟩

theorem writeAtStart_leBytes {bytes : Bytes} (n : Nat) (h : bytes.length = 8) :
    writeAtStart (leBytes 8 n) bytes = leBytes 8 n := by
  rw [writeAtStart, length_leBytes, List.drop_of_length_le h.le, List.append_nil]

theorem readGenFrom_leBytes {n : Nat} (h : n < u64Bound) : readGenFrom (leBytes 8 n) = .ok n := by
  rw [readGenFrom_of_length (length_leBytes 8 n), ofLeBytes_leBytes]
  exact h

-- ════════════════════════════════════════════════════════════════════════
-- File steps
-- ════════════════════════════════════════════════════════════════════════

/-- The files of a root.  `temp` is the temp file of the call in progress, empty or
    written, and `litter` counts the temp files of calls that are no more. -/
structure Disk where
  dir : Bool
  temp : Option (Option VaultFile)
  litter : Nat
  file : Option VaultFile
  genFile : Option Bytes

inductive FileStep where
  /-- `ensure_vault_root` -/
  | createDir
  | createTemp
  | writeTemp (file : VaultFile)
  | rename
  | syncDir
  /-- the sidecar is opened, and created if it is absent -/
  | openGen
  /-- `write_gen_to` up to the write -/
  | extendGen
  | writeGen (value : Nat)

def FileStep.apply (d : Disk) : FileStep → Disk
  | .createDir => { d with dir := true }
  | .createTemp => { d with temp := some none }
  | .writeTemp file => { d with temp := d.temp.map fun _ => some file }
  | .rename =>
    match d.temp with
    | some (some file) => { d with temp := none, file := some file }
    | _ => d
  | .syncDir => d
  | .openGen => { d with genFile := some (d.genFile.getD []) }
  | .extendGen => { d with genFile := d.genFile.map (setLen 8) }
  | .writeGen value => { d with genFile := d.genFile.map (writeAtStart (leBytes 8 value)) }

def FileStep.makesTemp : FileStep → Bool
  | .createTemp => true
  | _ => false

/-- The step publishes what a call writes. -/
def FileStep.publishes : FileStep → Bool
  | .rename => true
  | _ => false

/-- The step writes the generation. -/
def FileStep.counts : FileStep → Bool
  | .writeGen _ => true
  | _ => false

inductive Stop where
  | crash
  | ioError
  deriving DecidableEq

/-- A call ends behind its first `after` steps. -/
structure Cut where
  after : Nat
  stop : Stop
  deriving DecidableEq

/-- The steps that a call performs. -/
def performed (steps : List FileStep) : Option Cut → List FileStep
  | none => steps
  | some cut => steps.take cut.after

/-- The process is no more. -/
def crashed (cut : Option Cut) : Bool := cut.any (·.stop == .crash)

namespace Disk

/-- A call ends: the temp file is removed unless the process is no more. -/
def settle (d : Disk) (crashed : Bool) : Disk :=
  { d with temp := none, litter := if crashed && d.temp.isSome then d.litter + 1 else d.litter }

def perform (d : Disk) (steps : List FileStep) (cut : Option Cut) : Disk :=
  ((performed steps cut).foldl FileStep.apply d).settle (crashed cut)

/-- `root.exists()` and the directory has an entry. -/
def nonEmpty (d : Disk) : Bool :=
  d.dir && (d.file.isSome || d.genFile.isSome || d.temp.isSome || d.litter != 0)

def peekGeneration (d : Disk) : Except VaultError Nat :=
  match d.genFile with
  | none => .ok 0
  | some bytes => readGenFrom bytes

variable (hkdf : Bytes → Bytes → UInt8 → Bytes)

/-- The state that `create` returns when nothing cuts it. -/
def createResult (d : Disk) (exportKey : Bytes) (suiteVersion : UInt8) (salt : Bytes)
    (now : Int) : Except VaultError UnlockedState :=
  if d.nonEmpty then .error .alreadyInitialized
  else Root.firstFile hkdf exportKey suiteVersion salt now

def createSteps (d : Disk) (exportKey : Bytes) (suiteVersion : UInt8) (salt : Bytes)
    (now : Int) : List FileStep :=
  if d.nonEmpty then []
  else
    match Root.firstFile hkdf exportKey suiteVersion salt now with
    | .error _ => [.createDir]
    | .ok u =>
      [.createDir, .createTemp, .writeTemp u.file, .rename, .syncDir, .openGen, .extendGen,
        .writeGen 0]

/-- The steps of `persist` from the state in memory on. -/
def persistSteps (d : Disk) (u : UnlockedState) : List FileStep :=
  .openGen ::
    if d.peekGeneration = .ok u.generation then
      [.createTemp, .writeTemp u.file, .rename, .syncDir] ++
        if u.generation + 1 < u64Bound then [.extendGen, .writeGen (u.generation + 1)] else []
    else []

/-- What an unlock makes of the file; it reads the generation behind it. -/
def openBy (d : Disk) (openFile : VaultFile → Except VaultError (Bytes × VaultContents)) :
    Except VaultError UnlockedState :=
  match d.file with
  | none => .error .notInitialized
  | some file =>
    (openFile file).map fun opened => ⟨opened.2, opened.1, file.salt, file.suiteVersion, 0⟩

/-- `unlock_master`. -/
def unlockMaster (d : Disk) (exportKey : Bytes) (suiteVersion : UInt8) :
    Except VaultError UnlockedState :=
  d.openBy fun file => file.openWithExportKey hkdf exportKey suiteVersion

/-- `open_with_master`. -/
def openWithMaster (d : Disk) (master : Bytes) : Except VaultError UnlockedState :=
  d.openBy fun file => (file.openWithKey master).map fun contents => (master, contents)

end Disk

-- ════════════════════════════════════════════════════════════════════════
-- Runs
-- ════════════════════════════════════════════════════════════════════════

/-- A `Vault` value; `basis` numbers the published write its contents come from.  An
    unlock that has read the file and not the generation is at `reading`. -/
structure Holder where
  state : Option UnlockedState
  basis : Nat
  reading : Option (UnlockedState × Nat)

/-- The state with the edit of a write in memory. -/
def Holder.edited (hd : Holder) (write : Write) (now nowUtc : Int) : Option UnlockedState :=
  hd.state.bind fun u =>
    (write.edit u.contents u.master now nowUtc).toOption.map fun contents =>
      { u with contents := contents }

/-- A root with its handles.  `version` counts the published writes and `owner` has
    the key and suite version the vault was created under. -/
structure World where
  disk : Disk
  handles : FiniteMap Nat Holder
  version : Nat
  owner : Option (Bytes × UInt8)

inductive VaultAction where
  /-- `Vault::new` -/
  | new (h : Nat)
  | create (h : Nat) (exportKey : Bytes) (suiteVersion : UInt8) (salt : Bytes) (now : Int)
      (cut : Option Cut)
  | unlockMaster (h : Nat) (exportKey : Bytes) (suiteVersion : UInt8)
  | openWithMaster (h : Nat) (master : Bytes)
  /-- the end of an unlock -/
  | peek (h : Nat)
  /-- `Vault::lock` -/
  | lock (h : Nat)
  /-- the value is dropped, or its process crashes -/
  | drop (h : Nat)
  | write (h : Nat) (write : Write) (now nowUtc : Int) (cut : Option Cut)
  deriving DecidableEq

namespace World

/-- The file steps of a call that is cut, or not. -/
def perform (w : World) (steps : List FileStep) (cut : Option Cut) : World :=
  { w with
    disk := w.disk.perform steps cut
    version := if (performed steps cut).any FileStep.publishes then w.version + 1
      else w.version }

/-- The file read of an unlock. -/
def read (w : World) (h : Nat) (hd : Holder) (result : Except VaultError UnlockedState) : World :=
  match result with
  | .error _ => w
  | .ok u => { w with handles := w.handles.insert h { hd with reading := some (u, w.version) } }

/-- The generation is read and the unlock returns. -/
def peek (w : World) (h : Nat) (hd : Holder) (u : UnlockedState) (version : Nat) : World :=
  match w.disk.peekGeneration with
  | .error _ => { w with handles := w.handles.insert h { hd with reading := none } }
  | .ok generation =>
    { w with
      handles := w.handles.insert h ⟨some { u with generation := generation }, version, none⟩ }

/-- The handle that `create` returns. -/
def created (w : World) (h : Nat) (result : Except VaultError UnlockedState) : World :=
  match result with
  | .error _ => w
  | .ok u => { w with handles := w.handles.insert h ⟨some u, w.version, none⟩ }

/-- The file steps of `create`. -/
def createFiles (hkdf : Bytes → Bytes → UInt8 → Bytes) (w : World) (exportKey : Bytes)
    (suiteVersion : UInt8) (salt : Bytes) (now : Int) (cut : Option Cut) : World :=
  let steps := w.disk.createSteps hkdf exportKey suiteVersion salt now
  { w.perform steps cut with
    owner := if (performed steps cut).any FileStep.publishes then some (exportKey, suiteVersion)
      else w.owner }

def create (hkdf : Bytes → Bytes → UInt8 → Bytes) (w : World) (h : Nat) (exportKey : Bytes)
    (suiteVersion : UInt8) (salt : Bytes) (now : Int) (cut : Option Cut) : World :=
  let w₁ := w.createFiles hkdf exportKey suiteVersion salt now cut
  match cut with
  | none => w₁.created h (w.disk.createResult hkdf exportKey suiteVersion salt now)
  | some _ => w₁

/-- `persist`, from the edited state on. -/
def persist (w : World) (h : Nat) (hd : Holder) (u : UnlockedState) (cut : Option Cut) : World :=
  let steps := w.disk.persistSteps u
  let published := (performed steps cut).any FileStep.publishes
  let counted := (performed steps cut).any FileStep.counts
  { w.perform steps cut with
    handles :=
      if crashed cut then w.handles.erase h
      else w.handles.insert h
        { state := some (if cut = none ∧ counted = true then
            { u with generation := u.generation + 1 } else u)
          basis := if published then w.version + 1 else hd.basis
          reading := none } }

def write (w : World) (h : Nat) (hd : Holder) (write : Write) (now nowUtc : Int)
    (cut : Option Cut) : World :=
  match hd.edited write now nowUtc with
  | none => w
  | some u => w.persist h hd u cut

/-- The handle, between two calls. -/
def idle (w : World) (h : Nat) : Option Holder :=
  (w.handles.lookup h).filter (·.reading.isNone)

def next (hkdf : Bytes → Bytes → UInt8 → Bytes) (w : World) : VaultAction → Option World
  | .new h =>
    if (w.handles.lookup h).isSome then none
    else some { w with handles := w.handles.insert h ⟨none, 0, none⟩ }
  | .create h exportKey suiteVersion salt now cut =>
    if (w.handles.lookup h).isSome then none
    else some (w.create hkdf h exportKey suiteVersion salt now cut)
  | .unlockMaster h exportKey suiteVersion =>
    (w.idle h).map fun hd => w.read h hd (w.disk.unlockMaster hkdf exportKey suiteVersion)
  | .openWithMaster h master =>
    (w.idle h).map fun hd => w.read h hd (w.disk.openWithMaster master)
  | .peek h =>
    (w.handles.lookup h).bind fun hd => hd.reading.map fun read => w.peek h hd read.1 read.2
  | .lock h =>
    (w.idle h).map fun hd => { w with handles := w.handles.insert h { hd with state := none } }
  | .drop h => some { w with handles := w.handles.erase h }
  | .write h write now nowUtc cut =>
    (w.idle h).map fun hd => w.write h hd write now nowUtc cut

def init : World := ⟨⟨false, none, 0, none, none⟩, ∅, 0, none⟩

end World

/-- The handles on one root, whose calls come one after the other. -/
def cutVault (hkdf : Bytes → Bytes → UInt8 → Bytes) : Machine World VaultAction where
  Start w := w = World.init
  next := World.next hkdf

variable {hkdf : Bytes → Bytes → UInt8 → Bytes} {w w' : World} {d : Disk}

-- ════════════════════════════════════════════════════════════════════════
-- The property
-- ════════════════════════════════════════════════════════════════════════

namespace World

/-- An unlock with the right key. -/
def reopened (hkdf : Bytes → Bytes → UInt8 → Bytes) (w : World) :
    Except VaultError UnlockedState :=
  match w.owner with
  | none => .error .notInitialized
  | some (exportKey, suiteVersion) => do
    let u ← w.disk.unlockMaster hkdf exportKey suiteVersion
    let generation ← w.disk.peekGeneration
    return { u with generation := generation }

/-- `create` succeeds with every key. -/
def Creatable (hkdf : Bytes → Bytes → UInt8 → Bytes) (w : World) : Prop :=
  ∀ exportKey suiteVersion salt now, exportKey ≠ [] →
    ∃ u, w.disk.createResult hkdf exportKey suiteVersion salt now = .ok u

/-- The contents that a call writes. -/
def newContents (w : World) : VaultAction → Option VaultContents
  | .create _ _ _ _ now _ => some (VaultContents.new now)
  | .write h write now nowUtc _ =>
    ((w.handles.lookup h).bind (·.edited write now nowUtc)).map (·.contents)
  | _ => none

/-- An unlock with the right key opens the old or the new contents, or there is no
    vault and `create` makes one. -/
def Recovers (hkdf : Bytes → Bytes → UInt8 → Bytes) (w : World) (a : VaultAction)
    (w' : World) : Prop :=
  (∃ u', w'.reopened hkdf = .ok u' ∧
    ((∃ u, w.reopened hkdf = .ok u ∧ u'.contents = u.contents) ∨
      w.newContents a = some u'.contents)) ∨
  w'.Creatable hkdf

/-- No handle that holds the contents from before a published write can publish. -/
def NoOverwrite (w : World) : Prop :=
  ∀ h hd, w.handles.lookup h = some hd → hd.state.isSome → hd.basis < w.version →
    ∀ write now nowUtc cut, (w.write h hd write now nowUtc cut).version = w.version

end World

/-- What holds behind a call, cut or not. -/
structure CrashSafe (hkdf : Bytes → Bytes → UInt8 → Bytes) (w : World) (a : VaultAction)
    (w' : World) : Prop where
  recovers : w.Recovers hkdf a w'
  noOverwrite : w'.NoOverwrite

-- ════════════════════════════════════════════════════════════════════════
-- The guard
-- ════════════════════════════════════════════════════════════════════════

/-- The generation of the handle is the one on disk. -/
def Holder.current (hd : Holder) (d : Disk) : Bool :=
  hd.state.any fun u => d.peekGeneration = .ok u.generation

/-- `create` does not crash with its temp file in place; a write that is published
    writes the generation, or no other handle has the one on disk; nothing is published
    between the two reads of an unlock. -/
def World.Spared (hkdf : Bytes → Bytes → UInt8 → Bytes) (w : World) : VaultAction → Bool
  | .create _ exportKey suiteVersion salt now cut =>
    let steps := performed (w.disk.createSteps hkdf exportKey suiteVersion salt now) cut
    !(crashed cut && steps.any FileStep.makesTemp && !steps.any FileStep.publishes)
  | .write h write now nowUtc cut =>
    ((w.handles.lookup h).bind (·.edited write now nowUtc)).all fun u =>
      let steps := performed (w.disk.persistSteps u) cut
      !steps.any FileStep.publishes || steps.any FileStep.counts ||
        w.handles.all fun j hd => j == h || !hd.current w.disk
  | .peek h => ((w.handles.lookup h).bind (·.reading)).all fun read => read.2 == w.version
  | _ => true

-- ════════════════════════════════════════════════════════════════════════
-- Files
-- ════════════════════════════════════════════════════════════════════════

theorem exists_take (steps : List FileStep) (cut : Option Cut) :
    ∃ n, performed steps cut = steps.take n := by
  cases cut with
  | none => exact ⟨steps.length, (List.take_length).symm⟩
  | some cut => exact ⟨cut.after, rfl⟩

/-- What every step leaves of the sidecar. -/
def Disk.WholeGen (d : Disk) : Prop := ∀ bytes, d.genFile = some bytes → Vault.WholeGen bytes

theorem Disk.WholeGen.exists_peek (hwhole : d.WholeGen) : ∃ g, d.peekGeneration = .ok g := by
  cases hgen : d.genFile with
  | none => exact ⟨0, by rw [peekGeneration, hgen]⟩
  | some bytes =>
    rw [peekGeneration, hgen]
    exact (hwhole bytes hgen).exists_readGenFrom

theorem Disk.peek_openGen (d : Disk) :
    (FileStep.apply d .openGen).peekGeneration = d.peekGeneration := by
  cases hgen : d.genFile with
  | none =>
    simp only [FileStep.apply, peekGeneration, hgen, Option.getD_none]
    rfl
  | some bytes => simp only [FileStep.apply, peekGeneration, hgen, Option.getD_some]

theorem Disk.wholeGen_openGen (hwhole : d.WholeGen) : (FileStep.apply d .openGen).WholeGen := by
  intro bytes hbytes
  cases hgen : d.genFile with
  | none =>
    simp only [FileStep.apply, hgen, Option.getD_none] at hbytes
    cases hbytes
    exact Or.inl rfl
  | some old =>
    simp only [FileStep.apply, hgen, Option.getD_some] at hbytes
    cases hbytes
    exact hwhole _ hgen

theorem Disk.peek_extendGen (hwhole : d.WholeGen) :
    (FileStep.apply d .extendGen).peekGeneration = d.peekGeneration := by
  cases hgen : d.genFile with
  | none => simp only [FileStep.apply, peekGeneration, hgen, Option.map_none]
  | some bytes =>
    simp only [FileStep.apply, peekGeneration, hgen, Option.map_some]
    exact (hwhole bytes hgen).readGenFrom_setLen

theorem Disk.wholeGen_extendGen (hwhole : d.WholeGen) :
    (FileStep.apply d .extendGen).WholeGen := by
  intro bytes hbytes
  obtain ⟨old, hold, rfl⟩ := Option.map_eq_some_iff.mp hbytes
  exact Or.inr (hwhole old hold).length_setLen

/-- The counter is what `write_gen_to` has written. -/
theorem Disk.peek_writeGen {bytes : Bytes} {n : Nat} (hwhole : d.WholeGen)
    (hgen : d.genFile = some bytes) (hn : n < u64Bound) :
    (FileStep.apply (FileStep.apply d .extendGen) (.writeGen n)).peekGeneration = .ok n := by
  simp only [FileStep.apply, peekGeneration, hgen, Option.map_some]
  rw [writeAtStart_leBytes n (hwhole bytes hgen).length_setLen, readGenFrom_leBytes hn]

theorem Disk.wholeGen_writeGen {n : Nat} (hwhole : d.WholeGen) :
    (FileStep.apply (FileStep.apply d .extendGen) (.writeGen n)).WholeGen := by
  intro bytes hbytes
  obtain ⟨extended, hextended, rfl⟩ := Option.map_eq_some_iff.mp hbytes
  obtain ⟨old, hold, rfl⟩ := Option.map_eq_some_iff.mp hextended
  rw [writeAtStart_leBytes n (hwhole old hold).length_setLen]
  exact Or.inr (length_leBytes 8 n)

/-- What the steps of a write leave, cut or not. -/
structure Disk.Persisted (d : Disk) (u : UnlockedState) (steps : List FileStep) (d' : Disk) :
    Prop where
  temp : d'.temp = none
  dir : d'.dir = d.dir
  whole : d'.WholeGen
  published : steps.any FileStep.publishes = true → d'.file = some u.file
  kept : steps.any FileStep.publishes = false → d'.file = d.file
  current : steps.any FileStep.publishes = true → d.peekGeneration = .ok u.generation
  ordered : steps.any FileStep.counts = true → steps.any FileStep.publishes = true
  counted : steps.any FileStep.counts = true → d'.peekGeneration = .ok (u.generation + 1)
  uncounted : steps.any FileStep.counts = false → d'.peekGeneration = d.peekGeneration
  sidecar : steps ≠ [] → d'.genFile ≠ none

/-- **Spec of `persist`**: every prefix of its steps. -/
theorem Disk.persisted (u : UnlockedState) (hwhole : d.WholeGen) (cut : Option Cut) :
    d.Persisted u (performed (d.persistSteps u) cut) (d.perform (d.persistSteps u) cut) := by
  obtain ⟨n, hn⟩ := exists_take (d.persistSteps u) cut
  rw [perform, hn]
  generalize crashed cut = crash
  have hopen := wholeGen_openGen hwhole
  have hpeek := peek_openGen d
  rw [persistSteps]
  by_cases hcurrent : d.peekGeneration = .ok u.generation
  · rw [if_pos hcurrent]
    match n with
    | 0 =>
      exact ⟨rfl, rfl, hwhole, nofun, fun _ => rfl, nofun, nofun, nofun, fun _ => rfl,
        fun h => absurd rfl h⟩
    | 1 | 2 | 3 =>
      exact ⟨rfl, rfl, hopen, nofun, fun _ => rfl, nofun, nofun, nofun, fun _ => hpeek, nofun⟩
    | 4 | 5 =>
      exact ⟨rfl, rfl, hopen, fun _ => rfl, nofun, fun _ => hcurrent, nofun, nofun,
        fun _ => hpeek, nofun⟩
    | n + 6 =>
      by_cases hbound : u.generation + 1 < u64Bound
      · rw [if_pos hbound]
        cases n with
        | zero =>
          refine ⟨rfl, rfl, wholeGen_extendGen hopen, fun _ => rfl, nofun, fun _ => hcurrent,
            nofun, nofun, fun _ => ?_, nofun⟩
          exact (peek_extendGen hopen).trans hpeek
        | succ n =>
          rw [List.take_of_length_le (by simp)]
          refine ⟨rfl, rfl, wholeGen_writeGen hopen, fun _ => rfl, nofun, fun _ => hcurrent,
            fun _ => rfl, fun _ => ?_, nofun, nofun⟩
          exact peek_writeGen hopen rfl hbound
      · rw [if_neg hbound, List.take_of_length_le (by simp)]
        exact ⟨rfl, rfl, hopen, fun _ => rfl, nofun, fun _ => hcurrent, nofun, nofun,
          fun _ => hpeek, nofun⟩
  · rw [if_neg hcurrent]
    match n with
    | 0 =>
      exact ⟨rfl, rfl, hwhole, nofun, fun _ => rfl, nofun, nofun, nofun, fun _ => rfl,
        fun h => absurd rfl h⟩
    | n + 1 =>
      rw [List.take_succ_cons, List.take_nil]
      exact ⟨rfl, rfl, hopen, nofun, fun _ => rfl, nofun, nofun, nofun, fun _ => hpeek, nofun⟩

theorem Disk.persistSteps_publishes (d : Disk) (u : UnlockedState) :
    (d.persistSteps u).any FileStep.publishes = true ↔ d.peekGeneration = .ok u.generation := by
  rw [persistSteps]
  by_cases hcurrent : d.peekGeneration = .ok u.generation
  · rw [if_pos hcurrent]
    exact iff_of_true rfl hcurrent
  · rw [if_neg hcurrent]
    exact iff_of_false Bool.false_ne_true hcurrent

theorem Disk.persistSteps_counts (d : Disk) (u : UnlockedState) :
    (d.persistSteps u).any FileStep.counts = true ↔
      d.peekGeneration = .ok u.generation ∧ u.generation + 1 < u64Bound := by
  rw [persistSteps]
  by_cases hcurrent : d.peekGeneration = .ok u.generation
  · by_cases hbound : u.generation + 1 < u64Bound
    · rw [if_pos hcurrent, if_pos hbound]
      exact iff_of_true rfl ⟨hcurrent, hbound⟩
    · rw [if_pos hcurrent, if_neg hbound]
      exact iff_of_false Bool.false_ne_true fun h => hbound h.2
  · rw [if_neg hcurrent]
    exact iff_of_false Bool.false_ne_true fun h => hcurrent h.1

/-- There is nothing in the root. -/
structure Disk.Blank (d : Disk) : Prop where
  temp : d.temp = none
  litter : d.litter = 0
  file : d.file = none
  genFile : d.genFile = none

theorem Disk.Blank.nonEmpty (hblank : d.Blank) : d.nonEmpty = false := by
  rw [Disk.nonEmpty, hblank.temp, hblank.litter, hblank.file, hblank.genFile]
  cases d.dir <;> rfl

theorem Disk.Blank.wholeGen (hblank : d.Blank) : d.WholeGen := by
  intro bytes hbytes
  rw [hblank.genFile] at hbytes
  cases hbytes

/-- What the steps of `create` leave of an empty root, cut or not. -/
structure Disk.Created (first : Except VaultError UnlockedState) (steps : List FileStep)
    (crash : Bool) (d' : Disk) : Prop where
  temp : d'.temp = none
  whole : d'.WholeGen
  published : steps.any FileStep.publishes = true →
    d'.dir = true ∧ d'.peekGeneration = .ok 0 ∧ ∃ u, first = .ok u ∧ d'.file = some u.file
  blank : steps.any FileStep.publishes = false →
    (crash && steps.any FileStep.makesTemp) = false → d'.Blank
  littered : steps.any FileStep.publishes = false →
    (crash && steps.any FileStep.makesTemp) = true → d'.dir = true ∧ d'.litter ≠ 0 ∧ d'.file = none

/-- **Spec of `create`**: every prefix of its steps. -/
theorem Disk.created {exportKey salt : Bytes} {suiteVersion : UInt8} {now : Int}
    (hblank : d.Blank) (cut : Option Cut) :
    Disk.Created (Root.firstFile hkdf exportKey suiteVersion salt now)
      (performed (d.createSteps hkdf exportKey suiteVersion salt now) cut) (crashed cut)
      (d.perform (d.createSteps hkdf exportKey suiteVersion salt now) cut) := by
  obtain ⟨n, hn⟩ := exists_take (d.createSteps hkdf exportKey suiteVersion salt now) cut
  rw [perform, hn]
  generalize crashed cut = crash
  rw [createSteps, if_neg (by simp [hblank.nonEmpty])]
  have hwhole := hblank.wholeGen
  have hopen := wholeGen_openGen hwhole
  have hpeek : d.peekGeneration = .ok 0 := by rw [peekGeneration, hblank.genFile]
  obtain ⟨htemp, hlitter, hfile, hgen⟩ := hblank
  cases hfirst : Root.firstFile hkdf exportKey suiteVersion salt now with
  | error err =>
    match n with
    | 0 =>
      refine ⟨rfl, hwhole, nofun, fun _ _ => ⟨rfl, ?_, hfile, hgen⟩, fun _ h => ?_⟩
      · simp [settle, htemp, hlitter]
      · simp at h
    | n + 1 =>
      rw [List.take_succ_cons, List.take_nil]
      refine ⟨rfl, hwhole, nofun, fun _ _ => ⟨rfl, ?_, hfile, hgen⟩, fun _ h => ?_⟩
      · simp [settle, htemp, hlitter, FileStep.apply]
      · simp [FileStep.makesTemp] at h
  | ok u =>
    have hfirst' : ∃ u', (Except.ok u : Except VaultError UnlockedState) = .ok u' ∧
        some u.file = some u'.file := ⟨u, rfl, rfl⟩
    match n with
    | 0 =>
      refine ⟨rfl, hwhole, nofun, fun _ _ => ⟨rfl, ?_, hfile, hgen⟩, fun _ h => ?_⟩
      · simp [settle, htemp, hlitter]
      · simp at h
    | 1 =>
      refine ⟨rfl, hwhole, nofun, fun _ _ => ⟨rfl, ?_, hfile, hgen⟩, fun _ h => ?_⟩
      · simp [settle, htemp, hlitter, FileStep.apply]
      · simp [FileStep.makesTemp] at h
    | 2 | 3 =>
      refine ⟨rfl, hwhole, nofun, fun _ h => ⟨rfl, ?_, hfile, hgen⟩, fun _ h => ⟨rfl, ?_, hfile⟩⟩
      · cases crash with
        | false => exact hlitter
        | true => cases h
      · cases crash with
        | false => cases h
        | true => exact Nat.succ_ne_zero d.litter
    | 4 | 5 => exact ⟨rfl, hwhole, fun _ => ⟨rfl, hpeek, hfirst'⟩, nofun, nofun⟩
    | 6 => exact ⟨rfl, hopen, fun _ => ⟨rfl, (peek_openGen d).trans hpeek, hfirst'⟩, nofun, nofun⟩
    | 7 =>
      refine ⟨rfl, wholeGen_extendGen hopen, fun _ => ⟨rfl, ?_, hfirst'⟩, nofun, nofun⟩
      exact (peek_extendGen hopen).trans ((peek_openGen d).trans hpeek)
    | n + 8 =>
      rw [List.take_of_length_le (by simp)]
      refine ⟨rfl, wholeGen_writeGen hopen, fun _ => ⟨rfl, ?_, hfirst'⟩, nofun, nofun⟩
      exact peek_writeGen hopen rfl (by decide)

-- ════════════════════════════════════════════════════════════════════════
-- The right key
-- ════════════════════════════════════════════════════════════════════════

/-- The file opens under the key of its vault. -/
structure VaultFile.OwnedBy (hkdf : Bytes → Bytes → UInt8 → Bytes) (file : VaultFile)
    (owner : Option (Bytes × UInt8)) : Prop where
  version : file.version = formatVersion
  key : ∃ exportKey, exportKey ≠ [] ∧ owner = some (exportKey, file.suiteVersion) ∧
    file.body.key = hkdf exportKey file.salt file.suiteVersion

/-- An edit of the contents stays under the key. -/
theorem UnlockedState.owned_edit {u : UnlockedState} {owner : Option (Bytes × UInt8)}
    (howned : u.file.OwnedBy hkdf owner) (contents : VaultContents) :
    ({ u with contents := contents } : UnlockedState).file.OwnedBy hkdf owner :=
  ⟨howned.version, howned.key⟩

theorem VaultFile.OwnedBy.opens {file : VaultFile} {exportKey : Bytes} {suiteVersion : UInt8}
    (howned : file.OwnedBy hkdf (some (exportKey, suiteVersion))) :
    file.openWithExportKey hkdf exportKey suiteVersion =
      .ok (file.body.key, file.body.payload) := by
  obtain ⟨hversion, key, hne, howner, hkey⟩ := howned
  cases howner
  rw [openWithExportKey, if_neg (by simp [hversion]), deriveMasterKey, if_neg hne]
  show (file.openWithKey (hkdf exportKey file.salt file.suiteVersion) >>= _) = _
  rw [← hkey, openWithKey, if_neg (by simp [hversion]), Sealed.open, if_pos rfl]
  rfl

/-- What an unlock with any key holds belongs to the vault. -/
theorem Disk.openBy_owned {openFile : VaultFile → Except VaultError (Bytes × VaultContents)}
    {u : UnlockedState} {owner : Option (Bytes × UInt8)} (hopen : d.openBy openFile = .ok u)
    (hbody : ∀ file master contents, openFile file = .ok (master, contents) →
      file.body = ⟨master, contents⟩)
    (howned : ∀ file, d.file = some file → file.OwnedBy hkdf owner) :
    u.file.OwnedBy hkdf owner := by
  rw [openBy] at hopen
  cases hfile : d.file with
  | none => rw [hfile] at hopen; cases hopen
  | some file =>
    rw [hfile] at hopen
    dsimp only at hopen
    cases hok : openFile file with
    | error err => rw [hok] at hopen; cases hopen
    | ok opened =>
      rw [hok] at hopen
      cases hopen
      obtain ⟨hversion, exportKey, hne, howner, hkey⟩ := howned file hfile
      rw [hbody file opened.1 opened.2 hok] at hkey
      exact ⟨rfl, exportKey, hne, howner, hkey⟩

-- ════════════════════════════════════════════════════════════════════════
-- The invariant
-- ════════════════════════════════════════════════════════════════════════

/-- A handle that holds contents, beside the files: with the generation on disk it
    has seen every published write. -/
structure UnlockedState.Inv (hkdf : Bytes → Bytes → UInt8 → Bytes) (w : World)
    (basis : Nat) (u : UnlockedState) : Prop where
  owned : u.file.OwnedBy hkdf w.owner
  generation : ∀ g, w.disk.peekGeneration = .ok g → u.generation ≤ g
  current : w.disk.peekGeneration = .ok u.generation → basis = w.version

/-- The handle holds nothing. -/
structure Holder.Empty (hd : Holder) : Prop where
  state : hd.state = none
  reading : hd.reading = none

structure Holder.Inv (hkdf : Bytes → Bytes → UInt8 → Bytes) (w : World) (hd : Holder) : Prop where
  state : ∀ u, hd.state = some u → u.Inv hkdf w hd.basis
  reading : ∀ u version, hd.reading = some (u, version) →
    u.file.OwnedBy hkdf w.owner ∧ version ≤ w.version

structure World.Inv (hkdf : Bytes → Bytes → UInt8 → Bytes) (w : World) : Prop where
  temp : w.disk.temp = none
  whole : w.disk.WholeGen
  file : ∀ file, w.disk.file = some file → w.disk.dir = true ∧ file.OwnedBy hkdf w.owner
  absent : w.disk.file = none → w.disk.Blank ∧
    ∀ h hd, w.handles.lookup h = some hd → hd.Empty
  handles : ∀ h hd, w.handles.lookup h = some hd → hd.Inv hkdf w

theorem World.inv_init : World.init.Inv hkdf where
  temp := rfl
  whole bytes hbytes := by cases hbytes
  file file hfile := by cases hfile
  absent _ := ⟨⟨rfl, rfl, rfl, rfl⟩, fun h hd hlook => by cases hlook⟩
  handles h hd hlook := by cases hlook

/-- An unlock with the right key opens the file. -/
theorem World.Inv.reopened (inv : w.Inv hkdf) {file : VaultFile} (hfile : w.disk.file = some file) :
    ∃ u, w.reopened hkdf = .ok u ∧ u.contents = file.body.payload := by
  obtain ⟨-, howned⟩ := inv.file file hfile
  obtain ⟨exportKey, -, howner, -⟩ := howned.key
  obtain ⟨g, hpeek⟩ := inv.whole.exists_peek
  rw [howner] at howned
  rw [World.reopened, howner]
  refine ⟨⟨file.body.payload, file.body.key, file.salt, file.suiteVersion, g⟩, ?_, rfl⟩
  show (w.disk.unlockMaster hkdf exportKey file.suiteVersion >>= _) = _
  rw [Disk.unlockMaster, Disk.openBy, hfile]
  show ((file.openWithExportKey hkdf exportKey file.suiteVersion).map _ >>= _) = _
  rw [howned.opens]
  show (w.disk.peekGeneration >>= _) = _
  rw [hpeek]
  rfl

theorem Disk.Blank.creatable (hblank : w.disk.Blank) : w.Creatable hkdf := by
  intro exportKey suiteVersion salt now hne
  rw [Disk.createResult, if_neg (by simp [hblank.nonEmpty]), Root.firstFile, deriveMasterKey,
    if_neg hne]
  exact ⟨_, rfl⟩

/-- An edit keeps the generation and the key. -/
theorem Holder.edited_eq_some {hd : Holder} {write : Write} {now nowUtc : Int}
    {u : UnlockedState} (h : hd.edited write now nowUtc = some u) :
    ∃ u₀ contents, hd.state = some u₀ ∧ u = { u₀ with contents := contents } := by
  obtain ⟨u₀, hstate, hedit⟩ := Option.bind_eq_some_iff.mp h
  obtain ⟨contents, -, rfl⟩ := Option.map_eq_some_iff.mp hedit
  exact ⟨u₀, contents, hstate, rfl⟩

/-- A handle that is behind publishes nothing. -/
theorem World.Inv.noOverwrite (inv : w.Inv hkdf) : w.NoOverwrite := by
  intro h hd hlook _ hbehind write now nowUtc cut
  rw [World.write]
  cases hedited : hd.edited write now nowUtc with
  | none => rfl
  | some u =>
    obtain ⟨u₀, contents, hstate, rfl⟩ := Holder.edited_eq_some hedited
    have hinv := (inv.handles h hd hlook).state u₀ hstate
    have hstale : w.disk.peekGeneration ≠ .ok u₀.generation := by
      intro hpeek
      have hbasis := hinv.current hpeek
      omega
    show (if (performed (w.disk.persistSteps _) cut).any FileStep.publishes then _ else _) = _
    rw [if_neg]
    obtain ⟨n, hn⟩ := exists_take (w.disk.persistSteps { u₀ with contents := contents }) cut
    rw [hn, Disk.persistSteps, if_neg hstale]
    cases n with
    | zero => simp
    | succ n => simp [FileStep.publishes]

-- ════════════════════════════════════════════════════════════════════════
-- Steps
-- ════════════════════════════════════════════════════════════════════════

theorem Holder.Empty.inv {hd : Holder} (hempty : hd.Empty) : hd.Inv hkdf w where
  state u hstate := by cases hempty.state.symm.trans hstate
  reading u version hreading := by cases hempty.reading.symm.trans hreading

/-- Steps that leave the files alone. -/
theorem World.Inv.setHandles (inv : w.Inv hkdf) {handles : FiniteMap Nat Holder}
    (h : ∀ j hd, handles.lookup j = some hd → w.handles.lookup j = some hd ∨ hd.Empty ∨
      w.disk.file ≠ none ∧ hd.Inv hkdf w) :
    ({ w with handles := handles } : World).Inv hkdf where
  temp := inv.temp
  whole := inv.whole
  file := inv.file
  absent hnone := by
    refine ⟨(inv.absent hnone).1, fun j hd hlook => ?_⟩
    rcases h j hd hlook with hold | hempty | ⟨hfile, -⟩
    · exact (inv.absent hnone).2 j hd hold
    · exact hempty
    · exact absurd hnone hfile
  handles j hd hlook := by
    have hinv : hd.Inv hkdf w := by
      rcases h j hd hlook with hold | hempty | ⟨-, hinv⟩
      · exact inv.handles j hd hold
      · exact hempty.inv
      · exact hinv
    refine ⟨fun u hstate => ?_, hinv.reading⟩
    obtain ⟨howned, hgen, hcurrent⟩ := hinv.state u hstate
    exact ⟨howned, hgen, hcurrent⟩

theorem World.Inv.insert (inv : w.Inv hkdf) {h : Nat} {hd' : Holder}
    (hnew : hd'.Empty ∨ w.disk.file ≠ none ∧ hd'.Inv hkdf w) :
    ({ w with handles := w.handles.insert h hd' } : World).Inv hkdf := by
  apply inv.setHandles
  intro j hd hlook
  rw [FiniteMap.lookup_insert_ite] at hlook
  by_cases hj : j = h
  · rw [if_pos hj] at hlook
    cases hlook
    exact Or.inr hnew
  · rw [if_neg hj] at hlook
    exact Or.inl hlook

theorem World.Inv.erase (inv : w.Inv hkdf) (h : Nat) :
    ({ w with handles := w.handles.erase h } : World).Inv hkdf := by
  apply inv.setHandles
  intro j hd hlook
  rw [FiniteMap.lookup_erase_ite] at hlook
  by_cases hj : j = h
  · rw [if_pos hj] at hlook
    cases hlook
  · rw [if_neg hj] at hlook
    exact Or.inl hlook

/-- The handle, between two calls, is one of the root's. -/
theorem World.lookup_of_idle {h : Nat} {hd : Holder} (hidle : w.idle h = some hd) :
    w.handles.lookup h = some hd ∧ hd.reading = none := by
  obtain ⟨hlook, hreading⟩ := Option.filter_eq_some_iff.mp hidle
  exact ⟨hlook, Option.isNone_iff_eq_none.mp hreading⟩

theorem World.Inv.file_ne_none (inv : w.Inv hkdf) {h : Nat} {hd : Holder}
    (hlook : w.handles.lookup h = some hd) (hholds : ¬ hd.Empty) : w.disk.file ≠ none :=
  fun hnone => hholds ((inv.absent hnone).2 h hd hlook)

theorem World.Inv.read (inv : w.Inv hkdf) {h : Nat} {hd : Holder}
    (hlook : w.handles.lookup h = some hd)
    {openFile : VaultFile → Except VaultError (Bytes × VaultContents)}
    (hbody : ∀ file master contents, openFile file = .ok (master, contents) →
      file.body = ⟨master, contents⟩) : (w.read h hd (w.disk.openBy openFile)).Inv hkdf := by
  cases hopen : w.disk.openBy openFile with
  | error err => exact inv
  | ok u =>
    have howned := Disk.openBy_owned hopen hbody fun file hfile => (inv.file file hfile).2
    refine inv.insert (Or.inr ⟨fun hnone => ?_, (inv.handles h hd hlook).state, ?_⟩)
    · rw [Disk.openBy, hnone] at hopen
      cases hopen
    · intro u' version hreading
      cases hreading
      exact ⟨howned, le_rfl⟩

/-- The generation belongs to the file that was read. -/
theorem World.Inv.peek (inv : w.Inv hkdf) {h : Nat} {hd : Holder} {u : UnlockedState}
    {version : Nat} (hlook : w.handles.lookup h = some hd)
    (hreading : hd.reading = some (u, version)) (hversion : version = w.version) :
    (w.peek h hd u version).Inv hkdf := by
  obtain ⟨g, hpeek⟩ := inv.whole.exists_peek
  have hholds : ¬ hd.Empty := fun hempty => by cases hempty.reading.symm.trans hreading
  rw [World.peek, hpeek]
  refine inv.insert (Or.inr ⟨inv.file_ne_none hlook hholds, ?_, fun _ _ h => by cases h⟩)
  intro u' hu'
  cases hu'
  refine ⟨⟨?_, ?_⟩, fun g' hg' => ?_, fun _ => hversion⟩
  · exact ((inv.handles h hd hlook).reading u version hreading).1.version
  · exact ((inv.handles h hd hlook).reading u version hreading).1.key
  · rw [hpeek] at hg'
    cases hg'
    exact le_rfl

/-- What a handle knows that has not seen a write. -/
theorem UnlockedState.Inv.unseen {u u' : UnlockedState} {basis : Nat} {steps : List FileStep}
    (inv : u'.Inv hkdf w basis) (hspec : w.disk.Persisted u steps w'.disk)
    (howner : w'.owner = w.owner)
    (hversion : w'.version =
      if steps.any FileStep.publishes then w.version + 1 else w.version)
    (hspared : steps.any FileStep.publishes = true → steps.any FileStep.counts = true ∨
      w.disk.peekGeneration ≠ .ok u'.generation) : u'.Inv hkdf w' basis := by
  by_cases hcounts : steps.any FileStep.counts = true
  · have hpeek := hspec.current (hspec.ordered hcounts)
    have hpeek' := hspec.counted hcounts
    have hle := inv.generation _ hpeek
    refine ⟨howner ▸ inv.owned, fun g hg => ?_, fun hg => ?_⟩
    · rw [hpeek'] at hg
      cases hg
      omega
    · rw [hpeek'] at hg
      have heq := Except.ok.inj hg
      omega
  · have hpeek' := hspec.uncounted (Bool.eq_false_iff.mpr hcounts)
    refine ⟨howner ▸ inv.owned, fun g hg => inv.generation g (hpeek' ▸ hg), fun hg => ?_⟩
    rw [hpeek'] at hg
    have hunpublished : ¬ steps.any FileStep.publishes = true := by
      intro hpublishes
      rcases hspared hpublishes with hcounted | hstale
      · exact hcounts hcounted
      · exact hstale hg
    rw [hversion, if_neg hunpublished]
    exact inv.current hg

/-- What the handle of a write knows, whatever its generation becomes. -/
theorem UnlockedState.Inv.written {u : UnlockedState} {basis : Nat} {steps : List FileStep}
    (inv : u.Inv hkdf w basis) (hspec : w.disk.Persisted u steps w'.disk)
    (howner : w'.owner = w.owner)
    (hversion : w'.version =
      if steps.any FileStep.publishes then w.version + 1 else w.version) (returns : Prop)
    [Decidable returns] :
    (if returns ∧ steps.any FileStep.counts = true then
      { u with generation := u.generation + 1 } else u).Inv hkdf w'
      (if steps.any FileStep.publishes then w.version + 1 else basis) := by
  by_cases hpublishes : steps.any FileStep.publishes = true
  · rw [if_pos hpublishes] at hversion ⊢
    have hpeek := hspec.current hpublishes
    by_cases hcounts : steps.any FileStep.counts = true
    · have hpeek' := hspec.counted hcounts
      split
      next =>
        refine ⟨howner ▸ inv.owned, fun g hg => ?_, fun _ => hversion.symm⟩
        rw [hpeek'] at hg
        cases hg
        exact le_rfl
      next =>
        refine ⟨howner ▸ inv.owned, fun g hg => ?_, fun _ => hversion.symm⟩
        rw [hpeek'] at hg
        cases hg
        omega
    · have hpeek' := hspec.uncounted (Bool.eq_false_iff.mpr hcounts)
      rw [if_neg fun h => hcounts h.2]
      exact ⟨howner ▸ inv.owned, fun g hg => inv.generation g (hpeek' ▸ hg), fun _ => hversion.symm⟩
  · have hcounts : ¬ steps.any FileStep.counts = true := fun h => hpublishes (hspec.ordered h)
    rw [if_neg hpublishes, if_neg fun h => hcounts h.2]
    exact inv.unseen hspec howner hversion fun h => absurd h hpublishes

theorem World.version_le_persist (w : World) {h : Nat} {hd : Holder} {u : UnlockedState}
    {cut : Option Cut} : w.version ≤ (w.persist h hd u cut).version := by
  show w.version ≤ if (performed (w.disk.persistSteps u) cut).any FileStep.publishes then _ else _
  split
  next => exact Nat.le_succ w.version
  next => exact le_rfl

/-- **Step lemma** for a write. -/
theorem World.Inv.persist (inv : w.Inv hkdf) {h : Nat} {hd : Holder} {u u₀ : UnlockedState}
    {contents : VaultContents} {cut : Option Cut} (hlook : w.handles.lookup h = some hd)
    (hstate : hd.state = some u₀) (hu : u = { u₀ with contents := contents })
    (hspared : (performed (w.disk.persistSteps u) cut).any FileStep.publishes = true →
      (performed (w.disk.persistSteps u) cut).any FileStep.counts = true ∨
        ∀ j hdj, w.handles.lookup j = some hdj → j ≠ h → hdj.current w.disk = false) :
    (w.persist h hd u cut).Inv hkdf := by
  have hspec : w.disk.Persisted u (performed (w.disk.persistSteps u) cut)
      (w.persist h hd u cut).disk := Disk.persisted u inv.whole cut
  obtain ⟨howned₀, hgeneration, hcurrent⟩ := (inv.handles h hd hlook).state u₀ hstate
  have hinv : u.Inv hkdf w hd.basis := by
    subst hu
    exact ⟨UnlockedState.owned_edit howned₀ contents, hgeneration, hcurrent⟩
  have hholds : ¬ hd.Empty := fun hempty => by cases hempty.state.symm.trans hstate
  obtain ⟨file, hfile⟩ := Option.ne_none_iff_exists'.mp (inv.file_ne_none hlook hholds)
  have hdir := (inv.file file hfile).1
  constructor
  · exact hspec.temp
  · exact hspec.whole
  · intro file' hfile'
    refine ⟨hspec.dir.trans hdir, ?_⟩
    by_cases hpublishes :
        (performed (w.disk.persistSteps u) cut).any FileStep.publishes = true
    · cases (hspec.published hpublishes).symm.trans hfile'
      exact hinv.owned
    · have hkept := hspec.kept (Bool.eq_false_iff.mpr hpublishes)
      exact (inv.file file' (hkept.symm.trans hfile')).2
  · intro hnone
    have hsome : (w.persist h hd u cut).disk.file ≠ none := by
      by_cases hpublishes :
          (performed (w.disk.persistSteps u) cut).any FileStep.publishes = true
      · rw [hspec.published hpublishes]
        exact Option.some_ne_none _
      · rw [hspec.kept (Bool.eq_false_iff.mpr hpublishes), hfile]
        exact Option.some_ne_none _
    exact absurd hnone hsome
  · intro j hdj hlookj
    have hothers : ∀ hdj, w.handles.lookup j = some hdj → j ≠ h →
        hdj.Inv hkdf (w.persist h hd u cut) := by
      intro hdj hlookj hne
      have hinvj := inv.handles j hdj hlookj
      refine ⟨fun uj hstatej => (hinvj.state uj hstatej).unseen hspec rfl rfl fun hpublishes => ?_,
        fun uj version hreading => ?_⟩
      · rcases hspared hpublishes with hcounts | hothers
        · exact Or.inl hcounts
        · refine Or.inr fun hpeek => ?_
          have hstale := hothers j hdj hlookj hne
          rw [Holder.current, hstatej, Option.any_some, hpeek] at hstale
          simp at hstale
      · obtain ⟨howned, hle⟩ := hinvj.reading uj version hreading
        exact ⟨howned, hle.trans (World.version_le_persist w)⟩
    have hhandles : (w.persist h hd u cut).handles =
        if crashed cut then w.handles.erase h else w.handles.insert h _ := rfl
    rw [hhandles] at hlookj
    by_cases hcrash : crashed cut = true
    · rw [if_pos hcrash, FiniteMap.lookup_erase_ite] at hlookj
      by_cases hj : j = h
      · rw [if_pos hj] at hlookj
        cases hlookj
      · rw [if_neg hj] at hlookj
        exact hothers hdj hlookj hj
    · rw [if_neg hcrash, FiniteMap.lookup_insert_ite] at hlookj
      by_cases hj : j = h
      · rw [if_pos hj] at hlookj
        cases hlookj
        refine ⟨fun uj hstatej => ?_, fun _ _ hreading => by cases hreading⟩
        cases hstatej
        exact hinv.written hspec rfl rfl (cut = none)
      · rw [if_neg hj] at hlookj
        exact hothers hdj hlookj hj

/-- A root that is not empty holds a vault. -/
theorem World.Inv.blank (inv : w.Inv hkdf) (hempty : w.disk.nonEmpty = false) :
    w.disk.Blank ∧ ∀ h hd, w.handles.lookup h = some hd → hd.Empty := by
  apply inv.absent
  cases hfile : w.disk.file with
  | none => rfl
  | some file =>
    rw [Disk.nonEmpty, (inv.file file hfile).1, hfile] at hempty
    cases hempty

/-- No step is performed. -/
theorem Disk.perform_nil (htemp : d.temp = none) (cut : Option Cut) : d.perform [] cut = d := by
  have hnil : performed [] cut = [] := by cases cut <;> simp [performed]
  rw [perform, hnil, List.foldl_nil, settle, htemp, Option.isSome_none, Bool.and_false,
    if_neg Bool.false_ne_true, ← htemp]

theorem World.firstFile_owned {exportKey salt : Bytes} {suiteVersion : UInt8} {now : Int}
    {u : UnlockedState} (hfirst : Root.firstFile hkdf exportKey suiteVersion salt now = .ok u) :
    u.file.OwnedBy hkdf (some (exportKey, suiteVersion)) ∧ u.generation = 0 ∧
      u.contents = VaultContents.new now := by
  rw [Root.firstFile, deriveMasterKey] at hfirst
  by_cases hne : exportKey = []
  · rw [if_pos hne] at hfirst
    cases hfirst
  · rw [if_neg hne] at hfirst
    cases hfirst
    exact ⟨⟨rfl, exportKey, hne, rfl, rfl⟩, rfl, rfl⟩

section Create

variable {h : Nat} {exportKey salt : Bytes} {suiteVersion : UInt8} {now : Int} {cut : Option Cut}

/-- `create` refuses a root that is not empty. -/
theorem World.Inv.createFiles_of_nonEmpty (inv : w.Inv hkdf) (hnonEmpty : w.disk.nonEmpty = true) :
    w.createFiles hkdf exportKey suiteVersion salt now cut = w := by
  have hsteps : w.disk.createSteps hkdf exportKey suiteVersion salt now = [] := by
    rw [Disk.createSteps, if_pos hnonEmpty]
  have hnil : performed [] cut = [] := by cases cut <;> simp [performed]
  rw [createFiles, hsteps, perform, hnil, Disk.perform_nil inv.temp]
  rfl

/-- The files that `create` leaves of an empty root. -/
theorem World.Inv.createFiles (inv : w.Inv hkdf) (hempty : w.disk.nonEmpty = false)
    (hspared : w.Spared hkdf (.create h exportKey suiteVersion salt now cut) = true) :
    (w.createFiles hkdf exportKey suiteVersion salt now cut).Inv hkdf ∧
      ((w.createFiles hkdf exportKey suiteVersion salt now cut).disk.file = w.disk.file ∨
        ∃ file, (w.createFiles hkdf exportKey suiteVersion salt now cut).disk.file = some file ∧
          file.body.payload = VaultContents.new now) := by
  obtain ⟨hblank, hlocked⟩ := inv.blank hempty
  have hspec : Disk.Created _ _ _ (w.createFiles hkdf exportKey suiteVersion salt now cut).disk :=
    Disk.created hblank cut
  rw [Spared, Bool.not_eq_true'] at hspared
  by_cases hpublishes : (performed (w.disk.createSteps hkdf exportKey suiteVersion salt now)
      cut).any FileStep.publishes = true
  · obtain ⟨hdir, -, u, hfirst, hfile⟩ := hspec.published hpublishes
    have howner : (w.createFiles hkdf exportKey suiteVersion salt now cut).owner =
        some (exportKey, suiteVersion) := if_pos hpublishes
    obtain ⟨howned, -, hcontents⟩ := firstFile_owned hfirst
    refine ⟨⟨hspec.temp, hspec.whole, ?_, ?_, ?_⟩, Or.inr ⟨u.file, hfile, hcontents⟩⟩
    · intro file hfile'
      cases hfile.symm.trans hfile'
      exact ⟨hdir, howner ▸ howned⟩
    · intro hnone
      cases hfile.symm.trans hnone
    · exact fun j hd hlook => (hlocked j hd hlook).inv
  · have hunpublished := Bool.eq_false_iff.mpr hpublishes
    rw [hunpublished, Bool.not_false, Bool.and_true] at hspared
    have hblank' := hspec.blank hunpublished hspared
    refine ⟨⟨hspec.temp, hspec.whole, ?_, ?_, ?_⟩, Or.inl (hblank'.file.trans hblank.file.symm)⟩
    · intro file hfile
      cases hblank'.file.symm.trans hfile
    · exact fun _ => ⟨hblank', hlocked⟩
    · exact fun j hd hlook => (hlocked j hd hlook).inv

theorem World.Inv.create_of_nonEmpty (inv : w.Inv hkdf) (hnonEmpty : w.disk.nonEmpty = true) :
    w.create hkdf h exportKey suiteVersion salt now cut = w := by
  cases cut with
  | some cut => exact inv.createFiles_of_nonEmpty hnonEmpty
  | none =>
    show (w.createFiles hkdf exportKey suiteVersion salt now none).created h _ = w
    rw [inv.createFiles_of_nonEmpty hnonEmpty, Disk.createResult, if_pos hnonEmpty]
    rfl

/-- **Step lemma** for `create`. -/
theorem World.Inv.create (inv : w.Inv hkdf)
    (hspared : w.Spared hkdf (.create h exportKey suiteVersion salt now cut) = true) :
    (w.create hkdf h exportKey suiteVersion salt now cut).Inv hkdf ∧
      ((w.create hkdf h exportKey suiteVersion salt now cut).disk.file = w.disk.file ∨
        ∃ file, (w.create hkdf h exportKey suiteVersion salt now cut).disk.file = some file ∧
          file.body.payload = VaultContents.new now) := by
  by_cases hnonEmpty : w.disk.nonEmpty = true
  · rw [inv.create_of_nonEmpty hnonEmpty]
    exact ⟨inv, Or.inl rfl⟩
  · have hempty := Bool.eq_false_iff.mpr hnonEmpty
    obtain ⟨hinv, hfile⟩ := inv.createFiles hempty hspared
    cases cut with
    | some cut => exact ⟨hinv, hfile⟩
    | none =>
      have hresult : w.disk.createResult hkdf exportKey suiteVersion salt now =
          Root.firstFile hkdf exportKey suiteVersion salt now := if_neg hnonEmpty
      show ((w.createFiles hkdf exportKey suiteVersion salt now none).created h _).Inv hkdf ∧ _
      rw [World.create, hresult]
      cases hfirst : Root.firstFile hkdf exportKey suiteVersion salt now with
      | error err => exact ⟨hinv, hfile⟩
      | ok u =>
        have hspec : Disk.Created (Root.firstFile hkdf exportKey suiteVersion salt now) _ _
            (w.createFiles hkdf exportKey suiteVersion salt now none).disk :=
          Disk.created (inv.blank hempty).1 none
        have hpublishes : (performed (w.disk.createSteps hkdf exportKey suiteVersion salt now)
            none).any FileStep.publishes = true := by
          rw [performed, Disk.createSteps, if_neg hnonEmpty, hfirst]
          rfl
        obtain ⟨-, hpeek, u', hfirst', hfile'⟩ := hspec.published hpublishes
        cases hfirst.symm.trans hfirst'
        have hgen := (firstFile_owned hfirst).2.1
        have hsome :
            (w.createFiles hkdf exportKey suiteVersion salt now none).disk.file ≠ none := by
          rw [hfile']
          exact Option.some_ne_none u.file
        refine ⟨hinv.insert (Or.inr ⟨hsome, fun u' hu' => ?_, fun _ _ h => by cases h⟩), hfile⟩
        cases hu'
        refine ⟨(hinv.file u.file hfile').2, fun g hg => ?_, fun _ => rfl⟩
        rw [hpeek] at hg
        cases hg
        exact hgen.le

end Create

theorem World.read_disk (w : World) (h : Nat) (hd : Holder)
    (result : Except VaultError UnlockedState) : (w.read h hd result).disk = w.disk := by
  cases result with
  | error err => rfl
  | ok u => rfl

theorem World.peek_disk (w : World) (h : Nat) (hd : Holder) (u : UnlockedState) (version : Nat) :
    (w.peek h hd u version).disk = w.disk := by
  rw [peek]
  split
  next => rfl
  next => rfl

/-- **Step lemma**: the invariant, and the file that is there. -/
theorem World.Inv.step (inv : w.Inv hkdf) {a : VaultAction}
    (hspared : w.Spared hkdf a = true) (hnext : w.next hkdf a = some w') :
    w'.Inv hkdf ∧ (w'.disk.file = w.disk.file ∨
      ∃ file, w'.disk.file = some file ∧ w.newContents a = some file.body.payload) := by
  cases a with
  | new h =>
    rw [next] at hnext
    split at hnext
    next => cases hnext
    next =>
      cases hnext
      exact ⟨inv.insert (Or.inl ⟨rfl, rfl⟩), Or.inl rfl⟩
  | create h exportKey suiteVersion salt now cut =>
    rw [next] at hnext
    split at hnext
    next => cases hnext
    next =>
      cases hnext
      obtain ⟨hinv, hfile⟩ := inv.create hspared
      refine ⟨hinv, hfile.imp_right ?_⟩
      rintro ⟨file, hfile, hpayload⟩
      exact ⟨file, hfile, congrArg some hpayload.symm⟩
  | unlockMaster h exportKey suiteVersion =>
    obtain ⟨hd, hidle, rfl⟩ := Option.map_eq_some_iff.mp hnext
    obtain ⟨hlook, -⟩ := lookup_of_idle hidle
    refine ⟨inv.read hlook fun _ _ _ => VaultFile.openWithExportKey_eq_ok, Or.inl ?_⟩
    rw [read_disk]
  | openWithMaster h master =>
    obtain ⟨hd, hidle, rfl⟩ := Option.map_eq_some_iff.mp hnext
    obtain ⟨hlook, -⟩ := lookup_of_idle hidle
    refine ⟨inv.read hlook fun _ _ _ => VaultFile.openWithKey_map_eq_ok, Or.inl ?_⟩
    rw [read_disk]
  | peek h =>
    obtain ⟨hd, hlook, hpeek⟩ := Option.bind_eq_some_iff.mp hnext
    obtain ⟨⟨u, version⟩, hreading, rfl⟩ := Option.map_eq_some_iff.mp hpeek
    rw [Spared, hlook, Option.bind_some, hreading, Option.all_some, beq_iff_eq] at hspared
    refine ⟨inv.peek hlook hreading hspared, Or.inl ?_⟩
    rw [peek_disk]
  | lock h =>
    obtain ⟨hd, hidle, rfl⟩ := Option.map_eq_some_iff.mp hnext
    exact ⟨inv.insert (Or.inl ⟨rfl, (lookup_of_idle hidle).2⟩), Or.inl rfl⟩
  | drop h =>
    cases hnext
    exact ⟨inv.erase h, Or.inl rfl⟩
  | write h write now nowUtc cut =>
    obtain ⟨hd, hidle, rfl⟩ := Option.map_eq_some_iff.mp hnext
    obtain ⟨hlook, -⟩ := lookup_of_idle hidle
    rw [World.write]
    cases hedited : hd.edited write now nowUtc with
    | none => exact ⟨inv, Or.inl rfl⟩
    | some u =>
      obtain ⟨u₀, contents, hstate, hu⟩ := Holder.edited_eq_some hedited
      rw [Spared, hlook, Option.bind_some, hedited, Option.all_some] at hspared
      refine ⟨inv.persist hlook hstate hu fun hpublishes => ?_, ?_⟩
      · simp only [hpublishes, Bool.not_true, Bool.false_or, Bool.or_eq_true] at hspared
        refine hspared.imp_right fun hothers j hdj hlookj hne => ?_
        have hj := (FiniteMap.all_eq_true_iff _ _).mp hothers j hdj hlookj
        rw [Bool.or_eq_true, beq_iff_eq, Bool.not_eq_true'] at hj
        exact hj.resolve_left hne
      · have hspec := Disk.persisted u inv.whole cut
        by_cases hpublishes :
            (performed (w.disk.persistSteps u) cut).any FileStep.publishes = true
        · right
          refine ⟨u.file, hspec.published hpublishes, ?_⟩
          rw [newContents, hlook, Option.bind_some, hedited]
          rfl
        · exact Or.inl (hspec.kept (Bool.eq_false_iff.mpr hpublishes))

theorem World.Inv.crashSafe {a : VaultAction} (inv : w.Inv hkdf) (inv' : w'.Inv hkdf)
    (hfile : w'.disk.file = w.disk.file ∨
      ∃ file, w'.disk.file = some file ∧ w.newContents a = some file.body.payload) :
    CrashSafe hkdf w a w' := by
  refine ⟨?_, inv'.noOverwrite⟩
  cases hfile' : w'.disk.file with
  | none => exact Or.inr (inv'.absent hfile').1.creatable
  | some file =>
    obtain ⟨u', hopen', hcontents'⟩ := inv'.reopened hfile'
    refine Or.inl ⟨u', hopen', ?_⟩
    rcases hfile with hsame | ⟨file', hnew, hcontents⟩
    · obtain ⟨u, hopen, hcontents⟩ := inv.reopened (hsame.symm.trans hfile')
      exact Or.inl ⟨u, hopen, hcontents'.trans hcontents.symm⟩
    · cases hfile'.symm.trans hnew
      exact Or.inr (hcontents'.symm ▸ hcontents)

-- ════════════════════════════════════════════════════════════════════════
-- Exactness
-- ════════════════════════════════════════════════════════════════════════

/-- Nothing opens a root without a file, and `create` refuses one that is not empty. -/
theorem World.not_recovers {a : VaultAction} (hfile : w'.disk.file = none)
    (hnonEmpty : w'.disk.nonEmpty = true) : ¬ w.Recovers hkdf a w' := by
  rintro (⟨u', hopen, -⟩ | hcreate)
  · rw [reopened] at hopen
    split at hopen
    next => cases hopen
    next =>
      rw [Disk.unlockMaster, Disk.openBy, hfile] at hopen
      cases hopen
  · obtain ⟨u, hresult⟩ := hcreate [0] 0 [] 0 (List.cons_ne_nil _ _)
    rw [Disk.createResult, if_pos hnonEmpty] at hresult
    cases hresult

/-- A handle with the generation on disk can publish. -/
theorem World.exists_publishing {h : Nat} {hd : Holder} (hcurrent : hd.current w.disk = true) :
    ∃ write, (w.write h hd write 0 0 none).version = w.version + 1 := by
  rw [Holder.current] at hcurrent
  obtain ⟨u, hstate, hpeek⟩ := (Option.any_eq_true _ _).mp hcurrent
  have hpeek' := of_decide_eq_true hpeek
  refine ⟨.put ⟨"a", "a"⟩ ⟨.password, [], 0, 0, none, [], []⟩, ?_⟩
  obtain ⟨contents, hedit⟩ : ∃ contents, u.contents.put u.master ⟨"a", "a"⟩
      ⟨.password, [], 0, 0, none, [], []⟩ 0 0 = .ok contents := by
    have hvalid : (⟨"a", "a"⟩ : SecretKey).validate = .ok () := by decide
    rw [VaultContents.put, hvalid]
    exact ⟨_, rfl⟩
  rw [World.write, Holder.edited, hstate, Option.bind_some, Write.edit, hedit]
  show (w.persist h hd { u with contents := contents } none).version = w.version + 1
  exact if_pos ((w.disk.persistSteps_publishes { u with contents := contents }).mpr hpeek')

/-- A handle that is behind and has the generation on disk overwrites. -/
theorem World.not_noOverwrite {h : Nat} {hd : Holder} (hlook : w.handles.lookup h = some hd)
    (hcurrent : hd.current w.disk = true) (hbehind : hd.basis < w.version) : ¬ w.NoOverwrite := by
  intro hno
  obtain ⟨write, hwrite⟩ := exists_publishing hcurrent
  have hstate : hd.state.isSome := by
    obtain ⟨u, hstate, -⟩ := (Option.any_eq_true _ _).mp hcurrent
    rw [hstate]
    rfl
  have hkept := hno h hd hlook hstate hbehind write 0 0 none
  rw [hwrite] at hkept
  omega

theorem World.Inv.not_recovers_create (inv : w.Inv hkdf) {a : VaultAction} {h : Nat}
    {exportKey salt : Bytes} {suiteVersion : UInt8} {now : Int} {cut : Option Cut}
    (hunspared : w.Spared hkdf (.create h exportKey suiteVersion salt now cut) = false) :
    ¬ w.Recovers hkdf a (w.create hkdf h exportKey suiteVersion salt now cut) := by
  simp only [Spared, Bool.not_eq_false', Bool.and_eq_true, Bool.not_eq_true'] at hunspared
  obtain ⟨⟨hcrash, htemp⟩, hunpublished⟩ := hunspared
  have hempty : w.disk.nonEmpty = false := by
    by_cases hnonEmpty : w.disk.nonEmpty = true
    · rw [Disk.createSteps, if_pos hnonEmpty] at htemp
      cases cut <;> simp [performed] at htemp
    · exact Bool.eq_false_iff.mpr hnonEmpty
  have hspec : Disk.Created _ _ _ (w.createFiles hkdf exportKey suiteVersion salt now cut).disk :=
    Disk.created (inv.blank hempty).1 cut
  obtain ⟨hdir, hlitter, hfile⟩ := hspec.littered hunpublished (by rw [hcrash, htemp]; rfl)
  cases cut with
  | none => cases hcrash
  | some cut =>
    apply not_recovers hfile
    show (w.createFiles hkdf exportKey suiteVersion salt now (some cut)).disk.nonEmpty = true
    simp only [Disk.nonEmpty, hdir, bne_iff_ne.mpr hlitter, Bool.or_true, Bool.and_true]

theorem World.Inv.not_noOverwrite_persist (inv : w.Inv hkdf) {h j : Nat} {hd hdj : Holder}
    {u : UnlockedState} {cut : Option Cut}
    (hpublishes : (performed (w.disk.persistSteps u) cut).any FileStep.publishes = true)
    (huncounted : (performed (w.disk.persistSteps u) cut).any FileStep.counts = false)
    (hlookj : w.handles.lookup j = some hdj) (hne : j ≠ h) (hcurrent : hdj.current w.disk = true) :
    ¬ (w.persist h hd u cut).NoOverwrite := by
  have hspec : w.disk.Persisted u (performed (w.disk.persistSteps u) cut)
      (w.persist h hd u cut).disk := Disk.persisted u inv.whole cut
  have hversion : (w.persist h hd u cut).version = w.version + 1 := if_pos hpublishes
  obtain ⟨uj, hstate, hpeek⟩ := (Option.any_eq_true _ _).mp hcurrent
  have hbasis := ((inv.handles j hdj hlookj).state uj hstate).current (of_decide_eq_true hpeek)
  have hlookj' : (w.persist h hd u cut).handles.lookup j = some hdj := by
    show AList.lookup j (if crashed cut then w.handles.erase h else w.handles.insert h _) = _
    by_cases hcrash : crashed cut = true
    · rw [if_pos hcrash, AList.lookup_erase_ne hne, hlookj]
    · rw [if_neg hcrash, AList.lookup_insert_ne hne, hlookj]
  refine not_noOverwrite hlookj' ?_ (by omega)
  rw [Holder.current, hspec.uncounted huncounted]
  exact hcurrent

/-- The generation of a file that has been replaced since. -/
theorem World.Inv.not_noOverwrite_peek (inv : w.Inv hkdf) {h : Nat} {hd : Holder}
    {u : UnlockedState} {version : Nat} (hlook : w.handles.lookup h = some hd)
    (hreading : hd.reading = some (u, version)) (hne : version ≠ w.version) :
    ¬ (w.peek h hd u version).NoOverwrite := by
  obtain ⟨g, hpeek⟩ := inv.whole.exists_peek
  have hle := ((inv.handles h hd hlook).reading u version hreading).2
  rw [World.peek, hpeek]
  refine not_noOverwrite (AList.lookup_insert _) ?_ (lt_of_le_of_ne hle hne)
  rw [Holder.current, Option.any_some, decide_eq_true_iff]
  exact hpeek

theorem World.Inv.not_crashSafe {a : VaultAction} (inv : w.Inv hkdf)
    (hunspared : w.Spared hkdf a = false) (hnext : w.next hkdf a = some w') :
    ¬ CrashSafe hkdf w a w' := by
  cases a with
  | create h exportKey suiteVersion salt now cut =>
    rw [next] at hnext
    split at hnext
    next => cases hnext
    next =>
      cases hnext
      exact fun hsafe => inv.not_recovers_create hunspared hsafe.recovers
  | write h write now nowUtc cut =>
    obtain ⟨hd, hidle, rfl⟩ := Option.map_eq_some_iff.mp hnext
    rw [Spared, (lookup_of_idle hidle).1, Option.bind_some] at hunspared
    cases hedited : hd.edited write now nowUtc with
    | none =>
      rw [hedited] at hunspared
      cases hunspared
    | some u =>
      rw [hedited, Option.all_some] at hunspared
      simp only [Bool.or_eq_false_iff, Bool.not_eq_false'] at hunspared
      obtain ⟨⟨hpublishes, huncounted⟩, hothers⟩ := hunspared
      obtain ⟨j, hdj, hlookj, hne, hcurrent⟩ : ∃ j hdj, w.handles.lookup j = some hdj ∧ j ≠ h ∧
          hdj.current w.disk = true := by
        by_contra hnone
        have hall := (FiniteMap.all_eq_true_iff (fun j hdj => j == h || !hdj.current w.disk)
          w.handles).mpr fun j hdj hlookj => by
            by_cases hne : j = h
            · simp [hne]
            · have hstale : hdj.current w.disk = false :=
                Bool.eq_false_iff.mpr fun hcurrent => hnone ⟨j, hdj, hlookj, hne, hcurrent⟩
              simp [hstale]
        rw [hall] at hothers
        cases hothers
      rw [World.write, hedited]
      exact fun hsafe => inv.not_noOverwrite_persist hpublishes huncounted hlookj hne hcurrent
        hsafe.noOverwrite
  | peek h =>
    obtain ⟨hd, hlook, hpeek⟩ := Option.bind_eq_some_iff.mp hnext
    obtain ⟨⟨u, version⟩, hreading, rfl⟩ := Option.map_eq_some_iff.mp hpeek
    rw [Spared, hlook, Option.bind_some, hreading, Option.all_some,
      beq_eq_false_iff_ne] at hunspared
    exact fun hsafe => inv.not_noOverwrite_peek hlook hreading hunspared hsafe.noOverwrite
  | new h => cases hunspared
  | unlockMaster h exportKey suiteVersion => cases hunspared
  | openWithMaster h master => cases hunspared
  | lock h => cases hunspared
  | drop h => cases hunspared

-- ════════════════════════════════════════════════════════════════════════
-- Writes that nothing cuts
-- ════════════════════════════════════════════════════════════════════════

/-- The number in the sidecar. -/
def Disk.number (d : Disk) : Option Nat :=
  d.genFile.map fun bytes => (readGenFrom bytes).toOption.getD 0

theorem Disk.number_getD {g : Nat} (hpeek : d.peekGeneration = .ok g) : d.number.getD 0 = g := by
  rw [peekGeneration] at hpeek
  cases hgen : d.genFile with
  | none =>
    rw [hgen] at hpeek
    rw [number, hgen]
    exact Except.ok.inj hpeek
  | some bytes =>
    rw [hgen] at hpeek
    dsimp only at hpeek
    rw [number, hgen, Option.map_some, hpeek]
    rfl

theorem Disk.number_eq {g : Nat} (hsome : d.genFile ≠ none) (hpeek : d.peekGeneration = .ok g) :
    d.number = some g := by
  obtain ⟨bytes, hgen⟩ := Option.ne_none_iff_exists'.mp hsome
  have hg := number_getD hpeek
  rw [number, hgen, Option.map_some] at hg ⊢
  exact congrArg some hg

/-- A handle and the files, as one call sees them. -/
def World.session (w : World) (hd : Holder) : Session := ⟨hd.state, w.disk.file, w.disk.number⟩

/-- A `persist` that meets no error. -/
theorem Session.persist_none {u : UnlockedState} {file : Option VaultFile} {genFile : Option Nat}
    {g : Nat} (hg : Session.diskGen ⟨some u, file, genFile⟩ = g) :
    (Session.persist ⟨some u, file, genFile⟩ Faults.none).2 =
      if g = u.generation then
        if u.generation + 1 < u64Bound then
          ⟨some { u with generation := u.generation + 1 }, some u.file, some (u.generation + 1)⟩
        else ⟨some u, some u.file, some u.generation⟩
      else ⟨some u, file, some g⟩ := by
  simp only [Session.persist, Faults.none, hg]
  by_cases hcurrent : g = u.generation
  · rw [if_neg (not_not.mpr hcurrent), if_pos hcurrent, Session.bump, hcurrent]
    by_cases hbound : u.generation + 1 < u64Bound
    · rw [if_neg (Nat.not_le.mpr hbound), if_pos hbound]
    · rw [if_pos (Nat.not_lt.mp hbound), if_neg hbound]
  · rw [if_pos hcurrent, if_neg hcurrent]

/-- **Refinement**: the file steps of a write that nothing cuts add up to a call that
    meets no error. -/
theorem World.Inv.write_uncut (inv : w.Inv hkdf) {h : Nat} {hd : Holder}
    (hlook : w.handles.lookup h = some hd) (write : Write) (now nowUtc : Int) :
    ∃ hd', (w.write h hd write now nowUtc none).handles.lookup h = some hd' ∧
      (w.write h hd write now nowUtc none).session hd' =
        (write.run Faults.none now nowUtc (w.session hd)).2 := by
  have hmemory : (w.session hd).memory = hd.state := rfl
  rw [Write.run, hmemory]
  cases hstate : hd.state with
  | none =>
    have hedited : hd.edited write now nowUtc = none := by
      rw [Holder.edited, hstate]
      rfl
    rw [World.write, hedited]
    exact ⟨hd, hlook, rfl⟩
  | some u₀ =>
    dsimp only
    cases hedit : write.edit u₀.contents u₀.master now nowUtc with
    | error err =>
      have hedited : hd.edited write now nowUtc = none := by
        rw [Holder.edited, hstate, Option.bind_some, hedit]
        rfl
      rw [World.write, hedited, Write.edited, hedit]
      exact ⟨hd, hlook, rfl⟩
    | ok contents =>
      obtain ⟨u, hu⟩ : ∃ u, u = { u₀ with contents := contents } := ⟨_, rfl⟩
      have hedited : hd.edited write now nowUtc = some u := by
        rw [Holder.edited, hstate, Option.bind_some, hedit, hu]
        rfl
      have hspared : write.edited Faults.none u₀ now nowUtc = .ok contents := by
        rw [Write.edited, hedit]
        cases write <;> rfl
      obtain ⟨g, hpeek⟩ := inv.whole.exists_peek
      have hspec : w.disk.Persisted u (w.disk.persistSteps u) (w.persist h hd u none).disk :=
        Disk.persisted u inv.whole none
      have hpublishes := w.disk.persistSteps_publishes u
      have hcounts := w.disk.persistSteps_counts u
      have hsidecar := hspec.sidecar (List.cons_ne_nil _ _)
      rw [hpeek, Except.ok.injEq] at hpublishes hcounts
      rw [hspared, World.write, hedited]
      refine ⟨_, AList.lookup_insert _, ?_⟩
      show Session.mk
          (some (if none = none ∧ (w.disk.persistSteps u).any FileStep.counts = true then
            { u with generation := u.generation + 1 } else u)) (w.persist h hd u none).disk.file
          (w.persist h hd u none).disk.number =
        (Session.persist ⟨some { u₀ with contents := contents }, w.disk.file, w.disk.number⟩
          Faults.none).2
      have hgen : Session.diskGen ⟨some u, w.disk.file, w.disk.number⟩ = g :=
        Disk.number_getD hpeek
      rw [← hu, Session.persist_none hgen]
      by_cases hcurrent : g = u.generation
      · have hcurrent' := hpublishes.mpr hcurrent
        rw [if_pos hcurrent, hspec.published hcurrent']
        by_cases hbound : u.generation + 1 < u64Bound
        · have hcounted := hcounts.mpr ⟨hcurrent, hbound⟩
          rw [if_pos hbound, if_pos ⟨rfl, hcounted⟩,
            Disk.number_eq hsidecar (hspec.counted hcounted)]
        · have huncounted := fun h => hbound (hcounts.mp h).2
          have hpeek' := hspec.uncounted (Bool.eq_false_iff.mpr huncounted)
          rw [if_neg hbound, if_neg fun h => huncounted h.2,
            Disk.number_eq hsidecar (hpeek'.trans hpeek), hcurrent]
      · have hunpublished := Bool.eq_false_iff.mpr fun h => hcurrent (hpublishes.mp h)
        have huncounted := fun h => hcurrent (hcounts.mp h).1
        have hpeek' := hspec.uncounted (Bool.eq_false_iff.mpr huncounted)
        rw [if_neg hcurrent, if_neg fun h => huncounted h.2, hspec.kept hunpublished,
          Disk.number_eq hsidecar (hpeek'.trans hpeek)]

-- ════════════════════════════════════════════════════════════════════════
-- The main result
-- ════════════════════════════════════════════════════════════════════════

/-- **Vault crash safety**: in the runs all of whose calls are spared, a call of
    `create` or of a write, cut or not, leaves a root that opens with the old or the
    new contents or that `create` accepts, and no handle that overwrites what it has
    not seen; and a call that is not spared leaves one that does not. -/
theorem crash_safe_iff (hkdf : Bytes → Bytes → UInt8 → Bytes) {w : World}
    (hreach : (cutVault hkdf).ReachableUnder (fun w a => w.Spared hkdf a = true) w)
    {a : VaultAction} {w' : World} (hnext : (cutVault hkdf).next w a = some w') :
    CrashSafe hkdf w a w' ↔ w.Spared hkdf a = true := by
  have inv : w.Inv hkdf := by
    apply hreach.invariant
    · rintro t rfl
      exact World.inv_init
    · exact fun t a t' inv hspared hnext => (inv.step hspared hnext).1
  constructor
  · intro hsafe
    by_contra hunspared
    exact inv.not_crashSafe (Bool.eq_false_iff.mpr hunspared) hnext hsafe
  · intro hspared
    obtain ⟨inv', hfile⟩ := inv.step hspared hnext
    exact inv.crashSafe inv' hfile

/-- A key derivation for the sample runs. -/
private def cutHkdf (exportKey salt : Bytes) (suiteVersion : UInt8) : Bytes :=
  suiteVersion :: (exportKey ++ salt)

private def cutPut (value : Bytes) (cut : Option Cut) : VaultAction :=
  .write 0 (.put ⟨"github.com", "token"⟩ ⟨.apiKey, value, 1, 1, none, [], []⟩) 1 1 cut

/-- Two handles on a new vault. -/
private def twoHandles : List VaultAction :=
  [.create 0 [7] 1 [9] 0 none, .new 1, .unlockMaster 1 [7] 1, .peek 1]

/-- A crash with the temp file in place, on a vault whose other handle is locked. -/
theorem crash_safe_iff_temp_run :
    ∃ w w', w.disk.file.isSome ∧
      (cutVault cutHkdf).next w (cutPut [2] (some ⟨3, .crash⟩)) = some w' ∧
      w'.disk.litter = 1 ∧ CrashSafe cutHkdf w (cutPut [2] (some ⟨3, .crash⟩)) w' := by
  have hexec : ((cutVault cutHkdf).execUnder (fun w a => w.Spared cutHkdf a = true) World.init
      (twoHandles ++ [cutPut [1] none, .lock 1])).any (fun w => w.disk.file.isSome &&
        ((cutVault cutHkdf).next w (cutPut [2] (some ⟨3, .crash⟩))).any (·.disk.litter == 1) &&
        w.Spared cutHkdf (cutPut [2] (some ⟨3, .crash⟩))) = true := by decide +kernel
  obtain ⟨w, hrun, hw⟩ := Machine.exists_run_of_execUnder _ hexec
  rw [Bool.and_eq_true, Bool.and_eq_true] at hw
  obtain ⟨⟨hfile, hnext⟩, hspared⟩ := hw
  obtain ⟨w', hnext', hlitter⟩ := (Option.any_eq_true _ _).mp hnext
  exact ⟨w, w', hfile, hnext', beq_iff_eq.mp hlitter,
    (crash_safe_iff cutHkdf ⟨World.init, rfl, hrun⟩ hnext').mpr hspared⟩

/-- A crash of `create` leaves its temp file, and the root neither opens nor accepts a
    `create`; a crash of a write behind the rename leaves the generation of a handle
    that has not seen it. -/
theorem cut_calls_break_vault :
    (∃ w a w', (cutVault cutHkdf).Reachable w ∧ (cutVault cutHkdf).next w a = some w' ∧
      ¬ w.Recovers cutHkdf a w') ∧
    ∃ w a w', (cutVault cutHkdf).Reachable w ∧ (cutVault cutHkdf).next w a = some w' ∧
      ¬ w'.NoOverwrite := by
  constructor
  · have hnext : ((cutVault cutHkdf).next World.init
        (.create 0 [7] 1 [9] 0 (some ⟨2, .crash⟩))).any
        (fun w' => w'.disk.file.isNone && w'.disk.nonEmpty) = true := by decide +kernel
    obtain ⟨w', hnext', hw⟩ := (Option.any_eq_true _ _).mp hnext
    rw [Bool.and_eq_true] at hw
    exact ⟨World.init, _, w', ⟨World.init, rfl, Relation.ReflTransGen.refl⟩, hnext',
      World.not_recovers (Option.isNone_iff_eq_none.mp hw.1) hw.2⟩
  · have hexec : ((cutVault cutHkdf).execUnder (fun _ _ => True) World.init twoHandles).any
        (fun w => ((cutVault cutHkdf).next w (cutPut [1] (some ⟨5, .crash⟩))).any fun w' =>
          (w'.handles.lookup 1).any fun hd => hd.current w'.disk && hd.basis < w'.version) =
        true := by decide +kernel
    obtain ⟨w, hrun, hw⟩ := Machine.exists_run_of_execUnder _ hexec
    obtain ⟨w', hnext', hw'⟩ := (Option.any_eq_true _ _).mp hw
    obtain ⟨hd, hlook, hhd⟩ := (Option.any_eq_true _ _).mp hw'
    rw [Bool.and_eq_true, decide_eq_true_iff] at hhd
    exact ⟨w, _, w', ⟨World.init, rfl, hrun⟩, hnext', World.not_noOverwrite hlook hhd.1 hhd.2⟩

end Botwork.Vault
