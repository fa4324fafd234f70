import Botwork.AuthBroker.Opaque
import Botwork.Foundations.Fallible
import Botwork.Foundations.FiniteMap
import Botwork.Foundations.ReplacedFile
import Botwork.Foundations.Transition

/-!
# The server setup file

Every broker that starts on a vault root loads the OPAQUE server setup from it, or
generates one if there is none.  The new setup is published by a rename, but all
starts share one temp file and the rename replaces whatever is published by then.
Two first starts that overlap can publish a file that neither of them generated, and
a setup that another broker already serves with is lost.

## Main definitions

- `SetupFormat` — the library that reads and writes a setup
- `VaultRoot` — the setup file of a root and the calls on it
- `serverSetup` — the calls of `load_or_generate_server_setup`, file step by file step
- `OneSetup` — every call that returns a setup returns the one a start would find
- `VaultRoot.Undisturbed` — the steps that keep it

## Main results

- `oneSetup_iff_undisturbed`
-/

namespace Botwork.AuthBroker

open Botwork.Foundations Botwork.Vault

-- ════════════════════════════════════════════════════════════════════════
-- Setups
-- ════════════════════════════════════════════════════════════════════════

/-- The part of `opaque_ke::ServerSetup` that the setup file rests on. -/
structure SetupFormat where
  Setup : Type
  deserialize : Bytes → Except ProtocolError Setup
  serialize : Setup → Bytes
  deserialize_serialize : ∀ setup, deserialize (serialize setup) = .ok setup

structure ServerSetup where
  bytes : Bytes
  deriving DecidableEq

deriving instance DecidableEq for InternalError, ProtocolError, OpaqueError

namespace ServerSetup

variable (F : SetupFormat)

/-- `ServerSetup::generate`, for what the random generator yields. -/
def generate (setup : F.Setup) : ServerSetup := ⟨F.serialize setup⟩

def fromBytes (bytes : Bytes) : Except OpaqueError ServerSetup :=
  ((F.deserialize bytes).mapError .fromProtocol).map fun parsed => ⟨F.serialize parsed⟩

end ServerSetup

/-- The two files of the root that the calls use. -/
inductive SetupFile where
  /-- `opaque_server_setup` -/
  | path
  /-- `opaque_server_setup.tmp` -/
  | tmp
  deriving DecidableEq

inductive SetupError where
  | read (file : SetupFile)
  | write (file : SetupFile)
  | corrupt (file : SetupFile)
  deriving DecidableEq

/-- How far a call is.  `writing` has the handle of the temp file open. -/
inductive SetupCall (S : Type) where
  | preparing
  | creating (setup : S)
  | writing (setup : S) (inode : Nat)
  | syncing (setup : S)
  | renaming (setup : S)
  | returned (result : Except SetupError ServerSetup)
  | crashed
  deriving DecidableEq

/-- A call between the read that found no file and its end. -/
def SetupCall.live {S : Type} : SetupCall S → Bool
  | .returned _ | .crashed => false
  | _ => true

/-- The setup file of a vault root, with the calls on it. -/
structure VaultRoot (S : Type) where
  file : ReplacedFile Bytes
  calls : FiniteMap Nat (SetupCall S)

inductive SetupAction (S : Type) where
  /-- a process starts and reads the file -/
  | read (p : Nat)
  | readFail (p : Nat)
  /-- the directory is there and a setup is generated -/
  | generate (p : Nat) (setup : S)
  /-- `File::create` truncates the temp file, or makes one -/
  | create (p : Nat)
  | write (p : Nat)
  | sync (p : Nat)
  /-- the call returns with the rename -/
  | rename (p : Nat)
  /-- the next step of the call fails -/
  | fail (p : Nat)
  /-- the process of a call that has a step left is no more -/
  | crash (p : Nat)
  deriving DecidableEq

namespace VaultRoot

variable {F : SetupFormat}

def set (w : VaultRoot F.Setup) (p : Nat) (call : SetupCall F.Setup) : VaultRoot F.Setup :=
  { w with calls := w.calls.insert p call }

/-- What a start makes of the file, if there is one. -/
def found (w : VaultRoot F.Setup) : Option (Except SetupError ServerSetup) :=
  w.file.published.map fun bytes =>
    (ServerSetup.fromBytes F bytes).mapError fun _ => .corrupt .path

/-- `File::create(&tmp)`. -/
def createTmp (w : VaultRoot F.Setup) (p : Nat) (setup : F.Setup) : VaultRoot F.Setup :=
  let created := w.file.create []
  { w with file := created.1 }.set p (.writing setup created.2)

/-- What the file of a handle holds behind `write_all` at its start. -/
def written (w : VaultRoot F.Setup) (setup : F.Setup) (inode : Nat) : Bytes :=
  (ServerSetup.generate F setup).bytes ++
    (w.file.contents inode).drop (ServerSetup.generate F setup).bytes.length

def writeTmp (w : VaultRoot F.Setup) (p : Nat) (setup : F.Setup) (inode : Nat) :
    VaultRoot F.Setup :=
  { w with file := w.file.write inode (w.written setup inode) }.set p (.syncing setup)

def renameTmp (w : VaultRoot F.Setup) (p : Nat) (setup : F.Setup) : VaultRoot F.Setup :=
  match w.file.rename with
  | some file => { w with file := file }.set p (.returned (.ok (.generate F setup)))
  | none => w.set p (.returned (.error (.write .path)))

/-- The error of a call whose next step fails. -/
def failure : SetupCall F.Setup → SetupError
  | .preparing | .renaming _ => .write .path
  | _ => .write .tmp

def next (w : VaultRoot F.Setup) : SetupAction F.Setup → Option (VaultRoot F.Setup)
  | .read p =>
    match w.calls.lookup p with
    | none => some (w.set p (w.found.elim .preparing .returned))
    | some _ => none
  | .readFail p =>
    match w.calls.lookup p with
    | none => some (w.set p (.returned (.error (.read .path))))
    | some _ => none
  | .generate p setup =>
    match w.calls.lookup p with
    | some .preparing => some (w.set p (.creating setup))
    | _ => none
  | .create p =>
    match w.calls.lookup p with
    | some (.creating setup) => some (w.createTmp p setup)
    | _ => none
  | .write p =>
    match w.calls.lookup p with
    | some (.writing setup inode) => some (w.writeTmp p setup inode)
    | _ => none
  | .sync p =>
    match w.calls.lookup p with
    | some (.syncing setup) => some (w.set p (.renaming setup))
    | _ => none
  | .rename p =>
    match w.calls.lookup p with
    | some (.renaming setup) => some (w.renameTmp p setup)
    | _ => none
  | .fail p =>
    match w.calls.lookup p with
    | some call => if call.live then some (w.set p (.returned (.error (failure call)))) else none
    | none => none
  | .crash p =>
    match w.calls.lookup p with
    | some call => if call.live then some (w.set p .crashed) else none
    | none => none

/-- A root on which no call is in progress.  An earlier one may have left a temp
    file. -/
def Initial (w : VaultRoot F.Setup) : Prop :=
  w.calls = ∅ ∧ w.file.Sound ∧ ∀ result, w.found = some result → ∃ setup, result = .ok setup

end VaultRoot

/-- The brokers that start on one vault root. -/
def serverSetup (F : SetupFormat) : Machine (VaultRoot F.Setup) (SetupAction F.Setup) where
  Start := VaultRoot.Initial
  next := VaultRoot.next

namespace VaultRoot

variable {F : SetupFormat} {w w' : VaultRoot F.Setup}

/-- A call has returned the setup. -/
def Serves (w : VaultRoot F.Setup) (setup : ServerSetup) : Prop :=
  ∃ p, w.calls.lookup p = some (.returned (.ok setup))

/-- A start does not find a file it refuses, and finds the setup that each call has
    returned. -/
def OneSetup (w : VaultRoot F.Setup) : Prop :=
  (∀ result, w.found = some result → ∃ setup, result = .ok setup) ∧
    ∀ setup, w.Serves setup → w.found = some (.ok setup)

/-- A write into the file that is published by now leaves the setup in it as it was.
    A rename finds its own setup in the temp file, and no other setup published. -/
def Undisturbed (w : VaultRoot F.Setup) : SetupAction F.Setup → Prop
  | .write p =>
    match w.calls.lookup p with
    | some (.writing setup inode) =>
      w.file.path = some inode →
        ServerSetup.fromBytes F (w.written setup inode) =
          ServerSetup.fromBytes F (w.file.contents inode)
    | _ => True
  | .rename p =>
    match w.calls.lookup p, w.file.tmp with
    | some (.renaming setup), some inode =>
      ServerSetup.fromBytes F (w.file.contents inode) = .ok (.generate F setup) ∧
        (w.found = none ∨ w.found = some (.ok (.generate F setup)))
    | _, _ => True
  | _ => True

instance (w : VaultRoot F.Setup) (a : SetupAction F.Setup) : Decidable (w.Undisturbed a) := by
  cases a <;> dsimp only [Undisturbed] <;> try split
  all_goals infer_instance

-- ════════════════════════════════════════════════════════════════════════
-- One step
-- ════════════════════════════════════════════════════════════════════════

@[simp] theorem found_set (p : Nat) (call : SetupCall F.Setup) : (w.set p call).found = w.found :=
  rfl

theorem Serves.set {p : Nat} {call : SetupCall F.Setup} {setup : ServerSetup}
    (h : w.Serves setup) (hp : ∀ result, w.calls.lookup p ≠ some (.returned result)) :
    (w.set p call).Serves setup := by
  obtain ⟨q, hq⟩ := h
  have hne : q ≠ p := by
    rintro rfl
    exact hp _ hq
  exact ⟨q, (AList.lookup_insert_ne hne).trans hq⟩

theorem serves_of_set {p : Nat} {call : SetupCall F.Setup} {setup : ServerSetup}
    (h : (w.set p call).Serves setup) : call = .returned (.ok setup) ∨ w.Serves setup := by
  obtain ⟨q, hq⟩ := h
  by_cases hqp : q = p
  · subst hqp
    left
    exact Option.some.inj ((AList.lookup_insert w.calls).symm.trans hq)
  · right
    exact ⟨q, (AList.lookup_insert_ne hqp).symm.trans hq⟩

/-- What the steps keep between the names, the inodes and the calls. -/
structure Inv (w : VaultRoot F.Setup) : Prop where
  sound : w.file.Sound
  /-- a file that appeared behind the read of a call was published by another one -/
  answered : ∀ p call, w.calls.lookup p = some call → call.live = true →
    w.found = none ∨ ∃ setup, w.Serves setup
  one : w.OneSetup

namespace Inv

theorem of_initial (h : w.Initial) : w.Inv := by
  obtain ⟨hcalls, hsound, hfound⟩ := h
  have hnone : ∀ p, w.calls.lookup p = none := by
    intro p
    rw [hcalls]
    exact AList.lookup_empty p
  refine ⟨hsound, ?_, hfound, ?_⟩
  · intro p call hp
    rw [hnone p] at hp
    cases hp
  · rintro setup ⟨p, hp⟩
    rw [hnone p] at hp
    cases hp

theorem set (hw : w.Inv) {p : Nat} {call : SetupCall F.Setup}
    (hp : ∀ result, w.calls.lookup p ≠ some (.returned result))
    (hok : ∀ setup, call = .returned (.ok setup) → w.found = some (.ok setup))
    (hlive : call.live = true → w.found = none ∨ ∃ setup, w.Serves setup) :
    (w.set p call).Inv := by
  have hkeep : (w.found = none ∨ ∃ setup, w.Serves setup) →
      (w.set p call).found = none ∨ ∃ setup, (w.set p call).Serves setup := by
    rintro (hnone | ⟨setup, hserves⟩)
    · exact .inl hnone
    · exact .inr ⟨setup, hserves.set hp⟩
  refine ⟨hw.sound, ?_, hw.one.1, ?_⟩
  · intro q c hq hc
    apply hkeep
    by_cases hqp : q = p
    · subst hqp
      obtain rfl : call = c := Option.some.inj ((AList.lookup_insert w.calls).symm.trans hq)
      exact hlive hc
    · exact hw.answered q c ((AList.lookup_insert_ne hqp).symm.trans hq) hc
  · intro setup hserves
    rcases serves_of_set hserves with hcall | hserves
    · exact hok setup hcall
    · exact hw.one.2 setup hserves

/-- A change of the files that a start does not see. -/
theorem of_found_eq (hw : w.Inv) {file : ReplacedFile Bytes} (hsound : file.Sound)
    (hfound : ({ w with file := file } : VaultRoot F.Setup).found = w.found) :
    Inv { w with file := file } := by
  refine ⟨hsound, ?_, ?_, ?_⟩
  · intro p call hp hlive
    rw [hfound]
    exact hw.answered p call hp hlive
  · intro result h
    exact hw.one.1 result (hfound ▸ h)
  · intro setup h
    rw [hfound]
    exact hw.one.2 setup h

end Inv

/-- What a start finds hangs on the published bytes only. -/
theorem found_of_published {file : ReplacedFile Bytes}
    (h : file.published = w.file.published) :
    ({ w with file := file } : VaultRoot F.Setup).found = w.found := by
  simp only [found, h]

theorem renameTmp_of_some {p inode : Nat} {setup : F.Setup} (h : w.file.tmp = some inode) :
    w.renameTmp p setup =
      { w with file := { w.file with path := some inode, tmp := none } }.set p
        (.returned (.ok (.generate F setup))) := by
  rw [renameTmp, ReplacedFile.rename_of_tmp h]

theorem renameTmp_of_none {p : Nat} {setup : F.Setup} (h : w.file.tmp = none) :
    w.renameTmp p setup = w.set p (.returned (.error (.write .path))) := by
  rw [renameTmp, ReplacedFile.rename_of_none h]

namespace Inv

/-- A call goes on, or ends with an error. -/
theorem set_of_live (hw : w.Inv) {p : Nat} {call call' : SetupCall F.Setup}
    (hp : w.calls.lookup p = some call) (hlive : call.live = true)
    (hok : ∀ setup, call' ≠ .returned (.ok setup)) : (w.set p call').Inv := by
  apply hw.set
  · rintro result hret
    rw [hp] at hret
    cases hret
    cases hlive
  · intro setup hcall
    exact absurd hcall (hok setup)
  · intro _
    exact hw.answered p call hp hlive

theorem read (hw : w.Inv) {p : Nat} (hp : w.calls.lookup p = none) :
    (w.set p (w.found.elim .preparing .returned)).Inv := by
  apply hw.set
  · intro result hret
    rw [hp] at hret
    cases hret
  · intro setup hcall
    cases hfound : w.found with
    | none =>
      rw [hfound] at hcall
      cases hcall
    | some result =>
      rw [hfound] at hcall
      cases hcall
      rfl
  · intro hlive
    cases hfound : w.found with
    | none => exact .inl rfl
    | some result =>
      rw [hfound] at hlive
      cases hlive

theorem createTmp (hw : w.Inv) {p : Nat} {setup : F.Setup}
    (hp : w.calls.lookup p = some (.creating setup)) : (w.createTmp p setup).Inv := by
  have hcreated : Inv { w with file := (w.file.create []).1 } :=
    hw.of_found_eq hw.sound.create (found_of_published hw.sound.published_create)
  exact hcreated.set_of_live hp rfl fun _ h => nomatch h

/-- A write that leaves what a start finds. -/
theorem writeTmp (hw : w.Inv) {p inode : Nat} {setup : F.Setup}
    (hp : w.calls.lookup p = some (.writing setup inode))
    (hkeep : w.file.path = some inode → ServerSetup.fromBytes F (w.written setup inode) =
      ServerSetup.fromBytes F (w.file.contents inode)) : (w.writeTmp p setup inode).Inv := by
  have hwritten : Inv { w with file := w.file.write inode (w.written setup inode) } := by
    apply hw.of_found_eq hw.sound.write
    by_cases hpath : w.file.path = some inode
    · have hold : w.file.published = some (w.file.contents inode) := by
        rw [ReplacedFile.published, hpath, Option.map_some]
      simp only [found, ReplacedFile.published_write_self hpath, hold, Option.map_some,
        hkeep hpath]
    · exact found_of_published (ReplacedFile.published_write_of_ne hpath)
  exact hwritten.set_of_live hp rfl fun _ h => nomatch h

/-- A rename that publishes the setup of the call where nothing else is published. -/
theorem renameTmp (hw : w.Inv) {p : Nat} {setup : F.Setup}
    (hp : w.calls.lookup p = some (.renaming setup))
    (hown : ∀ inode, w.file.tmp = some inode →
      ServerSetup.fromBytes F (w.file.contents inode) = .ok (.generate F setup) ∧
        (w.found = none ∨ w.found = some (.ok (.generate F setup)))) :
    (w.renameTmp p setup).Inv := by
  cases htmp : w.file.tmp with
  | none =>
    rw [renameTmp_of_none htmp]
    exact hw.set_of_live hp rfl fun _ h => nomatch h
  | some inode =>
    obtain ⟨hbytes, hpublished⟩ := hown inode htmp
    rw [renameTmp_of_some htmp]
    have hserves : Serves ({ w with file := { w.file with path := some inode, tmp := none } }.set p
        (.returned (.ok (.generate F setup)))) (.generate F setup) :=
      ⟨p, AList.lookup_insert _⟩
    have hfound : ({ w with file := { w.file with path := some inode, tmp := none } } :
        VaultRoot F.Setup).found = some (.ok (.generate F setup)) := by
      simp only [found, ReplacedFile.published, Option.map_some, hbytes]
      rfl
    refine ⟨hw.sound.rename (ReplacedFile.rename_of_tmp htmp),
      fun _ _ _ _ => .inr ⟨_, hserves⟩, ?_, ?_⟩
    · rintro result hresult
      rw [found_set, hfound] at hresult
      exact ⟨_, (Option.some.inj hresult).symm⟩
    · rintro other hother
      rw [found_set, hfound]
      rcases serves_of_set hother with hcall | hother
      · cases hcall
        rfl
      -- what has been returned is published already
      have hold : w.found = some (.ok other) := hw.one.2 other hother
      rcases hpublished with hnone | hsame
      · rw [hnone] at hold
        cases hold
      · rw [← hsame, hold]

/-- **Step lemma**. -/
theorem next (hw : w.Inv) {a : SetupAction F.Setup} (hc : w.Undisturbed a)
    (h : w.next a = some w') : w'.Inv := by
  cases a with
  | read p =>
    rw [VaultRoot.next] at h
    split at h
    next hp =>
      cases h
      exact hw.read hp
    next => cases h
  | readFail p =>
    rw [VaultRoot.next] at h
    split at h
    next hp =>
      cases h
      apply hw.set
      · intro result hret
        rw [hp] at hret
        cases hret
      · exact fun _ h => nomatch h
      · exact nofun
    next => cases h
  | generate p setup =>
    rw [VaultRoot.next] at h
    split at h
    next hp =>
      cases h
      exact hw.set_of_live hp rfl fun _ h => nomatch h
    next => cases h
  | create p =>
    rw [VaultRoot.next] at h
    split at h
    next hp =>
      cases h
      exact hw.createTmp hp
    next => cases h
  | write p =>
    rw [VaultRoot.next] at h
    split at h
    next hp =>
      cases h
      simp only [Undisturbed, hp] at hc
      exact hw.writeTmp hp hc
    next => cases h
  | sync p =>
    rw [VaultRoot.next] at h
    split at h
    next hp =>
      cases h
      exact hw.set_of_live hp rfl fun _ h => nomatch h
    next => cases h
  | rename p =>
    rw [VaultRoot.next] at h
    split at h
    next hp =>
      cases h
      refine hw.renameTmp hp fun inode htmp => ?_
      simpa only [Undisturbed, hp, htmp] using hc
    next => cases h
  | fail p =>
    rw [VaultRoot.next] at h
    split at h
    next hp =>
      split at h
      next hlive =>
        cases h
        exact hw.set_of_live hp hlive fun _ h => nomatch h
      next => cases h
    next => cases h
  | crash p =>
    rw [VaultRoot.next] at h
    split at h
    next hp =>
      split at h
      next hlive =>
        cases h
        exact hw.set_of_live hp hlive fun _ h => nomatch h
      next => cases h
    next => cases h

end Inv

/-- The file that a start finds and does not refuse. -/
theorem fromBytes_of_found {inode : Nat} {setup : ServerSetup} (hpath : w.file.path = some inode)
    (h : w.found = some (.ok setup)) :
    ServerSetup.fromBytes F (w.file.contents inode) = .ok setup := by
  rw [found, ReplacedFile.published, hpath, Option.map_some, Option.map_some] at h
  exact mapError_eq_ok.mp (Option.some.inj h)

/-- A step that keeps one setup is undisturbed: the calls that have returned read
    from the file what it held before, and what it holds behind the step. -/
theorem Inv.undisturbed (hw : w.Inv) {a : SetupAction F.Setup} (h : w.next a = some w')
    (hone : w'.OneSetup) : w.Undisturbed a := by
  cases a with
  | write p =>
    simp only [Undisturbed]
    split
    next setup inode hp =>
      intro hpath
      have hw' : w.writeTmp p setup inode = w' := by
        simpa only [VaultRoot.next, hp, Option.some.injEq] using h
      subst hw'
      have hsome : w.found ≠ none := by
        rw [found, ReplacedFile.published, hpath]
        nofun
      obtain ⟨served, hserved⟩ := (hw.answered p _ hp rfl).resolve_left hsome
      have hbefore : ServerSetup.fromBytes F (w.file.contents inode) = .ok served :=
        fromBytes_of_found hpath (hw.one.2 served hserved)
      have hstill : (w.writeTmp p setup inode).Serves served := by
        apply Serves.set hserved
        intro result hret
        have hret : w.calls.lookup p = some (.returned result) := hret
        rw [hp] at hret
        cases hret
      have hafter := fromBytes_of_found (w := w.writeTmp p setup inode) hpath
        (hone.2 served hstill)
      rw [hbefore, ← hafter]
      show _ = ServerSetup.fromBytes F (Function.update w.file.contents inode _ inode)
      rw [Function.update_self]
    next => trivial
  | rename p =>
    simp only [Undisturbed]
    split
    next setup inode hp htmp =>
      have hw' : w.renameTmp p setup = w' := by
        simpa only [VaultRoot.next, hp, Option.some.injEq] using h
      rw [renameTmp_of_some htmp] at hw'
      subst hw'
      let published := { w.file with path := some inode, tmp := none }
      have hfound := hone.2 (.generate F setup) ⟨p, AList.lookup_insert _⟩
      refine ⟨fromBytes_of_found (w := { w with file := published }) rfl hfound, ?_⟩
      rcases hw.answered p _ hp rfl with hnone | ⟨served, hserved⟩
      · exact .inl hnone
      · have hstill := hone.2 served <| Serves.set
          (w := { w with file := published }) hserved fun result hret => by
            have hret : w.calls.lookup p = some (.returned result) := hret
            rw [hp] at hret
            cases hret
        have hsame : served = .generate F setup := by
          rw [hfound] at hstill
          cases hstill
          rfl
        right
        rw [← hsame]
        exact hw.one.2 served hserved
    next => trivial
  | _ => trivial

-- ════════════════════════════════════════════════════════════════════════
-- Runs
-- ════════════════════════════════════════════════════════════════════════

theorem inv_of_reachable (h : (serverSetup F).ReachableUnder Undisturbed w) : w.Inv :=
  h.invariant (fun _ => Inv.of_initial) fun _ _ _ hw hc hnext => hw.next hc hnext

/-- In every run of undisturbed steps there is one setup, and a further step keeps it
    so exactly if it is undisturbed too. -/
theorem oneSetup_iff_undisturbed (h : (serverSetup F).ReachableUnder Undisturbed w) :
    w.OneSetup ∧ ∀ a w', (serverSetup F).next w a = some w' →
      (w'.OneSetup ↔ w.Undisturbed a) := by
  have hw := inv_of_reachable h
  refine ⟨hw.one, fun a w' hnext => ⟨hw.undisturbed hnext, fun hc => (hw.next hc hnext).one⟩⟩

-- ════════════════════════════════════════════════════════════════════════
-- First starts
-- ════════════════════════════════════════════════════════════════════════

/-- Setups of one byte. -/
def byteFormat : SetupFormat where
  Setup := UInt8
  deserialize
    | [b] => .ok b
    | _ => .error .serializationError
  serialize b := [b]
  deserialize_serialize _ := rfl

instance : DecidableEq byteFormat.Setup := inferInstanceAs (DecidableEq UInt8)

def emptyRoot : VaultRoot byteFormat.Setup := ⟨⟨none, none, fun _ => [], 0⟩, ∅⟩

theorem emptyRoot_initial : emptyRoot.Initial := by
  exact ⟨rfl, ⟨nofun, nofun, nofun⟩, nofun⟩

/-- The start `p` puts its setup into the temp file. -/
def toTemp (p : Nat) : List (SetupAction byteFormat.Setup) := [.create p, .write p, .sync p]

/-- A first start, and a second one behind it. -/
theorem oneSetup_iff_undisturbed_second_start :
    ∃ w : VaultRoot byteFormat.Setup, w.calls.lookup 0 = some (.returned (.ok ⟨[7]⟩)) ∧
      w.OneSetup ∧ ∀ a w', (serverSetup byteFormat).next w a = some w' →
        (w'.OneSetup ↔ w.Undisturbed a) := by
  have hexec : ((serverSetup byteFormat).execUnder Undisturbed emptyRoot
      (.read 0 :: .generate 0 (7 : UInt8) :: toTemp 0 ++ [.rename 0, .read 1])).any
        (fun w => decide (w.calls.lookup 0 = some (.returned (.ok ⟨[7]⟩)))) = true := by
    decide +kernel
  obtain ⟨w, hrun, hw⟩ := Machine.exists_run_of_execUnder _ hexec
  exact ⟨w, of_decide_eq_true hw,
    oneSetup_iff_undisturbed ⟨emptyRoot, emptyRoot_initial, hrun⟩⟩

def bothRead : List (SetupAction byteFormat.Setup) :=
  [.read 0, .read 1, .generate 0 (7 : UInt8), .generate 1 (9 : UInt8)]

/-- Both starts find no file.  The second rename takes away the setup the first start
    serves with, or the first start publishes the file that the second one has just
    truncated. -/
theorem first_starts_disagree :
    (∃ w : VaultRoot byteFormat.Setup, (serverSetup byteFormat).Reachable w ∧
      w.calls.lookup 0 = some (.returned (.ok ⟨[7]⟩)) ∧ w.found = some (.ok ⟨[9]⟩)) ∧
    ∃ w : VaultRoot byteFormat.Setup, (serverSetup byteFormat).Reachable w ∧
      w.calls.lookup 0 = some (.returned (.ok ⟨[7]⟩)) ∧
        w.found = some (.error (.corrupt .path)) := by
  have hover : ((serverSetup byteFormat).execUnder (fun _ _ => True) emptyRoot
      (bothRead ++ toTemp 0 ++ [.rename 0] ++ toTemp 1 ++ [.rename 1])).any
        (fun w => decide (w.calls.lookup 0 = some (.returned (.ok ⟨[7]⟩)) ∧
          w.found = some (.ok ⟨[9]⟩))) = true := by decide +kernel
  have hcut : ((serverSetup byteFormat).execUnder (fun _ _ => True) emptyRoot
      (bothRead ++ toTemp 0 ++ [.create 1, .rename 0])).any
        (fun w => decide (w.calls.lookup 0 = some (.returned (.ok ⟨[7]⟩)) ∧
          w.found = some (.error (.corrupt .path)))) = true := by decide +kernel
  obtain ⟨w, hrun, hw⟩ := Machine.exists_run_of_execUnder _ hover
  obtain ⟨w', hrun', hw'⟩ := Machine.exists_run_of_execUnder _ hcut
  simp only [decide_eq_true_eq] at hw hw'
  exact ⟨⟨w, ⟨emptyRoot, emptyRoot_initial, hrun⟩, hw⟩,
    w', ⟨emptyRoot, emptyRoot_initial, hrun'⟩, hw'⟩

end VaultRoot

end Botwork.AuthBroker
