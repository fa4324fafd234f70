import Botwork.Vault.Handles

/-!
# Failed writes

One call of `put_secret`, `delete_secret` or `touch_last_used` on a handle that
nothing else runs beside, with every access that can fail.  The call edits the
contents in memory before it persists them, and replaces the file before it writes
the generation; what a failure leaves behind depends on how far it came.

## Main definitions

- `Session` — a handle and the files of its root
- `Faults` — the errors a call meets
- `Write.run` — a call
- `Answers`, `Session.Unchanged` — what the handle and a fresh unlock answer
- `Write.Spares` — the calls that change no answer when they fail
-/

namespace Botwork.Vault

open Botwork.Foundations

structure Session where
  memory : Option UnlockedState
  file : Option VaultFile
  genFile : Option Nat

/-- The errors that the accesses of a call meet, if any. -/
structure Faults where
  /-- `seal_entry` -/
  sealEntry : Option VaultError
  /-- `VaultLock::acquire` -/
  acquire : Option VaultError
  /-- `seal_with_master` -/
  sealFile : Option VaultError
  /-- `atomic_write_private` up to the rename -/
  replace : Option VaultError
  /-- `atomic_write_private` behind the rename -/
  syncDir : Option VaultError
  /-- `VaultLock::bump` up to the write of the counter -/
  writeGen : Option VaultError
  /-- `VaultLock::bump` behind the write -/
  syncGen : Option VaultError

def Faults.none : Faults := ⟨.none, .none, .none, .none, .none, .none, .none⟩

namespace Session

/-- The generation a reader finds: an absent or empty sidecar counts as 0. -/
def diskGen (s : Session) : Nat := s.genFile.getD 0

/-- `VaultLock::bump`. -/
def bump (s : Session) (faults : Faults) (diskGen : Nat) : Except VaultError Unit × Session :=
  if u64Bound ≤ diskGen + 1 then
    (.error (.integrity "vault generation counter overflow"), s)
  else
    match faults.writeGen, faults.syncGen with
    | some err, _ => (.error err, s)
    | .none, some err => (.error err, { s with genFile := some (diskGen + 1) })
    | .none, .none => (.ok (), { s with genFile := some (diskGen + 1) })

def persist (s : Session) (faults : Faults) : Except VaultError Unit × Session :=
  match s.memory with
  | none => (.error .locked, s)
  | some u =>
    match faults.acquire with
    | some err => (.error err, s)
    | none =>
      -- the sidecar is there from now on
      let locked := { s with genFile := some s.diskGen }
      if s.diskGen ≠ u.generation then (.error (.conflict u.generation s.diskGen), locked)
      else
        match faults.sealFile, faults.replace with
        | some err, _ | none, some err => (.error err, locked)
        | none, none =>
          let replaced := { locked with file := some u.file }
          match faults.syncDir with
          | some err => (.error err, replaced)
          | none =>
            match replaced.bump faults s.diskGen with
            | (.error err, bumped) => (.error err, bumped)
            | (.ok (), bumped) =>
              (.ok (), { bumped with memory := some { u with generation := s.diskGen + 1 } })

end Session

/-- `put_secret` looks at the names before it looks at the handle. -/
def Write.lockedError : Write → VaultError
  | .put key _ =>
    match key.validate with
    | .error err => err
    | .ok () => .locked
  | .delete _ | .touch _ => .locked

/-- The error of `seal_entry`, which a deletion does not call. -/
def Write.sealError (faults : Faults) : Write → Option VaultError
  | .put _ _ | .touch _ => faults.sealEntry
  | .delete _ => none

/-- The contents with the edit of a write. -/
def Write.edited (write : Write) (faults : Faults) (u : UnlockedState) (now nowUtc : Int) :
    Except VaultError VaultContents := do
  let contents ← write.edit u.contents u.master now nowUtc
  match write.sealError faults with
  | some err => .error err
  | none => .ok contents

/-- `put_secret`, `delete_secret` and `touch_last_used`. -/
def Write.run (write : Write) (faults : Faults) (now nowUtc : Int) (s : Session) :
    Except VaultError Unit × Session :=
  match s.memory with
  | none => (.error write.lockedError, s)
  | some u =>
    match write.edited faults u now nowUtc with
    | .error err => (.error err, s)
    | .ok contents =>
      Session.persist { s with memory := some { u with contents := contents } } faults

/-! ### Answers -/

/-- The metadata callers see. -/
structure SecretMeta where
  kind : SecretKind
  createdAt : Int
  updatedAt : Int
  lastUsedAt : Option Int
  tags : List String
  allowedConsumers : List String
  deriving DecidableEq

def EntryMeta.secretMeta (info : EntryMeta) : SecretMeta where
  kind := info.kind
  createdAt := info.createdAt
  updatedAt := info.updatedAt
  lastUsedAt := info.lastUsedAt
  tags := info.tags
  allowedConsumers := info.allowedConsumers

/-- What an unlocked handle answers to each key; `list_entries` has the keys in their
    order. -/
@[ext]
structure Answers where
  getSecret : SecretKey → Except VaultError (SecretMeta × Bytes)
  listEntries : SecretKey → Option SecretMeta
  hasSecret : SecretKey → Bool

def VaultContents.answers (contents : VaultContents) (master : Bytes) : Answers where
  getSecret key :=
    match contents.entries.lookup key with
    | none => .error (.secretNotFound key.service key.name)
    | some envelope => (envelope.value.open master).map (envelope.info.secretMeta, ·)
  listEntries key := (contents.entries.lookup key).map (·.info.secretMeta)
  hasSecret key := (contents.entries.lookup key).isSome

namespace Session

/-- What the handle answers, if it is unlocked. -/
def answers (s : Session) : Option Answers := s.memory.map fun u => u.contents.answers u.master

variable (hkdf : Bytes → Bytes → UInt8 → Bytes)

/-- What a handle answers that is unlocked from disk. -/
def freshAnswers (s : Session) (exportKey : Bytes) (suiteVersion : UInt8) :
    Except VaultError Answers :=
  match s.file with
  | none => .error .notInitialized
  | some file =>
    (file.openWithExportKey hkdf exportKey suiteVersion).map fun opened => opened.2.answers opened.1

/-- Nobody can tell the two apart. -/
structure Unchanged (s s' : Session) : Prop where
  handle : s'.answers = s.answers
  disk : ∀ exportKey suiteVersion,
    s'.freshAnswers hkdf exportKey suiteVersion = s.freshAnswers hkdf exportKey suiteVersion

end Session

/-! ### How far a call comes -/

/-- The vault file is replaced. -/
def Faults.replaces (faults : Faults) (u : UnlockedState) (diskGen : Nat) : Bool :=
  faults.acquire.isNone && diskGen = u.generation && faults.sealFile.isNone &&
    faults.replace.isNone

/-- Everything is written. -/
def Faults.persists (faults : Faults) (u : UnlockedState) (diskGen : Nat) : Bool :=
  faults.replaces u diskGen && faults.syncDir.isNone && diskGen + 1 < u64Bound &&
    faults.writeGen.isNone && faults.syncGen.isNone

/-- The call fails before it edits the contents, or is persisted; or else its edit
    changes no answer, and the file if it is replaced neither. -/
def Write.Spares (hkdf : Bytes → Bytes → UInt8 → Bytes) (write : Write) (faults : Faults)
    (now nowUtc : Int) (s : Session) (u : UnlockedState) : Prop :=
  match write.edited faults u now nowUtc with
  | .error _ => True
  | .ok contents =>
    faults.persists u s.diskGen = true ∨
      contents.answers u.master = u.contents.answers u.master ∧
        (faults.replaces u s.diskGen = true → ∀ exportKey suiteVersion,
          ({ s with file := some { u with contents := contents }.file } : Session).freshAnswers hkdf
            exportKey suiteVersion = s.freshAnswers hkdf exportKey suiteVersion)

variable {hkdf : Bytes → Bytes → UInt8 → Bytes} {s s' : Session} {u : UnlockedState}
  {faults : Faults} {err : VaultError}

theorem Session.bump_eq (s : Session) (faults : Faults) (diskGen : Nat) :
    (∃ bumped, s.bump faults diskGen = (.ok (), bumped) ∧ bumped.file = s.file ∧
      (diskGen + 1 < u64Bound && faults.writeGen.isNone && faults.syncGen.isNone) = true) ∨
    ∃ err bumped, s.bump faults diskGen = (.error err, bumped) ∧ bumped.memory = s.memory ∧
      bumped.file = s.file ∧
      (diskGen + 1 < u64Bound && faults.writeGen.isNone && faults.syncGen.isNone) = false := by
  rw [Session.bump]
  by_cases hbound : u64Bound ≤ diskGen + 1
  · rw [if_pos hbound]
    refine .inr ⟨_, _, rfl, rfl, rfl, ?_⟩
    rw [decide_eq_false (Nat.not_lt.mpr hbound)]
    rfl
  · rw [if_neg hbound]
    cases hwrite : faults.writeGen with
    | some err => exact .inr ⟨_, _, rfl, rfl, rfl, by simp⟩
    | none =>
      cases hsync : faults.syncGen with
      | some err => exact .inr ⟨_, _, rfl, rfl, rfl, by simp⟩
      | none => exact .inl ⟨_, rfl, rfl, by simpa using hbound⟩

/-- What `persist` leaves. -/
theorem Session.persist_eq (hmemory : s.memory = some u) :
    (∃ s', s.persist faults = (.ok (), s') ∧ faults.persists u s.diskGen = true ∧
      s'.memory = some { u with generation := s.diskGen + 1 } ∧ s'.file = some u.file) ∨
    ∃ err s', s.persist faults = (.error err, s') ∧ faults.persists u s.diskGen = false ∧
      s'.memory = some u ∧
      s'.file = if faults.replaces u s.diskGen then some u.file else s.file := by
  obtain ⟨memory, file, genFile⟩ := s
  obtain rfl : memory = some u := hmemory
  simp only [Session.persist]
  generalize hgenFile : Session.diskGen ⟨some u, file, genFile⟩ = diskGen
  cases hacquire : faults.acquire with
  | some err =>
    exact .inr ⟨err, _, rfl, by simp [Faults.persists, Faults.replaces, hacquire], rfl,
      by simp [Faults.replaces, hacquire]⟩
  | none =>
    by_cases hgen : diskGen = u.generation
    · rw [if_neg (not_not.mpr hgen)]
      cases hseal : faults.sealFile with
      | some err =>
        exact .inr ⟨err, _, rfl, by simp [Faults.persists, Faults.replaces, hseal], rfl,
          by simp [Faults.replaces, hseal]⟩
      | none =>
        cases hreplace : faults.replace with
        | some err =>
          exact .inr ⟨err, _, rfl, by simp [Faults.persists, Faults.replaces, hreplace], rfl,
            by simp [Faults.replaces, hreplace]⟩
        | none =>
          have hreplaces : faults.replaces u diskGen = true := by
            simp [Faults.replaces, hacquire, hgen, hseal, hreplace]
          cases hsync : faults.syncDir with
          | some err =>
            exact .inr ⟨err, _, rfl, by simp [Faults.persists, hsync], rfl,
              by rw [if_pos hreplaces]⟩
          | none =>
            have hpersists : faults.persists u diskGen =
                (diskGen + 1 < u64Bound && faults.writeGen.isNone && faults.syncGen.isNone) := by
              simp [Faults.persists, hreplaces, hsync]
            obtain ⟨bumped, hbump, hfile, hall⟩ | ⟨err, bumped, hbump, hsame, hfile, hsome⟩ :=
              Session.bump_eq ⟨some u, some u.file, some diskGen⟩ faults diskGen
            · refine .inl ⟨{ bumped with memory := some { u with generation := diskGen + 1 } }, ?_,
                hpersists.trans hall, rfl, hfile⟩
              simp only [hbump]
            · refine .inr ⟨err, bumped, ?_, hpersists.trans hsome, hsame, ?_⟩
              · simp only [hbump]
              · rw [if_pos hreplaces]
                exact hfile
    · rw [if_pos hgen]
      exact .inr ⟨_, _, rfl, by simp [Faults.persists, Faults.replaces, hgen], rfl,
        by simp [Faults.replaces, hgen]⟩

section

variable {write later : Write} {now nowUtc time timeUtc : Int}

/-- A call that fails before its edit, one that is persisted, and one that fails with
    its edit in memory. -/
theorem Write.run_eq (write : Write) (faults : Faults) (now nowUtc : Int)
    (hmemory : s.memory = some u) :
    (∃ err, write.edited faults u now nowUtc = .error err ∧
      write.run faults now nowUtc s = (.error err, s)) ∨
    ∃ contents, write.edited faults u now nowUtc = .ok contents ∧
      ((∃ s', write.run faults now nowUtc s = (.ok (), s') ∧ faults.persists u s.diskGen = true ∧
        s'.memory = some { u with contents := contents, generation := s.diskGen + 1 } ∧
        s'.file = some { u with contents := contents }.file) ∨
      ∃ err s', write.run faults now nowUtc s = (.error err, s') ∧
        faults.persists u s.diskGen = false ∧
        s'.memory = some { u with contents := contents } ∧
        s'.file = if faults.replaces u s.diskGen then some { u with contents := contents }.file
          else s.file) := by
  simp only [Write.run, hmemory]
  cases hedited : write.edited faults u now nowUtc with
  | error err => exact .inl ⟨err, rfl, rfl⟩
  | ok contents =>
    exact .inr ⟨contents, rfl, Session.persist_eq (s := { s with
      memory := some { u with contents := contents } }) rfl⟩

theorem freshAnswers_congr (h : s'.file = s.file) (exportKey : Bytes) (suiteVersion : UInt8) :
    s'.freshAnswers hkdf exportKey suiteVersion = s.freshAnswers hkdf exportKey suiteVersion := by
  rw [Session.freshAnswers, Session.freshAnswers, h]

/-- **A call changes nothing when it fails** exactly in the cases of `Spares`. -/
theorem Write.spares_iff (hmemory : s.memory = some u) :
    (∀ err s', write.run faults now nowUtc s = (.error err, s') → s.Unchanged hkdf s') ↔
      write.Spares hkdf faults now nowUtc s u := by
  rw [Write.Spares]
  obtain ⟨err, hedited, hrun⟩ | ⟨contents, hedited, hcases⟩ :=
    Write.run_eq write faults now nowUtc hmemory
  · rw [hedited, hrun]
    refine iff_of_true (fun err' s' h => ?_) trivial
    cases h
    exact ⟨rfl, fun _ _ => rfl⟩
  · rw [hedited]
    obtain ⟨t, hrun, hpersists, -, -⟩ | ⟨err, t, hrun, hpersists, ht, hfile⟩ := hcases
    · rw [hrun]
      exact iff_of_true (fun err' s' h => by cases h) (.inl hpersists)
    · rw [hrun, hpersists]
      simp only [Bool.false_eq_true, false_or]
      have hanswers : t.answers = some (contents.answers u.master) := by
        rw [Session.answers, ht]
        rfl
      have hbefore : s.answers = some (u.contents.answers u.master) := by
        rw [Session.answers, hmemory]
        rfl
      constructor
      · intro h
        obtain ⟨hhandle, hdisk⟩ := h err t rfl
        refine ⟨?_, fun hreplaces exportKey suiteVersion => ?_⟩
        · rw [hanswers, hbefore] at hhandle
          exact Option.some.inj hhandle
        · rw [if_pos hreplaces] at hfile
          rw [← hdisk exportKey suiteVersion]
          exact freshAnswers_congr hfile.symm _ _
      · rintro ⟨hhandle, hdisk⟩ err' s' h
        cases h
        refine ⟨?_, fun exportKey suiteVersion => ?_⟩
        · rw [hanswers, hbefore, hhandle]
        · by_cases hreplaces : faults.replaces u s.diskGen = true
          · rw [if_pos hreplaces] at hfile
            rw [← hdisk hreplaces exportKey suiteVersion]
            exact freshAnswers_congr hfile _ _
          · rw [if_neg hreplaces] at hfile
            exact freshAnswers_congr hfile _ _

/-- The edit of a write leaves what the handle answers to other keys. -/
theorem getSecret_edited {contents : VaultContents}
    (h : later.edited faults u now nowUtc = .ok contents) {key : SecretKey} (hne : key ≠ later.key) :
    (contents.answers u.master).getSecret key = (u.contents.answers u.master).getSecret key := by
  obtain ⟨edited, hedit, hseal⟩ := bind_eq_ok.mp h
  have hsame : edited = contents := by
    split at hseal
    next => cases hseal
    next => cases hseal; rfl
  simp only [VaultContents.answers, ← hsame, Write.lookup_edit_of_ne hedit hne]

/-- A later write publishes what the handle answers to the other keys. -/
theorem Write.publishes (hmemory : s.memory = some u)
    (hrun : later.run faults time timeUtc s = (.ok (), s')) {key : SecretKey}
    (hne : key ≠ later.key) :
    ∃ u', s'.memory = some u' ∧ (s'.file.map fun file => file.body.payload) = some u'.contents ∧
      u'.master = u.master ∧
      (u'.contents.answers u'.master).getSecret key =
        (u.contents.answers u.master).getSecret key := by
  obtain ⟨err, -, hfails⟩ | ⟨contents, hedited, hcases⟩ :=
    Write.run_eq later faults time timeUtc hmemory
  · rw [hfails] at hrun
    cases hrun
  · obtain ⟨t, hok, -, ht, hfile⟩ | ⟨err, t, hfails, -, -, -⟩ := hcases
    · rw [hok] at hrun
      cases hrun
      refine ⟨_, ht, ?_, rfl, getSecret_edited hedited hne⟩
      rw [hfile]
      rfl
    · rw [hfails] at hrun
      cases hrun

/-- A handle whose answers are unchanged holds what it held. -/
theorem Session.Unchanged.memory (h : s.Unchanged hkdf s') (hmemory : s.memory = some u) :
    ∃ u', s'.memory = some u' ∧ u'.contents.answers u'.master = u.contents.answers u.master := by
  have hhandle := h.handle
  rw [Session.answers, Session.answers, hmemory] at hhandle
  exact Option.map_eq_some_iff.mp hhandle

end

/-- **A failed write changes nothing** exactly when it fails before its edit, or its
    edit shows nowhere; and if it has changed nothing, the next write of another key
    leaves its key as it was, in memory and on disk. -/
theorem failed_write_unchanged_iff {hkdf : Bytes → Bytes → UInt8 → Bytes} {s : Session}
    {u : UnlockedState} (hmemory : s.memory = some u) (write : Write) (faults : Faults)
    (now nowUtc : Int) :
    ((∀ err s', write.run faults now nowUtc s = (.error err, s') → s.Unchanged hkdf s') ↔
      write.Spares hkdf faults now nowUtc s u) ∧
    ∀ err s', write.run faults now nowUtc s = (.error err, s') → s.Unchanged hkdf s' →
      ∀ (later : Write) (faults' : Faults) (time timeUtc : Int) (s'' : Session),
        write.key ≠ later.key → later.run faults' time timeUtc s' = (.ok (), s'') →
        ∃ u'', s''.memory = some u'' ∧
          (s''.file.map fun file => file.body.payload) = some u''.contents ∧
          (u''.contents.answers u''.master).getSecret write.key =
            (u.contents.answers u.master).getSecret write.key := by
  refine ⟨Write.spares_iff hmemory, fun err s' _ hunchanged later faults' time timeUtc s'' hne hlater => ?_⟩
  obtain ⟨u', hmemory', hsame⟩ := hunchanged.memory hmemory
  obtain ⟨u'', hmemory'', hfile, -, hget⟩ := Write.publishes hmemory' hlater hne
  exact ⟨u'', hmemory'', hfile, hget.trans (by rw [hsame])⟩

/-! ### The steps of a call -/

/-- What a call on a handle sees of a root. -/
def Root.session (w : Root) (hd : Handle) : Session := ⟨hd.state, w.file, w.genFile⟩

/-- The steps that a call takes behind its edit. -/
def Faults.calls (faults : Faults) (u : UnlockedState) (diskGen : Nat) : List Call :=
  if faults.acquire.isSome then [.fail]
  else if diskGen ≠ u.generation then [.acquire, .check]
  else if faults.sealFile.isSome || faults.replace.isSome then [.acquire, .check, .fail]
  else if faults.syncDir.isSome then [.acquire, .check, .failLate]
  else if u64Bound ≤ diskGen + 1 then [.acquire, .check, .replace, .bump]
  else if faults.writeGen.isSome then [.acquire, .check, .replace, .fail]
  else if faults.syncGen.isSome then [.acquire, .check, .replace, .failLate]
  else [.acquire, .check, .replace, .bump]

/-- A run that begins with a step of a handle. -/
theorem exec_call {w w' : Root} {h : Nat} {hd : Handle} {c : Call} {as : List Action}
    (hlook : w.handles.lookup h = some hd) (hstep : w.step hkdf h hd c hd.pc = some w') :
    (vault hkdf).exec w (.call h c :: as) = (vault hkdf).exec w' as := by
  show ((w.handles.lookup h).bind fun hd => w.step hkdf h hd c hd.pc).bind _ = _
  rw [hlook, Option.bind_some, hstep, Option.bind_some]

/-- **The call is a run of the handle**: when nobody holds the lock, the steps of the
    handle lead to the session that the call leaves. -/
theorem exec_of_run {w : Root} {h : Nat} {hd : Handle} {write : Write} {now nowUtc : Int}
    {contents : VaultContents} (hlook : w.handles.lookup h = some hd) (hidle : hd.pc = .idle)
    (hstate : hd.state = some u) (hfree : w.lockedBy = none) (hseal : faults.sealEntry = none)
    (hedit : write.edit u.contents u.master now nowUtc = .ok contents) :
    ∃ w' hd', (vault hkdf).exec w (.call h (.write write now nowUtc) ::
        (faults.calls u w.diskGen).map (.call h)) = some w' ∧
      w'.handles.lookup h = some hd' ∧ hd'.pc = .idle ∧
      w'.session hd' = (write.run faults now nowUtc (w.session hd)).2 := by
  obtain ⟨pc, state, outcome, basis, unsaved⟩ := hd
  obtain rfl : pc = .idle := hidle
  obtain rfl : state = some u := hstate
  have hedited : write.edited faults u now nowUtc = .ok contents := by
    rw [Write.edited, hedit]
    cases write <;> simp [bind, Except.bind, Write.sealError, hseal]
  have hrun : write.run faults now nowUtc (w.session ⟨.idle, some u, outcome, basis, unsaved⟩) =
      Session.persist ⟨some { u with contents := contents }, w.file, w.genFile⟩ faults := by
    simp only [Write.run, Root.session, hedited]
  rw [hrun]
  -- the states the call goes through, as far as it comes
  let begun : Handle := ⟨.acquiring write.key, some { u with contents := contents }, outcome, basis,
    unsaved⟩
  let locked : Root := { w.setHandle h begun with lockedBy := some h, genFile := some w.diskGen }
  let checking : Root := locked.setHandle h { begun with pc := .checking write.key w.diskGen }
  let replacing : Root := checking.setHandle h { begun with pc := .replacing write.key w.diskGen }
  let bumpingHandle : Handle :=
    { begun with pc := .bumping write.key w.diskGen, basis := replacing.version + 1 }
  let bumping : Root :=
    (replacing.putFile { u with contents := contents }).setHandle h bumpingHandle
  have hbegin (as : List Action) : (vault hkdf).exec w (.call h (.write write now nowUtc) :: as) =
      (vault hkdf).exec (w.setHandle h begun) as := by
    refine exec_call hlook ?_
    show some (w.startWrite h _ write now nowUtc) = _
    rw [Root.startWrite]
    simp only [hedit]
    rfl
  have hacquired (as : List Action) :
      (vault hkdf).exec (w.setHandle h begun) (.call h .acquire :: as) =
        (vault hkdf).exec checking as :=
    exec_call (AList.lookup_insert _) (if_pos hfree)
  have hchecked (hgen : w.diskGen = u.generation) (as : List Action) :
      (vault hkdf).exec checking (.call h .check :: as) = (vault hkdf).exec replacing as :=
    exec_call (AList.lookup_insert _) (congrArg some (if_neg (not_not_intro hgen)))
  have hconflict (hgen : w.diskGen ≠ u.generation) (as : List Action) :
      (vault hkdf).exec checking (.call h .check :: as) =
        (vault hkdf).exec (checking.unlock.setHandle h (Handle.done
          { begun with pc := .checking write.key w.diskGen }
          (.error (.conflict u.generation w.diskGen)))) as :=
    exec_call (AList.lookup_insert _) (congrArg some (if_pos hgen))
  have hreplaced (as : List Action) :
      (vault hkdf).exec replacing (.call h .replace :: as) = (vault hkdf).exec bumping as :=
    exec_call (AList.lookup_insert _) rfl
  have hbumped (hroom : w.diskGen + 1 < u64Bound) (as : List Action) :
      (vault hkdf).exec bumping (.call h .bump :: as) =
        (vault hkdf).exec (bumping.finishWrite h bumpingHandle { u with contents := contents }
          write.key w.diskGen) as :=
    exec_call (AList.lookup_insert _) (congrArg some (if_pos hroom))
  have hfull (hbound : ¬ w.diskGen + 1 < u64Bound) (as : List Action) :
      (vault hkdf).exec bumping (.call h .bump :: as) =
        (vault hkdf).exec (bumping.unlock.setHandle h (bumpingHandle.failWrite write.key
          (.integrity "vault generation counter overflow"))) as :=
    exec_call (AList.lookup_insert _) (congrArg some (if_neg hbound))
  have hdisk : Session.diskGen ⟨some { u with contents := contents }, w.file, w.genFile⟩ =
      w.diskGen := rfl
  rw [hbegin, Session.persist]
  simp only [hdisk]
  cases hacquire : faults.acquire with
  | some err =>
    have hcalls : faults.calls u w.diskGen = [.fail] := by simp [Faults.calls, hacquire]
    rw [hcalls, List.map_cons, exec_call (AList.lookup_insert _) rfl]
    exact ⟨_, _, rfl, AList.lookup_insert _, rfl, rfl⟩
  | none =>
    by_cases hgen : w.diskGen = u.generation
    · rw [if_neg (not_not_intro hgen)]
      cases hsealFile : faults.sealFile with
      | some err =>
        have hcalls : faults.calls u w.diskGen = [.acquire, .check, .fail] := by
          simp [Faults.calls, hacquire, hgen, hsealFile]
        rw [hcalls, List.map_cons, List.map_cons, hacquired, hchecked hgen, List.map_cons,
          exec_call (AList.lookup_insert _) rfl]
        exact ⟨_, _, rfl, AList.lookup_insert _, rfl, rfl⟩
      | none =>
        cases hreplace : faults.replace with
        | some err =>
          have hcalls : faults.calls u w.diskGen = [.acquire, .check, .fail] := by
            simp [Faults.calls, hacquire, hgen, hsealFile, hreplace]
          rw [hcalls, List.map_cons, List.map_cons, hacquired, hchecked hgen, List.map_cons,
            exec_call (AList.lookup_insert _) rfl]
          exact ⟨_, _, rfl, AList.lookup_insert _, rfl, rfl⟩
        | none =>
          cases hsync : faults.syncDir with
          | some err =>
            have hcalls : faults.calls u w.diskGen = [.acquire, .check, .failLate] := by
              simp [Faults.calls, hacquire, hgen, hsealFile, hreplace, hsync]
            rw [hcalls, List.map_cons, List.map_cons, hacquired, hchecked hgen, List.map_cons,
              exec_call (AList.lookup_insert _) rfl]
            exact ⟨_, _, rfl, AList.lookup_insert _, rfl, rfl⟩
          | none =>
            have hcalls : faults.calls u w.diskGen = [.acquire, .check, .replace,
                if u64Bound ≤ w.diskGen + 1 then .bump
                else if faults.writeGen.isSome then .fail
                else if faults.syncGen.isSome then .failLate else .bump] := by
              simp only [Faults.calls, hacquire, hsealFile, hreplace, hsync, hgen, ne_eq,
                Option.isSome_none, Bool.false_eq_true, Bool.or_self, not_true_eq_false, if_false]
              split_ifs <;> rfl
            rw [hcalls, List.map_cons, List.map_cons, List.map_cons, hacquired, hchecked hgen,
              hreplaced, List.map_cons]
            simp only [Session.bump]
            by_cases hbound : u64Bound ≤ w.diskGen + 1
            · rw [if_pos hbound, if_pos hbound, hfull (Nat.not_lt.mpr hbound)]
              exact ⟨_, _, rfl, AList.lookup_insert _, rfl, rfl⟩
            · rw [if_neg hbound, if_neg hbound]
              have hroom : w.diskGen + 1 < u64Bound := Nat.lt_of_not_le hbound
              cases hwrite : faults.writeGen with
              | some err =>
                rw [Option.isSome_some, if_pos rfl, exec_call (AList.lookup_insert _) rfl]
                exact ⟨_, _, rfl, AList.lookup_insert _, rfl, rfl⟩
              | none =>
                rw [Option.isSome_none, if_neg Bool.false_ne_true]
                cases hbehind : faults.syncGen with
                | some err =>
                  rw [Option.isSome_some, if_pos rfl, exec_call (AList.lookup_insert _) rfl]
                  exact ⟨_, _, rfl, AList.lookup_insert _, rfl, rfl⟩
                | none =>
                  rw [Option.isSome_none, if_neg Bool.false_ne_true, hbumped hroom]
                  exact ⟨_, _, rfl, AList.lookup_insert _, rfl, rfl⟩
    · rw [if_pos hgen]
      have hcalls : faults.calls u w.diskGen = [.acquire, .check] := by
        simp [Faults.calls, hacquire, hgen]
      rw [hcalls, List.map_cons, hacquired, List.map_cons, hconflict hgen]
      exact ⟨_, _, rfl, AList.lookup_insert _, rfl, rfl⟩

/-- A stand-in for the key derivation. -/
private def fixedKey (_ _ : Bytes) (_ : UInt8) : Bytes := [1]

private def emptyVault : UnlockedState := ⟨.new 0, [1], [2], 1, 0⟩

/-- A new vault that is unlocked. -/
private def newSession : Session := ⟨some emptyVault, some emptyVault.file, some 0⟩

private def putToken (service : String) : Write :=
  .put ⟨service, "token"⟩ ⟨.apiKey, [7], 0, 0, none, [], []⟩

/-- The sidecar cannot be locked. -/
private def noLock : Faults := { Faults.none with acquire := some .io }

theorem failed_write_unchanged_empty_name :
    (∀ err s', (putToken "").run .none 5 5 newSession = (.error err, s') →
      newSession.Unchanged fixedKey s') ∧
      (putToken "").run .none 5 5 newSession =
        (.error (.invalidComponent "service: empty"), newSession) := by
  refine ⟨(failed_write_unchanged_iff (u := emptyVault) rfl (putToken "") .none 5 5).1.mpr ?_, rfl⟩
  exact trivial

/-- A put that fails at the lock is answered with an error, shown by the handle, and
    published by the next put of another key. -/
theorem failed_put_is_published :
    ∃ s' s'', (putToken "github").run noLock 5 5 newSession = (.error .io, s') ∧
      ¬ newSession.Unchanged fixedKey s' ∧
      (putToken "npm").run .none 6 6 s' = (.ok (), s'') ∧
      (s''.freshAnswers fixedKey [3] 1).map (·.hasSecret ⟨"github", "token"⟩) = .ok true := by
  refine ⟨_, _, rfl, fun h => ?_, rfl, rfl⟩
  have hhandle := congrArg (Option.map fun answers => answers.hasSecret ⟨"github", "token"⟩) h.handle
  exact absurd hhandle (by decide +kernel)

end Botwork.Vault
