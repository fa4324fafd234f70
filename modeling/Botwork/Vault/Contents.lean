import Botwork.Foundations.Fallible
import Botwork.Foundations.FiniteMap
import Botwork.Foundations.Text

/-!
# Vault contents

The payload of a vault file and the operations on it.  Sealing is ideal
authenticated encryption: a sealed value opens under the key it was sealed with
and under no other.  The key derivation `hkdf` is a parameter.

## Main definitions

- `SecretKey`, `SecretEntry`, `EntryEnvelope`, `VaultContents` — the payload
- `Sealed` — a value sealed under a key
- `VaultFile` — the file on disk
- `deriveMasterKey`, `openWithKey`, `openVault` — from key material to contents
- `VaultContents.put`, `VaultContents.touch` — the edits of a write
-/

namespace Botwork.Vault

open Botwork.Foundations

abbrev Bytes := List UInt8

inductive VaultError where
  | locked
  | auth
  | notInitialized
  | alreadyInitialized
  | secretNotFound (service name : String)
  | integrity (message : String)
  | unsupportedVersion
  | invalidComponent (message : String)
  | io
  | conflict (expected found : Nat)
  deriving DecidableEq, Repr

-- ════════════════════════════════════════════════════════════════════════
-- Names
-- ════════════════════════════════════════════════════════════════════════

structure SecretKey where
  service : String
  name : String
  deriving DecidableEq, Repr

/-- A byte a name component may contain. -/
def isComponentChar (c : Char) : Bool := c.isAlphanum || c == '.' || c == '_' || c == '-'

def validateComponent (s field : String) : Except VaultError Unit :=
  if s = "" then .error (.invalidComponent (field ++ ": empty component"))
  else if s = "." ∨ s = ".." then
    .error (.invalidComponent (field ++ ": reserved component '" ++ s ++ "'"))
  else if s.toList.all isComponentChar then .ok ()
  else
    .error (.invalidComponent
      (field ++ ": invalid characters in '" ++ s ++ "' (allowed: A-Za-z0-9._-)"))

def validateService (service : String) : Except VaultError Unit :=
  if service = "" then .error (.invalidComponent "service: empty")
  else
    (service.toList.splitOn '/').forM fun part => validateComponent (String.ofList part) "service"

def validateName (name : String) : Except VaultError Unit := validateComponent name "name"

def SecretKey.validate (key : SecretKey) : Except VaultError Unit := do
  validateService key.service
  validateName key.name

theorem validateComponent_eq_ok {s field : String} :
    validateComponent s field = .ok () ↔
      s ≠ "" ∧ s ≠ "." ∧ s ≠ ".." ∧ s.toList.all isComponentChar = true := by
  rw [validateComponent]
  split_ifs with hempty hdots hall
  · simp [hempty]
  · refine iff_of_false nofun ?_
    rintro ⟨-, hdot, hdots', -⟩
    exact hdots.elim hdot hdots'
  · simp [hempty, not_or.mp hdots, hall]
  · simp [hall]

/-- A service without a slash is one component. -/
theorem validateService_eq_ok {service : String} (hslash : '/' ∉ service.toList) :
    validateService service = .ok () ↔ validateComponent service "service" = .ok () := by
  rw [validateService, List.splitOn_eq_singleton hslash]
  split
  next hempty => simp [validateComponent, hempty]
  next => simp [List.forM]

theorem SecretKey.validate_eq_ok {key : SecretKey} :
    key.validate = .ok () ↔ validateService key.service = .ok () ∧ validateName key.name = .ok () :=
  ⟨fun h => (bind_eq_ok.mp h).elim fun _ h => h, fun h => bind_eq_ok.mpr ⟨(), h⟩⟩

-- ════════════════════════════════════════════════════════════════════════
-- Sealing
-- ════════════════════════════════════════════════════════════════════════

/-- A value sealed under a key by authenticated encryption. -/
structure Sealed (α : Type) where
  key : Bytes
  payload : α
  deriving DecidableEq

def Sealed.open {α : Type} (s : Sealed α) (key : Bytes) : Except VaultError α :=
  if s.key = key then .ok s.payload else .error .auth

theorem Sealed.open_eq_ok {α : Type} {s : Sealed α} {key : Bytes} {payload : α} :
    s.open key = .ok payload ↔ s.key = key ∧ s.payload = payload := by
  unfold Sealed.open
  split
  next h => simp [h]
  next h => simp [h]

/-- `derive_master_key`, over an abstract HKDF of the export key, the salt and
    the suite version. -/
def deriveMasterKey (hkdf : Bytes → Bytes → UInt8 → Bytes) (exportKey salt : Bytes)
    (suiteVersion : UInt8) : Except VaultError Bytes :=
  if exportKey = [] then .error (.integrity "empty export_key supplied to derive_master_key")
  else .ok (hkdf exportKey salt suiteVersion)

-- ════════════════════════════════════════════════════════════════════════
-- Entries
-- ════════════════════════════════════════════════════════════════════════

inductive SecretKind where
  | sshPrivateKey
  | sshPublicKey
  | apiKey
  | oauthToken
  | pem
  | password
  | opaqueBytes
  deriving DecidableEq, Repr

/-- A secret as callers supply it. -/
structure SecretEntry where
  kind : SecretKind
  value : Bytes
  createdAt : Int
  updatedAt : Int
  lastUsedAt : Option Int
  tags : List String
  allowedConsumers : List String
  deriving DecidableEq

structure EntryMeta where
  kind : SecretKind
  createdAt : Int
  updatedAt : Int
  lastUsedAt : Option Int
  tags : List String
  allowedConsumers : List String
  createdAtUtc : Int
  rotatedAtUtc : Int
  deriving DecidableEq

/-- An entry on disk: the value is sealed under a fresh key that the master key
    wraps, so it opens under the master key. -/
structure EntryEnvelope where
  value : Sealed Bytes
  info : EntryMeta
  deriving DecidableEq

structure VaultContents where
  createdAt : Int
  updatedAt : Int
  entries : FiniteMap SecretKey EntryEnvelope

def VaultContents.new (now : Int) : VaultContents := ⟨now, now, ∅⟩

/-- The envelope `put_secret` makes; an overwrite keeps the creation times. -/
def VaultContents.sealEntry (contents : VaultContents) (master : Bytes) (key : SecretKey)
    (entry : SecretEntry) (now nowUtc : Int) : EntryEnvelope where
  value := ⟨master, entry.value⟩
  info :=
    { kind := entry.kind
      createdAt := ((contents.entries.lookup key).map (·.info.createdAt)).getD now
      updatedAt := now
      lastUsedAt := entry.lastUsedAt
      tags := entry.tags
      allowedConsumers := entry.allowedConsumers
      createdAtUtc := ((contents.entries.lookup key).map (·.info.createdAtUtc)).getD nowUtc
      rotatedAtUtc := nowUtc }

/-- The edit of `put_secret`. -/
def VaultContents.put (contents : VaultContents) (master : Bytes) (key : SecretKey)
    (entry : SecretEntry) (now nowUtc : Int) : Except VaultError VaultContents := do
  key.validate
  return { contents with
    entries := contents.entries.insert key (contents.sealEntry master key entry now nowUtc)
    updatedAt := now }

/-- The edit of `delete_secret`. -/
def VaultContents.delete (contents : VaultContents) (key : SecretKey) (now : Int) :
    Except VaultError VaultContents :=
  if (contents.entries.lookup key).isSome then
    .ok { contents with entries := contents.entries.erase key, updatedAt := now }
  else .error (.secretNotFound key.service key.name)

/-- The edit of `touch_last_used`: the value is opened and sealed again. -/
def VaultContents.touch (contents : VaultContents) (master : Bytes) (key : SecretKey)
    (now nowUtc : Int) : Except VaultError VaultContents :=
  match contents.entries.lookup key with
  | none => .error (.secretNotFound key.service key.name)
  | some envelope => do
    let plaintext ← envelope.value.open master
    let info := { envelope.info with
      lastUsedAt := some now, updatedAt := now, rotatedAtUtc := nowUtc }
    return { contents with
      entries := contents.entries.insert key ⟨⟨master, plaintext⟩, info⟩
      updatedAt := now }

/-- A write of one secret. -/
inductive Write where
  | put (key : SecretKey) (entry : SecretEntry)
  | delete (key : SecretKey)
  | touch (key : SecretKey)
  deriving DecidableEq

def Write.key : Write → SecretKey
  | .put key _ | .delete key | .touch key => key

/-- The edit a write makes to the contents in memory. -/
def Write.edit (write : Write) (contents : VaultContents) (master : Bytes) (now nowUtc : Int) :
    Except VaultError VaultContents :=
  match write with
  | .put key entry => contents.put master key entry now nowUtc
  | .delete key => contents.delete key now
  | .touch key => contents.touch master key now nowUtc

/-- A write edits its own key only. -/
theorem Write.lookup_edit_of_ne {write : Write} {contents contents' : VaultContents}
    {master : Bytes} {now nowUtc : Int} (h : write.edit contents master now nowUtc = .ok contents')
    {key : SecretKey} (hne : key ≠ write.key) :
    contents'.entries.lookup key = contents.entries.lookup key := by
  cases write with
  | put target entry =>
    simp only [Write.edit, VaultContents.put] at h
    cases hvalid : target.validate with
    | error err => rw [hvalid] at h; cases h
    | ok =>
      rw [hvalid] at h
      cases h
      exact AList.lookup_insert_ne hne
  | delete target =>
    simp only [Write.edit, VaultContents.delete] at h
    split at h
    next => cases h; exact AList.lookup_erase_ne hne
    next => cases h
  | touch target =>
    simp only [Write.edit, VaultContents.touch] at h
    split at h
    next => cases h
    next envelope _ =>
      cases hopen : envelope.value.open master with
      | error err => rw [hopen] at h; cases h
      | ok plaintext =>
        rw [hopen] at h
        cases h
        exact AList.lookup_insert_ne hne

/-- `get_secret` and `decrypt_entry`: the value of an entry. -/
def VaultContents.decryptEntry (contents : VaultContents) (master : Bytes) (key : SecretKey) :
    Except VaultError Bytes :=
  match contents.entries.lookup key with
  | none => .error (.secretNotFound key.service key.name)
  | some envelope => envelope.value.open master

-- ════════════════════════════════════════════════════════════════════════
-- The file
-- ════════════════════════════════════════════════════════════════════════

def formatVersion : UInt8 := 4

/-- `vault.botwork`: the header in clear and the sealed contents. -/
structure VaultFile where
  version : UInt8
  suiteVersion : UInt8
  salt : Bytes
  body : Sealed VaultContents

/-- `seal_with_master`. -/
def sealWithMaster (contents : VaultContents) (master salt : Bytes) (suiteVersion : UInt8) :
    VaultFile :=
  ⟨formatVersion, suiteVersion, salt, ⟨master, contents⟩⟩

/-- `open_contents`, as `open_with_master` calls it. -/
def VaultFile.openWithKey (file : VaultFile) (master : Bytes) : Except VaultError VaultContents :=
  if file.version ≠ formatVersion then .error .unsupportedVersion else file.body.open master

/-- The checks of `unlock_master` up to the opened contents, with the master key. -/
def VaultFile.openWithExportKey (hkdf : Bytes → Bytes → UInt8 → Bytes) (file : VaultFile)
    (exportKey : Bytes) (suiteVersion : UInt8) : Except VaultError (Bytes × VaultContents) :=
  if file.version ≠ formatVersion ∨ file.suiteVersion ≠ suiteVersion then
    .error .unsupportedVersion
  else do
    let master ← deriveMasterKey hkdf exportKey file.salt suiteVersion
    let contents ← file.openWithKey master
    return (master, contents)

theorem VaultFile.openWithKey_eq_ok {file : VaultFile} {master : Bytes} {contents : VaultContents}
    (h : file.openWithKey master = .ok contents) :
    file.body = ⟨master, contents⟩ := by
  unfold VaultFile.openWithKey at h
  split at h
  next => cases h
  next =>
    obtain ⟨hkey, hpayload⟩ := Sealed.open_eq_ok.mp h
    rw [← hkey, ← hpayload]

theorem VaultFile.openWithExportKey_eq_ok {hkdf : Bytes → Bytes → UInt8 → Bytes}
    {file : VaultFile} {exportKey master : Bytes} {suiteVersion : UInt8} {contents : VaultContents}
    (hopen : file.openWithExportKey hkdf exportKey suiteVersion = .ok (master, contents)) :
    file.body = ⟨master, contents⟩ := by
  unfold VaultFile.openWithExportKey at hopen
  split at hopen
  next => cases hopen
  next =>
    cases hderive : deriveMasterKey hkdf exportKey file.salt suiteVersion with
    | error err => rw [hderive] at hopen; cases hopen
    | ok master' =>
      cases hkey : file.openWithKey master' with
      | error err => rw [hderive] at hopen; simp only [hkey, bind, Except.bind] at hopen; cases hopen
      | ok contents' =>
        rw [hderive] at hopen
        simp only [hkey, bind, Except.bind, pure, Except.pure] at hopen
        cases hopen
        exact VaultFile.openWithKey_eq_ok hkey

/-- What `open_with_master` has opened. -/
theorem VaultFile.openWithKey_map_eq_ok {file : VaultFile} {key master : Bytes}
    {contents : VaultContents}
    (hopen : (file.openWithKey key).map (fun contents => (key, contents)) =
      .ok (master, contents)) : file.body = ⟨master, contents⟩ := by
  cases hkey : file.openWithKey key with
  | error err => rw [hkey] at hopen; cases hopen
  | ok opened =>
    rw [hkey] at hopen
    cases hopen
    exact VaultFile.openWithKey_eq_ok hkey

end Botwork.Vault
