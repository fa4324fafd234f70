import Botwork.Foundations.Effects
import Botwork.Foundations.Fallible
import Botwork.Foundations.FiniteMap
import Botwork.Foundations.Lines
import Botwork.Foundations.Transition
import Botwork.Foundations.UnixPath
import Mathlib.Data.List.Sort
import Mathlib.Data.String.Basic

/-!
# Public keys

The plaintext sidecar of a vault: one file for each label, below `public/ssh`.
Only the first line of a key text is checked, and the whole text is stored; both
readers go through the files by name and publish their first lines.

## Main definitions

- `PublicStore`, `addSsh`, `deleteSsh`, `listSsh`, `catSsh` — the store
- `publisher` — any sequence of additions and deletions
- `Publishes` — what the readers return of the keys that are kept
- `Orderly` — the kept keys are single lines, and their files sort as their labels
-/

namespace Botwork.Vault

open Botwork.Foundations Botwork.Foundations.Effectful Botwork.Foundations.Text

inductive PublicError where
  | publicStore (message : String)
  | io (message : String)
  deriving DecidableEq

/-- `^[a-z0-9][a-z0-9._-]{0,62}$`. -/
def validateLabel (label : String) : Except PublicError Unit :=
  let invalid := .error (.publicStore ("invalid label: " ++ label))
  if label = "" ∨ label.utf8ByteSize > 63 then invalid
  else
    match label.toList with
    | [] => invalid
    | first :: rest =>
      if !first.isLower && !first.isDigit then invalid
      else if rest.any fun c => !c.isLower && !c.isDigit && c != '.' && c != '_' && c != '-' then
        invalid
      else .ok ()

def isValidSshKeyType (token : String) : Bool :=
  token == "ssh-rsa" || token == "ssh-ed25519" || token == "ssh-ecdsa" ||
    "ecdsa-sha2-".toList.isPrefixOf token.toList || "sk-".toList.isPrefixOf token.toList

/-- The key type and the comment of a line; the key itself is skipped. -/
def parseSshKeyLine (line : String) : Except PublicError (String × String) :=
  match splitWhitespace line with
  | [] => .error (.publicStore "not an OpenSSH public key")
  | keyType :: rest =>
    if isValidSshKeyType keyType then .ok (keyType, " ".intercalate (rest.drop 1))
    else .error (.publicStore "not an OpenSSH public key")

structure SshEntry where
  label : String
  keyType : String
  comment : String
  deriving DecidableEq

/-- The sidecar below a vault root. -/
structure PublicStore where
  rootExists : Bool
  publicDir : Bool
  /-- the files of `public/ssh` by name, once it is there -/
  sshDir : Option (FiniteMap String String)

namespace PublicStore

/-- Without the directory there are none. -/
def files (store : PublicStore) : FiniteMap String String := store.sshDir.getD ∅

def checkRoot (store : PublicStore) : Except PublicError Unit :=
  if store.rootExists then .ok () else .error (.publicStore "vault root not initialized")

def hasFile (store : PublicStore) (name : String) : Bool := (store.files.lookup name).isSome

def putFile (name content : String) (store : PublicStore) : PublicStore :=
  { store with sshDir := some (store.files.insert name content) }

def removeFile (name : String) (store : PublicStore) : PublicStore :=
  { store with sshDir := store.sshDir.map (·.erase name) }

theorem files_removeFile (name : String) (store : PublicStore) :
    (store.removeFile name).files = store.files.erase name := by
  rw [files, removeFile, files]
  cases store.sshDir with
  | none => rfl
  | some files => rfl

end PublicStore

/-- The file system's answers to one addition. -/
structure AddAnswers where
  createPublic : Except String Unit
  chmodPublic : Except String Unit
  createSsh : Except String Unit
  chmodSsh : Except String Unit
  /-- the temporary file, up to its renaming -/
  write : Except String Unit
  syncDir : Except String Unit
  chmodRoot : Except String Unit

def ioAnswer (answer : Except String Unit) : Except PublicError Unit := answer.mapError .io

abbrev Publishing := Effectful PublicError PublicStore

def fileName (label : String) : String := label ++ ".pub"

section

variable (answers : AddAnswers)

/-- Whether `public/ssh` had to be created. -/
def ensureSshDir : Publishing Bool := do
  let (publicDir, sshDir) ←
    actOn (fun store : PublicStore => .ok (store.publicDir, store.sshDir.isSome)) id id
  if sshDir then return false
  if !publicDir then
    act (ioAnswer answers.createPublic) ({ · with publicDir := true }) id
    check (ioAnswer answers.chmodPublic)
  act (ioAnswer answers.createSsh) ({ · with sshDir := some ∅ }) id
  check (ioAnswer answers.chmodSsh)
  return true

def addSsh (label keyLine : String) (force : Bool) : Publishing Unit := do
  actOn PublicStore.checkRoot id id
  check (validateLabel label)
  let _ ← check (parseSshKeyLine (trim (firstLine keyLine)))
  actOn (fun store => if store.hasFile (fileName label) && !force then
    .error (.publicStore ("label already exists: " ++ label)) else .ok ()) id id
  let firstUse ← ensureSshDir answers
  act (ioAnswer answers.write) (.putFile (fileName label) (ended keyLine)) id
  check (ioAnswer answers.syncDir)
  if firstUse then check (ioAnswer answers.chmodRoot)

def deleteSsh (removeFile : Except String Unit) (label : String) : Publishing Unit := do
  actOn PublicStore.checkRoot id id
  check (validateLabel label)
  actOn (fun store => if store.hasFile (fileName label) then .ok ()
    else .error (.publicStore ("no such label: " ++ label))) id id
  act (ioAnswer removeFile) (.removeFile (fileName label)) id

end

-- ════════════════════════════════════════════════════════════════════════
-- Readers
-- ════════════════════════════════════════════════════════════════════════

def isPub (name : String) : Bool :=
  (UnixPath.splitFileAtDot name.toList).2 == some "pub".toList

def fileStem (name : String) : String :=
  String.ofList (UnixPath.splitFileAtDot name.toList).1

/-- The `.pub` files, sorted by file name. -/
def pubFiles (files : FiniteMap String String) : List (String × String) :=
  ((files.entries.map fun file => (file.1, file.2)).filter fun file => isPub file.1).insertionSort
    fun file file' => file.1 ≤ file'.1

/-- What `list_ssh` makes of a file. -/
def listed (file : String × String) : Option SshEntry :=
  let first := trim (firstLine file.2)
  if first = "" then none
  else
    match parseSshKeyLine first with
    | .ok (keyType, comment) => some ⟨fileStem file.1, keyType, comment⟩
    | .error _ => none

def listSsh (store : PublicStore) : Except PublicError (List SshEntry) := do
  store.checkRoot
  match store.sshDir with
  | none => return []
  | some files => return (pubFiles files).filterMap listed

/-- What `cat_ssh` makes of a file. -/
def catted (file : String × String) : String :=
  let first := trim (firstLine file.2)
  if file.2 = "" ∨ first = "" then ""
  else
    match (splitWhitespace first).head? with
    | some token => if isValidSshKeyType token then first ++ "\n" else ""
    | none => ""

def catSsh (store : PublicStore) : Except PublicError String := do
  store.checkRoot
  match store.sshDir with
  | none => return ""
  | some files => return String.join ((pubFiles files).map catted)

-- ════════════════════════════════════════════════════════════════════════
-- Runs
-- ════════════════════════════════════════════════════════════════════════

inductive PublicCall where
  | addSsh (answers : AddAnswers) (label keyLine : String) (force : Bool)
  | deleteSsh (removeFile : Except String Unit) (label : String)

/-- The store, and the key texts that were added and not deleted, by label. -/
structure Published where
  store : PublicStore
  kept : FiniteMap String String

/-- A call that is answered with success adds or deletes its label. -/
def Published.apply (s : Published) : PublicCall → Published
  | .addSsh answers label keyLine force =>
    let (result, store) := (addSsh answers label keyLine force).exec s.store
    ⟨store, if result.toBool then s.kept.insert label keyLine else s.kept⟩
  | .deleteSsh removeFile label =>
    let (result, store) := (deleteSsh removeFile label).exec s.store
    ⟨store, if result.toBool then s.kept.erase label else s.kept⟩

def publisher : Machine Published PublicCall where
  Start s := s = ⟨⟨true, s.store.publicDir, none⟩, ∅⟩
  next s call := some (s.apply call)

/-- Nothing fails behind the renaming of the file. -/
def Settled : PublicCall → Prop
  | .addSsh answers _ _ _ => answers.syncDir = .ok () ∧ answers.chmodRoot = .ok ()
  | .deleteSsh _ _ => True

/-- A line whose first field is a recognised key type. -/
def IsKeyLine (line : String) : Prop :=
  '\n' ∉ line.toList ∧ ∃ token, (splitWhitespace line).head? = some token ∧
    isValidSshKeyType token = true

/-- Every file is one key line ended by a newline, the list is that of the kept
    labels in their order, and the concatenation is that of their files. -/
structure Publishes (s : Published) : Prop where
  files : ∀ name content, s.store.files.lookup name = some content →
    ∃ line, content = line ++ "\n" ∧ IsKeyLine line
  readers : ∃ entries, listSsh s.store = .ok entries ∧
    (entries.map SshEntry.label).Pairwise (· < ·) ∧
    (∀ label, label ∈ entries.map SshEntry.label ↔ (s.kept.lookup label).isSome = true) ∧
    catSsh s.store = .ok (String.join (entries.map fun entry =>
      (s.store.files.lookup (fileName entry.label)).getD ""))

/-- A key text that is one line, with nothing around it to trim but the newline. -/
def IsPlainLine (keyLine : String) : Prop := ended keyLine = trim (firstLine keyLine) ++ "\n"

/-- The kept keys are plain lines, and their files sort as their labels. -/
structure Orderly (kept : FiniteMap String String) : Prop where
  plain : ∀ label keyLine, kept.lookup label = some keyLine → IsPlainLine keyLine
  sorts : ∀ label label', (kept.lookup label).isSome = true → (kept.lookup label').isSome = true →
    label < label' → fileName label < fileName label'

-- ════════════════════════════════════════════════════════════════════════
-- What the calls do
-- ════════════════════════════════════════════════════════════════════════

section

variable {answers : AddAnswers} {label keyLine : String} {force : Bool} {store store' : PublicStore}
  {removeFile : Except String Unit}

/-- The files, and the root that holds them. -/
def SameFiles (store after : PublicStore) : Prop :=
  after.files = store.files ∧ after.rootExists = store.rootExists

/-- The directories are created without a file. -/
theorem ends_ensureSshDir (store : PublicStore) :
    Ends (SameFiles store) (ensureSshDir answers) store := by
  refine ends_actOn_bind ⟨rfl, rfl⟩ fun dirs hdirs => ?_
  cases hdirs
  cases hssh : store.sshDir with
  | some files => exact ⟨rfl, rfl⟩
  | none =>
    have hcreated (publicDir : Bool) :
        SameFiles store { store with publicDir := publicDir, sshDir := some ∅ } :=
      ⟨by rw [PublicStore.files, PublicStore.files, hssh]; rfl, rfl⟩
    cases hpublic : store.publicDir with
    | true =>
      refine ends_act_bind ⟨rfl, rfl⟩ fun _ _ => ?_
      exact ends_check_bind (hcreated _) fun _ _ => hcreated _
    | false =>
      refine ends_act_bind ⟨rfl, rfl⟩ fun _ _ => ends_check_bind ⟨rfl, rfl⟩ fun _ _ => ?_
      refine ends_act_bind ⟨rfl, rfl⟩ fun _ _ => ?_
      exact ends_check_bind (hcreated _) fun _ _ => hcreated _

/-- An addition that succeeds has checked the label and the first line, and stored
    the whole text. -/
theorem addSsh_yields (h : (addSsh answers label keyLine force).Yields store () store') :
    validateLabel label = .ok () ∧ (parseSshKeyLine (trim (firstLine keyLine))).toBool = true ∧
      store'.files = store.files.insert (fileName label) (ended keyLine) ∧
      store'.rootExists = store.rootExists := by
  simp only [addSsh, yields_bind, yields_actOn, yields_check, yields_act] at h
  obtain ⟨_, _, ⟨-, rfl⟩, _, _, ⟨hlabel, rfl⟩, parsed, _, ⟨hparsed, rfl⟩, _, _, ⟨-, rfl⟩,
    firstUse, ready, hready, _, _, ⟨-, rfl⟩, _, _, ⟨-, rfl⟩, hlast⟩ := h
  have hready := (ends_ensureSshDir _).of_yields hready
  have hstore : store' = ready.putFile (fileName label) (ended keyLine) := by
    split at hlast
    next => exact (yields_check.mp hlast).2
    next => exact (yields_pure.mp hlast).2
  rw [hstore]
  refine ⟨hlabel, by rw [hparsed]; rfl, ?_, hready.2⟩
  exact congrArg (AList.insert (fileName label) (ended keyLine)) hready.1

/-- An addition that fails before the renaming has stored nothing. -/
theorem addSsh_fails (hsettled : Settled (.addSsh answers label keyLine force))
    (h : (addSsh answers label keyLine force).Fails store store') : SameFiles store store' := by
  simp only [addSsh, fails_bind, fails_actOn, yields_actOn, fails_check, yields_check, fails_act,
    yields_act] at h
  obtain ⟨-, rfl⟩ | ⟨_, _, ⟨-, rfl⟩, h⟩ := h
  · exact ⟨rfl, rfl⟩
  obtain ⟨-, rfl⟩ | ⟨_, _, ⟨-, rfl⟩, h⟩ := h
  · exact ⟨rfl, rfl⟩
  obtain ⟨-, rfl⟩ | ⟨_, _, ⟨-, rfl⟩, h⟩ := h
  · exact ⟨rfl, rfl⟩
  obtain ⟨-, rfl⟩ | ⟨_, _, ⟨-, rfl⟩, h⟩ := h
  · exact ⟨rfl, rfl⟩
  obtain hready | ⟨firstUse, ready, hready, h⟩ := h
  · exact (ends_ensureSshDir _).of_fails hready
  obtain ⟨-, rfl⟩ | ⟨_, _, ⟨-, rfl⟩, h⟩ := h
  · exact (ends_ensureSshDir _).of_yields hready
  -- behind the renaming nothing fails
  rw [hsettled.1] at h
  obtain ⟨hsync, -⟩ | ⟨_, _, ⟨-, rfl⟩, h⟩ := h
  · cases hsync
  split at h
  next =>
    rw [hsettled.2] at h
    cases (fails_check.mp h).1
  next => exact absurd h not_fails_pure

theorem deleteSsh_yields (h : (deleteSsh removeFile label).Yields store () store') :
    store'.files = store.files.erase (fileName label) ∧ store'.rootExists = store.rootExists := by
  simp only [deleteSsh, yields_bind, yields_actOn, yields_check, yields_act] at h
  obtain ⟨_, _, ⟨-, rfl⟩, _, _, ⟨-, rfl⟩, _, _, ⟨hfile, rfl⟩, -, rfl⟩ := h
  exact ⟨PublicStore.files_removeFile _ _, rfl⟩

theorem deleteSsh_fails (h : (deleteSsh removeFile label).Fails store store') :
    SameFiles store store' := by
  simp only [deleteSsh, fails_bind, fails_actOn, yields_actOn, fails_check, yields_check,
    fails_act] at h
  obtain ⟨-, rfl⟩ | ⟨_, _, ⟨-, rfl⟩, h⟩ := h
  · exact ⟨rfl, rfl⟩
  obtain ⟨-, rfl⟩ | ⟨_, _, ⟨-, rfl⟩, h⟩ := h
  · exact ⟨rfl, rfl⟩
  obtain ⟨-, rfl⟩ | ⟨_, _, ⟨-, rfl⟩, -, rfl⟩ := h
  · exact ⟨rfl, rfl⟩
  · exact ⟨rfl, rfl⟩

end

-- ════════════════════════════════════════════════════════════════════════
-- The files are the kept keys
-- ════════════════════════════════════════════════════════════════════════

theorem fileName_injective : Function.Injective fileName := by
  intro label label' h
  have hlists : label.toList ++ ".pub".toList = label'.toList ++ ".pub".toList := by
    simpa [fileName] using congrArg String.toList h
  exact String.toList_injective (List.append_cancel_right hlists)

theorem splitFileAtDot_fileName {label : String} (h : label ≠ "") :
    UnixPath.splitFileAtDot (fileName label).toList = (label.toList, some "pub".toList) := by
  have hlist : (fileName label).toList = label.toList ++ '.' :: "pub".toList := by
    simp [fileName]
  rw [hlist]
  exact UnixPath.splitFileAtDot_append (fun hnil => h (String.toList_eq_nil_iff.mp hnil))
    (by decide) (by decide)

theorem fileStem_fileName {label : String} (h : label ≠ "") : fileStem (fileName label) = label := by
  rw [fileStem, splitFileAtDot_fileName h, String.ofList_toList]

theorem isPub_fileName {label : String} (h : label ≠ "") : isPub (fileName label) = true := by
  rw [isPub, splitFileAtDot_fileName h]
  rfl

theorem ne_empty_of_validateLabel {label : String} (h : validateLabel label = .ok ()) :
    label ≠ "" := by
  rintro rfl
  exact absurd h (by decide)

namespace Published

/-- The files are the kept key texts, each under the name of its label. -/
structure Inv (s : Published) : Prop where
  root : s.store.rootExists = true
  stored : ∀ label, s.store.files.lookup (fileName label) = (s.kept.lookup label).map ended
  named : ∀ name content, s.store.files.lookup name = some content → ∃ label, name = fileName label
  accepted : ∀ label keyLine, s.kept.lookup label = some keyLine →
    label ≠ "" ∧ (parseSshKeyLine (trim (firstLine keyLine))).toBool = true

variable {s : Published} {store : PublicStore} {label keyLine : String}

theorem Inv.same (inv : s.Inv) (h : SameFiles s.store store) : Inv ⟨store, s.kept⟩ where
  root := h.2.trans inv.root
  stored label := by
    rw [h.1]
    exact inv.stored label
  named name content hfile := by
    rw [h.1] at hfile
    exact inv.named name content hfile
  accepted := inv.accepted

theorem Inv.insert (inv : s.Inv) (hroot : store.rootExists = s.store.rootExists)
    (hfiles : store.files = s.store.files.insert (fileName label) (ended keyLine))
    (hlabel : label ≠ "") (hparsed : (parseSshKeyLine (trim (firstLine keyLine))).toBool = true) :
    Inv ⟨store, s.kept.insert label keyLine⟩ where
  root := hroot.trans inv.root
  stored other := by
    show store.files.lookup (fileName other) =
      ((s.kept.insert label keyLine).lookup other).map ended
    rw [hfiles, FiniteMap.lookup_insert_ite, FiniteMap.lookup_insert_ite]
    by_cases heq : other = label
    · rw [if_pos (congrArg fileName heq), if_pos heq]
      rfl
    · rw [if_neg (fileName_injective.ne heq), if_neg heq]
      exact inv.stored other
  named name content hfile := by
    rw [hfiles, FiniteMap.lookup_insert_ite] at hfile
    by_cases heq : name = fileName label
    · exact ⟨label, heq⟩
    · rw [if_neg heq] at hfile
      exact inv.named name content hfile
  accepted other text hkept := by
    have hkept : (s.kept.insert label keyLine).lookup other = some text := hkept
    rw [FiniteMap.lookup_insert_ite] at hkept
    by_cases heq : other = label
    · rw [if_pos heq] at hkept
      cases hkept
      exact ⟨heq ▸ hlabel, hparsed⟩
    · rw [if_neg heq] at hkept
      exact inv.accepted other text hkept

theorem Inv.erase (inv : s.Inv) (hroot : store.rootExists = s.store.rootExists)
    (hfiles : store.files = s.store.files.erase (fileName label)) :
    Inv ⟨store, s.kept.erase label⟩ where
  root := hroot.trans inv.root
  stored other := by
    show store.files.lookup (fileName other) = ((s.kept.erase label).lookup other).map ended
    rw [hfiles, FiniteMap.lookup_erase_ite, FiniteMap.lookup_erase_ite]
    by_cases heq : other = label
    · rw [if_pos (congrArg fileName heq), if_pos heq]
      rfl
    · rw [if_neg (fileName_injective.ne heq), if_neg heq]
      exact inv.stored other
  named name content hfile := by
    rw [hfiles, FiniteMap.lookup_erase_ite] at hfile
    by_cases heq : name = fileName label
    · exact ⟨label, heq⟩
    · rw [if_neg heq] at hfile
      exact inv.named name content hfile
  accepted other text hkept := by
    have hkept : (s.kept.erase label).lookup other = some text := hkept
    rw [FiniteMap.lookup_erase_ite] at hkept
    by_cases heq : other = label
    · rw [if_pos heq] at hkept
      cases hkept
    · rw [if_neg heq] at hkept
      exact inv.accepted other text hkept

theorem inv_apply {call : PublicCall} (inv : s.Inv) (hsettled : Settled call) :
    (s.apply call).Inv := by
  cases call with
  | addSsh answers label keyLine force =>
    rw [apply]
    cases hexec : (addSsh answers label keyLine force).exec s.store with
    | mk result store =>
      cases result with
      | error err => exact inv.same (addSsh_fails hsettled ⟨err, hexec⟩)
      | ok _ =>
        obtain ⟨hlabel, hparsed, hfiles, hroot⟩ := addSsh_yields hexec
        exact inv.insert hroot hfiles (ne_empty_of_validateLabel hlabel) hparsed
  | deleteSsh removeFile label =>
    rw [apply]
    cases hexec : (deleteSsh removeFile label).exec s.store with
    | mk result store =>
      cases result with
      | error err => exact inv.same (deleteSsh_fails ⟨err, hexec⟩)
      | ok _ =>
        obtain ⟨hfiles, hroot⟩ := deleteSsh_yields hexec
        exact inv.erase hroot hfiles

theorem inv_of_reachable (hreach : publisher.ReachableUnder (fun _ call => Settled call) s) :
    s.Inv := by
  refine hreach.invariant (P := Inv) (fun t hstart => ?_) fun t call t' inv hsettled hnext => ?_
  · rw [show t = _ from hstart]
    exact ⟨rfl, fun _ => rfl, fun _ _ h => (by cases h), fun _ _ h => (by cases h)⟩
  · cases hnext
    exact inv_apply inv hsettled

end Published

-- ════════════════════════════════════════════════════════════════════════
-- The readers
-- ════════════════════════════════════════════════════════════════════════

section

variable {s : Published} {files : FiniteMap String String} {file : String × String}

theorem mem_pubFiles : file ∈ pubFiles files ↔
    files.lookup file.1 = some file.2 ∧ isPub file.1 = true := by
  rw [pubFiles, List.mem_insertionSort, List.mem_filter, FiniteMap.lookup_eq_some_iff,
    List.mem_map]
  constructor
  · rintro ⟨⟨entry, hmem, rfl⟩, hpub⟩
    exact ⟨hmem, hpub⟩
  · rintro ⟨hmem, hpub⟩
    exact ⟨⟨_, hmem, rfl⟩, hpub⟩

/-- No two files have one name. -/
theorem pairwise_pubFiles (files : FiniteMap String String) :
    (pubFiles files).Pairwise fun file file' => file.1 < file'.1 := by
  have htotal : Std.Total fun file file' : String × String => file.1 ≤ file'.1 :=
    ⟨fun file file' => le_total file.1 file'.1⟩
  have htrans : IsTrans (String × String) fun file file' => file.1 ≤ file'.1 :=
    ⟨fun _ _ _ => le_trans⟩
  have hsorted : (pubFiles files).Pairwise fun file file' => file.1 ≤ file'.1 :=
    List.pairwise_insertionSort _ _
  have hnames : ((pubFiles files).map Prod.fst).Nodup := by
    have hperm := (List.perm_insertionSort (fun file file' : String × String => file.1 ≤ file'.1)
      ((files.entries.map fun file => (file.1, file.2)).filter fun file => isPub file.1)).map
      Prod.fst
    refine hperm.nodup_iff.mpr (List.Sublist.nodup (List.filter_sublist.map Prod.fst) ?_)
    rw [List.map_map]
    exact files.keys_nodup
  exact (hsorted.and (List.pairwise_map.mp hnames)).imp fun h => lt_of_le_of_ne h.1 h.2

theorem listSsh_eq (inv : s.Inv) :
    listSsh s.store = .ok ((pubFiles s.store.files).filterMap listed) := by
  rw [listSsh, PublicStore.checkRoot, if_pos inv.root, PublicStore.files]
  cases s.store.sshDir with
  | none => rfl
  | some files => rfl

theorem catSsh_eq (inv : s.Inv) :
    catSsh s.store = .ok (String.join ((pubFiles s.store.files).map catted)) := by
  rw [catSsh, PublicStore.checkRoot, if_pos inv.root, PublicStore.files]
  cases s.store.sshDir with
  | none => rfl
  | some files => rfl

theorem head_of_parseSshKeyLine {line : String} (h : (parseSshKeyLine line).toBool = true) :
    ∃ token rest, splitWhitespace line = token :: rest ∧ isValidSshKeyType token = true := by
  rw [parseSshKeyLine] at h
  split at h
  next => cases h
  next token rest hfields =>
    split at h
    next hvalid => exact ⟨token, rest, hfields, hvalid⟩
    next => cases h

theorem ne_empty_of_parseSshKeyLine {line : String} (h : (parseSshKeyLine line).toBool = true) :
    line ≠ "" := by
  rintro rfl
  exact absurd h (by decide)

/-- The first line of a file, as the readers see it. -/
def published (file : String × String) : String := trim (firstLine file.2)

/-- The files are those of the kept keys; their first lines are the ones that were checked. -/
theorem file_of_mem (inv : s.Inv) (hmem : file ∈ pubFiles s.store.files) :
    ∃ label keyLine, s.kept.lookup label = some keyLine ∧ label ≠ "" ∧
      file = (fileName label, ended keyLine) ∧ published file = trim (firstLine keyLine) ∧
      (parseSshKeyLine (published file)).toBool = true := by
  obtain ⟨hlook, -⟩ := mem_pubFiles.mp hmem
  obtain ⟨label, hname⟩ := inv.named _ _ hlook
  rw [hname, inv.stored, Option.map_eq_some_iff] at hlook
  obtain ⟨keyLine, hkept, hcontent⟩ := hlook
  obtain ⟨hlabel, hparsed⟩ := inv.accepted label keyLine hkept
  have hline : published file = trim (firstLine keyLine) := by
    rw [published, ← hcontent, trim_firstLine_ended]
  exact ⟨label, keyLine, hkept, hlabel, Prod.ext hname hcontent.symm, hline, hline ▸ hparsed⟩

theorem mem_pubFiles_of_kept (inv : s.Inv) {label keyLine : String}
    (hkept : s.kept.lookup label = some keyLine) :
    (fileName label, ended keyLine) ∈ pubFiles s.store.files := by
  have hlook : s.store.files.lookup (fileName label) = some (ended keyLine) := by
    rw [inv.stored, hkept]
    rfl
  exact mem_pubFiles.mpr ⟨hlook, isPub_fileName (inv.accepted label keyLine hkept).1⟩

theorem mem_pubFiles_of_lookup (inv : s.Inv) {name content : String}
    (hlook : s.store.files.lookup name = some content) : (name, content) ∈ pubFiles s.store.files := by
  obtain ⟨label, rfl⟩ := inv.named _ _ hlook
  have hstored := inv.stored label
  rw [hlook] at hstored
  obtain ⟨keyLine, hkept, rfl⟩ := Option.map_eq_some_iff.mp hstored.symm
  exact mem_pubFiles_of_kept inv hkept

theorem isKeyLine_published (inv : s.Inv) (hmem : file ∈ pubFiles s.store.files) :
    IsKeyLine (published file) := by
  obtain ⟨_, _, -, -, -, -, hparsed⟩ := file_of_mem inv hmem
  obtain ⟨token, rest, hfields, hvalid⟩ := head_of_parseSshKeyLine hparsed
  exact ⟨newline_not_mem_trim_firstLine _, token, by rw [hfields]; rfl, hvalid⟩

theorem listed_of_mem (inv : s.Inv) (hmem : file ∈ pubFiles s.store.files) :
    (listed file).map SshEntry.label = some (fileStem file.1) := by
  obtain ⟨_, _, -, -, -, -, hparsed⟩ := file_of_mem inv hmem
  rw [published] at hparsed
  rw [listed, if_neg (ne_empty_of_parseSshKeyLine hparsed)]
  cases hresult : parseSshKeyLine (trim (firstLine file.2)) with
  | error err =>
    rw [hresult] at hparsed
    cases hparsed
  | ok fields => rfl

theorem catted_of_mem (inv : s.Inv) (hmem : file ∈ pubFiles s.store.files) :
    catted file = published file ++ "\n" := by
  obtain ⟨_, _, -, -, -, -, hparsed⟩ := file_of_mem inv hmem
  rw [published] at hparsed ⊢
  have hfirst := ne_empty_of_parseSshKeyLine hparsed
  have hcontent : file.2 ≠ "" := by
    intro hempty
    rw [hempty] at hfirst
    exact hfirst (by decide)
  obtain ⟨token, rest, hfields, hvalid⟩ := head_of_parseSshKeyLine hparsed
  rw [catted, if_neg (not_or.mpr ⟨hcontent, hfirst⟩)]
  simp [hfields, hvalid]

/-- The labels of the list are the stems of the files. -/
theorem labels_listed (inv : s.Inv) :
    ((pubFiles s.store.files).filterMap listed).map SshEntry.label =
      (pubFiles s.store.files).map fun file => fileStem file.1 := by
  rw [List.map_filterMap, List.filterMap_congr fun file hmem => listed_of_mem inv hmem]
  exact congrFun List.filterMap_eq_map _

theorem lookup_fileStem (inv : s.Inv) (hmem : file ∈ pubFiles s.store.files) :
    s.store.files.lookup (fileName (fileStem file.1)) = some file.2 := by
  obtain ⟨label, keyLine, -, hlabel, rfl, -⟩ := file_of_mem inv hmem
  rw [fileStem_fileName hlabel]
  exact (mem_pubFiles.mp hmem).1

theorem mem_labels_iff (inv : s.Inv) (label : String) :
    label ∈ (pubFiles s.store.files).map (fun file => fileStem file.1) ↔
      (s.kept.lookup label).isSome = true := by
  rw [List.mem_map]
  constructor
  · rintro ⟨file, hmem, rfl⟩
    obtain ⟨label, keyLine, hkept, hlabel, rfl, -⟩ := file_of_mem inv hmem
    rw [fileStem_fileName hlabel, hkept]
    rfl
  · intro hsome
    obtain ⟨keyLine, hkept⟩ := Option.isSome_iff_exists.mp hsome
    exact ⟨_, mem_pubFiles_of_kept inv hkept, fileStem_fileName (inv.accepted _ _ hkept).1⟩

/-- Files in the order of their names are in that of their labels when the kept labels
    sort as their files, and only then. -/
theorem pairwise_labels_iff (inv : s.Inv) :
    ((pubFiles s.store.files).map fun file => fileStem file.1).Pairwise (· < ·) ↔
      ∀ label label', (s.kept.lookup label).isSome = true → (s.kept.lookup label').isSome = true →
        label < label' → fileName label < fileName label' := by
  have hstem (file : String × String) (hmem : file ∈ pubFiles s.store.files) :
      file.1 = fileName (fileStem file.1) := by
    obtain ⟨label, keyLine, -, hlabel, rfl, -⟩ := file_of_mem inv hmem
    rw [fileStem_fileName hlabel]
  have hnames := pairwise_pubFiles s.store.files
  rw [List.pairwise_map]
  constructor
  · intro hlabels label label' hsome hsome' hlt
    obtain ⟨keyLine, hkept⟩ := Option.isSome_iff_exists.mp hsome
    obtain ⟨keyLine', hkept'⟩ := Option.isSome_iff_exists.mp hsome'
    -- of two files one comes first, and its label is the smaller one
    let before (file file' : String × String) : Prop :=
      file.1 < file'.1 ∧ fileStem file.1 < fileStem file'.1
    let comparable (file file' : String × String) : Prop := before file file' ∨ before file' file
    have hsymm : Std.Symm comparable := ⟨fun _ _ h => h.symm⟩
    have hboth : (pubFiles s.store.files).Pairwise comparable :=
      (hnames.and hlabels).imp fun h => .inl h
    have hdiffer : (fileName label, ended keyLine) ≠ (fileName label', ended keyLine') := by
      intro heq
      exact absurd (fileName_injective (Prod.ext_iff.mp heq).1) (ne_of_lt hlt)
    obtain ⟨hname, -⟩ | ⟨-, hback⟩ := hboth.forall (mem_pubFiles_of_kept inv hkept)
      (mem_pubFiles_of_kept inv hkept') hdiffer
    · exact hname
    · rw [fileStem_fileName (inv.accepted _ _ hkept).1,
        fileStem_fileName (inv.accepted _ _ hkept').1] at hback
      exact absurd hlt (lt_asymm hback)
  · intro hsorts
    refine hnames.imp_of_mem fun {file file'} hmem hmem' hlt => ?_
    have hkept := (mem_labels_iff inv _).mp (List.mem_map_of_mem hmem)
    have hkept' := (mem_labels_iff inv _).mp (List.mem_map_of_mem hmem')
    obtain hlabels | heq | hback := lt_trichotomy (fileStem file.1) (fileStem file'.1)
    · exact hlabels
    · rw [hstem file hmem, hstem file' hmem', heq] at hlt
      exact absurd hlt (lt_irrefl _)
    · have hreverse := hsorts _ _ hkept' hkept hback
      rw [← hstem file hmem, ← hstem file' hmem'] at hreverse
      exact absurd hlt (lt_asymm hreverse)

/-- The concatenation is that of the files when each of them is its first line. -/
theorem join_catted_eq_iff (inv : s.Inv)
    (hlines : ∀ file ∈ pubFiles s.store.files, ∃ line, file.2 = line ++ "\n" ∧ '\n' ∉ line.toList) :
    String.join ((pubFiles s.store.files).map catted) =
        String.join ((pubFiles s.store.files).map Prod.snd) ↔
      ∀ file ∈ pubFiles s.store.files, file.2 = published file ++ "\n" := by
  let line (file : String × String) : String := String.ofList (lineChars file.2.toList)
  have hline : ∀ file ∈ pubFiles s.store.files, file.2 = line file ++ "\n" := by
    intro file hmem
    obtain ⟨content, hcontent, hone⟩ := hlines file hmem
    have hchars : lineChars file.2.toList = content.toList := by
      rw [hcontent, String.toList_append]
      exact lineChars_append_newline hone
    rw [show line file = content by rw [← String.ofList_toList (s := content), ← hchars], hcontent]
  have hcatted : (pubFiles s.store.files).map catted =
      (pubFiles s.store.files).map fun file => published file ++ "\n" :=
    List.map_congr_left fun file hmem => catted_of_mem inv hmem
  have hfiles : (pubFiles s.store.files).map Prod.snd =
      (pubFiles s.store.files).map fun file => line file ++ "\n" := List.map_congr_left hline
  constructor
  · intro heq file hmem
    rw [hcatted, hfiles] at heq
    have hsame := join_lines_injective _ (fun file hmem => (isKeyLine_published inv hmem).1)
      (fun file _ => by
        rw [String.toList_ofList]
        exact not_mem_lineChars _) heq file hmem
    rw [hsame]
    exact hline file hmem
  · intro heach
    rw [hcatted, List.map_congr_left heach]

theorem publishes_iff_orderly (inv : s.Inv) : Publishes s ↔ Orderly s.kept := by
  have hcontents : (((pubFiles s.store.files).filterMap listed).map fun entry =>
      (s.store.files.lookup (fileName entry.label)).getD "") =
        (pubFiles s.store.files).map Prod.snd := by
    have hlabels := congrArg (List.map fun label =>
      (s.store.files.lookup (fileName label)).getD "") (labels_listed inv)
    rw [List.map_map, List.map_map] at hlabels
    refine hlabels.trans (List.map_congr_left fun file hmem => ?_)
    show (s.store.files.lookup (fileName (fileStem file.1))).getD "" = file.2
    rw [lookup_fileStem inv hmem]
    rfl
  have hplain : (∀ label keyLine, s.kept.lookup label = some keyLine → IsPlainLine keyLine) ↔
      ∀ file ∈ pubFiles s.store.files, file.2 = published file ++ "\n" := by
    constructor
    · intro hkeys file hmem
      obtain ⟨label, keyLine, hkept, -, rfl, hline, -⟩ := file_of_mem inv hmem
      rw [hline]
      exact hkeys label keyLine hkept
    · intro hfiles label keyLine hkept
      have hfile := hfiles _ (mem_pubFiles_of_kept inv hkept)
      rwa [published, trim_firstLine_ended] at hfile
  constructor
  · rintro ⟨hfiles, entries, hlist, hsorted, -, hcat⟩
    cases (listSsh_eq inv).symm.trans hlist
    rw [labels_listed inv] at hsorted
    rw [catSsh_eq inv, hcontents] at hcat
    refine ⟨hplain.mpr ((join_catted_eq_iff inv fun file hmem => ?_).mp (Except.ok.inj hcat)),
      (pairwise_labels_iff inv).mp hsorted⟩
    obtain ⟨line, hline, hkey⟩ := hfiles _ _ (mem_pubFiles.mp hmem).1
    exact ⟨line, hline, hkey.1⟩
  · rintro ⟨hkeys, hsorts⟩
    have heach := hplain.mp hkeys
    refine ⟨fun name content hlook => ?_, _, listSsh_eq inv, ?_, fun label => ?_, ?_⟩
    · have hmem := mem_pubFiles_of_lookup inv hlook
      exact ⟨published (name, content), heach _ hmem, isKeyLine_published inv hmem⟩
    · rw [labels_listed inv]
      exact (pairwise_labels_iff inv).mpr hsorts
    · rw [labels_listed inv]
      exact mem_labels_iff inv label
    · rw [catSsh_eq inv, hcontents]
      refine congrArg Except.ok ((join_catted_eq_iff inv fun file hmem => ?_).mpr heach)
      exact ⟨published file, heach file hmem, (isKeyLine_published inv hmem).1⟩

end

/-- **What the store publishes**: exactly the kept keys in the order of their labels,
    as long as these are single lines and sort as their files do. -/
theorem public_keys_published_iff {s : Published}
    (hreach : publisher.ReachableUnder (fun _ call => Settled call) s) :
    Publishes s ↔ Orderly s.kept :=
  publishes_iff_orderly (Published.inv_of_reachable hreach)

-- ════════════════════════════════════════════════════════════════════════
-- Labels and files
-- ════════════════════════════════════════════════════════════════════════

/-- The files of two labels sort the other way exactly when the greater label goes on
    from the smaller one with something that sorts before the extension. -/
theorem fileName_lt_iff {label label' : String} (h : label < label') :
    fileName label < fileName label' ↔
      ¬ ∃ rest, label' = label ++ rest ∧ fileName rest < ".pub" := by
  rw [String.lt_iff_toList_lt, fileName, fileName, String.toList_append, String.toList_append,
    append_lt_append_iff (String.lt_iff_toList_lt.mp h)]
  refine not_congr ⟨?_, ?_⟩
  · rintro ⟨rest, hrest, hlt⟩
    refine ⟨String.ofList rest, String.toList_injective (by simpa using hrest), ?_⟩
    rw [fileName, String.lt_iff_toList_lt, String.toList_append, String.toList_ofList]
    exact hlt
  · rintro ⟨rest, rfl, hlt⟩
    rw [fileName, String.lt_iff_toList_lt, String.toList_append] at hlt
    exact ⟨rest.toList, String.toList_append, hlt⟩

example : "a" < "a-b" ∧ fileName "a-b" < fileName "a" := by decide +kernel

-- ════════════════════════════════════════════════════════════════════════
-- Two keys
-- ════════════════════════════════════════════════════════════════════════

/-- A file system on which nothing fails. -/
def allSucceed : AddAnswers := ⟨.ok (), .ok (), .ok (), .ok (), .ok (), .ok (), .ok ()⟩

def emptyStore : Published := ⟨⟨true, false, none⟩, ∅⟩

instance (call : PublicCall) : Decidable (Settled call) :=
  match call with
  | .addSsh answers _ _ _ =>
    inferInstanceAs (Decidable (answers.syncDir = .ok () ∧ answers.chmodRoot = .ok ()))
  | .deleteSsh _ _ => .isTrue trivial

def rsaKey : String := "ssh-rsa AAAAB3Nz alice@acme"

/-- Keys that are single lines, under labels of which neither goes on from the other. -/
theorem public_keys_published_acme :
    ∃ s : Published, s.kept.keys = ["alpha", "beta"] ∧ Publishes s := by
  have hexec : (publisher.execUnder (fun _ call => Settled call) emptyStore
      [.addSsh allSucceed "beta" rsaKey false, .addSsh allSucceed "alpha" rsaKey false]).any
        (fun s : Published => s.kept.entries == [⟨"alpha", rsaKey⟩, ⟨"beta", rsaKey⟩]) = true := by
    decide +kernel
  obtain ⟨s, hrun, hentries⟩ := Machine.exists_run_of_execUnder _ hexec
  have hkept : s.kept.entries = [⟨"alpha", rsaKey⟩, ⟨"beta", rsaKey⟩] := eq_of_beq hentries
  have hlook (label keyLine : String) (h : s.kept.lookup label = some keyLine) :
      keyLine = rsaKey ∧ (label = "alpha" ∨ label = "beta") := by
    rw [FiniteMap.lookup_eq_some_iff, hkept] at h
    simpa [and_comm, ← or_and_right] using h
  refine ⟨s, by rw [AList.keys, hkept]; rfl,
    (public_keys_published_iff ⟨emptyStore, rfl, hrun⟩).mpr ⟨fun label keyLine h => ?_,
      fun label label' hsome hsome' hlt => ?_⟩⟩
  · rw [(hlook label keyLine h).1]
    show ended rsaKey = trim (firstLine rsaKey) ++ "\n"
    decide +kernel
  · obtain ⟨keyLine, h⟩ := Option.isSome_iff_exists.mp hsome
    obtain ⟨keyLine', h'⟩ := Option.isSome_iff_exists.mp hsome'
    obtain rfl | rfl := (hlook label keyLine h).2
    · obtain rfl | rfl := (hlook label' keyLine' h').2
      · exact absurd hlt (lt_irrefl _)
      · decide +kernel
    · obtain rfl | rfl := (hlook label' keyLine' h').2
      · exact absurd hlt (by decide +kernel)
      · exact absurd hlt (lt_irrefl _)

/-- A second line is stored with the first, and is no key. -/
theorem second_line_is_stored :
    ¬ ∀ s, publisher.ReachableUnder (fun _ call => Settled call) s → Publishes s := by
  intro h
  have hexec : (publisher.execUnder (fun _ call => Settled call) emptyStore
      [.addSsh allSucceed "alpha" "ssh-rsa AAAAB3Nz alice@acme\nrevoked\n" false]).any
        (fun s : Published => s.kept.lookup "alpha" ==
          some "ssh-rsa AAAAB3Nz alice@acme\nrevoked\n") = true := by decide +kernel
  obtain ⟨s, hrun, hkept⟩ := Machine.exists_run_of_execUnder _ hexec
  have hreach : publisher.ReachableUnder (fun _ call => Settled call) s :=
    ⟨emptyStore, rfl, hrun⟩
  have horderly := (publishes_iff_orderly (Published.inv_of_reachable hreach)).mp (h s hreach)
  have hplain : ended "ssh-rsa AAAAB3Nz alice@acme\nrevoked\n" =
      trim (firstLine "ssh-rsa AAAAB3Nz alice@acme\nrevoked\n") ++ "\n" :=
    horderly.plain "alpha" _ (eq_of_beq hkept)
  exact absurd hplain (by decide +kernel)

end Botwork.Vault
