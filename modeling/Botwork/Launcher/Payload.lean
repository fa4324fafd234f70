import Botwork.Foundations.Json
import Botwork.Foundations.Text
import Botwork.Foundations.Fallible

/-!
# Launch payloads

What the launcher accepts as the body of `POST /launch`.  The three lists of
names and values (`env`, `labels`, `secrets`) go through one parser with rules
of their own.

## Main definitions

- `LauncherError` — the errors of the launcher
- `validEnvName`, `validLabelName` — names that may reach docker
- `EntryRules`, `parseEntries` — the parser of a list of names and values
- `parseLaunchPayload` — the whole body
-/

namespace Botwork.Launcher

open Botwork.Foundations

inductive LauncherError where
  | badRequest (message : Text.Message)
  | payloadTooLarge (message : Text.Message)
  | conflict (message : Text.Message)
  | notFound (message : Text.Message)
  | internal (message : Text.Message)
  deriving DecidableEq

def LauncherError.statusCode : LauncherError → Nat
  | .badRequest _ => 400
  | .payloadTooLarge _ => 413
  | .conflict _ => 409
  | .notFound _ => 404
  | .internal _ => 500

def LauncherError.message : LauncherError → Text.Message
  | .badRequest message | .payloadTooLarge message | .conflict message | .notFound message
  | .internal message => message

-- ════════════════════════════════════════════════════════════════════════
-- Names
-- ════════════════════════════════════════════════════════════════════════

def startsWith (text start : String) : Bool := start.toList.isPrefixOf text.toList

def reservedEnvNames : List String := ["PATH", "LD_PRELOAD", "LD_LIBRARY_PATH"]

def isEnvStart (c : Char) : Bool := c.isUpper || c == '_'

def isEnvChar (c : Char) : Bool := isEnvStart c || c.isDigit

theorem isEnvChar_lt {c : Char} (h : isEnvChar c = true) : 0 < c.toNat ∧ c.toNat < 128 := by
  simp only [isEnvChar, isEnvStart, Text.isUpper_eq, Char.isDigit, Bool.or_eq_true, Bool.and_eq_true,
    decide_eq_true_eq, beq_iff_eq, ge_iff_le, UInt32.le_iff_toNat_le] at h
  show 0 < c.val.toNat ∧ c.val.toNat < 128
  rcases h with (h | rfl) | h
  · have hle : (65 : UInt32).toNat ≤ c.val.toNat ∧ c.val.toNat ≤ (90 : UInt32).toNat := h
    exact ⟨lt_of_lt_of_le (by decide) hle.1, lt_of_le_of_lt hle.2 (by decide)⟩
  · decide
  · have hle : (48 : UInt32).toNat ≤ c.val.toNat ∧ c.val.toNat ≤ (57 : UInt32).toNat := h
    exact ⟨lt_of_lt_of_le (by decide) hle.1, lt_of_le_of_lt hle.2 (by decide)⟩

/-- Case is no information in an environment name. -/
theorem toUpper_toLower {c : Char} (h : isEnvChar c = true) : c.toLower.toUpper = c := by
  have hall : ∀ n, n < 128 → isEnvChar (Char.ofNat n) = true →
      (Char.ofNat n).toLower.toUpper = Char.ofNat n := by
    decide +kernel
  have hc := hall c.toNat (isEnvChar_lt h).2
  rw [Char.ofNat_toNat] at hc
  exact hc h

theorem isEnvChar_toLower {c : Char} (h : isEnvChar c = true) :
    0 < c.toLower.toNat ∧ c.toLower.toNat < 128 := by
  have hall : ∀ n, n < 128 → 0 < n →
      0 < (Char.ofNat n).toLower.toNat ∧ (Char.ofNat n).toLower.toNat < 128 := by
    decide +kernel
  have hc := hall c.toNat (isEnvChar_lt h).2 (isEnvChar_lt h).1
  rwa [Char.ofNat_toNat] at hc

def validEnvName (name : String) : Bool :=
  match name.toList with
  | [] => false
  | first :: rest =>
    isEnvStart first && rest.all isEnvChar && !reservedEnvNames.contains name &&
      !startsWith name "DOCKER_"

theorem isEnvChar_of_validEnvName {name : String} (h : validEnvName name = true) :
    ∀ c ∈ name.toList, isEnvChar c = true := by
  intro c hc
  unfold validEnvName at h
  split at h
  next => cases h
  next first rest hname =>
    simp only [Bool.and_eq_true, List.all_eq_true] at h
    rw [hname] at hc
    rcases List.mem_cons.mp hc with rfl | hrest
    · rw [isEnvChar, h.1.1.1, Bool.true_or]
    · exact h.1.1.2 c hrest

def isSensitiveEnv (name : String) : Bool := startsWith name "BOTWORK_SECRET_"

def labelNamespacePrefix : String := "io.botworkz."

def maxLabelNameLen : Nat := 128

def validLabelName (name : String) : Bool :=
  if maxLabelNameLen < (Text.utf8 name).length then false
  else if startsWith name labelNamespacePrefix = false then false
  else
    match name.toList.drop labelNamespacePrefix.length with
    | [] => false
    | first :: rest =>
      first.isLower && rest.all fun c => c.isLower || c.isDigit || c == '_' || c == '-'

def isHexLower (c : Char) : Bool := c.isDigit || ('a' ≤ c && c ≤ 'f')

/-- Twelve lowercase hexadecimal digits. -/
def isToken (token : List Char) : Bool := token.length == 12 && token.all isHexLower

/-- `^mcp_session_[a-f0-9]{12}$`. -/
def validName (name : String) : Bool :=
  startsWith name "mcp_session_" && isToken (name.toList.drop 12)

/-- `^[a-z0-9_-]+$`. -/
def validNetwork (network : String) : Bool :=
  network != "" && network.toList.all fun c => c.isLower || c.isDigit || c == '_' || c == '-'

/-- `[a-z][a-z0-9-]{0,30}`. -/
def isTenantSegment (tenant : List Char) : Bool :=
  match tenant with
  | [] => false
  | first :: rest =>
    first.isLower && decide (rest.length ≤ 30) &&
      rest.all fun c => c.isLower || c.isDigit || c == '-'

def stagingBase : String := "/var/lib/botwork/tenants"

/-- `^/var/lib/botwork/tenants/<tenant>/staging/[a-f0-9]{12}$`. -/
def validStagingPath (path : String) : Bool :=
  startsWith path (stagingBase ++ "/") &&
    match (path.toList.drop (stagingBase.length + 1)).splitOn '/' with
    | [tenant, staging, token] =>
      isTenantSegment tenant && staging == "staging".toList && isToken token
    | _ => false

-- ════════════════════════════════════════════════════════════════════════
-- Lists of names and values
-- ════════════════════════════════════════════════════════════════════════

def maxEntries : Nat := 64
def maxValueBytes : Nat := 64 * 1024

/-- What distinguishes one list from another. -/
structure EntryRules where
  /-- what an entry is, as the errors name it -/
  what : String
  field : String
  validName : String → Bool
  /-- the error for a value that may not be passed on -/
  badValue : String → String → Option String

def parseEntry (rules : EntryRules) : Json → Except LauncherError (String × String)
  | .object members =>
    if (members.map Prod.fst).dedup.length ≠ 2 then
      .error (.badRequest ("invalid " ++ rules.what ++ " entry"))
    else
      match Json.member? members "name", Json.member? members "value" with
      | some (.string name), some (.string value) =>
        if rules.validName name = false then
          .error (.badRequest ("invalid " ++ rules.what ++ " name: " ++ name))
        else
          match rules.badValue name value with
          | some message => .error (.badRequest message)
          | none =>
            if maxValueBytes < (Text.utf8 value).length then
              .error (.payloadTooLarge (rules.what ++ " value too large"))
            else .ok (name, value)
      | _, _ => .error (.badRequest ("invalid " ++ rules.what ++ " entry"))
  | _ => .error (.badRequest ("invalid " ++ rules.what ++ " entry"))

/-- The loop over the entries; `seen` are the names so far. -/
def parseEntries (rules : EntryRules) (seen : List String) :
    List Json → Except LauncherError (List (String × String))
  | [] => .ok []
  | entry :: entries => do
    let pair ← parseEntry rules entry
    if pair.1 ∈ seen then
      .error (.badRequest ("duplicate " ++ rules.what ++ " name: " ++ pair.1))
    else
      let pairs ← parseEntries rules (pair.1 :: seen) entries
      return pair :: pairs

def parseEntryField (rules : EntryRules) :
    Option Json → Except LauncherError (List (String × String))
  | none | some .null => .ok []
  | some (.array entries) =>
    if maxEntries < entries.length then
      .error (.payloadTooLarge ("too many " ++ rules.what ++ " entries"))
    else parseEntries rules [] entries
  | some _ => .error (.badRequest ("invalid " ++ rules.field))

def envRules : EntryRules where
  what := "env"
  field := "env"
  validName := validEnvName
  badValue name value :=
    if '\x00' ∈ value.toList then some "invalid env value"
    else if isSensitiveEnv name ∧ '\n' ∈ value.toList then
      some "sensitive env value must not contain newline"
    else none

def labelRules : EntryRules where
  what := "label"
  field := "labels"
  validName := validLabelName
  badValue _ value :=
    if '\x00' ∈ value.toList ∨ '\n' ∈ value.toList ∨ '\r' ∈ value.toList then
      some "invalid label value"
    else none

def secretRules : EntryRules where
  what := "secret"
  field := "secrets"
  validName := validEnvName
  badValue _ value := if '\x00' ∈ value.toList then some "invalid secret value" else none

/-- An entry on the wire. -/
def entryJson (pair : String × String) : Json :=
  .object [("name", .string pair.1), ("value", .string pair.2)]

/-- What the parser guarantees of a list it lets through. -/
structure EntryRules.Admits (rules : EntryRules) (pairs : List (String × String)) : Prop where
  few : pairs.length ≤ maxEntries
  distinct : (pairs.map Prod.fst).Nodup
  named : ∀ pair ∈ pairs, rules.validName pair.1 = true
  short : ∀ pair ∈ pairs, (Text.utf8 pair.2).length ≤ maxValueBytes

/-- What the parser lets through. -/
structure EntryRules.Accepts (rules : EntryRules) (pairs : List (String × String)) : Prop
    extends rules.Admits pairs where
  clean : ∀ pair ∈ pairs, rules.badValue pair.1 pair.2 = none

/-- What the parser checks of one entry. -/
def EntryRules.AcceptsEntry (rules : EntryRules) (pair : String × String) : Prop :=
  rules.validName pair.1 = true ∧ rules.badValue pair.1 pair.2 = none ∧
    (Text.utf8 pair.2).length ≤ maxValueBytes

theorem parseEntry_entryJson {rules : EntryRules} {pair pair' : String × String} :
    parseEntry rules (entryJson pair) = .ok pair' ↔ pair' = pair ∧ rules.AcceptsEntry pair := by
  have hmembers : (([("name", Json.string pair.1), ("value", .string pair.2)] :
      List (String × Json)).map Prod.fst).dedup.length = 2 := by
    show (["name", "value"] : List String).dedup.length = 2
    decide
  have hname : Json.member? [("name", .string pair.1), ("value", .string pair.2)] "name" =
      some (.string pair.1) := by
    rfl
  have hvalue : Json.member? [("name", .string pair.1), ("value", .string pair.2)] "value" =
      some (.string pair.2) := by
    simp [Json.member?]
  simp only [parseEntry, entryJson, hmembers, hname, hvalue, ne_eq, not_true_eq_false,
    if_false, EntryRules.AcceptsEntry]
  by_cases hvalid : rules.validName pair.1 = true
  · rw [if_neg (by rw [hvalid]; exact Bool.noConfusion)]
    cases hclean : rules.badValue pair.1 pair.2 with
    | some message => simp
    | none =>
      by_cases hshort : maxValueBytes < (Text.utf8 pair.2).length
      · simp only [if_pos hshort, reduceCtorEq, false_iff]
        exact fun h => absurd h.2.2.2 (Nat.not_le.mpr hshort)
      · simp only [if_neg hshort, Except.ok.injEq, hvalid, Nat.le_of_not_lt hshort,
          and_true]
        exact eq_comm
  · simp [hvalid]

theorem parseEntries_entryJson {rules : EntryRules} {seen : List String}
    {pairs parsed : List (String × String)} :
    parseEntries rules seen (pairs.map entryJson) = .ok parsed ↔
      parsed = pairs ∧ (pairs.map Prod.fst).Nodup ∧ (∀ pair ∈ pairs, pair.1 ∉ seen) ∧
        ∀ pair ∈ pairs, rules.AcceptsEntry pair := by
  induction pairs generalizing seen parsed with
  | nil => simp [parseEntries, eq_comm]
  | cons pair pairs ih =>
    rw [List.map_cons, parseEntries, bind_eq_ok]
    constructor
    · rintro ⟨pair', hentry, h⟩
      obtain ⟨rfl, haccepts⟩ := parseEntry_entryJson.mp hentry
      by_cases hseen : pair'.1 ∈ seen
      · rw [if_pos hseen] at h
        cases h
      · rw [if_neg hseen] at h
        obtain ⟨rest, hrest, h⟩ := bind_eq_ok.mp h
        cases h
        obtain ⟨rfl, hnodup, hfresh, hall⟩ := ih.mp hrest
        refine ⟨rfl, ?_, ?_, ?_⟩
        · rw [List.map_cons, List.nodup_cons]
          refine ⟨?_, hnodup⟩
          intro hmem
          obtain ⟨other, hother, heq⟩ := List.mem_map.mp hmem
          exact hfresh other hother (by rw [heq]; exact List.mem_cons_self)
        · intro p hp
          rcases List.mem_cons.mp hp with rfl | hp
          · exact hseen
          · exact fun hmem => hfresh p hp (List.mem_cons_of_mem _ hmem)
        · intro p hp
          rcases List.mem_cons.mp hp with rfl | hp
          · exact haccepts
          · exact hall p hp
    · rintro ⟨rfl, hnodup, hfresh, hall⟩
      rw [List.map_cons, List.nodup_cons] at hnodup
      have hrest : parseEntries rules (pair.1 :: seen) (pairs.map entryJson) = .ok pairs := by
        apply ih.mpr
        refine ⟨rfl, hnodup.2, ?_, fun p hp => hall p (List.mem_cons_of_mem _ hp)⟩
        intro p hp hmem
        rcases List.mem_cons.mp hmem with heq | hmem
        · exact hnodup.1 (heq ▸ List.mem_map_of_mem hp)
        · exact hfresh p (List.mem_cons_of_mem _ hp) hmem
      refine ⟨pair, parseEntry_entryJson.mpr ⟨rfl, hall pair List.mem_cons_self⟩, ?_⟩
      rw [if_neg (hfresh pair List.mem_cons_self)]
      exact bind_eq_ok.mpr ⟨pairs, hrest, rfl⟩

/-- A list on the wire is parsed as it was written, or refused. -/
theorem parseEntryField_entryJson_iff {rules : EntryRules} {pairs parsed : List (String × String)} :
    parseEntryField rules (some (.array (pairs.map entryJson))) = .ok parsed ↔
      parsed = pairs ∧ rules.Accepts pairs := by
  rw [parseEntryField, List.length_map]
  by_cases hfew : maxEntries < pairs.length
  · simp only [if_pos hfew, reduceCtorEq, false_iff]
    exact fun h => absurd h.2.few (Nat.not_le.mpr hfew)
  · rw [if_neg hfew, parseEntries_entryJson]
    constructor
    · rintro ⟨heq, hnodup, -, hall⟩
      exact ⟨heq, ⟨Nat.le_of_not_lt hfew, hnodup, fun p hp => (hall p hp).1,
        fun p hp => (hall p hp).2.2⟩, fun p hp => (hall p hp).2.1⟩
    · rintro ⟨heq, h⟩
      exact ⟨heq, h.distinct, fun _ _ => List.not_mem_nil,
        fun p hp => ⟨h.named p hp, h.clean p hp, h.short p hp⟩⟩

theorem parseEntryField_entryJson {rules : EntryRules} {pairs parsed : List (String × String)}
    (h : parseEntryField rules (some (.array (pairs.map entryJson))) = .ok parsed) :
    parsed = pairs ∧ rules.Admits pairs := by
  obtain ⟨heq, haccepts⟩ := parseEntryField_entryJson_iff.mp h
  exact ⟨heq, haccepts.toAdmits⟩

theorem parseEntry_eq_ok {rules : EntryRules} {entry : Json} {pair : String × String}
    (h : parseEntry rules entry = .ok pair) : rules.AcceptsEntry pair := by
  unfold parseEntry at h
  split at h
  next members =>
    split at h
    next => cases h
    next =>
      split at h
      next name value hname hvalue =>
        split at h
        next => cases h
        next hvalid =>
          split at h
          next => cases h
          next hclean =>
            split at h
            next => cases h
            next hshort =>
              cases h
              exact ⟨by simpa using hvalid, hclean, Nat.le_of_not_lt hshort⟩
      next => cases h
  next => cases h

theorem parseEntries_eq_ok {rules : EntryRules} {seen : List String} {entries : List Json}
    {pairs : List (String × String)} (h : parseEntries rules seen entries = .ok pairs) :
    pairs.length = entries.length ∧ (pairs.map Prod.fst).Nodup ∧ (∀ pair ∈ pairs, pair.1 ∉ seen) ∧
      ∀ pair ∈ pairs, rules.AcceptsEntry pair := by
  induction entries generalizing seen pairs with
  | nil =>
    cases h
    exact ⟨rfl, List.nodup_nil, fun _ hp => absurd hp List.not_mem_nil,
      fun _ hp => absurd hp List.not_mem_nil⟩
  | cons entry entries ih =>
    rw [parseEntries] at h
    obtain ⟨pair, hentry, h⟩ := bind_eq_ok.mp h
    by_cases hseen : pair.1 ∈ seen
    · rw [if_pos hseen] at h
      cases h
    · rw [if_neg hseen] at h
      obtain ⟨rest, hrest, h⟩ := bind_eq_ok.mp h
      cases h
      obtain ⟨hlength, hnodup, hfresh, hall⟩ := ih hrest
      refine ⟨by rw [List.length_cons, List.length_cons, hlength], ?_, ?_, ?_⟩
      · rw [List.map_cons, List.nodup_cons]
        refine ⟨?_, hnodup⟩
        intro hmem
        obtain ⟨other, hother, heq⟩ := List.mem_map.mp hmem
        exact hfresh other hother (by rw [heq]; exact List.mem_cons_self)
      · intro p hp
        rcases List.mem_cons.mp hp with rfl | hp
        · exact hseen
        · exact fun hmem => hfresh p hp (List.mem_cons_of_mem _ hmem)
      · intro p hp
        rcases List.mem_cons.mp hp with rfl | hp
        · exact parseEntry_eq_ok hentry
        · exact hall p hp

/-- However a list was written, what the parser lets through meets its rules. -/
theorem parseEntryField_eq_ok {rules : EntryRules} {field : Option Json}
    {pairs : List (String × String)} (h : parseEntryField rules field = .ok pairs) :
    rules.Accepts pairs := by
  have hnone : rules.Accepts [] :=
    ⟨⟨Nat.zero_le _, List.nodup_nil, fun _ hp => absurd hp List.not_mem_nil,
      fun _ hp => absurd hp List.not_mem_nil⟩, fun _ hp => absurd hp List.not_mem_nil⟩
  unfold parseEntryField at h
  split at h
  next => cases h; exact hnone
  next => cases h; exact hnone
  next entries =>
    split at h
    next => cases h
    next hfew =>
      obtain ⟨hlength, hnodup, -, hall⟩ := parseEntries_eq_ok h
      exact ⟨⟨hlength.trans_le (Nat.le_of_not_lt hfew), hnodup, fun p hp => (hall p hp).1,
        fun p hp => (hall p hp).2.2⟩, fun p hp => (hall p hp).2.1⟩
  next => cases h

-- ════════════════════════════════════════════════════════════════════════
-- The body
-- ════════════════════════════════════════════════════════════════════════

structure LaunchRequest where
  name : String
  image : String
  network : String
  stagingPath : String
  withWorkspace : Bool
  pidsLimit : Option Nat
  cpuLimit : Option String
  memoryLimit : Option String
  env : List (String × String)
  labels : List (String × String)
  secrets : List (String × String)
  deriving DecidableEq

/-- A string member that passes a check. -/
def parseChecked (members : List (String × Json)) (key : String) (valid : String → Bool)
    (message : String) : Except LauncherError String :=
  match Json.member? members key with
  | some (.string value) => if valid value then .ok value else .error (.badRequest message)
  | _ => .error (.badRequest message)

def parseNetwork (defaultNetwork : String) : Option Json → Except LauncherError String
  | none | some .null => .ok defaultNetwork
  | some (.string network) =>
    if validNetwork network then .ok network else .error (.badRequest "invalid docker network")
  | some _ => .error (.badRequest "invalid docker network")

def parseWithWorkspace : Option Json → Except LauncherError Bool
  | none => .ok true
  | some (.bool flag) => .ok flag
  | some _ => .error (.badRequest "invalid with_workspace")

/-- A limit given as a nonempty text. -/
def parseLimit (message : String) : Option Json → Except LauncherError (Option String)
  | none => .ok none
  | some (.string limit) =>
    if limit = "" then .error (.badRequest message) else .ok (some limit)
  | some _ => .error (.badRequest message)

def parsePids : Option Json → Except LauncherError (Option Nat)
  | none => .ok none
  | some (.number (.int value)) =>
    if 1 ≤ value ∧ value < 2 ^ 32 then .ok (some value.toNat)
    else .error (.badRequest "invalid resources.pids")
  | some _ => .error (.badRequest "invalid resources.pids")

def parseResources :
    Option Json → Except LauncherError (Option String × Option String × Option Nat)
  | none | some .null => .ok (none, none, none)
  | some (.object resources) =>
    if resources.any fun r => r.1 ≠ "cpus" ∧ r.1 ≠ "memory" ∧ r.1 ≠ "pids" then
      .error (.badRequest "invalid resources")
    else do
      let cpuLimit ← parseLimit "invalid resources.cpus" (Json.member? resources "cpus")
      let memoryLimit ← parseLimit "invalid resources.memory" (Json.member? resources "memory")
      let pidsLimit ← parsePids (Json.member? resources "pids")
      return (cpuLimit, memoryLimit, pidsLimit)
  | some _ => .error (.badRequest "invalid resources")

/-- The body of `POST /launch`; the image pattern is the operator's. -/
def parseLaunchPayload (validImage : String → Bool) (defaultNetwork : String)
    (payload : List (String × Json)) : Except LauncherError LaunchRequest := do
  let name ← parseChecked payload "name" validName "invalid container name"
  let image ← parseChecked payload "image" validImage "image not allowed"
  let network ← parseNetwork defaultNetwork (Json.member? payload "network")
  let stagingPath ← parseChecked payload "staging_path" validStagingPath "invalid staging_path"
  let withWorkspace ← parseWithWorkspace (Json.member? payload "with_workspace")
  let (cpuLimit, memoryLimit, pidsLimit) ← parseResources (Json.member? payload "resources")
  let env ← parseEntryField envRules (Json.member? payload "env")
  let labels ← parseEntryField labelRules (Json.member? payload "labels")
  let secrets ← parseEntryField secretRules (Json.member? payload "secrets")
  return ⟨name, image, network, stagingPath, withWorkspace, pidsLimit, cpuLimit, memoryLimit, env,
    labels, secrets⟩

theorem parseChecked_eq_ok {members : List (String × Json)} {key value message : String}
    {valid : String → Bool} (h : parseChecked members key valid message = .ok value) :
    Json.member? members key = some (.string value) ∧ valid value = true := by
  unfold parseChecked at h
  split at h
  next hmember =>
    split at h
    next hvalid => cases h; exact ⟨hmember, hvalid⟩
    next => cases h
  next => cases h

theorem parseLaunchPayload_name {validImage : String → Bool} {defaultNetwork : String}
    {payload : List (String × Json)} {launch : LaunchRequest}
    (h : parseLaunchPayload validImage defaultNetwork payload = .ok launch) :
    Json.member? payload "name" = some (.string launch.name) := by
  rw [parseLaunchPayload] at h
  obtain ⟨name, hname, h⟩ := bind_eq_ok.mp h
  iterate 8 obtain ⟨_, -, h⟩ := bind_eq_ok.mp h
  cases h
  exact (parseChecked_eq_ok hname).1

/-- Only the list of secrets depends on the member `secrets`. -/
theorem parseLaunchPayload_congr {validImage : String → Bool} {defaultNetwork : String}
    {payload payload' : List (String × Json)} {launch : LaunchRequest}
    (hsame : ∀ key, key ≠ "secrets" → Json.member? payload' key = Json.member? payload key)
    (h : parseLaunchPayload validImage defaultNetwork payload = .ok launch) :
    parseLaunchPayload validImage defaultNetwork payload' =
      (parseEntryField secretRules (Json.member? payload' "secrets")).map fun secrets =>
        { launch with secrets := secrets } := by
  have hchecked (key : String) (valid : String → Bool) (message : String) (hkey : key ≠ "secrets") :
      parseChecked payload' key valid message = parseChecked payload key valid message := by
    rw [parseChecked, parseChecked, hsame key hkey]
  rw [parseLaunchPayload] at h
  obtain ⟨name, hname, h⟩ := bind_eq_ok.mp h
  obtain ⟨image, himage, h⟩ := bind_eq_ok.mp h
  obtain ⟨network, hnetwork, h⟩ := bind_eq_ok.mp h
  obtain ⟨staging, hstaging, h⟩ := bind_eq_ok.mp h
  obtain ⟨flag, hflag, h⟩ := bind_eq_ok.mp h
  obtain ⟨⟨cpu, memory, pids⟩, hresources, h⟩ := bind_eq_ok.mp h
  obtain ⟨env, henv, h⟩ := bind_eq_ok.mp h
  obtain ⟨labels, hlabels, h⟩ := bind_eq_ok.mp h
  obtain ⟨secrets, -, h⟩ := bind_eq_ok.mp h
  cases h
  rw [parseLaunchPayload]
  simp only [hchecked _ _ _ (show "name" ≠ "secrets" by decide),
    hchecked _ _ _ (show "image" ≠ "secrets" by decide),
    hchecked _ _ _ (show "staging_path" ≠ "secrets" by decide),
    hsame "network" (by decide), hsame "with_workspace" (by decide), hsame "resources" (by decide),
    hsame "env" (by decide), hsame "labels" (by decide),
    hname, himage, hnetwork, hstaging, hflag, hresources, henv, hlabels]
  cases parseEntryField secretRules (Json.member? payload' "secrets") <;> rfl

theorem parseLaunchPayload_env {validImage : String → Bool} {defaultNetwork : String}
    {payload : List (String × Json)} {launch : LaunchRequest}
    (h : parseLaunchPayload validImage defaultNetwork payload = .ok launch) :
    parseEntryField envRules (Json.member? payload "env") = .ok launch.env := by
  rw [parseLaunchPayload] at h
  iterate 6 obtain ⟨_, -, h⟩ := bind_eq_ok.mp h
  obtain ⟨env, henv, h⟩ := bind_eq_ok.mp h
  iterate 2 obtain ⟨_, -, h⟩ := bind_eq_ok.mp h
  cases h
  exact henv

theorem parseLaunchPayload_secrets {validImage : String → Bool} {defaultNetwork : String}
    {payload : List (String × Json)} {launch : LaunchRequest}
    (h : parseLaunchPayload validImage defaultNetwork payload = .ok launch) :
    parseEntryField secretRules (Json.member? payload "secrets") = .ok launch.secrets := by
  rw [parseLaunchPayload] at h
  iterate 8 obtain ⟨_, -, h⟩ := bind_eq_ok.mp h
  obtain ⟨secrets, hsecrets, h⟩ := bind_eq_ok.mp h
  cases h
  exact hsecrets

end Botwork.Launcher
