import Botwork.Launcher.Environment
import Botwork.SessionBroker.Delivery

/-!
# The wire of secrets

The pairs session-broker makes of fetched secrets against what the launcher
accepts.  Session-broker knows nothing of the names the launcher reserves, of NUL
or of the limit on the whole body, so the pairs of some stored secrets are refused
in a payload that is accepted without them.

## Main definitions

- `putSecrets` — a payload with its secrets replaced
- `keptSecrets` — the secrets that become pairs
- `SecretsFit` — what the launcher demands of them
-/

namespace Botwork.SessionBroker

open Botwork.Foundations Botwork.Vault
open Botwork.Launcher (LaunchAccepted isEnvChar isEnvStart startsWith)

-- ════════════════════════════════════════════════════════════════════════
-- Payloads with secrets
-- ════════════════════════════════════════════════════════════════════════

/-- A payload with its member `secrets` replaced; an empty list is left out. -/
def putSecrets (members : List (String × Json)) (pairs : List (String × String)) :
    List (String × Json) :=
  members.filter (fun m => m.1 ≠ "secrets") ++ entriesMember "secrets" pairs

theorem lookup_filter_ne {members : List (String × Json)} {key other : String} (h : key ≠ other) :
    (members.filter fun m => m.1 ≠ other).lookup key = members.lookup key := by
  induction members with
  | nil => rfl
  | cons m members ih =>
    obtain ⟨name, value⟩ := m
    by_cases hname : name = other
    · subst hname
      rw [List.filter_cons_of_neg (by simp), ih, List.lookup_cons, beq_eq_false_iff_ne.mpr h]
    · rw [List.filter_cons_of_pos (by simpa using hname), List.lookup_cons, List.lookup_cons, ih]

theorem member?_putSecrets {members : List (String × Json)} {pairs : List (String × String)}
    {key : String} (h : key ≠ "secrets") :
    Json.member? (putSecrets members pairs) key = Json.member? members key := by
  have hlast : (entriesMember "secrets" pairs).reverse.lookup key = none := by
    unfold entriesMember
    split
    next => rfl
    next => simp [List.lookup_cons, beq_eq_false_iff_ne.mpr h]
  have hrest : (members.reverse.filter fun m => m.1 ≠ "secrets").lookup key =
      members.reverse.lookup key := lookup_filter_ne h
  rw [Json.member?, Json.member?, putSecrets, List.reverse_append, List.lookup_append, hlast,
    ← List.filter_reverse, hrest, Option.none_or]

theorem member?_putSecrets_secrets {members : List (String × Json)}
    {pairs : List (String × String)} :
    Json.member? (putSecrets members pairs) "secrets" =
      if pairs = [] then none else some (.array (pairs.map Launcher.entryJson)) := by
  have hnone : (members.reverse.filter fun m => m.1 ≠ "secrets").lookup "secrets" = none := by
    rw [List.lookup_eq_none_iff]
    intro m hm
    rw [List.mem_filter, decide_eq_true_eq] at hm
    exact bne_iff_ne.mpr (Ne.symm hm.2)
  rw [Json.member?, putSecrets, List.reverse_append, List.lookup_append, ← List.filter_reverse,
    hnone, Option.or_none]
  unfold entriesMember
  split <;> simp

-- ════════════════════════════════════════════════════════════════════════
-- The secrets that become pairs
-- ════════════════════════════════════════════════════════════════════════

/-- The first secret of every name, names in `seen` left out. -/
def firstNamed (seen : List String) : List FetchedSecret → List FetchedSecret
  | [] => []
  | secret :: secrets =>
    if secret.rawName ∈ seen then firstNamed seen secrets
    else secret :: firstNamed (seen ++ [secret.rawName]) secrets

/-- Of the secrets whose value is short enough the first of every name, and of
    these the first 64. -/
def keptSecrets (secrets : List FetchedSecret) : List FetchedSecret :=
  (firstNamed [] (secrets.filter fun s => s.value.length ≤ maxSecretValueBytes)).take
    maxSecretEntries

theorem foldl_pushSecretPair_kept {secrets : List FetchedSecret} {out : List (String × String)} :
    secrets.foldl pushSecretPair out = out ++
      ((firstNamed (out.map Prod.fst)
        (secrets.filter fun s => s.value.length ≤ maxSecretValueBytes)).take
          (maxSecretEntries - out.length)).map FetchedSecret.pair := by
  induction secrets generalizing out with
  | nil => simp [firstNamed]
  | cons secret secrets ih =>
    rw [List.foldl_cons, ih]
    by_cases hfull : maxSecretEntries ≤ out.length
    · have hzero : maxSecretEntries - out.length = 0 := Nat.sub_eq_zero_of_le hfull
      have hpush : pushSecretPair out secret = out := by rw [pushSecretPair, if_pos hfull]
      simp only [hpush, hzero, List.take_zero, List.map_nil]
    by_cases hlong : maxSecretValueBytes < secret.value.length
    · have hpush : pushSecretPair out secret = out := by
        rw [pushSecretPair, if_neg hfull, if_pos hlong]
      rw [hpush, List.filter_cons_of_neg (by simpa using hlong)]
    by_cases hseen : secret.rawName ∈ out.map Prod.fst
    · have hpush : pushSecretPair out secret = out := by
        rw [pushSecretPair, if_neg hfull, if_neg hlong, if_pos hseen]
      rw [hpush, List.filter_cons_of_pos (by simpa using hlong), firstNamed, if_pos hseen]
    · have hpush : pushSecretPair out secret = out ++ [secret.pair] := by
        rw [pushSecretPair, if_neg hfull, if_neg hlong, if_neg hseen]
        rfl
      have hroom : maxSecretEntries - out.length =
          (maxSecretEntries - (out ++ [secret.pair]).length) + 1 := by
        rw [List.length_append, List.length_singleton]
        omega
      have hnames : (out ++ [secret.pair]).map Prod.fst = out.map Prod.fst ++ [secret.rawName] := by
        rw [List.map_append]
        rfl
      rw [hpush, List.filter_cons_of_pos (by simpa using hlong), firstNamed, if_neg hseen, hroom,
        List.take_succ_cons, List.map_cons, hnames, List.append_assoc]
      rfl

theorem buildSecretPairs_eq_kept (secrets : List FetchedSecret) :
    buildSecretPairs secrets = (keptSecrets secrets).map FetchedSecret.pair := by
  rw [buildSecretPairs, foldl_pushSecretPair_kept]
  rfl

theorem firstNamed_distinct (secrets : List FetchedSecret) (seen : List String) :
    ((firstNamed seen secrets).map FetchedSecret.rawName).Nodup ∧
      ∀ secret ∈ firstNamed seen secrets, secret.rawName ∉ seen := by
  induction secrets generalizing seen with
  | nil => simp [firstNamed]
  | cons secret secrets ih =>
    rw [firstNamed]
    split
    next => exact ih seen
    next hseen =>
      obtain ⟨hnodup, hfresh⟩ := ih (seen ++ [secret.rawName])
      constructor
      · rw [List.map_cons, List.nodup_cons]
        refine ⟨?_, hnodup⟩
        intro hmem
        obtain ⟨other, hother, heq⟩ := List.mem_map.mp hmem
        exact hfresh other hother (by simp [heq])
      · intro other hother hmem
        rcases List.mem_cons.mp hother with rfl | hother
        · exact hseen hmem
        · exact hfresh other hother (List.mem_append_left _ hmem)

theorem keptSecrets_distinct (secrets : List FetchedSecret) :
    ((keptSecrets secrets).map FetchedSecret.rawName).Nodup := by
  rw [keptSecrets, List.map_take]
  exact (firstNamed_distinct _ _).1.sublist (List.take_sublist _ _)

theorem length_keptSecrets_le (secrets : List FetchedSecret) :
    (keptSecrets secrets).length ≤ maxSecretEntries := by
  rw [keptSecrets, List.length_take]
  exact Nat.min_le_left _ _

-- ════════════════════════════════════════════════════════════════════════
-- Names
-- ════════════════════════════════════════════════════════════════════════

/-- The name of a secret is none the launcher reserves and begins with no digit. -/
structure NameFits (secret : FetchedSecret) : Prop where
  start : ∀ c, secret.service.toList.head? = some c → c.isDigit = false
  loader : secret.rawName ≠ "LD_PRELOAD" ∧ secret.rawName ≠ "LD_LIBRARY_PATH"
  docker : startsWith (sanitizeSegment secret.service ++ "_") "DOCKER_" = false

theorem isEnvChar_rawName (secret : FetchedSecret) {c : Char} (hc : c ∈ secret.rawName.toList) :
    isEnvChar c = true := @isEnvChar_secretName ⟨secret.service, secret.name⟩ c hc

/-- A byte of a character outside ASCII. -/
theorem le_of_mem_utf8EncodeChar {c : Char} {b : UInt8} (hc : ¬ c.toNat < 128)
    (hb : b ∈ String.utf8EncodeChar c) : 128 ≤ b.toNat := by
  have hval : ¬ c.val ≤ 0x7f := by
    intro hle
    exact hc (Nat.lt_succ_of_le (UInt32.le_iff_toNat_le.mp hle))
  have hor (x m : UInt8) (hm : 128 ≤ m.toNat) : 128 ≤ (x ||| m).toNat := by
    rw [UInt8.toNat_or]
    exact hm.trans Nat.right_le_or
  rw [String.utf8EncodeChar_eq_utf8EncodeCharFast, String.utf8EncodeCharFast, if_neg hval] at hb
  split_ifs at hb <;> simp only [List.mem_cons, List.not_mem_nil, or_false] at hb
  · rcases hb with rfl | rfl <;> exact hor _ _ (by decide)
  · rcases hb with rfl | rfl | rfl <;> exact hor _ _ (by decide)
  · rcases hb with rfl | rfl | rfl | rfl <;> exact hor _ _ (by decide)

theorem isEnvStart_sanitizeByte_of_le {b : UInt8} (h : 128 ≤ b.toNat) :
    isEnvStart (sanitizeByte b) = true := by
  have hall : ∀ n, n < 256 → 128 ≤ n → isEnvStart (sanitizeByte (UInt8.ofNat n)) = true := by
    decide +kernel
  have hb := hall b.toNat b.toNat_lt h
  rwa [UInt8.ofNat_toNat] at hb

/-- The first character of a sanitised text may start a name unless it was a
    digit. -/
theorem isEnvStart_sanitizeSegment {c : Char} {cs : List Char} :
    ∃ first rest, (sanitizeSegment (String.ofList (c :: cs))).toList = first :: rest ∧
      (isEnvStart first = true ↔ c.isDigit = false) := by
  have hlist : (sanitizeSegment (String.ofList (c :: cs))).toList =
      ((String.utf8EncodeChar c).map sanitizeByte) ++
        (cs.flatMap String.utf8EncodeChar).map sanitizeByte := by
    rw [sanitizeSegment, String.toList_ofList, Text.utf8, String.toList_ofList, List.flatMap_cons,
      List.map_append]
  rw [hlist]
  by_cases hascii : c.toNat < 128
  · have hall : ∀ n, n < 128 → (isEnvStart (sanitizeByte (UInt8.ofNat n)) = true ↔
        (Char.ofNat n).isDigit = false) := by
      decide +kernel
    have hc := hall c.toNat hascii
    rw [Char.ofNat_toNat] at hc
    rw [Text.utf8EncodeChar_of_lt hascii]
    exact ⟨_, _, rfl, hc⟩
  · have hdigit : c.isDigit = false := by
      rw [Char.isDigit, Bool.and_eq_false_iff, decide_eq_false_iff_not, decide_eq_false_iff_not]
      right
      intro hle
      have hnat : c.val.toNat ≤ 57 := UInt32.le_iff_toNat_le.mp hle
      exact hascii (lt_of_le_of_lt hnat (by decide))
    cases hbytes : String.utf8EncodeChar c with
    | nil => exact absurd hbytes String.utf8EncodeChar_ne_nil
    | cons b bs =>
      have hb : b ∈ String.utf8EncodeChar c := by rw [hbytes]; exact List.mem_cons_self
      have hstart := isEnvStart_sanitizeByte_of_le (le_of_mem_utf8EncodeChar hascii hb)
      refine ⟨_, _, rfl, ?_⟩
      simp only [hstart, hdigit]

theorem toList_rawName (secret : FetchedSecret) :
    secret.rawName.toList = (sanitizeSegment secret.service ++ "_").toList ++
      (sanitizeSegment secret.name).toList := by
  rw [FetchedSecret.rawName, String.toList_append]

/-- The first underscore of the prefix `DOCKER_` is its last character, so the
    service decides. -/
theorem startsWith_rawName (secret : FetchedSecret) :
    startsWith secret.rawName "DOCKER_" =
      startsWith (sanitizeSegment secret.service ++ "_") "DOCKER_" := by
  rw [Bool.eq_iff_iff, startsWith, startsWith, List.isPrefixOf_iff_prefix,
    List.isPrefixOf_iff_prefix, toList_rawName]
  generalize hservice : (sanitizeSegment secret.service ++ "_").toList = service
  constructor
  · intro h
    by_cases hlong : "DOCKER_".toList.length ≤ service.length
    · exact List.prefix_of_prefix_length_le h (List.prefix_append _ _) hlong
    · exfalso
      have hshort : service <+: "DOCKER_".toList :=
        List.prefix_of_prefix_length_le (List.prefix_append _ _) h (Nat.le_of_not_le hlong)
      have hsix : service <+: "DOCKER".toList := by
        refine List.prefix_of_prefix_length_le hshort ⟨['_'], rfl⟩ ?_
        have hseven : "DOCKER_".toList.length = 7 := rfl
        have hlength : "DOCKER".toList.length = 6 := rfl
        omega
      have hmem : '_' ∈ service := by
        rw [← hservice, String.toList_append]
        exact List.mem_append_right _ List.mem_cons_self
      exact absurd (hsix.mem hmem) (by decide)
  · exact fun h => h.trans (List.prefix_append _ _)

/-- The launcher accepts a secret's name when it fits. -/
theorem validEnvName_rawName (secret : FetchedSecret) :
    Launcher.validEnvName secret.rawName = true ↔ NameFits secret := by
  have hfirst : ∃ first rest, secret.rawName.toList = first :: rest ∧
      (isEnvStart first = true ↔
        ∀ c, secret.service.toList.head? = some c → c.isDigit = false) := by
    rw [toList_rawName, String.toList_append]
    cases hservice : secret.service.toList with
    | nil =>
      have hempty : secret.service = "" := String.toList_injective hservice
      refine ⟨'_', (sanitizeSegment secret.name).toList, ?_, ?_⟩
      · rw [hempty]
        rfl
      · simp [isEnvStart]
    | cons c cs =>
      obtain ⟨first, rest, hlist, hstart⟩ := @isEnvStart_sanitizeSegment c cs
      rw [← hservice, String.ofList_toList] at hlist
      refine ⟨first, rest ++ "_".toList ++ (sanitizeSegment secret.name).toList, ?_, ?_⟩
      · rw [hlist]
        rfl
      · rw [hstart]
        simp
  obtain ⟨first, rest, hlist, hstart⟩ := hfirst
  have hrest : rest.all isEnvChar = true := by
    rw [List.all_eq_true]
    intro c hc
    apply isEnvChar_rawName secret
    rw [hlist]
    exact List.mem_cons_of_mem _ hc
  have hpath : secret.rawName ≠ "PATH" := by
    intro heq
    have hmem : '_' ∈ secret.rawName.toList := by
      rw [FetchedSecret.rawName, String.toList_append, String.toList_append]
      exact List.mem_append_left _ (List.mem_append_right _ List.mem_cons_self)
    rw [heq] at hmem
    exact absurd hmem (by decide)
  have hfree : Launcher.reservedEnvNames.contains secret.rawName = false ↔
      secret.rawName ≠ "LD_PRELOAD" ∧ secret.rawName ≠ "LD_LIBRARY_PATH" := by
    simp [Launcher.reservedEnvNames, hpath]
  unfold Launcher.validEnvName
  rw [hlist]
  simp only [hrest, Bool.and_true, Bool.and_eq_true, Bool.not_eq_true', hstart, hfree,
    startsWith_rawName]
  constructor
  · rintro ⟨⟨hservice, hloader⟩, hdocker⟩
    exact ⟨hservice, hloader, hdocker⟩
  · intro h
    exact ⟨⟨h.start, h.loader⟩, h.docker⟩

-- ════════════════════════════════════════════════════════════════════════
-- What the launcher accepts
-- ════════════════════════════════════════════════════════════════════════

section

variable (double : UInt64 → List Char) (members : List (String × Json))

/-- The length of the body with the kept secrets. -/
def bodyLength (secrets : List FetchedSecret) : Nat :=
  (Json.bytes double (.object (putSecrets members
    ((keptSecrets secrets).map FetchedSecret.pair)))).length

/-- The kept secrets have names and values the launcher lets through, and the
    body with them is short enough. -/
structure SecretsFit (secrets : List FetchedSecret) : Prop where
  named : ∀ secret ∈ keptSecrets secrets, NameFits secret
  clean : ∀ secret ∈ keptSecrets secrets, (0 : UInt8) ∉ secret.value
  size : bodyLength double members secrets ≤ Launcher.maxJsonBodyBytes

end

section

variable {double : UInt64 → List Char} {members : List (String × Json)}
  {secrets : List FetchedSecret}

/-- A body that is short enough has no long value. -/
theorem length_text_le_bodyLength {secret : FetchedSecret} (h : secret ∈ keptSecrets secrets) :
    (Text.utf8 secret.pair.2).length ≤ bodyLength double members secrets := by
  have hpair : secret.pair ∈ (keptSecrets secrets).map FetchedSecret.pair :=
    List.mem_map_of_mem h
  have hne : (keptSecrets secrets).map FetchedSecret.pair ≠ [] := List.ne_nil_of_mem hpair
  have hmember : ("secrets", Json.array
      (((keptSecrets secrets).map FetchedSecret.pair).map Launcher.entryJson)) ∈
        putSecrets members ((keptSecrets secrets).map FetchedSecret.pair) := by
    apply List.mem_append_right
    rw [entriesMember, if_neg hne]
    exact List.mem_cons_self
  have hentry : (Json.bytes double (.string secret.pair.2)).length ≤
      (Json.bytes double (Launcher.entryJson secret.pair)).length := by
    rw [Launcher.entryJson]
    exact Json.length_bytes_member double (List.mem_cons_of_mem _ List.mem_cons_self)
  have hitem := Json.length_bytes_item double (List.mem_map_of_mem (f := Launcher.entryJson) hpair)
  have hobject := Json.length_bytes_member double hmember
  rw [bodyLength]
  exact (Json.length_utf8_le_bytes double _).trans (hentry.trans (hitem.trans hobject))

/-- The rules of the launcher's list against the kept secrets. -/
theorem accepts_kept_iff (hsize : bodyLength double members secrets ≤ Launcher.maxJsonBodyBytes) :
    Launcher.secretRules.Accepts ((keptSecrets secrets).map FetchedSecret.pair) ↔
      (∀ secret ∈ keptSecrets secrets, NameFits secret) ∧
        ∀ secret ∈ keptSecrets secrets, (0 : UInt8) ∉ secret.value := by
  have hclean (secret : FetchedSecret) :
      Launcher.secretRules.badValue secret.pair.1 secret.pair.2 = none ↔
        (0 : UInt8) ∉ secret.value := by
    have hnul : '\x00' ∈ secret.pair.2.toList ↔ 0 ∈ secret.value := Text.nul_mem_fromUtf8Lossy
    simp only [Launcher.secretRules, hnul, ite_eq_right_iff, reduceCtorEq, imp_false]
  have hrule : Launcher.secretRules.validName = Launcher.validEnvName := rfl
  constructor
  · intro h
    constructor
    · intro secret hsecret
      have hvalid := h.named secret.pair (List.mem_map_of_mem hsecret)
      rw [hrule] at hvalid
      exact (validEnvName_rawName secret).mp hvalid
    · intro secret hsecret
      exact (hclean secret).mp (h.clean secret.pair (List.mem_map_of_mem hsecret))
  · rintro ⟨hnamed, hvalues⟩
    refine ⟨⟨?_, ?_, ?_, ?_⟩, ?_⟩
    · rw [List.length_map]
      exact length_keptSecrets_le secrets
    · rw [List.map_map]
      exact keptSecrets_distinct secrets
    · intro pair hpair
      obtain ⟨secret, hsecret, rfl⟩ := List.mem_map.mp hpair
      rw [hrule]
      exact (validEnvName_rawName secret).mpr (hnamed secret hsecret)
    · intro pair hpair
      obtain ⟨secret, hsecret, rfl⟩ := List.mem_map.mp hpair
      exact (length_text_le_bodyLength hsecret).trans hsize
    · intro pair hpair
      obtain ⟨secret, hsecret, rfl⟩ := List.mem_map.mp hpair
      exact (hclean secret).mpr (hvalues secret hsecret)

/-- The launcher's list of secrets, on a payload session-broker has made. -/
theorem parseEntryField_putSecrets {pairs parsed : List (String × String)} :
    Launcher.parseEntryField Launcher.secretRules
        (Json.member? (putSecrets members pairs) "secrets") = .ok parsed ↔
      parsed = pairs ∧ Launcher.secretRules.Accepts pairs := by
  rw [member?_putSecrets_secrets]
  split
  next hnil =>
    subst hnil
    have haccepts : Launcher.secretRules.Accepts [] :=
      ⟨⟨Nat.zero_le _, List.nodup_nil, by simp, by simp⟩, by simp⟩
    simp only [Launcher.parseEntryField, Except.ok.injEq, haccepts, and_true]
    exact eq_comm
  next => exact Launcher.parseEntryField_entryJson_iff

end

/-- **The wire of secrets**: an otherwise accepted payload stays accepted with
    the pairs of fetched secrets exactly when the kept ones fit. -/
theorem secrets_wire_agrees {double : UInt64 → List Char} {config : Launcher.Config}
    {members : List (String × Json)}
    (hvalid : LaunchAccepted double config (putSecrets members []))
    (secrets : List FetchedSecret) :
    LaunchAccepted double config (putSecrets members (buildSecretPairs secrets)) ↔
      SecretsFit double members secrets := by
  obtain ⟨launch, body, haccepted⟩ := hvalid
  rw [buildSecretPairs_eq_kept]
  have hsame (key : String) (hkey : key ≠ "secrets") :
      Json.member? (putSecrets members ((keptSecrets secrets).map FetchedSecret.pair)) key =
        Json.member? (putSecrets members []) key := by
    rw [member?_putSecrets hkey, member?_putSecrets hkey]
  have hparse := Launcher.parseLaunchPayload_congr hsame haccepted.parsed
  constructor
  · rintro ⟨launch', body', h⟩
    have hsize : bodyLength double members secrets ≤ Launcher.maxJsonBodyBytes := h.size
    have hparsed := h.parsed
    rw [hparse] at hparsed
    cases hpairs : Launcher.parseEntryField Launcher.secretRules (Json.member?
        (putSecrets members ((keptSecrets secrets).map FetchedSecret.pair)) "secrets") with
    | error err => rw [hpairs] at hparsed; cases hparsed
    | ok pairs =>
      obtain ⟨-, haccepts⟩ := parseEntryField_putSecrets.mp hpairs
      obtain ⟨hnamed, hclean⟩ := (accepts_kept_iff hsize).mp haccepts
      exact ⟨hnamed, hclean, hsize⟩
  · intro h
    have haccepts := (accepts_kept_iff h.size).mpr ⟨h.named, h.clean⟩
    have hpairs := (@parseEntryField_putSecrets members _ _).mpr ⟨rfl, haccepts⟩
    have hnames : ∀ pair ∈ (keptSecrets secrets).map FetchedSecret.pair,
        ∀ c ∈ pair.1.toList, isEnvChar c = true := by
      intro pair hpair c hc
      obtain ⟨secret, -, rfl⟩ := List.mem_map.mp hpair
      exact isEnvChar_rawName secret hc
    obtain ⟨body', hbody⟩ := Launcher.buildContainerConfig_secrets haccepted.built hnames
    refine ⟨{ launch with secrets := (keptSecrets secrets).map FetchedSecret.pair }, body', h.size,
      ?_, hbody⟩
    rw [hparse, hpairs]
    rfl

namespace Sample

/-- The body of a launch of the echo plugin. -/
def launchMembers : List (String × Json) :=
  [("name", .string "mcp_session_0123456789ab"), ("image", .string "echo:1"),
    ("staging_path", .string "/var/lib/botwork/tenants/acme/staging/0123456789ab")]

def launchConfig : Launcher.Config :=
  ⟨fun image => image = "echo:1", "botwork", none, 1000, 1000, 256, "1.0", "512m", true⟩

def token (service : String) : FetchedSecret := ⟨service, "token", "api-key", [0x61, 0x62]⟩

/-- The doubles of a payload that has none. -/
def noDouble : UInt64 → List Char := fun _ => []

/-- What the launcher reads of this body. -/
def launched : Launcher.LaunchRequest :=
  ⟨"mcp_session_0123456789ab", "echo:1", "botwork",
    "/var/lib/botwork/tenants/acme/staging/0123456789ab", true, none, none, none, [], [], []⟩

theorem launchMembers_accepted :
    LaunchAccepted noDouble launchConfig (putSecrets launchMembers []) := by
  have hlimits : Launcher.parseLimits (launched.memoryLimit.getD launchConfig.containerMemoryLimit)
      (launched.cpuLimit.getD launchConfig.containerCpuLimit) = .ok (536870912, 1000000000) := by
    simp only [launched, launchConfig, Option.getD_none]
    decide +kernel
  have hnamed : Launcher.Named launched :=
    ⟨fun _ h => absurd h List.not_mem_nil, List.nodup_nil,
      fun _ h => absurd h List.not_mem_nil, List.nodup_nil⟩
  obtain ⟨body, hbuilt⟩ : ∃ body, Launcher.buildContainerConfig launchConfig
      (launched.proxied launchConfig) = .ok body := hnamed.exists_built hlimits
  refine ⟨launched, body, ?_, ?_, hbuilt⟩
  · decide +kernel
  · exact ok_of_toOption (by decide +kernel)

end Sample

theorem secrets_wire_agrees_text :
    SecretsFit Sample.noDouble Sample.launchMembers [Sample.token "github.com"] ∧
      LaunchAccepted Sample.noDouble Sample.launchConfig
        (putSecrets Sample.launchMembers (buildSecretPairs [Sample.token "github.com"])) := by
  have hfits : SecretsFit Sample.noDouble Sample.launchMembers [Sample.token "github.com"] := by
    have hkept : keptSecrets [Sample.token "github.com"] = [Sample.token "github.com"] := by
      decide +kernel
    refine ⟨?_, ?_, by decide +kernel⟩
    · intro secret hsecret
      rw [hkept, List.mem_singleton] at hsecret
      subst hsecret
      exact (validEnvName_rawName _).mp (by decide +kernel)
    · intro secret hsecret
      rw [hkept, List.mem_singleton] at hsecret
      subst hsecret
      decide
  exact ⟨hfits, (secrets_wire_agrees Sample.launchMembers_accepted _).mpr hfits⟩

/-- A secret of a service whose name begins with a digit is stored, and every
    launch with it is refused. -/
theorem digit_service_refused :
    ¬ ∀ (double : UInt64 → List Char) (config : Launcher.Config)
        (members : List (String × Json)) (secrets : List FetchedSecret),
      (∀ secret ∈ secrets, SecretKey.validate ⟨secret.service, secret.name⟩ = .ok () ∧
        secret.value.length ≤ maxSecretValueBytes) →
      LaunchAccepted double config (putSecrets members []) →
      LaunchAccepted double config (putSecrets members (buildSecretPairs secrets)) := by
  intro h
  have hstored : ∀ secret ∈ [Sample.token "1password"],
      SecretKey.validate ⟨secret.service, secret.name⟩ = .ok () ∧
        secret.value.length ≤ maxSecretValueBytes := by
    intro secret hsecret
    rw [List.mem_singleton] at hsecret
    subst hsecret
    exact ⟨Sample.ok_of_toOption (by decide +kernel), by decide⟩
  obtain ⟨launch, body, haccepted⟩ := h Sample.noDouble Sample.launchConfig
    Sample.launchMembers [Sample.token "1password"] hstored Sample.launchMembers_accepted
  have hrefused : (Launcher.parseLaunchPayload Sample.launchConfig.validImage
      Sample.launchConfig.defaultNetwork (putSecrets Sample.launchMembers
        (buildSecretPairs [Sample.token "1password"]))).toOption = none := by
    decide +kernel
  rw [haccepted.parsed] at hrefused
  cases hrefused

end Botwork.SessionBroker
