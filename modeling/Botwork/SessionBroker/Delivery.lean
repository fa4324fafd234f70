import Botwork.AuthBroker.Broker
import Botwork.Foundations.Base64
import Botwork.Launcher.Container
import Botwork.SessionBroker.Routing
import Botwork.Vault.EntryKeys

/-!
# Delivery of secrets

A secret on its way from a tenant's vault into a plugin's container: auth-broker
decrypts and sends it, session-broker renames it and turns it into text, and the
launcher writes it into an archive that docker extracts.  The base64 engine and
the docker daemon are parameters.

## Main definitions

- `Delivery` — what stands behind the spawns under one cap
- `Delivery.remote` — the services as session-broker meets them
- `Intact` — the files of a container are the granted secrets
- `Carried` — the granted secrets are such that the services carry them

## Main results

- `intact_iff_carried` — a launched container is intact when its secrets are carried
-/

namespace Botwork.SessionBroker

open Botwork.Foundations Botwork.ControlPlane Botwork.Vault
open Botwork.AuthBroker (FetchResponse FetchSecret)
open Botwork.Launcher (Files secretFileName)

-- ════════════════════════════════════════════════════════════════════════
-- From auth-broker
-- ════════════════════════════════════════════════════════════════════════

/-- A base64 engine. -/
structure Base64Engine where
  encode : List UInt8 → String
  decode : String → Option (List UInt8)

/-- The kind of a secret as text. -/
def kindText : SecretKind → String
  | .sshPrivateKey => "ssh-private-key"
  | .sshPublicKey => "ssh-public-key"
  | .apiKey => "api-key"
  | .oauthToken => "oauth-token"
  | .pem => "pem"
  | .password => "password"
  | .opaqueBytes => "opaque"

def fetchSecretJson (engine : Base64Engine) (secret : FetchSecret) : Json :=
  .object [("service", .string secret.service), ("name", .string secret.name),
    ("kind", .string (kindText secret.kind)), ("value_b64", .string (engine.encode secret.value))]

def fetchResponseJson (engine : Base64Engine) (response : FetchResponse) : Json :=
  .object [("tenant", .string response.tenant), ("plugin", .string response.plugin),
    ("secrets", .array (response.secrets.map (fetchSecretJson engine)))]

/-- A field of a record: it must stand there exactly once. -/
def field? (members : List (String × Json)) (key : String) : Option Json :=
  match members.filter fun member => member.1 = key with
  | [(_, value)] => some value
  | _ => none

def parseFetchSecret (engine : Base64Engine) : Json → Option FetchedSecret
  | .object members =>
    match field? members "service", field? members "name", field? members "kind",
        field? members "value_b64" with
    | some (.string service), some (.string name), some (.string kind), some (.string text) =>
      (engine.decode text).map fun value => ⟨service, name, kind, value⟩
    | _, _, _, _ => none
  | _ => none

def parseFetchResponse (engine : Base64Engine) : Json → Option (List FetchedSecret)
  | .object members =>
    match field? members "secrets" with
    | some (.array secrets) => secrets.mapM (parseFetchSecret engine)
    | _ => none
  | _ => none

/-- `fetch_secrets`, on the answer of auth-broker; `none` for every failure. -/
def fetchSecrets (engine : Base64Engine) : AuthBroker.Reply → Option (List FetchedSecret)
  | .secrets response => parseFetchResponse engine (fetchResponseJson engine response)
  | _ => none

/-- A secret as session-broker holds it. -/
def fetchedSecret (secret : FetchSecret) : FetchedSecret :=
  ⟨secret.service, secret.name, kindText secret.kind, secret.value⟩

/-- A faithful engine brings every secret across unchanged. -/
theorem fetchSecrets_secrets {engine : Base64Engine}
    (hengine : ∀ value, engine.decode (engine.encode value) = some value)
    (response : FetchResponse) :
    fetchSecrets engine (.secrets response) = some (response.secrets.map fetchedSecret) := by
  have hitem : ∀ secret, parseFetchSecret engine (fetchSecretJson engine secret) =
      some (fetchedSecret secret) := by
    intro secret
    simp [parseFetchSecret, fetchSecretJson, field?, hengine, fetchedSecret]
  have hitems : ∀ secrets : List FetchSecret,
      (secrets.map (fetchSecretJson engine)).mapM (parseFetchSecret engine) =
        some (secrets.map fetchedSecret) := by
    intro secrets
    induction secrets with
    | nil => rfl
    | cons secret secrets ih =>
      rw [List.map_cons, List.mapM_cons, hitem, ih]
      rfl
  simp only [fetchSecrets, parseFetchResponse, fetchResponseJson]
  rw [show field? [("tenant", .string response.tenant), ("plugin", .string response.plugin),
      ("secrets", .array (response.secrets.map (fetchSecretJson engine)))] "secrets" =
        some (.array (response.secrets.map (fetchSecretJson engine))) by simp [field?]]
  exact hitems response.secrets

-- ════════════════════════════════════════════════════════════════════════
-- To the launcher
-- ════════════════════════════════════════════════════════════════════════

/-- The member of a list that is left out when it is empty. -/
def entriesMember (key : String) (pairs : List (String × String)) : List (String × Json) :=
  if pairs = [] then [] else [(key, .array (pairs.map Launcher.entryJson))]

def resourceMembers (resources : PluginResources) : List (String × Json) :=
  (resources.cpus.map fun cpus => ("cpus", Json.string cpus)).toList ++
    (resources.memory.map fun memory => ("memory", Json.string memory)).toList ++
      (resources.pids.map fun pids => ("pids", Json.number (.int pids))).toList

/-- The body of `POST /launch`. -/
def launchPayload (request : LaunchRequest) : List (String × Json) :=
  [("name", .string request.name), ("image", .string request.image),
    ("staging_path", .string request.stagingPath)] ++
    entriesMember "env" request.env ++ entriesMember "secrets" request.secrets ++
    (if resourceMembers request.resources = [] then []
      else [("resources", .object (resourceMembers request.resources))]) ++
    entriesMember "labels" request.labels

theorem member?_launchPayload_secrets (request : LaunchRequest) :
    Json.member? (launchPayload request) "secrets" =
      if request.secrets = [] then none
      else some (.array (request.secrets.map Launcher.entryJson)) := by
  unfold launchPayload entriesMember Json.member?
  by_cases henv : request.env = [] <;> by_cases hsecrets : request.secrets = [] <;>
    by_cases hresources : resourceMembers request.resources = [] <;>
      by_cases hlabels : request.labels = [] <;>
        simp [henv, hsecrets, hresources, hlabels, List.lookup_cons]

/-- What stands behind the spawns under one cap: the vault and the master key of
    its tenant, the plugin it was minted for, the host's daemon and the remaining
    services. -/
structure Delivery where
  cap : String
  tenantName : String
  plugin : String
  root : Root
  master : Bytes
  engine : Base64Engine
  docker : Launcher.Docker
  config : Launcher.Config
  /-- the length of a launch body as it is sent -/
  bodyLength : List (String × Json) → Nat
  /-- the text of an error response of the launcher -/
  errorBody : Launcher.LauncherError → String
  services : Remote

namespace Delivery

/-- The answer of auth-broker to a fetch with the cap. -/
def fetchReply (d : Delivery) : AuthBroker.Reply :=
  match AuthBroker.Broker.openVault d.root d.master with
  | .error _ => .unauthorized .invalidBearer none
  | .ok contents =>
    .secrets ⟨d.tenantName, d.plugin, AuthBroker.Broker.fetchSecrets contents d.master d.plugin⟩

/-- The launcher's side of a launch. -/
def launch (d : Delivery) (request : LaunchRequest) :
    Except Launcher.LauncherError Launcher.Container :=
  Launcher.handleLaunch d.docker d.config (d.bodyLength (launchPayload request))
    (launchPayload request)

/-- `launch_session`. -/
def launchSession (d : Delivery) (request : LaunchRequest) : Except LauncherError Ipv4Addr :=
  match d.launch request with
  | .error err => .error (.launchHttp err.statusCode (Text.trim (d.errorBody err)))
  | .ok container =>
    match Ipv4Addr.parse container.containerIp with
    | some ip => .ok ip
    | none =>
      -- never taken: the launcher only answers with an address that it has parsed
      .error (.launchHttp 200 ("launcher response has non-IPv4 'container_ip': " ++
        container.containerIp.quote))

/-- The services as session-broker meets them. -/
def remote (d : Delivery) : Remote :=
  { d.services with
    fetchSecrets := fun cap =>
      fetchSecrets d.engine
        (if cap = d.cap then d.fetchReply else .unauthorized .invalidBearer none)
    launchSession := d.launchSession }

end Delivery

/-- The launch a spawn makes, when it comes to one. -/
def spawnLaunch (remote : Remote) (stream : PerStreamState) : Option LaunchRequest := do
  let captures ← parseTenantWorkspacePlugin stream.path
  let descriptor ← (remote.resolve stream.trustedTenant captures.workspace captures.plugin).toOption
  let cap ← stream.cap.filter (· ≠ "")
  let secrets ← remote.fetchSecrets cap
  let authorization ←
    (resolveSpawnUpstreamAuthorization descriptor.upstreamAuth secrets).toOption
  return launchRequest ⟨remote.token, stream.trustedTenant, captures.workspace, captures.plugin,
    descriptor, authorization⟩ (buildSecretPairs secrets)

/-- The container a spawn starts. -/
def Delivery.spawned (d : Delivery) (stream : PerStreamState) : Option Launcher.Container :=
  (spawnLaunch d.remote stream).bind fun request => (d.launch request).toOption

theorem Delivery.launchSession_eq_ok {d : Delivery} {request : LaunchRequest} {ip : Ipv4Addr}
    (h : d.launchSession request = .ok ip) : ∃ container, d.launch request = .ok container := by
  unfold Delivery.launchSession at h
  split at h
  next => cases h
  next container hlaunch => exact ⟨container, hlaunch⟩

theorem spawnNewContainer_launched {remote : Remote} {spawn : Spawn}
    {secrets : List (String × String)} {pending : PendingInit} {effects : List Effect}
    (h : spawnNewContainer remote spawn secrets = (.ok pending, effects)) :
    ∃ ip, remote.launchSession (launchRequest spawn secrets) = .ok ip := by
  unfold spawnNewContainer at h
  split at h
  next => cases h
  next ip hlaunch => exact ⟨ip, hlaunch⟩

/-- A routed spawn has started a container with the pairs of the fetched secrets. -/
theorem Delivery.spawned_of_routed {d : Delivery} {s : AppState} {stream : PerStreamState}
    {response : CommonResponse}
    (hok : (routeSpawn d.remote s stream).response = .requestHeaders response) :
    ∃ cap secrets spawn container, d.remote.fetchSecrets cap = some secrets ∧
      spawn.stagingToken = d.services.token ∧
      d.launch (launchRequest spawn (buildSecretPairs secrets)) = .ok container ∧
      d.spawned stream = some container := by
  revert hok
  fun_cases routeSpawn d.remote s stream <;> intro hok
  all_goals try cases hok
  rename_i captures hpath _ _ descriptor hresolve cap hcap secrets hsecrets authorization
    hauthorization spawn pending effects hspawn
  obtain ⟨ip, hip⟩ := spawnNewContainer_launched hspawn
  obtain ⟨container, hcontainer⟩ := d.launchSession_eq_ok hip
  refine ⟨cap, secrets, spawn, container, hsecrets, rfl, hcontainer, ?_⟩
  have hlaunch : spawnLaunch d.remote stream =
      some (launchRequest spawn (buildSecretPairs secrets)) := by
    simp only [spawnLaunch, hpath, hresolve, hcap, hsecrets, hauthorization, Except.toOption,
      Option.bind_eq_bind, Option.bind_some, pure]
    rfl
  rw [Delivery.spawned, hlaunch, Option.bind_some, hcontainer]
  rfl

-- ════════════════════════════════════════════════════════════════════════
-- Granted secrets
-- ════════════════════════════════════════════════════════════════════════

/-- The name of a secret on the launcher's wire, and the file it becomes. -/
def secretName (key : SecretKey) : String :=
  sanitizeSegment key.service ++ "_" ++ sanitizeSegment key.name

def secretFile (key : SecretKey) : List UInt8 := Text.utf8 (secretFileName (secretName key))

theorem isEnvChar_sanitizeByte (b : UInt8) : Launcher.isEnvChar (sanitizeByte b) = true := by
  have hall : ∀ n, n < 256 → Launcher.isEnvChar (sanitizeByte (UInt8.ofNat n)) = true := by
    decide +kernel
  have hb := hall b.toNat b.toNat_lt
  rwa [UInt8.ofNat_toNat] at hb

theorem isEnvChar_secretName {key : SecretKey} {c : Char} (hc : c ∈ (secretName key).toList) :
    Launcher.isEnvChar c = true := by
  have hsegment : ∀ input, ∀ c ∈ (sanitizeSegment input).toList, Launcher.isEnvChar c = true := by
    intro input c hc
    rw [sanitizeSegment, String.toList_ofList] at hc
    obtain ⟨b, -, rfl⟩ := List.mem_map.mp hc
    exact isEnvChar_sanitizeByte b
  rw [secretName, String.toList_append, String.toList_append, List.mem_append, List.mem_append] at hc
  rcases hc with (hc | hc) | hc
  · exact hsegment key.service c hc
  · have hunderscore : c = '_' := by simpa using hc
    rw [hunderscore]
    rfl
  · exact hsegment key.name c hc

theorem secretFile_injective {key key' : SecretKey} (h : secretFile key = secretFile key') :
    secretName key = secretName key' :=
  Launcher.secretFileName_injective (fun _ => isEnvChar_secretName) (fun _ => isEnvChar_secretName)
    (Text.utf8_injective h)

/-- The stored value of a secret the plugin may see. -/
def Granted (contents : VaultContents) (plugin : String) (key : SecretKey) (value : Bytes) : Prop :=
  ∃ envelope, contents.entries.lookup key = some envelope ∧
    plugin ∈ envelope.info.allowedConsumers ∧ envelope.value.payload = value

/-- The entries the plugin may see. -/
def grantedEntries (contents : VaultContents) (plugin : String) :
    List (Sigma fun _ : SecretKey => EntryEnvelope) :=
  contents.entries.entries.filter fun e => e.2.info.allowedConsumers.contains plugin

/-- The files are the granted secrets: every file is named for one of them and
    holds its value, and every one of them has its file. -/
structure Intact (contents : VaultContents) (plugin : String) (files : Files) : Prop where
  sound : ∀ path content, files.lookup path = some content →
    ∃ key, Granted contents plugin key content ∧ secretFile key = path ∧
      ∀ key' value, Granted contents plugin key' value → secretFile key' = path → key' = key
  complete : ∀ key value, Granted contents plugin key value →
    files.lookup (secretFile key) = some value

/-- What the services carry: a few short texts with distinct short names. -/
structure Carried (contents : VaultContents) (plugin : String) : Prop where
  few : (grantedEntries contents plugin).length ≤ maxSecretEntries
  short : ∀ key value, Granted contents plugin key value → value.length ≤ maxSecretValueBytes
  text : ∀ key value, Granted contents plugin key value → ∃ text, Text.utf8 text = value
  named : ∀ key value, Granted contents plugin key value →
    (secretFile key).length ≤ Launcher.maxTarNameBytes
  distinct : ∀ key value key' value', Granted contents plugin key value →
    Granted contents plugin key' value' → secretName key = secretName key' → key = key'

theorem granted_iff {contents : VaultContents} {plugin : String} {key : SecretKey} {value : Bytes} :
    Granted contents plugin key value ↔
      ∃ e ∈ grantedEntries contents plugin, e.1 = key ∧ e.2.value.payload = value := by
  constructor
  · rintro ⟨envelope, hlook, hplugin, hvalue⟩
    refine ⟨⟨key, envelope⟩, ?_, rfl, hvalue⟩
    rw [grantedEntries, List.mem_filter]
    exact ⟨(FiniteMap.lookup_eq_some_iff _ _ _).mp hlook, List.contains_iff_mem.mpr hplugin⟩
  · rintro ⟨⟨key', envelope⟩, hmem, rfl, hvalue⟩
    rw [grantedEntries, List.mem_filter] at hmem
    exact ⟨envelope, (FiniteMap.lookup_eq_some_iff _ _ _).mpr hmem.1,
      List.contains_iff_mem.mp hmem.2, hvalue⟩

/-- What session-broker fetches of an entry. -/
def entrySecret (e : Sigma fun _ : SecretKey => EntryEnvelope) : FetchedSecret :=
  ⟨e.1.service, e.1.name, kindText e.2.info.kind, e.2.value.payload⟩

/-- The entries of a vault all open, so a fetch returns every granted one. -/
theorem fetchSecrets_eq_map {contents : VaultContents} {master : Bytes} {plugin : String}
    (hsealed : contents.SealedUnder master) :
    (AuthBroker.Broker.fetchSecrets contents master plugin).map fetchedSecret =
      (grantedEntries contents plugin).map entrySecret := by
  have hopen : ∀ e ∈ contents.entries.entries, e.2.value.open master = .ok e.2.value.payload := by
    intro e he
    have hlook := (FiniteMap.lookup_eq_some_iff _ _ _).mpr he
    exact Sealed.open_eq_ok.mpr ⟨(hsealed e.1 e.2 hlook).2, rfl⟩
  rw [AuthBroker.Broker.fetchSecrets, grantedEntries]
  generalize contents.entries.entries = entries at hopen ⊢
  induction entries with
  | nil => rfl
  | cons e entries ih =>
    have ih := ih fun e he => hopen e (List.mem_cons_of_mem _ he)
    rw [List.filterMap_cons, List.filter_cons]
    by_cases hplugin : e.2.info.allowedConsumers.contains plugin = true
    · rw [if_pos hplugin, if_pos hplugin, hopen e List.mem_cons_self]
      show fetchedSecret _ :: _ = _ :: _
      rw [ih]
      rfl
    · rw [if_neg hplugin, if_neg hplugin]
      exact ih

-- ════════════════════════════════════════════════════════════════════════
-- Delivered files
-- ════════════════════════════════════════════════════════════════════════

/-- The files docker extracts for a list of pairs. -/
def deliveredFiles (pairs : List (String × String)) : Files :=
  Ustar.unpack (pairs.map fun pair =>
    ⟨(Text.utf8 (secretFileName pair.1)).take Launcher.maxTarNameBytes, Text.utf8 pair.2⟩)

section

variable {contents : VaultContents} {plugin : String}

theorem nodup_grantedEntries : ((grantedEntries contents plugin).map Sigma.fst).Nodup :=
  contents.entries.nodupKeys.sublist List.filter_sublist

/-- Distinct granted secrets with distinct images. -/
theorem nodup_map_grantedEntries {β : Type} {f : SecretKey → β}
    (hinj : ∀ key value key' value', Granted contents plugin key value →
      Granted contents plugin key' value' → f key = f key' → key = key') :
    ((grantedEntries contents plugin).map fun e => f e.1).Nodup := by
  apply List.Nodup.map_on
  · intro e he e' he' heq
    have hkey := hinj e.1 _ e'.1 _ (granted_iff.mpr ⟨e, he, rfl, rfl⟩)
      (granted_iff.mpr ⟨e', he', rfl, rfl⟩) heq
    exact List.inj_on_of_nodup_map nodup_grantedEntries he he' hkey
  · exact nodup_grantedEntries.of_map _

/-- What is carried becomes one pair for each entry. -/
theorem Carried.pairs (h : Carried contents plugin) :
    buildSecretPairs ((grantedEntries contents plugin).map entrySecret) =
      (grantedEntries contents plugin).map fun e =>
        (secretName e.1, Text.fromUtf8Lossy e.2.value.payload) := by
  rw [buildSecretPairs_eq_map, List.map_map]
  · rfl
  · rw [List.length_map]
    exact h.few
  · intro secret hsecret
    obtain ⟨e, he, rfl⟩ := List.mem_map.mp hsecret
    exact h.short e.1 _ (granted_iff.mpr ⟨e, he, rfl, rfl⟩)
  · rw [List.map_map]
    exact nodup_map_grantedEntries h.distinct

/-- The files of carried secrets. -/
theorem Carried.delivered (h : Carried contents plugin) :
    deliveredFiles (buildSecretPairs ((grantedEntries contents plugin).map entrySecret)) =
      Ustar.unpack ((grantedEntries contents plugin).map fun e =>
        ⟨secretFile e.1, e.2.value.payload⟩) := by
  rw [deliveredFiles, h.pairs, List.map_map]
  congr 1
  apply List.map_congr_left
  intro e he
  have hgranted : Granted contents plugin e.1 e.2.value.payload := granted_iff.mpr ⟨e, he, rfl, rfl⟩
  have hname : (Text.utf8 (secretFileName (secretName e.1))).take Launcher.maxTarNameBytes =
      secretFile e.1 := List.take_of_length_le (h.named e.1 _ hgranted)
  have hvalue := Text.utf8_fromUtf8Lossy.mpr (h.text e.1 _ hgranted)
  simp only [Function.comp_apply, hname, hvalue]

theorem Carried.intact (h : Carried contents plugin) :
    Intact contents plugin
      (deliveredFiles (buildSecretPairs ((grantedEntries contents plugin).map entrySecret))) where
  sound path content hlook := by
    rw [h.delivered] at hlook
    obtain ⟨e, he, heq⟩ := List.mem_map.mp (Ustar.mem_of_lookup_unpack hlook)
    cases heq
    have hgranted : Granted contents plugin e.1 e.2.value.payload :=
      granted_iff.mpr ⟨e, he, rfl, rfl⟩
    refine ⟨e.1, hgranted, rfl, ?_⟩
    intro key' value hgranted' hfile
    exact h.distinct key' value e.1 _ hgranted' hgranted (secretFile_injective hfile)
  complete key value hgranted := by
    obtain ⟨e, he, rfl, rfl⟩ := granted_iff.mp hgranted
    rw [h.delivered]
    have hnodup : (((grantedEntries contents plugin).map fun e =>
        (⟨secretFile e.1, e.2.value.payload⟩ : Ustar.File)).map Ustar.File.path).Nodup := by
      rw [List.map_map]
      refine nodup_map_grantedEntries (f := secretFile) ?_
      intro key value key' value' hgranted hgranted' hfile
      exact h.distinct key value key' value' hgranted hgranted' (secretFile_injective hfile)
    have hmem : (⟨secretFile e.1, e.2.value.payload⟩ : Ustar.File) ∈
        (grantedEntries contents plugin).map fun e => ⟨secretFile e.1, e.2.value.payload⟩ :=
      List.mem_map.mpr ⟨e, he, rfl⟩
    exact Ustar.lookup_unpack_of_nodup hnodup hmem

/-- Intact files betray that their secrets were carried. -/
theorem Intact.carried {pairs : List (String × String)}
    (h : Intact contents plugin (deliveredFiles pairs))
    (hadmits : Launcher.secretRules.Admits pairs) : Carried contents plugin := by
  have hpair : ∀ key value, Granted contents plugin key value → ∃ pair ∈ pairs,
      (Text.utf8 (secretFileName pair.1)).take Launcher.maxTarNameBytes = secretFile key ∧
        Text.utf8 pair.2 = value := by
    intro key value hgranted
    have hmem := Ustar.mem_of_lookup_unpack (h.complete key value hgranted)
    obtain ⟨pair, hpair, heq⟩ := List.mem_map.mp hmem
    exact ⟨pair, hpair, congrArg Ustar.File.path heq, congrArg Ustar.File.content heq⟩
  have hsame : ∀ key value key' value', Granted contents plugin key value →
      Granted contents plugin key' value' → secretFile key = secretFile key' → key = key' := by
    intro key value key' value' hgranted hgranted' hfile
    obtain ⟨owner, -, -, hunique⟩ := h.sound _ _ (h.complete key value hgranted)
    rw [hunique key value hgranted rfl, hunique key' value' hgranted' hfile.symm]
  refine ⟨?_, ?_, ?_, ?_, ?_⟩
  · -- distinct entries have distinct files, and every file is the file of a pair
    have hnodup := nodup_map_grantedEntries hsame
    have hsubset : ((grantedEntries contents plugin).map fun e => secretFile e.1) ⊆
        pairs.map fun pair => (Text.utf8 (secretFileName pair.1)).take Launcher.maxTarNameBytes := by
      intro path hpath
      obtain ⟨e, he, rfl⟩ := List.mem_map.mp hpath
      obtain ⟨pair, hmem, hfile, -⟩ := hpair e.1 _ (granted_iff.mpr ⟨e, he, rfl, rfl⟩)
      exact List.mem_map.mpr ⟨pair, hmem, hfile⟩
    have hlength := (List.subperm_of_subset hnodup hsubset).length_le
    rw [List.length_map, List.length_map] at hlength
    exact hlength.trans hadmits.few
  · intro key value hgranted
    obtain ⟨pair, hmem, -, rfl⟩ := hpair key value hgranted
    exact hadmits.short pair hmem
  · intro key value hgranted
    obtain ⟨pair, -, -, hvalue⟩ := hpair key value hgranted
    exact ⟨pair.2, hvalue⟩
  · intro key value hgranted
    obtain ⟨pair, -, hfile, -⟩ := hpair key value hgranted
    rw [← hfile, List.length_take]
    exact Nat.min_le_left _ _
  · intro key value key' value' hgranted hgranted' hname
    apply hsame key value key' value' hgranted hgranted'
    rw [secretFile, secretFile, hname]

/-- A container that received the pairs of the fetched secrets holds them intact
    exactly when the granted secrets are carried. -/
theorem intact_iff_carried
    (hadmits : Launcher.secretRules.Admits
      (buildSecretPairs ((grantedEntries contents plugin).map entrySecret))) :
    Intact contents plugin
        (deliveredFiles (buildSecretPairs ((grantedEntries contents plugin).map entrySecret))) ↔
      Carried contents plugin :=
  ⟨fun h => h.carried hadmits, fun h => h.intact⟩

end

-- ════════════════════════════════════════════════════════════════════════
-- Spawns
-- ════════════════════════════════════════════════════════════════════════

theorem member?_launchPayload_name (request : LaunchRequest) :
    Json.member? (launchPayload request) "name" = some (.string request.name) := by
  unfold launchPayload entriesMember Json.member?
  by_cases henv : request.env = [] <;> by_cases hsecrets : request.secrets = [] <;>
    by_cases hresources : resourceMembers request.resources = [] <;>
      by_cases hlabels : request.labels = [] <;>
        simp [henv, hsecrets, hresources, hlabels, List.lookup_cons]

/-- The launcher parses the secrets it was sent, or refuses the launch. -/
theorem parseLaunchPayload_launchPayload {validImage : String → Bool} {defaultNetwork : String}
    {request : LaunchRequest} {launch : Launcher.LaunchRequest}
    (h : Launcher.parseLaunchPayload validImage defaultNetwork (launchPayload request) = .ok launch) :
    launch.name = request.name ∧ launch.secrets = request.secrets ∧
      Launcher.secretRules.Admits request.secrets := by
  have hname := Launcher.parseLaunchPayload_name h
  rw [member?_launchPayload_name, Option.some.injEq, Json.string.injEq] at hname
  refine ⟨hname.symm, ?_⟩
  have hsecrets := Launcher.parseLaunchPayload_secrets h
  rw [member?_launchPayload_secrets] at hsecrets
  by_cases hempty : request.secrets = []
  · rw [if_pos hempty] at hsecrets
    have hnil : [] = launch.secrets := Except.ok.inj hsecrets
    rw [hempty, ← hnil]
    exact ⟨rfl, Nat.zero_le _, List.nodup_nil, nofun, nofun⟩
  · rw [if_neg hempty] at hsecrets
    exact Launcher.parseEntryField_entryJson hsecrets

/-- What a started container received. -/
theorem Delivery.launch_files {d : Delivery} (hextracts : d.docker.Extracts)
    {request : LaunchRequest} {container : Launcher.Container}
    (hnames : ∀ pair ∈ request.secrets, ∀ c ∈ pair.1.toList, Launcher.isEnvChar c = true)
    (h : d.launch request = .ok container) :
    Launcher.secretRules.Admits request.secrets ∧
      (d.docker.runningFiles request.name = some container.files ∨
        d.docker.runningFiles request.name = none ∧
          container.files = deliveredFiles request.secrets) := by
  obtain ⟨-, launch, hparse, hensure⟩ := Launcher.handleLaunch_eq_ok h
  obtain ⟨hname, hsecrets, hadmits⟩ := parseLaunchPayload_launchPayload hparse
  refine ⟨hadmits, ?_⟩
  rcases Launcher.ensureContainer_files hensure with hrunning | ⟨hfresh, hupload⟩
  · exact Or.inl (hname ▸ hrunning)
  · refine Or.inr ⟨hname ▸ hfresh, ?_⟩
    simp only [Launcher.uploadSecrets, hsecrets] at hupload
    by_cases hempty : request.secrets = []
    · rw [if_pos hempty] at hupload
      rw [hempty, ← Except.ok.inj hupload]
      rfl
    · rw [if_neg hempty] at hupload
      apply hextracts _ _ _ (Launcher.answered_eq_ok hupload)
      apply Launcher.read_buildSecretsTar
      · intro pair hpair
        exact lt_of_le_of_lt (hadmits.short pair hpair) (by decide)
      · intro pair hpair
        exact Launcher.nul_not_mem_secretFileName (hnames pair hpair)

/-- The container name of the next spawn. -/
def Delivery.containerName (d : Delivery) : String := "mcp_session_" ++ d.services.token

/-- A vault that opens with a key is sealed under it. -/
theorem sealedUnder_of_openVault {hkdf : Bytes → Bytes → UInt8 → Bytes} {root : Root}
    {master : Bytes} {contents : VaultContents} (hreach : (vault hkdf).Reachable root)
    (hopen : AuthBroker.Broker.openVault root master = .ok contents) :
    contents.SealedUnder master := by
  unfold AuthBroker.Broker.openVault at hopen
  split at hopen
  next => cases hopen
  next file hfile =>
    have hsealed := (sealed_under hreach).file file hfile
    rw [VaultFile.Sealed, VaultFile.openWithKey_eq_ok hopen] at hsealed
    exact hsealed

/-- What session-broker fetches with the cap. -/
theorem Delivery.fetched {hkdf : Bytes → Bytes → UInt8 → Bytes} {d : Delivery}
    {contents : VaultContents} {cap : String} {secrets : List FetchedSecret}
    (hreach : (vault hkdf).Reachable d.root)
    (hopen : AuthBroker.Broker.openVault d.root d.master = .ok contents)
    (hengine : ∀ value, d.engine.decode (d.engine.encode value) = some value)
    (hfetch : d.remote.fetchSecrets cap = some secrets) :
    secrets = (grantedEntries contents d.plugin).map entrySecret := by
  have hfetch' : fetchSecrets d.engine
      (if cap = d.cap then d.fetchReply else .unauthorized .invalidBearer none) = some secrets :=
    hfetch
  by_cases hcap : cap = d.cap
  · rw [if_pos hcap, Delivery.fetchReply, hopen] at hfetch'
    change fetchSecrets d.engine (.secrets _) = some secrets at hfetch'
    rw [fetchSecrets_secrets hengine, Option.some.injEq] at hfetch'
    rw [← hfetch', fetchSecrets_eq_map (sealedUnder_of_openVault hreach hopen)]
  · rw [if_neg hcap] at hfetch'
    cases hfetch'

-- ════════════════════════════════════════════════════════════════════════
-- Sample deliveries
-- ════════════════════════════════════════════════════════════════════════

namespace Sample

open AuthBroker.Sample (hkdf)

/-- A handle creates a vault and puts secrets for the echo plugin into it. -/
def storeRun (secrets : List (SecretKey × Bytes)) : List Vault.Action :=
  [.create 0 [7] 1 [9] 0, .call 0 .createWrite, .call 0 .createInit] ++
    secrets.flatMap fun (key, value) =>
      [.call 0 (.write (.put key ⟨.apiKey, value, 0, 0, none, [], ["echo"]⟩) 0 0), .call 0 .acquire,
        .call 0 .check, .call 0 .replace, .call 0 .bump]

def root (secrets : List (SecretKey × Bytes)) : Root :=
  ((vault hkdf).exec Root.init (storeRun secrets)).getD Root.init

theorem root_reachable (secrets : List (SecretKey × Bytes)) :
    (vault hkdf).Reachable (root secrets) := by
  refine ⟨Root.init, rfl, ?_⟩
  unfold root
  cases hexec : (vault hkdf).exec Root.init (storeRun secrets) with
  | none => exact Relation.ReflTransGen.refl
  | some w => exact Machine.run_of_exec hexec

/-- A daemon without containers that accepts every call. -/
def docker : Launcher.Docker where
  inspect _ := .ok .notFound
  removeContainerForce _ := .ok ()
  setupStagingDir _ := .ok ()
  createContainer _ _ := .ok ()
  putArchive archive :=
    match Ustar.read archive with
    | some files => .ok (Ustar.unpack files)
    | none => .error "invalid tar header"
  startContainer _ := .ok ()
  address _ := .ok "10.0.0.7"

theorem docker_extracts : docker.Extracts := by
  intro archive files entries hput hread
  simp only [docker, hread] at hput
  exact (Except.ok.inj hput).symm

def delivery (secrets : List (SecretKey × Bytes)) : Delivery where
  cap := "cap"
  tenantName := "acme"
  plugin := "echo"
  root := root secrets
  master := hkdf [7] [9] 1
  engine := ⟨Base64.encode, Base64.decode⟩
  docker := docker
  config := ⟨fun image => image = "echo:1", "botwork", none, 1000, 1000, 256, "1.0", "512m", true⟩
  bodyLength _ := 1024
  errorBody _ := "refused"
  services := remote

/-- A request that spawns the echo plugin with the cap. -/
def spawnStream : PerStreamState :=
  { stream with path := "/acme/main/echo", trustedTenant := "acme", cap := some "cap" }

def routed (d : Delivery) : Bool :=
  match (routeSpawn d.remote state spawnStream).response with
  | .requestHeaders _ => true
  | .immediateResponse _ _ => false

theorem exists_routed {d : Delivery} (h : routed d = true) :
    ∃ response, (routeSpawn d.remote state spawnStream).response = .requestHeaders response := by
  unfold routed at h
  split at h
  next response hresponse => exact ⟨response, hresponse⟩
  next => cases h

theorem ok_of_toOption {ε α : Type} {x : Except ε α} {a : α} (h : x.toOption = some a) :
    x = .ok a := by
  cases x with
  | error => cases h
  | ok b => cases h; rfl

/-- A token of plain text. -/
def textSecret : List (SecretKey × Bytes) := [(⟨"github.com", "pat"⟩, [0x61, 0x62])]

/-- A key that is no text. -/
def binarySecret : List (SecretKey × Bytes) := [(⟨"github.com", "pat"⟩, [0xFF])]

end Sample

/-- **Secrets arrive intact** in the container of a spawn that is routed, exactly
    when the granted secrets are carried; a container of the drawn name that was
    running already keeps the files it has. -/
theorem secrets_arrive_intact {hkdf : Bytes → Bytes → UInt8 → Bytes} {d : Delivery}
    {contents : VaultContents} {s : AppState} {stream : PerStreamState} {response : CommonResponse}
    (hreach : (vault hkdf).Reachable d.root)
    (hopen : AuthBroker.Broker.openVault d.root d.master = .ok contents)
    (hengine : ∀ value, d.engine.decode (d.engine.encode value) = some value)
    (hextracts : d.docker.Extracts)
    (hok : (routeSpawn d.remote s stream).response = .requestHeaders response) :
    ∃ container, d.spawned stream = some container ∧
      (Intact contents d.plugin container.files ↔
        match d.docker.runningFiles d.containerName with
        | some files => Intact contents d.plugin files
        | none => Carried contents d.plugin) := by
  obtain ⟨cap, secrets, spawn, container, hfetch, htoken, hlaunch, hspawned⟩ :=
    Delivery.spawned_of_routed hok
  refine ⟨container, hspawned, ?_⟩
  have hsecrets := Delivery.fetched hreach hopen hengine hfetch
  have hname : (launchRequest spawn (buildSecretPairs secrets)).name = d.containerName := by
    show "mcp_session_" ++ spawn.stagingToken = _
    rw [htoken]
    rfl
  have hnames : ∀ pair ∈ buildSecretPairs secrets, ∀ c ∈ pair.1.toList,
      Launcher.isEnvChar c = true := by
    intro pair hpair c hc
    obtain ⟨secret, -, rfl⟩ := mem_buildSecretPairs hpair
    exact @isEnvChar_secretName ⟨secret.service, secret.name⟩ c hc
  obtain ⟨hadmits, hfiles⟩ := Delivery.launch_files hextracts hnames hlaunch
  rw [hname] at hfiles
  rcases hfiles with hrunning | ⟨hfresh, hfiles⟩
  · rw [hrunning]
  · have hadmits' : Launcher.secretRules.Admits (buildSecretPairs secrets) := hadmits
    have hfiles' : container.files = deliveredFiles (buildSecretPairs secrets) := hfiles
    rw [hsecrets] at hadmits' hfiles'
    rw [hfresh, hfiles']
    exact intact_iff_carried hadmits'

theorem secrets_arrive_intact_text :
    ∃ contents container,
      AuthBroker.Broker.openVault (Sample.root Sample.textSecret)
        (AuthBroker.Sample.hkdf [7] [9] 1) = .ok contents ∧
      (Sample.delivery Sample.textSecret).spawned Sample.spawnStream = some container ∧
      (Intact contents "echo" container.files ↔ Carried contents "echo") := by
  have hopen : (AuthBroker.Broker.openVault (Sample.root Sample.textSecret)
      (AuthBroker.Sample.hkdf [7] [9] 1)).toOption.isSome = true := by decide +kernel
  have hrouted : Sample.routed (Sample.delivery Sample.textSecret) = true := by decide +kernel
  obtain ⟨contents, hcontents⟩ := Option.isSome_iff_exists.mp hopen
  obtain ⟨response, hresponse⟩ := Sample.exists_routed hrouted
  have hok := Sample.ok_of_toOption hcontents
  obtain ⟨container, hspawned, hiff⟩ :=
    secrets_arrive_intact (d := Sample.delivery Sample.textSecret)
      (Sample.root_reachable Sample.textSecret) hok Base64.decode_encode Sample.docker_extracts
      hresponse
  exact ⟨contents, container, hok, hspawned, hiff⟩

/-- A key that is no text arrives as another one. -/
theorem binary_secret_altered :
    ¬ ∀ (hkdf : Bytes → Bytes → UInt8 → Bytes) (d : Delivery) (contents : VaultContents)
        (s : AppState) (stream : PerStreamState) (response : CommonResponse)
        (container : Launcher.Container),
      (vault hkdf).Reachable d.root →
      AuthBroker.Broker.openVault d.root d.master = .ok contents →
      (∀ value, d.engine.decode (d.engine.encode value) = some value) →
      d.docker.Extracts →
      (routeSpawn d.remote s stream).response = .requestHeaders response →
      d.spawned stream = some container → Intact contents d.plugin container.files := by
  intro hclaim
  have hstored : (AuthBroker.Broker.openVault (Sample.root Sample.binarySecret)
      (AuthBroker.Sample.hkdf [7] [9] 1)).toOption.any (fun contents =>
        (contents.entries.lookup ⟨"github.com", "pat"⟩).any fun envelope =>
          decide ("echo" ∈ envelope.info.allowedConsumers ∧ envelope.value.payload = [0xFF])) =
      true := by decide +kernel
  have hrouted : Sample.routed (Sample.delivery Sample.binarySecret) = true := by decide +kernel
  have haltered : ((Sample.delivery Sample.binarySecret).spawned Sample.spawnStream).any
      (fun container => container.files.lookup (secretFile ⟨"github.com", "pat"⟩) ≠ some [0xFF]) =
      true := by decide +kernel
  obtain ⟨contents, hcontents, hlook⟩ := (Option.any_eq_true _ _).mp hstored
  obtain ⟨envelope, henvelope, hvalue⟩ := (Option.any_eq_true _ _).mp hlook
  obtain ⟨hconsumer, hpayload⟩ := of_decide_eq_true hvalue
  obtain ⟨response, hresponse⟩ := Sample.exists_routed hrouted
  obtain ⟨container, hspawned, hfile⟩ := (Option.any_eq_true _ _).mp haltered
  have hintact := hclaim AuthBroker.Sample.hkdf (Sample.delivery Sample.binarySecret) contents
    Sample.state Sample.spawnStream response container (Sample.root_reachable Sample.binarySecret)
    (Sample.ok_of_toOption hcontents) Base64.decode_encode Sample.docker_extracts hresponse
    hspawned
  exact of_decide_eq_true hfile (hintact.complete _ _ ⟨envelope, henvelope, hconsumer, hpayload⟩)

end Botwork.SessionBroker
