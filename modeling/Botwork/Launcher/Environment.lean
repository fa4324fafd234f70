import Botwork.Launcher.Acceptance

/-!
# The environment of a container

The names in the environment come from three sources: the caller, the egress
proxy and the secrets.  The caller's own names are distinct, the proxy steps
back before a name of the caller, and the pointers are made from distinct names;
but nothing compares a pointer with the names of the caller.

## Main definitions

- `varName`, `varValue` — the two sides of an entry
- `secretPointerName` — the variable that points to the file of a secret
- `Unambiguous` — every name has one meaning

## Main results

- `env_of_built` — the environment, entry by entry
- `unambiguous_iff` — it is unambiguous unless the caller uses the name of a pointer
-/

namespace Botwork.Launcher

open Botwork.Foundations

/-! ### Entries -/

/-- What stands before the first equals sign. -/
def varName (entry : String) : String := String.ofList (entry.toList.takeWhile (· ≠ '='))

/-- What stands after the first equals sign. -/
def varValue (entry : String) : String :=
  String.ofList ((entry.toList.dropWhile (· ≠ '=')).drop 1)

/-- An entry, written out. -/
def entryText (entry : String × String) : String := entry.1 ++ "=" ++ entry.2

def secretPointerName (name : String) : String :=
  "BOTWORK_SECRET_" ++ Text.toAsciiUppercase name ++ "_FILE"

/-- The path that a pointer holds. -/
def secretPath (name : String) : String := secretsTmpfsPath ++ "/" ++ secretFileName name

/-- The entry of a secret, as a name and a value. -/
def pointerEntry (secret : String × String) : String × String :=
  (secretPointerName secret.1, secretPath secret.1)

theorem toList_entryText (entry : String × String) :
    (entryText entry).toList = entry.1.toList ++ '=' :: entry.2.toList := by
  have heq : "=".toList = ['='] := rfl
  rw [entryText, String.toList_append, String.toList_append, heq, List.append_assoc,
    List.singleton_append]

theorem varName_entryText {entry : String × String} (h : '=' ∉ entry.1.toList) :
    varName (entryText entry) = entry.1 := by
  have hname : ∀ c ∈ entry.1.toList, decide (c ≠ '=') = true := by
    intro c hc
    rw [decide_eq_true_eq]
    exact fun heq => h (heq ▸ hc)
  apply String.toList_injective
  rw [varName, String.toList_ofList, toList_entryText, List.takeWhile_append_of_pos hname]
  simp

theorem varValue_entryText {entry : String × String} (h : '=' ∉ entry.1.toList) :
    varValue (entryText entry) = entry.2 := by
  have hname : ∀ c ∈ entry.1.toList, decide (c ≠ '=') = true := by
    intro c hc
    rw [decide_eq_true_eq]
    exact fun heq => h (heq ▸ hc)
  apply String.toList_injective
  rw [varValue, String.toList_ofList, toList_entryText, List.dropWhile_append_of_pos hname]
  simp

theorem equals_not_mem {name : String} (h : ∀ c ∈ name.toList, isEnvChar c = true) :
    '=' ∉ name.toList := by
  intro hmem
  exact absurd (h _ hmem) (by decide)

/-- An environment name has no lowercase letter. -/
theorem toAsciiUppercase_of_envChars {name : String}
    (h : ∀ c ∈ name.toList, isEnvChar c = true) : Text.toAsciiUppercase name = name := by
  have hall : ∀ n, n < 128 → isEnvChar (Char.ofNat n) = true →
      (Char.ofNat n).toUpper = Char.ofNat n := by
    decide +kernel
  apply String.toList_injective
  rw [Text.toAsciiUppercase, String.toList_map]
  conv_rhs => rw [← List.map_id name.toList]
  apply List.map_congr_left
  intro c hc
  have hupper := hall c.toNat (isEnvChar_lt (h c hc)).2
  rw [Char.ofNat_toNat] at hupper
  exact hupper (h c hc)

theorem secretPointerName_eq (name : String) :
    secretPointerName name = "BOTWORK_SECRET_" ++ Text.toAsciiUppercase name ++ "_FILE" := rfl

theorem secretPointerName_inj {a b : String} (ha : ∀ c ∈ a.toList, isEnvChar c = true)
    (hb : ∀ c ∈ b.toList, isEnvChar c = true) (h : secretPointerName a = secretPointerName b) :
    a = b := by
  have hlist := congrArg String.toList h
  simp only [secretPointerName_eq, toAsciiUppercase_of_envChars ha,
    toAsciiUppercase_of_envChars hb] at hlist
  simp only [String.toList_append] at hlist
  rw [List.append_left_inj, List.append_right_inj] at hlist
  exact String.toList_injective hlist

theorem equals_not_mem_secretPointerName {name : String}
    (h : ∀ c ∈ name.toList, isEnvChar c = true) : '=' ∉ (secretPointerName name).toList := by
  have hfirst : '=' ∉ "BOTWORK_SECRET_".toList := by decide
  have hlast : '=' ∉ "_FILE".toList := by decide
  rw [secretPointerName_eq, toAsciiUppercase_of_envChars h, String.toList_append,
    String.toList_append, List.mem_append, List.mem_append]
  rintro ((hmem | hmem) | hmem)
  · exact hfirst hmem
  · exact equals_not_mem h hmem
  · exact hlast hmem

/-! ### The egress proxy -/

def proxyNames : List String := ["HTTPS_PROXY", "HTTP_PROXY", "NO_PROXY"]

/-- The caller's entries stay, and what is added has a name of its own. -/
theorem injectProxyEnv_eq (env : List (String × String)) (proxyUrl : Option String) :
    ∃ added, injectProxyEnv env proxyUrl = env ++ added ∧ (added.map Prod.fst).Nodup ∧
      ∀ entry ∈ added, entry.1 ∈ proxyNames ∧ entry.1 ∉ env.map Prod.fst := by
  cases proxyUrl with
  | none => exact ⟨[], (List.append_nil env).symm, List.nodup_nil, by simp⟩
  | some proxyUrl =>
    refine ⟨_, rfl, ?_, ?_⟩
    · apply List.Nodup.sublist (List.filter_sublist.map Prod.fst)
      show proxyNames.Nodup
      decide
    · intro entry hentry
      obtain ⟨hmem, hfree⟩ := List.mem_filter.mp hentry
      refine ⟨?_, of_decide_eq_true hfree⟩
      exact List.mem_map_of_mem (f := Prod.fst) hmem

theorem nodup_injectProxyEnv {env : List (String × String)} (h : (env.map Prod.fst).Nodup)
    (proxyUrl : Option String) : ((injectProxyEnv env proxyUrl).map Prod.fst).Nodup := by
  obtain ⟨added, heq, hadded, hfree⟩ := injectProxyEnv_eq env proxyUrl
  rw [heq, List.map_append]
  apply List.Nodup.append h hadded
  intro name hname hnew
  obtain ⟨entry, hentry, rfl⟩ := List.mem_map.mp hnew
  exact (hfree entry hentry).2 hname

theorem validEnvName_injectProxyEnv {env : List (String × String)}
    (h : ∀ entry ∈ env, validEnvName entry.1 = true) (proxyUrl : Option String) :
    ∀ entry ∈ injectProxyEnv env proxyUrl, validEnvName entry.1 = true := by
  have hproxy : ∀ name ∈ proxyNames, validEnvName name = true := by decide
  obtain ⟨added, heq, -, hnamed⟩ := injectProxyEnv_eq env proxyUrl
  intro entry hentry
  rw [heq] at hentry
  rcases List.mem_append.mp hentry with hold | hnew
  · exact h entry hold
  · exact hproxy _ (hnamed entry hnew).1

/-- No pointer has the name of a proxy variable. -/
theorem secretPointerName_not_mem_proxyNames (name : String) :
    secretPointerName name ∉ proxyNames := by
  have hhead : (secretPointerName name).toList.head? = some 'B' := by
    rw [secretPointerName_eq, String.toList_append, String.toList_append]
    rfl
  have hproxy : ∀ p ∈ proxyNames, p.toList.head? ≠ some 'B' := by decide
  exact fun hmem => hproxy _ hmem hhead

/-! ### The environment -/

theorem mapM_envEntry {env : List (String × String)}
    (h : ∀ entry ∈ env, validEnvName entry.1 = true) :
    env.mapM envEntry = .ok (env.map entryText) := by
  apply mapM_eq_ok
  intro entry hentry
  rw [envEntry, if_pos (h entry hentry)]
  rfl

theorem mapM_secretPointer {secrets : List (String × String)}
    (h : ∀ secret ∈ secrets, validEnvName secret.1 = true) :
    secrets.mapM secretPointer = .ok (secrets.map fun secret => entryText (pointerEntry secret)) := by
  apply mapM_eq_ok
  intro secret hsecret
  rw [secretPointer_eq_ok (isEnvChar_of_validEnvName (h secret hsecret))]
  simp only [entryText, pointerEntry, secretPointerName_eq, secretPath, String.append_assoc]

/-- **The environment, entry by entry**: what the caller and the proxy gave, then
    a pointer for every secret. -/
theorem env_of_built {config : Config} {launch : LaunchRequest} {body : ContainerConfig}
    (henv : ∀ entry ∈ launch.env, validEnvName entry.1 = true)
    (hsecrets : ∀ secret ∈ launch.secrets, validEnvName secret.1 = true)
    (h : buildContainerConfig config launch = .ok body) :
    body.env = (launch.env ++ launch.secrets.map pointerEntry).map entryText := by
  rw [buildContainerConfig] at h
  obtain ⟨env, henv', h⟩ := bind_eq_ok.mp h
  obtain ⟨pointers, hpointers', h⟩ := bind_eq_ok.mp h
  obtain ⟨limits, -, h⟩ := bind_eq_ok.mp h
  cases (mapM_envEntry henv).symm.trans henv'
  cases (mapM_secretPointer hsecrets).symm.trans hpointers'
  cases h
  rw [List.map_append, List.map_map]
  rfl

/-- Only the limits can spoil the configuration of valid names. -/
theorem exists_built {config : Config} {launch : LaunchRequest} {limits : Nat × Nat}
    (henv : ∀ entry ∈ launch.env, validEnvName entry.1 = true)
    (hsecrets : ∀ secret ∈ launch.secrets, validEnvName secret.1 = true)
    (hlimits : parseLimits (launch.memoryLimit.getD config.containerMemoryLimit)
      (launch.cpuLimit.getD config.containerCpuLimit) = .ok limits) :
    ∃ body, buildContainerConfig config launch = .ok body := by
  rw [buildContainerConfig, mapM_envEntry henv, mapM_secretPointer hsecrets]
  simp only [hlimits]
  exact ⟨_, rfl⟩

/-! ### Unambiguous environments -/

/-- Every name has one meaning: the entries have distinct names, the caller's
    entries stand as given, the pointer of a secret holds the path of its file,
    and what is added does not depend on the values of the secrets. -/
structure Unambiguous (config : Config) (launch : LaunchRequest) (body : ContainerConfig) :
    Prop where
  distinct : (body.env.map varName).Nodup
  caller : ∀ entry ∈ launch.env, entryText entry ∈ body.env
  pointers : ∀ secret ∈ launch.secrets,
    (∃ text ∈ body.env, varName text = secretPointerName secret.1) ∧
      ∀ text ∈ body.env, varName text = secretPointerName secret.1 →
        varValue text = secretPath secret.1
  silent : ∀ secrets body', secrets.map Prod.fst = launch.secrets.map Prod.fst →
    buildContainerConfig config ({ launch with secrets := secrets }.proxied config) =
      .ok body' → body'.env = body.env

/-- The caller uses no name that a secret points from. -/
def KeepsPointersFree (launch : LaunchRequest) : Prop :=
  ∀ entry ∈ launch.env, ∀ secret ∈ launch.secrets, entry.1 ≠ secretPointerName secret.1

section Accepted

variable {config : Config} {launch : LaunchRequest} {body : ContainerConfig}

/-- The entries of an accepted launch, as names and values. -/
def LaunchRequest.entries (launch : LaunchRequest) (config : Config) : List (String × String) :=
  (launch.proxied config).env ++ launch.secrets.map pointerEntry

/-- What the parser guarantees of the two lists. -/
structure Named (launch : LaunchRequest) : Prop where
  env : ∀ entry ∈ launch.env, validEnvName entry.1 = true
  envDistinct : (launch.env.map Prod.fst).Nodup
  secrets : ∀ secret ∈ launch.secrets, validEnvName secret.1 = true
  secretsDistinct : (launch.secrets.map Prod.fst).Nodup

theorem named_of_parsed {validImage : String → Bool} {defaultNetwork : String}
    {payload : List (String × Json)}
    (h : parseLaunchPayload validImage defaultNetwork payload = .ok launch) : Named launch := by
  have henv := parseEntryField_eq_ok (parseLaunchPayload_env h)
  have hsecrets := parseEntryField_eq_ok (parseLaunchPayload_secrets h)
  exact ⟨henv.named, henv.distinct, hsecrets.named, hsecrets.distinct⟩

namespace Named

theorem env_eq (hnamed : Named launch)
    (h : buildContainerConfig config (launch.proxied config) = .ok body) :
    body.env = (launch.entries config).map entryText :=
  env_of_built (validEnvName_injectProxyEnv hnamed.env _) hnamed.secrets h

theorem equals_not_mem_entries (hnamed : Named launch) (config : Config) :
    ∀ entry ∈ launch.entries config, '=' ∉ entry.1.toList := by
  intro entry hentry
  rcases List.mem_append.mp hentry with henv | hpointer
  · exact equals_not_mem (isEnvChar_of_validEnvName
      (validEnvName_injectProxyEnv hnamed.env _ entry henv))
  · obtain ⟨secret, hsecret, rfl⟩ := List.mem_map.mp hpointer
    exact equals_not_mem_secretPointerName
      (isEnvChar_of_validEnvName (hnamed.secrets secret hsecret))

theorem exists_built (hnamed : Named launch) {limits : Nat × Nat}
    (hlimits : parseLimits (launch.memoryLimit.getD config.containerMemoryLimit)
      (launch.cpuLimit.getD config.containerCpuLimit) = .ok limits) :
    ∃ body, buildContainerConfig config (launch.proxied config) = .ok body :=
  have henv : ∀ entry ∈ (launch.proxied config).env, validEnvName entry.1 = true :=
    validEnvName_injectProxyEnv hnamed.env _
  Launcher.exists_built henv hnamed.secrets hlimits

theorem map_varName (hnamed : Named launch)
    (h : buildContainerConfig config (launch.proxied config) = .ok body) :
    body.env.map varName = (launch.entries config).map Prod.fst := by
  rw [hnamed.env_eq h, List.map_map]
  apply List.map_congr_left
  intro entry hentry
  exact varName_entryText (hnamed.equals_not_mem_entries config entry hentry)

theorem nodup_pointerNames (hnamed : Named launch) :
    ((launch.secrets.map pointerEntry).map Prod.fst).Nodup := by
  rw [List.map_map]
  have hnodup : (launch.secrets.map fun secret => secretPointerName secret.1).Nodup := by
    have hmap : (launch.secrets.map fun secret => secretPointerName secret.1) =
        (launch.secrets.map Prod.fst).map secretPointerName := by
      rw [List.map_map]
      rfl
    rw [hmap]
    apply List.Nodup.map_on _ hnamed.secretsDistinct
    intro a ha b hb heq
    obtain ⟨s, hs, rfl⟩ := List.mem_map.mp ha
    obtain ⟨t, ht, rfl⟩ := List.mem_map.mp hb
    exact secretPointerName_inj (isEnvChar_of_validEnvName (hnamed.secrets s hs))
      (isEnvChar_of_validEnvName (hnamed.secrets t ht)) heq
  exact hnodup

/-- The names are distinct exactly when the caller keeps off the pointers. -/
theorem nodup_entries_iff (hnamed : Named launch) (config : Config) :
    ((launch.entries config).map Prod.fst).Nodup ↔ KeepsPointersFree launch := by
  have henv := nodup_injectProxyEnv hnamed.envDistinct config.egressProxy
  obtain ⟨added, heq, -, hadded⟩ := injectProxyEnv_eq launch.env config.egressProxy
  rw [LaunchRequest.entries, List.map_append, List.nodup_append']
  constructor
  · rintro ⟨-, -, hdisjoint⟩ entry hentry secret hsecret hname
    have hleft : entry.1 ∈ (launch.proxied config).env.map Prod.fst := by
      apply List.mem_map_of_mem
      show entry ∈ injectProxyEnv launch.env config.egressProxy
      rw [heq]
      exact List.mem_append_left _ hentry
    have hright : entry.1 ∈ (launch.secrets.map pointerEntry).map Prod.fst := by
      rw [hname]
      exact List.mem_map_of_mem (f := Prod.fst) (List.mem_map_of_mem hsecret)
    exact hdisjoint hleft hright
  · intro hfree
    refine ⟨henv, hnamed.nodup_pointerNames, ?_⟩
    intro name hleft hright
    obtain ⟨entry, hentry, rfl⟩ := List.mem_map.mp hleft
    obtain ⟨pointer, hpointer, hname⟩ := List.mem_map.mp hright
    obtain ⟨secret, hsecret, rfl⟩ := List.mem_map.mp hpointer
    change entry ∈ injectProxyEnv launch.env config.egressProxy at hentry
    rw [heq] at hentry
    rcases List.mem_append.mp hentry with hcaller | hproxy
    · exact hfree entry hcaller secret hsecret hname.symm
    · apply secretPointerName_not_mem_proxyNames secret.1
      have hproxyName := (hadded entry hproxy).1
      rw [← hname] at hproxyName
      exact hproxyName

/-- With distinct names an entry is found by its name. -/
theorem pointer_meaning (hnamed : Named launch)
    (h : buildContainerConfig config (launch.proxied config) = .ok body)
    (hdistinct : ((launch.entries config).map Prod.fst).Nodup) {secret : String × String}
    (hsecret : secret ∈ launch.secrets) :
    (∃ text ∈ body.env, varName text = secretPointerName secret.1) ∧
      ∀ text ∈ body.env, varName text = secretPointerName secret.1 →
        varValue text = secretPath secret.1 := by
  have hown : pointerEntry secret ∈ launch.entries config :=
    List.mem_append_right _ (List.mem_map_of_mem hsecret)
  have hequals := hnamed.equals_not_mem_entries config
  rw [hnamed.env_eq h]
  refine ⟨⟨_, List.mem_map_of_mem hown, varName_entryText (hequals _ hown)⟩, ?_⟩
  intro text htext hname
  obtain ⟨entry, hentry, rfl⟩ := List.mem_map.mp htext
  rw [varName_entryText (hequals entry hentry)] at hname
  obtain rfl : entry = pointerEntry secret :=
    List.inj_on_of_nodup_map hdistinct hentry hown hname
  exact varValue_entryText (hequals _ hown)

theorem silent (hnamed : Named launch)
    (h : buildContainerConfig config (launch.proxied config) = .ok body)
    {secrets : List (String × String)} {body' : ContainerConfig}
    (hsame : secrets.map Prod.fst = launch.secrets.map Prod.fst)
    (h' : buildContainerConfig config ({ launch with secrets := secrets }.proxied config) =
      .ok body') : body'.env = body.env := by
  have hnamed' : Named { launch with secrets := secrets } := by
    refine { hnamed with secrets := ?_, secretsDistinct := hsame ▸ hnamed.secretsDistinct }
    intro secret hsecret
    have hname : secret.1 ∈ launch.secrets.map Prod.fst := by
      rw [← hsame]
      exact List.mem_map_of_mem hsecret
    obtain ⟨other, hother, heq⟩ := List.mem_map.mp hname
    rw [← heq]
    exact hnamed.secrets other hother
  have hpointers : ∀ l : List (String × String), l.map pointerEntry =
      (l.map Prod.fst).map fun name => (secretPointerName name, secretPath name) := by
    intro l
    rw [List.map_map]
    rfl
  rw [hnamed.env_eq h, hnamed'.env_eq h', LaunchRequest.entries, LaunchRequest.entries,
    hpointers, hpointers, hsame]
  rfl

theorem unambiguous_iff_free (hnamed : Named launch)
    (h : buildContainerConfig config (launch.proxied config) = .ok body) :
    Unambiguous config launch body ↔ KeepsPointersFree launch := by
  rw [← hnamed.nodup_entries_iff config]
  constructor
  · intro hclear
    rw [← hnamed.map_varName h]
    exact hclear.distinct
  · intro hdistinct
    refine ⟨?_, ?_, fun secret => hnamed.pointer_meaning h hdistinct,
      fun secrets body' => hnamed.silent h⟩
    · rw [hnamed.map_varName h]
      exact hdistinct
    · intro entry hentry
      rw [hnamed.env_eq h]
      apply List.mem_map_of_mem
      apply List.mem_append_left
      obtain ⟨added, heq, -⟩ := injectProxyEnv_eq launch.env config.egressProxy
      show entry ∈ injectProxyEnv launch.env config.egressProxy
      rw [heq]
      exact List.mem_append_left _ hentry

end Named

/-- **An unambiguous environment**: for an accepted payload the configuration has
    one exactly when the caller names no variable like the pointer of a secret. -/
theorem unambiguous_iff {payload : List (String × Json)}
    (hparsed : parseLaunchPayload config.validImage config.defaultNetwork payload = .ok launch)
    (hbuilt : buildContainerConfig config (launch.proxied config) = .ok body) :
    Unambiguous config launch body ↔ KeepsPointersFree launch :=
  (named_of_parsed hparsed).unambiguous_iff_free hbuilt

end Accepted

/-! ### Samples -/

namespace Sample

/-- A launch body with a caller's environment and secrets. -/
def members (env secrets : List (String × String)) : List (String × Json) :=
  [("name", .string "mcp_session_0123456789ab"), ("image", .string "echo:1"),
    ("staging_path", .string "/var/lib/botwork/tenants/acme/staging/0123456789ab"),
    ("env", .array (env.map entryJson)), ("secrets", .array (secrets.map entryJson))]

def launch (env secrets : List (String × String)) : LaunchRequest where
  name := "mcp_session_0123456789ab"
  image := "echo:1"
  network := "botwork"
  stagingPath := "/var/lib/botwork/tenants/acme/staging/0123456789ab"
  withWorkspace := true
  pidsLimit := none
  cpuLimit := none
  memoryLimit := none
  env := env
  labels := []
  secrets := secrets

/-- An operator with an egress proxy, who runs plugins as the given user. -/
def operator (uid gid : Nat) : Config where
  validImage _ := true
  defaultNetwork := "botwork"
  egressProxy := some "http://egress:3128"
  pluginUid := uid
  pluginGid := gid
  containerPidsLimit := 256
  containerCpuLimit := "1.0"
  containerMemoryLimit := "512m"
  containerReadOnlyRootfs := true

theorem parseLimits_operator (uid gid : Nat) (env secrets : List (String × String)) :
    parseLimits ((launch env secrets).memoryLimit.getD (operator uid gid).containerMemoryLimit)
      ((launch env secrets).cpuLimit.getD (operator uid gid).containerCpuLimit) =
        .ok (536870912, 1000000000) := by
  simp only [launch, operator, Option.getD_none]
  decide +kernel

end Sample

/-- The caller has set a proxy of its own, and the secret has its pointer. -/
theorem unambiguous_proxied :
    ∃ body, buildContainerConfig (Sample.operator 1000 1000)
        ((Sample.launch [("HTTP_PROXY", "")] [("GITHUB_COM_PAT", "s3cret")]).proxied
          (Sample.operator 1000 1000)) = .ok body ∧
      Unambiguous (Sample.operator 1000 1000)
        (Sample.launch [("HTTP_PROXY", "")] [("GITHUB_COM_PAT", "s3cret")]) body := by
  have hparsed : parseLaunchPayload (Sample.operator 1000 1000).validImage
      (Sample.operator 1000 1000).defaultNetwork
      (Sample.members [("HTTP_PROXY", "")] [("GITHUB_COM_PAT", "s3cret")]) =
        .ok (Sample.launch [("HTTP_PROXY", "")] [("GITHUB_COM_PAT", "s3cret")]) :=
    toOption_eq_some.mp (by decide +kernel)
  obtain ⟨body, hbuilt⟩ := (named_of_parsed hparsed).exists_built
    (Sample.parseLimits_operator 1000 1000 _ _)
  refine ⟨body, hbuilt, (unambiguous_iff hparsed hbuilt).mpr ?_⟩
  intro entry hentry secret hsecret
  obtain rfl := List.mem_singleton.mp hentry
  obtain rfl := List.mem_singleton.mp hsecret
  decide

/-- A caller may set the variable that points to a secret: both entries are in the
    environment. -/
theorem pointer_doubled :
    ¬ ∀ (config : Config) (payload : List (String × Json)) (launch : LaunchRequest)
      (body : ContainerConfig),
      parseLaunchPayload config.validImage config.defaultNetwork payload = .ok launch →
        buildContainerConfig config (launch.proxied config) = .ok body →
          Unambiguous config launch body := by
  intro hclaim
  have hparsed : parseLaunchPayload (Sample.operator 1000 1000).validImage
      (Sample.operator 1000 1000).defaultNetwork
      (Sample.members [("BOTWORK_SECRET_PAT_FILE", "/tmp/pat")] [("PAT", "s3cret")]) =
        .ok (Sample.launch [("BOTWORK_SECRET_PAT_FILE", "/tmp/pat")] [("PAT", "s3cret")]) :=
    toOption_eq_some.mp (by decide +kernel)
  obtain ⟨body, hbuilt⟩ := (named_of_parsed hparsed).exists_built
    (Sample.parseLimits_operator 1000 1000 _ _)
  have hclear := hclaim _ _ _ _ hparsed hbuilt
  have hfree := ((named_of_parsed hparsed).unambiguous_iff_free hbuilt).mp hclear
  exact hfree _ List.mem_cons_self _ List.mem_cons_self (by decide +kernel)

end Botwork.Launcher
