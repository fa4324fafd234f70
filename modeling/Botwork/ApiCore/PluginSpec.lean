import Botwork.Foundations.Yaml
import Botwork.Foundations.Fallible

/-!
# Plugin specs

The validation of one plugin entry and of one binding's config, shared by
bootstrap and the API.  What passes is what the database stores.

## Main definitions

- `RawPluginEntry`, `ValidatedPlugin` — an entry before and after
- `validateOne` — the validation of an entry
- `validateWorkspacePluginConfig` — the validation of a config
- `ValidationError` — why an entry is refused
-/

namespace Botwork.ApiCore

open Botwork.Foundations

inductive ValidationError where
  | emptyName (path : String)
  | pluginInvalid (plugin : String) (detail : Text.Message)
  | bindingInvalid (context : String) (detail : Text.Message)
  | duplicatePlugin (name : String)
  | duplicateTenant (name : String)
  | duplicateWorkspace (tenant workspace : String)
  | duplicateBinding (tenant workspace plugin : String)
  | unknownPluginRef (tenant workspace plugin : String)
  deriving DecidableEq, Repr

def ValidationError.text : ValidationError → Text.Message
  | .emptyName path => s!"empty {path}: must be a non-blank string"
  | .pluginInvalid plugin detail => s!"plugin '{plugin}': " ++ detail
  | .bindingInvalid context detail => s!"{context}: " ++ detail
  | .duplicatePlugin name => s!"duplicate plugin name in plugins[]: {name}"
  | .duplicateTenant name => s!"duplicate tenant name in tenants[]: {name}"
  | .duplicateWorkspace tenant workspace =>
    s!"duplicate workspace name in tenant '{tenant}': '{workspace}'"
  | .duplicateBinding tenant workspace plugin =>
    s!"duplicate plugin binding under tenant '{tenant}' workspace '{workspace}': '{plugin}'"
  | .unknownPluginRef tenant workspace plugin =>
    s!"tenant '{tenant}' workspace '{workspace}' references unknown plugin '{plugin}' — " ++
      "every workspace_plugin.name must appear in top-level plugins[]"

/-- A plugin entry as it is written. -/
structure RawPluginEntry where
  name : String
  image : Option String
  port : Option Nat
  path : Option String
  upstreamAuth : Option String
  env : Option Yaml
  resources : Option Yaml
  egress : Option Yaml
  network : Option Yaml

/-- A plugin as the database stores it. -/
structure ValidatedPlugin where
  name : String
  image : String
  port : Nat
  path : String
  upstreamAuth : String
  env : Json
  resources : Option Json
  egress : Json
  deriving DecidableEq

def reservedEnvNames : List String := ["PATH", "LD_PRELOAD", "LD_LIBRARY_PATH"]

def maxStaticEnvEntries : Nat := 32

def maxEnvValueBytes : Nat := 64 * 1024

def secretEnvPrefix : String := "BOTWORK_SECRET_"

def configEnvName : String := "BOTWORK_MCP_CONFIG"

def startsWith (text start : String) : Bool := start.toList.isPrefixOf text.toList

/-- Matching of `^[a-z][a-z0-9-]{0,30}$`. -/
def isPluginName (s : String) : Bool :=
  match s.toList with
  | [] => false
  | c :: rest =>
    c.isLower && decide (rest.length ≤ 30) &&
      rest.all fun c => c.isLower || c.isDigit || c == '-'

def pluginErr {α : Type} (plugin : String) (suffix : Text.Message) : Except ValidationError α :=
  .error (.pluginInvalid plugin suffix)

def bindingErr {α : Type} (context : String) (suffix : Text.Message) :
    Except ValidationError α :=
  .error (.bindingInvalid context suffix)

-- ════════════════════════════════════════════════════════════════════════
-- Scalars
-- ════════════════════════════════════════════════════════════════════════

def validateName (raw : String) : Except ValidationError String :=
  let name := Text.trim raw
  if name = "" then .error (.emptyName "plugins[].name")
  else if isPluginName name = false then
    pluginErr name "name must match ^[a-z][a-z0-9-]\x7b0,30\x7d$"
  else .ok name

def validateNetwork (plugin : String) : Option Yaml → Except ValidationError Unit
  | none => .ok ()
  | some _ =>
    pluginErr plugin ("has 'network' set, but the field was removed in 0.1.4: network membership " ++
      "is configured at the launcher level via BOTWORK_LAUNCHER_DEFAULT_NETWORK. Remove " ++
      "'network:' from the plugin entry.")

def validateImage (plugin : String) (raw : Option String) : Except ValidationError String :=
  match (raw.map Text.trim).filter (· ≠ "") with
  | some image => .ok image
  | none => pluginErr plugin "is missing required non-empty 'image'"

def validatePort (plugin : String) : Option Nat → Except ValidationError Nat
  | none => .ok 8000
  | some port =>
    if 1 ≤ port ∧ port ≤ 65535 then .ok port
    else pluginErr plugin "has invalid 'port': expected integer 1-65535"

def validatePath (plugin : String) : Option String → Except ValidationError String
  | none => .ok "/"
  | some raw =>
    let path := Text.trim raw
    if path = "" then pluginErr plugin "has invalid 'path': expected non-empty string"
    else if startsWith path "/" = false then
      pluginErr plugin "has invalid 'path': must start with '/'"
    else if path.toList.any Text.isWhitespace then
      pluginErr plugin "has invalid 'path': must not contain whitespace"
    else if '?' ∈ path.toList ∨ '#' ∈ path.toList then
      pluginErr plugin "has invalid 'path': must not contain '?' or '#'"
    else if path ≠ "/" ∧ path.toList.getLast? = some '/' then
      pluginErr plugin "has invalid 'path': must not end with '/' unless path is exactly '/'"
    else .ok path

def validateUpstreamAuth (plugin : String) : Option String → Except ValidationError String
  | none => .ok "none"
  | some raw =>
    if raw = "none" then .ok "none"
    else if raw = "bearer" ∨ raw = "bearer/" then
      pluginErr plugin
        "has invalid 'upstream_auth': bearer requires a service: use bearer/<service>"
    else if startsWith raw "bearer/" then
      let service := raw.toList.drop "bearer/".length
      if service = [] ∨ '/' ∈ service ∨ service.any Text.isWhitespace then
        pluginErr plugin "has invalid 'upstream_auth': expected 'none' or 'bearer/<service>'"
      else .ok ("bearer/" ++ String.ofList service)
    else pluginErr plugin "has invalid 'upstream_auth': expected 'none' or 'bearer/<service>'"

-- ════════════════════════════════════════════════════════════════════════
-- Environment
-- ════════════════════════════════════════════════════════════════════════

def validEnvName (name : String) : Bool :=
  match name.toList with
  | [] => false
  | first :: rest =>
    (first.isUpper || first == '_') &&
      rest.all (fun c => c.isUpper || c.isDigit || c == '_') &&
      !reservedEnvNames.contains name && !startsWith name "DOCKER_"

/-- One entry of `env`; names in `seen` stand before it. -/
def validateEnvEntry (double : UInt64 → List Char) (plugin : String) (seen : List String)
    (entry : Yaml × Yaml) : Except ValidationError (String × String) :=
  match entry.1.asStr with
  | none => pluginErr plugin "has invalid 'env' key: expected string"
  | some key =>
    match entry.2 with
    | .string value =>
      if startsWith key secretEnvPrefix then
        pluginErr plugin ("env key '" ++ key ++ "': names starting with '" ++ secretEnvPrefix ++
          "' are reserved for vault-derived secrets")
      else if key = configEnvName then
        pluginErr plugin ("env key '" ++ key ++
          "': reserved for structured config injection; use the 'config:' field instead")
      else if validEnvName key = false then
        pluginErr plugin ("env key '" ++ key ++
          "': invalid name (must match [A-Z_][A-Z0-9_]*, not reserved or DOCKER_-prefixed)")
      else if maxEnvValueBytes < (Text.utf8 value).length then
        pluginErr plugin ("env key '" ++ key ++ "': value exceeds maximum size of " ++
          toString maxEnvValueBytes ++ " bytes")
      else if key ∈ seen then pluginErr plugin ("env key '" ++ key ++ "': duplicate key")
      else .ok (key, value)
    | .bool _ | .number _ =>
      pluginErr plugin ("env key '" ++ key ++ "': value must be a string (quote it: \"" ++
        entry.2.debugScalar double ++ "\")")
    | _ => pluginErr plugin ("env key '" ++ key ++ "': value must be a string")

def validateEnvEntries (double : UInt64 → List Char) (plugin : String) (seen : List String) :
    List (Yaml × Yaml) → Except ValidationError (List (String × String))
  | [] => .ok []
  | entry :: entries => do
    let pair ← validateEnvEntry double plugin seen entry
    let pairs ← validateEnvEntries double plugin (pair.1 :: seen) entries
    return pair :: pairs

/-- The wire shape of an environment. -/
def envJson (pairs : List (String × String)) : Json :=
  .array (pairs.map fun pair =>
    .object [("name", .string pair.1), ("value", .string pair.2)])

def validateEnv (double : UInt64 → List Char) (plugin : String) :
    Option Yaml → Except ValidationError Json
  | none => .ok (envJson [])
  | some raw =>
    if raw.isNull then .ok (envJson [])
    else
      match raw.asMapping with
      | none => pluginErr plugin "has invalid 'env': expected a mapping"
      | some entries =>
        if maxStaticEnvEntries < entries.length then
          pluginErr plugin ("has too many 'env' entries: maximum is " ++
            toString maxStaticEnvEntries)
        else (validateEnvEntries double plugin [] entries).map envJson

-- ════════════════════════════════════════════════════════════════════════
-- Resources
-- ════════════════════════════════════════════════════════════════════════

def validateResource (plugin : String) (entry : Yaml × Yaml) :
    Except ValidationError (String × Json) :=
  match entry.1.asStr with
  | none => pluginErr plugin "has invalid 'resources' key: expected string"
  | some key =>
    if key = "cpus" ∨ key = "memory" then
      match entry.2.asStr.filter (· ≠ "") with
      | some value => .ok (key, .string value)
      | none =>
        pluginErr plugin ("has invalid 'resources." ++ key ++ "': expected non-empty string")
    else if key = "pids" then
      match entry.2.asU64 with
      | some value =>
        if value = 0 ∨ 2 ^ 32 ≤ value then
          pluginErr plugin "has invalid 'resources.pids': expected integer 1-4294967295"
        else .ok (key, .number (.int value))
      | none => pluginErr plugin "has invalid 'resources.pids': expected integer 1-4294967295"
    else pluginErr plugin ("has invalid 'resources' key: " ++ key)

/-- The entries of `resources`, on top of those in `out`. -/
def validateResourceEntries (plugin : String) (out : List (String × Json)) :
    List (Yaml × Yaml) → Except ValidationError (List (String × Json))
  | [] => .ok out
  | entry :: entries => do
    let (key, value) ← validateResource plugin entry
    validateResourceEntries plugin (Yaml.insertMember key value out) entries

def validateResources (plugin : String) : Option Yaml → Except ValidationError (Option Json)
  | none => .ok none
  | some raw =>
    if raw.isNull then .ok none
    else
      match raw.asMapping with
      | none => pluginErr plugin "has invalid 'resources': expected a mapping"
      | some entries =>
        (validateResourceEntries plugin [] entries).map fun out =>
          if out = [] then none else some (.object out)

-- ════════════════════════════════════════════════════════════════════════
-- Egress
-- ════════════════════════════════════════════════════════════════════════

/-- A key of a mapping that is none of the known ones. -/
def unknownKey? (known : List String) (entries : List (Yaml × Yaml)) : Option String :=
  (entries.map fun entry => entry.1.asStr.getD "(non-string)").find? (· ∉ known)

def validateAllowHost (plugin field : String) (value : Yaml) : Except ValidationError Unit :=
  match value.asStr with
  | none =>
    pluginErr plugin ("has invalid '" ++ field ++ ".host': expected non-empty string (got " ++
      value.typeName ++ ")")
  | some host =>
    if Text.trim host = "" then
      pluginErr plugin ("has invalid '" ++ field ++ ".host': must not be empty")
    else if host.toList.any Text.isWhitespace then
      pluginErr plugin ("has invalid '" ++ field ++ ".host': must not contain whitespace (got " ++
        Text.debug host ++ ")")
    else if '/' ∈ host.toList then
      pluginErr plugin ("has invalid '" ++ field ++
        ".host': must be a bare hostname (no scheme or path; got " ++ Text.debug host ++ ")")
    else if '*' ∈ host.toList then
      pluginErr plugin ("has invalid '" ++ field ++ ".host': wildcards are not supported in v0; " ++
        "list each hostname explicitly (got " ++ Text.debug host ++ ")")
    else .ok ()

def validateAllowPort (plugin field : String) (value : Yaml) : Except ValidationError Unit :=
  match value.asU64 with
  | none =>
    pluginErr plugin ("has invalid '" ++ field ++ ".ports': each port must be an integer 1-65535")
  | some port =>
    if port = 0 ∨ 65535 < port then
      pluginErr plugin ("has invalid '" ++ field ++
        ".ports': each port must be an integer 1-65535 (got " ++ toString port ++ ")")
    else .ok ()

def validateAllowPorts (plugin field : String) (value : Yaml) : Except ValidationError Unit :=
  match value.asSequence with
  | none =>
    pluginErr plugin ("has invalid '" ++ field ++ ".ports': expected a sequence of integers (got " ++
      value.typeName ++ ")")
  | some [] =>
    pluginErr plugin ("has invalid '" ++ field ++ ".ports': must not be empty (use a different " ++
      "`host:` if no ports apply, or `egress: none` for the whole plugin)")
  | some ports => ports.forM (validateAllowPort plugin field)

def validateAllowEntry (plugin : String) (index : Nat) (entry : Yaml) :
    Except ValidationError Unit :=
  let field := "egress.allow[" ++ toString index ++ "]"
  match entry.asMapping with
  | none =>
    pluginErr plugin ("has invalid '" ++ field ++ "': expected a mapping (got " ++ entry.typeName ++
      ")")
  | some entries =>
    match unknownKey? ["host", "ports"] entries with
    | some key =>
      pluginErr plugin ("has invalid '" ++ field ++ "': unknown key " ++ Text.debug key ++
        " (entries support only 'host' and 'ports')")
    | none =>
      match Yaml.entry? "host" entries with
      | none => pluginErr plugin ("has invalid '" ++ field ++ "': missing required 'host'")
      | some host => do
        validateAllowHost plugin field host
        match Yaml.entry? "ports" entries with
        | none =>
          pluginErr plugin ("has invalid '" ++ field ++
            "': missing required 'ports' (TCP ports list -- use [443] for HTTPS-only)")
        | some ports => validateAllowPorts plugin field ports

def validateAllowEntries (plugin : String) (index : Nat) : List Yaml → Except ValidationError Unit
  | [] => .ok ()
  | entry :: entries => do
    validateAllowEntry plugin index entry
    validateAllowEntries plugin (index + 1) entries

/-- The JSON of a checked mapping, within the size of an environment value. -/
def validateEgressSize (double : UInt64 → List Char) (plugin : String) (raw : Yaml) :
    Except ValidationError Json :=
  match raw.toJson double with
  | none => pluginErr plugin "has invalid 'egress': cannot represent as JSON"
  | some value =>
    if maxEnvValueBytes < (value.bytes double).length then
      pluginErr plugin ("has invalid 'egress': serialized JSON exceeds maximum size of " ++
        toString maxEnvValueBytes ++ " bytes")
    else .ok value

def validateEgressMapping (double : UInt64 → List Char) (plugin : String) (raw : Yaml)
    (entries : List (Yaml × Yaml)) : Except ValidationError Json :=
  if (Yaml.entry? "mode" entries).isSome then
    pluginErr plugin ("has invalid 'egress': 'mode:' is reserved for the wire encoding of the " ++
      "'all'/'none' string forms; use `egress: all` or `egress: none` directly")
  else
    match Yaml.entry? "allow" entries with
    | none =>
      pluginErr plugin ("has invalid 'egress': mapping form must contain 'allow:' " ++
        "(use `egress: none` for no egress, or `egress: all` for unrestricted)")
    | some allow =>
      match allow.asSequence with
      | none =>
        pluginErr plugin ("has invalid 'egress.allow': expected a sequence of " ++
          "\x7b host, ports \x7d entries (got " ++ allow.typeName ++ ")")
      | some items =>
        match unknownKey? ["allow"] entries with
        | some key =>
          pluginErr plugin ("has invalid 'egress': unknown key " ++ Text.debug key ++
            " (mapping form supports only 'allow:')")
        | none => do
          validateAllowEntries plugin 0 items
          validateEgressSize double plugin raw

def missingEgress : String :=
  "is missing required 'egress' field: every plugin must declare one of " ++
    "`egress: all`, `egress: none`, or `egress: \x7b allow: [...] \x7d` -- " ++
    "default-deny means there is no implicit fallback"

def validateEgress (double : UInt64 → List Char) (plugin : String) :
    Option Yaml → Except ValidationError Json
  | none => pluginErr plugin missingEgress
  | some raw =>
    if raw.isNull then pluginErr plugin missingEgress
    else
      match raw.asStr with
      | some keyword =>
        if keyword = "all" ∨ keyword = "none" then .ok (.object [("mode", .string keyword)])
        else
          pluginErr plugin ("has invalid 'egress': string form must be 'all' or 'none' (got " ++
            Text.debug keyword ++ ")")
      | none =>
        match raw.asMapping with
        | none =>
          pluginErr plugin ("has invalid 'egress': expected 'all', 'none', or a mapping (got " ++
            raw.typeName ++ ")")
        | some entries => validateEgressMapping double plugin raw entries

-- ════════════════════════════════════════════════════════════════════════
-- Entries and configs
-- ════════════════════════════════════════════════════════════════════════

def validateOne (double : UInt64 → List Char) (raw : RawPluginEntry) :
    Except ValidationError ValidatedPlugin := do
  let name ← validateName raw.name
  validateNetwork name raw.network
  let image ← validateImage name raw.image
  let port ← validatePort name raw.port
  let path ← validatePath name raw.path
  let upstreamAuth ← validateUpstreamAuth name raw.upstreamAuth
  let env ← validateEnv double name raw.env
  let resources ← validateResources name raw.resources
  let egress ← validateEgress double name raw.egress
  return ⟨name, image, port, path, upstreamAuth, env, resources, egress⟩

def jsonTypeName : Json → String
  | .null => "null"
  | .bool _ => "bool"
  | .number _ => "number"
  | .string _ => "string"
  | .array _ => "array"
  | .object _ => "object"

def validateWorkspacePluginConfig (double : UInt64 → List Char) (context : String) :
    Option Yaml → Except ValidationError (Option Json)
  | none => .ok none
  | some raw =>
    if raw.isNull then .ok none
    else
      match raw.toJson double with
      | none => bindingErr context "invalid 'config': cannot represent as JSON"
      | some (.object []) => .ok none
      | some (.object members) =>
        if maxEnvValueBytes < ((Json.object members).bytes double).length then
          bindingErr context ("invalid 'config': serialized JSON exceeds maximum size of " ++
            toString maxEnvValueBytes ++ " bytes")
        else .ok (some (.object members))
      | some other =>
        bindingErr context ("invalid 'config': expected a mapping (got " ++ jsonTypeName other ++ ")")

-- ════════════════════════════════════════════════════════════════════════
-- What passes
-- ════════════════════════════════════════════════════════════════════════

/-- Every column of an accepted entry comes from the check of its field. -/
structure Accepts (double : UInt64 → List Char) (raw : RawPluginEntry) (plugin : ValidatedPlugin) :
    Prop where
  name : validateName raw.name = .ok plugin.name
  network : validateNetwork plugin.name raw.network = .ok ()
  image : validateImage plugin.name raw.image = .ok plugin.image
  port : validatePort plugin.name raw.port = .ok plugin.port
  path : validatePath plugin.name raw.path = .ok plugin.path
  upstreamAuth : validateUpstreamAuth plugin.name raw.upstreamAuth = .ok plugin.upstreamAuth
  env : validateEnv double plugin.name raw.env = .ok plugin.env
  resources : validateResources plugin.name raw.resources = .ok plugin.resources
  egress : validateEgress double plugin.name raw.egress = .ok plugin.egress

theorem validateOne_eq_ok {double : UInt64 → List Char} {raw : RawPluginEntry}
    {plugin : ValidatedPlugin} (h : validateOne double raw = .ok plugin) :
    Accepts double raw plugin := by
  obtain ⟨name, hname, h⟩ := bind_eq_ok.mp h
  obtain ⟨_, hnetwork, h⟩ := bind_eq_ok.mp h
  obtain ⟨image, himage, h⟩ := bind_eq_ok.mp h
  obtain ⟨port, hport, h⟩ := bind_eq_ok.mp h
  obtain ⟨path, hpath, h⟩ := bind_eq_ok.mp h
  obtain ⟨upstreamAuth, hupstreamAuth, h⟩ := bind_eq_ok.mp h
  obtain ⟨env, henv, h⟩ := bind_eq_ok.mp h
  obtain ⟨resources, hresources, h⟩ := bind_eq_ok.mp h
  obtain ⟨egress, hegress, h⟩ := bind_eq_ok.mp h
  cases h
  exact ⟨hname, hnetwork, himage, hport, hpath, hupstreamAuth, henv, hresources, hegress⟩

theorem validateName_eq_ok {raw name : String} :
    validateName raw = .ok name ↔ name = Text.trim raw ∧ isPluginName name = true := by
  have hblank : isPluginName "" = false := by decide
  simp only [validateName]
  split_ifs with hempty hshape
  · constructor
    · exact nofun
    · rintro ⟨rfl, hname⟩
      rw [hempty, hblank] at hname
      cases hname
  · constructor
    · exact nofun
    · rintro ⟨rfl, hname⟩
      rw [hshape] at hname
      cases hname
  · constructor
    · intro h
      cases h
      exact ⟨rfl, by simpa using hshape⟩
    · rintro ⟨rfl, -⟩
      rfl

/-- A validated plugin carries the trimmed name of its entry. -/
theorem validateOne_name {double : UInt64 → List Char} {raw : RawPluginEntry}
    {plugin : ValidatedPlugin} (h : validateOne double raw = .ok plugin) :
    plugin.name = Text.trim raw.name ∧ isPluginName plugin.name = true :=
  validateName_eq_ok.mp (validateOne_eq_ok h).name

theorem validatePort_le {plugin : String} {raw : Option Nat} {port : Nat}
    (h : validatePort plugin raw = .ok port) : port ≤ 65535 := by
  cases raw with
  | none =>
    cases h
    decide
  | some p =>
    simp only [validatePort] at h
    split_ifs at h with hp
    · cases h
      exact hp.2
    · cases h

end Botwork.ApiCore
