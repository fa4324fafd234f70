import Botwork.Db.Tables

/-!
# Resolving a triple

`POST /resolve`: the names of a tenant, a workspace and a plugin are turned into
the descriptor of the plugin's containers, from the stored rows.

## Main definitions

- `isResolvable` — matching of `NAME_RE`
- `render` — the descriptor of a plugin and a binding
- `resolve` — the handler
-/

namespace Botwork.ConfigBroker

open Botwork.Foundations Botwork.Db

/-- Matching of `^[a-z][a-z0-9-]{0,30}$`. -/
def isResolvable (name : String) : Bool :=
  match name.toList with
  | [] => false
  | c :: rest =>
    c.isLower && decide (rest.length ≤ 30) &&
      rest.all fun c => c.isLower || c.isDigit || c == '-'

structure ResourcesView where
  cpus : Option String
  memory : Option String
  pids : Option Nat
  deriving DecidableEq

structure ResolveResponse where
  image : String
  port : Nat
  path : String
  upstreamAuth : String
  resources : ResourcesView
  env : List (String × String)
  configBlob : Option String
  egress : Json
  deriving DecidableEq

structure ResolveError where
  status : Nat
  error : String
  message : String
  deriving DecidableEq, Repr

/-- The entries of an environment that have a name and a value. -/
def renderEnv (env : Json) : List (String × String) :=
  match env.asArray with
  | some entries =>
    entries.filterMap fun entry => do
      let name ← (entry.get "name").bind Json.asStr
      let value ← (entry.get "value").bind Json.asStr
      return (name, value)
  | none => []

def renderResources : Option Json → ResourcesView
  | none => ⟨none, none, none⟩
  | some v =>
    { cpus := (v.get "cpus").bind Json.asStr
      memory := (v.get "memory").bind Json.asStr
      pids := ((v.get "pids").bind Json.asU64).filter (· < 2 ^ 32) }

section

variable (double : UInt64 → List Char)

/-- A config as compact JSON; an empty object counts as absent. -/
def renderConfig : Option Json → Option String
  | none | some (.object []) => none
  | some v => some (String.ofList (v.text double))

def render (plugin : PluginRow) (binding : BindingRow) : Option ResolveResponse :=
  if 65536 ≤ plugin.spec.port then none
  else some
    { image := plugin.spec.image
      port := plugin.spec.port
      path := plugin.spec.path
      upstreamAuth := plugin.spec.upstreamAuth
      resources := renderResources plugin.spec.resources
      env := renderEnv plugin.spec.env
      configBlob := renderConfig double binding.config
      egress := plugin.spec.egress }

/-- Whether a workspace id has this name under a tenant of that name. -/
def isWorkspaceOf (db : Tables) (tenantName workspaceName : String) (workspaceId : Nat) : Bool :=
  db.workspaces.any fun workspace =>
    workspace.id = workspaceId ∧ workspace.name = workspaceName ∧
      db.tenants.any fun tenant => tenant.id = workspace.tenantId ∧ tenant.name = tenantName

/-- The first row of the join of the four tables, filtered by the three names. -/
def lookup (db : Tables) (tenantName workspaceName pluginName : String) :
    Option (PluginRow × BindingRow) :=
  db.bindings.findSome? fun binding =>
    db.plugins.findSome? fun plugin =>
      if plugin.id = binding.pluginId ∧ plugin.spec.name = pluginName ∧
          isWorkspaceOf db tenantName workspaceName binding.workspaceId = true then
        some (plugin, binding)
      else none

def nameRe : String := "^[a-z][a-z0-9-]\x7b0,30\x7d$"

/-- A field of the request body that is there and has the shape of a name. -/
def requireField (field : String) (value : Option String) : Except ResolveError String :=
  match value with
  | none => .error ⟨400, "invalid_request", s!"missing required field '{field}'"⟩
  | some name => .ok name

def requireName (field code : String) (name : String) : Except ResolveError Unit :=
  if isResolvable name then .ok ()
  else .error ⟨400, code, s!"invalid {field} '{name}': must match {nameRe}"⟩

def resolve (db : Tables) (tenant workspace plugin : Option String) :
    Except ResolveError ResolveResponse := do
  let tenant ← requireField "tenant" tenant
  let workspace ← requireField "workspace" workspace
  let plugin ← requireField "plugin" plugin
  requireName "tenant" "invalid_request" tenant
  requireName "workspace" "invalid_workspace" workspace
  requireName "plugin" "invalid_request" plugin
  match lookup db tenant workspace plugin with
  | none => .error ⟨404, "unknown_plugin",
      s!"no binding for tenant '{tenant}' workspace '{workspace}' plugin '{plugin}'"⟩
  | some (pluginRow, bindingRow) =>
    match render double pluginRow bindingRow with
    | none => .error ⟨500, "internal",
        s!"resolve failed: Custom Error: plugin '{pluginRow.spec.name}' has out-of-range port " ++
          s!"{pluginRow.spec.port} in DB; bootstrap should have constrained 1..=65535"⟩
    | some response => .ok response

end

-- ════════════════════════════════════════════════════════════════════════
-- What is found
-- ════════════════════════════════════════════════════════════════════════

section

variable {db : Tables} {tenantName workspaceName pluginName : String}

theorem lookup_eq_some {plugin : PluginRow} {binding : BindingRow}
    (h : lookup db tenantName workspaceName pluginName = some (plugin, binding)) :
    binding ∈ db.bindings ∧ plugin ∈ db.plugins ∧ plugin.id = binding.pluginId ∧
      plugin.spec.name = pluginName ∧
      isWorkspaceOf db tenantName workspaceName binding.workspaceId = true := by
  obtain ⟨binding', hbinding, h⟩ := List.exists_of_findSome?_eq_some h
  obtain ⟨plugin', hplugin, h⟩ := List.exists_of_findSome?_eq_some h
  split_ifs at h with hjoin
  cases h
  exact ⟨hbinding, hplugin, hjoin⟩

theorem lookup_isSome {plugin : PluginRow} {binding : BindingRow} (hbinding : binding ∈ db.bindings)
    (hplugin : plugin ∈ db.plugins) (hid : plugin.id = binding.pluginId)
    (hname : plugin.spec.name = pluginName)
    (hworkspace : isWorkspaceOf db tenantName workspaceName binding.workspaceId = true) :
    ∃ row, lookup db tenantName workspaceName pluginName = some row := by
  rw [← Option.isSome_iff_exists, lookup, List.findSome?_isSome_iff]
  refine ⟨binding, hbinding, ?_⟩
  rw [List.findSome?_isSome_iff]
  refine ⟨plugin, hplugin, ?_⟩
  rw [if_pos ⟨hid, hname, hworkspace⟩]
  rfl

end

end Botwork.ConfigBroker
