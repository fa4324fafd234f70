import Mathlib.Data.List.Forall2
import Botwork.ApiCore.PluginSpec

/-!
# Bootstrap files

The tree of a bootstrap file, tenants with their workspaces and bindings beside a
flat list of plugins, and its lowering into the tree that is applied.

## Main definitions

- `BootstrapConfigRaw`, `BootstrapConfig` — the tree before and after
- `fromRawNamed` — the lowering of one list of named entries
- `fromRaw` — the lowering of a file
-/

namespace Botwork.ApiCore

open Botwork.Foundations

structure WorkspacePluginRaw where
  name : String
  config : Option Yaml

structure WorkspaceRaw where
  name : String
  plugins : List WorkspacePluginRaw

structure TenantRaw where
  name : String
  workspaces : List WorkspaceRaw

structure BootstrapConfigRaw where
  tenants : List TenantRaw
  plugins : List RawPluginEntry

structure WorkspacePluginEntry where
  name : String
  config : Option Json
  deriving DecidableEq

structure WorkspaceEntry where
  name : String
  plugins : List WorkspacePluginEntry
  deriving DecidableEq

structure TenantEntry where
  name : String
  workspaces : List WorkspaceEntry
  deriving DecidableEq

structure BootstrapConfig where
  tenants : List TenantEntry
  plugins : List ValidatedPlugin
  deriving DecidableEq

/-- Lower a list of named entries.  A name is trimmed and not blank; two entries
    of a list differ in their names as they are written, which `seen` collects. -/
def fromRawNamed {α β : Type} (name : α → String) (field : String)
    (duplicate : String → ValidationError) (lower : String → α → Except ValidationError β)
    (seen : List String) : List α → Except ValidationError (List β)
  | [] => .ok []
  | entry :: entries =>
    if Text.trim (name entry) = "" then .error (.emptyName field)
    else if name entry ∈ seen then .error (duplicate (Text.trim (name entry)))
    else do
      let lowered ← lower (Text.trim (name entry)) entry
      let rest ← fromRawNamed name field duplicate lower (name entry :: seen) entries
      return lowered :: rest

section

variable (double : UInt64 → List Char)

/-- Lower the plugins; an entry is validated before it is compared. -/
def fromRawPlugins (seen : List String) :
    List RawPluginEntry → Except ValidationError (List ValidatedPlugin)
  | [] => .ok []
  | entry :: entries => do
    let validated ← validateOne double entry
    if entry.name ∈ seen then .error (.duplicatePlugin entry.name)
    else
      let rest ← fromRawPlugins (entry.name :: seen) entries
      return validated :: rest

def fromRawBinding (pluginNames : List String) (tenant workspace name : String)
    (binding : WorkspacePluginRaw) : Except ValidationError WorkspacePluginEntry :=
  if binding.name ∉ pluginNames then .error (.unknownPluginRef tenant workspace name)
  else do
    let context := s!"tenant '{tenant}' workspace '{workspace}' plugin '{name}'"
    let config ← validateWorkspacePluginConfig double context binding.config
    return ⟨name, config⟩

def fromRawWorkspace (pluginNames : List String) (tenant name : String)
    (workspace : WorkspaceRaw) : Except ValidationError WorkspaceEntry := do
  let plugins ← fromRawNamed WorkspacePluginRaw.name "tenants[].workspaces[].plugins[].name"
    (.duplicateBinding tenant name) (fromRawBinding double pluginNames tenant name) []
    workspace.plugins
  return ⟨name, plugins⟩

def fromRawTenant (pluginNames : List String) (name : String) (tenant : TenantRaw) :
    Except ValidationError TenantEntry := do
  let workspaces ← fromRawNamed WorkspaceRaw.name "tenants[].workspaces[].name"
    (.duplicateWorkspace name) (fromRawWorkspace double pluginNames name) [] tenant.workspaces
  return ⟨name, workspaces⟩

def fromRaw (raw : BootstrapConfigRaw) : Except ValidationError BootstrapConfig := do
  let plugins ← fromRawPlugins double [] raw.plugins
  let pluginNames := plugins.map ValidatedPlugin.name
  let tenants ← fromRawNamed TenantRaw.name "tenants[].name" .duplicateTenant
    (fromRawTenant double pluginNames) [] raw.tenants
  return ⟨tenants, plugins⟩

-- ════════════════════════════════════════════════════════════════════════
-- What a lowered file holds
-- ════════════════════════════════════════════════════════════════════════

variable {double}

/-- Every entry of a list is lowered under its trimmed name. -/
theorem fromRawNamed_eq_ok {α β : Type} {name : α → String} {field : String}
    {duplicate : String → ValidationError} {lower : String → α → Except ValidationError β}
    {seen : List String} {entries : List α} {lowered : List β}
    (h : fromRawNamed name field duplicate lower seen entries = .ok lowered) :
    List.Forall₂ (fun entry b => lower (Text.trim (name entry)) entry = .ok b) entries lowered := by
  induction entries generalizing seen lowered with
  | nil =>
    cases h
    exact .nil
  | cons entry entries ih =>
    unfold fromRawNamed at h
    split_ifs at h
    obtain ⟨b, hb, h⟩ := bind_eq_ok.mp h
    obtain ⟨rest, hrest, h⟩ := bind_eq_ok.mp h
    cases h
    exact .cons hb (ih hrest)

theorem fromRawPlugins_eq_ok {seen : List String} {entries : List RawPluginEntry}
    {plugins : List ValidatedPlugin} (h : fromRawPlugins double seen entries = .ok plugins) :
    List.Forall₂ (fun entry plugin => validateOne double entry = .ok plugin) entries plugins := by
  induction entries generalizing seen plugins with
  | nil =>
    cases h
    exact .nil
  | cons entry entries ih =>
    unfold fromRawPlugins at h
    obtain ⟨plugin, hplugin, h⟩ := bind_eq_ok.mp h
    split_ifs at h
    obtain ⟨rest, hrest, h⟩ := bind_eq_ok.mp h
    cases h
    exact .cons hplugin (ih hrest)

theorem fromRawPlugins_validated {seen : List String} {entries : List RawPluginEntry}
    {plugins : List ValidatedPlugin} (h : fromRawPlugins double seen entries = .ok plugins) :
    ∀ plugin ∈ plugins, ∃ entry, validateOne double entry = .ok plugin := by
  have hall := fromRawPlugins_eq_ok h
  clear h
  induction hall with
  | nil => exact nofun
  | cons hentry _ ih =>
    intro plugin hplugin
    rcases List.mem_cons.mp hplugin with rfl | hplugin
    · exact ⟨_, hentry⟩
    · exact ih plugin hplugin

theorem fromRawWorkspace_name {pluginNames : List String} {tenant name : String}
    {workspace : WorkspaceRaw} {entry : WorkspaceEntry}
    (h : fromRawWorkspace double pluginNames tenant name workspace = .ok entry) :
    entry.name = name := by
  obtain ⟨plugins, -, h⟩ := bind_eq_ok.mp h
  cases h
  rfl

/-- A lowered tenant and its workspaces carry the trimmed names of the raw ones. -/
theorem fromRawTenant_names {pluginNames : List String} {name : String} {tenant : TenantRaw}
    {entry : TenantEntry} (h : fromRawTenant double pluginNames name tenant = .ok entry) :
    entry.name = name ∧
      entry.workspaces.map WorkspaceEntry.name =
        tenant.workspaces.map (Text.trim ·.name) := by
  obtain ⟨workspaces, hworkspaces, h⟩ := bind_eq_ok.mp h
  cases h
  refine ⟨rfl, ?_⟩
  rw [← List.forall₂_eq_eq_eq, List.forall₂_map_left_iff, List.forall₂_map_right_iff]
  exact (fromRawNamed_eq_ok hworkspaces).flip.imp fun _ _ => fromRawWorkspace_name

end

end Botwork.ApiCore
