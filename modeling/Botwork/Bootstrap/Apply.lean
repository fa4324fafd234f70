import Botwork.ApiCore.Bootstrap
import Botwork.Db.Tables

/-!
# Applying a bootstrap config

The upserts that bring the tables into agreement with a lowered bootstrap file,
in one transaction and past the checks of the API.

## Main definitions

- `upsertPlugin`, `upsertTenant`, `upsertWorkspace`, `upsertBinding` — one row each
- `apply` — all rows of a config
-/

namespace Botwork.Bootstrap

open Botwork.Foundations Botwork.ApiCore Botwork.Db

inductive BootstrapError where
  | db
  | unknownPluginRef (tenant workspace plugin : String)
  deriving DecidableEq, Repr

def executed (result : Option Tables) : Except BootstrapError Tables :=
  match result with
  | some db => .ok db
  | none => .error .db

section

variable (uuid : Tables → Nat) (now : Nat)

/-- The id of a plugin's row, and the tables with the row; only the columns that
    differ are set. -/
def upsertPlugin (db : Tables) (entry : ValidatedPlugin) : Except BootstrapError (Nat × Tables) :=
  match db.plugins.find? (·.spec.name = entry.name) with
  | some row =>
    if row.spec = entry then .ok (row.id, db)
    else do
      let db ← executed (db.updatePlugin { row with spec := entry, updatedAt := now })
      return (row.id, db)
  | none => do
    let db' ← executed (db.insertPlugin ⟨uuid db, entry, now⟩)
    return (uuid db, db')

def upsertTenant (db : Tables) (name : String) : Except BootstrapError (Nat × Tables) :=
  match db.tenants.find? (·.name = name) with
  | some row => .ok (row.id, db)
  | none => do
    let db' ← executed (db.insertTenant ⟨uuid db, name, now⟩)
    return (uuid db, db')

def upsertWorkspace (db : Tables) (tenantId : Nat) (name : String) :
    Except BootstrapError (Nat × Tables) :=
  match db.workspaces.find? fun row => row.tenantId = tenantId ∧ row.name = name with
  | some row => .ok (row.id, db)
  | none => do
    let db' ← executed (db.insertWorkspace ⟨uuid db, tenantId, name, now⟩)
    return (uuid db, db')

def upsertBinding (db : Tables) (workspaceId pluginId : Nat) (config : Option Json) :
    Except BootstrapError Tables :=
  match db.bindings.find? fun row => row.workspaceId = workspaceId ∧ row.pluginId = pluginId with
  | some row =>
    if row.config = config then .ok db
    else executed (db.updateBinding { row with config, updatedAt := now })
  | none => executed (db.insertBinding ⟨workspaceId, pluginId, config, now⟩)

/-- The plugins of a config, and the ids of their rows by name. -/
def applyPlugins (db : Tables) (pluginIds : List (String × Nat)) :
    List ValidatedPlugin → Except BootstrapError (List (String × Nat) × Tables)
  | [] => .ok (pluginIds, db)
  | entry :: entries => do
    let (id, db) ← upsertPlugin uuid now db entry
    applyPlugins db ((entry.name, id) :: pluginIds) entries

section

variable (pluginIds : List (String × Nat))

def applyBindings (tenant workspace : String) (workspaceId : Nat) (db : Tables) :
    List WorkspacePluginEntry → Except BootstrapError Tables
  | [] => .ok db
  | binding :: bindings =>
    match pluginIds.lookup binding.name with
    | none => .error (.unknownPluginRef tenant workspace binding.name)
    | some pluginId => do
      let db ← upsertBinding now db workspaceId pluginId binding.config
      applyBindings tenant workspace workspaceId db bindings

def applyWorkspaces (tenant : String) (tenantId : Nat) (db : Tables) :
    List WorkspaceEntry → Except BootstrapError Tables
  | [] => .ok db
  | entry :: entries => do
    let (workspaceId, db) ← upsertWorkspace uuid now db tenantId entry.name
    let db ← applyBindings now pluginIds tenant entry.name workspaceId db entry.plugins
    applyWorkspaces tenant tenantId db entries

def applyTenants (db : Tables) : List TenantEntry → Except BootstrapError Tables
  | [] => .ok db
  | entry :: entries => do
    let (tenantId, db) ← upsertTenant uuid now db entry.name
    let db ← applyWorkspaces uuid now pluginIds entry.name tenantId db entry.workspaces
    applyTenants db entries

end

/-- The tables after a config is applied; a failure leaves them as they are. -/
def apply (db : Tables) (config : BootstrapConfig) : Except BootstrapError Tables := do
  let (pluginIds, db) ← applyPlugins uuid now db [] config.plugins
  applyTenants uuid now pluginIds db config.tenants

end

end Botwork.Bootstrap
