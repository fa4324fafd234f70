import Botwork.Db.Tables
import Botwork.Foundations.Rows

/-!
# Entities

The rows the read endpoints answer with, every column of them, and the state of
the database they are read from.

## Main definitions

- `TenantModel`, `WorkspaceModel`, `WorkspacePluginModel`, `AgentSessionModel`,
  `SessionWorkerModel` — the rows
- `Stored`, `Stored.Sound` — the tables under their unique keys
- `Stored.all` — a `SELECT`, within what the protocol of the database carries
- `Stored.view` — what is a tenant's
-/

namespace Botwork.Db

open Botwork.Foundations

structure TenantModel where
  id : Nat
  name : String
  createdAt : Nat
  updatedAt : Nat
  deriving DecidableEq

structure WorkspaceModel where
  id : Nat
  tenantId : Nat
  name : String
  createdAt : Nat
  updatedAt : Nat
  deriving DecidableEq

structure WorkspacePluginModel where
  workspaceId : Nat
  pluginId : Nat
  config : Option Json
  createdAt : Nat
  updatedAt : Nat
  deriving DecidableEq

structure AgentSessionModel where
  id : Nat
  tenantId : Nat
  workspaceId : Nat
  agentSessionId : String
  state : String
  createdAt : Nat
  lastActiveAt : Nat
  reactivationCount : Int
  deriving DecidableEq

structure SessionWorkerModel where
  id : Nat
  agentSessionId : Option Nat
  pluginId : Nat
  containerName : String
  containerIp : String
  mcpSessionId : String
  spawnedAt : Nat
  reapedAt : Option Nat
  deriving DecidableEq

structure Stored where
  tenants : List TenantModel
  workspaces : List WorkspaceModel
  workspacePlugins : List WorkspacePluginModel
  agentSessions : List AgentSessionModel
  sessionWorkers : List SessionWorkerModel
  deriving DecidableEq

namespace Stored

/-- The primary keys, and the unique keys on names. -/
structure Sound (db : Stored) : Prop where
  tenants : Keyed TenantModel.id db.tenants
  tenantNames : Keyed TenantModel.name db.tenants
  workspaces : Keyed WorkspaceModel.id db.workspaces
  workspaceNames : Keyed (fun w : WorkspaceModel => (w.tenantId, w.name)) db.workspaces
  workspacePlugins :
    Keyed (fun b : WorkspacePluginModel => (b.workspaceId, b.pluginId)) db.workspacePlugins
  agentSessions : Keyed AgentSessionModel.id db.agentSessions
  sessionWorkers : Keyed SessionWorkerModel.id db.sessionWorkers

/-- How many values one statement can bind. -/
def bindLimit : Nat := 65535

/-- A `SELECT` that binds `binds` values, `texts` among them: `none` when they are
    too many or a text holds what no column can. -/
def all {ρ : Type} (binds : Nat) (texts : List String) (rows : List ρ) : Option (List ρ) :=
  if binds ≤ bindLimit ∧ texts.all storableText = true then some rows else none

theorem all_of_le {ρ : Type} {binds : Nat} {rows : List ρ} (h : binds ≤ bindLimit) :
    all binds [] rows = some rows := if_pos ⟨h, rfl⟩

-- ════════════════════════════════════════════════════════════════════════
-- What is a tenant's
-- ════════════════════════════════════════════════════════════════════════

/-- A binding is its workspace's. -/
def ownsBinding (db : Stored) (tenantId : Nat) (row : WorkspacePluginModel) : Bool :=
  db.workspaces.any fun w => w.id = row.workspaceId ∧ w.tenantId = tenantId

/-- A worker is the session's it is linked to, and nobody's before. -/
def ownsWorker (db : Stored) (tenantId : Nat) (row : SessionWorkerModel) : Bool :=
  db.agentSessions.any fun s => row.agentSessionId = some s.id ∧ s.tenantId = tenantId

/-- The rows of one tenant. -/
structure View where
  workspaces : List WorkspaceModel
  workspacePlugins : List WorkspacePluginModel
  agentSessions : List AgentSessionModel
  sessionWorkers : List SessionWorkerModel

def view (db : Stored) (tenantId : Nat) : View where
  workspaces := db.workspaces.filter fun w => w.tenantId = tenantId
  workspacePlugins := db.workspacePlugins.filter (db.ownsBinding tenantId)
  agentSessions := db.agentSessions.filter fun s => s.tenantId = tenantId
  sessionWorkers := db.sessionWorkers.filter (db.ownsWorker tenantId)

/-- Two views of the same rows, in whatever order they are stored. -/
structure View.Same (v v' : View) : Prop where
  workspaces : v.workspaces.Perm v'.workspaces
  workspacePlugins : v.workspacePlugins.Perm v'.workspacePlugins
  agentSessions : v.agentSessions.Perm v'.agentSessions
  sessionWorkers : v.sessionWorkers.Perm v'.sessionWorkers

/-- The keys of a view; within one tenant a workspace has its name alone. -/
structure View.Sound (v : View) : Prop where
  workspaces : Keyed WorkspaceModel.id v.workspaces
  workspaceNames : Keyed WorkspaceModel.name v.workspaces
  workspacePlugins :
    Keyed (fun b : WorkspacePluginModel => (b.workspaceId, b.pluginId)) v.workspacePlugins
  agentSessions : Keyed AgentSessionModel.id v.agentSessions
  sessionWorkers : Keyed SessionWorkerModel.id v.sessionWorkers

theorem Sound.view {db : Stored} (hdb : db.Sound) (tenantId : Nat) : (db.view tenantId).Sound where
  workspaces := hdb.workspaces.filter _
  workspaceNames := by
    have hpairs : Keyed (fun w : WorkspaceModel => (tenantId, w.name)) (db.view tenantId).workspaces := by
      have h := hdb.workspaceNames.filter fun w => w.tenantId = tenantId
      rw [Keyed] at h ⊢
      refine (List.map_congr_left fun w hw => ?_).symm ▸ h
      rw [Stored.view, List.mem_filter, decide_eq_true_eq] at hw
      rw [hw.2]
    exact hpairs.of_comp
  workspacePlugins := hdb.workspacePlugins.filter _
  agentSessions := hdb.agentSessions.filter _
  sessionWorkers := hdb.sessionWorkers.filter _

end Stored

end Botwork.Db
