import Botwork.Api.Writes
import Botwork.Bootstrap.Apply
import Botwork.Foundations.Transactions

/-!
# The writers of the configuration tables, statement by statement

The handlers of the API that write configuration rows and the bootstrap file that
is applied to the database, as programs of SQL statements on one database.  Any
number of them run at once; a foreign key only refuses a statement, which is the
failure of that statement.

## Main definitions

- `RowKey`, `Row` — the rows by primary key
- `updateTenant`, … — the handlers
- `applyBootstrap` — a bootstrap file
- `WriteRequest`, `configServer` — the requests and their machine
-/

namespace Botwork.System.ConfigServer

open Botwork.Foundations Botwork.ApiCore Botwork.Db Botwork.Api Botwork.Bootstrap

-- ════════════════════════════════════════════════════════════════════════
-- Rows
-- ════════════════════════════════════════════════════════════════════════

inductive RowKey where
  | tenant (id : Nat)
  | workspace (id : Nat)
  | plugin (id : Nat)
  | binding (workspaceId pluginId : Nat)
  deriving DecidableEq, Repr

inductive Row where
  | tenant (row : TenantRow)
  | workspace (row : WorkspaceRow)
  | plugin (row : PluginRow)
  | binding (row : BindingRow)
  deriving DecidableEq

namespace Row

def key : Row → RowKey
  | .tenant row => .tenant row.id
  | .workspace row => .workspace row.id
  | .plugin row => .plugin row.id
  | .binding row => .binding row.workspaceId row.pluginId

def updatedAt : Row → Nat
  | .tenant row => row.updatedAt
  | .workspace row => row.updatedAt
  | .plugin row => row.updatedAt
  | .binding row => row.updatedAt

def tenant? : Row → Option TenantRow
  | .tenant row => some row
  | _ => none

def workspace? : Row → Option WorkspaceRow
  | .workspace row => some row
  | _ => none

def plugin? : Row → Option PluginRow
  | .plugin row => some row
  | _ => none

def binding? : Row → Option BindingRow
  | .binding row => some row
  | _ => none

/-- Two rows that a unique index on names keeps apart; names are compared as they
    are. -/
def clash : Row → Row → Bool
  | .tenant row, .tenant other => row.name = other.name
  | .workspace row, .workspace other => row.tenantId = other.tenantId ∧ row.name = other.name
  | .plugin row, .plugin other => row.spec.name = other.spec.name
  | _, _ => false

end Row

/-- The rows that a SELECT sees, as tables. -/
def tables (rows : FiniteMap RowKey Row) : Tables where
  tenants := rows.values.filterMap Row.tenant?
  workspaces := rows.values.filterMap Row.workspace?
  plugins := rows.values.filterMap Row.plugin?
  bindings := rows.values.filterMap Row.binding?

inductive WriteError where
  | api (err : ApiError)
  | hasDependents (detail : Text.Message)
  | bootstrap (err : BootstrapError)
  deriving DecidableEq

/-- What a handler asks of auth-broker and of control-plane. -/
inductive Question where
  | mintInvitation (tenantId : Nat)
  | terminateLiveSessions (tenant workspace plugin : String)
  deriving DecidableEq

abbrev Handler := Program RowKey Row Question WriteError

/-- A SELECT. -/
def query : Handler Tables := do return tables (← Program.rows)

def lift {α : Type} (result : Except ApiError α) : Handler α :=
  Program.check (result.mapError .api)

def throwApi {α : Type} (err : ApiError) : Handler α := Program.check (.error (.api err))

-- ════════════════════════════════════════════════════════════════════════
-- Statements
-- ════════════════════════════════════════════════════════════════════════

def setTenant (name : String) (now : Nat) : Row → Row
  | .tenant row => .tenant { row with name, updatedAt := now }
  | row => row

def setWorkspace (name : String) (now : Nat) : Row → Row
  | .workspace row => .workspace { row with name, updatedAt := now }
  | row => row

def setPlugin (spec : ValidatedPlugin) (now : Nat) : Row → Row
  | .plugin row => .plugin { row with spec, updatedAt := now }
  | row => row

def setBinding (config : Option Json) (now : Nat) : Row → Row
  | .binding row => .binding { row with config, updatedAt := now }
  | row => row

def updateRow (key : RowKey) (set : Row → Row) : Handler Unit := do
  let _ ← Program.run (.update key set)

def insertRow (row : Nat → Row) : Handler Nat :=
  Program.run (.insert fun id => ((row id).key, row id))

/-- The bindings of a workspace go with it. -/
def cascades (key : RowKey) (k : RowKey) (_row : Row) : Bool :=
  match key, k with
  | .workspace id, .binding workspaceId _ => workspaceId = id
  | _, _ => false

def deleteRow (key : RowKey) : Handler Unit := do
  let _ ← Program.run (.delete key (cascades key))

/-- The token of a DELETE is optional. -/
def checkOptionalLock (submitted : Option Nat) (live : Nat) (label : String) : Handler Unit :=
  match submitted with
  | some lock => lift (checkLock lock live label)
  | none => return ()

-- ════════════════════════════════════════════════════════════════════════
-- Tenants
-- ════════════════════════════════════════════════════════════════════════

def createTenant (caller : Caller) (bodyName : String) : Handler Unit := do
  lift (requireAdmin caller)
  let name := Text.trim bodyName
  lift (checkName (validateTenantName name))
  if tenantNameTaken (← query) (normaliseName name) none then
    throwApi (.alreadyExists
      ("tenant with name " ++ Text.debug name ++ " already exists (case-insensitive)"))
  else
    let now ← Program.now
    let id ← insertRow fun id => .tenant ⟨id, name, now⟩
    Program.commitWork
    match ← Program.reply (.mintInvitation id) with
    | none => return ()
    | some _ => throwApi .internal

def updateTenant (caller : Caller) (id : Nat) (bodyName : String) (ifUnmodifiedSince : Nat) :
    Handler Unit := do
  lift (requireAdmin caller)
  let name := Text.trim bodyName
  lift (checkName (validateTenantName name))
  let live ← lift (orNotFound ((← query).tenants.find? (·.id = id)) "tenant" s!"no tenant with id {id}")
  lift (checkLock ifUnmodifiedSince live.updatedAt "tenant")
  if tenantNameTaken (← query) (normaliseName name) (some live.id) then
    throwApi (.alreadyExists
      ("tenant with name " ++ Text.debug name ++ " already exists (case-insensitive)"))
  else
    let now ← Program.now
    updateRow (.tenant live.id) (setTenant name now)
    Program.commitWork

def deleteTenant (caller : Caller) (id : Nat) (ifUnmodifiedSince : Option Nat) : Handler Unit := do
  lift (requireAdmin caller)
  let live ← lift (orNotFound ((← query).tenants.find? (·.id = id)) "tenant" s!"no tenant with id {id}")
  checkOptionalLock ifUnmodifiedSince live.updatedAt "tenant"
  let dependents := (← query).workspaces.filter (·.tenantId = id)
  if !dependents.isEmpty then
    Program.check (.error (.hasDependents (s!"tenant '{live.name}' still has " ++
      s!"{dependents.length} workspace(s): " ++ Text.debugList (dependents.map (·.name)))))
  else
    deleteRow (.tenant id)
    Program.commitWork

-- ════════════════════════════════════════════════════════════════════════
-- Workspaces
-- ════════════════════════════════════════════════════════════════════════

def createWorkspace (caller : Caller) (tenantName bodyName : String) : Handler Unit := do
  lift (checkTenantConsistency caller tenantName)
  let name := Text.trim bodyName
  lift (checkName (validateWorkspaceName name))
  let tenantId ← lift (resolveTenantId (← query) tenantName)
  if workspaceNameTaken (← query) tenantId (normaliseName name) none then
    throwApi (workspaceExists tenantName name)
  else
    let now ← Program.now
    let _ ← insertRow fun id => .workspace ⟨id, tenantId, name, now⟩
    Program.commitWork

/-- The workspace with this id, if it is one of the tenant's. -/
def ownWorkspace (tenantName : String) (tenantId id : Nat) : Handler WorkspaceRow := do
  let live ← lift (orNotFound ((← query).workspaces.find? (·.id = id)) "workspace"
    s!"no workspace with id {id}")
  if live.tenantId ≠ tenantId then
    throwApi (.notFound "workspace"
      (s!"no workspace with id {id} under tenant " ++ Text.debug tenantName))
  else return live

def updateWorkspace (caller : Caller) (tenantName : String) (id : Nat) (bodyName : String)
    (ifUnmodifiedSince : Nat) : Handler Unit := do
  lift (checkTenantConsistency caller tenantName)
  let name := Text.trim bodyName
  lift (checkName (validateWorkspaceName name))
  let tenantId ← lift (resolveTenantId (← query) tenantName)
  let live ← ownWorkspace tenantName tenantId id
  lift (checkLock ifUnmodifiedSince live.updatedAt "workspace")
  if workspaceNameTaken (← query) tenantId (normaliseName name) (some live.id) then
    throwApi (workspaceExists tenantName name)
  else
    let now ← Program.now
    updateRow (.workspace live.id) (setWorkspace name now)
    Program.commitWork

/-- The live sessions of each binding are terminated. -/
def terminateBindings (tenant workspace : String) : List BindingRow → Handler Unit
  | [] => return ()
  | binding :: bindings => do
    let plugin ← lift (orNotFound ((← query).plugins.find? (·.id = binding.pluginId)) "plugin"
      s!"binding {binding.pluginId} references missing plugin")
    match ← Program.reply (.terminateLiveSessions tenant workspace plugin.spec.name) with
    | some msg => throwApi (.unavailable
        (s!"control-plane unavailable mid-workspace-delete: {msg}; " ++ "no rows were deleted"))
    | none => terminateBindings tenant workspace bindings

def deleteWorkspace (caller : Caller) (tenantName : String) (id : Nat)
    (ifUnmodifiedSince : Option Nat) : Handler Unit := do
  lift (checkTenantConsistency caller tenantName)
  let tenantId ← lift (resolveTenantId (← query) tenantName)
  let live ← ownWorkspace tenantName tenantId id
  checkOptionalLock ifUnmodifiedSince live.updatedAt "workspace"
  let bindings := (← query).bindings.filter (·.workspaceId = id)
  let tenant ← lift (orNotFound ((← query).tenants.find? (·.id = live.tenantId)) "tenant"
    s!"workspace {id} references missing tenant {live.tenantId}")
  terminateBindings tenant.name live.name bindings
  deleteRow (.workspace id)
  Program.commitWork

-- ════════════════════════════════════════════════════════════════════════
-- Plugins
-- ════════════════════════════════════════════════════════════════════════

def createPlugin (double : UInt64 → List Char) (caller : Caller) (raw : RawPluginEntry) :
    Handler Unit := do
  lift (requireAdmin caller)
  let validated ← lift (checkPlugin double raw)
  lift (checkName (validatePluginName validated.name))
  if pluginNameTaken (← query) (normaliseName validated.name) none then
    throwApi (pluginExists validated.name)
  else
    let now ← Program.now
    let _ ← insertRow fun id => .plugin ⟨id, validated, now⟩
    Program.commitWork

def updatePlugin (double : UInt64 → List Char) (caller : Caller) (id : Nat) (raw : RawPluginEntry)
    (ifUnmodifiedSince : Nat) : Handler Unit := do
  lift (requireAdmin caller)
  let validated ← lift (checkPlugin double raw)
  let live ← lift (orNotFound ((← query).plugins.find? (·.id = id)) "plugin" s!"no plugin with id {id}")
  lift (checkLock ifUnmodifiedSince live.updatedAt "plugin")
  lift (checkName (validatePluginName validated.name))
  if pluginNameTaken (← query) (normaliseName validated.name) (some live.id) then
    throwApi (pluginExists validated.name)
  else
    let now ← Program.now
    updateRow (.plugin live.id) (setPlugin validated now)
    Program.commitWork

/-- Where the bindings of a plugin are, for the message. -/
def dependentNames (workspaces : List WorkspaceRow) : List BindingRow → Handler (List String)
  | [] => return []
  | binding :: bindings =>
    match workspaces.find? (·.id = binding.workspaceId) with
    | none => throwApi .internal
    | some workspace => do
      let tenant ← lift (orNotFound ((← query).tenants.find? (·.id = workspace.tenantId)) "tenant"
        s!"workspace {workspace.id} references missing tenant {workspace.tenantId}")
      let names ← dependentNames workspaces bindings
      return (tenant.name ++ "/" ++ workspace.name) :: names

def deletePlugin (caller : Caller) (id : Nat) (ifUnmodifiedSince : Option Nat) : Handler Unit := do
  lift (requireAdmin caller)
  let live ← lift (orNotFound ((← query).plugins.find? (·.id = id)) "plugin" s!"no plugin with id {id}")
  checkOptionalLock ifUnmodifiedSince live.updatedAt "plugin"
  let db ← query
  let bindings := db.bindings.filter (·.pluginId = id)
  if !bindings.isEmpty then
    let summary ← dependentNames db.workspaces bindings
    Program.check (.error (.hasDependents (s!"plugin '{live.spec.name}' still bound in " ++
      s!"{bindings.length} workspace(s): " ++ Text.debugList summary)))
  else
    deleteRow (.plugin id)
    Program.commitWork

-- ════════════════════════════════════════════════════════════════════════
-- Bindings
-- ════════════════════════════════════════════════════════════════════════

def createWorkspacePlugin (caller : Caller) (tenantName : String) (workspaceId pluginId : Nat)
    (config : Option Json) : Handler Unit := do
  lift (checkTenantConsistency caller tenantName)
  let _ ← lift (resolveTriple (← query) workspaceId pluginId)
  if (← query).bindings.any (fun b => b.workspaceId = workspaceId ∧ b.pluginId = pluginId) then
    throwApi (.alreadyExists s!"binding (workspace={workspaceId}, plugin={pluginId}) already exists")
  else
    let config ← lift (bindingConfig config)
    let now ← Program.now
    let _ ← insertRow fun _ => .binding ⟨workspaceId, pluginId, config, now⟩
    Program.commitWork

def liveBinding (workspaceId pluginId : Nat) : Handler BindingRow := do
  lift (orNotFound
    ((← query).bindings.find? fun b => b.workspaceId = workspaceId ∧ b.pluginId = pluginId)
    "workspace_plugin" s!"no binding for (workspace={workspaceId}, plugin={pluginId})")

/-- `terminate_live_sessions`; `verb` and `rows` are those of the message. -/
def terminateTriple (verb rows : String) (triple : String × String × String) : Handler Unit := do
  let (tenant, workspace, plugin) := triple
  match ← Program.reply (.terminateLiveSessions tenant workspace plugin) with
  | some msg => throwApi (.unavailable
      (s!"control-plane unavailable during workspace_plugin {verb}: {msg}; " ++ rows))
  | none => return ()

def updateWorkspacePlugin (caller : Caller) (tenantName : String) (workspaceId pluginId : Nat)
    (config : Option Json) (ifUnmodifiedSince : Nat) : Handler Unit := do
  lift (checkTenantConsistency caller tenantName)
  let live ← liveBinding workspaceId pluginId
  lift (checkLock ifUnmodifiedSince live.updatedAt "workspace_plugin")
  let newConfig ← lift (bindingConfig config)
  let now ← Program.now
  let triple ← lift (resolveTriple (← query) workspaceId pluginId)
  terminateTriple "update" "no rows changed" triple
  updateRow (.binding live.workspaceId live.pluginId) (setBinding newConfig now)
  Program.commitWork

def deleteWorkspacePlugin (caller : Caller) (tenantName : String) (workspaceId pluginId : Nat)
    (ifUnmodifiedSince : Option Nat) : Handler Unit := do
  lift (checkTenantConsistency caller tenantName)
  let live ← liveBinding workspaceId pluginId
  checkOptionalLock ifUnmodifiedSince live.updatedAt "workspace_plugin"
  let triple ← lift (resolveTriple (← query) workspaceId pluginId)
  terminateTriple "delete" "no rows deleted" triple
  deleteRow (.binding workspaceId pluginId)
  Program.commitWork

-- ════════════════════════════════════════════════════════════════════════
-- Bootstrap
-- ════════════════════════════════════════════════════════════════════════

/-- The columns in which a plugin differs from its entry are set; the name is not
    among them. -/
def setPluginColumns (read : ValidatedPlugin) (entry : ValidatedPlugin) (now : Nat) : Row → Row
  | .plugin row => .plugin { row with
      spec := { row.spec with
        image := if read.image ≠ entry.image then entry.image else row.spec.image
        port := if read.port ≠ entry.port then entry.port else row.spec.port
        path := if read.path ≠ entry.path then entry.path else row.spec.path
        upstreamAuth :=
          if read.upstreamAuth ≠ entry.upstreamAuth then entry.upstreamAuth else row.spec.upstreamAuth
        env := if read.env ≠ entry.env then entry.env else row.spec.env
        resources := if read.resources ≠ entry.resources then entry.resources else row.spec.resources
        egress := if read.egress ≠ entry.egress then entry.egress else row.spec.egress }
      updatedAt := now }
  | row => row

def upsertPlugin (entry : ValidatedPlugin) : Handler Nat := do
  match (← query).plugins.find? (·.spec.name = entry.name) with
  | some row =>
    if row.spec = entry then return row.id
    else
      let now ← Program.now
      updateRow (.plugin row.id) (setPluginColumns row.spec entry now)
      return row.id
  | none =>
    let now ← Program.now
    insertRow fun id => .plugin ⟨id, entry, now⟩

def upsertTenant (name : String) : Handler Nat := do
  match (← query).tenants.find? (·.name = name) with
  | some row => return row.id
  | none =>
    let now ← Program.now
    insertRow fun id => .tenant ⟨id, name, now⟩

def upsertWorkspace (tenantId : Nat) (name : String) : Handler Nat := do
  match (← query).workspaces.find? fun row => row.tenantId = tenantId ∧ row.name = name with
  | some row => return row.id
  | none =>
    let now ← Program.now
    insertRow fun id => .workspace ⟨id, tenantId, name, now⟩

def upsertBinding (workspaceId pluginId : Nat) (config : Option Json) : Handler Unit := do
  match (← query).bindings.find? fun row => row.workspaceId = workspaceId ∧ row.pluginId = pluginId with
  | some row =>
    if row.config = config then return ()
    else
      let now ← Program.now
      updateRow (.binding row.workspaceId row.pluginId) (setBinding config now)
  | none =>
    let now ← Program.now
    let _ ← insertRow fun _ => .binding ⟨workspaceId, pluginId, config, now⟩

def applyPlugins (pluginIds : List (String × Nat)) :
    List ValidatedPlugin → Handler (List (String × Nat))
  | [] => return pluginIds
  | entry :: entries => do
    let id ← upsertPlugin entry
    applyPlugins ((entry.name, id) :: pluginIds) entries

def applyBindings (pluginIds : List (String × Nat)) (tenant workspace : String) (workspaceId : Nat) :
    List WorkspacePluginEntry → Handler Unit
  | [] => return ()
  | binding :: bindings =>
    match pluginIds.lookup binding.name with
    | none => Program.check (.error (.bootstrap (.unknownPluginRef tenant workspace binding.name)))
    | some pluginId => do
      upsertBinding workspaceId pluginId binding.config
      applyBindings pluginIds tenant workspace workspaceId bindings

def applyWorkspaces (pluginIds : List (String × Nat)) (tenant : String) (tenantId : Nat) :
    List WorkspaceEntry → Handler Unit
  | [] => return ()
  | entry :: entries => do
    let workspaceId ← upsertWorkspace tenantId entry.name
    applyBindings pluginIds tenant entry.name workspaceId entry.plugins
    applyWorkspaces pluginIds tenant tenantId entries

def applyTenants (pluginIds : List (String × Nat)) : List TenantEntry → Handler Unit
  | [] => return ()
  | entry :: entries => do
    let tenantId ← upsertTenant entry.name
    applyWorkspaces pluginIds entry.name tenantId entry.workspaces
    applyTenants pluginIds entries

/-- `apply`: all upserts in one transaction. -/
def applyBootstrap (config : BootstrapConfig) : Handler Unit := do
  let pluginIds ← applyPlugins [] config.plugins
  applyTenants pluginIds config.tenants
  Program.commitWork

-- ════════════════════════════════════════════════════════════════════════
-- The server
-- ════════════════════════════════════════════════════════════════════════

inductive WriteRequest where
  | createTenant (name : String)
  | updateTenant (id : Nat) (name : String) (ifUnmodifiedSince : Nat)
  | deleteTenant (id : Nat) (ifUnmodifiedSince : Option Nat)
  | createWorkspace (tenantName name : String)
  | updateWorkspace (tenantName : String) (id : Nat) (name : String) (ifUnmodifiedSince : Nat)
  | deleteWorkspace (tenantName : String) (id : Nat) (ifUnmodifiedSince : Option Nat)
  | createPlugin (raw : RawPluginEntry)
  | updatePlugin (id : Nat) (raw : RawPluginEntry) (ifUnmodifiedSince : Nat)
  | deletePlugin (id : Nat) (ifUnmodifiedSince : Option Nat)
  | createWorkspacePlugin (tenantName : String) (workspaceId pluginId : Nat) (config : Option Json)
  | updateWorkspacePlugin (tenantName : String) (workspaceId pluginId : Nat) (config : Option Json)
      (ifUnmodifiedSince : Nat)
  | deleteWorkspacePlugin (tenantName : String) (workspaceId pluginId : Nat)
      (ifUnmodifiedSince : Option Nat)
  /-- a bootstrap file applied to the database -/
  | bootstrap (config : BootstrapConfig)

/-- A write and the identity of its caller. -/
structure WriteCall where
  caller : Caller
  write : WriteRequest

def WriteCall.handler (double : UInt64 → List Char) (call : WriteCall) : Handler Unit :=
  let caller := call.caller
  match call.write with
  | .createTenant name => createTenant caller name
  | .updateTenant id name since => updateTenant caller id name since
  | .deleteTenant id since => deleteTenant caller id since
  | .createWorkspace tenantName name => createWorkspace caller tenantName name
  | .updateWorkspace tenantName id name since => updateWorkspace caller tenantName id name since
  | .deleteWorkspace tenantName id since => deleteWorkspace caller tenantName id since
  | .createPlugin raw => createPlugin double caller raw
  | .updatePlugin id raw since => updatePlugin double caller id raw since
  | .deletePlugin id since => deletePlugin caller id since
  | .createWorkspacePlugin tenantName workspaceId pluginId config =>
    createWorkspacePlugin caller tenantName workspaceId pluginId config
  | .updateWorkspacePlugin tenantName workspaceId pluginId config since =>
    updateWorkspacePlugin caller tenantName workspaceId pluginId config since
  | .deleteWorkspacePlugin tenantName workspaceId pluginId since =>
    deleteWorkspacePlugin caller tenantName workspaceId pluginId since
  | .bootstrap config => applyBootstrap config

/-- The programs of all writes; `double` renders floating-point numbers. -/
def writes (double : UInt64 → List Char) : Schema WriteCall RowKey Row Question WriteError where
  program := WriteCall.handler double
  clash := Row.clash
  failure := .api .internal

def configServer (double : UInt64 → List Char) :
    Machine (Server WriteCall RowKey Row Question WriteError) (ServerEvent WriteCall) :=
  (writes double).machine

-- ════════════════════════════════════════════════════════════════════════
-- Rules
-- ════════════════════════════════════════════════════════════════════════

section

variable {α γ : Type} {π : Protocol RowKey Row γ} {post : γ → α → Prop} {g : γ}

@[simp]
theorem follows_query {post : γ → Tables → Prop} :
    query.Follows π post g ↔ ∀ seen, post (π.select g seen) (tables seen) := by
  simp [query]

@[simp]
theorem follows_lift {result : Except ApiError α} :
    (lift result).Follows π post g ↔ ∀ a, result = .ok a → post g a := by
  cases result <;> simp [lift, Except.mapError]

@[simp]
theorem follows_throwApi {err : ApiError} : (throwApi err).Follows π post g ↔ True := by
  simp [throwApi]

@[simp]
theorem follows_updateRow {post : γ → Unit → Prop} {key : RowKey} {set : Row → Row} :
    (updateRow key set).Follows π post g ↔
      π.allowed g (.update key set) ∧ post (π.exec g (.update key set)) () := by
  simp [updateRow]

@[simp]
theorem follows_insertRow {post : γ → Nat → Prop} {row : Nat → Row} :
    (insertRow row).Follows π post g ↔
      π.allowed g (.insert fun id => ((row id).key, row id)) ∧
        ∀ id, post (π.exec g (.insert fun id => ((row id).key, row id))) id := by
  simp [insertRow]

@[simp]
theorem follows_deleteRow {post : γ → Unit → Prop} {key : RowKey} :
    (deleteRow key).Follows π post g ↔
      π.allowed g (.delete key (cascades key)) ∧ post (π.exec g (.delete key (cascades key))) () := by
  simp [deleteRow]

theorem checkLock_eq_ok {submitted live : Nat} {label : String} :
    checkLock submitted live label = .ok () ↔ submitted = live := by
  unfold checkLock
  split <;> simp_all

@[simp]
theorem follows_checkOptionalLock {post : γ → Unit → Prop} {submitted : Option Nat} {live : Nat}
    {label : String} : (checkOptionalLock submitted live label).Follows π post g ↔
      ((∀ lock, submitted = some lock → lock = live) → post g ()) := by
  cases submitted with
  | none => simp [checkOptionalLock]
  | some lock =>
    simp only [checkOptionalLock, follows_lift, Option.some.injEq, forall_eq']
    exact ⟨fun h hlock => h () (checkLock_eq_ok.mpr hlock), fun h _ hlock => h (checkLock_eq_ok.mp hlock)⟩

theorem follows_ownWorkspace {post : γ → WorkspaceRow → Prop} {tenantName : String} {tenantId id : Nat}
    (h : ∀ seen live, (tables seen).workspaces.find? (·.id = id) = some live →
      live.tenantId = tenantId → post (π.select g seen) live) :
    (ownWorkspace tenantName tenantId id).Follows π post g := by
  simp only [ownWorkspace, Program.follows_bind, follows_query, follows_lift, orNotFound_eq_ok]
  intro seen live hlive
  split
  next => exact follows_throwApi.mpr trivial
  next hsame => exact h seen live hlive (not_not.mp hsame)

/-- The terminations only ask control-plane, and read plugins. -/
theorem follows_terminateBindings {post : γ → Unit → Prop} {tenant workspace : String}
    {bindings : List BindingRow} {P : γ → Prop} (hselect : ∀ g rows, P g → P (π.select g rows)) (h : ∀ g, P g → post g ())
    (hg : P g) : (terminateBindings tenant workspace bindings).Follows π post g := by
  induction bindings generalizing g with
  | nil => exact h g hg
  | cons binding bindings ih =>
    simp only [terminateBindings, Program.follows_bind, follows_query, follows_lift,
      Program.follows_reply]
    intro seen plugin _ answer
    cases answer with
    | some msg => exact follows_throwApi.mpr trivial
    | none => exact ih (hselect g seen hg)

theorem follows_terminateTriple {post : γ → Unit → Prop} {verb rows : String}
    {triple : String × String × String} (h : post g ()) :
    (terminateTriple verb rows triple).Follows π post g := by
  simp only [terminateTriple, Program.follows_bind, Program.follows_reply]
  intro answer
  cases answer with
  | some msg => exact follows_throwApi.mpr trivial
  | none => exact h

theorem follows_dependentNames {post : γ → List String → Prop} {workspaces : List WorkspaceRow}
    {bindings : List BindingRow} {P : γ → Prop} (hselect : ∀ g rows, P g → P (π.select g rows))
    (h : ∀ g names, P g → post g names) (hg : P g) :
    (dependentNames workspaces bindings).Follows π post g := by
  induction bindings generalizing g post with
  | nil => exact h g [] hg
  | cons binding bindings ih =>
    unfold dependentNames
    split
    next => exact follows_throwApi.mpr trivial
    next workspace _ =>
      simp only [Program.follows_bind, follows_query, follows_lift, Program.follows_pure]
      exact fun seen tenant _ => ih (fun g names hg => h g _ hg) (hselect g seen hg)

end

end Botwork.System.ConfigServer
