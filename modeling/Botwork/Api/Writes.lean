import Botwork.ApiCore.Names
import Botwork.Db.Tables

/-!
# Configuration writes of the API

The handlers that create and change tenants, workspaces, plugins and bindings.
A plugin body stands here as the raw entry it is turned into.

## Main definitions

- `ApiError` — why a write is refused
- `createTenant`, `updateTenant`, `createWorkspace`, `updateWorkspace`,
  `createPlugin`, `updatePlugin` — writes that carry a name
- `createWorkspacePlugin`, `updateWorkspacePlugin` — bindings and their config
-/

namespace Botwork.Api

open Botwork.Foundations Botwork.ApiCore Botwork.Db

inductive ApiError where
  | notFound (what : String) (detail : Text.Message)
  | validationFailed (detail : Text.Message)
  | invalidName (detail : String)
  | reservedName (detail : String)
  | crossTenantForbidden (pathTenant : String)
  | adminRequired
  | staleWrite (detail : String)
  | alreadyExists (detail : Text.Message)
  | unavailable (detail : String)
  | internal
  deriving DecidableEq, Repr

def ApiError.ofNameError (err : NameError) : ApiError :=
  match err with
  | .invalid => .invalidName err.text
  | .reserved => .reservedName err.text

def ApiError.ofValidationError (err : ValidationError) : ApiError := .validationFailed err.text

/-- The identity headers of a request; empty ones count as absent. -/
structure Caller where
  admin : Bool
  tenant : Option String

def requireAdmin (caller : Caller) : Except ApiError Unit :=
  if caller.admin then .ok () else .error .adminRequired

def checkName (result : Except NameError Unit) : Except ApiError Unit :=
  result.mapError .ofNameError

def checkTenantConsistency (caller : Caller) (pathTenant : String) : Except ApiError Unit := do
  checkName (validateTenantName pathTenant)
  if caller.tenant = some pathTenant then .ok () else .error (.crossTenantForbidden pathTenant)

def checkLock (submitted live : Nat) (label : String) : Except ApiError Unit :=
  if submitted ≠ live then
    .error (.staleWrite (s!"{label}: if_unmodified_since {submitted} doesn't match live {live}; " ++
      "re-fetch and retry"))
  else .ok ()

/-- A row that is found, or the `not_found` of its kind. -/
def orNotFound {α : Type} (row : Option α) (what : String) (detail : Text.Message) :
    Except ApiError α :=
  match row with
  | some row => .ok row
  | none => .error (.notFound what detail)

/-- The result of a statement; a failure of the database is a 500. -/
def executed {α : Type} (result : Option α) : Except ApiError α :=
  match result with
  | some value => .ok value
  | none => .error .internal

theorem executed_eq_ok {α : Type} {result : Option α} {value : α} :
    executed result = .ok value ↔ result = some value := by
  cases result <;> simp [executed]

theorem orNotFound_eq_ok {α : Type} {row : Option α} {what : String} {detail : Text.Message}
    {value : α} :
    orNotFound row what detail = .ok value ↔ row = some value := by
  cases row <;> simp [orNotFound]

theorem checkName_eq_ok {result : Except NameError Unit} :
    checkName result = .ok () ↔ result = .ok () := by
  cases result <;> simp [checkName, Except.mapError]

section

-- `uuid` stands for the ids `Uuid::new_v4` draws, `now` for the clock.
variable (uuid : Tables → Nat) (now : Nat) (caller : Caller) (db : Tables)

-- ════════════════════════════════════════════════════════════════════════
-- Tenants
-- ════════════════════════════════════════════════════════════════════════

/-- `LOWER(name) = $1`, among the rows other than `excludeId`. -/
def tenantNameTaken (normalised : String) (excludeId : Option Nat) : Bool :=
  db.tenants.any fun row => Text.toLowercase row.name = normalised ∧ some row.id ≠ excludeId

def createTenant (bodyName : String) : Except ApiError Tables := do
  requireAdmin caller
  let name := Text.trim bodyName
  checkName (validateTenantName name)
  if tenantNameTaken db (normaliseName name) none then
    .error (.alreadyExists
      ("tenant with name " ++ Text.debug name ++ " already exists (case-insensitive)"))
  else executed (db.insertTenant ⟨uuid db, name, now⟩)

def updateTenant (id : Nat) (bodyName : String) (ifUnmodifiedSince : Nat) :
    Except ApiError Tables := do
  requireAdmin caller
  let name := Text.trim bodyName
  checkName (validateTenantName name)
  let live ← orNotFound (db.tenants.find? (·.id = id)) "tenant" s!"no tenant with id {id}"
  checkLock ifUnmodifiedSince live.updatedAt "tenant"
  if tenantNameTaken db (normaliseName name) (some live.id) then
    .error (.alreadyExists
      ("tenant with name " ++ Text.debug name ++ " already exists (case-insensitive)"))
  else executed (db.updateTenant { live with name, updatedAt := now })

def resolveTenantId (tenantName : String) : Except ApiError Nat := do
  let row ← orNotFound (db.tenants.find? (·.name = tenantName)) "tenant"
    ("no tenant with name " ++ Text.debug tenantName)
  return row.id

-- ════════════════════════════════════════════════════════════════════════
-- Workspaces
-- ════════════════════════════════════════════════════════════════════════

def workspaceNameTaken (tenantId : Nat) (normalised : String) (excludeId : Option Nat) : Bool :=
  db.workspaces.any fun row =>
    row.tenantId = tenantId ∧ Text.toLowercase row.name = normalised ∧ some row.id ≠ excludeId

def workspaceExists (tenantName name : String) : ApiError :=
  .alreadyExists ("workspace with name " ++ Text.debug name ++ " already exists under tenant " ++
    Text.debug tenantName ++ " (case-insensitive)")

def createWorkspace (tenantName bodyName : String) : Except ApiError Tables := do
  checkTenantConsistency caller tenantName
  let name := Text.trim bodyName
  checkName (validateWorkspaceName name)
  let tenantId ← resolveTenantId db tenantName
  if workspaceNameTaken db tenantId (normaliseName name) none then
    .error (workspaceExists tenantName name)
  else executed (db.insertWorkspace ⟨uuid db, tenantId, name, now⟩)

def updateWorkspace (tenantName : String) (id : Nat) (bodyName : String)
    (ifUnmodifiedSince : Nat) : Except ApiError Tables := do
  checkTenantConsistency caller tenantName
  let name := Text.trim bodyName
  checkName (validateWorkspaceName name)
  let tenantId ← resolveTenantId db tenantName
  let live ← orNotFound (db.workspaces.find? (·.id = id)) "workspace" s!"no workspace with id {id}"
  if live.tenantId ≠ tenantId then
    .error (.notFound "workspace" (s!"no workspace with id {id} under tenant " ++ Text.debug tenantName))
  else do
    checkLock ifUnmodifiedSince live.updatedAt "workspace"
    if workspaceNameTaken db tenantId (normaliseName name) (some live.id) then
      .error (workspaceExists tenantName name)
    else executed (db.updateWorkspace { live with name, updatedAt := now })

-- ════════════════════════════════════════════════════════════════════════
-- Plugins
-- ════════════════════════════════════════════════════════════════════════

def pluginNameTaken (normalised : String) (excludeId : Option Nat) : Bool :=
  db.plugins.any fun row => Text.toLowercase row.spec.name = normalised ∧ some row.id ≠ excludeId

def pluginExists (name : String) : ApiError :=
  .alreadyExists ("plugin with name " ++ Text.debug name ++ " already exists (case-insensitive)")

def checkPlugin (double : UInt64 → List Char) (raw : RawPluginEntry) :
    Except ApiError ValidatedPlugin :=
  (validateOne double raw).mapError .ofValidationError

def createPlugin (double : UInt64 → List Char) (raw : RawPluginEntry) :
    Except ApiError Tables := do
  requireAdmin caller
  let validated ← checkPlugin double raw
  checkName (validatePluginName validated.name)
  if pluginNameTaken db (normaliseName validated.name) none then
    .error (pluginExists validated.name)
  else executed (db.insertPlugin ⟨uuid db, validated, now⟩)

def updatePlugin (double : UInt64 → List Char) (id : Nat) (raw : RawPluginEntry)
    (ifUnmodifiedSince : Nat) : Except ApiError Tables := do
  requireAdmin caller
  let validated ← checkPlugin double raw
  let live ← orNotFound (db.plugins.find? (·.id = id)) "plugin" s!"no plugin with id {id}"
  checkLock ifUnmodifiedSince live.updatedAt "plugin"
  checkName (validatePluginName validated.name)
  if pluginNameTaken db (normaliseName validated.name) (some live.id) then
    .error (pluginExists validated.name)
  else executed (db.updatePlugin { live with spec := validated, updatedAt := now })

-- ════════════════════════════════════════════════════════════════════════
-- Bindings
-- ════════════════════════════════════════════════════════════════════════

/-- Whether both parents of a binding, and the tenant above them, exist. -/
def resolveTriple (workspaceId pluginId : Nat) : Except ApiError (String × String × String) :=
  let triple := do
    let workspace ← db.workspaces.find? (·.id = workspaceId)
    let tenant ← db.tenants.find? (·.id = workspace.tenantId)
    let plugin ← db.plugins.find? (·.id = pluginId)
    return (tenant.name, workspace.name, plugin.spec.name)
  orNotFound triple "workspace_plugin" (s!"could not resolve (workspace={workspaceId}, " ++
    s!"plugin={pluginId}) — one of the rows is missing")

/-- The config of a binding as it is stored: absent, `null` and empty are one. -/
def bindingConfig : Option Json → Except ApiError (Option Json)
  | none | some .null | some (.object []) => .ok none
  | some (.object members) => .ok (some (.object members))
  | some other =>
    .error (.validationFailed s!"binding 'config' must be a JSON object (got {jsonTypeName other})")

def createWorkspacePlugin (tenantName : String) (workspaceId pluginId : Nat)
    (config : Option Json) : Except ApiError Tables := do
  checkTenantConsistency caller tenantName
  let _ ← resolveTriple db workspaceId pluginId
  if db.bindings.any (fun b => b.workspaceId = workspaceId ∧ b.pluginId = pluginId) then
    .error (.alreadyExists
      s!"binding (workspace={workspaceId}, plugin={pluginId}) already exists")
  else do
    let config ← bindingConfig config
    executed (db.insertBinding ⟨workspaceId, pluginId, config, now⟩)

/-- `gate` is what control-plane answers when it is asked to terminate the live
    sessions of the triple: `none`, or why it is unavailable. -/
def updateWorkspacePlugin (gate : Option String) (tenantName : String)
    (workspaceId pluginId : Nat) (config : Option Json) (ifUnmodifiedSince : Nat) :
    Except ApiError Tables := do
  checkTenantConsistency caller tenantName
  let live ← orNotFound
    (db.bindings.find? fun b => b.workspaceId = workspaceId ∧ b.pluginId = pluginId)
    "workspace_plugin" s!"no binding for (workspace={workspaceId}, plugin={pluginId})"
  checkLock ifUnmodifiedSince live.updatedAt "workspace_plugin"
  let newConfig ← bindingConfig config
  let _ ← resolveTriple db workspaceId pluginId
  match gate with
  | some msg =>
    .error (.unavailable
      (s!"control-plane unavailable during workspace_plugin update: {msg}; " ++ "no rows changed"))
  | none => executed (db.updateBinding { live with config := newConfig, updatedAt := now })

end

end Botwork.Api
