import Botwork.Api.Writes
import Botwork.Db.Entities
import Botwork.Foundations.Fallible
import Mathlib.Data.Prod.Lex
import Mathlib.Data.String.Basic
import Mathlib.Order.OrderDual

/-!
# Tenant-scoped reads

The GET handlers under `/tenant/{tenant}/`.  Ownership is a column of workspaces
and agent sessions; a binding is its workspace's and a worker its session's, which
the lists find by collecting ids and the reads by id by looking the parent up.
What every handler answers depends on the tenant's own rows alone, and is an exact
selection of them wherever the database can carry the statement.

## Main definitions

- `listWorkspaces`, `getWorkspace` and the like — the handlers
- `TenantGet`, `serve` — a request and its answer
- `Row.ownedBy`, `TenantGet.selects`, `Exact` — what a request should answer
- `Answerable` — the requests that the database carries
-/

namespace Botwork.Api.Reads

open Botwork.Foundations Botwork.ApiCore Botwork.Db

-- ════════════════════════════════════════════════════════════════════════
-- Queries
-- ════════════════════════════════════════════════════════════════════════

section

-- `collate` stands for the sort keys of the database's collation.
variable {ο : Type} [LinearOrder ο] (collate : String → ο) (db : Stored)

def dbResolveTenantId (tenantName : String) : Option (Option Nat) :=
  (Stored.all 1 [tenantName] (db.tenants.filter fun t => t.name = tenantName)).map fun rows =>
    rows.head?.map (·.id)

def dbListWorkspaces (tenantId : Nat) (workspaceId : Option Nat) : Option (List WorkspaceModel) :=
  (Stored.all (1 + workspaceId.toList.length) [] (db.workspaces.filter fun w =>
    w.tenantId = tenantId ∧ workspaceId.all (w.id = ·))).map (orderBy fun w => collate w.name)

def dbGetWorkspace (id : Nat) : Option (Option WorkspaceModel) :=
  some (findRow WorkspaceModel.id db.workspaces id)

def dbListWorkspaceIdsForTenant (tenantId : Nat) : Option (List Nat) :=
  (Stored.all 1 [] (db.workspaces.filter fun w => w.tenantId = tenantId)).map (·.map (·.id))

def dbListWorkspacePlugins (workspaceIds : List Nat) (workspaceId pluginId : Option Nat) :
    Option (List WorkspacePluginModel) :=
  (Stored.all (workspaceIds.length + workspaceId.toList.length + pluginId.toList.length) []
    (db.workspacePlugins.filter fun b => b.workspaceId ∈ workspaceIds ∧
      workspaceId.all (b.workspaceId = ·) ∧ pluginId.all (b.pluginId = ·))).map
    (orderBy fun b => toLex (b.workspaceId, b.pluginId))

def dbGetWorkspacePlugin (workspaceId pluginId : Nat) : Option (Option WorkspacePluginModel) :=
  some (findRow (fun b => (b.workspaceId, b.pluginId)) db.workspacePlugins (workspaceId, pluginId))

def dbListAgentSessions (tenantId : Nat) (workspaceId : Option Nat) (state : Option String) :
    Option (List AgentSessionModel) :=
  (Stored.all (1 + workspaceId.toList.length + state.toList.length) state.toList
    (db.agentSessions.filter fun s => s.tenantId = tenantId ∧
      workspaceId.all (s.workspaceId = ·) ∧ state.all (s.state = ·))).map
    (orderBy fun s => toLex (OrderDual.toDual s.lastActiveAt, s.id))

def dbGetAgentSession (id : Nat) : Option (Option AgentSessionModel) :=
  some (findRow AgentSessionModel.id db.agentSessions id)

def dbListAgentSessionIdsForTenant (tenantId : Nat) : Option (List Nat) :=
  (Stored.all 1 [] (db.agentSessions.filter fun s => s.tenantId = tenantId)).map (·.map (·.id))

/-- A `NULL` link is in no list and equals no id. -/
def dbListSessionWorkers (sessionIds : List Nat) (agentSessionId pluginId : Option Nat)
    (live : Option Bool) : Option (List SessionWorkerModel) :=
  (Stored.all (sessionIds.length + agentSessionId.toList.length + pluginId.toList.length) []
    (db.sessionWorkers.filter fun w => w.agentSessionId.any (· ∈ sessionIds) ∧
      agentSessionId.all (w.agentSessionId = some ·) ∧ pluginId.all (w.pluginId = ·) ∧
      live.all (w.reapedAt.isNone = ·))).map
    (orderBy fun w => toLex (OrderDual.toDual w.spawnedAt, w.id))

def dbGetSessionWorker (id : Nat) : Option (Option SessionWorkerModel) :=
  some (findRow SessionWorkerModel.id db.sessionWorkers id)

end

-- ════════════════════════════════════════════════════════════════════════
-- Handlers
-- ════════════════════════════════════════════════════════════════════════

inductive ReadError where
  | badRequest (detail : String)
  | refused (err : ApiError)
  deriving DecidableEq

structure ListResponse (ρ : Type) where
  items : List ρ
  total : Nat
  deriving DecidableEq

def ListResponse.fromVec {ρ : Type} (items : List ρ) : ListResponse ρ := ⟨items, items.length⟩

section

-- `parseUuid` stands for `Uuid::from_str`, and the text of its refusals.
variable {ο : Type} [LinearOrder ο] (collate : String → ο) (parseUuid : String → Except String Nat)
  (caller : Caller) (db : Stored)

/-- The rows of a statement; a failure of the database is a 500. -/
def fetched {α : Type} (result : Option α) : Except ReadError α :=
  (executed result).mapError .refused

def found {α : Type} (row : Option α) (what : String) (detail : Text.Message) :
    Except ReadError α :=
  (orNotFound row what detail).mapError .refused

def checkTenant (tenantName : String) : Except ReadError Unit :=
  (checkTenantConsistency caller tenantName).mapError .refused

def resolveTenantId (tenantName : String) : Except ReadError Nat := do
  found (← fetched (dbResolveTenantId db tenantName)) "tenant"
    ("no tenant with name " ++ Text.debug tenantName)

def parseId (what raw : String) : Except ReadError Nat :=
  (parseUuid raw).mapError fun err => .badRequest s!"{what}: {err}"

def parseFilter (what : String) : Option String → Except ReadError (Option Nat)
  | some raw => return some (← parseId parseUuid what raw)
  | none => return none

def listWorkspaces (tenantName : String) (workspaceId : Option String) :
    Except ReadError (ListResponse WorkspaceModel) := do
  checkTenant caller tenantName
  let tenantId ← resolveTenantId db tenantName
  let wsFilter ← parseFilter parseUuid "invalid workspace_id query param" workspaceId
  let items ← fetched (dbListWorkspaces collate db tenantId wsFilter)
  return .fromVec items

def getWorkspace (tenantName id : String) : Except ReadError WorkspaceModel := do
  checkTenant caller tenantName
  let tenantId ← resolveTenantId db tenantName
  let id ← parseId parseUuid "invalid workspace id" id
  let row ← found (← fetched (dbGetWorkspace db id)) "workspace" s!"no workspace with id {id}"
  if row.tenantId ≠ tenantId then
    .error (.refused (.notFound "workspace"
      (s!"no workspace with id {id} under tenant " ++ Text.debug tenantName)))
  else return row

def listWorkspacePlugins (tenantName : String) (workspaceId pluginId : Option String) :
    Except ReadError (ListResponse WorkspacePluginModel) := do
  checkTenant caller tenantName
  let workspaceFilter ← parseFilter parseUuid "invalid workspace_id query param" workspaceId
  let pluginFilter ← parseFilter parseUuid "invalid plugin_id query param" pluginId
  let tenantId ← resolveTenantId db tenantName
  let tenantWorkspaceIds ← fetched (dbListWorkspaceIdsForTenant db tenantId)
  if tenantWorkspaceIds.isEmpty then return .fromVec []
  else do
    let items ← fetched
      (dbListWorkspacePlugins db tenantWorkspaceIds workspaceFilter pluginFilter)
    return .fromVec items

def getWorkspacePlugin (tenantName workspaceId pluginId : String) :
    Except ReadError WorkspacePluginModel := do
  checkTenant caller tenantName
  let tenantId ← resolveTenantId db tenantName
  let workspaceId ← parseId parseUuid "invalid workspace_id path param" workspaceId
  let pluginId ← parseId parseUuid "invalid plugin_id path param" pluginId
  let workspace ← found (← fetched (dbGetWorkspace db workspaceId)) "workspace"
    s!"no workspace with id {workspaceId}"
  if workspace.tenantId ≠ tenantId then
    .error (.refused (.notFound "workspace_plugin"
      (s!"no binding for workspace {workspaceId} under tenant " ++ Text.debug tenantName)))
  else
    found (← fetched (dbGetWorkspacePlugin db workspaceId pluginId)) "workspace_plugin"
      s!"no binding for (workspace={workspaceId}, plugin={pluginId})"

def listAgentSessions (tenantName : String) (workspaceId state : Option String) :
    Except ReadError (ListResponse AgentSessionModel) := do
  checkTenant caller tenantName
  let workspaceFilter ← parseFilter parseUuid "invalid workspace_id query param" workspaceId
  let tenantId ← resolveTenantId db tenantName
  let items ← fetched (dbListAgentSessions db tenantId workspaceFilter state)
  return .fromVec items

def getAgentSession (tenantName id : String) : Except ReadError AgentSessionModel := do
  checkTenant caller tenantName
  let tenantId ← resolveTenantId db tenantName
  let id ← parseId parseUuid "invalid agent_session id" id
  let row ← found (← fetched (dbGetAgentSession db id)) "agent_session"
    s!"no agent_session with id {id}"
  if row.tenantId ≠ tenantId then
    .error (.refused (.notFound "agent_session"
      (s!"no agent_session with id {id} under tenant " ++ Text.debug tenantName)))
  else return row

def listSessionWorkers (tenantName : String) (agentSessionId pluginId : Option String)
    (live : Option Bool) : Except ReadError (ListResponse SessionWorkerModel) := do
  checkTenant caller tenantName
  let sessionFilter ← parseFilter parseUuid "invalid agent_session_id query param" agentSessionId
  let pluginFilter ← parseFilter parseUuid "invalid plugin_id query param" pluginId
  let tenantId ← resolveTenantId db tenantName
  let sessionIds ← fetched (dbListAgentSessionIdsForTenant db tenantId)
  if sessionIds.isEmpty then return .fromVec []
  else do
    let items ← fetched (dbListSessionWorkers db sessionIds sessionFilter pluginFilter live)
    return .fromVec items

def getSessionWorker (tenantName id : String) : Except ReadError SessionWorkerModel := do
  checkTenant caller tenantName
  let tenantId ← resolveTenantId db tenantName
  let id ← parseId parseUuid "invalid session_worker id" id
  let row ← found (← fetched (dbGetSessionWorker db id)) "session_worker"
    s!"no session_worker with id {id}"
  match row.agentSessionId with
  -- Not yet bound: whose it is, is not known.
  | none => .error (.refused (.notFound "session_worker"
      (s!"no session_worker with id {id} under tenant " ++ Text.debug tenantName)))
  | some sessionId => do
    let session ← found (← fetched (dbGetAgentSession db sessionId)) "agent_session"
      s!"agent_session {sessionId} not found"
    if session.tenantId ≠ tenantId then
      .error (.refused (.notFound "session_worker"
        (s!"no session_worker with id {id} under tenant " ++ Text.debug tenantName)))
    else return row

end

-- ════════════════════════════════════════════════════════════════════════
-- Requests and answers
-- ════════════════════════════════════════════════════════════════════════

/-- The requests under `/tenant/{tenant}/`, their ids as they are written or parsed. -/
inductive TenantGet (ι : Type) where
  | workspaces (workspaceId : Option ι)
  | workspace (id : ι)
  | workspacePlugins (workspaceId pluginId : Option ι)
  | workspacePlugin (workspaceId pluginId : ι)
  | agentSessions (workspaceId : Option ι) (state : Option String)
  | agentSession (id : ι)
  | sessionWorkers (agentSessionId pluginId : Option ι) (live : Option Bool)
  | sessionWorker (id : ι)

inductive Row where
  | workspace (row : WorkspaceModel)
  | workspacePlugin (row : WorkspacePluginModel)
  | agentSession (row : AgentSessionModel)
  | sessionWorker (row : SessionWorkerModel)
  deriving DecidableEq

inductive Body where
  | list (rows : ListResponse Row)
  | one (row : Row)
  deriving DecidableEq

def ListResponse.body {ρ : Type} (f : ρ → Row) (rows : ListResponse ρ) : Body :=
  .list ⟨rows.items.map f, rows.total⟩

def serve {ο : Type} [LinearOrder ο] (collate : String → ο) (parseUuid : String → Except String Nat)
    (caller : Caller) (db : Stored) (tenantName : String) : TenantGet String → Except ReadError Body
  | .workspaces workspaceId =>
    (listWorkspaces collate parseUuid caller db tenantName workspaceId).map (·.body .workspace)
  | .workspace id => (getWorkspace parseUuid caller db tenantName id).map (.one ∘ .workspace)
  | .workspacePlugins workspaceId pluginId =>
    (listWorkspacePlugins parseUuid caller db tenantName workspaceId pluginId).map
      (·.body .workspacePlugin)
  | .workspacePlugin workspaceId pluginId =>
    (getWorkspacePlugin parseUuid caller db tenantName workspaceId pluginId).map
      (.one ∘ .workspacePlugin)
  | .agentSessions workspaceId state =>
    (listAgentSessions parseUuid caller db tenantName workspaceId state).map (·.body .agentSession)
  | .agentSession id => (getAgentSession parseUuid caller db tenantName id).map (.one ∘ .agentSession)
  | .sessionWorkers agentSessionId pluginId live =>
    (listSessionWorkers parseUuid caller db tenantName agentSessionId pluginId live).map
      (·.body .sessionWorker)
  | .sessionWorker id =>
    (getSessionWorker parseUuid caller db tenantName id).map (.one ∘ .sessionWorker)

/-- The status of a refusal. -/
def ReadError.status : ReadError → Nat
  | .badRequest _ => 400
  | .refused (.notFound ..) => 404
  | .refused (.validationFailed _) => 422
  | .refused (.invalidName _) | .refused (.reservedName _) => 400
  | .refused (.crossTenantForbidden _) | .refused .adminRequired => 403
  | .refused (.staleWrite _) | .refused (.alreadyExists _) => 409
  | .refused (.unavailable _) => 503
  | .refused .internal => 500

/-- The status of an answer, and the rows in it. -/
def answer : Except ReadError Body → Nat × Option Body
  | .ok body => (200, some body)
  | .error err => (err.status, none)

def parsedId (parseUuid : String → Except String Nat) (raw : String) : Option Nat :=
  (parseUuid raw).toOption

def TenantGet.parse (parseUuid : String → Except String Nat) :
    TenantGet String → Option (TenantGet Nat)
  | .workspaces workspaceId => do
    return .workspaces (← workspaceId.mapM (parsedId parseUuid))
  | .workspace id => do return .workspace (← parsedId parseUuid id)
  | .workspacePlugins workspaceId pluginId => do
    return .workspacePlugins (← workspaceId.mapM (parsedId parseUuid))
      (← pluginId.mapM (parsedId parseUuid))
  | .workspacePlugin workspaceId pluginId => do
    return .workspacePlugin (← parsedId parseUuid workspaceId) (← parsedId parseUuid pluginId)
  | .agentSessions workspaceId state => do
    return .agentSessions (← workspaceId.mapM (parsedId parseUuid)) state
  | .agentSession id => do return .agentSession (← parsedId parseUuid id)
  | .sessionWorkers agentSessionId pluginId live => do
    return .sessionWorkers (← agentSessionId.mapM (parsedId parseUuid))
      (← pluginId.mapM (parsedId parseUuid)) live
  | .sessionWorker id => do return .sessionWorker (← parsedId parseUuid id)

-- ════════════════════════════════════════════════════════════════════════
-- What a request should answer
-- ════════════════════════════════════════════════════════════════════════

/-- The row is stored, and it is the tenant's. -/
def Row.ownedBy (db : Stored) (tenantId : Nat) : Row → Prop
  | .workspace row => row ∈ db.workspaces ∧ row.tenantId = tenantId
  | .workspacePlugin row =>
    row ∈ db.workspacePlugins ∧ ∃ w ∈ db.workspaces, w.id = row.workspaceId ∧ w.tenantId = tenantId
  | .agentSession row => row ∈ db.agentSessions ∧ row.tenantId = tenantId
  | .sessionWorker row =>
    row ∈ db.sessionWorkers ∧
      ∃ s ∈ db.agentSessions, row.agentSessionId = some s.id ∧ s.tenantId = tenantId

/-- The rows of one entity that satisfy the filters, or have the id. -/
def TenantGet.selects : TenantGet Nat → Row → Prop
  | .workspaces workspaceId, .workspace row => ∀ id ∈ workspaceId, row.id = id
  | .workspace id, .workspace row => row.id = id
  | .workspacePlugins workspaceId pluginId, .workspacePlugin row =>
    (∀ id ∈ workspaceId, row.workspaceId = id) ∧ ∀ id ∈ pluginId, row.pluginId = id
  | .workspacePlugin workspaceId pluginId, .workspacePlugin row =>
    row.workspaceId = workspaceId ∧ row.pluginId = pluginId
  | .agentSessions workspaceId state, .agentSession row =>
    (∀ id ∈ workspaceId, row.workspaceId = id) ∧ ∀ s ∈ state, row.state = s
  | .agentSession id, .agentSession row => row.id = id
  | .sessionWorkers agentSessionId pluginId live, .sessionWorker row =>
    (∀ id ∈ agentSessionId, row.agentSessionId = some id) ∧ (∀ id ∈ pluginId, row.pluginId = id) ∧
      ∀ l ∈ live, (l = true ↔ row.reapedAt = none)
  | .sessionWorker id, .sessionWorker row => row.id = id
  | _, _ => False

def TenantGet.isList {ι : Type} : TenantGet ι → Bool
  | .workspaces .. | .workspacePlugins .. | .agentSessions .. | .sessionWorkers .. => true
  | _ => false

/-- A list has the tenant's rows that the filters select, each once; a read by id has
    the tenant's row of the id, and succeeds only if there is one. -/
def Exact (db : Stored) (tenantId : Nat) (get : TenantGet Nat) (reply : Nat × Option Body) : Prop :=
  if get.isList then
    ∃ items : List Row, reply = (200, some (.list ⟨items, items.length⟩)) ∧ items.Nodup ∧
      ∀ row, row ∈ items ↔ row.ownedBy db tenantId ∧ get.selects row
  else
    (reply.1 = 200 → ∃ row, reply = (200, some (.one row))) ∧
      ∀ row, reply = (200, some (.one row)) ↔ row.ownedBy db tenantId ∧ get.selects row

/-- The database carries the statement: the state that is asked for is one a column can
    hold, and the ids a list collects, each a value of its own, are not too many. -/
def Answerable (db : Stored) (tenantId : Nat) : TenantGet Nat → Prop
  | .agentSessions _ state => ∀ s ∈ state, storableText s = true
  | .workspacePlugins workspaceId pluginId =>
    (db.view tenantId).workspaces.length + workspaceId.toList.length + pluginId.toList.length ≤
      Stored.bindLimit
  | .sessionWorkers agentSessionId pluginId _ =>
    (db.view tenantId).agentSessions.length + agentSessionId.toList.length +
      pluginId.toList.length ≤ Stored.bindLimit
  | _ => True

-- ════════════════════════════════════════════════════════════════════════
-- The answer from the tenant's own rows
-- ════════════════════════════════════════════════════════════════════════

/-- What a list answers, when the statement is carried and when it is not. -/
def listed {ρ : Type} (f : ρ → Row) (carried : Bool) (rows : List ρ) : Nat × Option Body :=
  if carried then (200, some ((ListResponse.fromVec rows).body f)) else (500, none)

/-- What a read by id answers. -/
def single {ρ : Type} (f : ρ → Row) : Option ρ → Nat × Option Body
  | some row => (200, some (.one (f row)))
  | none => (404, none)

section

variable {ο : Type} [LinearOrder ο] {collate : String → ο}

/-- Every request, answered from the rows of one tenant. -/
def reply (collate : String → ο) (v : Stored.View) : TenantGet Nat → Nat × Option Body
  | .workspaces workspaceId =>
    listed .workspace true (orderBy (fun w => collate w.name)
      (v.workspaces.filter fun w => workspaceId.all (w.id = ·)))
  | .workspace id => single .workspace (findRow WorkspaceModel.id v.workspaces id)
  | .workspacePlugins workspaceId pluginId =>
    listed .workspacePlugin (v.workspaces.length + workspaceId.toList.length +
        pluginId.toList.length ≤ Stored.bindLimit)
      (orderBy (fun b => toLex (b.workspaceId, b.pluginId)) (v.workspacePlugins.filter fun b =>
        workspaceId.all (b.workspaceId = ·) ∧ pluginId.all (b.pluginId = ·)))
  | .workspacePlugin workspaceId pluginId =>
    single .workspacePlugin
      (findRow (fun b => (b.workspaceId, b.pluginId)) v.workspacePlugins (workspaceId, pluginId))
  | .agentSessions workspaceId state =>
    listed .agentSession (state.all storableText)
      (orderBy (fun s => toLex (OrderDual.toDual s.lastActiveAt, s.id)) (v.agentSessions.filter
        fun s => workspaceId.all (s.workspaceId = ·) ∧ state.all (s.state = ·)))
  | .agentSession id => single .agentSession (findRow AgentSessionModel.id v.agentSessions id)
  | .sessionWorkers agentSessionId pluginId live =>
    listed .sessionWorker (v.agentSessions.length + agentSessionId.toList.length +
        pluginId.toList.length ≤ Stored.bindLimit)
      (orderBy (fun w => toLex (OrderDual.toDual w.spawnedAt, w.id)) (v.sessionWorkers.filter
        fun w => agentSessionId.all (w.agentSessionId = some ·) ∧ pluginId.all (w.pluginId = ·) ∧
          live.all (w.reapedAt.isNone = ·)))
  | .sessionWorker id => single .sessionWorker (findRow SessionWorkerModel.id v.sessionWorkers id)

-- What is read of one answer, before any handler.

variable {ρ : Type} {f : ρ → Row}

theorem answer_fetched {binds : Nat} {texts : List String} {rows : List ρ}
    {sort : List ρ → List ρ} :
    answer (Except.map (ListResponse.body f) (do
      let items ← fetched ((Stored.all binds texts rows).map sort)
      return ListResponse.fromVec items)) =
      listed f (binds ≤ Stored.bindLimit ∧ texts.all storableText = true) (sort rows) := by
  by_cases h : binds ≤ Stored.bindLimit ∧ texts.all storableText = true
  · rw [Stored.all, if_pos h, listed, decide_eq_true h]
    rfl
  · rw [Stored.all, if_neg h, listed, decide_eq_false h]
    rfl

/-- A row that is found and then refused for its owner is a row that is not found. -/
theorem answer_found {row : Option ρ} {p : ρ → Bool} {what : String} {detail : Text.Message}
    {what' : ρ → String} {detail' : ρ → Text.Message} :
    answer ((do
      let row ← found row what detail
      if p row = false then .error (.refused (.notFound (what' row) (detail' row)))
      else return row).map (.one ∘ f)) = single f (row.filter p) := by
  cases row with
  | none => rfl
  | some row =>
    cases h : p row with
    | false =>
      rw [Option.filter_some, h]
      show answer ((if p row = false then _ else _ : Except ReadError ρ).map _) = _
      rw [if_pos h]
      rfl
    | true =>
      rw [Option.filter_some, h]
      show answer ((if p row = false then _ else _ : Except ReadError ρ).map _) = _
      rw [if_neg (by rw [h]; exact nofun)]
      rfl

theorem toList_length_le {α : Type} (value : Option α) : value.toList.length ≤ 1 := by
  cases value with
  | none => exact Nat.zero_le 1
  | some _ => exact le_refl 1

/-- A list by the ids of the parents, with its short cut. -/
theorem answer_collected {κ : Type} [LinearOrder κ] {place : ρ → κ} {ids : List Nat}
    {a b : Option Nat} {rows : List ρ} (hnil : ids = [] → rows = []) :
    answer (Except.map (ListResponse.body f) (if ids.isEmpty then return .fromVec []
      else do
        let items ← fetched
          ((Stored.all (ids.length + a.toList.length + b.toList.length) [] rows).map (orderBy place))
        return .fromVec items)) =
      listed f (ids.length + a.toList.length + b.toList.length ≤ Stored.bindLimit)
        (orderBy place rows) := by
  cases ids with
  | nil =>
    have hlimit : a.toList.length + b.toList.length ≤ Stored.bindLimit :=
      (Nat.add_le_add (toList_length_le a) (toList_length_le b)).trans (by decide)
    rw [hnil rfl, orderBy_nil, List.length_nil, Nat.zero_add, decide_eq_true hlimit]
    rfl
  | cons id ids =>
    rw [if_neg (by exact nofun)]
    refine answer_fetched.trans ?_
    simp only [List.all_nil, and_true]

theorem fetched_all {binds : Nat} {rows : List ρ} {α : Type} {g : List ρ → α}
    (h : binds ≤ Stored.bindLimit) :
    fetched ((Stored.all binds [] rows).map g) = .ok (g rows) := by
  rw [Stored.all_of_le h]
  rfl

-- Ownership through a parent: by its id in a list, and by looking it up.

section

variable {db : Stored} {tenantId : Nat}

theorem mem_workspaceIds {row : WorkspacePluginModel} :
    row.workspaceId ∈ (db.workspaces.filter fun w => w.tenantId = tenantId).map (·.id) ↔
      db.ownsBinding tenantId row = true := by
  simp only [List.mem_map, List.mem_filter, Stored.ownsBinding, List.any_eq_true,
    decide_eq_true_eq, and_assoc]
  exact exists_congr fun w => and_congr_right fun _ => And.comm

theorem any_mem_sessionIds {row : SessionWorkerModel} :
    (row.agentSessionId.any fun id =>
        decide (id ∈ (db.agentSessions.filter fun s => s.tenantId = tenantId).map (·.id))) =
      db.ownsWorker tenantId row := by
  rw [Bool.eq_iff_iff]
  simp only [Option.any_eq_true, decide_eq_true_eq, List.mem_map, List.mem_filter,
    Stored.ownsWorker, List.any_eq_true]
  constructor
  · rintro ⟨_, hid, s, ⟨hs, howner⟩, rfl⟩
    exact ⟨s, hs, hid, howner⟩
  · rintro ⟨s, hs, hid, howner⟩
    exact ⟨s.id, hid, s, ⟨hs, howner⟩, rfl⟩

theorem ownsBinding_eq (hdb : db.Sound) (row : WorkspacePluginModel) :
    db.ownsBinding tenantId row =
      (findRow WorkspaceModel.id db.workspaces row.workspaceId).any (·.tenantId = tenantId) := by
  rw [← any_findRow hdb.workspaces, Stored.ownsBinding]
  simp only [decide_eq_true_eq]

theorem ownsWorker_eq (hdb : db.Sound) (row : SessionWorkerModel) :
    db.ownsWorker tenantId row = row.agentSessionId.any fun id =>
      (findRow AgentSessionModel.id db.agentSessions id).any (·.tenantId = tenantId) := by
  cases hlink : row.agentSessionId with
  | none => simp [Stored.ownsWorker, hlink]
  | some id =>
    rw [Option.any_some, ← any_findRow hdb.agentSessions, Stored.ownsWorker]
    simp only [hlink, Option.some.injEq, decide_eq_true_eq, @eq_comm _ id]

end

-- The handlers, once the tenant is resolved and the ids are parsed.

variable {parseUuid : String → Except String Nat} {caller : Caller} {db : Stored}
  {tenantName : String} {tenantId : Nat}

theorem parseId_eq_ok {what raw : String} {id : Nat} (h : parsedId parseUuid raw = some id) :
    parseId parseUuid what raw = .ok id := by
  rw [parsedId] at h
  rw [parseId]
  cases hparse : parseUuid raw with
  | error err => rw [hparse] at h; cases h
  | ok id' =>
    rw [hparse] at h
    cases h
    rfl

theorem parseFilter_eq_ok {what : String} {raw : Option String} {id : Option Nat}
    (h : raw.mapM (parsedId parseUuid) = some id) : parseFilter parseUuid what raw = .ok id := by
  cases raw with
  | none =>
    cases h
    rfl
  | some raw =>
    obtain ⟨id', hid, rfl⟩ := Option.map_eq_some_iff.mp h
    rw [parseFilter, parseId_eq_ok hid]
    rfl

variable (hcheck : checkTenant caller tenantName = .ok ())
  (hresolve : resolveTenantId db tenantName = .ok tenantId)
include hcheck hresolve

theorem answer_listWorkspaces {raw : Option String} {workspaceId : Option Nat}
    (hws : raw.mapM (parsedId parseUuid) = some workspaceId) :
    answer ((listWorkspaces collate parseUuid caller db tenantName raw).map (·.body .workspace)) =
      reply collate (db.view tenantId) (.workspaces workspaceId) := by
  have hlimit : 1 + workspaceId.toList.length ≤ Stored.bindLimit :=
    (Nat.add_le_add_left (toList_length_le workspaceId) 1).trans (by decide)
  rw [listWorkspaces, hcheck, hresolve, parseFilter_eq_ok hws]
  refine answer_fetched.trans ?_
  rw [decide_eq_true ⟨hlimit, rfl⟩, reply, Stored.view, List.filter_filter]
  simp only [Bool.decide_and, Bool.decide_eq_true, Bool.and_comm]

theorem answer_getWorkspace (hdb : db.Sound) {raw : String} {id : Nat}
    (hid : parsedId parseUuid raw = some id) :
    answer ((getWorkspace parseUuid caller db tenantName raw).map (.one ∘ .workspace)) =
      reply collate (db.view tenantId) (.workspace id) := by
  rw [getWorkspace, hcheck, hresolve, parseId_eq_ok hid, reply, Stored.view,
    findRow_filter hdb.workspaces, ← answer_found]
  simp only [decide_eq_false_iff_not]
  rfl

theorem answer_listAgentSessions {raw : Option String} {workspaceId : Option Nat}
    {state : Option String} (hws : raw.mapM (parsedId parseUuid) = some workspaceId) :
    answer ((listAgentSessions parseUuid caller db tenantName raw state).map
        (·.body .agentSession)) =
      reply collate (db.view tenantId) (.agentSessions workspaceId state) := by
  have hlimit : 1 + workspaceId.toList.length + state.toList.length ≤ Stored.bindLimit :=
    (Nat.add_le_add (Nat.add_le_add_left (toList_length_le workspaceId) 1)
      (toList_length_le state)).trans (by decide)
  have htexts : state.toList.all storableText = state.all storableText := by
    cases state with
    | none => rfl
    | some s => exact Bool.and_true _
  rw [listAgentSessions, hcheck, parseFilter_eq_ok hws, hresolve]
  refine answer_fetched.trans ?_
  rw [htexts, reply, Stored.view, List.filter_filter]
  simp only [hlimit, true_and, Bool.decide_eq_true, Bool.decide_and, Bool.and_comm]

theorem answer_getAgentSession (hdb : db.Sound) {raw : String} {id : Nat}
    (hid : parsedId parseUuid raw = some id) :
    answer ((getAgentSession parseUuid caller db tenantName raw).map (.one ∘ .agentSession)) =
      reply collate (db.view tenantId) (.agentSession id) := by
  rw [getAgentSession, hcheck, hresolve, parseId_eq_ok hid, reply, Stored.view,
    findRow_filter hdb.agentSessions, ← answer_found]
  simp only [decide_eq_false_iff_not]
  rfl

theorem answer_listWorkspacePlugins {rawWs rawPl : Option String} {workspaceId pluginId : Option Nat}
    (hws : rawWs.mapM (parsedId parseUuid) = some workspaceId)
    (hpl : rawPl.mapM (parsedId parseUuid) = some pluginId) :
    answer ((listWorkspacePlugins parseUuid caller db tenantName rawWs rawPl).map
        (·.body .workspacePlugin)) =
      reply collate (db.view tenantId) (.workspacePlugins workspaceId pluginId) := by
  have hids : fetched (dbListWorkspaceIdsForTenant db tenantId) =
      .ok ((db.view tenantId).workspaces.map (·.id)) := fetched_all (by decide)
  rw [listWorkspacePlugins, hcheck, ok_bind, parseFilter_eq_ok hws, ok_bind,
    parseFilter_eq_ok hpl, ok_bind, hresolve, ok_bind, hids, ok_bind, dbListWorkspacePlugins]
  refine (answer_collected fun hnil => ?_).trans ?_
  · refine List.filter_eq_nil_iff.mpr fun row _ hrow => ?_
    rw [hnil, decide_eq_true_eq] at hrow
    exact absurd hrow.1 List.not_mem_nil
  · rw [reply, List.length_map]
    simp only [Stored.view, List.filter_filter, mem_workspaceIds, Bool.decide_and,
      Bool.decide_eq_true, Bool.and_comm]

theorem answer_listSessionWorkers {rawSession rawPl : Option String}
    {agentSessionId pluginId : Option Nat} {live : Option Bool}
    (hsession : rawSession.mapM (parsedId parseUuid) = some agentSessionId)
    (hpl : rawPl.mapM (parsedId parseUuid) = some pluginId) :
    answer ((listSessionWorkers parseUuid caller db tenantName rawSession rawPl live).map
        (·.body .sessionWorker)) =
      reply collate (db.view tenantId) (.sessionWorkers agentSessionId pluginId live) := by
  have hids : fetched (dbListAgentSessionIdsForTenant db tenantId) =
      .ok ((db.view tenantId).agentSessions.map (·.id)) := fetched_all (by decide)
  rw [listSessionWorkers, hcheck, ok_bind, parseFilter_eq_ok hsession, ok_bind,
    parseFilter_eq_ok hpl, ok_bind, hresolve, ok_bind, hids, ok_bind, dbListSessionWorkers]
  refine (answer_collected fun hnil => ?_).trans ?_
  · refine List.filter_eq_nil_iff.mpr fun row _ hrow => ?_
    rw [hnil, decide_eq_true_eq, Option.any_eq_true] at hrow
    obtain ⟨⟨id, _, hid⟩, _⟩ := hrow
    exact absurd (of_decide_eq_true hid) List.not_mem_nil
  · rw [reply, List.length_map]
    refine congrArg (listed _ _) (congrArg (orderBy _) ?_)
    rw [Stored.view, List.filter_filter]
    refine List.filter_congr fun row _ => ?_
    rw [Bool.eq_iff_iff, any_mem_sessionIds]
    simp only [decide_eq_true_eq, Bool.and_eq_true, and_comm]

theorem answer_getWorkspacePlugin (hdb : db.Sound) {rawWs rawPl : String} {workspaceId pluginId : Nat}
    (hws : parsedId parseUuid rawWs = some workspaceId)
    (hpl : parsedId parseUuid rawPl = some pluginId) :
    answer ((getWorkspacePlugin parseUuid caller db tenantName rawWs rawPl).map
        (.one ∘ .workspacePlugin)) =
      reply collate (db.view tenantId) (.workspacePlugin workspaceId pluginId) := by
  rw [getWorkspacePlugin, hcheck, ok_bind, hresolve, ok_bind, parseId_eq_ok hws, ok_bind,
    parseId_eq_ok hpl, ok_bind, reply, Stored.view, findRow_filter hdb.workspacePlugins]
  -- The binding that is found is one of the workspace that is looked up.
  have howns : ∀ row, findRow (fun b : WorkspacePluginModel => (b.workspaceId, b.pluginId))
      db.workspacePlugins (workspaceId, pluginId) = some row → db.ownsBinding tenantId row =
        (findRow WorkspaceModel.id db.workspaces workspaceId).any (·.tenantId = tenantId) := by
    intro row hrow
    have hkey := (findRow_eq_some hrow).2
    rw [ownsBinding_eq hdb, (Prod.mk.inj hkey).1]
  simp only [dbGetWorkspace, dbGetWorkspacePlugin]
  generalize findRow (fun b : WorkspacePluginModel => (b.workspaceId, b.pluginId))
    db.workspacePlugins (workspaceId, pluginId) = binding at howns ⊢
  cases hw : findRow WorkspaceModel.id db.workspaces workspaceId with
  | none =>
    rw [hw] at howns
    cases binding with
    | none => rfl
    | some row =>
      rw [Option.filter_some, howns row rfl]
      rfl
  | some w =>
    rw [hw] at howns
    show answer (Except.map _ (if w.tenantId ≠ tenantId then _ else _)) = _
    by_cases howner : w.tenantId = tenantId
    · rw [if_neg (not_not.mpr howner)]
      cases binding with
      | none => rfl
      | some row =>
        rw [Option.filter_some, howns row rfl, Option.any_some, decide_eq_true howner]
        rfl
    · rw [if_pos howner]
      cases binding with
      | none => rfl
      | some row =>
        rw [Option.filter_some, howns row rfl, Option.any_some, decide_eq_false howner]
        rfl

theorem answer_getSessionWorker (hdb : db.Sound) {raw : String} {id : Nat}
    (hid : parsedId parseUuid raw = some id) :
    answer ((getSessionWorker parseUuid caller db tenantName raw).map (.one ∘ .sessionWorker)) =
      reply collate (db.view tenantId) (.sessionWorker id) := by
  rw [getSessionWorker, hcheck, ok_bind, hresolve, ok_bind, parseId_eq_ok hid, ok_bind, reply,
    Stored.view, findRow_filter hdb.sessionWorkers]
  simp only [dbGetSessionWorker, dbGetAgentSession]
  cases findRow SessionWorkerModel.id db.sessionWorkers id with
  | none => rfl
  | some row =>
    rw [Option.filter_some, ownsWorker_eq hdb]
    show answer (Except.map _ (match row.agentSessionId with | none => _ | some sessionId => _)) = _
    cases row.agentSessionId with
    | none => rfl
    | some sessionId =>
      rw [Option.any_some]
      dsimp only
      cases findRow AgentSessionModel.id db.agentSessions sessionId with
      | none => rfl
      | some session =>
        show answer (Except.map _ (if session.tenantId ≠ tenantId then _ else _)) = _
        rw [Option.any_some]
        by_cases howner : session.tenantId = tenantId
        · rw [if_neg (not_not.mpr howner), decide_eq_true howner]
          rfl
        · rw [if_pos howner, decide_eq_false howner]
          rfl

end

-- ════════════════════════════════════════════════════════════════════════
-- Whole requests
-- ════════════════════════════════════════════════════════════════════════

section

variable {ο : Type} [LinearOrder ο] {collate : String → ο} {parseUuid : String → Except String Nat}
  {caller : Caller} {db : Stored} {tenant : TenantModel}

/-- The name of a tenant that passes the check can be asked for. -/
theorem storableText_of_check
    (hcheck : checkTenantConsistency caller tenant.name = .ok ()) :
    storableText tenant.name = true := by
  obtain ⟨_, hname, _⟩ := bind_eq_ok.mp hcheck
  have hchars := (validateTenantName_eq_ok.mp (checkName_eq_ok.mp hname)).1
  simp only [isName, Bool.and_eq_true] at hchars
  rw [storableText, Bool.not_eq_true', ← Bool.not_eq_true, List.contains_iff_mem]
  intro hnul
  exact absurd (List.all_eq_true.mp hchars.2 _ hnul) (by decide)

theorem resolveTenantId_eq_ok (hdb : db.Sound) (htenant : tenant ∈ db.tenants)
    (hcheck : checkTenantConsistency caller tenant.name = .ok ()) :
    resolveTenantId db tenant.name = .ok tenant.id := by
  have hcarried : 1 ≤ Stored.bindLimit ∧ [tenant.name].all storableText = true :=
    ⟨by decide, by rw [List.all_cons, storableText_of_check hcheck]; rfl⟩
  have hfind : findRow TenantModel.name db.tenants tenant.name = some tenant :=
    (findRow_eq_some_iff hdb.tenantNames).mpr ⟨htenant, rfl⟩
  rw [resolveTenantId, dbResolveTenantId, Stored.all, if_pos hcarried, Option.map_some,
    List.head?_filter]
  rw [findRow] at hfind
  rw [hfind]
  rfl

theorem answer_serve (hdb : db.Sound) (htenant : tenant ∈ db.tenants)
    (hcheck : checkTenantConsistency caller tenant.name = .ok ()) {get : TenantGet String}
    {asked : TenantGet Nat} (hparse : get.parse parseUuid = some asked) :
    answer (serve collate parseUuid caller db tenant.name get) =
      reply collate (db.view tenant.id) asked := by
  have hresolve := resolveTenantId_eq_ok hdb htenant hcheck
  have hpass : checkTenant caller tenant.name = .ok () := by
    rw [checkTenant, hcheck]
    rfl
  cases get with
  | workspaces workspaceId =>
    obtain ⟨_, hws, h⟩ := Option.bind_eq_some_iff.mp hparse
    cases h
    exact answer_listWorkspaces hpass hresolve hws
  | workspace id =>
    obtain ⟨_, hid, h⟩ := Option.bind_eq_some_iff.mp hparse
    cases h
    exact answer_getWorkspace hpass hresolve hdb hid
  | workspacePlugins workspaceId pluginId =>
    obtain ⟨_, hws, h⟩ := Option.bind_eq_some_iff.mp hparse
    obtain ⟨_, hpl, h⟩ := Option.bind_eq_some_iff.mp h
    cases h
    exact answer_listWorkspacePlugins hpass hresolve hws hpl
  | workspacePlugin workspaceId pluginId =>
    obtain ⟨_, hws, h⟩ := Option.bind_eq_some_iff.mp hparse
    obtain ⟨_, hpl, h⟩ := Option.bind_eq_some_iff.mp h
    cases h
    exact answer_getWorkspacePlugin hpass hresolve hdb hws hpl
  | agentSessions workspaceId state =>
    obtain ⟨_, hws, h⟩ := Option.bind_eq_some_iff.mp hparse
    cases h
    exact answer_listAgentSessions hpass hresolve hws
  | agentSession id =>
    obtain ⟨_, hid, h⟩ := Option.bind_eq_some_iff.mp hparse
    cases h
    exact answer_getAgentSession hpass hresolve hdb hid
  | sessionWorkers agentSessionId pluginId live =>
    obtain ⟨_, hsession, h⟩ := Option.bind_eq_some_iff.mp hparse
    obtain ⟨_, hpl, h⟩ := Option.bind_eq_some_iff.mp h
    cases h
    exact answer_listSessionWorkers hpass hresolve hsession hpl
  | sessionWorker id =>
    obtain ⟨_, hid, h⟩ := Option.bind_eq_some_iff.mp hparse
    cases h
    exact answer_getSessionWorker hpass hresolve hdb hid

-- An id that is none.

theorem parseId_eq_error (what : String) {raw : String} (h : parsedId parseUuid raw = none) :
    ∃ detail, parseId parseUuid what raw = .error (.badRequest detail) := by
  rw [parsedId] at h
  rw [parseId]
  cases hparse : parseUuid raw with
  | error err => exact ⟨_, rfl⟩
  | ok id =>
    rw [hparse] at h
    cases h

theorem parseFilter_eq_error (what : String) {raw : Option String}
    (h : raw.mapM (parsedId parseUuid) = none) :
    ∃ detail, parseFilter parseUuid what raw = .error (.badRequest detail) := by
  cases raw with
  | none => cases h
  | some raw =>
    obtain ⟨detail, hid⟩ := parseId_eq_error what (Option.map_eq_none_iff.mp h)
    exact ⟨detail, by rw [parseFilter, hid, error_bind]⟩

theorem answer_serve_garbage (hdb : db.Sound) (htenant : tenant ∈ db.tenants)
    (hcheck : checkTenantConsistency caller tenant.name = .ok ()) {get : TenantGet String}
    (hparse : get.parse parseUuid = none) :
    answer (serve collate parseUuid caller db tenant.name get) = (400, none) := by
  have hresolve := resolveTenantId_eq_ok hdb htenant hcheck
  have hpass : checkTenant caller tenant.name = .ok () := by
    rw [checkTenant, hcheck]
    rfl
  have hid : ∀ {what raw : String} {ρ : Type} (f : ρ → Body) (rest : Nat → Except ReadError ρ),
      parsedId parseUuid raw = none →
        answer ((parseId parseUuid what raw >>= rest).map f) = (400, none) := by
    intro what raw ρ f rest h
    obtain ⟨detail, herr⟩ := parseId_eq_error what h
    rw [herr]
    rfl
  have hfilter : ∀ {what : String} {raw : Option String} {ρ : Type} (f : ρ → Body)
      (rest : Option Nat → Except ReadError ρ), raw.mapM (parsedId parseUuid) = none →
        answer ((parseFilter parseUuid what raw >>= rest).map f) = (400, none) := by
    intro what raw ρ f rest h
    obtain ⟨detail, herr⟩ := parseFilter_eq_error what h
    rw [herr]
    rfl
  cases get with
  | workspaces workspaceId =>
    rw [serve, listWorkspaces, hpass, ok_bind, hresolve, ok_bind]
    cases hws : workspaceId.mapM (parsedId parseUuid) with
    | none => exact hfilter _ _ hws
    | some _ => simp [TenantGet.parse, hws] at hparse
  | workspace id =>
    rw [serve, getWorkspace, hpass, ok_bind, hresolve, ok_bind]
    cases h : parsedId parseUuid id with
    | none => exact hid _ _ h
    | some _ => simp [TenantGet.parse, h] at hparse
  | workspacePlugins workspaceId pluginId =>
    rw [serve, listWorkspacePlugins, hpass, ok_bind]
    cases hws : workspaceId.mapM (parsedId parseUuid) with
    | none => exact hfilter _ _ hws
    | some _ =>
      rw [parseFilter_eq_ok hws, ok_bind]
      cases hpl : pluginId.mapM (parsedId parseUuid) with
      | none => exact hfilter _ _ hpl
      | some _ => simp [TenantGet.parse, hws, hpl] at hparse
  | workspacePlugin workspaceId pluginId =>
    rw [serve, getWorkspacePlugin, hpass, ok_bind, hresolve, ok_bind]
    cases hws : parsedId parseUuid workspaceId with
    | none => exact hid _ _ hws
    | some _ =>
      rw [parseId_eq_ok hws, ok_bind]
      cases hpl : parsedId parseUuid pluginId with
      | none => exact hid _ _ hpl
      | some _ => simp [TenantGet.parse, hws, hpl] at hparse
  | agentSessions workspaceId state =>
    rw [serve, listAgentSessions, hpass, ok_bind]
    cases hws : workspaceId.mapM (parsedId parseUuid) with
    | none => exact hfilter _ _ hws
    | some _ => simp [TenantGet.parse, hws] at hparse
  | agentSession id =>
    rw [serve, getAgentSession, hpass, ok_bind, hresolve, ok_bind]
    cases h : parsedId parseUuid id with
    | none => exact hid _ _ h
    | some _ => simp [TenantGet.parse, h] at hparse
  | sessionWorkers agentSessionId pluginId live =>
    rw [serve, listSessionWorkers, hpass, ok_bind]
    cases hws : agentSessionId.mapM (parsedId parseUuid) with
    | none => exact hfilter _ _ hws
    | some _ =>
      rw [parseFilter_eq_ok hws, ok_bind]
      cases hpl : pluginId.mapM (parsedId parseUuid) with
      | none => exact hfilter _ _ hpl
      | some _ => simp [TenantGet.parse, hws, hpl] at hparse
  | sessionWorker id =>
    rw [serve, getSessionWorker, hpass, ok_bind, hresolve, ok_bind]
    cases h : parsedId parseUuid id with
    | none => exact hid _ _ h
    | some _ => simp [TenantGet.parse, h] at hparse

end

-- ════════════════════════════════════════════════════════════════════════
-- The answer is isolated
-- ════════════════════════════════════════════════════════════════════════

section

variable {ο : Type} [LinearOrder ο] {collate : String → ο} {v v' : Stored.View}

theorem listed_congr {ρ κ : Type} [LinearOrder κ] {f : ρ → Row} {carried carried' : Bool}
    {place : ρ → κ} {rows rows' : List ρ} {p : ρ → Bool} (hcarried : carried = carried')
    (h : Keyed place rows) (hperm : rows.Perm rows') :
    listed f carried (orderBy place (rows.filter p)) =
      listed f carried' (orderBy place (rows'.filter p)) := by
  rw [hcarried, orderBy_congr (h.filter p) (hperm.filter p)]

theorem keyed_place {ρ : Type} {time id : ρ → Nat} {rows : List ρ} (h : Keyed id rows) :
    Keyed (fun row => toLex (OrderDual.toDual (time row), id row)) rows :=
  Keyed.of_comp (f := fun place => (ofLex place).2) h

/-- The same rows, in whatever order, give the same answer. -/
theorem reply_same (hcollate : Function.Injective collate) (hv : v.Sound) (h : v.Same v')
    (get : TenantGet Nat) : reply collate v get = reply collate v' get := by
  cases get with
  | workspaces workspaceId =>
    have hplace : Keyed (fun w => collate w.name) v.workspaces := by
      have hnames := (hv.workspaceNames.map hcollate : (v.workspaces.map _ |>.map collate).Nodup)
      rwa [List.map_map] at hnames
    exact listed_congr rfl hplace h.workspaces
  | workspace id =>
    rw [reply, reply, findRow_perm hv.workspaces h.workspaces]
  | workspacePlugins workspaceId pluginId =>
    rw [reply, reply, h.workspaces.length_eq]
    have hplace : Keyed (fun b => toLex (b.workspaceId, b.pluginId)) v.workspacePlugins :=
      Keyed.of_comp (f := ofLex) hv.workspacePlugins
    exact listed_congr rfl hplace h.workspacePlugins
  | workspacePlugin workspaceId pluginId =>
    rw [reply, reply, findRow_perm hv.workspacePlugins h.workspacePlugins]
  | agentSessions workspaceId state =>
    exact listed_congr rfl (keyed_place hv.agentSessions) h.agentSessions
  | agentSession id =>
    rw [reply, reply, findRow_perm hv.agentSessions h.agentSessions]
  | sessionWorkers agentSessionId pluginId live =>
    rw [reply, reply, h.agentSessions.length_eq]
    exact listed_congr rfl (keyed_place hv.sessionWorkers) h.sessionWorkers
  | sessionWorker id =>
    rw [reply, reply, findRow_perm hv.sessionWorkers h.sessionWorkers]

end

-- ════════════════════════════════════════════════════════════════════════
-- The answer is exact
-- ════════════════════════════════════════════════════════════════════════

section

variable {ρ : Type} {f : ρ → Row} {rows : List ρ} {P : Row → Prop}

/-- A list that is carried is exact, and no other is. -/
theorem exact_listed {κ : Type} [LinearOrder κ] {place : ρ → κ} {carried : Bool}
    (hf : Function.Injective f) (hnodup : rows.Nodup)
    (hrows : ∀ row, (∃ r ∈ rows, f r = row) ↔ P row) :
    (∃ items : List Row, listed f carried (orderBy place rows) =
        (200, some (.list ⟨items, items.length⟩)) ∧ items.Nodup ∧ ∀ row, row ∈ items ↔ P row) ↔
      carried = true := by
  constructor
  · rintro ⟨items, hlisted, -⟩
    cases carried with
    | true => rfl
    | false => cases hlisted
  · rintro rfl
    refine ⟨(orderBy place rows).map f, ?_, ?_, fun row => ?_⟩
    · rw [List.length_map]
      rfl
    · exact (orderBy_perm.nodup_iff.mpr hnodup).map hf
    · rw [List.mem_map, ← hrows]
      exact exists_congr fun r => and_congr_left fun _ => mem_orderBy

theorem exact_single {found : Option ρ}
    (hfound : ∀ row, (∃ r, found = some r ∧ f r = row) ↔ P row) :
    ((single f found).1 = 200 → ∃ row, single f found = (200, some (.one row))) ∧
      ∀ row, single f found = (200, some (.one row)) ↔ P row := by
  constructor
  · intro h
    cases found with
    | none => exact absurd (show 404 = 200 from h) (by decide)
    | some r => exact ⟨f r, rfl⟩
  · intro row
    rw [← hfound row]
    constructor
    · intro h
      cases found with
      | none => cases h
      | some r =>
        cases h
        exact ⟨r, rfl, rfl⟩
    · rintro ⟨r, rfl, rfl⟩
      rfl

end

section

variable {ο : Type} [LinearOrder ο] {collate : String → ο} {db : Stored} {tenantId : Nat}

theorem mem_view_workspaces {row : WorkspaceModel} :
    row ∈ (db.view tenantId).workspaces ↔ (Row.workspace row).ownedBy db tenantId := by
  rw [Stored.view, List.mem_filter, decide_eq_true_eq]
  rfl

theorem mem_view_agentSessions {row : AgentSessionModel} :
    row ∈ (db.view tenantId).agentSessions ↔ (Row.agentSession row).ownedBy db tenantId := by
  rw [Stored.view, List.mem_filter, decide_eq_true_eq]
  rfl

theorem mem_view_workspacePlugins {row : WorkspacePluginModel} :
    row ∈ (db.view tenantId).workspacePlugins ↔ (Row.workspacePlugin row).ownedBy db tenantId := by
  rw [Stored.view, List.mem_filter, Stored.ownsBinding, List.any_eq_true]
  simp only [decide_eq_true_eq]
  rfl

theorem mem_view_sessionWorkers {row : SessionWorkerModel} :
    row ∈ (db.view tenantId).sessionWorkers ↔ (Row.sessionWorker row).ownedBy db tenantId := by
  rw [Stored.view, List.mem_filter, Stored.ownsWorker, List.any_eq_true]
  simp only [decide_eq_true_eq]
  rfl

theorem all_eq_some {α : Type} [DecidableEq α] {value : Option α} {a : α} :
    (value.all fun x => decide (a = x)) = true ↔ ∀ x ∈ value, a = x := by
  rw [Option.all_eq_true]
  simp only [decide_eq_true_eq, Option.mem_def]

theorem exact_reply (hdb : db.Sound) (get : TenantGet Nat) :
    Exact db tenantId get (reply collate (db.view tenantId) get) ↔ Answerable db tenantId get := by
  have hview := hdb.view tenantId
  cases get with
  | workspaces workspaceId =>
    refine (exact_listed (fun _ _ => Row.workspace.inj) (hview.workspaces.filter _).nodup
      fun row => ?_).trans (iff_of_true rfl trivial)
    cases row with
    | workspace r =>
      simp [TenantGet.selects, ← mem_view_workspaces, all_eq_some]
    | _ => simp [TenantGet.selects]
  | workspace id =>
    refine iff_of_true (exact_single (f := .workspace) fun row => ?_) trivial
    simp only [findRow_eq_some_iff hview.workspaces]
    cases row with
    | workspace r => simp [TenantGet.selects, mem_view_workspaces]
    | _ => simp [TenantGet.selects]
  | workspacePlugins workspaceId pluginId =>
    refine (exact_listed (fun _ _ => Row.workspacePlugin.inj)
      (hview.workspacePlugins.filter _).nodup fun row => ?_).trans decide_eq_true_iff
    cases row with
    | workspacePlugin r =>
      simp [TenantGet.selects, ← mem_view_workspacePlugins, all_eq_some]
    | _ => simp [TenantGet.selects]
  | workspacePlugin workspaceId pluginId =>
    refine iff_of_true (exact_single (f := .workspacePlugin) fun row => ?_) trivial
    simp only [findRow_eq_some_iff hview.workspacePlugins]
    cases row with
    | workspacePlugin r => simp [TenantGet.selects, mem_view_workspacePlugins]
    | _ => simp [TenantGet.selects]
  | agentSessions workspaceId state =>
    refine (exact_listed (fun _ _ => Row.agentSession.inj)
      (hview.agentSessions.filter _).nodup fun row => ?_).trans (Option.all_eq_true _ _)
    cases row with
    | agentSession r =>
      simp [TenantGet.selects, ← mem_view_agentSessions, all_eq_some]
    | _ => simp [TenantGet.selects]
  | agentSession id =>
    refine iff_of_true (exact_single (f := .agentSession) fun row => ?_) trivial
    simp only [findRow_eq_some_iff hview.agentSessions]
    cases row with
    | agentSession r => simp [TenantGet.selects, mem_view_agentSessions]
    | _ => simp [TenantGet.selects]
  | sessionWorkers agentSessionId pluginId live =>
    refine (exact_listed (fun _ _ => Row.sessionWorker.inj)
      (hview.sessionWorkers.filter _).nodup fun row => ?_).trans decide_eq_true_iff
    cases row with
    | sessionWorker r =>
      have hlive : ∀ l, r.reapedAt.isNone = l ↔ (l = true ↔ r.reapedAt = none) := by
        intro l
        rw [Bool.eq_iff_iff, Option.isNone_iff_eq_none]
        exact iff_comm
      simp only [List.mem_filter, decide_eq_true_eq, Row.sessionWorker.injEq, exists_eq_right,
        TenantGet.selects, ← mem_view_sessionWorkers, hlive, Option.all_eq_true, Option.mem_def]
    | _ => simp [TenantGet.selects]
  | sessionWorker id =>
    refine iff_of_true (exact_single (f := .sessionWorker) fun row => ?_) trivial
    simp only [findRow_eq_some_iff hview.sessionWorkers]
    cases row with
    | sessionWorker r => simp [TenantGet.selects, mem_view_sessionWorkers]
    | _ => simp [TenantGet.selects]

end

-- ════════════════════════════════════════════════════════════════════════
-- Exact and isolated
-- ════════════════════════════════════════════════════════════════════════

/-- What the tenant reads is the same in every state with the same rows of the tenant;
    an id that is none is a 400; and the answer to anything else is exact if and only
    if the database carries the statement. -/
theorem tenant_reads {ο : Type} [LinearOrder ο] {collate : String → ο}
    (hcollate : Function.Injective collate) (parseUuid : String → Except String Nat)
    {db : Stored} (hdb : db.Sound) {tenant : TenantModel} (htenant : tenant ∈ db.tenants)
    {caller : Caller} (hcheck : checkTenantConsistency caller tenant.name = .ok ())
    (get : TenantGet String) :
    (∀ db' : Stored, db'.Sound → tenant ∈ db'.tenants →
      (db.view tenant.id).Same (db'.view tenant.id) →
        answer (serve collate parseUuid caller db' tenant.name get) =
          answer (serve collate parseUuid caller db tenant.name get)) ∧
    (get.parse parseUuid = none →
      answer (serve collate parseUuid caller db tenant.name get) = (400, none)) ∧
    ∀ asked, get.parse parseUuid = some asked →
      (Exact db tenant.id asked (answer (serve collate parseUuid caller db tenant.name get)) ↔
        Answerable db tenant.id asked) := by
  refine ⟨fun db' hdb' htenant' hsame => ?_, answer_serve_garbage hdb htenant hcheck,
    fun asked hparse => ?_⟩
  · cases hparse : get.parse parseUuid with
    | none =>
      rw [answer_serve_garbage hdb htenant hcheck hparse,
        answer_serve_garbage hdb' htenant' hcheck hparse]
    | some asked =>
      rw [answer_serve hdb htenant hcheck hparse, answer_serve hdb' htenant' hcheck hparse,
        reply_same hcollate (hdb.view tenant.id) hsame]
  · rw [answer_serve hdb htenant hcheck hparse]
    exact exact_reply hdb asked

def acme : TenantModel := ⟨1, "acme", 0, 0⟩

/-- One tenant with one session. -/
def acmeDb : Stored where
  tenants := [acme]
  workspaces := [⟨2, 1, "main", 0, 0⟩]
  workspacePlugins := []
  agentSessions := [⟨3, 1, 2, "agent-1", "active", 0, 5, 0⟩]
  sessionWorkers := []

def acmeCaller : Caller := ⟨false, some "acme"⟩

def noUuid (raw : String) : Except String Nat := .error s!"not an id: {raw}"

theorem acmeDb_sound : acmeDb.Sound :=
  ⟨by decide, by decide, by decide, by decide, by decide, by decide, by decide⟩

/-- `?state=%00` asks for a state that no row has, and is a 500. -/
theorem nul_state_internal :
    answer (serve id noUuid acmeCaller acmeDb "acme" (.agentSessions none (some "\x00"))) =
        (500, none) ∧
      ¬ Exact acmeDb acme.id (.agentSessions none (some "\x00"))
        (answer (serve id noUuid acmeCaller acmeDb "acme"
          (.agentSessions none (some "\x00")))) := by
  have hserve : answer (serve id noUuid acmeCaller acmeDb "acme"
      (.agentSessions none (some "\x00"))) = (500, none) := by decide +kernel
  refine ⟨hserve, ?_⟩
  rw [hserve]
  rintro ⟨items, hitems, -⟩
  cases hitems

theorem tenant_reads_acme :
    Exact acmeDb acme.id (.agentSessions none (some "active"))
      (answer (serve id noUuid acmeCaller acmeDb "acme" (.agentSessions none (some "active")))) :=
  ((tenant_reads Function.injective_id noUuid acmeDb_sound (List.mem_singleton_self acme)
    (by decide +kernel : checkTenantConsistency acmeCaller acme.name = Except.ok ())
    (.agentSessions none (some "active"))).2.2 _ rfl).mpr
    (fun s hs => by cases hs; decide +kernel)

end Botwork.Api.Reads
