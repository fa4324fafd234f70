import Botwork.Api.LiveGate
import Botwork.Foundations.SoloRuns
import Botwork.System.ConfigServer

/-!
# Writes behind the live gate

The three writes that terminate live sessions before they change rows, each with
the API alone on the database and control-plane.  `unavailable_iff` says when their
503, with its promise that nothing was changed, is true.

## Main definitions

- `WriteRequest.gated` — the three writes
- `WriteRequest.triples` — whose sessions they terminate
- `soloApi` — the database and control-plane around one request
- `Unchanged` — rows and session records are those of before
-/

namespace Botwork.System.ConfigServer

open Botwork.Foundations Botwork.ApiCore Botwork.Db Botwork.Api Botwork.ControlPlane

-- ════════════════════════════════════════════════════════════════════════
-- Requests
-- ════════════════════════════════════════════════════════════════════════

def WriteRequest.gated : WriteRequest → Bool
  | .deleteWorkspace _ _ _ | .updateWorkspacePlugin _ _ _ _ _ | .deleteWorkspacePlugin _ _ _ _ => true
  | _ => false

/-- The triples of the bindings of a workspace. -/
def bindingTriples (db : Tables) (tenant workspace : String) (bindings : List BindingRow) :
    List (String × String × String) :=
  bindings.filterMap fun binding =>
    (db.plugins.find? (·.id = binding.pluginId)).map fun plugin => (tenant, workspace, plugin.spec.name)

/-- The triples whose live sessions the write terminates, in their order. -/
def WriteRequest.triples (db : Tables) : WriteRequest → List (String × String × String)
  | .deleteWorkspace _ id _ =>
    match db.workspaces.find? (·.id = id) with
    | none => []
    | some workspace =>
      match db.tenants.find? (·.id = workspace.tenantId) with
      | none => []
      | some tenant => bindingTriples db tenant.name workspace.name
          (db.bindings.filter (·.workspaceId = id))
  | .updateWorkspacePlugin _ workspaceId pluginId _ _ | .deleteWorkspacePlugin _ workspaceId pluginId _ =>
    match resolveTriple db workspaceId pluginId with
    | .ok triple => [triple]
    | .error _ => []
  | _ => []

-- ════════════════════════════════════════════════════════════════════════
-- Alone
-- ════════════════════════════════════════════════════════════════════════

/-- What control-plane answers; invitations are another service's. -/
def answer (client : ControlPlaneClient) : Question → Gate → Option String × Gate
  | .mintInvitation _, gate => (none, gate)
  | .terminateLiveSessions tenant workspace plugin, gate =>
    client.terminateAll [(tenant, workspace, plugin)] gate

def soloApi (client : ControlPlaneClient) (call : CallId) (clock : Nat) :
    Solo RowKey Row Question WriteError Gate where
  clash := Row.clash
  failure := .api .internal
  answer := answer client
  call := call
  clock := clock

abbrev Deployment := SoloState RowKey Row Gate

/-- The committed rows and the session records are those of before; what the request
    has not committed is rolled back. -/
structure Unchanged (call : CallId) (w w' : Deployment) : Prop where
  rows : ∀ key, Table.committed (Table.rollback w'.table call) key = Table.committed w.table key
  records : Untouched w.service.store w'.service.store

/-- What a write does alone, the config server can do with it among others. -/
theorem run_of_soloApi {client : ControlPlaneClient} {double : UInt64 → List Char} {call : CallId}
    {clock : Nat} {s : Server WriteCall RowKey Row Question WriteError}
    {r : Running WriteCall RowKey Row Question WriteError} {gate : Gate}
    {result : Except WriteError Unit} {w' : Deployment}
    (hlook : s.inFlight.lookup call = some r)
    (halone : r.program.alone (soloApi client call clock) ⟨s.table, s.ids, gate⟩ = (result, w')) :
    ∃ s', (configServer double).Run s s' ∧
      s'.results.lookup call = some (r.request, result) ∧ s'.table = Table.rollback w'.table call :=
  Schema.run_of_alone rfl rfl hlook rfl halone

-- ════════════════════════════════════════════════════════════════════════
-- Checks
-- ════════════════════════════════════════════════════════════════════════

def isUnavailable : ApiError → Bool
  | .unavailable _ => true
  | _ => false

/-- The check fails with something other than a 503, if it fails. -/
def Plain {α : Type} (result : Except ApiError α) : Prop :=
  ∀ e, result = .error e → isUnavailable e = false

theorem plain_orNotFound {α : Type} {row : Option α} {what : String} {detail : Text.Message} :
    Plain (orNotFound row what detail) := by
  intro e h
  cases row <;> cases h
  rfl

theorem plain_checkLock {submitted live : Nat} {label : String} : Plain (checkLock submitted live label) := by
  intro e h
  unfold checkLock at h
  split at h <;> cases h
  rfl

theorem plain_checkTenantConsistency {caller : Caller} {tenantName : String} :
    Plain (checkTenantConsistency caller tenantName) := by
  intro e h
  unfold checkTenantConsistency at h
  cases hname : checkName (validateTenantName tenantName) with
  | error e' =>
    rw [hname] at h
    cases h
    cases hvalid : validateTenantName tenantName with
    | ok => simp [hvalid, checkName, Except.mapError] at hname
    | error err =>
      rw [hvalid] at hname
      cases hname
      cases err <;> rfl
  | ok =>
    rw [hname] at h
    change (if caller.tenant = some tenantName then Except.ok () else _) = Except.error e at h
    split at h <;> cases h
    rfl

theorem plain_resolveTenantId {db : Tables} {tenantName : String} :
    Plain (resolveTenantId db tenantName) := by
  intro e h
  unfold resolveTenantId at h
  cases hrow : db.tenants.find? (·.name = tenantName) <;> rw [hrow] at h <;> cases h
  rfl

theorem plain_bindingConfig {config : Option Json} : Plain (bindingConfig config) := by
  intro e h
  unfold bindingConfig at h
  split at h <;> cases h
  rfl

section

-- The request ends with a 503 only in a state that satisfies `P`.

variable {solo : Solo RowKey Row Question WriteError Gate} {w : Deployment} {α : Type}
  {P : Deployment → Prop}

/-- The errors of a request, of which a 503 leaves a state with `P`. -/
def OnError (P : Deployment → Prop) (err : WriteError) (w : Deployment) : Prop :=
  match err with
  | .api e => isUnavailable e = true → P w
  | _ => True

theorem ends_query {ok : Tables → Deployment → Prop} :
    query.Ends solo (OnError P) ok w ↔ ok (tables (Table.snapshot w.table solo.call)) w := Iff.rfl

theorem ends_throwApi {ok : α → Deployment → Prop} {err : ApiError}
    (h : isUnavailable err = true → P w) : (throwApi err : Handler α).Ends solo (OnError P) ok w := h

theorem ends_lift {ok : α → Deployment → Prop} {result : Except ApiError α} (hplain : Plain result)
    (h : ∀ a, result = .ok a → ok a w) : (lift result).Ends solo (OnError P) ok w := by
  cases result with
  | error e =>
    intro hunavailable
    rw [hplain e rfl] at hunavailable
    cases hunavailable
  | ok a => exact h a rfl

theorem ends_checkOptionalLock {ok : Unit → Deployment → Prop} {submitted : Option Nat} {live : Nat}
    {label : String} (h : ok () w) :
    (checkOptionalLock submitted live label).Ends solo (OnError P) ok w := by
  cases submitted with
  | none => exact h
  | some lock => exact ends_lift plain_checkLock fun _ _ => h

/-- The statements that follow the terminations do not answer 503. -/
theorem ends_updateRow {key : RowKey} {set : Row → Row} (hfailure : solo.failure = .api .internal) :
    (do updateRow key set; Program.commitWork : Handler Unit).Ends solo (OnError P)
      (fun _ _ => True) w := by
  refine Program.ends_bind.mpr (Program.ends_bind.mpr (Program.ends_run ?_ fun _ _ => trivial))
  rw [hfailure]
  exact nofun

theorem ends_deleteRow {key : RowKey} (hfailure : solo.failure = .api .internal) :
    (do deleteRow key; Program.commitWork : Handler Unit).Ends solo (OnError P)
      (fun _ _ => True) w := by
  refine Program.ends_bind.mpr (Program.ends_bind.mpr (Program.ends_run ?_ fun _ _ => trivial))
  rw [hfailure]
  exact nofun

theorem ends_ownWorkspace {ok : WorkspaceRow → Deployment → Prop} {tenantName : String} {tenantId id : Nat}
    (h : ∀ live, (tables (Table.snapshot w.table solo.call)).workspaces.find? (·.id = id) = some live →
      ok live w) : (ownWorkspace tenantName tenantId id).Ends solo (OnError P) ok w := by
  refine Program.ends_bind.mpr (ends_query.mpr (Program.ends_bind.mpr
    (ends_lift plain_orNotFound fun live hlive => ?_)))
  split
  next => exact ends_throwApi nofun
  next => exact h live (orNotFound_eq_ok.mp hlive)

end

-- ════════════════════════════════════════════════════════════════════════
-- The writes
-- ════════════════════════════════════════════════════════════════════════

section

variable {client : ControlPlaneClient} {call : CallId} {clock : Nat} {w : Deployment} {caller : Caller}
  {tenantName : String}

/-- The rows are as they were, and control-plane has been unavailable for one of
    the triples. -/
def Refused (client : ControlPlaneClient) (w : Deployment) (triples : List (String × String × String))
    (w' : Deployment) : Prop :=
  w'.table = w.table ∧ ∃ msg, client.terminateAll triples w.service = (some msg, w'.service)

/-- The bindings of a workspace, one after another. -/
theorem ends_terminateBindings {ok : Unit → Deployment → Prop} {tenant workspace : String}
    {bindings : List BindingRow} {w₁ : Deployment}
    (hok : ∀ w', w'.table = w₁.table → ok () w') :
    (terminateBindings tenant workspace bindings).Ends (soloApi client call clock)
      (OnError (Refused client w₁ (bindingTriples (tables (Table.snapshot w₁.table call))
        tenant workspace bindings))) ok w₁ := by
  induction bindings generalizing w₁ with
  | nil => exact hok w₁ rfl
  | cons binding bindings ih =>
    refine Program.ends_bind.mpr (ends_query.mpr (Program.ends_bind.mpr
      (ends_lift plain_orNotFound fun plugin hplugin => ?_)))
    have hplugin : (tables (Table.snapshot w₁.table call)).plugins.find? (·.id = binding.pluginId) =
        some plugin := orNotFound_eq_ok.mp hplugin
    have htriples : bindingTriples (tables (Table.snapshot w₁.table call)) tenant workspace
        (binding :: bindings) = (tenant, workspace, plugin.spec.name) ::
          bindingTriples (tables (Table.snapshot w₁.table call)) tenant workspace bindings := by
      simp [bindingTriples, hplugin]
    refine Program.ends_bind.mpr (Program.ends_reply.mpr ?_)
    have hcons : client.terminateAll ((tenant, workspace, plugin.spec.name) ::
        bindingTriples (tables (Table.snapshot w₁.table call)) tenant workspace bindings) w₁.service = _ :=
      ControlPlaneClient.terminateAll_cons
    have hservice : (soloApi client call clock).answer (.terminateLiveSessions tenant workspace
        plugin.spec.name) w₁.service =
      client.terminateAll [(tenant, workspace, plugin.spec.name)] w₁.service := rfl
    rw [hservice]
    cases hanswer : client.terminateAll [(tenant, workspace, plugin.spec.name)] w₁.service with
    | mk reply gate =>
      rw [hanswer] at hcons
      cases reply with
      | some msg =>
        refine ends_throwApi fun _ => ⟨rfl, msg, ?_⟩
        rw [htriples, hcons]
      | none =>
        have hrest := @ih { w₁ with service := gate } hok
        refine hrest.mono fun e w' hrefused => ?_
        cases e with
        | api e =>
          intro hunavailable
          obtain ⟨htable, msg, hterminate⟩ := hrefused hunavailable
          exact ⟨htable, msg, by rw [htriples, hcons]; exact hterminate⟩
        | hasDependents | bootstrap => trivial

theorem ends_terminateTriple {ok : Unit → Deployment → Prop} {verb rows : String}
    {triple : String × String × String} (hok : ∀ w', ok () w') :
    (terminateTriple verb rows triple).Ends (soloApi client call clock)
      (OnError (Refused client w [triple])) ok w := by
  obtain ⟨tenant, workspace, plugin⟩ := triple
  refine Program.ends_bind.mpr (Program.ends_reply.mpr ?_)
  have hservice : (soloApi client call clock).answer (.terminateLiveSessions tenant workspace plugin)
      w.service = client.terminateAll [(tenant, workspace, plugin)] w.service := rfl
  rw [hservice]
  cases hanswer : client.terminateAll [(tenant, workspace, plugin)] w.service with
  | mk reply gate =>
    cases reply with
    | some msg => exact ends_throwApi fun _ => ⟨rfl, msg, hanswer⟩
    | none => exact hok _

/-- What the write says of its 503. -/
abbrev Refuses (client : ControlPlaneClient) (call : CallId) (clock : Nat) (w : Deployment)
    (write : WriteRequest) (handler : Handler Unit) : Prop :=
  handler.Ends (soloApi client call clock)
    (OnError (Refused client w (write.triples (tables (Table.snapshot w.table call)))))
    (fun _ _ => True) w

theorem refuses_deleteWorkspace {id : Nat} {lock : Option Nat} :
    Refuses client call clock w (.deleteWorkspace tenantName id lock)
      (deleteWorkspace caller tenantName id lock) := by
  refine Program.ends_bind.mpr (ends_lift plain_checkTenantConsistency fun _ _ => ?_)
  refine Program.ends_bind.mpr (ends_query.mpr (Program.ends_bind.mpr
    (ends_lift plain_resolveTenantId fun tenantId _ => ?_)))
  refine Program.ends_bind.mpr (ends_ownWorkspace fun live hlive => ?_)
  refine Program.ends_bind.mpr (ends_checkOptionalLock ?_)
  refine Program.ends_bind.mpr (ends_query.mpr (Program.ends_bind.mpr (ends_query.mpr
    (Program.ends_bind.mpr (ends_lift plain_orNotFound fun tenant htenant => ?_)))))
  have htriples : (WriteRequest.deleteWorkspace tenantName id lock).triples
      (tables (Table.snapshot w.table call)) =
      bindingTriples (tables (Table.snapshot w.table call)) tenant.name live.name
        ((tables (Table.snapshot w.table call)).bindings.filter (·.workspaceId = id)) := by
    have hlive : (tables (Table.snapshot w.table call)).workspaces.find? (·.id = id) = some live := hlive
    have htenant : (tables (Table.snapshot w.table call)).tenants.find? (·.id = live.tenantId) =
        some tenant := orNotFound_eq_ok.mp htenant
    simp only [WriteRequest.triples, hlive, htenant]
  rw [htriples]
  exact Program.ends_bind.mpr (ends_terminateBindings fun w' _ => ends_deleteRow rfl)

theorem refuses_updateWorkspacePlugin {workspaceId pluginId since : Nat} {config : Option Json} :
    Refuses client call clock w (.updateWorkspacePlugin tenantName workspaceId pluginId config since)
      (updateWorkspacePlugin caller tenantName workspaceId pluginId config since) := by
  refine Program.ends_bind.mpr (ends_lift plain_checkTenantConsistency fun _ _ => ?_)
  refine Program.ends_bind.mpr (Program.ends_bind.mpr (ends_query.mpr
    (ends_lift plain_orNotFound fun live _ => ?_)))
  refine Program.ends_bind.mpr (ends_lift plain_checkLock fun _ _ => ?_)
  refine Program.ends_bind.mpr (ends_lift plain_bindingConfig fun newConfig _ => ?_)
  refine Program.ends_bind.mpr (Program.ends_now.mpr ?_)
  refine Program.ends_bind.mpr (ends_query.mpr (Program.ends_bind.mpr
    (ends_lift plain_orNotFound fun triple htriple => ?_)))
  have htriples : (WriteRequest.updateWorkspacePlugin tenantName workspaceId pluginId config since).triples
      (tables (Table.snapshot w.table call)) = [triple] := by
    have htriple : resolveTriple (tables (Table.snapshot w.table call)) workspaceId pluginId =
        .ok triple := htriple
    simp only [WriteRequest.triples, htriple]
  rw [htriples]
  exact Program.ends_bind.mpr (ends_terminateTriple fun w' => ends_updateRow rfl)

theorem refuses_deleteWorkspacePlugin {workspaceId pluginId : Nat} {lock : Option Nat} :
    Refuses client call clock w (.deleteWorkspacePlugin tenantName workspaceId pluginId lock)
      (deleteWorkspacePlugin caller tenantName workspaceId pluginId lock) := by
  refine Program.ends_bind.mpr (ends_lift plain_checkTenantConsistency fun _ _ => ?_)
  refine Program.ends_bind.mpr (Program.ends_bind.mpr (ends_query.mpr
    (ends_lift plain_orNotFound fun live _ => ?_)))
  refine Program.ends_bind.mpr (ends_checkOptionalLock ?_)
  refine Program.ends_bind.mpr (ends_query.mpr (Program.ends_bind.mpr
    (ends_lift plain_orNotFound fun triple htriple => ?_)))
  have htriples : (WriteRequest.deleteWorkspacePlugin tenantName workspaceId pluginId lock).triples
      (tables (Table.snapshot w.table call)) = [triple] := by
    have htriple : resolveTriple (tables (Table.snapshot w.table call)) workspaceId pluginId =
        .ok triple := htriple
    simp only [WriteRequest.triples, htriple]
  rw [htriples]
  exact Program.ends_bind.mpr (ends_terminateTriple fun w' => ends_deleteRow rfl)

end

/-- **A 503 leaves nothing changed** exactly when no DELETE has removed a record: a
    GET fails before any session is found, or the first DELETE has no effect.  The
    rows are the same in any case. -/
theorem unavailable_iff (client : ControlPlaneClient) (double : UInt64 → List Char) (caller : Caller)
    {write : WriteRequest} {call : CallId} {clock : Nat} {w w' : Deployment} {msg : String}
    (hgated : write.gated = true)
    (hunavailable : (WriteCall.handler double ⟨caller, write⟩).alone (soloApi client call clock) w =
      (.error (.api (.unavailable msg)), w')) :
    (Unchanged call w w' ↔ client.spares w.service.store w.service.sent
      (write.triples (tables (Table.snapshot w.table call))) = true) ∧
    ∀ key, Table.committed (Table.rollback w'.table call) key = Table.committed w.table key := by
  have hrefuses : Refuses client call clock w write (WriteCall.handler double ⟨caller, write⟩) := by
    cases write with
    | deleteWorkspace => exact refuses_deleteWorkspace
    | updateWorkspacePlugin => exact refuses_updateWorkspacePlugin
    | deleteWorkspacePlugin => exact refuses_deleteWorkspacePlugin
    | _ => cases hgated
  obtain ⟨htable, msg', hterminate⟩ := hrefuses.result hunavailable rfl
  have hrows : ∀ key, Table.committed (Table.rollback w'.table call) key =
      Table.committed w.table key := fun key => by
    rw [Table.committed_rollback, htable]
  have hrecords := ControlPlaneClient.untouched_iff_spares hterminate
  exact ⟨⟨fun h => hrecords.mp h.records, fun h => ⟨hrows, hrecords.mpr h⟩⟩, hrows⟩

private def echoRows : FiniteMap RowKey Row := (∅ : FiniteMap RowKey Row).insertAll
  [(.tenant 0, .tenant ⟨0, "acme", 1000⟩), (.workspace 1, .workspace ⟨1, 0, "main", 1000⟩),
    (.plugin 2, .plugin ⟨2, ⟨"echo", "echo:1", 8080, "/mcp", "none", .null, none, .null⟩, 1000⟩),
    (.binding 1 2, .binding ⟨1, 2, none, 1000⟩)]

private def echoSession (sessionId : String) (address : Fin 256) : SessionRecord :=
  ⟨sessionId, ⟨10, 0, 0, address⟩, "acme", "main", "echo", .null⟩

/-- A binding with two live sessions. -/
private def echoDeployment : Deployment :=
  ⟨Table.ofRows echoRows, 3, ⟨SessionStore.new.seedStore
    [echoSession "mcp_session_a" 2, echoSession "mcp_session_b" 3], 0⟩⟩

/-- The calls succeed until control-plane can no longer be reached. -/
private def reachableFor (calls : Nat) : ControlPlaneClient where
  endpoint := "http://control_plane:9300"
  disabled := false
  state := ⟨"5s", false⟩
  outcomes n := if n < calls then .answered (.ok ()) else .undelivered "connection refused"

private def unbind : WriteRequest := .deleteWorkspacePlugin "acme" 1 2 none

private def unbound (calls : Nat) : Except WriteError Unit × Deployment :=
  (WriteCall.handler (fun _ => []) ⟨⟨false, some "acme"⟩, unbind⟩).alone
    (soloApi (reachableFor calls) 0 2000) echoDeployment

private def unavailableText (sessionId : String) : String :=
  "control-plane unavailable during workspace_plugin delete: DELETE http://control_plane:9300/sessions/" ++
    sessionId ++ ": connection refused; no rows deleted"

theorem unavailable_at_the_first_delete :
    (unbound 1).1 = .error (.api (.unavailable (unavailableText "mcp_session_a"))) ∧
      Unchanged 0 echoDeployment (unbound 1).2 := by
  have hresult : (unbound 1).1 = .error (.api (.unavailable (unavailableText "mcp_session_a"))) := by
    decide +kernel
  have hspares : (reachableFor 1).spares echoDeployment.service.store echoDeployment.service.sent
      (unbind.triples (tables (Table.snapshot echoDeployment.table 0))) = true := by
    decide +kernel
  exact ⟨hresult, (unavailable_iff (reachableFor 1) (fun _ => []) ⟨false, some "acme"⟩ rfl
    (Prod.ext hresult rfl : unbound 1 = (_, (unbound 1).2))).1.mpr hspares⟩

/-- The first session is deleted, the second DELETE fails. -/
theorem unavailable_at_the_second_delete :
    ¬ ∀ client double caller (write : WriteRequest) call clock (w w' : Deployment) msg,
      write.gated = true →
      (WriteCall.handler double ⟨caller, write⟩).alone (soloApi client call clock) w =
        (.error (.api (.unavailable msg)), w') → Unchanged call w w' := by
  intro hclaim
  have hresult : (unbound 2).1 = .error (.api (.unavailable (unavailableText "mcp_session_b"))) := by
    decide +kernel
  have hunchanged := hclaim (reachableFor 2) (fun _ => []) ⟨false, some "acme"⟩ unbind 0 2000
    echoDeployment (unbound 2).2 _ rfl (Prod.ext hresult rfl : unbound 2 = (_, (unbound 2).2))
  have hbefore : (echoDeployment.service.store.inner.get "mcp_session_a").isSome = true := by
    decide +kernel
  have hafter : ((unbound 2).2.service.store.inner.get "mcp_session_a").isSome = false := by
    decide +kernel
  rw [hunchanged.records "mcp_session_a", hbefore] at hafter
  cases hafter

end Botwork.System.ConfigServer
