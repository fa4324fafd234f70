import Botwork.Foundations.OptimisticLock
import Botwork.System.RowStamps

/-!
# Optimistic locks of the configuration rows

A PUT or DELETE of the API carries the `updated_at` its caller has last seen.  The
handler compares it with the row it selects, and writes the row in a later
statement; `optimistic_lock` says when that protects an update from being lost.

## Main definitions

- `WriteCall.token` — the row and the `if_unmodified_since` of a request
- `tokens` — the tokens of the configuration rows
-/

namespace Botwork.System.ConfigServer

open Botwork.Foundations Botwork.ApiCore Botwork.Db Botwork.Api

-- ════════════════════════════════════════════════════════════════════════
-- Tokens
-- ════════════════════════════════════════════════════════════════════════

/-- The row that a PUT or DELETE writes, and its `if_unmodified_since`. -/
def WriteCall.token (call : WriteCall) : Option (RowKey × Nat) :=
  match call.write with
  | .updateTenant id _ since => some (.tenant id, since)
  | .deleteTenant id since => since.map (.tenant id, ·)
  | .updateWorkspace _ id _ since => some (.workspace id, since)
  | .deleteWorkspace _ id since => since.map (.workspace id, ·)
  | .updatePlugin id _ since => some (.plugin id, since)
  | .deletePlugin id since => since.map (.plugin id, ·)
  | .updateWorkspacePlugin _ workspaceId pluginId _ since =>
    some (.binding workspaceId pluginId, since)
  | .deleteWorkspacePlugin _ workspaceId pluginId since =>
    since.map (.binding workspaceId pluginId, ·)
  | _ => none

def tokens : Tokens WriteCall RowKey Row := ⟨rowStamps, WriteCall.token⟩

-- ════════════════════════════════════════════════════════════════════════
-- What a SELECT shows
-- ════════════════════════════════════════════════════════════════════════

section

variable {rows : FiniteMap RowKey Row}

theorem mem_values_tenant {row : TenantRow} (h : row ∈ (tables rows).tenants) :
    .tenant row ∈ rows.values := by
  obtain ⟨found, hmem, hrow⟩ := List.mem_filterMap.mp h
  cases found <;> cases hrow
  exact hmem

theorem mem_values_workspace {row : WorkspaceRow} (h : row ∈ (tables rows).workspaces) :
    .workspace row ∈ rows.values := by
  obtain ⟨found, hmem, hrow⟩ := List.mem_filterMap.mp h
  cases found <;> cases hrow
  exact hmem

theorem mem_values_plugin {row : PluginRow} (h : row ∈ (tables rows).plugins) :
    .plugin row ∈ rows.values := by
  obtain ⟨found, hmem, hrow⟩ := List.mem_filterMap.mp h
  cases found <;> cases hrow
  exact hmem

theorem mem_values_binding {row : BindingRow} (h : row ∈ (tables rows).bindings) :
    .binding row ∈ rows.values := by
  obtain ⟨found, hmem, hrow⟩ := List.mem_filterMap.mp h
  cases found <;> cases hrow
  exact hmem

/-- A SELECT has shown the row under its own `updated_at`. -/
theorem shown_of_mem {row : Row} {shown : List (FiniteMap RowKey Row)} (hmem : row ∈ rows.values)
    (hread : rows ∈ shown) : tokens.Shown row.key row.updatedAt shown :=
  ⟨rows, hread, row, hmem, rfl, rfl⟩

end

-- ════════════════════════════════════════════════════════════════════════
-- Handlers
-- ════════════════════════════════════════════════════════════════════════

/-- The handler writes the row once, after a SELECT has shown it under the token and
    before it commits and succeeds. -/
abbrev Locks (key : RowKey) (since : Nat) (handler : Handler Unit) : Prop :=
  tokens.Keeps key since ⟨[], .unwritten⟩ handler

/-- The write of a request whose token has been compared with the row, and its
    commit. -/
theorem locks_write {key : RowKey} {since : Nat} {shown : List (FiniteMap RowKey Row)}
    {statement : Statement RowKey Row} (htargets : statement.targets key = true)
    (hshown : tokens.Shown key since shown) :
    (tokens.lockProtocol key since).allowed ⟨shown, .unwritten⟩ statement ∧
      ((tokens.lockProtocol key since).commit
        ((tokens.lockProtocol key since).exec ⟨shown, .unwritten⟩ statement)).phase = .committed := by
  refine ⟨.inr ⟨htargets, rfl, hshown⟩, ?_⟩
  simp [Tokens.lockProtocol, htargets]

-- A handler's proof follows it to its one statement that writes.

variable {caller : Caller} {tenantName name : String} {id workspaceId pluginId since : Nat}

theorem locks_updateTenant : Locks (.tenant id) since (updateTenant caller id name since) := by
  simp only [Locks, Tokens.Keeps, updateTenant, Program.follows_bind, follows_lift, follows_query,
    orNotFound_eq_ok]
  intro _ _ _ _ seen live hlive _ hsince seen'
  obtain rfl : live.id = id := by simpa using List.find?_some hlive
  obtain rfl : since = live.updatedAt := checkLock_eq_ok.mp hsince
  have hmem := mem_values_tenant (List.mem_of_find?_eq_some hlive)
  split
  next => exact follows_throwApi.mpr trivial
  next =>
    simp only [follows_updateRow, Program.follows_bind, Program.follows_now, Program.follows_commitWork]
    exact fun now => locks_write (by simp [Statement.targets])
      (shown_of_mem hmem (List.mem_cons_of_mem _ List.mem_cons_self))

theorem locks_deleteTenant : Locks (.tenant id) since (deleteTenant caller id (some since)) := by
  simp only [Locks, Tokens.Keeps, deleteTenant, Program.follows_bind, follows_lift, follows_query,
    follows_checkOptionalLock, orNotFound_eq_ok]
  intro _ _ seen live hlive hsince seen'
  obtain rfl : live.id = id := by simpa using List.find?_some hlive
  obtain rfl : since = live.updatedAt := hsince since rfl
  have hmem := mem_values_tenant (List.mem_of_find?_eq_some hlive)
  split
  next => simp
  next =>
    simp only [follows_deleteRow, Program.follows_bind, Program.follows_commitWork]
    exact locks_write (by simp [Statement.targets])
      (shown_of_mem hmem (List.mem_cons_of_mem _ List.mem_cons_self))

theorem locks_updateWorkspace :
    Locks (.workspace id) since (updateWorkspace caller tenantName id name since) := by
  simp only [Locks, Tokens.Keeps, updateWorkspace, Program.follows_bind, follows_lift, follows_query]
  intro _ _ _ _ seen tenantId _
  refine follows_ownWorkspace fun seen' live hlive _ _ hsince seen'' => ?_
  obtain rfl : live.id = id := by simpa using List.find?_some hlive
  obtain rfl : since = live.updatedAt := checkLock_eq_ok.mp hsince
  have hmem := mem_values_workspace (List.mem_of_find?_eq_some hlive)
  split
  next => exact follows_throwApi.mpr trivial
  next =>
    simp only [follows_updateRow, Program.follows_bind, Program.follows_now, Program.follows_commitWork]
    exact fun now => locks_write (by simp [Statement.targets])
      (shown_of_mem hmem (List.mem_cons_of_mem _ List.mem_cons_self))

theorem locks_deleteWorkspace :
    Locks (.workspace id) since (deleteWorkspace caller tenantName id (some since)) := by
  simp only [Locks, Tokens.Keeps, deleteWorkspace, Program.follows_bind, follows_lift, follows_query,
    follows_checkOptionalLock]
  intro _ _ seen tenantId _
  refine follows_ownWorkspace fun seen' live hlive _ hsince rows rows' tenant _ => ?_
  obtain rfl : live.id = id := by simpa using List.find?_some hlive
  obtain rfl : since = live.updatedAt := hsince since rfl
  have hmem := mem_values_workspace (List.mem_of_find?_eq_some hlive)
  -- the terminations only add to what has been shown
  refine follows_terminateBindings
    (P := fun g => g.phase = .unwritten ∧ tokens.Shown (.workspace live.id) live.updatedAt g.shown)
    (fun g rows hg => ⟨hg.1, ?_⟩) (fun g hg => ?_)
    ⟨rfl, shown_of_mem hmem (List.mem_cons_of_mem _ (List.mem_cons_of_mem _ List.mem_cons_self))⟩
  · obtain ⟨read, hread, hrow⟩ := hg.2
    exact ⟨read, List.mem_cons_of_mem _ hread, hrow⟩
  · obtain ⟨shown, phase⟩ := g
    obtain ⟨rfl, hshown⟩ := hg
    simp only [follows_deleteRow, Program.follows_commitWork]
    exact locks_write (by simp [Statement.targets]) hshown

theorem locks_updatePlugin {double : UInt64 → List Char} {raw : RawPluginEntry} :
    Locks (.plugin id) since (updatePlugin double caller id raw since) := by
  simp only [Locks, Tokens.Keeps, updatePlugin, Program.follows_bind, follows_lift, follows_query,
    orNotFound_eq_ok]
  intro _ _ validated _ seen live hlive _ hsince _ _ seen'
  obtain rfl : live.id = id := by simpa using List.find?_some hlive
  obtain rfl : since = live.updatedAt := checkLock_eq_ok.mp hsince
  have hmem := mem_values_plugin (List.mem_of_find?_eq_some hlive)
  split
  next => exact follows_throwApi.mpr trivial
  next =>
    simp only [follows_updateRow, Program.follows_bind, Program.follows_now, Program.follows_commitWork]
    exact fun now => locks_write (by simp [Statement.targets])
      (shown_of_mem hmem (List.mem_cons_of_mem _ List.mem_cons_self))

theorem locks_deletePlugin : Locks (.plugin id) since (deletePlugin caller id (some since)) := by
  simp only [Locks, Tokens.Keeps, deletePlugin, Program.follows_bind, follows_lift, follows_query,
    follows_checkOptionalLock, orNotFound_eq_ok]
  intro _ _ seen live hlive hsince seen'
  obtain rfl : live.id = id := by simpa using List.find?_some hlive
  obtain rfl : since = live.updatedAt := hsince since rfl
  have hmem := mem_values_plugin (List.mem_of_find?_eq_some hlive)
  split
  next =>
    rw [Program.follows_bind]
    refine follows_dependentNames (P := fun _ => True) (fun _ _ _ => trivial) (fun _ names _ => ?_) trivial
    simp
  next =>
    simp only [follows_deleteRow, Program.follows_bind, Program.follows_commitWork]
    exact locks_write (by simp [Statement.targets])
      (shown_of_mem hmem (List.mem_cons_of_mem _ List.mem_cons_self))

theorem locks_updateWorkspacePlugin {config : Option Json} :
    Locks (.binding workspaceId pluginId) since
      (updateWorkspacePlugin caller tenantName workspaceId pluginId config since) := by
  simp only [Locks, Tokens.Keeps, updateWorkspacePlugin, liveBinding, Program.follows_bind,
    follows_lift, follows_query, orNotFound_eq_ok, Program.follows_now]
  intro _ _ seen live hlive _ hsince newConfig _ now seen' names _
  obtain ⟨rfl, rfl⟩ : live.workspaceId = workspaceId ∧ live.pluginId = pluginId := by
    simpa using List.find?_some hlive
  obtain rfl : since = live.updatedAt := checkLock_eq_ok.mp hsince
  have hmem := mem_values_binding (List.mem_of_find?_eq_some hlive)
  refine follows_terminateTriple ?_
  simp only [follows_updateRow, Program.follows_commitWork]
  exact locks_write (by simp [Statement.targets])
    (shown_of_mem hmem (List.mem_cons_of_mem _ List.mem_cons_self))

theorem locks_deleteWorkspacePlugin :
    Locks (.binding workspaceId pluginId) since
      (deleteWorkspacePlugin caller tenantName workspaceId pluginId (some since)) := by
  simp only [Locks, Tokens.Keeps, deleteWorkspacePlugin, liveBinding, Program.follows_bind,
    follows_lift, follows_query, follows_checkOptionalLock, orNotFound_eq_ok]
  intro _ _ seen live hlive hsince seen' names _
  obtain ⟨rfl, rfl⟩ : live.workspaceId = workspaceId ∧ live.pluginId = pluginId := by
    simpa using List.find?_some hlive
  obtain rfl : since = live.updatedAt := hsince since rfl
  have hmem := mem_values_binding (List.mem_of_find?_eq_some hlive)
  refine follows_terminateTriple ?_
  simp only [follows_deleteRow, Program.follows_commitWork]
  exact locks_write (by simp [Statement.targets])
    (shown_of_mem hmem (List.mem_cons_of_mem _ List.mem_cons_self))

/-- A request with a token keeps to the protocol of its row. -/
theorem locks_program (double : UInt64 → List Char) (call : WriteCall) {key : RowKey} {since : Nat}
    (htoken : call.token = some (key, since)) : Locks key since (call.handler double) := by
  obtain ⟨caller, write⟩ := call
  cases write with
  | updateTenant => cases htoken; exact locks_updateTenant
  | deleteTenant id lock =>
    obtain ⟨_, rfl, heq⟩ := Option.map_eq_some_iff.mp htoken
    cases heq
    exact locks_deleteTenant
  | updateWorkspace => cases htoken; exact locks_updateWorkspace
  | deleteWorkspace tenantName id lock =>
    obtain ⟨_, rfl, heq⟩ := Option.map_eq_some_iff.mp htoken
    cases heq
    exact locks_deleteWorkspace
  | updatePlugin => cases htoken; exact locks_updatePlugin
  | deletePlugin id lock =>
    obtain ⟨_, rfl, heq⟩ := Option.map_eq_some_iff.mp htoken
    cases heq
    exact locks_deletePlugin
  | updateWorkspacePlugin => cases htoken; exact locks_updateWorkspacePlugin
  | deleteWorkspacePlugin tenantName workspaceId pluginId lock =>
    obtain ⟨_, rfl, heq⟩ := Option.map_eq_some_iff.mp htoken
    cases heq
    exact locks_deleteWorkspacePlugin
  | createTenant | createWorkspace | createPlugin | createWorkspacePlugin | bootstrap => cases htoken

theorem disciplined (double : UInt64 → List Char) : tokens.Disciplined (writes double) where
  stamps := rows_stamped double
  locks call _ _ htoken := locks_program double call htoken

-- ════════════════════════════════════════════════════════════════════════
-- Runs
-- ════════════════════════════════════════════════════════════════════════

/-- **The lock loses no update**, in the runs in which nothing is committed to a row
    between a SELECT that shows it under a request's token and the request's write of
    it, and no two requests read the same time: of the requests with one token at most
    one succeeds, and a write leaves an `updated_at` that the row has never had. -/
theorem optimistic_lock (double : UInt64 → List Char) :
    (∀ s call call' request request' key since,
      (configServer double).ReachableUnder tokens.Guard s →
      s.results.lookup call = some (request, .ok ()) →
      s.results.lookup call' = some (request', .ok ()) →
      request.token = some (key, since) → request'.token = some (key, since) → call = call') ∧
    ∀ s₀ s s' call key row row', (configServer double).ReachableUnder tokens.Guard s₀ →
      (configServer double).RunUnder tokens.Guard s₀ s →
      Table.committed s₀.table key = some row →
      (Table.slot s.table key).pending = some (call, some row') →
      (configServer double).next s (.run call .ok) = some s' →
      Table.committed s'.table key = some row' → row'.updatedAt ≠ row.updatedAt :=
  ⟨fun _ _ _ _ _ _ _ hreach hresult hresult' htoken htoken' =>
      Tokens.one_success (disciplined double) hreach hresult hresult' htoken htoken',
    fun _ _ _ _ _ _ _ hreach hrun hrow hpending _ _ =>
      Tokens.fresh_stamp (disciplined double) hreach hrun hrow hpending⟩

private def admin : Caller := ⟨true, none⟩

private def noDouble : UInt64 → List Char := fun _ => []

/-- A tenant with id 0 is created at time 1000. -/
private def createRun : List (ServerEvent WriteCall) :=
  [.arrive ⟨admin, .createTenant "acme"⟩, .run 0 .ok, .run 0 (.time 1000), .run 0 .ok, .run 0 .ok,
    .run 0 (.reply none), .run 0 .ok]

private def rename (name : String) : WriteCall := ⟨admin, .updateTenant 0 name 1000⟩

/-- A rename up to its UPDATE. -/
private def readRun (call : CallId) (name : String) (now : Nat) : List (ServerEvent WriteCall) :=
  [.arrive (rename name), .run call .ok, .run call .ok, .run call (.time now)]

/-- The UPDATE of a rename, its COMMIT and its answer. -/
private def writeRun (call : CallId) : List (ServerEvent WriteCall) :=
  [.run call .ok, .run call .ok, .run call .ok]

private def renamed (s : Server WriteCall RowKey Row Question WriteError) (call : CallId) : Bool :=
  (s.results.lookup call).any fun result =>
    result.1.token = some (.tenant 0, 1000) && result.2 = .ok ()

private theorem renamed_spec {s : Server WriteCall RowKey Row Question WriteError} {call : CallId}
    (h : renamed s call = true) : ∃ request, s.results.lookup call = some (request, .ok ()) ∧
      request.token = some (.tenant 0, 1000) := by
  obtain ⟨⟨request, result⟩, hlook, hcheck⟩ := Option.any_eq_true _ _ |>.mp h
  obtain ⟨htoken, hresult⟩ := Bool.and_eq_true _ _ |>.mp hcheck
  obtain rfl : result = .ok () := of_decide_eq_true hresult
  exact ⟨request, hlook, of_decide_eq_true htoken⟩

private def acme : Row := .tenant ⟨0, "acme", 1000⟩

private def beta : Row := .tenant ⟨0, "beta", 2000⟩

/-- The next step of call 1 commits the new name. -/
private def committing (s : Server WriteCall RowKey Row Question WriteError) : Bool :=
  (Table.slot s.table (.tenant 0)).pending = some (1, some beta) &&
    ((configServer noDouble).next s (.run 1 .ok)).any fun s' =>
      Table.committed s'.table (.tenant 0) = some beta

theorem optimistic_lock_rename :
    (∃ (s : Server WriteCall RowKey Row Question WriteError) (request : WriteCall),
      s.results.lookup 1 = some (request, .ok ()) ∧
      request.token = some (.tenant 0, 1000) ∧
      ∀ call' (request' : WriteCall), s.results.lookup call' = some (request', .ok ()) →
        request'.token = some (.tenant 0, 1000) → 1 = call') ∧
    ∃ s₀ s : Server WriteCall RowKey Row Question WriteError,
      Table.committed s₀.table (.tenant 0) = some acme ∧
      (Table.slot s.table (.tenant 0)).pending = some (1, some beta) ∧
      beta.updatedAt ≠ acme.updatedAt := by
  constructor
  · have hexec : ((configServer noDouble).execUnder tokens.Guard Schema.init
        (createRun ++ readRun 1 "beta" 2000 ++ writeRun 1)).any (renamed · 1) = true := by
      decide +kernel
    obtain ⟨s, hrun, hrenamed⟩ := Machine.exists_run_of_execUnder _ hexec
    obtain ⟨request, hresult, htoken⟩ := renamed_spec hrenamed
    exact ⟨s, request, hresult, htoken, fun call' request' hresult' htoken' =>
      (optimistic_lock noDouble).1 s 1 call' request request' (.tenant 0) 1000 ⟨_, rfl, hrun⟩
        hresult hresult' htoken htoken'⟩
  · obtain ⟨s₀, s, hrun, hacme, hrun', hcommitting⟩ :=
      Machine.exists_runs_of_execUnder (M := configServer noDouble) (C := tokens.Guard)
        (s := Schema.init) createRun (readRun 1 "beta" 2000 ++ [.run 1 .ok])
        (fun s => Table.committed s.table (.tenant 0) = some acme) committing
        (by decide +kernel) (by decide +kernel)
    have hrow : Table.committed s₀.table (.tenant 0) = some acme := of_decide_eq_true hacme
    obtain ⟨hbeta, hnext⟩ := Bool.and_eq_true _ _ |>.mp hcommitting
    have hpending := of_decide_eq_true hbeta
    obtain ⟨s', hnext, hrow'⟩ := Option.any_eq_true _ _ |>.mp hnext
    exact ⟨s₀, s, hrow, hpending, (optimistic_lock noDouble).2 s₀ s s' 1 (.tenant 0) acme beta
      ⟨_, rfl, hrun⟩ hrun' hrow hpending hnext (of_decide_eq_true hrow')⟩

/-- Two renames with one token select the row before either updates it. -/
theorem two_renames_succeed :
    ¬ ∀ double s call call' request request' key since, (configServer double).Reachable s →
      s.results.lookup call = some (request, .ok ()) →
      s.results.lookup call' = some (request', .ok ()) →
      request.token = some (key, since) → request'.token = some (key, since) → call = call' := by
  intro hclaim
  have hexec : ((configServer noDouble).execUnder (fun _ _ => True) Schema.init
      (createRun ++ readRun 1 "beta" 2000 ++ readRun 2 "gamma" 3000 ++ writeRun 1 ++ writeRun 2)).any
      (fun s => renamed s 1 && renamed s 2) = true := by
    decide +kernel
  obtain ⟨s, hrun, hboth⟩ := Machine.exists_run_of_execUnder _ hexec
  obtain ⟨hfirst, hsecond⟩ := Bool.and_eq_true _ _ |>.mp hboth
  obtain ⟨request, hresult, htoken⟩ := renamed_spec hfirst
  obtain ⟨request', hresult', htoken'⟩ := renamed_spec hsecond
  cases hclaim noDouble s 1 2 request request' (.tenant 0) 1000 ⟨_, rfl, hrun⟩ hresult hresult'
    htoken htoken'

end Botwork.System.ConfigServer
