import Botwork.Foundations.ClockStamps
import Botwork.System.ConfigServer

/-!
# Stamps of configuration rows

Every handler that writes a configuration row reads the clock first and puts what
it has read into `updated_at`, whichever columns it sets besides.

## Main definitions

- `rowStamps` — keys and stamps of the configuration rows
- `Stamped` — a handler writes rows under their key, with a time it has read
-/

namespace Botwork.System.ConfigServer

open Botwork.Foundations Botwork.ApiCore Botwork.Db Botwork.Api Botwork.Bootstrap

def rowStamps : Stamps RowKey Row := ⟨Row.key, Row.updatedAt⟩

/-- The handler stamps every row it writes with a time it has read; `done` says that
    it has not committed yet. -/
abbrev Stamped {α : Type} (handler : Handler α) (done : Writing → Prop) : Prop :=
  ∀ g, g.committed = false → handler.Follows rowStamps.protocol (fun g _ => done g) g

/-- A part of a handler, before its commit. -/
abbrev StampsOpen {α : Type} (handler : Handler α) : Prop :=
  Stamped handler fun g => g.committed = false

/-- A handler with its commit. -/
abbrev StampsRows (handler : Handler Unit) : Prop := Stamped handler fun _ => True

theorem StampsOpen.bind {α β : Type} {p : Handler α} {f : α → Handler β} {done : Writing → Prop}
    (hp : StampsOpen p) (hf : ∀ a, Stamped (f a) done) : Stamped (p >>= f) done := fun g hg =>
  Program.follows_bind.mpr ((hp g hg).mono fun g' a hg' => hf a g' hg')

-- ════════════════════════════════════════════════════════════════════════
-- Statements
-- ════════════════════════════════════════════════════════════════════════

section

variable {g : Writing} {key : RowKey} {now : Nat}

/-- A statement that stamps the rows it sets. -/
theorem allowed_update {set : Row → Row} (hg : g.committed = false)
    (hset : ∀ row : Row, row.key = key → (set row).key = key ∧ (set row).updatedAt = now) :
    rowStamps.protocol.allowed { g with taken := now :: g.taken } (.update key set) := by
  refine ⟨hg, fun row hkey => ?_⟩
  obtain ⟨hkey', hstamp⟩ := hset row hkey
  exact ⟨hkey', hstamp ▸ List.mem_cons_self⟩

theorem allowed_insert {row : Nat → Row} (hg : g.committed = false)
    (hrow : ∀ id, (row id).updatedAt = now) :
    rowStamps.protocol.allowed { g with taken := now :: g.taken }
      (.insert fun id => ((row id).key, row id)) :=
  ⟨hg, fun id => ⟨rfl, hrow id ▸ List.mem_cons_self⟩⟩

theorem allowed_delete (hg : g.committed = false) :
    rowStamps.protocol.allowed g (.delete key (cascades key)) := ⟨hg, trivial⟩

theorem setTenant_stamps {id : Nat} {name : String} (row : Row) (h : row.key = .tenant id) :
    (setTenant name now row).key = .tenant id ∧ (setTenant name now row).updatedAt = now := by
  cases row with
  | tenant => exact ⟨h, rfl⟩
  | workspace | plugin | binding => cases h

theorem setWorkspace_stamps {id : Nat} {name : String} (row : Row) (h : row.key = .workspace id) :
    (setWorkspace name now row).key = .workspace id ∧ (setWorkspace name now row).updatedAt = now := by
  cases row with
  | workspace => exact ⟨h, rfl⟩
  | tenant | plugin | binding => cases h

theorem setPlugin_stamps {id : Nat} {spec : ValidatedPlugin} (row : Row) (h : row.key = .plugin id) :
    (setPlugin spec now row).key = .plugin id ∧ (setPlugin spec now row).updatedAt = now := by
  cases row with
  | plugin => exact ⟨h, rfl⟩
  | tenant | workspace | binding => cases h

theorem setPluginColumns_stamps {id : Nat} {read entry : ValidatedPlugin} (row : Row)
    (h : row.key = .plugin id) : (setPluginColumns read entry now row).key = .plugin id ∧
      (setPluginColumns read entry now row).updatedAt = now := by
  cases row with
  | plugin => exact ⟨h, rfl⟩
  | tenant | workspace | binding => cases h

theorem setBinding_stamps {workspaceId pluginId : Nat} {config : Option Json} (row : Row)
    (h : row.key = .binding workspaceId pluginId) :
    (setBinding config now row).key = .binding workspaceId pluginId ∧
      (setBinding config now row).updatedAt = now := by
  cases row with
  | binding => exact ⟨h, rfl⟩
  | tenant | workspace | plugin => cases h

end

-- ════════════════════════════════════════════════════════════════════════
-- Handlers
-- ════════════════════════════════════════════════════════════════════════

variable {caller : Caller} {tenantName name : String} {id workspaceId pluginId since : Nat}
  {lock : Option Nat} {config : Option Json}

theorem stamps_createTenant : StampsRows (createTenant caller name) := by
  intro g hg
  simp only [createTenant, Program.follows_bind, follows_lift, follows_query]
  intro _ _ _ _ seen
  split
  next => exact follows_throwApi.mpr trivial
  next =>
    simp only [follows_insertRow, Program.follows_bind, Program.follows_now, Program.follows_commitWork,
      Program.follows_reply]
    refine fun now => ⟨allowed_insert hg fun _ => rfl, fun id answer => ?_⟩
    cases answer <;> trivial

theorem stamps_updateTenant : StampsRows (updateTenant caller id name since) := by
  intro g hg
  simp only [updateTenant, Program.follows_bind, follows_lift, follows_query]
  intro _ _ _ _ seen live _ _ _ seen'
  split
  next => exact follows_throwApi.mpr trivial
  next =>
    simp only [follows_updateRow, Program.follows_bind, Program.follows_now, Program.follows_commitWork]
    exact fun now => ⟨allowed_update hg setTenant_stamps, trivial⟩

theorem stamps_deleteTenant : StampsRows (deleteTenant caller id lock) := by
  intro g hg
  simp only [deleteTenant, Program.follows_bind, follows_lift, follows_query, follows_checkOptionalLock]
  intro _ _ seen live _ _ seen'
  split
  next => simp
  next =>
    simp only [follows_deleteRow, Program.follows_bind, Program.follows_commitWork]
    exact ⟨allowed_delete hg, trivial⟩

theorem stamps_createWorkspace : StampsRows (createWorkspace caller tenantName name) := by
  intro g hg
  simp only [createWorkspace, Program.follows_bind, follows_lift, follows_query]
  intro _ _ _ _ seen tenantId _ seen'
  split
  next => exact follows_throwApi.mpr trivial
  next =>
    simp only [follows_insertRow, Program.follows_bind, Program.follows_now, Program.follows_commitWork]
    exact fun now => ⟨allowed_insert hg fun _ => rfl, fun _ => trivial⟩

theorem stamps_updateWorkspace : StampsRows (updateWorkspace caller tenantName id name since) := by
  intro g hg
  simp only [updateWorkspace, Program.follows_bind, follows_lift, follows_query]
  intro _ _ _ _ seen tenantId _
  refine follows_ownWorkspace fun seen' live _ _ _ _ seen'' => ?_
  split
  next => exact follows_throwApi.mpr trivial
  next =>
    simp only [follows_updateRow, Program.follows_bind, Program.follows_now, Program.follows_commitWork]
    exact fun now => ⟨allowed_update hg setWorkspace_stamps, trivial⟩

theorem stamps_deleteWorkspace : StampsRows (deleteWorkspace caller tenantName id lock) := by
  intro g hg
  simp only [deleteWorkspace, Program.follows_bind, follows_lift, follows_query,
    follows_checkOptionalLock]
  intro _ _ seen tenantId _
  refine follows_ownWorkspace fun seen' live _ _ _ seen'' seen''' tenant _ => ?_
  refine follows_terminateBindings (P := fun g => g.committed = false) (fun _ _ h => h) ?_ hg
  intro g hg
  simp only [follows_deleteRow, Program.follows_commitWork]
  exact ⟨allowed_delete hg, trivial⟩

theorem stamps_createPlugin {double : UInt64 → List Char} {raw : RawPluginEntry} :
    StampsRows (createPlugin double caller raw) := by
  intro g hg
  simp only [createPlugin, Program.follows_bind, follows_lift, follows_query]
  intro _ _ validated _ _ _ seen
  split
  next => exact follows_throwApi.mpr trivial
  next =>
    simp only [follows_insertRow, Program.follows_bind, Program.follows_now, Program.follows_commitWork]
    exact fun now => ⟨allowed_insert hg fun _ => rfl, fun _ => trivial⟩

theorem stamps_updatePlugin {double : UInt64 → List Char} {raw : RawPluginEntry} :
    StampsRows (updatePlugin double caller id raw since) := by
  intro g hg
  simp only [updatePlugin, Program.follows_bind, follows_lift, follows_query]
  intro _ _ validated _ seen live _ _ _ _ _ seen'
  split
  next => exact follows_throwApi.mpr trivial
  next =>
    simp only [follows_updateRow, Program.follows_bind, Program.follows_now, Program.follows_commitWork]
    exact fun now => ⟨allowed_update hg setPlugin_stamps, trivial⟩

theorem stamps_deletePlugin : StampsRows (deletePlugin caller id lock) := by
  intro g hg
  simp only [deletePlugin, Program.follows_bind, follows_lift, follows_query, follows_checkOptionalLock]
  intro _ _ seen live _ _ seen'
  split
  next =>
    rw [Program.follows_bind]
    refine follows_dependentNames (P := fun _ => True) (fun _ _ _ => trivial) (fun _ names _ => ?_) trivial
    simp
  next =>
    simp only [follows_deleteRow, Program.follows_bind, Program.follows_commitWork]
    exact ⟨allowed_delete hg, trivial⟩

theorem stamps_createWorkspacePlugin :
    StampsRows (createWorkspacePlugin caller tenantName workspaceId pluginId config) := by
  intro g hg
  simp only [createWorkspacePlugin, Program.follows_bind, follows_lift, follows_query]
  intro _ _ seen names _ seen'
  split
  next => exact follows_throwApi.mpr trivial
  next =>
    simp only [follows_insertRow, Program.follows_bind, Program.follows_now, Program.follows_commitWork,
      follows_lift]
    exact fun config' _ now => ⟨allowed_insert hg fun _ => rfl, fun _ => trivial⟩

theorem stamps_updateWorkspacePlugin :
    StampsRows (updateWorkspacePlugin caller tenantName workspaceId pluginId config since) := by
  intro g hg
  simp only [updateWorkspacePlugin, liveBinding, Program.follows_bind, follows_lift, follows_query,
    Program.follows_now]
  intro _ _ seen live _ _ _ newConfig _ now seen' names _
  refine follows_terminateTriple ?_
  simp only [follows_updateRow, Program.follows_commitWork]
  exact ⟨allowed_update hg setBinding_stamps, trivial⟩

theorem stamps_deleteWorkspacePlugin :
    StampsRows (deleteWorkspacePlugin caller tenantName workspaceId pluginId lock) := by
  intro g hg
  simp only [deleteWorkspacePlugin, liveBinding, Program.follows_bind, follows_lift, follows_query,
    follows_checkOptionalLock]
  intro _ _ seen live _ _ seen' names _
  refine follows_terminateTriple ?_
  simp only [follows_deleteRow, Program.follows_commitWork]
  exact ⟨allowed_delete hg, trivial⟩

-- ════════════════════════════════════════════════════════════════════════
-- Bootstrap
-- ════════════════════════════════════════════════════════════════════════

theorem stamps_upsertPlugin {entry : ValidatedPlugin} : StampsOpen (upsertPlugin entry) := by
  intro g hg
  simp only [upsertPlugin, Program.follows_bind, follows_query]
  intro seen
  split
  next row _ =>
    split
    next => exact hg
    next =>
      simp only [follows_updateRow, Program.follows_bind, Program.follows_now, Program.follows_pure]
      exact fun now => ⟨allowed_update hg setPluginColumns_stamps, hg⟩
  next =>
    simp only [follows_insertRow, Program.follows_bind, Program.follows_now]
    exact fun now => ⟨allowed_insert hg fun _ => rfl, fun _ => hg⟩

theorem stamps_upsertTenant : StampsOpen (upsertTenant name) := by
  intro g hg
  simp only [upsertTenant, Program.follows_bind, follows_query]
  intro seen
  split
  next => exact hg
  next =>
    simp only [follows_insertRow, Program.follows_bind, Program.follows_now]
    exact fun now => ⟨allowed_insert hg fun _ => rfl, fun _ => hg⟩

theorem stamps_upsertWorkspace {tenantId : Nat} : StampsOpen (upsertWorkspace tenantId name) := by
  intro g hg
  simp only [upsertWorkspace, Program.follows_bind, follows_query]
  intro seen
  split
  next => exact hg
  next =>
    simp only [follows_insertRow, Program.follows_bind, Program.follows_now]
    exact fun now => ⟨allowed_insert hg fun _ => rfl, fun _ => hg⟩

theorem stamps_upsertBinding : StampsOpen (upsertBinding workspaceId pluginId config) := by
  intro g hg
  simp only [upsertBinding, Program.follows_bind, follows_query]
  intro seen
  split
  next row _ =>
    split
    next => exact hg
    next =>
      simp only [follows_updateRow, Program.follows_bind, Program.follows_now]
      exact fun now => ⟨allowed_update hg setBinding_stamps, hg⟩
  next =>
    simp only [follows_insertRow, Program.follows_bind, Program.follows_now]
    exact fun now => ⟨allowed_insert hg fun _ => rfl, fun _ => hg⟩

theorem stamps_applyPlugins {pluginIds : List (String × Nat)} {entries : List ValidatedPlugin} :
    StampsOpen (applyPlugins pluginIds entries) := by
  induction entries generalizing pluginIds with
  | nil => exact fun _ hg => hg
  | cons entry entries ih => exact StampsOpen.bind stamps_upsertPlugin fun id => ih

theorem stamps_applyBindings {pluginIds : List (String × Nat)} {tenant workspace : String}
    {bindings : List WorkspacePluginEntry} :
    StampsOpen (applyBindings pluginIds tenant workspace workspaceId bindings) := by
  induction bindings with
  | nil => exact fun _ hg => hg
  | cons binding bindings ih =>
    unfold applyBindings
    split
    next => exact fun _ _ => by simp
    next pluginId _ => exact StampsOpen.bind stamps_upsertBinding fun _ => ih

theorem stamps_applyWorkspaces {pluginIds : List (String × Nat)} {tenant : String} {tenantId : Nat}
    {entries : List WorkspaceEntry} :
    StampsOpen (applyWorkspaces pluginIds tenant tenantId entries) := by
  induction entries with
  | nil => exact fun _ hg => hg
  | cons entry entries ih =>
    exact StampsOpen.bind stamps_upsertWorkspace fun workspaceId =>
      StampsOpen.bind stamps_applyBindings fun _ => ih

theorem stamps_applyTenants {pluginIds : List (String × Nat)} {entries : List TenantEntry} :
    StampsOpen (applyTenants pluginIds entries) := by
  induction entries with
  | nil => exact fun _ hg => hg
  | cons entry entries ih =>
    exact StampsOpen.bind stamps_upsertTenant fun tenantId =>
      StampsOpen.bind stamps_applyWorkspaces fun _ => ih

theorem stamps_applyBootstrap {bootstrap : BootstrapConfig} : StampsRows (applyBootstrap bootstrap) :=
  StampsOpen.bind stamps_applyPlugins fun _ =>
    StampsOpen.bind stamps_applyTenants fun _ _ _ => trivial

/-- Every request stamps the rows it writes. -/
theorem rows_stamped (double : UInt64 → List Char) : rowStamps.Disciplined (writes double) := by
  rintro ⟨caller, write⟩
  cases write with
  | createTenant => exact stamps_createTenant _ rfl
  | updateTenant => exact stamps_updateTenant _ rfl
  | deleteTenant => exact stamps_deleteTenant _ rfl
  | createWorkspace => exact stamps_createWorkspace _ rfl
  | updateWorkspace => exact stamps_updateWorkspace _ rfl
  | deleteWorkspace => exact stamps_deleteWorkspace _ rfl
  | createPlugin => exact stamps_createPlugin _ rfl
  | updatePlugin => exact stamps_updatePlugin _ rfl
  | deletePlugin => exact stamps_deletePlugin _ rfl
  | createWorkspacePlugin => exact stamps_createWorkspacePlugin _ rfl
  | updateWorkspacePlugin => exact stamps_updateWorkspacePlugin _ rfl
  | deleteWorkspacePlugin => exact stamps_deleteWorkspacePlugin _ rfl
  | bootstrap => exact stamps_applyBootstrap _ rfl

end Botwork.System.ConfigServer
