import Botwork.Bootstrap.Apply
import Botwork.Foundations.Rows

/-!
# The upserts of a bootstrap config

`apply_with_store` walks the tree of a config, carries the ids of the rows it
meets from one level to the next and counts what it does.  Seen from the tables it
is a list of upserts, one for each node, each of which finds the rows above it by
their names.  An upsert leaves its row as it is listed, and undoes no other one
unless the two are for the same row.

## Main definitions

- `ApplyStats`, `applyWithStore` — the walk and what it reports
- `Upsert`, `upserts` — the nodes of a config, in order
- `Upsert.Holds` — the row of a node is as it is listed

## Main results

- `applyWithStore_tables` — without its report the walk is `apply`
- `applyWithStore_eq` — the walk is the run of its upserts
- `runUpserts_holds` — after a run without clashes every node holds
- `runUpserts_of_holds` — a run whose nodes hold changes nothing
-/

namespace Botwork.Bootstrap

open Botwork.Foundations Botwork.ApiCore Botwork.Db

/-! ### The walk -/

inductive UpsertOutcome where
  | inserted
  | updated
  | unchanged
  deriving DecidableEq

structure ApplyStats where
  pluginsInserted : Nat
  pluginsUpdated : Nat
  tenantsInserted : Nat
  tenantsUpdated : Nat
  workspacesInserted : Nat
  workspacesUpdated : Nat
  bindingsInserted : Nat
  bindingsUpdated : Nat
  deriving DecidableEq

namespace ApplyStats

def zero : ApplyStats := ⟨0, 0, 0, 0, 0, 0, 0, 0⟩

def plugin (stats : ApplyStats) : UpsertOutcome → ApplyStats
  | .inserted => { stats with pluginsInserted := stats.pluginsInserted + 1 }
  | .updated => { stats with pluginsUpdated := stats.pluginsUpdated + 1 }
  | .unchanged => stats

/-- A tenant that is found counts as updated. -/
def tenant (stats : ApplyStats) : UpsertOutcome → ApplyStats
  | .inserted => { stats with tenantsInserted := stats.tenantsInserted + 1 }
  | .updated | .unchanged => { stats with tenantsUpdated := stats.tenantsUpdated + 1 }

/-- A workspace that is found counts as updated. -/
def workspace (stats : ApplyStats) : UpsertOutcome → ApplyStats
  | .inserted => { stats with workspacesInserted := stats.workspacesInserted + 1 }
  | .updated | .unchanged => { stats with workspacesUpdated := stats.workspacesUpdated + 1 }

def binding (stats : ApplyStats) : UpsertOutcome → ApplyStats
  | .inserted => { stats with bindingsInserted := stats.bindingsInserted + 1 }
  | .updated => { stats with bindingsUpdated := stats.bindingsUpdated + 1 }
  | .unchanged => stats

end ApplyStats

section

variable (uuid : Tables → Nat) (now : Nat)

/-- `db_upsert_plugin`: the id, what was done, and the tables. -/
def dbUpsertPlugin (db : Tables) (entry : ValidatedPlugin) :
    Except BootstrapError (Nat × UpsertOutcome × Tables) := do
  let outcome : UpsertOutcome :=
    match findRow (·.spec.name) db.plugins entry.name with
    | some row => if row.spec = entry then .unchanged else .updated
    | none => .inserted
  let (id, db) ← upsertPlugin uuid now db entry
  return (id, outcome, db)

def dbUpsertTenant (db : Tables) (name : String) :
    Except BootstrapError (Nat × UpsertOutcome × Tables) := do
  let outcome : UpsertOutcome :=
    if (findRow (·.name) db.tenants name).isSome then .updated else .inserted
  let (id, db) ← upsertTenant uuid now db name
  return (id, outcome, db)

def dbUpsertWorkspace (db : Tables) (tenantId : Nat) (name : String) :
    Except BootstrapError (Nat × UpsertOutcome × Tables) := do
  let outcome : UpsertOutcome :=
    if (findRow (fun row => (row.tenantId, row.name)) db.workspaces (tenantId, name)).isSome then
      .updated
    else .inserted
  let (id, db) ← upsertWorkspace uuid now db tenantId name
  return (id, outcome, db)

def dbUpsertBinding (db : Tables) (workspaceId pluginId : Nat) (config : Option Json) :
    Except BootstrapError (UpsertOutcome × Tables) := do
  let outcome : UpsertOutcome :=
    match findRow (fun row => (row.workspaceId, row.pluginId)) db.bindings (workspaceId, pluginId) with
    | some row => if row.config = config then .unchanged else .updated
    | none => .inserted
  let db ← upsertBinding now db workspaceId pluginId config
  return (outcome, db)

/-- The first loop of `apply_with_store`. -/
def storePlugins (stats : ApplyStats) (pluginIds : List (String × Nat)) (db : Tables) :
    List ValidatedPlugin → Except BootstrapError (ApplyStats × List (String × Nat) × Tables)
  | [] => .ok (stats, pluginIds, db)
  | entry :: entries => do
    let (id, outcome, db) ← dbUpsertPlugin uuid now db entry
    storePlugins (stats.plugin outcome) ((entry.name, id) :: pluginIds) db entries

section

variable (pluginIds : List (String × Nat))

def storeBindings (tenant workspace : String) (workspaceId : Nat) (stats : ApplyStats)
    (db : Tables) : List WorkspacePluginEntry → Except BootstrapError (ApplyStats × Tables)
  | [] => .ok (stats, db)
  | binding :: bindings =>
    match pluginIds.lookup binding.name with
    | none => .error (.unknownPluginRef tenant workspace binding.name)
    | some pluginId => do
      let (outcome, db) ← dbUpsertBinding now db workspaceId pluginId binding.config
      storeBindings tenant workspace workspaceId (stats.binding outcome) db bindings

def storeWorkspaces (tenant : String) (tenantId : Nat) (stats : ApplyStats) (db : Tables) :
    List WorkspaceEntry → Except BootstrapError (ApplyStats × Tables)
  | [] => .ok (stats, db)
  | entry :: entries => do
    let (workspaceId, outcome, db) ← dbUpsertWorkspace uuid now db tenantId entry.name
    let (stats, db) ← storeBindings now pluginIds tenant entry.name workspaceId
      (stats.workspace outcome) db entry.plugins
    storeWorkspaces tenant tenantId stats db entries

/-- The second loop of `apply_with_store`. -/
def storeTenants (stats : ApplyStats) (db : Tables) :
    List TenantEntry → Except BootstrapError (ApplyStats × Tables)
  | [] => .ok (stats, db)
  | entry :: entries => do
    let (tenantId, outcome, db) ← dbUpsertTenant uuid now db entry.name
    let (stats, db) ← storeWorkspaces uuid now pluginIds entry.name tenantId
      (stats.tenant outcome) db entry.workspaces
    storeTenants stats db entries

end

def applyWithStore (db : Tables) (config : BootstrapConfig) :
    Except BootstrapError (ApplyStats × Tables) := do
  let (stats, pluginIds, db) ← storePlugins uuid now .zero [] db config.plugins
  storeTenants uuid now pluginIds stats db config.tenants

end

/-! ### The tables of the walk -/

section

variable {uuid : Tables → Nat} {now : Nat} {pluginIds : List (String × Nat)}

theorem map_snd_bind {α β γ : Type} {x : Except BootstrapError (α × β)}
    {f : α → β → Except BootstrapError (α × γ)} {g : β → Except BootstrapError γ}
    (h : ∀ a b, (f a b).map Prod.snd = g b) :
    (x >>= fun r => f r.1 r.2).map Prod.snd = x.map Prod.snd >>= g := by
  cases x with
  | error err => rfl
  | ok r => exact h r.1 r.2

theorem storePlugins_tables (uuid : Tables → Nat) (now : Nat) (stats : ApplyStats)
    (pluginIds : List (String × Nat)) (db : Tables) (entries : List ValidatedPlugin) :
    (storePlugins uuid now stats pluginIds db entries).map Prod.snd =
      applyPlugins uuid now db pluginIds entries := by
  induction entries generalizing stats pluginIds db with
  | nil => rfl
  | cons entry entries ih =>
    rw [storePlugins, applyPlugins, dbUpsertPlugin]
    cases upsertPlugin uuid now db entry with
    | error err => rfl
    | ok r => exact ih _ _ _

theorem storeBindings_tables {tenant workspace : String} {workspaceId : Nat} (stats : ApplyStats)
    (db : Tables) (bindings : List WorkspacePluginEntry) :
    (storeBindings now pluginIds tenant workspace workspaceId stats db bindings).map Prod.snd =
      applyBindings now pluginIds tenant workspace workspaceId db bindings := by
  induction bindings generalizing stats db with
  | nil => rfl
  | cons binding bindings ih =>
    rw [storeBindings, applyBindings]
    cases pluginIds.lookup binding.name with
    | none => rfl
    | some pluginId =>
      simp only [dbUpsertBinding]
      cases upsertBinding now db workspaceId pluginId binding.config with
      | error err => rfl
      | ok db₁ => exact ih _ _

theorem storeWorkspaces_tables {tenant : String} {tenantId : Nat} (stats : ApplyStats)
    (db : Tables) (entries : List WorkspaceEntry) :
    (storeWorkspaces uuid now pluginIds tenant tenantId stats db entries).map Prod.snd =
      applyWorkspaces uuid now pluginIds tenant tenantId db entries := by
  induction entries generalizing stats db with
  | nil => rfl
  | cons entry entries ih =>
    rw [storeWorkspaces, applyWorkspaces, dbUpsertWorkspace]
    cases upsertWorkspace uuid now db tenantId entry.name with
    | error err => rfl
    | ok r =>
      obtain ⟨workspaceId, db₁⟩ := r
      show ((storeBindings now pluginIds tenant entry.name workspaceId _ db₁ entry.plugins >>=
        fun r => storeWorkspaces uuid now pluginIds tenant tenantId r.1 r.2 entries).map Prod.snd) =
          applyBindings now pluginIds tenant entry.name workspaceId db₁ entry.plugins >>= _
      rw [map_snd_bind ih, storeBindings_tables]

theorem storeTenants_tables (stats : ApplyStats) (db : Tables) (entries : List TenantEntry) :
    (storeTenants uuid now pluginIds stats db entries).map Prod.snd =
      applyTenants uuid now pluginIds db entries := by
  induction entries generalizing stats db with
  | nil => rfl
  | cons entry entries ih =>
    rw [storeTenants, applyTenants, dbUpsertTenant]
    cases upsertTenant uuid now db entry.name with
    | error err => rfl
    | ok r =>
      obtain ⟨tenantId, db₁⟩ := r
      show ((storeWorkspaces uuid now pluginIds entry.name tenantId _ db₁ entry.workspaces >>=
        fun r => storeTenants uuid now pluginIds r.1 r.2 entries).map Prod.snd) =
          applyWorkspaces uuid now pluginIds entry.name tenantId db₁ entry.workspaces >>= _
      rw [map_snd_bind ih, storeWorkspaces_tables]

/-- Without its report the walk is `apply`. -/
theorem applyWithStore_tables {db : Tables} {config : BootstrapConfig} :
    (applyWithStore uuid now db config).map Prod.snd = apply uuid now db config := by
  have hplugins := storePlugins_tables uuid now .zero [] db config.plugins
  rw [applyWithStore, apply, ← hplugins]
  cases storePlugins uuid now .zero [] db config.plugins with
  | error err => rfl
  | ok r => exact storeTenants_tables _ _ _

end

/-! ### The upserts of a config -/

/-- A node of a config. -/
inductive Upsert where
  | plugin (entry : ValidatedPlugin)
  | tenant (name : String)
  | workspace (tenant name : String)
  | binding (tenant workspace plugin : String) (config : Option Json)

def bindingUpserts (tenant workspace : String) (bindings : List WorkspacePluginEntry) :
    List Upsert :=
  bindings.map fun binding => .binding tenant workspace binding.name binding.config

def workspaceUpserts (tenant : String) (entry : WorkspaceEntry) : List Upsert :=
  .workspace tenant entry.name :: bindingUpserts tenant entry.name entry.plugins

def tenantUpserts (entry : TenantEntry) : List Upsert :=
  .tenant entry.name :: entry.workspaces.flatMap (workspaceUpserts entry.name)

/-- The nodes of a config in the order of the walk. -/
def upserts (config : BootstrapConfig) : List Upsert :=
  config.plugins.map .plugin ++ config.tenants.flatMap tenantUpserts

def tenantId? (db : Tables) (name : String) : Option Nat :=
  (findRow (·.name) db.tenants name).map (·.id)

def workspaceId? (db : Tables) (tenant name : String) : Option Nat :=
  (tenantId? db tenant).bind fun tenantId =>
    (findRow (fun row => (row.tenantId, row.name)) db.workspaces (tenantId, name)).map (·.id)

def pluginId? (db : Tables) (name : String) : Option Nat :=
  (findRow (·.spec.name) db.plugins name).map (·.id)

def bindingOf (db : Tables) (workspaceId pluginId : Nat) : Option BindingRow :=
  findRow (fun row => (row.workspaceId, row.pluginId)) db.bindings (workspaceId, pluginId)

section

variable (uuid : Tables → Nat) (now : Nat)

/-- An upsert that finds the rows above its own by their names. -/
def Upsert.run (db : Tables) : Upsert → Except BootstrapError (UpsertOutcome × Tables)
  | .plugin entry => (dbUpsertPlugin uuid now db entry).map Prod.snd
  | .tenant name => (dbUpsertTenant uuid now db name).map Prod.snd
  | .workspace tenantName name =>
    match tenantId? db tenantName with
    | some tenantId => (dbUpsertWorkspace uuid now db tenantId name).map Prod.snd
    | none => .error .db
  | .binding tenantName workspaceName pluginName config =>
    match workspaceId? db tenantName workspaceName, pluginId? db pluginName with
    | some workspaceId, some pluginId => dbUpsertBinding now db workspaceId pluginId config
    | _, _ => .error .db

def Upsert.count (stats : ApplyStats) (outcome : UpsertOutcome) : Upsert → ApplyStats
  | .plugin _ => stats.plugin outcome
  | .tenant _ => stats.tenant outcome
  | .workspace _ _ => stats.workspace outcome
  | .binding _ _ _ _ => stats.binding outcome

def runUpserts (stats : ApplyStats) (db : Tables) :
    List Upsert → Except BootstrapError (ApplyStats × Tables)
  | [] => .ok (stats, db)
  | upsert :: rest => do
    let (outcome, db) ← upsert.run uuid now db
    runUpserts (upsert.count stats outcome) db rest

end

/-! ### What an upsert does -/

/-- The primary keys of the tables. -/
structure KeyedTables (db : Tables) : Prop where
  tenants : Keyed (·.id) db.tenants
  workspaces : Keyed (·.id) db.workspaces
  plugins : Keyed (·.id) db.plugins
  bindings : Keyed (fun row => (row.workspaceId, row.pluginId)) db.bindings

section

variable {uuid : Tables → Nat} {now : Nat} {db db' : Tables} {id : Nat} {outcome : UpsertOutcome}

theorem executed_eq_ok {result : Option Tables} : executed result = .ok db ↔ result = some db := by
  cases result <;> simp [executed]

theorem put_upsertPlugin {entry : ValidatedPlugin} (hkeyed : Keyed (·.id) db.plugins)
    (h : dbUpsertPlugin uuid now db entry = .ok (id, outcome, db')) :
    ∃ row, row.id = id ∧ row.spec = entry ∧
      Put (·.id) (·.spec.name) db.plugins row db'.plugins ∧
      db' = { db with plugins := db'.plugins } := by
  obtain ⟨⟨id', db''⟩, hupsert, h⟩ := bind_eq_ok.mp h
  cases h
  unfold upsertPlugin at hupsert
  split at hupsert
  next row hfind =>
    have hfound : findRow (·.spec.name) db.plugins entry.name = some row := hfind
    obtain ⟨-, hname⟩ := findRow_eq_some hfound
    split at hupsert
    next hsame =>
      cases hupsert
      refine ⟨row, rfl, hsame, .refl hkeyed ?_, rfl⟩
      rw [hname]
      exact hfound
    next =>
      obtain ⟨db₁, hexec, hupsert⟩ := bind_eq_ok.mp hupsert
      cases hupsert
      rw [Tables.updatePlugin_eq_some (executed_eq_ok.mp hexec)]
      exact ⟨{ row with spec := entry, updatedAt := now }, rfl, rfl, .replace hkeyed hfound rfl, rfl⟩
  next hnone =>
    obtain ⟨db₁, hexec, hupsert⟩ := bind_eq_ok.mp hupsert
    cases hupsert
    obtain ⟨hdb, hfresh⟩ := Tables.insertPlugin_eq_some (executed_eq_ok.mp hexec)
    rw [hdb]
    exact ⟨⟨uuid db, entry, now⟩, rfl, rfl, .append hkeyed hfresh hnone, rfl⟩

theorem insertTenant_fresh {row : TenantRow} (h : db.insertTenant row = some db') :
    ∀ r ∈ db.tenants, r.id ≠ row.id := by
  unfold Tables.insertTenant at h
  split_ifs at h with hrefused
  intro r hr hid
  apply hrefused
  exact .inr (List.any_eq_true.mpr ⟨r, hr, by simp [hid]⟩)

theorem insertWorkspace_fresh {row : WorkspaceRow} (h : db.insertWorkspace row = some db') :
    ∀ r ∈ db.workspaces, r.id ≠ row.id := by
  unfold Tables.insertWorkspace at h
  split_ifs at h with hrefused
  intro r hr hid
  apply hrefused
  exact .inr (List.any_eq_true.mpr ⟨r, hr, by simp [hid]⟩)

theorem put_upsertTenant {name : String} (hkeyed : Keyed (·.id) db.tenants)
    (h : dbUpsertTenant uuid now db name = .ok (id, outcome, db')) :
    ∃ row, row.id = id ∧ row.name = name ∧ Put (·.id) (·.name) db.tenants row db'.tenants ∧
      db' = { db with tenants := db'.tenants } := by
  obtain ⟨⟨id', db''⟩, hupsert, h⟩ := bind_eq_ok.mp h
  cases h
  unfold upsertTenant at hupsert
  split at hupsert
  next row hfind =>
    have hfound : findRow (·.name) db.tenants name = some row := hfind
    obtain ⟨-, hname⟩ := findRow_eq_some hfound
    cases hupsert
    refine ⟨row, rfl, hname, .refl hkeyed ?_, rfl⟩
    rw [hname]
    exact hfound
  next hnone =>
    obtain ⟨db₁, hexec, hupsert⟩ := bind_eq_ok.mp hupsert
    cases hupsert
    have hinsert := executed_eq_ok.mp hexec
    have hfresh := insertTenant_fresh hinsert
    rw [Tables.insertTenant_eq_some hinsert]
    exact ⟨⟨uuid db, name, now⟩, rfl, rfl, .append hkeyed hfresh hnone, rfl⟩

theorem put_upsertWorkspace {tenantId : Nat} {name : String} (hkeyed : Keyed (·.id) db.workspaces)
    (h : dbUpsertWorkspace uuid now db tenantId name = .ok (id, outcome, db')) :
    ∃ row, row.id = id ∧ (row.tenantId, row.name) = (tenantId, name) ∧
      Put (·.id) (fun row => (row.tenantId, row.name)) db.workspaces row db'.workspaces ∧
      db' = { db with workspaces := db'.workspaces } := by
  obtain ⟨⟨id', db''⟩, hupsert, h⟩ := bind_eq_ok.mp h
  cases h
  unfold upsertWorkspace at hupsert
  rw [← findRow_pair] at hupsert
  split at hupsert
  next row hfound =>
    obtain ⟨-, hname⟩ := findRow_eq_some hfound
    cases hupsert
    refine ⟨row, rfl, hname, .refl hkeyed ?_, rfl⟩
    rw [hname]
    exact hfound
  next hnone =>
    obtain ⟨db₁, hexec, hupsert⟩ := bind_eq_ok.mp hupsert
    cases hupsert
    have hinsert := executed_eq_ok.mp hexec
    have hfresh := insertWorkspace_fresh hinsert
    rw [Tables.insertWorkspace_eq_some hinsert]
    exact ⟨⟨uuid db, tenantId, name, now⟩, rfl, rfl, .append hkeyed hfresh hnone, rfl⟩

theorem put_upsertBinding {workspaceId pluginId : Nat} {config : Option Json}
    (hkeyed : Keyed (fun row => (row.workspaceId, row.pluginId)) db.bindings)
    (h : dbUpsertBinding now db workspaceId pluginId config = .ok (outcome, db')) :
    ∃ row, (row.workspaceId, row.pluginId) = (workspaceId, pluginId) ∧ row.config = config ∧
      Put (fun row => (row.workspaceId, row.pluginId)) (fun row => (row.workspaceId, row.pluginId))
        db.bindings row db'.bindings ∧
      db' = { db with bindings := db'.bindings } := by
  obtain ⟨db'', hupsert, h⟩ := bind_eq_ok.mp h
  cases h
  unfold upsertBinding at hupsert
  rw [← findRow_pair] at hupsert
  split at hupsert
  next row hfound =>
    obtain ⟨-, hname⟩ := findRow_eq_some hfound
    split at hupsert
    next hsame =>
      cases hupsert
      refine ⟨row, hname, hsame, .refl hkeyed ?_, rfl⟩
      rw [hname]
      exact hfound
    next =>
      have hreplaced : db'.bindings = replaceRow (fun row => (row.workspaceId, row.pluginId))
          { row with config, updatedAt := now } db.bindings := by
        rw [Tables.updateBinding_eq_some (executed_eq_ok.mp hupsert)]
        simp only [replaceRow, Prod.mk.injEq]
      have hfound' : findRow (fun row => (row.workspaceId, row.pluginId)) db.bindings
          (row.workspaceId, row.pluginId) = some row := by
        rw [hname]
        exact hfound
      refine ⟨{ row with config, updatedAt := now }, hname, rfl, ?_, ?_⟩
      · rw [hreplaced]
        exact .replace hkeyed hfound' rfl
      · rw [Tables.updateBinding_eq_some (executed_eq_ok.mp hupsert)]
  next hnone =>
    have hinsert := executed_eq_ok.mp hupsert
    rw [Tables.insertBinding_eq_some hinsert]
    exact ⟨⟨workspaceId, pluginId, config, now⟩, rfl, rfl,
      .append hkeyed (fun _ => findRow_eq_none hnone) hnone, rfl⟩

/-! ### One upsert and the others -/

/-- The row of the node is as it is listed. -/
def Upsert.Holds (db : Tables) : Upsert → Prop
  | .plugin entry =>
    ∃ row, findRow (·.spec.name) db.plugins entry.name = some row ∧ row.spec = entry
  | .tenant name => (tenantId? db name).isSome = true
  | .workspace tenantName name => (workspaceId? db tenantName name).isSome = true
  | .binding tenantName workspaceName pluginName config =>
    ∃ workspaceId pluginId row, workspaceId? db tenantName workspaceName = some workspaceId ∧
      pluginId? db pluginName = some pluginId ∧ bindingOf db workspaceId pluginId = some row ∧
      row.config = config

/-- Two nodes that write one row. -/
def Upsert.Clash : Upsert → Upsert → Prop
  | .plugin entry, .plugin other => entry.name = other.name
  | .binding tenantName workspaceName pluginName _, .binding tenantName' workspaceName' pluginName' _ =>
    tenantName = tenantName' ∧ workspaceName = workspaceName' ∧ pluginName = pluginName'
  | _, _ => False

theorem Upsert.Clash.symm {upsert other : Upsert} (h : upsert.Clash other) :
    other.Clash upsert := by
  cases upsert <;> cases other <;> first | exact h.elim | skip
  · exact Eq.symm h
  · obtain ⟨rfl, rfl, rfl⟩ := h
    exact ⟨rfl, rfl, rfl⟩

/-- Every name that is there keeps its id. -/
structure SameIds (db db' : Tables) : Prop where
  tenants : ∀ name id, tenantId? db name = some id → tenantId? db' name = some id
  workspaces : ∀ tenant name id, workspaceId? db tenant name = some id →
    workspaceId? db' tenant name = some id
  plugins : ∀ name id, pluginId? db name = some id → pluginId? db' name = some id

theorem map_id_stable {ρ ν : Type} [DecidableEq ν] {key : ρ → Nat} {name : ρ → ν} {rows rows' : List ρ}
    {row : ρ} (hput : Put key name rows row rows') {n : ν} {id : Nat}
    (h : (findRow name rows n).map key = some id) : (findRow name rows' n).map key = some id := by
  obtain ⟨found, hfound, rfl⟩ := Option.map_eq_some_iff.mp h
  obtain ⟨found', hfound', hkey⟩ := hput.stable hfound
  rw [hfound', Option.map_some, hkey]

theorem workspaceId?_inj (hkeyed : KeyedTables db) {tenant tenant' name name' : String}
    (h : workspaceId? db tenant name = some id) (h' : workspaceId? db tenant' name' = some id) :
    tenant = tenant' ∧ name = name' := by
  obtain ⟨tenantId, htenant, h⟩ := Option.bind_eq_some_iff.mp h
  obtain ⟨tenantId', htenant', h'⟩ := Option.bind_eq_some_iff.mp h'
  obtain ⟨row, hrow, rfl⟩ := Option.map_eq_some_iff.mp h
  obtain ⟨row', hrow', hid⟩ := Option.map_eq_some_iff.mp h'
  have hnames := findRow_inj hkeyed.workspaces hrow hrow' hid.symm
  rw [Prod.mk.injEq] at hnames
  obtain ⟨rfl, rfl⟩ := hnames
  obtain ⟨trow, htrow, rfl⟩ := Option.map_eq_some_iff.mp htenant
  obtain ⟨trow', htrow', htid⟩ := Option.map_eq_some_iff.mp htenant'
  exact ⟨findRow_inj hkeyed.tenants htrow htrow' htid.symm, rfl⟩

theorem pluginId?_inj (hkeyed : KeyedTables db) {name name' : String}
    (h : pluginId? db name = some id) (h' : pluginId? db name' = some id) : name = name' := by
  obtain ⟨row, hrow, rfl⟩ := Option.map_eq_some_iff.mp h
  obtain ⟨row', hrow', hid⟩ := Option.map_eq_some_iff.mp h'
  exact findRow_inj hkeyed.plugins hrow hrow' hid.symm

/-- What a write has to leave alone for another node to hold. -/
theorem Upsert.Holds.keep {other : Upsert} (h : other.Holds db) (hids : SameIds db db')
    (hplugins : ∀ entry, other = .plugin entry →
      findRow (·.spec.name) db'.plugins entry.name = findRow (·.spec.name) db.plugins entry.name)
    (hbindings : ∀ tenant workspace plugin config workspaceId pluginId,
      other = .binding tenant workspace plugin config →
      workspaceId? db tenant workspace = some workspaceId → pluginId? db plugin = some pluginId →
      bindingOf db' workspaceId pluginId = bindingOf db workspaceId pluginId) : other.Holds db' := by
  cases other with
  | plugin entry =>
    obtain ⟨row, hrow, hspec⟩ := h
    exact ⟨row, (hplugins entry rfl).trans hrow, hspec⟩
  | tenant name =>
    obtain ⟨id, hid⟩ := Option.isSome_iff_exists.mp h
    exact Option.isSome_iff_exists.mpr ⟨id, hids.tenants name id hid⟩
  | workspace tenantName name =>
    obtain ⟨id, hid⟩ := Option.isSome_iff_exists.mp h
    exact Option.isSome_iff_exists.mpr ⟨id, hids.workspaces tenantName name id hid⟩
  | binding tenantName workspaceName pluginName config =>
    obtain ⟨workspaceId, pluginId, row, hworkspace, hplugin, hrow, hconfig⟩ := h
    refine ⟨workspaceId, pluginId, row, hids.workspaces _ _ _ hworkspace,
      hids.plugins _ _ hplugin, ?_, hconfig⟩
    exact (hbindings _ _ _ _ _ _ rfl hworkspace hplugin).trans hrow

/-- What an upsert does: its node holds, names keep their ids, and no other node
    that held is undone. -/
structure Upsert.Ran (upsert : Upsert) (db db' : Tables) : Prop where
  keyed : KeyedTables db'
  ids : SameIds db db'
  holds : upsert.Holds db'
  others : ∀ other : Upsert, ¬ upsert.Clash other → other.Holds db → other.Holds db'

theorem ran_plugin {entry : ValidatedPlugin} (hkeyed : KeyedTables db)
    (h : dbUpsertPlugin uuid now db entry = .ok (id, outcome, db')) :
    (Upsert.plugin entry).Ran db db' := by
  obtain ⟨row, -, rfl, hput, hdb⟩ := put_upsertPlugin hkeyed.plugins h
  have hids : SameIds db db' := by
    rw [hdb]
    exact ⟨fun _ _ h => h, fun _ _ _ h => h, fun _ _ h => map_id_stable hput h⟩
  refine ⟨?_, hids, ⟨row, hput.found, rfl⟩, fun other hclash hother => hother.keep hids ?_ ?_⟩
  · rw [hdb]
    exact { hkeyed with plugins := hput.keyed }
  · rintro entry rfl
    exact hput.others _ fun heq => hclash heq.symm
  · intro _ _ _ _ _ _ _ _ _
    rw [hdb]
    rfl

theorem ran_tenant {name : String} (hkeyed : KeyedTables db)
    (h : dbUpsertTenant uuid now db name = .ok (id, outcome, db')) :
    (Upsert.tenant name).Ran db db' := by
  obtain ⟨row, -, rfl, hput, hdb⟩ := put_upsertTenant hkeyed.tenants h
  have htenants : ∀ n i, tenantId? db n = some i → tenantId? db' n = some i :=
    fun _ _ h => map_id_stable hput h
  have hids : SameIds db db' := by
    refine ⟨htenants, fun tenant n i h => ?_, fun _ _ h => ?_⟩
    · obtain ⟨tenantId, htenant, h⟩ := Option.bind_eq_some_iff.mp h
      refine Option.bind_eq_some_iff.mpr ⟨tenantId, htenants _ _ htenant, ?_⟩
      rw [hdb]
      exact h
    · rw [hdb]
      exact h
  refine ⟨?_, hids, ?_, fun other hclash hother => hother.keep hids ?_ ?_⟩
  · rw [hdb]
    exact { hkeyed with tenants := hput.keyed }
  · exact Option.isSome_iff_exists.mpr ⟨row.id, Option.map_eq_some_iff.mpr ⟨row, hput.found, rfl⟩⟩
  · intro _ _
    rw [hdb]
  · intro _ _ _ _ _ _ _ _ _
    rw [hdb]
    rfl

theorem ran_workspace {tenantName name : String} {tenantId : Nat} (hkeyed : KeyedTables db)
    (htenant : tenantId? db tenantName = some tenantId)
    (h : dbUpsertWorkspace uuid now db tenantId name = .ok (id, outcome, db')) :
    (Upsert.workspace tenantName name).Ran db db' := by
  obtain ⟨row, -, hname, hput, hdb⟩ := put_upsertWorkspace hkeyed.workspaces h
  have hids : SameIds db db' := by
    refine ⟨fun n i h => ?_, fun tenant n i h => ?_, fun _ _ h => ?_⟩
    · rw [hdb]
      exact h
    · obtain ⟨tenantId, htenant, h⟩ := Option.bind_eq_some_iff.mp h
      refine Option.bind_eq_some_iff.mpr ⟨tenantId, ?_, map_id_stable hput h⟩
      rw [hdb]
      exact htenant
    · rw [hdb]
      exact h
  refine ⟨?_, hids, ?_, fun other hclash hother => hother.keep hids ?_ ?_⟩
  · rw [hdb]
    exact { hkeyed with workspaces := hput.keyed }
  · have hfound := hput.found
    rw [hname] at hfound
    refine Option.isSome_iff_exists.mpr ⟨row.id, Option.bind_eq_some_iff.mpr ⟨tenantId, ?_, ?_⟩⟩
    · exact hids.tenants _ _ htenant
    · exact Option.map_eq_some_iff.mpr ⟨row, hfound, rfl⟩
  · intro _ _
    rw [hdb]
  · intro _ _ _ _ _ _ _ _ _
    rw [hdb]
    rfl

theorem ran_binding {tenantName workspaceName pluginName : String} {config : Option Json}
    {workspaceId pluginId : Nat} (hkeyed : KeyedTables db)
    (hworkspace : workspaceId? db tenantName workspaceName = some workspaceId)
    (hplugin : pluginId? db pluginName = some pluginId)
    (h : dbUpsertBinding now db workspaceId pluginId config = .ok (outcome, db')) :
    (Upsert.binding tenantName workspaceName pluginName config).Ran db db' := by
  obtain ⟨row, hname, rfl, hput, hdb⟩ := put_upsertBinding hkeyed.bindings h
  have hids : SameIds db db' := by
    rw [hdb]
    exact ⟨fun _ _ h => h, fun _ _ _ h => h, fun _ _ h => h⟩
  refine ⟨?_, hids, ?_, fun other hclash hother => hother.keep hids ?_ ?_⟩
  · rw [hdb]
    exact { hkeyed with bindings := hput.keyed }
  · have hfound := hput.found
    rw [hname] at hfound
    exact ⟨workspaceId, pluginId, row, hids.workspaces _ _ _ hworkspace,
      hids.plugins _ _ hplugin, hfound, rfl⟩
  · intro _ _
    rw [hdb]
  · -- two bindings of different names are in different rows
    rintro tenant workspace plugin config' workspaceId' pluginId' rfl hworkspace' hplugin'
    refine hput.others _ fun hkey => hclash ?_
    rw [hname, Prod.mk.injEq] at hkey
    obtain ⟨rfl, rfl⟩ := hkey
    obtain ⟨rfl, rfl⟩ := workspaceId?_inj hkeyed hworkspace hworkspace'
    exact ⟨rfl, rfl, pluginId?_inj hkeyed hplugin hplugin'⟩

/-- **What an upsert does**. -/
theorem Upsert.ran {upsert : Upsert} (hkeyed : KeyedTables db)
    (h : upsert.run uuid now db = .ok (outcome, db')) : upsert.Ran db db' := by
  cases upsert with
  | plugin entry =>
    obtain ⟨⟨id, outcome', db''⟩, hupsert, h⟩ := map_eq_ok.mp h
    cases h
    exact ran_plugin hkeyed hupsert
  | tenant name =>
    obtain ⟨⟨id, outcome', db''⟩, hupsert, h⟩ := map_eq_ok.mp h
    cases h
    exact ran_tenant hkeyed hupsert
  | workspace tenantName name =>
    simp only [run] at h
    split at h
    next tenantId htenant =>
      obtain ⟨⟨id, outcome', db''⟩, hupsert, h⟩ := map_eq_ok.mp h
      cases h
      exact ran_workspace hkeyed htenant hupsert
    next => cases h
  | binding tenantName workspaceName pluginName config =>
    simp only [run] at h
    split at h
    next workspaceId pluginId hworkspace hplugin => exact ran_binding hkeyed hworkspace hplugin h
    next => cases h

/-! ### Runs of upserts -/

variable {stats stats' : ApplyStats}

/-- **After a run** without two nodes for one row, every node of it holds, and so
    does every other one that held. -/
theorem runUpserts_holds {nodes : List Upsert} (hkeyed : KeyedTables db)
    (hclash : nodes.Pairwise fun upsert other => ¬ upsert.Clash other)
    (h : runUpserts uuid now stats db nodes = .ok (stats', db')) :
    (∀ node ∈ nodes, node.Holds db') ∧
      ∀ other : Upsert, (∀ node ∈ nodes, ¬ node.Clash other) → other.Holds db → other.Holds db' := by
  induction nodes generalizing stats db with
  | nil =>
    cases h
    exact ⟨fun _ hmem => absurd hmem List.not_mem_nil, fun _ _ h => h⟩
  | cons node nodes ih =>
    obtain ⟨⟨outcome, db₁⟩, hrun, hrest⟩ := bind_eq_ok.mp h
    obtain ⟨hfirst, hclash⟩ := List.pairwise_cons.mp hclash
    have hran := Upsert.ran hkeyed hrun
    obtain ⟨hholds, hkept⟩ := ih hran.keyed hclash hrest
    refine ⟨fun other hmem => ?_, fun other hother hbefore => ?_⟩
    · rcases List.mem_cons.mp hmem with rfl | hmem
      · exact hkept _ (fun other hmem hother => hfirst other hmem hother.symm) hran.holds
      · exact hholds other hmem
    · refine hkept other (fun node' hmem => hother node' (List.mem_cons_of_mem _ hmem)) ?_
      exact hran.others other (hother node List.mem_cons_self) hbefore

theorem runUpserts_keeps {nodes : List Upsert} (hkeyed : KeyedTables db)
    (h : runUpserts uuid now stats db nodes = .ok (stats', db')) :
    KeyedTables db' ∧ SameIds db db' := by
  induction nodes generalizing stats db with
  | nil =>
    cases h
    exact ⟨hkeyed, fun _ _ h => h, fun _ _ _ h => h, fun _ _ h => h⟩
  | cons node nodes ih =>
    obtain ⟨⟨outcome, db₁⟩, hrun, hrest⟩ := bind_eq_ok.mp h
    have hran := Upsert.ran hkeyed hrun
    obtain ⟨hkeyed', hids⟩ := ih hran.keyed hrest
    exact ⟨hkeyed', fun _ _ h => hids.tenants _ _ (hran.ids.tenants _ _ h),
      fun _ _ _ h => hids.workspaces _ _ _ (hran.ids.workspaces _ _ _ h),
      fun _ _ h => hids.plugins _ _ (hran.ids.plugins _ _ h)⟩

theorem runUpserts_append (nodes nodes' : List Upsert) :
    runUpserts uuid now stats db (nodes ++ nodes') =
      runUpserts uuid now stats db nodes >>= fun r => runUpserts uuid now r.1 r.2 nodes' := by
  induction nodes generalizing stats db with
  | nil => rfl
  | cons node nodes ih =>
    rw [List.cons_append, runUpserts, runUpserts]
    cases node.run uuid now db with
    | error err => rfl
    | ok r => exact ih

/-- Two reports that agree on plugins and bindings. -/
structure ApplyStats.SameRows (stats stats' : ApplyStats) : Prop where
  pluginsInserted : stats'.pluginsInserted = stats.pluginsInserted
  pluginsUpdated : stats'.pluginsUpdated = stats.pluginsUpdated
  bindingsInserted : stats'.bindingsInserted = stats.bindingsInserted
  bindingsUpdated : stats'.bindingsUpdated = stats.bindingsUpdated

/-- The upsert of a node that holds changes nothing, and reports no plugin or binding. -/
theorem Upsert.run_of_holds (uuid : Tables → Nat) (now : Nat) {upsert : Upsert}
    (h : upsert.Holds db) (stats : ApplyStats) :
    ∃ outcome, upsert.run uuid now db = .ok (outcome, db) ∧
      stats.SameRows (upsert.count stats outcome) := by
  cases upsert with
  | plugin entry =>
    obtain ⟨row, hrow, hspec⟩ := h
    have hfind : db.plugins.find? (·.spec.name = entry.name) = some row := hrow
    refine ⟨.unchanged, ?_, ⟨rfl, rfl, rfl, rfl⟩⟩
    simp only [run, dbUpsertPlugin, upsertPlugin, hfind, hrow, if_pos hspec]
    rfl
  | tenant name =>
    obtain ⟨id, hid⟩ := Option.isSome_iff_exists.mp h
    obtain ⟨row, hrow, -⟩ := Option.map_eq_some_iff.mp hid
    have hfind : db.tenants.find? (·.name = name) = some row := hrow
    refine ⟨.updated, ?_, ⟨rfl, rfl, rfl, rfl⟩⟩
    simp only [run, dbUpsertTenant, upsertTenant, hfind, hrow, Option.isSome_some, if_true]
    rfl
  | workspace tenantName name =>
    obtain ⟨id, hid⟩ := Option.isSome_iff_exists.mp h
    obtain ⟨tenantId, htenant, hid⟩ := Option.bind_eq_some_iff.mp hid
    obtain ⟨row, hrow, -⟩ := Option.map_eq_some_iff.mp hid
    have hfind := hrow
    rw [findRow_pair] at hfind
    refine ⟨.updated, ?_, ⟨rfl, rfl, rfl, rfl⟩⟩
    simp only [run, htenant, dbUpsertWorkspace, upsertWorkspace, hfind, hrow, Option.isSome_some,
      if_true]
    rfl
  | binding tenantName workspaceName pluginName config =>
    obtain ⟨workspaceId, pluginId, row, hworkspace, hplugin, hrow, hconfig⟩ := h
    have hfind := hrow
    rw [bindingOf] at hrow
    rw [bindingOf, findRow_pair] at hfind
    refine ⟨.unchanged, ?_, ⟨rfl, rfl, rfl, rfl⟩⟩
    simp only [run, hworkspace, hplugin, dbUpsertBinding, upsertBinding, hfind, hrow, if_pos hconfig]
    rfl

/-- **A run whose nodes all hold** changes nothing. -/
theorem runUpserts_of_holds (uuid : Tables → Nat) (now : Nat) {nodes : List Upsert}
    (h : ∀ node ∈ nodes, node.Holds db) (stats : ApplyStats) :
    ∃ stats', runUpserts uuid now stats db nodes = .ok (stats', db) ∧ stats.SameRows stats' := by
  induction nodes generalizing stats with
  | nil => exact ⟨stats, rfl, rfl, rfl, rfl, rfl⟩
  | cons node nodes ih =>
    obtain ⟨outcome, hrun, hsame⟩ :=
      Upsert.run_of_holds uuid now (h node List.mem_cons_self) stats
    obtain ⟨stats', hrest, hsame'⟩ :=
      ih (fun node' hmem => h node' (List.mem_cons_of_mem _ hmem)) (node.count stats outcome)
    refine ⟨stats', ?_, hsame'.pluginsInserted.trans hsame.pluginsInserted,
      hsame'.pluginsUpdated.trans hsame.pluginsUpdated,
      hsame'.bindingsInserted.trans hsame.bindingsInserted,
      hsame'.bindingsUpdated.trans hsame.bindingsUpdated⟩
    rw [runUpserts, hrun]
    exact hrest

/-! ### The walk is a run of upserts -/

variable {pluginIds pluginIds' : List (String × Nat)}

/-- The ids that are carried are those of the rows. -/
def Tracks (pluginIds : List (String × Nat)) (db : Tables) : Prop :=
  ∀ name id, pluginIds.lookup name = some id → pluginId? db name = some id

theorem Tracks.mono (h : Tracks pluginIds db) (hids : SameIds db db') : Tracks pluginIds db' :=
  fun name id hlook => hids.plugins name id (h name id hlook)

/-- A name stands among the ids. -/
def Listed (pluginIds : List (String × Nat)) (name : String) : Prop :=
  (pluginIds.lookup name).isSome = true

theorem storePlugins_eq (uuid : Tables → Nat) (now : Nat) (stats : ApplyStats) (pluginIds : List (String × Nat)) (db : Tables)
    (entries : List ValidatedPlugin) :
    (storePlugins uuid now stats pluginIds db entries).map (fun r => (r.1, r.2.2)) =
      runUpserts uuid now stats db (entries.map .plugin) := by
  induction entries generalizing stats pluginIds db with
  | nil => rfl
  | cons entry entries ih =>
    rw [List.map_cons, storePlugins, runUpserts, Upsert.run]
    cases dbUpsertPlugin uuid now db entry with
    | error err => rfl
    | ok r => exact ih _ _ _

theorem pluginId?_of_upsert {entry : ValidatedPlugin} (hkeyed : KeyedTables db)
    (h : dbUpsertPlugin uuid now db entry = .ok (id, outcome, db')) :
    pluginId? db' entry.name = some id := by
  obtain ⟨row, rfl, rfl, hput, -⟩ := put_upsertPlugin hkeyed.plugins h
  exact Option.map_eq_some_iff.mpr ⟨row, hput.found, rfl⟩

theorem tenantId?_of_upsert {name : String} (hkeyed : KeyedTables db)
    (h : dbUpsertTenant uuid now db name = .ok (id, outcome, db')) : tenantId? db' name = some id := by
  obtain ⟨row, rfl, rfl, hput, -⟩ := put_upsertTenant hkeyed.tenants h
  exact Option.map_eq_some_iff.mpr ⟨row, hput.found, rfl⟩

theorem workspaceId?_of_upsert {tenantName name : String} {tenantId : Nat} (hkeyed : KeyedTables db)
    (htenant : tenantId? db tenantName = some tenantId)
    (h : dbUpsertWorkspace uuid now db tenantId name = .ok (id, outcome, db')) :
    workspaceId? db' tenantName name = some id := by
  have hids := (ran_workspace hkeyed htenant h).ids
  obtain ⟨row, rfl, hname, hput, -⟩ := put_upsertWorkspace hkeyed.workspaces h
  have hfound := hput.found
  rw [hname] at hfound
  exact Option.bind_eq_some_iff.mpr
    ⟨tenantId, hids.tenants _ _ htenant, Option.map_eq_some_iff.mpr ⟨row, hfound, rfl⟩⟩

/-- The ids after the plugins. -/
theorem storePlugins_tracks {entries : List ValidatedPlugin} (hkeyed : KeyedTables db)
    (htracks : Tracks pluginIds db)
    (h : storePlugins uuid now stats pluginIds db entries = .ok (stats', pluginIds', db')) :
    KeyedTables db' ∧ Tracks pluginIds' db' ∧ ∀ name,
      Listed pluginIds name ∨ name ∈ entries.map ValidatedPlugin.name → Listed pluginIds' name := by
  induction entries generalizing stats pluginIds db with
  | nil =>
    cases h
    refine ⟨hkeyed, htracks, fun name hname => ?_⟩
    rcases hname with hname | hname
    · exact hname
    · cases hname
  | cons entry entries ih =>
    obtain ⟨⟨id, outcome, db₁⟩, hupsert, hrest⟩ := bind_eq_ok.mp h
    have hran := ran_plugin hkeyed hupsert
    have htracks' : Tracks ((entry.name, id) :: pluginIds) db₁ := by
      intro name id' hlook
      rw [List.lookup_cons] at hlook
      split at hlook
      next heq =>
        cases hlook
        rw [eq_of_beq heq]
        exact pluginId?_of_upsert hkeyed hupsert
      next => exact hran.ids.plugins _ _ (htracks name id' hlook)
    obtain ⟨hkeyed', htracks'', hlisted⟩ := ih hran.keyed htracks' hrest
    refine ⟨hkeyed', htracks'', fun name hname => hlisted name ?_⟩
    by_cases heq : name = entry.name
    · refine .inl ?_
      rw [Listed, List.lookup_cons, heq, beq_self_eq_true]
      rfl
    · refine hname.imp (fun h => ?_) fun hmem => ?_
      · rw [Listed, List.lookup_cons, beq_eq_false_iff_ne.mpr heq]
        exact h
      · rw [List.map_cons, List.mem_cons] at hmem
        exact hmem.resolve_left heq

theorem storeBindings_eq (uuid : Tables → Nat) {tenant workspace : String} {workspaceId : Nat}
    {bindings : List WorkspacePluginEntry} (hkeyed : KeyedTables db) (htracks : Tracks pluginIds db)
    (hworkspace : workspaceId? db tenant workspace = some workspaceId)
    (hlisted : ∀ binding ∈ bindings, Listed pluginIds binding.name) (stats : ApplyStats) :
    storeBindings now pluginIds tenant workspace workspaceId stats db bindings =
      runUpserts uuid now stats db (bindingUpserts tenant workspace bindings) := by
  induction bindings generalizing stats db with
  | nil => rfl
  | cons binding bindings ih =>
    obtain ⟨pluginId, hlook⟩ := Option.isSome_iff_exists.mp (hlisted binding List.mem_cons_self)
    have hplugin := htracks _ _ hlook
    rw [bindingUpserts, List.map_cons, storeBindings, runUpserts, Upsert.run]
    simp only [hlook, hworkspace, hplugin]
    cases hupsert : dbUpsertBinding now db workspaceId pluginId binding.config with
    | error err => rfl
    | ok r =>
      obtain ⟨outcome, db₁⟩ := r
      have hran := ran_binding hkeyed hworkspace hplugin hupsert
      exact ih hran.keyed (htracks.mono hran.ids) (hran.ids.workspaces _ _ _ hworkspace)
        (fun binding' hmem => hlisted binding' (List.mem_cons_of_mem _ hmem)) _

theorem storeWorkspaces_eq {tenant : String} {tenantId : Nat} {entries : List WorkspaceEntry}
    (hkeyed : KeyedTables db) (htracks : Tracks pluginIds db)
    (htenant : tenantId? db tenant = some tenantId)
    (hlisted : ∀ entry ∈ entries, ∀ binding ∈ entry.plugins, Listed pluginIds binding.name)
    (stats : ApplyStats) :
    storeWorkspaces uuid now pluginIds tenant tenantId stats db entries =
      runUpserts uuid now stats db (entries.flatMap (workspaceUpserts tenant)) := by
  induction entries generalizing stats db with
  | nil => rfl
  | cons entry entries ih =>
    rw [List.flatMap_cons, workspaceUpserts, List.cons_append, storeWorkspaces, runUpserts,
      Upsert.run]
    simp only [htenant]
    cases hupsert : dbUpsertWorkspace uuid now db tenantId entry.name with
    | error err => rfl
    | ok r =>
      obtain ⟨workspaceId, outcome, db₁⟩ := r
      have hran := ran_workspace hkeyed htenant hupsert
      have hbindings : storeBindings now pluginIds tenant entry.name workspaceId
          (stats.workspace outcome) db₁ entry.plugins = _ :=
        storeBindings_eq uuid hran.keyed (htracks.mono hran.ids)
          (workspaceId?_of_upsert hkeyed htenant hupsert) (hlisted entry List.mem_cons_self) _
      show (storeBindings now pluginIds tenant entry.name workspaceId (stats.workspace outcome) db₁
          entry.plugins >>= fun r => storeWorkspaces uuid now pluginIds tenant tenantId r.1 r.2
            entries) = runUpserts uuid now (stats.workspace outcome) db₁ _
      rw [runUpserts_append, ← hbindings]
      cases hrun : storeBindings now pluginIds tenant entry.name workspaceId
          (stats.workspace outcome) db₁ entry.plugins with
      | error err => rfl
      | ok r =>
        obtain ⟨stats', db₂⟩ := r
        rw [hbindings] at hrun
        obtain ⟨hkeyed', hids⟩ := runUpserts_keeps hran.keyed hrun
        refine ih hkeyed' ((htracks.mono hran.ids).mono hids) ?_
          (fun entry' hmem => hlisted entry' (List.mem_cons_of_mem _ hmem)) _
        exact hids.tenants _ _ (hran.ids.tenants _ _ htenant)

theorem storeTenants_eq {entries : List TenantEntry} (hkeyed : KeyedTables db)
    (htracks : Tracks pluginIds db)
    (hlisted : ∀ entry ∈ entries, ∀ workspace ∈ entry.workspaces, ∀ binding ∈ workspace.plugins,
      Listed pluginIds binding.name) (stats : ApplyStats) :
    storeTenants uuid now pluginIds stats db entries =
      runUpserts uuid now stats db (entries.flatMap tenantUpserts) := by
  induction entries generalizing stats db with
  | nil => rfl
  | cons entry entries ih =>
    rw [List.flatMap_cons, tenantUpserts, List.cons_append, storeTenants, runUpserts, Upsert.run]
    cases hupsert : dbUpsertTenant uuid now db entry.name with
    | error err => rfl
    | ok r =>
      obtain ⟨tenantId, outcome, db₁⟩ := r
      have hran := ran_tenant hkeyed hupsert
      have hworkspaces : storeWorkspaces uuid now pluginIds entry.name tenantId
          (stats.tenant outcome) db₁ entry.workspaces = _ :=
        storeWorkspaces_eq hran.keyed (htracks.mono hran.ids)
          (tenantId?_of_upsert hkeyed hupsert) (hlisted entry List.mem_cons_self) _
      show (storeWorkspaces uuid now pluginIds entry.name tenantId (stats.tenant outcome) db₁
          entry.workspaces >>= fun r => storeTenants uuid now pluginIds r.1 r.2 entries) =
        runUpserts uuid now (stats.tenant outcome) db₁ _
      rw [runUpserts_append, ← hworkspaces]
      cases hrun : storeWorkspaces uuid now pluginIds entry.name tenantId (stats.tenant outcome) db₁
          entry.workspaces with
      | error err => rfl
      | ok r =>
        obtain ⟨stats', db₂⟩ := r
        rw [hworkspaces] at hrun
        obtain ⟨hkeyed', hids⟩ := runUpserts_keeps hran.keyed hrun
        exact ih hkeyed' ((htracks.mono hran.ids).mono hids)
          (fun entry' hmem => hlisted entry' (List.mem_cons_of_mem _ hmem)) _

/-- Every binding names a plugin of the config. -/
def RefersToListed (config : BootstrapConfig) : Prop :=
  ∀ tenant ∈ config.tenants, ∀ workspace ∈ tenant.workspaces, ∀ binding ∈ workspace.plugins,
    binding.name ∈ config.plugins.map ValidatedPlugin.name

/-- **The walk is the run of its upserts**. -/
theorem applyWithStore_eq {config : BootstrapConfig} (hkeyed : KeyedTables db)
    (hrefers : RefersToListed config) :
    applyWithStore uuid now db config = runUpserts uuid now .zero db (upserts config) := by
  have hplugins := storePlugins_eq uuid now .zero [] db config.plugins
  rw [upserts, runUpserts_append, ← hplugins, applyWithStore]
  cases hrun : storePlugins uuid now .zero [] db config.plugins with
  | error err => rfl
  | ok r =>
    obtain ⟨stats, pluginIds, db₁⟩ := r
    obtain ⟨hkeyed', htracks, hlisted⟩ := storePlugins_tracks hkeyed (fun _ _ h => by cases h) hrun
    exact storeTenants_eq hkeyed' htracks (fun tenant ht workspace hw binding hb =>
      hlisted _ (.inr (hrefers tenant ht workspace hw binding hb))) stats

theorem executed_error {result : Option Tables} {err : BootstrapError}
    (h : executed result = .error err) : err = .db := by
  cases result <;> cases h
  rfl

/-- A statement whose ids are known fails in the database only. -/
theorem executed_bind_error {α : Type} {result : Option Tables} {value : Tables → α}
    {err : BootstrapError} (h : (do return value (← executed result)) = Except.error err) :
    err = .db := by
  rcases bind_eq_error.mp h with h | ⟨_, -, h⟩
  · exact executed_error h
  · cases h

theorem Upsert.run_error {upsert : Upsert} {err : BootstrapError}
    (h : upsert.run uuid now db = .error err) : err = .db := by
  cases upsert with
  | plugin entry =>
    rcases bind_eq_error.mp (map_eq_error.mp h) with h | ⟨_, -, h⟩
    · unfold upsertPlugin at h
      split at h
      · split at h
        · cases h
        · exact executed_bind_error h
      · exact executed_bind_error h
    · cases h
  | tenant name =>
    rcases bind_eq_error.mp (map_eq_error.mp h) with h | ⟨_, -, h⟩
    · unfold upsertTenant at h
      split at h
      · cases h
      · exact executed_bind_error h
    · cases h
  | workspace tenantName name =>
    simp only [run] at h
    split at h
    · rcases bind_eq_error.mp (map_eq_error.mp h) with h | ⟨_, -, h⟩
      · unfold upsertWorkspace at h
        split at h
        · cases h
        · exact executed_bind_error h
      · cases h
    · cases h
      rfl
  | binding tenantName workspaceName pluginName config =>
    simp only [run] at h
    split at h
    · rcases bind_eq_error.mp h with h | ⟨_, -, h⟩
      · unfold upsertBinding at h
        split at h
        · split at h
          · cases h
          · exact executed_error h
        · exact executed_error h
      · cases h
    · cases h
      rfl

theorem runUpserts_error {nodes : List Upsert} {err : BootstrapError}
    (h : runUpserts uuid now stats db nodes = .error err) : err = .db := by
  induction nodes generalizing stats db with
  | nil => cases h
  | cons node nodes ih =>
    rcases bind_eq_error.mp h with h | ⟨_, -, h⟩
    · exact Upsert.run_error h
    · exact ih h

end

end Botwork.Bootstrap
