import Botwork.Api.Writes
import Botwork.Bootstrap.Apply
import Botwork.Foundations.Transition

/-!
# Writers of the configuration tables

All ways in which rows of the configuration tables come to be, as one machine:
the writes of the API, which `botctl bootstrap` sends too, and the bootstrap
files that are applied to the database.

## Main definitions

- `Write`, `Request`, `configTables` — the writes and their machine
- `NamedRow`, `Tables.names` — the names that rows carry
- `Write.names` — the names a write asks for
- `Admitted` — every stored plugin has passed validation
-/

namespace Botwork.System

open Botwork.Foundations Botwork.ApiCore Botwork.Db Botwork.Api

inductive Write where
  | createTenant (name : String)
  | updateTenant (id : Nat) (name : String) (ifUnmodifiedSince : Nat)
  | createWorkspace (tenantName name : String)
  | updateWorkspace (tenantName : String) (id : Nat) (name : String) (ifUnmodifiedSince : Nat)
  | createPlugin (raw : RawPluginEntry)
  | updatePlugin (id : Nat) (raw : RawPluginEntry) (ifUnmodifiedSince : Nat)
  | createWorkspacePlugin (tenantName : String) (workspaceId pluginId : Nat) (config : Option Json)
  | updateWorkspacePlugin (gate : Option String) (tenantName : String) (workspaceId pluginId : Nat)
      (config : Option Json) (ifUnmodifiedSince : Nat)
  /-- a bootstrap file applied to the database -/
  | bootstrap (raw : BootstrapConfigRaw)

/-- A write with the identity of its caller and the time it is made at. -/
structure Request where
  caller : Caller
  now : Nat
  write : Write

section

variable (double : UInt64 → List Char) (uuid : Tables → Nat)

/-- The tables after a write; `none` when it is refused. -/
def Request.run (db : Tables) (request : Request) : Option Tables :=
  let caller := request.caller
  let now := request.now
  match request.write with
  | .createTenant name => (createTenant uuid now caller db name).toOption
  | .updateTenant id name since => (updateTenant now caller db id name since).toOption
  | .createWorkspace tenantName name => (createWorkspace uuid now caller db tenantName name).toOption
  | .updateWorkspace tenantName id name since =>
    (updateWorkspace now caller db tenantName id name since).toOption
  | .createPlugin raw => (createPlugin uuid now caller db double raw).toOption
  | .updatePlugin id raw since => (updatePlugin now caller db double id raw since).toOption
  | .createWorkspacePlugin tenantName workspaceId pluginId config =>
    (createWorkspacePlugin now caller db tenantName workspaceId pluginId config).toOption
  | .updateWorkspacePlugin gate tenantName workspaceId pluginId config since =>
    (updateWorkspacePlugin now caller db gate tenantName workspaceId pluginId config since).toOption
  | .bootstrap raw =>
    (fromRaw double raw).toOption.bind fun config => (Bootstrap.apply uuid now db config).toOption

def configTables : Machine Tables Request where
  Start db := db = Tables.empty
  next := Request.run double uuid

end

-- ════════════════════════════════════════════════════════════════════════
-- Names
-- ════════════════════════════════════════════════════════════════════════

inductive NameKind where
  | tenant
  | workspace
  | plugin
  deriving DecidableEq, Repr

structure NamedRow where
  kind : NameKind
  name : String
  deriving DecidableEq, Repr

def tablesNames (db : Tables) : List NamedRow :=
  db.tenants.map (⟨.tenant, ·.name⟩) ++ db.workspaces.map (⟨.workspace, ·.name⟩) ++
    db.plugins.map (⟨.plugin, ·.spec.name⟩)

/-- The names of a bootstrap file, trimmed. -/
def bootstrapNames (raw : BootstrapConfigRaw) : List NamedRow :=
  raw.tenants.flatMap (fun tenant => ⟨.tenant, Text.trim tenant.name⟩ ::
      tenant.workspaces.map fun workspace => ⟨.workspace, Text.trim workspace.name⟩) ++
    raw.plugins.map (⟨.plugin, Text.trim ·.name⟩)

/-- The names a write asks for, trimmed. -/
def Write.names : Write → List NamedRow
  | .createTenant name | .updateTenant _ name _ => [⟨.tenant, Text.trim name⟩]
  | .createWorkspace _ name | .updateWorkspace _ _ name _ => [⟨.workspace, Text.trim name⟩]
  | .createPlugin raw | .updatePlugin _ raw _ => [⟨.plugin, Text.trim raw.name⟩]
  | .createWorkspacePlugin _ _ _ _ | .updateWorkspacePlugin _ _ _ _ _ _ => []
  | .bootstrap raw => bootstrapNames raw

theorem mem_tablesNames {db : Tables} {row : NamedRow} :
    row ∈ tablesNames db ↔
      (∃ t ∈ db.tenants, row = ⟨.tenant, t.name⟩) ∨
      (∃ w ∈ db.workspaces, row = ⟨.workspace, w.name⟩) ∨
      ∃ p ∈ db.plugins, row = ⟨.plugin, p.spec.name⟩ := by
  simp only [tablesNames, List.mem_append, List.mem_map, or_assoc, eq_comm]

/-- Every name after a write was there before or is one of `added`, and `added`
    is there. -/
structure Renames (db : Tables) (added : List NamedRow) (db' : Tables) : Prop where
  origin : ∀ row ∈ tablesNames db', row ∈ tablesNames db ∨ row ∈ added
  stored : ∀ row ∈ added, row ∈ tablesNames db'

/-- The same, with every name that was there kept. -/
structure Extends (db : Tables) (added : List NamedRow) (db' : Tables) : Prop extends
    Renames db added db' where
  kept : ∀ row ∈ tablesNames db, row ∈ tablesNames db'

theorem Extends.refl (db : Tables) : Extends db [] db where
  origin _ h := .inl h
  stored _ h := by cases h
  kept _ h := h

theorem Extends.trans {db₁ db₂ db₃ : Tables} {added added' : List NamedRow}
    (h : Extends db₁ added db₂) (h' : Extends db₂ added' db₃) :
    Extends db₁ (added ++ added') db₃ where
  origin row hrow := by
    rcases h'.origin row hrow with hrow | hrow
    · rcases h.origin row hrow with hrow | hrow
      · exact .inl hrow
      · exact .inr (List.mem_append_left _ hrow)
    · exact .inr (List.mem_append_right _ hrow)
  stored row hrow := by
    rcases List.mem_append.mp hrow with hrow | hrow
    · exact h'.kept row (h.stored row hrow)
    · exact h'.stored row hrow
  kept row hrow := h'.kept row (h.kept row hrow)

theorem extends_of_mem {db db' : Tables} {added : List NamedRow}
    (h : ∀ row, row ∈ tablesNames db' ↔ row ∈ tablesNames db ∨ row ∈ added) :
    Extends db added db' where
  origin row := (h row).mp
  stored row hrow := (h row).mpr (.inr hrow)
  kept row hrow := (h row).mpr (.inl hrow)

-- ════════════════════════════════════════════════════════════════════════
-- Stored plugins
-- ════════════════════════════════════════════════════════════════════════

/-- The plugins of the tables: their ids differ, and each has passed validation. -/
structure Admitted (double : UInt64 → List Char) (plugins : List PluginRow) : Prop where
  keyed : ∀ p ∈ plugins, ∀ q ∈ plugins, p.id = q.id → p = q
  validated : ∀ p ∈ plugins, ∃ raw, validateOne double raw = .ok p.spec

section

variable {double : UInt64 → List Char} {plugins : List PluginRow}

theorem Admitted.insert {row : PluginRow} (h : Admitted double plugins)
    (hraw : ∃ raw, validateOne double raw = .ok row.spec) (hfresh : ∀ p ∈ plugins, p.id ≠ row.id) :
    Admitted double (plugins ++ [row]) where
  keyed p hp q hq hid := by
    rw [List.mem_append, List.mem_singleton] at hp hq
    rcases hp with hp | rfl
    · rcases hq with hq | rfl
      · exact h.keyed p hp q hq hid
      · exact absurd hid (hfresh p hp)
    · rcases hq with hq | rfl
      · exact absurd hid.symm (hfresh q hq)
      · rfl
  validated p hp := by
    rw [List.mem_append, List.mem_singleton] at hp
    rcases hp with hp | rfl
    · exact h.validated p hp
    · exact hraw

theorem Admitted.update {row : PluginRow} (h : Admitted double plugins)
    (hraw : ∃ raw, validateOne double raw = .ok row.spec) :
    Admitted double (plugins.map fun p => if p.id = row.id then row else p) where
  keyed p hp q hq hid := by
    rcases Tables.of_mem_replaced hp with rfl | ⟨hp, hpid⟩
    · rcases Tables.of_mem_replaced hq with rfl | ⟨hq, hqid⟩
      · rfl
      · exact absurd hid.symm hqid
    · rcases Tables.of_mem_replaced hq with rfl | ⟨hq, -⟩
      · exact absurd hid hpid
      · exact h.keyed p hp q hq hid
  validated p hp := by
    rcases Tables.of_mem_replaced hp with rfl | ⟨hp, -⟩
    · exact hraw
    · exact h.validated p hp

end

-- ════════════════════════════════════════════════════════════════════════
-- Statements
-- ════════════════════════════════════════════════════════════════════════

section

variable {db db' : Tables}

theorem insertTenant_extends {row : TenantRow} (h : db.insertTenant row = some db') :
    Extends db [⟨.tenant, row.name⟩] db' := by
  rw [Tables.insertTenant_eq_some h]
  apply extends_of_mem
  intro r
  simp only [tablesNames, List.map_append, List.mem_append, List.map_cons, List.map_nil]
  tauto

theorem insertWorkspace_extends {row : WorkspaceRow} (h : db.insertWorkspace row = some db') :
    Extends db [⟨.workspace, row.name⟩] db' := by
  rw [Tables.insertWorkspace_eq_some h]
  apply extends_of_mem
  intro r
  simp only [tablesNames, List.map_append, List.mem_append, List.map_cons, List.map_nil]
  tauto

theorem insertPlugin_extends {row : PluginRow} (h : db.insertPlugin row = some db') :
    Extends db [⟨.plugin, row.spec.name⟩] db' := by
  rw [(Tables.insertPlugin_eq_some h).1]
  apply extends_of_mem
  intro r
  simp only [tablesNames, List.map_append, List.mem_append, List.map_cons, List.map_nil]
  tauto

theorem updateTenant_renames {row : TenantRow} (h : db.updateTenant row = some db')
    (hrow : ∃ t ∈ db.tenants, t.id = row.id) : Renames db [⟨.tenant, row.name⟩] db' := by
  rw [Tables.updateTenant_eq_some h]
  constructor
  · intro r hr
    rw [mem_tablesNames] at hr
    rcases hr with ⟨t, ht, rfl⟩ | hr
    · rcases Tables.of_mem_replaced ht with rfl | ⟨ht, -⟩
      · exact .inr List.mem_cons_self
      · exact .inl (mem_tablesNames.mpr (.inl ⟨t, ht, rfl⟩))
    · exact .inl (mem_tablesNames.mpr (.inr hr))
  · intro r hr
    obtain ⟨t, ht, hid⟩ := hrow
    rw [List.mem_singleton.mp hr]
    exact mem_tablesNames.mpr (.inl ⟨row, Tables.mem_replaced ht hid, rfl⟩)

theorem updateWorkspace_renames {row : WorkspaceRow} (h : db.updateWorkspace row = some db')
    (hrow : ∃ w ∈ db.workspaces, w.id = row.id) : Renames db [⟨.workspace, row.name⟩] db' := by
  rw [Tables.updateWorkspace_eq_some h]
  constructor
  · intro r hr
    rw [mem_tablesNames] at hr
    rcases hr with hr | ⟨w, hw, rfl⟩ | hr
    · exact .inl (mem_tablesNames.mpr (.inl hr))
    · rcases Tables.of_mem_replaced hw with rfl | ⟨hw, -⟩
      · exact .inr List.mem_cons_self
      · exact .inl (mem_tablesNames.mpr (.inr (.inl ⟨w, hw, rfl⟩)))
    · exact .inl (mem_tablesNames.mpr (.inr (.inr hr)))
  · intro r hr
    obtain ⟨w, hw, hid⟩ := hrow
    rw [List.mem_singleton.mp hr]
    exact mem_tablesNames.mpr (.inr (.inl ⟨row, Tables.mem_replaced hw hid, rfl⟩))

theorem updatePlugin_renames {row : PluginRow} (h : db.updatePlugin row = some db')
    (hrow : ∃ p ∈ db.plugins, p.id = row.id) : Renames db [⟨.plugin, row.spec.name⟩] db' := by
  rw [Tables.updatePlugin_eq_some h]
  constructor
  · intro r hr
    rw [mem_tablesNames] at hr
    rcases hr with hr | hr | ⟨p, hp, rfl⟩
    · exact .inl (mem_tablesNames.mpr (.inl hr))
    · exact .inl (mem_tablesNames.mpr (.inr (.inl hr)))
    · rcases Tables.of_mem_replaced hp with rfl | ⟨hp, -⟩
      · exact .inr List.mem_cons_self
      · exact .inl (mem_tablesNames.mpr (.inr (.inr ⟨p, hp, rfl⟩)))
  · intro r hr
    obtain ⟨p, hp, hid⟩ := hrow
    rw [List.mem_singleton.mp hr]
    exact mem_tablesNames.mpr (.inr (.inr ⟨row, Tables.mem_replaced hp hid, rfl⟩))

/-- An update that keeps the name of a plugin keeps all names. -/
theorem updatePlugin_extends {double : UInt64 → List Char} {old row : PluginRow}
    (hadmitted : Admitted double db.plugins) (h : db.updatePlugin row = some db')
    (hold : old ∈ db.plugins) (hid : old.id = row.id) (hname : old.spec.name = row.spec.name) :
    Extends db [⟨.plugin, row.spec.name⟩] db' := by
  refine ⟨updatePlugin_renames h ⟨old, hold, hid⟩, ?_⟩
  rw [Tables.updatePlugin_eq_some h]
  intro r hr
  rw [mem_tablesNames] at hr ⊢
  rcases hr with hr | hr | ⟨p, hp, rfl⟩
  · exact .inl hr
  · exact .inr (.inl hr)
  · by_cases hpid : p.id = row.id
    · obtain rfl := hadmitted.keyed p hp old hold (hpid.trans hid.symm)
      exact .inr (.inr ⟨row, Tables.mem_replaced hp hid, by rw [hname]⟩)
    · exact .inr (.inr ⟨p, List.mem_map.mpr ⟨p, hp, if_neg hpid⟩, rfl⟩)

end

-- ════════════════════════════════════════════════════════════════════════
-- Writes of the API
-- ════════════════════════════════════════════════════════════════════════

/-- What a write does to the names and to the stored plugins. -/
structure Effect (double : UInt64 → List Char) (db : Tables) (added : List NamedRow)
    (db' : Tables) : Prop where
  renames : Renames db added db'
  admitted : Admitted double db'.plugins

section

variable {double : UInt64 → List Char} {uuid : Tables → Nat} {now : Nat} {caller : Caller}
  {db db' : Tables}

theorem createTenant_effect {name : String} (hdb : Admitted double db.plugins)
    (h : createTenant uuid now caller db name = .ok db') :
    Effect double db [⟨.tenant, Text.trim name⟩] db' := by
  simp only [createTenant] at h
  obtain ⟨_, -, h⟩ := bind_eq_ok.mp h
  obtain ⟨_, -, h⟩ := bind_eq_ok.mp h
  split_ifs at h
  have hinsert := executed_eq_ok.mp h
  refine ⟨(insertTenant_extends hinsert).toRenames, ?_⟩
  rw [Tables.insertTenant_eq_some hinsert]
  exact hdb

theorem updateTenant_effect {id since : Nat} {name : String} (hdb : Admitted double db.plugins)
    (h : updateTenant now caller db id name since = .ok db') :
    Effect double db [⟨.tenant, Text.trim name⟩] db' := by
  simp only [updateTenant] at h
  obtain ⟨_, -, h⟩ := bind_eq_ok.mp h
  obtain ⟨_, -, h⟩ := bind_eq_ok.mp h
  obtain ⟨live, hlive, h⟩ := bind_eq_ok.mp h
  obtain ⟨_, -, h⟩ := bind_eq_ok.mp h
  split_ifs at h
  have hupdate := executed_eq_ok.mp h
  have hmem := List.mem_of_find?_eq_some (orNotFound_eq_ok.mp hlive)
  refine ⟨updateTenant_renames hupdate ⟨live, hmem, rfl⟩, ?_⟩
  rw [Tables.updateTenant_eq_some hupdate]
  exact hdb

theorem createWorkspace_effect {tenantName name : String} (hdb : Admitted double db.plugins)
    (h : createWorkspace uuid now caller db tenantName name = .ok db') :
    Effect double db [⟨.workspace, Text.trim name⟩] db' := by
  simp only [createWorkspace] at h
  obtain ⟨_, -, h⟩ := bind_eq_ok.mp h
  obtain ⟨_, -, h⟩ := bind_eq_ok.mp h
  obtain ⟨tenantId, -, h⟩ := bind_eq_ok.mp h
  split_ifs at h
  have hinsert := executed_eq_ok.mp h
  refine ⟨(insertWorkspace_extends hinsert).toRenames, ?_⟩
  rw [Tables.insertWorkspace_eq_some hinsert]
  exact hdb

theorem updateWorkspace_effect {tenantName name : String} {id since : Nat}
    (hdb : Admitted double db.plugins)
    (h : updateWorkspace now caller db tenantName id name since = .ok db') :
    Effect double db [⟨.workspace, Text.trim name⟩] db' := by
  simp only [updateWorkspace] at h
  obtain ⟨_, -, h⟩ := bind_eq_ok.mp h
  obtain ⟨_, -, h⟩ := bind_eq_ok.mp h
  obtain ⟨tenantId, -, h⟩ := bind_eq_ok.mp h
  obtain ⟨live, hlive, h⟩ := bind_eq_ok.mp h
  by_cases htenant : live.tenantId ≠ tenantId
  · rw [if_pos htenant] at h
    cases h
  rw [if_neg htenant] at h
  obtain ⟨_, -, h⟩ := bind_eq_ok.mp h
  split_ifs at h
  have hupdate := executed_eq_ok.mp h
  have hmem := List.mem_of_find?_eq_some (orNotFound_eq_ok.mp hlive)
  refine ⟨updateWorkspace_renames hupdate ⟨live, hmem, rfl⟩, ?_⟩
  rw [Tables.updateWorkspace_eq_some hupdate]
  exact hdb

theorem createPlugin_effect {raw : RawPluginEntry} (hdb : Admitted double db.plugins)
    (h : createPlugin uuid now caller db double raw = .ok db') :
    Effect double db [⟨.plugin, Text.trim raw.name⟩] db' := by
  simp only [createPlugin] at h
  obtain ⟨_, -, h⟩ := bind_eq_ok.mp h
  obtain ⟨validated, hvalidated, h⟩ := bind_eq_ok.mp h
  obtain ⟨_, -, h⟩ := bind_eq_ok.mp h
  split_ifs at h
  have hinsert := executed_eq_ok.mp h
  have hraw := mapError_eq_ok.mp hvalidated
  have hextends := insertPlugin_extends hinsert
  obtain ⟨rfl, hfresh⟩ := Tables.insertPlugin_eq_some hinsert
  rw [← (validateOne_name hraw).1]
  exact ⟨hextends.toRenames, hdb.insert ⟨raw, hraw⟩ hfresh⟩

theorem updatePlugin_effect {id since : Nat} {raw : RawPluginEntry}
    (hdb : Admitted double db.plugins)
    (h : updatePlugin now caller db double id raw since = .ok db') :
    Effect double db [⟨.plugin, Text.trim raw.name⟩] db' := by
  simp only [updatePlugin] at h
  obtain ⟨_, -, h⟩ := bind_eq_ok.mp h
  obtain ⟨validated, hvalidated, h⟩ := bind_eq_ok.mp h
  obtain ⟨live, hlive, h⟩ := bind_eq_ok.mp h
  obtain ⟨_, -, h⟩ := bind_eq_ok.mp h
  obtain ⟨_, -, h⟩ := bind_eq_ok.mp h
  split_ifs at h
  have hupdate := executed_eq_ok.mp h
  have hraw := mapError_eq_ok.mp hvalidated
  have hmem := List.mem_of_find?_eq_some (orNotFound_eq_ok.mp hlive)
  rw [← (validateOne_name hraw).1]
  refine ⟨updatePlugin_renames hupdate ⟨live, hmem, rfl⟩, ?_⟩
  rw [Tables.updatePlugin_eq_some hupdate]
  exact hdb.update ⟨raw, hraw⟩

/-- Writes to bindings leave the rows that carry names alone. -/
theorem createWorkspacePlugin_tables {tenantName : String} {workspaceId pluginId : Nat}
    {config : Option Json}
    (h : createWorkspacePlugin now caller db tenantName workspaceId pluginId config = .ok db') :
    ∃ bindings, db' = { db with bindings } := by
  obtain ⟨_, -, h⟩ := bind_eq_ok.mp h
  obtain ⟨_, -, h⟩ := bind_eq_ok.mp h
  split_ifs at h
  obtain ⟨stored, -, h⟩ := bind_eq_ok.mp h
  exact ⟨_, Tables.insertBinding_eq_some (executed_eq_ok.mp h)⟩

theorem updateWorkspacePlugin_tables {gate : Option String} {tenantName : String}
    {workspaceId pluginId since : Nat} {config : Option Json}
    (h : updateWorkspacePlugin now caller db gate tenantName workspaceId pluginId config since =
      .ok db') :
    ∃ bindings, db' = { db with bindings } := by
  obtain ⟨_, -, h⟩ := bind_eq_ok.mp h
  obtain ⟨live, -, h⟩ := bind_eq_ok.mp h
  obtain ⟨_, -, h⟩ := bind_eq_ok.mp h
  obtain ⟨newConfig, -, h⟩ := bind_eq_ok.mp h
  obtain ⟨_, -, h⟩ := bind_eq_ok.mp h
  cases gate with
  | some msg => cases h
  | none => exact ⟨_, Tables.updateBinding_eq_some (executed_eq_ok.mp h)⟩

theorem effect_of_bindings (hdb : Admitted double db.plugins)
    (h : ∃ bindings, db' = { db with bindings }) : Effect double db [] db' := by
  obtain ⟨bindings, rfl⟩ := h
  exact ⟨⟨fun r hr => .inl hr, nofun⟩, hdb⟩

end

-- ════════════════════════════════════════════════════════════════════════
-- Bootstrap files
-- ════════════════════════════════════════════════════════════════════════

section

open Botwork.Bootstrap (upsertPlugin upsertTenant upsertWorkspace upsertBinding applyPlugins
  applyBindings applyWorkspaces applyTenants)

variable {double : UInt64 → List Char} {uuid : Tables → Nat} {now : Nat} {db db' : Tables}

theorem bootstrap_executed {result : Option Tables} {value : Tables} :
    Bootstrap.executed result = .ok value ↔ result = some value := by
  cases result <;> simp [Bootstrap.executed]

theorem upsertTenant_extends {name : String} {id : Nat}
    (h : upsertTenant uuid now db name = .ok (id, db')) :
    Extends db [⟨.tenant, name⟩] db' ∧ db'.plugins = db.plugins := by
  unfold upsertTenant at h
  split at h
  next row hfind =>
    cases h
    have hname : row.name = name := by simpa using List.find?_some hfind
    refine ⟨extends_of_mem fun r => ?_, rfl⟩
    constructor
    · exact .inl
    · rintro (hr | hr)
      · exact hr
      · rw [List.mem_singleton.mp hr]
        exact mem_tablesNames.mpr (.inl ⟨row, List.mem_of_find?_eq_some hfind, by rw [hname]⟩)
  next =>
    obtain ⟨db'', hinsert, h⟩ := bind_eq_ok.mp h
    cases h
    rw [bootstrap_executed] at hinsert
    refine ⟨insertTenant_extends hinsert, ?_⟩
    rw [Tables.insertTenant_eq_some hinsert]

theorem upsertWorkspace_extends {tenantId : Nat} {name : String} {id : Nat}
    (h : upsertWorkspace uuid now db tenantId name = .ok (id, db')) :
    Extends db [⟨.workspace, name⟩] db' ∧ db'.plugins = db.plugins := by
  unfold upsertWorkspace at h
  split at h
  next row hfind =>
    cases h
    have hname : row.tenantId = tenantId ∧ row.name = name := by simpa using List.find?_some hfind
    refine ⟨extends_of_mem fun r => ?_, rfl⟩
    constructor
    · exact .inl
    · rintro (hr | hr)
      · exact hr
      · rw [List.mem_singleton.mp hr]
        exact mem_tablesNames.mpr
          (.inr (.inl ⟨row, List.mem_of_find?_eq_some hfind, by rw [hname.2]⟩))
  next =>
    obtain ⟨db'', hinsert, h⟩ := bind_eq_ok.mp h
    cases h
    rw [bootstrap_executed] at hinsert
    refine ⟨insertWorkspace_extends hinsert, ?_⟩
    rw [Tables.insertWorkspace_eq_some hinsert]

theorem upsertBinding_tables {workspaceId pluginId : Nat} {config : Option Json}
    (h : upsertBinding now db workspaceId pluginId config = .ok db') :
    ∃ bindings, db' = { db with bindings } := by
  unfold upsertBinding at h
  split at h
  next row hfind =>
    split_ifs at h
    · cases h
      exact ⟨_, rfl⟩
    · exact ⟨_, Tables.updateBinding_eq_some (bootstrap_executed.mp h)⟩
  next => exact ⟨_, Tables.insertBinding_eq_some (bootstrap_executed.mp h)⟩

theorem applyBindings_tables {pluginIds : List (String × Nat)} {tenant workspace : String}
    {workspaceId : Nat} {bindings : List WorkspacePluginEntry}
    (h : applyBindings now pluginIds tenant workspace workspaceId db bindings = .ok db') :
    ∃ bindings, db' = { db with bindings } := by
  induction bindings generalizing db with
  | nil =>
    cases h
    exact ⟨_, rfl⟩
  | cons binding bindings ih =>
    rw [applyBindings] at h
    split at h
    next => cases h
    next pluginId =>
      obtain ⟨db₁, hupsert, h⟩ := bind_eq_ok.mp h
      obtain ⟨bindings₁, rfl⟩ := upsertBinding_tables hupsert
      obtain ⟨bindings₂, rfl⟩ := ih h
      exact ⟨bindings₂, rfl⟩

theorem applyWorkspaces_extends {pluginIds : List (String × Nat)} {tenant : String}
    {tenantId : Nat} {entries : List WorkspaceEntry}
    (h : applyWorkspaces uuid now pluginIds tenant tenantId db entries = .ok db') :
    Extends db (entries.map (⟨.workspace, ·.name⟩)) db' ∧ db'.plugins = db.plugins := by
  induction entries generalizing db with
  | nil =>
    cases h
    exact ⟨.refl _, rfl⟩
  | cons entry entries ih =>
    obtain ⟨⟨workspaceId, db₁⟩, hupsert, h⟩ := bind_eq_ok.mp h
    obtain ⟨db₂, hbindings, h⟩ := bind_eq_ok.mp h
    obtain ⟨hextends, hplugins⟩ := upsertWorkspace_extends hupsert
    obtain ⟨bindings, rfl⟩ := applyBindings_tables hbindings
    obtain ⟨hrest, hplugins'⟩ := ih h
    exact ⟨hextends.trans ⟨⟨hrest.origin, hrest.stored⟩, hrest.kept⟩, hplugins'.trans hplugins⟩

theorem applyTenants_extends {pluginIds : List (String × Nat)} {entries : List TenantEntry}
    (h : applyTenants uuid now pluginIds db entries = .ok db') :
    Extends db (entries.flatMap fun entry =>
        ⟨.tenant, entry.name⟩ :: entry.workspaces.map (⟨.workspace, ·.name⟩)) db' ∧
      db'.plugins = db.plugins := by
  induction entries generalizing db with
  | nil =>
    cases h
    exact ⟨.refl _, rfl⟩
  | cons entry entries ih =>
    obtain ⟨⟨tenantId, db₁⟩, hupsert, h⟩ := bind_eq_ok.mp h
    obtain ⟨db₂, hworkspaces, h⟩ := bind_eq_ok.mp h
    obtain ⟨hextends, hplugins⟩ := upsertTenant_extends hupsert
    obtain ⟨hextends', hplugins'⟩ := applyWorkspaces_extends hworkspaces
    obtain ⟨hrest, hplugins''⟩ := ih h
    refine ⟨?_, hplugins''.trans (hplugins'.trans hplugins)⟩
    exact (hextends.trans hextends').trans hrest

theorem upsertPlugin_extends {entry : ValidatedPlugin} {id : Nat} (hdb : Admitted double db.plugins)
    (hentry : ∃ raw, validateOne double raw = .ok entry)
    (h : upsertPlugin uuid now db entry = .ok (id, db')) :
    Extends db [⟨.plugin, entry.name⟩] db' ∧ Admitted double db'.plugins := by
  unfold upsertPlugin at h
  split at h
  next row hfind =>
    have hmem := List.mem_of_find?_eq_some hfind
    have hname : row.spec.name = entry.name := by simpa using List.find?_some hfind
    split_ifs at h
    · cases h
      refine ⟨extends_of_mem fun r => ?_, hdb⟩
      constructor
      · exact .inl
      · rintro (hr | hr)
        · exact hr
        · rw [List.mem_singleton.mp hr]
          exact mem_tablesNames.mpr (.inr (.inr ⟨row, hmem, by rw [hname]⟩))
    · obtain ⟨db'', hupdate, h⟩ := bind_eq_ok.mp h
      cases h
      rw [bootstrap_executed] at hupdate
      refine ⟨updatePlugin_extends hdb hupdate hmem rfl hname, ?_⟩
      rw [Tables.updatePlugin_eq_some hupdate]
      exact hdb.update hentry
  next =>
    obtain ⟨db'', hinsert, h⟩ := bind_eq_ok.mp h
    cases h
    rw [bootstrap_executed] at hinsert
    refine ⟨insertPlugin_extends hinsert, ?_⟩
    obtain ⟨rfl, hfresh⟩ := Tables.insertPlugin_eq_some hinsert
    exact hdb.insert hentry hfresh

theorem applyPlugins_extends {pluginIds pluginIds' : List (String × Nat)}
    {entries : List ValidatedPlugin} (hdb : Admitted double db.plugins)
    (hentries : ∀ entry ∈ entries, ∃ raw, validateOne double raw = .ok entry)
    (h : applyPlugins uuid now db pluginIds entries = .ok (pluginIds', db')) :
    Extends db (entries.map (⟨.plugin, ·.name⟩)) db' ∧ Admitted double db'.plugins := by
  induction entries generalizing db pluginIds with
  | nil =>
    cases h
    exact ⟨.refl _, hdb⟩
  | cons entry entries ih =>
    obtain ⟨⟨id, db₁⟩, hupsert, h⟩ := bind_eq_ok.mp h
    obtain ⟨hextends, hadmitted⟩ :=
      upsertPlugin_extends hdb (hentries entry List.mem_cons_self) hupsert
    obtain ⟨hrest, hadmitted'⟩ :=
      ih hadmitted (fun entry hentry => hentries entry (List.mem_cons_of_mem _ hentry)) h
    exact ⟨hextends.trans hrest, hadmitted'⟩

theorem tenantNames_of_lowered {pluginNames : List String} {entries : List TenantRaw}
    {lowered : List TenantEntry}
    (h : List.Forall₂ (fun entry b =>
      fromRawTenant double pluginNames (Text.trim entry.name) entry = .ok b) entries lowered) :
    (entries.flatMap fun tenant => NamedRow.mk .tenant (Text.trim tenant.name) ::
        tenant.workspaces.map fun workspace => ⟨.workspace, Text.trim workspace.name⟩) =
      lowered.flatMap fun entry =>
        ⟨.tenant, entry.name⟩ :: entry.workspaces.map (⟨.workspace, ·.name⟩) := by
  induction h with
  | nil => rfl
  | cons hentry _ ih =>
    obtain ⟨hname, hworkspaces⟩ := fromRawTenant_names hentry
    have hmap := congrArg (List.map (NamedRow.mk .workspace)) hworkspaces
    simp only [List.map_map] at hmap
    rw [List.flatMap_cons, List.flatMap_cons, ih, hname]
    congr 2
    exact hmap.symm

/-- The names of a lowered file are the trimmed names of the file. -/
theorem bootstrapNames_of_fromRaw {raw : BootstrapConfigRaw} {config : BootstrapConfig}
    (h : fromRaw double raw = .ok config) :
    bootstrapNames raw =
      (config.tenants.flatMap fun entry =>
        ⟨.tenant, entry.name⟩ :: entry.workspaces.map (⟨.workspace, ·.name⟩)) ++
      config.plugins.map (⟨.plugin, ·.name⟩) := by
  obtain ⟨plugins, hplugins, h⟩ := bind_eq_ok.mp h
  obtain ⟨tenants, htenants, h⟩ := bind_eq_ok.mp h
  cases h
  have hplugin : raw.plugins.map (Text.trim ·.name) = plugins.map ValidatedPlugin.name := by
    rw [← List.forall₂_eq_eq_eq, List.forall₂_map_left_iff, List.forall₂_map_right_iff]
    exact (fromRawPlugins_eq_ok hplugins).imp fun _ _ h => (validateOne_name h).1.symm
  have hmap := congrArg (List.map (NamedRow.mk .plugin)) hplugin
  simp only [List.map_map] at hmap
  rw [bootstrapNames, tenantNames_of_lowered (fromRawNamed_eq_ok htenants)]
  congr 1

theorem bootstrap_effect {raw : BootstrapConfigRaw} {config : BootstrapConfig}
    (hdb : Admitted double db.plugins) (hraw : fromRaw double raw = .ok config)
    (h : Bootstrap.apply uuid now db config = .ok db') :
    Effect double db (bootstrapNames raw) db' := by
  have hentries : ∀ entry ∈ config.plugins, ∃ raw, validateOne double raw = .ok entry := by
    obtain ⟨plugins, hplugins, hraw⟩ := bind_eq_ok.mp hraw
    obtain ⟨tenants, -, hraw⟩ := bind_eq_ok.mp hraw
    cases hraw
    exact fromRawPlugins_validated hplugins
  obtain ⟨⟨pluginIds, db₁⟩, hplugins, h⟩ := bind_eq_ok.mp h
  obtain ⟨hextends, hadmitted⟩ := applyPlugins_extends hdb hentries hplugins
  obtain ⟨hextends', hsame⟩ := applyTenants_extends h
  have hboth := hextends.trans hextends'
  rw [bootstrapNames_of_fromRaw hraw]
  refine ⟨⟨fun r hr => ?_, fun r hr => ?_⟩, by rw [hsame]; exact hadmitted⟩
  · exact (hboth.origin r hr).imp_right fun hr => List.mem_append.mpr (List.mem_append.mp hr).symm
  · exact hboth.stored r (List.mem_append.mpr (List.mem_append.mp hr).symm)

end

-- ════════════════════════════════════════════════════════════════════════
-- Runs
-- ════════════════════════════════════════════════════════════════════════

variable {double : UInt64 → List Char} {uuid : Tables → Nat} {db db' : Tables}

/-- One accepted write. -/
theorem run_effect {request : Request} (hdb : Admitted double db.plugins)
    (h : request.run double uuid db = some db') : Effect double db request.write.names db' := by
  obtain ⟨caller, now, write⟩ := request
  cases write with
  | createTenant name => exact createTenant_effect hdb (toOption_eq_some.mp h)
  | updateTenant id name since => exact updateTenant_effect hdb (toOption_eq_some.mp h)
  | createWorkspace tenantName name => exact createWorkspace_effect hdb (toOption_eq_some.mp h)
  | updateWorkspace tenantName id name since =>
    exact updateWorkspace_effect hdb (toOption_eq_some.mp h)
  | createPlugin raw => exact createPlugin_effect hdb (toOption_eq_some.mp h)
  | updatePlugin id raw since => exact updatePlugin_effect hdb (toOption_eq_some.mp h)
  | createWorkspacePlugin tenantName workspaceId pluginId config =>
    exact effect_of_bindings hdb (createWorkspacePlugin_tables (toOption_eq_some.mp h))
  | updateWorkspacePlugin gate tenantName workspaceId pluginId config since =>
    exact effect_of_bindings hdb (updateWorkspacePlugin_tables (toOption_eq_some.mp h))
  | bootstrap raw =>
    obtain ⟨config, hraw, h⟩ := Option.bind_eq_some_iff.mp h
    exact bootstrap_effect hdb (toOption_eq_some.mp hraw) (toOption_eq_some.mp h)

/-- Every plugin that is ever stored has passed validation. -/
theorem admitted_of_reachable {C : Tables → Request → Prop}
    (h : (configTables double uuid).ReachableUnder C db) : Admitted double db.plugins := by
  apply h.invariant
  · rintro _ rfl
    exact ⟨nofun, nofun⟩
  · intro t request t' ht _ hnext
    exact (run_effect ht hnext).admitted

end Botwork.System
