import Botwork.ApiCore.PluginSpec

/-!
# Configuration tables

The tables `tenant`, `workspace`, `plugin` and `workspace_plugin`.  Text columns
and binary JSON hold no NUL.

## Main definitions

- `TenantRow`, `WorkspaceRow`, `PluginRow`, `BindingRow`, `Tables` — the rows
- `storableText`, `storableJson` — what a column can hold
- `Tables.insertTenant`, `Tables.insertWorkspace`, `Tables.insertPlugin` — insertion
  under the unique keys
-/

namespace Botwork.Db

open Botwork.Foundations Botwork.ApiCore

structure TenantRow where
  id : Nat
  name : String
  updatedAt : Nat
  deriving DecidableEq

structure WorkspaceRow where
  id : Nat
  tenantId : Nat
  name : String
  updatedAt : Nat
  deriving DecidableEq

/-- A row of `plugin`; `spec` stands for the columns from `name` to `egress`. -/
structure PluginRow where
  id : Nat
  spec : ValidatedPlugin
  updatedAt : Nat
  deriving DecidableEq

structure BindingRow where
  workspaceId : Nat
  pluginId : Nat
  config : Option Json
  updatedAt : Nat
  deriving DecidableEq

structure Tables where
  tenants : List TenantRow
  workspaces : List WorkspaceRow
  plugins : List PluginRow
  bindings : List BindingRow
  deriving DecidableEq

def Tables.empty : Tables := ⟨[], [], [], []⟩

-- ════════════════════════════════════════════════════════════════════════
-- Columns
-- ════════════════════════════════════════════════════════════════════════

/-- What a text column can hold. -/
def storableText (s : String) : Bool := !s.toList.contains '\x00'

mutual

/-- What a `jsonb` column can hold. -/
def storableJson : Json → Bool
  | .null | .bool _ | .number _ => true
  | .string s => storableText s
  | .array items => storableItems items
  | .object members => storableMembers members

def storableItems : List Json → Bool
  | [] => true
  | item :: items => storableJson item && storableItems items

def storableMembers : List (String × Json) → Bool
  | [] => true
  | (key, value) :: members => storableText key && storableJson value && storableMembers members

end

def storablePlugin (spec : ValidatedPlugin) : Bool :=
  storableText spec.name && storableText spec.image && storableText spec.path &&
    storableText spec.upstreamAuth && storableJson spec.env &&
    spec.resources.all storableJson && storableJson spec.egress

-- ════════════════════════════════════════════════════════════════════════
-- Statements
-- ════════════════════════════════════════════════════════════════════════

namespace Tables

/-- `INSERT` into `tenant`: `none` when a column cannot hold its value, or the
    primary key or the unique key on `name` is violated. -/
def insertTenant (db : Tables) (row : TenantRow) : Option Tables :=
  if storableText row.name = false ∨
      db.tenants.any (fun t => t.id = row.id ∨ t.name = row.name) then none
  else some { db with tenants := db.tenants ++ [row] }

def insertWorkspace (db : Tables) (row : WorkspaceRow) : Option Tables :=
  if storableText row.name = false ∨
      db.workspaces.any (fun w =>
        w.id = row.id ∨ w.tenantId = row.tenantId ∧ w.name = row.name) then none
  else some { db with workspaces := db.workspaces ++ [row] }

def insertPlugin (db : Tables) (row : PluginRow) : Option Tables :=
  if storablePlugin row.spec = false ∨
      db.plugins.any (fun p => p.id = row.id ∨ p.spec.name = row.spec.name) then none
  else some { db with plugins := db.plugins ++ [row] }

def insertBinding (db : Tables) (row : BindingRow) : Option Tables :=
  if row.config.all storableJson = false ∨
      db.bindings.any (fun b => b.workspaceId = row.workspaceId ∧ b.pluginId = row.pluginId) then none
  else some { db with bindings := db.bindings ++ [row] }

/-- `UPDATE` of one row by its primary key, under the unique keys. -/
def updateTenant (db : Tables) (row : TenantRow) : Option Tables :=
  if storableText row.name = false ∨ db.tenants.any (fun t => t.name = row.name ∧ t.id ≠ row.id) then
    none
  else some { db with tenants := db.tenants.map fun t => if t.id = row.id then row else t }

def updateWorkspace (db : Tables) (row : WorkspaceRow) : Option Tables :=
  if storableText row.name = false ∨
      db.workspaces.any (fun w => w.tenantId = row.tenantId ∧ w.name = row.name ∧ w.id ≠ row.id) then
    none
  else some { db with workspaces := db.workspaces.map fun w => if w.id = row.id then row else w }

def updatePlugin (db : Tables) (row : PluginRow) : Option Tables :=
  if storablePlugin row.spec = false ∨
      db.plugins.any (fun p => p.spec.name = row.spec.name ∧ p.id ≠ row.id) then none
  else some { db with plugins := db.plugins.map fun p => if p.id = row.id then row else p }

def updateBinding (db : Tables) (row : BindingRow) : Option Tables :=
  if row.config.all storableJson = false then none
  else some { db with
    bindings := db.bindings.map fun b =>
      if b.workspaceId = row.workspaceId ∧ b.pluginId = row.pluginId then row else b }

-- ════════════════════════════════════════════════════════════════════════
-- What a statement does
-- ════════════════════════════════════════════════════════════════════════

section

variable {db db' : Tables}

theorem insertTenant_eq_some {row : TenantRow} (h : db.insertTenant row = some db') :
    db' = { db with tenants := db.tenants ++ [row] } := by
  unfold insertTenant at h
  split_ifs at h
  cases h
  rfl

theorem insertWorkspace_eq_some {row : WorkspaceRow} (h : db.insertWorkspace row = some db') :
    db' = { db with workspaces := db.workspaces ++ [row] } := by
  unfold insertWorkspace at h
  split_ifs at h
  cases h
  rfl

theorem insertPlugin_eq_some {row : PluginRow} (h : db.insertPlugin row = some db') :
    db' = { db with plugins := db.plugins ++ [row] } ∧ ∀ p ∈ db.plugins, p.id ≠ row.id := by
  unfold insertPlugin at h
  split_ifs at h with hrefused
  cases h
  refine ⟨rfl, ?_⟩
  intro p hp hid
  apply hrefused
  exact .inr (List.any_eq_true.mpr ⟨p, hp, by simp [hid]⟩)

theorem insertBinding_eq_some {row : BindingRow} (h : db.insertBinding row = some db') :
    db' = { db with bindings := db.bindings ++ [row] } := by
  unfold insertBinding at h
  split_ifs at h
  cases h
  rfl

theorem updateTenant_eq_some {row : TenantRow} (h : db.updateTenant row = some db') :
    db' = { db with tenants := db.tenants.map fun t => if t.id = row.id then row else t } := by
  unfold updateTenant at h
  split_ifs at h
  cases h
  rfl

theorem updateWorkspace_eq_some {row : WorkspaceRow} (h : db.updateWorkspace row = some db') :
    db' = { db with
      workspaces := db.workspaces.map fun w => if w.id = row.id then row else w } := by
  unfold updateWorkspace at h
  split_ifs at h
  cases h
  rfl

theorem updatePlugin_eq_some {row : PluginRow} (h : db.updatePlugin row = some db') :
    db' = { db with plugins := db.plugins.map fun p => if p.id = row.id then row else p } := by
  unfold updatePlugin at h
  split_ifs at h
  cases h
  rfl

theorem updateBinding_eq_some {row : BindingRow} (h : db.updateBinding row = some db') :
    db' = { db with
      bindings := db.bindings.map fun b =>
        if b.workspaceId = row.workspaceId ∧ b.pluginId = row.pluginId then row else b } := by
  unfold updateBinding at h
  split_ifs at h
  cases h
  rfl

end

/-- What stands in a list after some of its elements are replaced. -/
theorem of_mem_replaced {α : Type} {p : α → Prop} [DecidablePred p] {new x : α} {xs : List α}
    (h : x ∈ xs.map fun y => if p y then new else y) : x = new ∨ x ∈ xs ∧ ¬ p x := by
  obtain ⟨y, hy, heq⟩ := List.mem_map.mp h
  split_ifs at heq with hp
  · exact .inl heq.symm
  · subst heq
    exact .inr ⟨hy, hp⟩

theorem mem_replaced {α : Type} {p : α → Prop} [DecidablePred p] {new x : α} {xs : List α}
    (hx : x ∈ xs) (hp : p x) : new ∈ xs.map fun y => if p y then new else y :=
  List.mem_map.mpr ⟨x, hx, if_pos hp⟩

end Tables

end Botwork.Db
