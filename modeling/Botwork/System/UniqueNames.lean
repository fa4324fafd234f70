import Botwork.Foundations.CheckedNames
import Botwork.System.ConfigServer

/-!
# Names of configuration rows

The API counts the rows that have a name in any case before it writes the name; a
bootstrap file looks a name up as it is spelled.  The unique indexes compare names
as they are spelled, so nothing else keeps `acme` from standing beside `Acme`:
`names_unique` says when none does.

## Main definitions

- `Row.nameKey` — what no two rows should share
- `naming` — the names of the configuration rows
- `WriteCall.exactly` — the requests that compare names as they are spelled
-/

namespace Botwork.System.ConfigServer

open Botwork.Foundations Botwork.ApiCore Botwork.Db Botwork.Api Botwork.Bootstrap

-- ════════════════════════════════════════════════════════════════════════
-- Names
-- ════════════════════════════════════════════════════════════════════════

/-- A name and what it is unique in: all tenants, one tenant, or all plugins. -/
inductive NameKey where
  | tenant (name : String)
  | workspace (tenantId : Nat) (name : String)
  | plugin (name : String)
  deriving DecidableEq

/-- The name of a row, up to ASCII case. -/
def Row.nameKey : Row → Option NameKey
  | .tenant row => some (.tenant (normaliseName row.name))
  | .workspace row => some (.workspace row.tenantId (normaliseName row.name))
  | .plugin row => some (.plugin (normaliseName row.spec.name))
  | .binding _ => none

def Row.spelling : Row → Option NameKey
  | .tenant row => some (.tenant row.name)
  | .workspace row => some (.workspace row.tenantId row.name)
  | .plugin row => some (.plugin row.spec.name)
  | .binding _ => none

/-- The tenant of a workspace. -/
def Row.owner : Row → Option Nat
  | .workspace row => some row.tenantId
  | _ => none

def RowKey.id? : RowKey → Option Nat
  | .tenant id | .workspace id | .plugin id => some id
  | .binding _ _ => none

theorem owner_of_id? {row : Row} (h : row.key.id? = none) : row.owner = none := by
  cases row with
  | binding => rfl
  | tenant | workspace | plugin => cases h

def naming : Naming RowKey Row NameKey (Option NameKey) (Option Nat) where
  key := Row.key
  name := Row.nameKey
  spelling := Row.spelling
  owner := Row.owner
  id? := RowKey.id?
  owner_eq row row' hkey hid := by rw [owner_of_id? hid, owner_of_id? (hkey ▸ hid)]

/-- A bootstrap file looks names up as they are spelled. -/
def WriteCall.exactly (call : WriteCall) : Bool :=
  match call.write with
  | .bootstrap _ => true
  | _ => false

-- ════════════════════════════════════════════════════════════════════════
-- Checks
-- ════════════════════════════════════════════════════════════════════════

section

variable {reads : List (FiniteMap RowKey Row)} {last : FiniteMap RowKey Row} {name : String}

theorem clear_cons {exactly : Bool} {row : Row}
    (h : ∀ seen ∈ last.values, seen.key ≠ row.key →
      if exactly then seen.spelling ≠ row.spelling else seen.nameKey ≠ row.nameKey) :
    naming.Clear exactly (last :: reads) row := ⟨last, rfl, h⟩

theorem mem_tenants {row : TenantRow} (h : Row.tenant row ∈ last.values) : row ∈ (tables last).tenants :=
  List.mem_filterMap.mpr ⟨_, h, rfl⟩

theorem mem_workspaces {row : WorkspaceRow} (h : Row.workspace row ∈ last.values) :
    row ∈ (tables last).workspaces := List.mem_filterMap.mpr ⟨_, h, rfl⟩

theorem mem_plugins {row : PluginRow} (h : Row.plugin row ∈ last.values) : row ∈ (tables last).plugins :=
  List.mem_filterMap.mpr ⟨_, h, rfl⟩

/-- The COUNT of the API finds a tenant that has the name in any case. -/
theorem clear_of_not_tenantNameTaken {excludeId : Option Nat} {row : TenantRow}
    (hname : isName row.name = true)
    (h : ¬ tenantNameTaken (tables last) (normaliseName row.name) excludeId = true)
    (hexclude : ∀ id, excludeId = some id → id = row.id) :
    naming.Clear false (last :: reads) (.tenant row) := by
  refine clear_cons fun seen hseen hkey hsame => h ?_
  cases seen with
  | tenant other =>
    have hlower : normaliseName other.name = normaliseName row.name := by simpa [Row.nameKey] using hsame
    have hother : other.id ≠ row.id := by simpa [Row.key] using hkey
    refine List.any_eq_true.mpr ⟨other, mem_tenants hseen, decide_eq_true
      ⟨toLowercase_eq_normaliseName hname hlower, fun heq => hother (hexclude _ heq.symm)⟩⟩
  | workspace | plugin | binding => simp [Row.nameKey] at hsame

theorem clear_of_not_workspaceNameTaken {excludeId : Option Nat} {row : WorkspaceRow}
    (hname : isName row.name = true)
    (h : ¬ workspaceNameTaken (tables last) row.tenantId (normaliseName row.name) excludeId = true)
    (hexclude : ∀ id, excludeId = some id → id = row.id) :
    naming.Clear false (last :: reads) (.workspace row) := by
  refine clear_cons fun seen hseen hkey hsame => h ?_
  cases seen with
  | workspace other =>
    obtain ⟨htenant, hlower⟩ : other.tenantId = row.tenantId ∧
        normaliseName other.name = normaliseName row.name := by
      simpa [Row.nameKey] using hsame
    have hother : other.id ≠ row.id := by simpa [Row.key] using hkey
    refine List.any_eq_true.mpr ⟨other, mem_workspaces hseen, decide_eq_true
      ⟨htenant, toLowercase_eq_normaliseName hname hlower, fun heq => hother (hexclude _ heq.symm)⟩⟩
  | tenant | plugin | binding => simp [Row.nameKey] at hsame

theorem clear_of_not_pluginNameTaken {excludeId : Option Nat} {row : PluginRow}
    (hname : isName row.spec.name = true)
    (h : ¬ pluginNameTaken (tables last) (normaliseName row.spec.name) excludeId = true)
    (hexclude : ∀ id, excludeId = some id → id = row.id) :
    naming.Clear false (last :: reads) (.plugin row) := by
  refine clear_cons fun seen hseen hkey hsame => h ?_
  cases seen with
  | plugin other =>
    have hlower : normaliseName other.spec.name = normaliseName row.spec.name := by
      simpa [Row.nameKey] using hsame
    have hother : other.id ≠ row.id := by simpa [Row.key] using hkey
    refine List.any_eq_true.mpr ⟨other, mem_plugins hseen, decide_eq_true
      ⟨toLowercase_eq_normaliseName hname hlower, fun heq => hother (hexclude _ heq.symm)⟩⟩
  | tenant | workspace | binding => simp [Row.nameKey] at hsame

end

-- ════════════════════════════════════════════════════════════════════════
-- Handlers
-- ════════════════════════════════════════════════════════════════════════

/-- The handler writes a name only after a SELECT that has not found it. -/
abbrev Checks {α : Type} (exactly : Bool) (handler : Handler α) : Prop :=
  ∀ reads, handler.Follows (naming.protocol exactly) (fun _ _ => True) reads

variable {caller : Caller} {tenantName name : String} {id workspaceId pluginId since : Nat}
  {lock : Option Nat} {config : Option Json} {exactly : Bool}

theorem Checks.bind {α β : Type} {p : Handler α} {f : α → Handler β} (hp : Checks exactly p)
    (hf : ∀ a, Checks exactly (f a)) : Checks exactly (p >>= f) := fun reads =>
  Program.follows_bind.mpr ((hp reads).mono fun reads' a _ => hf a reads')

theorem checks_createTenant : Checks false (createTenant caller name) := by
  intro reads
  simp only [createTenant, Program.follows_bind, follows_lift, follows_query]
  intro _ _ _ hname seen
  obtain ⟨hname, -⟩ := validateTenantName_eq_ok.mp (checkName_eq_ok.mp hname)
  split
  next => exact follows_throwApi.mpr trivial
  next hfree =>
    simp only [follows_insertRow, Program.follows_bind, Program.follows_now, Program.follows_commitWork,
      Program.follows_reply]
    refine fun now => ⟨fun id => ⟨rfl, .inl ⟨rfl, ?_⟩⟩, fun id answer => ?_⟩
    · exact clear_of_not_tenantNameTaken hname hfree fun _ h => by cases h
    · cases answer <;> trivial

theorem checks_updateTenant : Checks false (updateTenant caller id name since) := by
  intro reads
  simp only [updateTenant, Program.follows_bind, follows_lift, follows_query]
  intro _ _ _ hname seen live _ _ _ seen'
  obtain ⟨hname, -⟩ := validateTenantName_eq_ok.mp (checkName_eq_ok.mp hname)
  split
  next => exact follows_throwApi.mpr trivial
  next hfree =>
    simp only [follows_updateRow, Program.follows_bind, Program.follows_now, Program.follows_commitWork]
    refine fun now => ⟨fun row hkey _ => ?_, trivial⟩
    cases row with
    | tenant row =>
      have hid : row.id = live.id := by simpa [naming, Row.key] using hkey
      exact ⟨hkey, rfl, .inr (clear_of_not_tenantNameTaken hname hfree
        fun _ h => (Option.some.inj h).symm.trans hid.symm)⟩
    | workspace | plugin | binding => cases hkey

theorem checks_deleteTenant : Checks exactly (deleteTenant caller id lock) := by
  intro reads
  simp only [deleteTenant, Program.follows_bind, follows_lift, follows_query, follows_checkOptionalLock]
  intro _ _ seen live _ _ seen'
  split
  next => simp
  next => simp [naming, Naming.protocol]

theorem checks_createWorkspace : Checks false (createWorkspace caller tenantName name) := by
  intro reads
  simp only [createWorkspace, Program.follows_bind, follows_lift, follows_query]
  intro _ _ _ hname seen tenantId _ seen'
  have hname := validateFormat_eq_ok.mp (checkName_eq_ok.mp hname)
  split
  next => exact follows_throwApi.mpr trivial
  next hfree =>
    simp only [follows_insertRow, Program.follows_bind, Program.follows_now, Program.follows_commitWork]
    refine fun now => ⟨fun id => ⟨rfl, .inl ⟨rfl, ?_⟩⟩, fun _ => trivial⟩
    exact clear_of_not_workspaceNameTaken hname hfree fun _ h => by cases h

theorem checks_updateWorkspace : Checks false (updateWorkspace caller tenantName id name since) := by
  intro reads
  simp only [updateWorkspace, Program.follows_bind, follows_lift, follows_query]
  intro _ _ _ hname seen tenantId _
  have hname := validateFormat_eq_ok.mp (checkName_eq_ok.mp hname)
  refine follows_ownWorkspace fun seen' live hlive htenant _ _ seen'' => ?_
  split
  next => exact follows_throwApi.mpr trivial
  next hfree =>
    simp only [follows_updateRow, Program.follows_bind, Program.follows_now, Program.follows_commitWork]
    refine fun now => ⟨fun row hkey howner => ?_, trivial⟩
    cases row with
    | workspace row =>
      have hid : row.id = live.id := by simpa [naming, Row.key] using hkey
      -- the workspace is still one of the tenant whose names were counted
      have hmem : Row.workspace live ∈ seen'.values := by
        obtain ⟨found, hfound, hrow⟩ := List.mem_filterMap.mp (List.mem_of_find?_eq_some hlive)
        cases found <;> cases hrow
        exact hfound
      have howner : some live.tenantId = some row.tenantId :=
        howner seen' (List.mem_cons_of_mem _ List.mem_cons_self) (.workspace live) hmem rfl
      have hsame : row.tenantId = tenantId := (Option.some.inj howner).symm.trans htenant
      exact ⟨hkey, rfl, .inr (clear_of_not_workspaceNameTaken hname (hsame ▸ hfree)
        fun _ h => (Option.some.inj h).symm.trans hid.symm)⟩
    | tenant | plugin | binding => cases hkey

theorem checks_deleteWorkspace : Checks exactly (deleteWorkspace caller tenantName id lock) := by
  intro reads
  simp only [deleteWorkspace, Program.follows_bind, follows_lift, follows_query,
    follows_checkOptionalLock]
  intro _ _ seen tenantId _
  refine follows_ownWorkspace fun seen' live _ _ _ seen'' seen''' tenant _ => ?_
  refine follows_terminateBindings (P := fun _ => True) (fun _ _ _ => trivial) ?_ trivial
  simp [naming, Naming.protocol]

theorem checks_createPlugin {double : UInt64 → List Char} {raw : RawPluginEntry} :
    Checks false (createPlugin double caller raw) := by
  intro reads
  simp only [createPlugin, Program.follows_bind, follows_lift, follows_query]
  intro _ _ validated _ _ hname seen
  have hname := validateFormat_eq_ok.mp (checkName_eq_ok.mp hname)
  split
  next => exact follows_throwApi.mpr trivial
  next hfree =>
    simp only [follows_insertRow, Program.follows_bind, Program.follows_now, Program.follows_commitWork]
    refine fun now => ⟨fun id => ⟨rfl, .inl ⟨rfl, ?_⟩⟩, fun _ => trivial⟩
    exact clear_of_not_pluginNameTaken hname hfree fun _ h => by cases h

theorem checks_updatePlugin {double : UInt64 → List Char} {raw : RawPluginEntry} :
    Checks false (updatePlugin double caller id raw since) := by
  intro reads
  simp only [updatePlugin, Program.follows_bind, follows_lift, follows_query]
  intro _ _ validated _ seen live _ _ _ _ hname seen'
  have hname := validateFormat_eq_ok.mp (checkName_eq_ok.mp hname)
  split
  next => exact follows_throwApi.mpr trivial
  next hfree =>
    simp only [follows_updateRow, Program.follows_bind, Program.follows_now, Program.follows_commitWork]
    refine fun now => ⟨fun row hkey _ => ?_, trivial⟩
    cases row with
    | plugin row =>
      have hid : row.id = live.id := by simpa [naming, Row.key] using hkey
      exact ⟨hkey, rfl, .inr (clear_of_not_pluginNameTaken hname hfree
        fun _ h => (Option.some.inj h).symm.trans hid.symm)⟩
    | tenant | workspace | binding => cases hkey

theorem checks_deletePlugin : Checks exactly (deletePlugin caller id lock) := by
  intro reads
  simp only [deletePlugin, Program.follows_bind, follows_lift, follows_query, follows_checkOptionalLock]
  intro _ _ seen live _ _ seen'
  split
  next =>
    rw [Program.follows_bind]
    refine follows_dependentNames (P := fun _ => True) (fun _ _ _ => trivial) (fun _ names _ => ?_) trivial
    simp
  next => simp [naming, Naming.protocol]

/-- Nothing that is done to a binding touches a name. -/
theorem allowed_setBinding {reads : List (FiniteMap RowKey Row)} {now : Nat} :
    (naming.protocol exactly).allowed reads
      (.update (.binding workspaceId pluginId) (setBinding config now)) := by
  intro row hkey _
  cases row with
  | binding row => exact ⟨hkey, rfl, .inl rfl⟩
  | tenant | workspace | plugin => cases hkey

theorem checks_createWorkspacePlugin :
    Checks exactly (createWorkspacePlugin caller tenantName workspaceId pluginId config) := by
  intro reads
  simp only [createWorkspacePlugin, Program.follows_bind, follows_lift, follows_query]
  intro _ _ seen names _ seen'
  split
  next => exact follows_throwApi.mpr trivial
  next =>
    simp only [follows_insertRow, Program.follows_bind, Program.follows_now, Program.follows_commitWork,
      follows_lift]
    exact fun config' _ now => ⟨fun id => ⟨rfl, .inr ⟨rfl, rfl⟩⟩, fun _ => trivial⟩

theorem checks_updateWorkspacePlugin : Checks exactly
    (updateWorkspacePlugin caller tenantName workspaceId pluginId config since) := by
  intro reads
  simp only [updateWorkspacePlugin, liveBinding, Program.follows_bind, follows_lift, follows_query,
    Program.follows_now]
  intro _ _ seen live _ _ _ newConfig _ now seen' names _
  refine follows_terminateTriple ?_
  simp only [follows_updateRow, Program.follows_commitWork]
  exact ⟨allowed_setBinding, trivial⟩

theorem checks_deleteWorkspacePlugin :
    Checks exactly (deleteWorkspacePlugin caller tenantName workspaceId pluginId lock) := by
  intro reads
  simp only [deleteWorkspacePlugin, liveBinding, Program.follows_bind, follows_lift, follows_query,
    follows_checkOptionalLock]
  intro _ _ seen live _ _ seen' names _
  refine follows_terminateTriple ?_
  simp [naming, Naming.protocol]

theorem checks_upsertPlugin {entry : ValidatedPlugin} : Checks true (upsertPlugin entry) := by
  intro reads
  simp only [upsertPlugin, Program.follows_bind, follows_query]
  intro seen
  split
  next row _ =>
    split
    next => trivial
    next =>
      simp only [follows_updateRow, Program.follows_bind, Program.follows_now, Program.follows_pure]
      refine fun now => ⟨fun row' hkey _ => ?_, trivial⟩
      cases row' with
      | plugin row' => exact ⟨hkey, rfl, .inl rfl⟩
      | tenant | workspace | binding => cases hkey
  next hnone =>
    simp only [follows_insertRow, Program.follows_bind, Program.follows_now]
    refine fun now => ⟨fun id => ⟨rfl, .inl ⟨rfl, clear_cons fun other hother _ hsame => ?_⟩⟩, fun _ => trivial⟩
    cases other with
    | plugin other =>
      have hname : other.spec.name = entry.name := by simpa [Row.spelling] using hsame
      simpa [hname] using List.find?_eq_none.mp hnone other (mem_plugins hother)
    | tenant | workspace | binding => simp [Row.spelling] at hsame

theorem checks_upsertTenant : Checks true (upsertTenant name) := by
  intro reads
  simp only [upsertTenant, Program.follows_bind, follows_query]
  intro seen
  split
  next => trivial
  next hnone =>
    simp only [follows_insertRow, Program.follows_bind, Program.follows_now]
    refine fun now => ⟨fun id => ⟨rfl, .inl ⟨rfl, clear_cons fun other hother _ hsame => ?_⟩⟩, fun _ => trivial⟩
    cases other with
    | tenant other =>
      have hname : other.name = name := by simpa [Row.spelling] using hsame
      simpa [hname] using List.find?_eq_none.mp hnone other (mem_tenants hother)
    | workspace | plugin | binding => simp [Row.spelling] at hsame

theorem checks_upsertWorkspace {tenantId : Nat} : Checks true (upsertWorkspace tenantId name) := by
  intro reads
  simp only [upsertWorkspace, Program.follows_bind, follows_query]
  intro seen
  split
  next => trivial
  next hnone =>
    simp only [follows_insertRow, Program.follows_bind, Program.follows_now]
    refine fun now => ⟨fun id => ⟨rfl, .inl ⟨rfl, clear_cons fun other hother _ hsame => ?_⟩⟩, fun _ => trivial⟩
    cases other with
    | workspace other =>
      have hname : other.tenantId = tenantId ∧ other.name = name := by simpa [Row.spelling] using hsame
      simpa [hname] using List.find?_eq_none.mp hnone other (mem_workspaces hother)
    | tenant | plugin | binding => simp [Row.spelling] at hsame

theorem checks_upsertBinding : Checks true (upsertBinding workspaceId pluginId config) := by
  intro reads
  simp only [upsertBinding, Program.follows_bind, follows_query]
  intro seen
  split
  next row _ =>
    split
    next => trivial
    next =>
      simp only [follows_updateRow, Program.follows_bind, Program.follows_now]
      exact fun now => ⟨allowed_setBinding, trivial⟩
  next =>
    simp only [follows_insertRow, Program.follows_bind, Program.follows_now]
    exact fun now => ⟨fun id => ⟨rfl, .inr ⟨rfl, rfl⟩⟩, fun _ => trivial⟩

theorem checks_applyPlugins {pluginIds : List (String × Nat)} {entries : List ValidatedPlugin} :
    Checks true (applyPlugins pluginIds entries) := by
  induction entries generalizing pluginIds with
  | nil => exact fun _ => trivial
  | cons entry entries ih => exact checks_upsertPlugin.bind fun id => ih

theorem checks_applyBindings {pluginIds : List (String × Nat)} {tenant workspace : String}
    {bindings : List WorkspacePluginEntry} :
    Checks true (applyBindings pluginIds tenant workspace workspaceId bindings) := by
  induction bindings with
  | nil => exact fun _ => trivial
  | cons binding bindings ih =>
    unfold applyBindings
    split
    next => exact fun _ => by simp
    next pluginId _ => exact checks_upsertBinding.bind fun _ => ih

theorem checks_applyWorkspaces {pluginIds : List (String × Nat)} {tenant : String} {tenantId : Nat}
    {entries : List WorkspaceEntry} :
    Checks true (applyWorkspaces pluginIds tenant tenantId entries) := by
  induction entries with
  | nil => exact fun _ => trivial
  | cons entry entries ih =>
    exact checks_upsertWorkspace.bind fun workspaceId => checks_applyBindings.bind fun _ => ih

theorem checks_applyTenants {pluginIds : List (String × Nat)} {entries : List TenantEntry} :
    Checks true (applyTenants pluginIds entries) := by
  induction entries with
  | nil => exact fun _ => trivial
  | cons entry entries ih =>
    exact checks_upsertTenant.bind fun tenantId => checks_applyWorkspaces.bind fun _ => ih

theorem checks_applyBootstrap {bootstrap : BootstrapConfig} : Checks true (applyBootstrap bootstrap) :=
  checks_applyPlugins.bind fun _ => checks_applyTenants.bind fun _ _ => trivial

theorem names_disciplined (double : UInt64 → List Char) :
    naming.Disciplined WriteCall.exactly (writes double) := by
  rintro ⟨caller, write⟩
  cases write with
  | createTenant => exact checks_createTenant _
  | updateTenant => exact checks_updateTenant _
  | deleteTenant => exact checks_deleteTenant _
  | createWorkspace => exact checks_createWorkspace _
  | updateWorkspace => exact checks_updateWorkspace _
  | deleteWorkspace => exact checks_deleteWorkspace _
  | createPlugin => exact checks_createPlugin _
  | updatePlugin => exact checks_updatePlugin _
  | deletePlugin => exact checks_deletePlugin _
  | createWorkspacePlugin => exact checks_createWorkspacePlugin _
  | updateWorkspacePlugin => exact checks_updateWorkspacePlugin _
  | deleteWorkspacePlugin => exact checks_deleteWorkspacePlugin _
  | bootstrap => exact checks_applyBootstrap _

-- ════════════════════════════════════════════════════════════════════════
-- Runs
-- ════════════════════════════════════════════════════════════════════════

/-- **Names are unique ignoring case**, in the runs in which every other row with a
    name that is written was there, and spelled so for a bootstrap file, when the
    request looked. -/
theorem names_unique (double : UInt64 → List Char) {s : Server WriteCall RowKey Row Question WriteError}
    {key key' : RowKey} {row row' : Row} {name : NameKey}
    (hreach : (configServer double).ReachableUnder (naming.Guard WriteCall.exactly) s)
    (hrow : Table.committed s.table key = some row) (hrow' : Table.committed s.table key' = some row')
    (hname : row.nameKey = some name) (hname' : row'.nameKey = some name) : key = key' :=
  Naming.unique_names (names_disciplined double) hreach hrow hrow' hname hname'

private def operator : Caller := ⟨true, none⟩

/-- The API creates the tenant "Acme". -/
private def acmeRun : List (ServerEvent WriteCall) :=
  [.arrive ⟨operator, .createTenant "Acme"⟩, .run 0 .ok, .run 0 (.time 1000), .run 0 .ok, .run 0 .ok,
    .run 0 (.reply none), .run 0 .ok]

/-- A bootstrap file with two tenants, the second of which is new. -/
private def secondRun : List (ServerEvent WriteCall) :=
  [.arrive ⟨operator, .bootstrap ⟨[⟨"Acme", []⟩, ⟨"beta", []⟩], []⟩⟩, .run 1 .ok, .run 1 .ok,
    .run 1 (.time 2000), .run 1 .ok, .run 1 .ok, .run 1 .ok]

/-- A bootstrap file whose tenant is not there as it is spelled. -/
private def respelledRun : List (ServerEvent WriteCall) :=
  [.arrive ⟨operator, .bootstrap ⟨[⟨"acme", []⟩], []⟩⟩, .run 1 .ok, .run 1 (.time 2000), .run 1 .ok,
    .run 1 .ok, .run 1 .ok]

private def hasTenant (s : Server WriteCall RowKey Row Question WriteError) (id : Nat) (name : String) : Bool :=
  (Table.committed s.table (.tenant id)).any fun row => row.nameKey = some (.tenant name)

private theorem hasTenant_spec {s : Server WriteCall RowKey Row Question WriteError} {id : Nat} {name : String}
    (h : hasTenant s id name = true) :
    ∃ row, Table.committed s.table (.tenant id) = some row ∧ row.nameKey = some (.tenant name) := by
  simpa [hasTenant, Option.any_eq_true] using h

theorem names_unique_bootstrapped : ∃ (s : Server WriteCall RowKey Row Question WriteError) (row second : Row),
    Table.committed s.table (.tenant 0) = some row ∧ row.nameKey = some (.tenant "acme") ∧
    Table.committed s.table (.tenant 1) = some second ∧ second.nameKey = some (.tenant "beta") ∧
    ∀ key' row', Table.committed s.table key' = some row' →
      row'.nameKey = some (.tenant "acme") → .tenant 0 = key' := by
  have hexec : ((configServer fun _ => []).execUnder (naming.Guard WriteCall.exactly) Schema.init
      (acmeRun ++ secondRun)).any (fun s => hasTenant s 0 "acme" && hasTenant s 1 "beta") = true := by
    decide +kernel
  obtain ⟨s, hrun, hboth⟩ := Machine.exists_run_of_execUnder _ hexec
  obtain ⟨hacme, hbeta⟩ := Bool.and_eq_true _ _ |>.mp hboth
  obtain ⟨row, hrow, hname⟩ := hasTenant_spec hacme
  obtain ⟨second, hsecond, hname'⟩ := hasTenant_spec hbeta
  exact ⟨s, row, second, hrow, hname, hsecond, hname', fun key' row' hrow' hsame =>
    names_unique (fun _ => []) ⟨_, rfl, hrun⟩ hrow hrow' hname hsame⟩

theorem bootstrap_respells_a_tenant :
    ¬ ∀ double (s : Server WriteCall RowKey Row Question WriteError) key key' row row' name,
      (configServer double).Reachable s →
      Table.committed s.table key = some row → Table.committed s.table key' = some row' →
      row.nameKey = some name → row'.nameKey = some name → key = key' := by
  intro hclaim
  have hexec : ((configServer fun _ => []).execUnder (fun _ _ => True) Schema.init
      (acmeRun ++ respelledRun)).any (fun s => hasTenant s 0 "acme" && hasTenant s 1 "acme") = true := by
    decide +kernel
  obtain ⟨s, hrun, hboth⟩ := Machine.exists_run_of_execUnder _ hexec
  obtain ⟨hfirst, hsecond⟩ := Bool.and_eq_true _ _ |>.mp hboth
  obtain ⟨row, hrow, hname⟩ := hasTenant_spec hfirst
  obtain ⟨row', hrow', hname'⟩ := hasTenant_spec hsecond
  cases hclaim (fun _ => []) s (.tenant 0) (.tenant 1) row row' (.tenant "acme") ⟨_, rfl, hrun⟩
    hrow hrow' hname hname'

end Botwork.System.ConfigServer
