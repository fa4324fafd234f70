import Botwork.ApiCore.Names
import Botwork.Bootstrap.Upserts

/-!
# Applying a bootstrap config twice

A config in which no two names of a list agree is in force after it is applied,
and applying it again does nothing.  `from_raw` compares names before it trims
them, and lets others in.

## Main definitions

- `Distinct`, `DistinctTrimmed` — the names of a config and of a file
- `Sound` — a config is applied once and for all

## Main results

- `bootstrap_idempotent` — which files are sound
-/

namespace Botwork.Bootstrap

open Botwork.Foundations Botwork.ApiCore Botwork.Db

/-! ### The names of a config -/

/-- The names of every list of the config differ. -/
structure Distinct (config : BootstrapConfig) : Prop where
  plugins : (config.plugins.map (·.name)).Nodup
  tenants : (config.tenants.map (·.name)).Nodup
  workspaces : ∀ tenant ∈ config.tenants, (tenant.workspaces.map (·.name)).Nodup
  bindings : ∀ tenant ∈ config.tenants, ∀ workspace ∈ tenant.workspaces,
    (workspace.plugins.map (·.name)).Nodup

theorem mem_workspaceUpserts {tenant : String} {entry : WorkspaceEntry} {node : Upsert}
    (h : node ∈ workspaceUpserts tenant entry) : node = .workspace tenant entry.name ∨
      ∃ binding ∈ entry.plugins, node = .binding tenant entry.name binding.name binding.config := by
  refine (List.mem_cons.mp h).imp_right fun h => ?_
  obtain ⟨binding, hmem, rfl⟩ := List.mem_map.mp h
  exact ⟨binding, hmem, rfl⟩

theorem mem_tenantUpserts {entry : TenantEntry} {node : Upsert} (h : node ∈ tenantUpserts entry) :
    node = .tenant entry.name ∨ (∃ name, node = .workspace entry.name name) ∨
      ∃ workspace name config, node = .binding entry.name workspace name config := by
  refine (List.mem_cons.mp h).imp_right fun h => ?_
  obtain ⟨workspace, -, h⟩ := List.mem_flatMap.mp h
  refine (mem_workspaceUpserts h).imp (fun h => ⟨_, h⟩) fun h => ?_
  obtain ⟨binding, -, rfl⟩ := h
  exact ⟨_, _, _, rfl⟩

/-- In a config of distinct names no two nodes are for one row. -/
theorem upserts_pairwise {config : BootstrapConfig} (h : Distinct config) :
    (upserts config).Pairwise fun upsert other => ¬ upsert.Clash other := by
  refine List.pairwise_append.mpr ⟨?_, List.pairwise_flatMap.mpr ⟨fun tenant htenant => ?_, ?_⟩, ?_⟩
  · rw [List.pairwise_map]
    exact List.pairwise_map.mp h.plugins
  · refine List.pairwise_cons.mpr ⟨fun node _ hclash => hclash.elim, ?_⟩
    refine List.pairwise_flatMap.mpr ⟨fun workspace hworkspace => ?_, ?_⟩
    · refine List.pairwise_cons.mpr ⟨fun node _ hclash => hclash.elim, ?_⟩
      rw [bindingUpserts, List.pairwise_map]
      exact (List.pairwise_map.mp (h.bindings tenant htenant workspace hworkspace)).imp
        fun hne hclash => hne hclash.2.2
    · refine (List.pairwise_map.mp (h.workspaces tenant htenant)).imp fun hne node hnode other
        hother hclash => ?_
      rcases mem_workspaceUpserts hnode with rfl | ⟨binding, -, rfl⟩
      · exact hclash.elim
      · rcases mem_workspaceUpserts hother with rfl | ⟨binding', -, rfl⟩
        · exact hclash.elim
        · exact hne hclash.2.1
  · refine (List.pairwise_map.mp h.tenants).imp fun hne node hnode other hother hclash => ?_
    rcases mem_tenantUpserts hnode with rfl | ⟨_, rfl⟩ | ⟨_, _, _, rfl⟩
    · exact hclash.elim
    · exact hclash.elim
    · rcases mem_tenantUpserts hother with rfl | ⟨_, rfl⟩ | ⟨_, _, _, rfl⟩
      · exact hclash.elim
      · exact hclash.elim
      · exact hne hclash.1
  · intro node hnode other hother hclash
    obtain ⟨entry, -, rfl⟩ := List.mem_map.mp hnode
    obtain ⟨tenant, -, hother⟩ := List.mem_flatMap.mp hother
    rcases mem_tenantUpserts hother with rfl | ⟨_, rfl⟩ | ⟨_, _, _, rfl⟩
    · exact hclash.elim
    · exact hclash.elim
    · exact hclash.elim

/-! ### What `from_raw` lets through -/

/-- No two names of a list agree once they are trimmed. -/
structure DistinctTrimmed (raw : BootstrapConfigRaw) : Prop where
  plugins : (raw.plugins.map (Text.trim ·.name)).Nodup
  tenants : (raw.tenants.map (Text.trim ·.name)).Nodup
  workspaces : ∀ tenant ∈ raw.tenants, (tenant.workspaces.map (Text.trim ·.name)).Nodup

variable {double : UInt64 → List Char}

theorem trim_of_isPluginName {name : String} (h : isPluginName name = true) :
    Text.trim name = name := by
  have hall : ∀ n, n < 128 → isNameChar (Char.ofNat n) = true →
      Text.isWhitespace (Char.ofNat n) = false := by decide +kernel
  refine Text.trim_of_forall fun c hc => ?_
  have hchar : isNameChar c = true := by
    unfold isPluginName at h
    split at h
    next => cases h
    next first rest heq =>
      simp only [Bool.and_eq_true, decide_eq_true_eq, List.all_eq_true] at h
      obtain ⟨⟨hfirst, -⟩, hrest⟩ := h
      rw [heq] at hc
      rcases List.mem_cons.mp hc with rfl | hc
      · simp [isNameChar, hfirst]
      · have h := hrest c hc
        simp only [Bool.or_eq_true] at h
        simp only [isNameChar, Bool.or_eq_true]
        tauto
  have hc' := hall c.toNat (isNameChar_lt hchar)
  rw [Char.ofNat_toNat] at hc'
  exact hc' hchar

/-- The names of an accepted list differ as they are written. -/
theorem fromRawNamed_nodup {α β : Type} {name : α → String} {field : String}
    {duplicate : String → ValidationError} {lower : String → α → Except ValidationError β}
    {seen : List String} {entries : List α} {lowered : List β}
    (h : fromRawNamed name field duplicate lower seen entries = .ok lowered) :
    (entries.map name).Nodup ∧ ∀ entry ∈ entries, name entry ∉ seen := by
  induction entries generalizing seen lowered with
  | nil => exact ⟨List.nodup_nil, fun _ hmem => absurd hmem List.not_mem_nil⟩
  | cons entry entries ih =>
    unfold fromRawNamed at h
    split_ifs at h with hblank hseen
    obtain ⟨b, -, h⟩ := bind_eq_ok.mp h
    obtain ⟨rest, hrest, -⟩ := bind_eq_ok.mp h
    obtain ⟨hnodup, hfresh⟩ := ih hrest
    refine ⟨List.nodup_cons.mpr ⟨fun hmem => ?_, hnodup⟩, fun other hother => ?_⟩
    · obtain ⟨other, hother, heq⟩ := List.mem_map.mp hmem
      exact hfresh other hother (heq ▸ List.mem_cons_self)
    · rcases List.mem_cons.mp hother with rfl | hother
      · exact hseen
      · exact fun hmem => hfresh other hother (List.mem_cons_of_mem _ hmem)

variable {raw : BootstrapConfigRaw} {config : BootstrapConfig}

/-- The parts of a lowered file. -/
theorem fromRaw_eq_ok (h : fromRaw double raw = .ok config) :
    fromRawPlugins double [] raw.plugins = .ok config.plugins ∧
      fromRawNamed TenantRaw.name "tenants[].name" .duplicateTenant
        (fromRawTenant double (config.plugins.map ValidatedPlugin.name)) [] raw.tenants =
        .ok config.tenants := by
  obtain ⟨plugins, hplugins, h⟩ := bind_eq_ok.mp h
  obtain ⟨tenants, htenants, h⟩ := bind_eq_ok.mp h
  cases h
  exact ⟨hplugins, htenants⟩

theorem map_eq_of_forall₂ {α β : Type} {f : α → String} {g : β → String} {as : List α} {bs : List β}
    {R : α → β → Prop} (h : List.Forall₂ R as bs) (hR : ∀ a b, R a b → f a = g b) :
    as.map f = bs.map g := by
  rw [← List.forall₂_eq_eq_eq, List.forall₂_map_left_iff, List.forall₂_map_right_iff]
  exact h.imp hR

/-- Every element of a lowered list comes from one of the list. -/
theorem exists_of_forall₂ {α β : Type} {R : α → β → Prop} {as : List α} {bs : List β}
    (h : List.Forall₂ R as bs) {b : β} (hb : b ∈ bs) : ∃ a ∈ as, R a b := by
  induction h with
  | nil => cases hb
  | @cons a b' as bs hab _ ih =>
    rcases List.mem_cons.mp hb with rfl | hb
    · exact ⟨a, List.mem_cons_self, hab⟩
    · obtain ⟨a', ha', hab'⟩ := ih hb
      exact ⟨a', List.mem_cons_of_mem _ ha', hab'⟩

theorem isPluginName_of_mem (h : fromRaw double raw = .ok config) {name : String}
    (hname : name ∈ config.plugins.map ValidatedPlugin.name) : isPluginName name = true := by
  obtain ⟨plugin, hplugin, rfl⟩ := List.mem_map.mp hname
  obtain ⟨entry, hentry⟩ := fromRawPlugins_validated (fromRaw_eq_ok h).1 plugin hplugin
  exact (validateOne_name hentry).2

/-- A binding keeps its name, which is that of a plugin. -/
theorem fromRawBinding_name {pluginNames : List String} {tenant workspace name : String}
    {binding : WorkspacePluginRaw} {entry : WorkspacePluginEntry}
    (h : fromRawBinding double pluginNames tenant workspace name binding = .ok entry) :
    entry.name = name ∧ binding.name ∈ pluginNames := by
  unfold fromRawBinding at h
  split_ifs at h with hunknown
  obtain ⟨config, -, h⟩ := bind_eq_ok.mp h
  cases h
  exact ⟨rfl, hunknown⟩

/-- The bindings of a lowered workspace: their names are names of plugins, and differ. -/
theorem fromRawWorkspace_bindings {pluginNames : List String} {tenant name : String}
    {workspace : WorkspaceRaw} {entry : WorkspaceEntry}
    (hnames : ∀ name ∈ pluginNames, isPluginName name = true)
    (h : fromRawWorkspace double pluginNames tenant name workspace = .ok entry) :
    (∀ binding ∈ entry.plugins, binding.name ∈ pluginNames) ∧
      (entry.plugins.map (·.name)).Nodup := by
  obtain ⟨plugins, hplugins, h⟩ := bind_eq_ok.mp h
  cases h
  have hall := fromRawNamed_eq_ok hplugins
  obtain ⟨hnodup, -⟩ := fromRawNamed_nodup hplugins
  have hsame : ∀ (raw : WorkspacePluginRaw) (binding : WorkspacePluginEntry),
      fromRawBinding double pluginNames tenant name (Text.trim raw.name) raw = .ok binding →
      raw.name = binding.name ∧ binding.name ∈ pluginNames := by
    intro raw binding hbinding
    obtain ⟨hname, hmem⟩ := fromRawBinding_name hbinding
    rw [trim_of_isPluginName (hnames _ hmem)] at hname
    rw [hname]
    exact ⟨rfl, hmem⟩
  refine ⟨fun binding hbinding => ?_, ?_⟩
  · obtain ⟨raw, -, hraw⟩ := exists_of_forall₂ hall hbinding
    exact (hsame raw binding hraw).2
  · rw [← map_eq_of_forall₂ hall fun raw binding hraw => (hsame raw binding hraw).1]
    exact hnodup

/-- The workspaces of a lowered tenant. -/
theorem fromRawTenant_workspaces {pluginNames : List String} {name : String} {tenant : TenantRaw}
    {entry : TenantEntry} (h : fromRawTenant double pluginNames name tenant = .ok entry)
    {workspace : WorkspaceEntry} (hmem : workspace ∈ entry.workspaces) :
    ∃ raw name', fromRawWorkspace double pluginNames name name' raw = .ok workspace := by
  obtain ⟨workspaces, hworkspaces, h⟩ := bind_eq_ok.mp h
  cases h
  obtain ⟨raw, -, hraw⟩ := exists_of_forall₂ (fromRawNamed_eq_ok hworkspaces) hmem
  exact ⟨raw, _, hraw⟩

/-- A lowered file refers to its own plugins, once in every workspace. -/
theorem fromRaw_bindings (h : fromRaw double raw = .ok config) {tenant : TenantEntry}
    (htenant : tenant ∈ config.tenants) {workspace : WorkspaceEntry}
    (hworkspace : workspace ∈ tenant.workspaces) :
    (∀ binding ∈ workspace.plugins, binding.name ∈ config.plugins.map ValidatedPlugin.name) ∧
      (workspace.plugins.map (·.name)).Nodup := by
  obtain ⟨entry, -, hentry⟩ := exists_of_forall₂ (fromRawNamed_eq_ok (fromRaw_eq_ok h).2) htenant
  obtain ⟨raw, name, hraw⟩ := fromRawTenant_workspaces hentry hworkspace
  exact fromRawWorkspace_bindings (fun _ => isPluginName_of_mem h) hraw

/-- The names of a lowered file differ where the trimmed names of the file do. -/
theorem distinct_iff (h : fromRaw double raw = .ok config) :
    Distinct config ↔ DistinctTrimmed raw := by
  obtain ⟨hplugins, htenants⟩ := fromRaw_eq_ok h
  have hall := fromRawNamed_eq_ok htenants
  have hpluginNames : raw.plugins.map (Text.trim ·.name) = config.plugins.map (·.name) :=
    map_eq_of_forall₂ (fromRawPlugins_eq_ok hplugins) fun _ _ h => (validateOne_name h).1.symm
  have htenantNames : raw.tenants.map (Text.trim ·.name) = config.tenants.map (·.name) :=
    map_eq_of_forall₂ hall fun _ _ h => (fromRawTenant_names h).1.symm
  constructor
  · intro hdistinct
    refine ⟨hpluginNames ▸ hdistinct.plugins, htenantNames ▸ hdistinct.tenants,
      fun tenant htenant => ?_⟩
    obtain ⟨entry, hentry, heq⟩ := exists_of_forall₂ hall.flip htenant
    rw [← (fromRawTenant_names heq).2]
    exact hdistinct.workspaces entry hentry
  · intro hdistinct
    refine ⟨hpluginNames ▸ hdistinct.plugins, htenantNames ▸ hdistinct.tenants,
      fun entry hentry => ?_, fun entry hentry workspace hworkspace => ?_⟩
    · obtain ⟨tenant, htenant, heq⟩ := exists_of_forall₂ hall hentry
      have hnodup := hdistinct.workspaces tenant htenant
      rw [← (fromRawTenant_names heq).2] at hnodup
      exact hnodup
    · exact (fromRaw_bindings h hentry hworkspace).2

/-! ### The property -/

/-- Every plugin and every binding of the config has a row that is as it is listed. -/
structure Lists (db : Tables) (config : BootstrapConfig) : Prop where
  plugins : ∀ entry ∈ config.plugins, (Upsert.plugin entry).Holds db
  bindings : ∀ tenant ∈ config.tenants, ∀ workspace ∈ tenant.workspaces,
    ∀ binding ∈ workspace.plugins,
      (Upsert.binding tenant.name workspace.name binding.name binding.config).Holds db

/-- The config is applied once and for all. -/
structure Sound (config : BootstrapConfig) : Prop where
  distinct : Distinct config
  refers : RefersToListed config
  total : ∀ uuid now db tenant workspace plugin, KeyedTables db →
    applyWithStore uuid now db config ≠ .error (.unknownPluginRef tenant workspace plugin)
  lists : ∀ uuid now db stats db', KeyedTables db →
    applyWithStore uuid now db config = .ok (stats, db') → Lists db' config
  twice : ∀ uuid now db stats db' uuid' now', KeyedTables db →
    applyWithStore uuid now db config = .ok (stats, db') →
    ∃ stats', applyWithStore uuid' now' db' config = .ok (stats', db') ∧
      ApplyStats.zero.SameRows stats'

theorem lists_of_holds {db : Tables} (h : ∀ node ∈ upserts config, node.Holds db) :
    Lists db config := by
  refine ⟨fun entry hentry => h _ ?_, fun tenant ht workspace hw binding hb => h _ ?_⟩
  · exact List.mem_append_left _ (List.mem_map_of_mem hentry)
  · refine List.mem_append_right _ (List.mem_flatMap.mpr ⟨tenant, ht, ?_⟩)
    refine List.mem_cons_of_mem _ (List.mem_flatMap.mpr ⟨workspace, hw, ?_⟩)
    exact List.mem_cons_of_mem _ (List.mem_map.mpr ⟨binding, hb, rfl⟩)

/-- **Bootstrap apply is idempotent and total** on an accepted file exactly when no
    two names of a list of the file agree once they are trimmed. -/
theorem bootstrap_idempotent (hraw : fromRaw double raw = .ok config) :
    Sound config ↔ DistinctTrimmed raw := by
  refine ⟨fun h => (distinct_iff hraw).mp h.distinct, fun h => ?_⟩
  have hdistinct := (distinct_iff hraw).mpr h
  have hrefers : RefersToListed config := fun tenant ht workspace hw =>
    (fromRaw_bindings hraw ht hw).1
  have hholds : ∀ uuid now db stats db', KeyedTables db →
      applyWithStore uuid now db config = .ok (stats, db') →
      ∀ node ∈ upserts config, node.Holds db' := by
    intro uuid now db stats db' hkeyed happly
    rw [applyWithStore_eq hkeyed hrefers] at happly
    exact (runUpserts_holds hkeyed (upserts_pairwise hdistinct) happly).1
  refine ⟨hdistinct, hrefers, fun uuid now db tenant workspace plugin hkeyed herr => ?_,
    fun uuid now db stats db' hkeyed happly => lists_of_holds (hholds _ _ _ _ _ hkeyed happly),
    fun uuid now db stats db' uuid' now' hkeyed happly => ?_⟩
  · rw [applyWithStore_eq hkeyed hrefers] at herr
    cases runUpserts_error herr
  · obtain ⟨stats', hrun, hsame⟩ :=
      runUpserts_of_holds uuid' now' (hholds _ _ _ _ _ hkeyed happly) .zero
    rw [applyWithStore_eq hkeyed hrefers] at happly
    rw [applyWithStore_eq (runUpserts_keeps hkeyed happly).1 hrefers]
    exact ⟨stats', hrun, hsame⟩

/-! ### Two files -/

/-- Draws an id that no row has, as long as rows are added one by one. -/
def sampleUuid (db : Tables) : Nat :=
  db.tenants.length + db.workspaces.length + db.plugins.length

def samplePlugin (name : String) (port : Nat) : RawPluginEntry where
  name := name
  network := none
  image := some "registry.example/echo:1"
  port := some port
  path := none
  upstreamAuth := none
  env := none
  resources := none
  egress := some (.string "none")

/-- A file with one plugin that is bound in one workspace. -/
def sampleFile : BootstrapConfigRaw where
  tenants := [⟨"acme", [⟨"main", [⟨"echo", none⟩]⟩]⟩]
  plugins := [samplePlugin "echo" 8000]

theorem bootstrap_idempotent_acme :
    ∃ config, fromRaw (fun _ => []) sampleFile = .ok config ∧ Sound config := by
  have hsome : (fromRaw (fun _ => []) sampleFile).toOption.isSome = true := by decide +kernel
  obtain ⟨config, hconfig⟩ := Option.isSome_iff_exists.mp hsome
  have hraw := toOption_eq_some.mp hconfig
  refine ⟨config, hraw, (bootstrap_idempotent hraw).mpr ⟨?_, ?_, ?_⟩⟩
  · decide +kernel
  · decide +kernel
  · decide +kernel

/-- A file with one plugin written twice, once with a blank behind its name. -/
def blankFile : BootstrapConfigRaw where
  tenants := []
  plugins := [samplePlugin "echo" 8000, samplePlugin "echo " 9000]

/-- Each time the file is applied, each of the two entries undoes the other. -/
theorem blank_name_never_settles :
    ¬ ∀ raw config, fromRaw (fun _ => []) raw = .ok config → Sound config := by
  intro h
  have hruns : ((fromRaw (fun _ => []) blankFile).toOption.bind fun config =>
      (applyWithStore sampleUuid 0 .empty config).toOption.bind fun r =>
        (applyWithStore sampleUuid 1 r.2 config).toOption.map fun r' => r'.1.pluginsUpdated) =
      some 2 := by decide +kernel
  obtain ⟨config, hconfig, hruns⟩ := Option.bind_eq_some_iff.mp hruns
  obtain ⟨r, hfirst, hruns⟩ := Option.bind_eq_some_iff.mp hruns
  obtain ⟨r', hsecond, hupdated⟩ := Option.map_eq_some_iff.mp hruns
  have hkeyed : KeyedTables .empty := ⟨keyed_nil, keyed_nil, keyed_nil, keyed_nil⟩
  obtain ⟨stats', hquiet, hsame⟩ := (h _ config (toOption_eq_some.mp hconfig)).twice sampleUuid 0
    .empty r.1 r.2 sampleUuid 1 hkeyed (toOption_eq_some.mp hfirst)
  rw [toOption_eq_some.mp hsecond] at hquiet
  cases hquiet
  have hnone := hsame.pluginsUpdated
  rw [hupdated] at hnone
  cases hnone

end Botwork.Bootstrap
