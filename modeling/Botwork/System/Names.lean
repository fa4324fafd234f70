import Mathlib.Data.List.TakeDrop
import Botwork.AuthBroker.Paths
import Botwork.ConfigBroker.Resolve
import Botwork.SessionBroker.AgentDirs
import Botwork.System.ConfigWrites

/-!
# Names across the services

Every service that reads the name of a tenant, a workspace or a plugin has a
grammar of its own.  A stored name is usable when all of them accept it; a bound
plugin is then reachable under its path.

## Main definitions

- `NamedRow.Usable`, `Reachable`, `Usable` — what a name, a triple, all tables must be
- `NamedRow.Fits` — the names all grammars have in common

## Main results

- `writes_store_usable_names` — tables stay usable exactly under writes of such names
-/

namespace Botwork.System

open Botwork.Foundations Botwork.ApiCore Botwork.Db
open Botwork.SessionBroker (isSlug parseTenantWorkspacePlugin stagingPath agentDir isAsciiLower_eq
  isAsciiDigit_eq)
open Botwork.ConfigBroker (isResolvable resolve)
open Botwork.ControlPlane (isAsciiLower isAsciiDigit)

/-- The services that read a name after it is stored accept it: auth-broker, the
    path and headers of session-broker, config-broker, and for the names that are
    part of a directory the launcher. -/
def NamedRow.Usable (row : NamedRow) : Prop :=
  isSlug row.name = true ∧ isResolvable row.name = true ∧
    match row.kind with
    | .tenant =>
      AuthBroker.validateTenantName row.name = .ok () ∧
        Launcher.isTenantSegment row.name.toList = true ∧
        ∀ reserved ∈ reservedTenantNames, normaliseName row.name ≠ normaliseName reserved
    | .workspace =>
      AuthBroker.validateWorkspaceName row.name = .ok () ∧
        Launcher.isTenantSegment row.name.toList = true
    | .plugin => AuthBroker.validatePluginName row.name = .ok ()

def pluginPath (tenant workspace plugin : String) : String :=
  "/" ++ tenant ++ "/" ++ workspace ++ "/" ++ plugin

/-- A request for a plugin under its path gets through: it is authorised and
    routed as this triple, the triple resolves, and the launcher accepts the
    directories that are named after it. -/
structure Reachable (double : UInt64 → List Char) (db : Tables)
    (tenant workspace plugin : String) : Prop where
  authorised : AuthBroker.parseOriginalPath (pluginPath tenant workspace plugin) =
    some (.mcp tenant workspace plugin)
  routed : parseTenantWorkspacePlugin (pluginPath tenant workspace plugin) =
    some ⟨tenant, workspace, plugin, ""⟩
  resolved : ∃ response, resolve double db (some tenant) (some workspace) (some plugin) = .ok response
  staged : ∀ token, Launcher.isToken token.toList = true →
    Launcher.validStagingPath (stagingPath tenant token) = true
  mounted : ∀ agentId, Launcher.isAgentId agentId.toList = true →
    Launcher.validAgentDir (agentDir tenant workspace agentId) = true

/-- All names are usable and all bound plugins reachable. -/
structure Usable (double : UInt64 → List Char) (db : Tables) : Prop where
  names : ∀ row ∈ tablesNames db, row.Usable
  reachable : ∀ tenant ∈ db.tenants, ∀ workspace ∈ db.workspaces, ∀ plugin ∈ db.plugins,
    ∀ binding ∈ db.bindings, workspace.tenantId = tenant.id → binding.workspaceId = workspace.id →
      binding.pluginId = plugin.id →
        Reachable double db tenant.name workspace.name plugin.spec.name

/-- The names all grammars have in common: `[a-z][a-z0-9-]{0,30}`, and for a
    tenant none of the reserved ones. -/
def NamedRow.Fits (row : NamedRow) : Prop :=
  isSlug row.name = true ∧ (row.kind = .tenant → row.name ∉ reservedTenantNames)

-- ════════════════════════════════════════════════════════════════════════
-- The grammars
-- ════════════════════════════════════════════════════════════════════════

theorem isResolvable_eq : isResolvable = isSlug := by
  funext name
  unfold isResolvable isSlug
  cases name.toList with
  | nil => rfl
  | cons first rest => simp only [isAsciiLower_eq, isAsciiDigit_eq]

theorem isTenantSegment_eq (name : String) : Launcher.isTenantSegment name.toList = isSlug name := by
  unfold Launcher.isTenantSegment isSlug
  cases name.toList with
  | nil => rfl
  | cons first rest => simp only [isAsciiLower_eq, isAsciiDigit_eq]

section

variable {name : String}

/-- The length and the characters of a slug. -/
theorem slug_shape (h : isSlug name = true) :
    1 ≤ name.toList.length ∧ name.toList.length ≤ 31 ∧
      ∀ c ∈ name.toList, (c.isLower || c.isDigit || c == '-') = true := by
  unfold isSlug at h
  rw [isAsciiLower_eq, isAsciiDigit_eq] at h
  split at h
  next => cases h
  next first rest heq =>
    simp only [Bool.and_eq_true, decide_eq_true_eq, List.all_eq_true] at h
    obtain ⟨⟨hfirst, hlen⟩, hrest⟩ := h
    rw [heq, List.length_cons]
    refine ⟨by omega, by omega, ?_⟩
    intro c hc
    rcases List.mem_cons.mp hc with rfl | hc
    · simp [hfirst]
    · exact hrest c hc

theorem slug_isName (h : isSlug name = true) : AuthBroker.isName name = true := by
  obtain ⟨hpos, hlen, hchars⟩ := slug_shape h
  simp only [AuthBroker.isName, Bool.and_eq_true, decide_eq_true_eq, List.all_eq_true]
  refine ⟨⟨hpos, by omega⟩, ?_⟩
  intro c hc
  have hchar := hchars c hc
  simp only [Bool.or_eq_true] at hchar ⊢
  tauto

theorem slug_normalise (h : isSlug name = true) : normaliseName name = name := by
  apply normaliseName_of_forall
  intro c hc
  have hchar := (slug_shape h).2.2 c hc
  have hupper : 'Z'.val.toNat < 'a'.val.toNat ∧ '9'.val.toNat < 'A'.val.toNat := by decide
  simp only [Text.isLower_eq, Char.isDigit, Text.isUpper_eq, Bool.or_eq_true, Bool.and_eq_true,
    decide_eq_true_eq, beq_iff_eq, UInt32.le_iff_toNat_le, decide_eq_false_iff_not] at hchar ⊢
  rcases hchar with (hchar | hchar) | rfl
  · omega
  · omega
  · decide

theorem reserved_normalise {reserved : String} (h : reserved ∈ reservedTenantNames) :
    normaliseName reserved = reserved := by
  have hall : ∀ reserved ∈ reservedTenantNames, normaliseName reserved = reserved := by decide +kernel
  exact hall reserved h

/-- A slug collides with a reserved name only by being one. -/
theorem slug_unreserved (h : isSlug name = true) :
    (∀ reserved ∈ reservedTenantNames, normaliseName name ≠ normaliseName reserved) ↔
      name ∉ reservedTenantNames := by
  rw [slug_normalise h]
  constructor
  · intro hne hmem
    exact hne name hmem (slug_normalise h).symm
  · intro hnot reserved hreserved heq
    rw [reserved_normalise hreserved] at heq
    exact hnot (heq ▸ hreserved)

end

/-- **Usable names**: the grammars agree exactly on the slugs, less the reserved
    names for a tenant. -/
theorem NamedRow.usable_iff (row : NamedRow) : row.Usable ↔ row.Fits := by
  obtain ⟨kind, name⟩ := row
  constructor
  · rintro ⟨hslug, -, hkind⟩
    refine ⟨hslug, ?_⟩
    rintro rfl
    exact (slug_unreserved hslug).mp hkind.2.2
  · rintro ⟨hslug, hreserved⟩
    have hsegment := (isTenantSegment_eq name).trans hslug
    have hplain : AuthBroker.validateName name false = .ok () :=
      AuthBroker.validateName_eq_ok.mpr ⟨slug_isName hslug, nofun⟩
    refine ⟨hslug, by rw [isResolvable_eq]; exact hslug, ?_⟩
    cases kind with
    | tenant =>
      have hunreserved := (slug_unreserved hslug).mpr (hreserved rfl)
      refine ⟨AuthBroker.validateName_eq_ok.mpr ⟨slug_isName hslug, fun _ candidate hcandidate => ?_⟩,
        hsegment, hunreserved⟩
      exact (hunreserved candidate hcandidate).symm
    | workspace => exact ⟨hplain, hsegment⟩
    | plugin => exact hplain

-- ════════════════════════════════════════════════════════════════════════
-- Paths
-- ════════════════════════════════════════════════════════════════════════

section

variable {tenant workspace plugin : String}

theorem slug_noChar (h : isSlug tenant = true) {c : Char}
    (hc : (c.isLower || c.isDigit || c == '-') = false) : c ∉ tenant.toList := by
  intro hmem
  rw [(slug_shape h).2.2 c hmem] at hc
  cases hc

theorem toList_pluginPath : (pluginPath tenant workspace plugin).toList =
    '/' :: (tenant.toList ++ '/' :: (workspace.toList ++ '/' :: plugin.toList)) := by
  simp [pluginPath, String.toList_append]

theorem takeSegment_cons {segment rest : List Char} (hsegment : '/' ∉ segment)
    (hrest : rest = [] ∨ rest.head? = some '/') :
    SessionBroker.takeSegment ('/' :: (segment ++ rest)) = some (String.ofList segment, rest) := by
  have hall : ∀ c ∈ segment, (c != '/') = true := by
    intro c hc
    simpa using fun heq : c = '/' => hsegment (heq ▸ hc)
  have htake : rest.takeWhile (· != '/') = [] := by
    cases rest with
    | nil => rfl
    | cons c rest =>
      have hc : c = '/' := by simpa using hrest
      simp [hc]
  have hdrop : rest.dropWhile (· != '/') = rest := by
    cases rest with
    | nil => rfl
    | cons c rest =>
      have hc : c = '/' := by simpa using hrest
      simp [hc]
  rw [SessionBroker.takeSegment, List.takeWhile_append_of_pos hall, List.dropWhile_append_of_pos hall,
    htake, hdrop, List.append_nil]

theorem routed_pluginPath (htenant : isSlug tenant = true) (hworkspace : isSlug workspace = true)
    (hplugin : isSlug plugin = true) :
    parseTenantWorkspacePlugin (pluginPath tenant workspace plugin) =
      some ⟨tenant, workspace, plugin, ""⟩ := by
  have hquery : ∀ c ∈ (pluginPath tenant workspace plugin).toList, (c != '?') = true := by
    intro c hc
    rw [bne_iff_ne]
    rintro rfl
    simp only [toList_pluginPath, List.mem_cons, List.mem_append] at hc
    rcases hc with hc | hc | hc | hc | hc | hc
    · cases hc
    · exact slug_noChar htenant rfl hc
    · cases hc
    · exact slug_noChar hworkspace rfl hc
    · cases hc
    · exact slug_noChar hplugin rfl hc
  have hsplit : (SessionBroker.splitPathAndQuery (pluginPath tenant workspace plugin)).1 =
      pluginPath tenant workspace plugin := by
    rw [SessionBroker.splitPathAndQuery, List.span_eq_takeWhile_dropWhile,
      List.takeWhile_eq_self_iff.mpr hquery, String.ofList_toList]
  have hend : SessionBroker.takeSegment ('/' :: plugin.toList) =
      some (String.ofList plugin.toList, []) := by
    simpa using takeSegment_cons (slug_noChar hplugin rfl) (.inl rfl)
  rw [parseTenantWorkspacePlugin, hsplit, SessionBroker.pathCaptures, toList_pluginPath,
    takeSegment_cons (slug_noChar htenant rfl) (.inr rfl)]
  simp only [Option.bind_eq_bind, Option.bind_some]
  rw [takeSegment_cons (slug_noChar hworkspace rfl) (.inr rfl)]
  simp only [Option.bind_some]
  rw [hend]
  simp [htenant, hworkspace, hplugin]

theorem segments_pluginPath (htenant : isSlug tenant = true) (hworkspace : isSlug workspace = true)
    (hplugin : isSlug plugin = true) :
    AuthBroker.segments (pluginPath tenant workspace plugin) = [tenant, workspace, plugin] := by
  have hne {name : String} (h : isSlug name = true) : name.toList ≠ [] :=
    List.length_pos_iff.mp (slug_shape h).1
  have hroot : '/' :: (tenant.toList ++ '/' :: (workspace.toList ++ '/' :: plugin.toList)) =
      [] ++ '/' :: (tenant.toList ++ '/' :: (workspace.toList ++ '/' :: plugin.toList)) := rfl
  rw [AuthBroker.segments, toList_pluginPath, hroot,
    List.splitOn_append_cons_self_of_not_mem (by simp),
    List.splitOn_append_cons_self_of_not_mem (slug_noChar htenant rfl),
    List.splitOn_append_cons_self_of_not_mem (slug_noChar hworkspace rfl),
    List.splitOn_eq_singleton (slug_noChar hplugin rfl)]
  simp [hne htenant, hne hworkspace, hne hplugin]

/-- A path below `/api` has that as its first segment. -/
theorem first_segment {rest : List Char} (htenant : '/' ∉ tenant.toList)
    (h : "/api/".toList <+: '/' :: (tenant.toList ++ '/' :: rest)) : tenant = "api" := by
  obtain ⟨tail, htail⟩ := h
  have htake := congrArg (fun path : List Char => path.tail.takeWhile (· != '/')) htail
  have hall : ∀ c ∈ tenant.toList, (c != '/') = true := by
    intro c hc
    simpa using fun heq : c = '/' => htenant (heq ▸ hc)
  simp only [List.tail_cons, List.takeWhile_append_of_pos hall] at htake
  apply String.toList_injective
  simpa using htake.symm

/-- Outside `/api` the first three segments decide. -/
theorem parseOriginalPath_of_segments {path plugin' : String} {rest : List Char}
    {more : List String} (hpath : path.toList = '/' :: (tenant.toList ++ '/' :: rest))
    (hslash : '/' ∉ tenant.toList) (hapi : tenant ≠ "api")
    (hsegments : AuthBroker.segments path = tenant :: workspace :: plugin' :: more) :
    AuthBroker.parseOriginalPath path =
      if AuthBroker.accepted (AuthBroker.validateTenantName tenant) &&
          AuthBroker.accepted (AuthBroker.validateWorkspaceName workspace) &&
          AuthBroker.accepted (AuthBroker.validatePluginName plugin') then
        some (.mcp tenant workspace plugin')
      else none := by
  have hstarts {start : String} (hstart : "/api/".toList <+: start.toList) :
      AuthBroker.startsWith path start = false := by
    rw [AuthBroker.startsWith, ← Bool.not_eq_true, List.isPrefixOf_iff_prefix, hpath]
    intro h
    exact hapi (first_segment hslash (hstart.trans h))
  have hne {other : String} (hother : "/api/".toList <+: other.toList ++ ['/']) : path ≠ other := by
    rintro rfl
    rw [hpath, List.cons_append, List.append_assoc, List.cons_append] at hother
    exact hapi (first_segment hslash hother)
  rw [AuthBroker.parseOriginalPath, hsegments, hstarts (by decide), hstarts (by decide),
    hstarts (by decide), if_neg (by simpa using hne (by decide)), if_neg (hne (by decide)),
    if_neg (by simp), if_neg (by simpa using hne (by decide))]

theorem authorised_pluginPath (htenant : isSlug tenant = true)
    (hreserved : tenant ∉ reservedTenantNames) (hworkspace : isSlug workspace = true)
    (hplugin : isSlug plugin = true) :
    AuthBroker.parseOriginalPath (pluginPath tenant workspace plugin) =
      some (.mcp tenant workspace plugin) := by
  have hapi : tenant ≠ "api" := by
    rintro rfl
    exact hreserved (by decide)
  have hname : AuthBroker.validateTenantName tenant = .ok () :=
    ((NamedRow.usable_iff ⟨.tenant, tenant⟩).mpr ⟨htenant, fun _ => hreserved⟩).2.2.1
  have hspace : AuthBroker.validateWorkspaceName workspace = .ok () :=
    ((NamedRow.usable_iff ⟨.workspace, workspace⟩).mpr ⟨hworkspace, nofun⟩).2.2.1
  have hlast : AuthBroker.validatePluginName plugin = .ok () :=
    ((NamedRow.usable_iff ⟨.plugin, plugin⟩).mpr ⟨hplugin, nofun⟩).2.2
  rw [parseOriginalPath_of_segments toList_pluginPath (slug_noChar htenant rfl) hapi
    (segments_pluginPath htenant hworkspace hplugin)]
  simp only [AuthBroker.accepted_iff.mpr hname, AuthBroker.accepted_iff.mpr hspace,
    AuthBroker.accepted_iff.mpr hlast, Bool.and_self, if_true]

end

-- ════════════════════════════════════════════════════════════════════════
-- Tables
-- ════════════════════════════════════════════════════════════════════════

section

variable {double : UInt64 → List Char} {db : Tables}

/-- A bound plugin resolves once its names have the shape config-broker asks for. -/
theorem resolve_of_bound (hadmitted : Admitted double db.plugins) {tenant : TenantRow}
    {workspace : WorkspaceRow} {plugin : PluginRow} {binding : BindingRow}
    (htenant : tenant ∈ db.tenants) (hworkspace : workspace ∈ db.workspaces)
    (hplugin : plugin ∈ db.plugins) (hbinding : binding ∈ db.bindings)
    (howner : workspace.tenantId = tenant.id) (hspace : binding.workspaceId = workspace.id)
    (hbound : binding.pluginId = plugin.id) (htenantName : isSlug tenant.name = true)
    (hworkspaceName : isSlug workspace.name = true) (hpluginName : isSlug plugin.spec.name = true) :
    ∃ response, resolve double db (some tenant.name) (some workspace.name)
      (some plugin.spec.name) = .ok response := by
  have hjoin : ConfigBroker.isWorkspaceOf db tenant.name workspace.name binding.workspaceId = true := by
    refine List.any_eq_true.mpr ⟨workspace, hworkspace, ?_⟩
    have howned : (db.tenants.any fun row =>
        row.id = workspace.tenantId ∧ row.name = tenant.name) = true :=
      List.any_eq_true.mpr ⟨tenant, htenant, by simp [howner]⟩
    simp only [hspace, howned, and_self, decide_true]
  obtain ⟨⟨pluginRow, bindingRow⟩, hlookup⟩ :=
    ConfigBroker.lookup_isSome hbinding hplugin hbound.symm rfl hjoin
  obtain ⟨-, hrow, -⟩ := ConfigBroker.lookup_eq_some hlookup
  obtain ⟨raw, hraw⟩ := hadmitted.validated pluginRow hrow
  have hport : ¬ 65536 ≤ pluginRow.spec.port := by
    have hle := validatePort_le (validateOne_eq_ok hraw).port
    omega
  have hname {field code name : String} (h : isSlug name = true) :
      ConfigBroker.requireName field code name = .ok () := by
    rw [ConfigBroker.requireName, if_pos (by rw [isResolvable_eq, h])]
  have hrender : ∃ response, ConfigBroker.render double pluginRow bindingRow = some response := by
    rw [ConfigBroker.render, if_neg hport]
    exact ⟨_, rfl⟩
  obtain ⟨response, hresponse⟩ := hrender
  refine ⟨response, ?_⟩
  rw [resolve]
  refine bind_eq_ok.mpr ⟨_, rfl, bind_eq_ok.mpr ⟨_, rfl, bind_eq_ok.mpr ⟨_, rfl, ?_⟩⟩⟩
  refine bind_eq_ok.mpr ⟨_, hname htenantName, bind_eq_ok.mpr ⟨_, hname hworkspaceName, ?_⟩⟩
  refine bind_eq_ok.mpr ⟨_, hname hpluginName, ?_⟩
  simp only [hlookup, hresponse]

/-- Tables whose names fit are usable. -/
theorem usable_of_fits (hadmitted : Admitted double db.plugins)
    (h : ∀ row ∈ tablesNames db, row.Fits) : Usable double db where
  names row hrow := row.usable_iff.mpr (h row hrow)
  reachable tenant htenant workspace hworkspace plugin hplugin binding hbinding howner hspace hbound := by
    obtain ⟨hslug, hreserved⟩ := h _ (mem_tablesNames.mpr (.inl ⟨tenant, htenant, rfl⟩))
    obtain ⟨hslug', -⟩ := h _ (mem_tablesNames.mpr (.inr (.inl ⟨workspace, hworkspace, rfl⟩)))
    obtain ⟨hslug'', -⟩ := h _ (mem_tablesNames.mpr (.inr (.inr ⟨plugin, hplugin, rfl⟩)))
    exact
      { authorised := authorised_pluginPath hslug (hreserved rfl) hslug' hslug''
        routed := routed_pluginPath hslug hslug' hslug''
        resolved := resolve_of_bound hadmitted htenant hworkspace hplugin hbinding howner hspace
          hbound hslug hslug' hslug''
        staged := fun _ => SessionBroker.validStagingPath_stagingPath hslug
        mounted := fun _ hid => by rw [SessionBroker.validAgentDir_agentDir hslug hslug', hid] }

/-- **Usable tables**: whatever the services have written so far, an accepted
    write keeps all names usable and all bound plugins reachable exactly when the
    names it asks for fit; so tables that only such writes have filled are usable. -/
theorem writes_store_usable_names (double : UInt64 → List Char) (uuid : Tables → Nat) :
    (∀ db request db', (configTables double uuid).Reachable db → Usable double db →
      (configTables double uuid).next db request = some db' →
        (Usable double db' ↔ ∀ row ∈ request.write.names, row.Fits)) ∧
    ∀ db, (configTables double uuid).ReachableUnder
        (fun _ request => ∀ row ∈ request.write.names, row.Fits) db → Usable double db := by
  constructor
  · intro db request db' hreach husable hnext
    have heffect := run_effect (admitted_of_reachable hreach) hnext
    constructor
    · exact fun h row hrow => row.usable_iff.mp (h.names row (heffect.renames.stored row hrow))
    · intro hfits
      refine usable_of_fits heffect.admitted fun row hrow => ?_
      rcases heffect.renames.origin row hrow with hrow | hrow
      · exact row.usable_iff.mp (husable.names row hrow)
      · exact hfits row hrow
  · intro db hreach
    refine usable_of_fits (admitted_of_reachable hreach) ?_
    refine (hreach.invariant (P := fun db => Admitted double db.plugins ∧
      ∀ row ∈ tablesNames db, row.Fits) ?_ ?_).2
    · rintro _ rfl
      exact ⟨⟨nofun, nofun⟩, nofun⟩
    · rintro t request t' ⟨hadmitted, hfits⟩ hwrite hnext
      have heffect := run_effect hadmitted hnext
      refine ⟨heffect.admitted, fun row hrow => ?_⟩
      rcases heffect.renames.origin row hrow with hrow | hrow
      · exact hfits row hrow
      · exact hwrite row hrow

end

-- ════════════════════════════════════════════════════════════════════════
-- Names on both sides of the gap
-- ════════════════════════════════════════════════════════════════════════

def adminCreates (name : String) : Request := ⟨⟨true, none⟩, 0, .createTenant name⟩

def noDouble (_ : UInt64) : List Char := []

theorem writes_store_usable_names_acme :
    ∃ db, (configTables noDouble fun _ => 0).next Tables.empty (adminCreates "acme") = some db ∧
      Usable noDouble db := by
  have hstored : (configTables noDouble fun _ => 0).next Tables.empty (adminCreates "acme") =
      some ⟨[⟨0, "acme", 0⟩], [], [], []⟩ := by decide +kernel
  have hempty : Usable noDouble Tables.empty := ⟨nofun, nofun⟩
  have hfits : ∀ row ∈ (adminCreates "acme").write.names, row.Fits := by
    intro row hrow
    rw [List.mem_singleton.mp hrow]
    have hslug : isSlug (Text.trim "acme") = true := by decide +kernel
    have hreserved : Text.trim "acme" ∉ reservedTenantNames := by decide +kernel
    exact ⟨hslug, fun _ => hreserved⟩
  exact ⟨_, hstored, ((writes_store_usable_names noDouble fun _ => 0).1 Tables.empty _ _
    ⟨_, rfl, Relation.ReflTransGen.refl⟩ hempty hstored).mpr hfits⟩

/-- The API stores a tenant with an uppercase letter, which session-broker and
    config-broker never accept. -/
theorem uppercase_tenant_unusable :
    ∃ db, (configTables noDouble fun _ => 0).Reachable db ∧
      ⟨.tenant, "Acme"⟩ ∈ tablesNames db ∧ isSlug "Acme" = false ∧ isResolvable "Acme" = false ∧
      ¬ Usable noDouble db := by
  have hstored : ((configTables noDouble fun _ => 0).exec Tables.empty [adminCreates "Acme"]) =
      some ⟨[⟨0, "Acme", 0⟩], [], [], []⟩ := by decide +kernel
  have hslug : isSlug "Acme" = false := by decide
  refine ⟨_, ⟨_, rfl, Machine.run_of_exec hstored⟩, by decide, hslug, by decide, ?_⟩
  intro husable
  have hname := (husable.names ⟨.tenant, "Acme"⟩ (by decide)).1
  rw [hslug] at hname
  cases hname

end Botwork.System
