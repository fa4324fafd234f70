import Botwork.Api.Writes

/-!
# The two writers of a binding

A binding's config reaches its row by `POST` and `PUT` of the API or from a
bootstrap file, each with a check of its own.  The handlers read the body into a
struct whose optional field cannot tell a missing member from `null`, and check
its shape only; bootstrap checks its size as well.  `binding_writers_agree` says
for which values the writers agree, and which updates keep what is stored.

## Main definitions

- `WorkspacePluginCreate.ofJson`, `WorkspacePluginUpdate.ofJson` — the bodies
- `postWorkspacePlugin`, `putWorkspacePlugin` — the handlers with their bodies
- `Agrees` — a writer of the API and bootstrap's check agree on a value
- `Agreeable` — the values on which they do
-/

namespace Botwork.Api

open Botwork.Foundations Botwork.ApiCore Botwork.Db

/-! ### Bodies -/

structure WorkspacePluginCreate where
  workspaceId : Nat
  pluginId : Nat
  config : Option Json

structure WorkspacePluginUpdate where
  config : Option Json
  ifUnmodifiedSince : Nat

/-- A field of type `Option<JsonValue>`: missing and `null` are one. -/
def optionalValue : Option Json → Option Json
  | none | some .null => none
  | some v => some v

/-- `deny_unknown_fields`. -/
def onlyFields (fields : List String) (members : List (String × Json)) : Bool :=
  members.all fun member => member.1 ∈ fields

section

-- `parseUuid` and `parseTime` stand for the text forms of ids and of times.
variable (parseUuid parseTime : String → Option Nat)

/-- A body is an object, or the array of all its fields in their order. -/
def WorkspacePluginCreate.ofJson : Json → Option WorkspacePluginCreate
  | .object members =>
    if onlyFields ["workspace_id", "plugin_id", "config"] members then do
      let workspaceId ← ((Json.member? members "workspace_id").bind Json.asStr).bind parseUuid
      let pluginId ← ((Json.member? members "plugin_id").bind Json.asStr).bind parseUuid
      return ⟨workspaceId, pluginId, optionalValue (Json.member? members "config")⟩
    else none
  | .array [workspaceId, pluginId, config] => do
    let workspaceId ← workspaceId.asStr.bind parseUuid
    let pluginId ← pluginId.asStr.bind parseUuid
    return ⟨workspaceId, pluginId, optionalValue (some config)⟩
  | _ => none

def WorkspacePluginUpdate.ofJson : Json → Option WorkspacePluginUpdate
  | .object members =>
    if onlyFields ["config", "if_unmodified_since"] members then do
      let since ← ((Json.member? members "if_unmodified_since").bind Json.asStr).bind parseTime
      return ⟨optionalValue (Json.member? members "config"), since⟩
    else none
  | .array [config, since] => do
    let since ← since.asStr.bind parseTime
    return ⟨optionalValue (some config), since⟩
  | _ => none

/-! ### Handlers -/

/-- A body or a path parameter that does not parse, or a refusal. -/
inductive WriteRefusal where
  | badRequest
  | refused (err : ApiError)
  deriving DecidableEq

def parsed {α : Type} (value : Option α) : Except WriteRefusal α :=
  match value with
  | some value => .ok value
  | none => .error .badRequest

variable (now : Nat) (caller : Caller) (db : Tables) (gate : Option String)

/-- `create_workspace_plugin`. -/
def postWorkspacePlugin (tenantName : String) (rawBody : Json) : Except WriteRefusal Tables := do
  (checkTenantConsistency caller tenantName).mapError .refused
  let body ← parsed (WorkspacePluginCreate.ofJson parseUuid rawBody)
  (createWorkspacePlugin now caller db tenantName body.workspaceId body.pluginId
    body.config).mapError .refused

/-- `update_workspace_plugin`. -/
def putWorkspacePlugin (tenantName workspaceId pluginId : String) (rawBody : Json) :
    Except WriteRefusal Tables := do
  (checkTenantConsistency caller tenantName).mapError .refused
  let body ← parsed (WorkspacePluginUpdate.ofJson parseTime rawBody)
  let workspaceId ← parsed (parseUuid workspaceId)
  let pluginId ← parsed (parseUuid pluginId)
  (updateWorkspacePlugin now caller db gate tenantName workspaceId pluginId body.config
    body.ifUnmodifiedSince).mapError .refused

end

/-- A create with this config. -/
def createBody (workspaceId pluginId : String) (config : Json) : Json :=
  .object [("config", config), ("plugin_id", .string pluginId),
    ("workspace_id", .string workspaceId)]

/-- An update with this config. -/
def updateBody (since : String) (config : Json) : Json :=
  .object [("config", config), ("if_unmodified_since", .string since)]

/-- An update without a config field. -/
def updateBodyWithout (since : String) : Json := .object [("if_unmodified_since", .string since)]

/-! ### The property -/

/-- The config of a binding's row. -/
def configOf (db : Tables) (workspaceId pluginId : Nat) : Option (Option Json) :=
  (db.bindings.find? fun b => b.workspaceId = workspaceId ∧ b.pluginId = pluginId).map (·.config)

section

variable (double : UInt64 → List Char) (context : String)

/-- A write accepts the value exactly when bootstrap accepts the same mapping, and
    both store the same. -/
def Agrees (write : Json → Except WriteRefusal Tables) (workspaceId pluginId : Nat) (v : Json) :
    Prop :=
  ((∃ db', write v = .ok db') ↔
    ∃ config, validateWorkspacePluginConfig double context (some (.ofJson v)) = .ok config) ∧
  ∀ db' config, write v = .ok db' →
    validateWorkspacePluginConfig double context (some (.ofJson v)) = .ok config →
    configOf db' workspaceId pluginId = some config

/-- Of the objects with a member, the column holds those that fit an environment
    variable, and no others. -/
def Agreeable (v : Json) : Prop :=
  ∀ member members, v = .object (member :: members) →
    (storableJson v = true ↔ (v.bytes double).length ≤ maxEnvValueBytes)

end

/-! ### Writers of one check -/

/-- A write stores what `bindingConfig` makes of its value, where the column can
    hold that. -/
def Stores (write : Json → Except WriteRefusal Tables) (workspaceId pluginId : Nat) : Prop :=
  ∀ v, (∀ err, bindingConfig (optionalValue (some v)) = .error err → ∀ db', write v ≠ .ok db') ∧
    ∀ config, bindingConfig (optionalValue (some v)) = .ok config →
      ((∃ db', write v = .ok db') ↔ config.all storableJson = true) ∧
      ∀ db', write v = .ok db' → configOf db' workspaceId pluginId = some config

variable {double : UInt64 → List Char} {context : String} {v : Json}
  {write : Json → Except WriteRefusal Tables} {workspaceId pluginId : Nat}

/-- Bootstrap's check of a mapping with a member. -/
theorem validate_object (double : UInt64 → List Char) (context : String) {member : String × Json} {members : List (String × Json)}
    (hordered : (Json.object (member :: members)).isOrdered = true) :
    validateWorkspacePluginConfig double context (some (.ofJson (.object (member :: members)))) =
      if maxEnvValueBytes < ((Json.object (member :: members)).bytes double).length then
        bindingErr context ("invalid 'config': serialized JSON exceeds maximum size of " ++
          toString maxEnvValueBytes ++ " bytes")
      else .ok (some (.object (member :: members))) := by
  have hnull : ¬ (Yaml.ofJson (.object (member :: members))).isNull = true :=
    fun h => Json.noConfusion (Yaml.isNull_ofJson.mp h)
  rw [validateWorkspacePluginConfig, if_neg hnull, Yaml.toJson_ofJson hordered]

/-- A value that is no object is refused by both. -/
theorem agrees_of_refused (hwrite : ∀ db', write v ≠ .ok db')
    (hcheck : ∀ config, validateWorkspacePluginConfig double context (some (.ofJson v)) ≠
      .ok config) : Agrees double context write workspaceId pluginId v := by
  refine ⟨⟨fun h => ?_, fun h => ?_⟩, fun db' config h => absurd h (hwrite db')⟩
  · obtain ⟨db', h⟩ := h
    exact absurd h (hwrite db')
  · obtain ⟨config, h⟩ := h
    exact absurd h (hcheck config)

/-- A value of which both make the config `config`, if the column holds it. -/
theorem agrees_of_accepted {config : Option Json} (hstores : Stores write workspaceId pluginId)
    (hwrite : bindingConfig (optionalValue (some v)) = .ok config)
    (hcheck : validateWorkspacePluginConfig double context (some (.ofJson v)) = .ok config) :
    Agrees double context write workspaceId pluginId v ↔ config.all storableJson = true := by
  obtain ⟨hstored, hconfig⟩ := (hstores v).2 config hwrite
  rw [← hstored]
  refine ⟨fun h => h.1.mpr ⟨config, hcheck⟩, fun h => ⟨⟨fun _ => ⟨config, hcheck⟩, fun _ => h⟩, ?_⟩⟩
  intro db' config' hwrite' hcheck'
  rw [hcheck] at hcheck'
  cases hcheck'
  exact hconfig db' hwrite'

/-- A value that bootstrap refuses and the write does not check. -/
theorem agrees_of_unchecked {config : Option Json} (hstores : Stores write workspaceId pluginId)
    (hwrite : bindingConfig (optionalValue (some v)) = .ok config)
    (hcheck : ∀ config, validateWorkspacePluginConfig double context (some (.ofJson v)) ≠
      .ok config) :
    Agrees double context write workspaceId pluginId v ↔ ¬ config.all storableJson = true := by
  obtain ⟨hstored, -⟩ := (hstores v).2 config hwrite
  rw [← hstored]
  constructor
  · intro h hwrites
    obtain ⟨config', hcheck'⟩ := h.1.mp hwrites
    exact hcheck config' hcheck'
  · intro h
    exact agrees_of_refused (fun db' hwrites => h ⟨db', hwrites⟩) hcheck

/-- **One check and the other** agree on exactly these values. -/
theorem agrees_iff (hordered : v.isOrdered = true) (hstores : Stores write workspaceId pluginId) :
    Agrees double context write workspaceId pluginId v ↔ Agreeable double v := by
  have hjson : (Yaml.ofJson v).toJson double = some v := Yaml.toJson_ofJson hordered
  cases v with
  | null =>
    refine iff_of_true ((agrees_of_accepted hstores rfl rfl).mpr rfl) fun _ _ h => by cases h
  | bool b =>
    refine iff_of_true (agrees_of_refused ((hstores _).1 _ rfl) fun config h => ?_)
      fun _ _ h => by cases h
    cases h
  | number n =>
    refine iff_of_true (agrees_of_refused ((hstores _).1 _ rfl) fun config h => ?_)
      fun _ _ h => by cases h
    rw [validateWorkspacePluginConfig, if_neg (by simp [Yaml.isNull_ofJson]), hjson] at h
    cases h
  | string s =>
    refine iff_of_true (agrees_of_refused ((hstores _).1 _ rfl) fun config h => ?_)
      fun _ _ h => by cases h
    cases h
  | array items =>
    refine iff_of_true (agrees_of_refused ((hstores _).1 _ rfl) fun config h => ?_)
      fun _ _ h => by cases h
    rw [validateWorkspacePluginConfig, if_neg (by simp [Yaml.isNull_ofJson]), hjson] at h
    cases h
  | object members =>
    cases members with
    | nil =>
      refine iff_of_true ((agrees_of_accepted hstores rfl rfl).mpr rfl) fun _ _ h => by cases h
    | cons member members =>
      have hagreeable : Agreeable double (.object (member :: members)) ↔
          (storableJson (.object (member :: members)) = true ↔
            ((Json.object (member :: members)).bytes double).length ≤ maxEnvValueBytes) :=
        ⟨fun h => h member members rfl, fun h _ _ _ => h⟩
      have hcheck := validate_object double context hordered
      rw [hagreeable]
      by_cases hsize : ((Json.object (member :: members)).bytes double).length ≤ maxEnvValueBytes
      · rw [if_neg (Nat.not_lt.mpr hsize)] at hcheck
        rw [agrees_of_accepted hstores rfl hcheck, iff_true_right hsize]
        rfl
      · rw [if_pos (Nat.not_le.mp hsize)] at hcheck
        have hrefused : ∀ config, validateWorkspacePluginConfig double context
            (some (.ofJson (.object (member :: members)))) ≠ .ok config := by
          intro config h
          rw [hcheck] at h
          cases h
        rw [agrees_of_unchecked hstores rfl hrefused, iff_false_right hsize]
        rfl

/-! ### The handlers -/

variable {parseUuid parseTime : String → Option Nat} {now : Nat} {caller : Caller} {db db' : Tables}
  {gate : Option String} {tenantName workspace plugin since : String}

theorem ofJson_createBody (config : Json) :
    WorkspacePluginCreate.ofJson parseUuid (createBody workspace plugin config) = do
      let w ← parseUuid workspace
      let p ← parseUuid plugin
      return ⟨w, p, optionalValue (some config)⟩ := by
  simp [WorkspacePluginCreate.ofJson, createBody, onlyFields, Json.member?, List.lookup_cons, Json.asStr]

theorem ofJson_updateBody (config : Json) :
    WorkspacePluginUpdate.ofJson parseTime (updateBody since config) = do
      let t ← parseTime since
      return ⟨optionalValue (some config), t⟩ := by
  simp [WorkspacePluginUpdate.ofJson, updateBody, onlyFields, Json.member?, List.lookup_cons, Json.asStr]

/-- Without a config field the body reads as with `null`. -/
theorem ofJson_updateBodyWithout :
    WorkspacePluginUpdate.ofJson parseTime (updateBodyWithout since) =
      WorkspacePluginUpdate.ofJson parseTime (updateBody since .null) := by
  rw [ofJson_updateBody]
  simp [WorkspacePluginUpdate.ofJson, updateBodyWithout, onlyFields, Json.member?, List.lookup_cons,
    Json.asStr, optionalValue]

theorem parsed_eq_ok {α : Type} {value : Option α} {a : α} :
    parsed value = .ok a ↔ value = some a := by
  cases value <;> simp [parsed]

/-- What a create has passed when it is answered. -/
theorem post_eq_ok : postWorkspacePlugin parseUuid now caller db tenantName
      (createBody workspace plugin v) = .ok db' ↔
    ∃ w p triple config, checkTenantConsistency caller tenantName = .ok () ∧
      parseUuid workspace = some w ∧ parseUuid plugin = some p ∧
      resolveTriple db w p = .ok triple ∧
      db.bindings.any (fun b => b.workspaceId = w ∧ b.pluginId = p) = false ∧
      bindingConfig (optionalValue (some v)) = .ok config ∧
      db.insertBinding ⟨w, p, config, now⟩ = some db' := by
  constructor
  · intro h
    obtain ⟨_, htenant, h⟩ := bind_eq_ok.mp h
    obtain ⟨body, hbody, h⟩ := bind_eq_ok.mp h
    rw [parsed_eq_ok, ofJson_createBody] at hbody
    obtain ⟨w, hw, hbody⟩ := Option.bind_eq_some_iff.mp hbody
    obtain ⟨p, hp, hbody⟩ := Option.bind_eq_some_iff.mp hbody
    cases hbody
    rw [mapError_eq_ok] at h htenant
    obtain ⟨_, -, h⟩ := bind_eq_ok.mp h
    obtain ⟨triple, htriple, h⟩ := bind_eq_ok.mp h
    split at h
    next => cases h
    next hfree =>
      obtain ⟨config, hconfig, h⟩ := bind_eq_ok.mp h
      exact ⟨w, p, triple, config, htenant, hw, hp, htriple, Bool.eq_false_iff.mpr hfree, hconfig,
        executed_eq_ok.mp h⟩
  · rintro ⟨w, p, triple, config, htenant, hw, hp, htriple, hfree, hconfig, hinsert⟩
    refine bind_eq_ok.mpr ⟨(), mapError_eq_ok.mpr htenant, ?_⟩
    refine bind_eq_ok.mpr ⟨⟨w, p, optionalValue (some v)⟩, ?_, mapError_eq_ok.mpr ?_⟩
    · rw [parsed_eq_ok, ofJson_createBody, hw, hp]
      rfl
    · refine bind_eq_ok.mpr ⟨(), htenant, bind_eq_ok.mpr ⟨triple, htriple, ?_⟩⟩
      rw [if_neg (Bool.eq_false_iff.mp hfree)]
      exact bind_eq_ok.mpr ⟨config, hconfig, executed_eq_ok.mpr hinsert⟩

/-- What an update has passed when it is answered. -/
theorem put_eq_ok : putWorkspacePlugin parseUuid parseTime now caller db gate tenantName workspace
      plugin (updateBody since v) = .ok db' ↔
    ∃ w p t triple live config, checkTenantConsistency caller tenantName = .ok () ∧
      parseTime since = some t ∧ parseUuid workspace = some w ∧ parseUuid plugin = some p ∧
      db.bindings.find? (fun b => b.workspaceId = w ∧ b.pluginId = p) = some live ∧
      checkLock t live.updatedAt "workspace_plugin" = .ok () ∧
      bindingConfig (optionalValue (some v)) = .ok config ∧
      resolveTriple db w p = .ok triple ∧ gate = none ∧
      db.updateBinding { live with config, updatedAt := now } = some db' := by
  constructor
  · intro h
    obtain ⟨_, htenant, h⟩ := bind_eq_ok.mp h
    obtain ⟨body, hbody, h⟩ := bind_eq_ok.mp h
    rw [parsed_eq_ok, ofJson_updateBody] at hbody
    obtain ⟨t, ht, hbody⟩ := Option.bind_eq_some_iff.mp hbody
    cases hbody
    obtain ⟨w, hw, h⟩ := bind_eq_ok.mp h
    obtain ⟨p, hp, h⟩ := bind_eq_ok.mp h
    rw [mapError_eq_ok] at h htenant
    rw [parsed_eq_ok] at hw hp
    obtain ⟨_, -, h⟩ := bind_eq_ok.mp h
    obtain ⟨live, hlive, h⟩ := bind_eq_ok.mp h
    obtain ⟨_, hlock, h⟩ := bind_eq_ok.mp h
    obtain ⟨config, hconfig, h⟩ := bind_eq_ok.mp h
    obtain ⟨triple, htriple, h⟩ := bind_eq_ok.mp h
    cases gate with
    | some msg => cases h
    | none =>
      exact ⟨w, p, t, triple, live, config, htenant, ht, hw, hp, orNotFound_eq_ok.mp hlive, hlock,
        hconfig, htriple, rfl, executed_eq_ok.mp h⟩
  · rintro ⟨w, p, t, triple, live, config, htenant, ht, hw, hp, hlive, hlock, hconfig, htriple, rfl,
      hupdate⟩
    refine bind_eq_ok.mpr ⟨(), mapError_eq_ok.mpr htenant, ?_⟩
    refine bind_eq_ok.mpr ⟨⟨optionalValue (some v), t⟩, ?_, ?_⟩
    · rw [parsed_eq_ok, ofJson_updateBody, ht]
      rfl
    · refine bind_eq_ok.mpr ⟨w, parsed_eq_ok.mpr hw, bind_eq_ok.mpr ⟨p, parsed_eq_ok.mpr hp, ?_⟩⟩
      refine mapError_eq_ok.mpr (bind_eq_ok.mpr ⟨(), htenant, ?_⟩)
      refine bind_eq_ok.mpr ⟨live, orNotFound_eq_ok.mpr hlive, bind_eq_ok.mpr ⟨(), hlock, ?_⟩⟩
      refine bind_eq_ok.mpr ⟨config, hconfig, bind_eq_ok.mpr ⟨triple, htriple, ?_⟩⟩
      exact executed_eq_ok.mpr hupdate

theorem configOf_insert {row : BindingRow} (hinsert : db.insertBinding row = some db')
    (hfree : db.bindings.any (fun b =>
      b.workspaceId = row.workspaceId ∧ b.pluginId = row.pluginId) = false) :
    configOf db' row.workspaceId row.pluginId = some row.config := by
  have hnone : db.bindings.find? (fun b =>
      b.workspaceId = row.workspaceId ∧ b.pluginId = row.pluginId) = none := by
    rw [List.find?_eq_none]
    intro b hb
    exact List.any_eq_false.mp hfree b hb
  rw [Tables.insertBinding_eq_some hinsert, configOf, List.find?_append, hnone]
  simp

theorem configOf_update {live : BindingRow} {config : Option Json}
    (hlive : db.bindings.find? (fun b => b.workspaceId = workspaceId ∧ b.pluginId = pluginId) =
      some live)
    (hupdate : db.updateBinding { live with config, updatedAt := now } = some db') :
    configOf db' workspaceId pluginId = some config := by
  have hkey : live.workspaceId = workspaceId ∧ live.pluginId = pluginId := by
    simpa using List.find?_some hlive
  obtain ⟨rfl, rfl⟩ := hkey
  rw [Tables.updateBinding_eq_some hupdate, configOf, List.find?_map]
  have hsame : ((fun b : BindingRow => decide (b.workspaceId = live.workspaceId ∧
        b.pluginId = live.pluginId)) ∘ fun b =>
      if b.workspaceId = live.workspaceId ∧ b.pluginId = live.pluginId then
        { live with config, updatedAt := now } else b) =
      fun b => decide (b.workspaceId = live.workspaceId ∧ b.pluginId = live.pluginId) := by
    funext b
    rw [Function.comp_apply]
    by_cases h : b.workspaceId = live.workspaceId ∧ b.pluginId = live.pluginId
    · rw [if_pos h, decide_eq_true h]
      exact decide_eq_true ⟨rfl, rfl⟩
    · rw [if_neg h]
  rw [hsame, hlive]
  simp

/-- A new row goes in when the column holds its config. -/
theorem exists_insertBinding (row : BindingRow) (hfree : db.bindings.any (fun b =>
      b.workspaceId = row.workspaceId ∧ b.pluginId = row.pluginId) = false) :
    (∃ db', db.insertBinding row = some db') ↔ row.config.all storableJson = true := by
  simp only [Tables.insertBinding, hfree, Bool.false_eq_true, or_false]
  cases row.config.all storableJson with
  | false => simp
  | true => simp

theorem exists_updateBinding (row : BindingRow) :
    (∃ db', db.updateBinding row = some db') ↔ row.config.all storableJson = true := by
  simp only [Tables.updateBinding]
  cases row.config.all storableJson with
  | false => simp
  | true => simp

/-- `POST` stores what its check makes of the config. -/
theorem stores_post (hw : parseUuid workspace = some workspaceId)
    (hp : parseUuid plugin = some pluginId) {db₀ : Tables}
    (hnull : postWorkspacePlugin parseUuid now caller db tenantName
      (createBody workspace plugin .null) = .ok db₀) :
    Stores (fun v => postWorkspacePlugin parseUuid now caller db tenantName
      (createBody workspace plugin v)) workspaceId pluginId := by
  obtain ⟨w, p, triple, _, htenant, hw', hp', htriple, hfree, -, -⟩ := post_eq_ok.mp hnull
  rw [hw] at hw'
  rw [hp] at hp'
  cases hw'
  cases hp'
  intro v
  constructor
  · intro err hrefused db' hpost
    obtain ⟨_, _, _, config, -, -, -, -, -, hconfig, -⟩ := post_eq_ok.mp hpost
    rw [hrefused] at hconfig
    cases hconfig
  · intro config hconfig
    constructor
    · constructor
      · rintro ⟨db', hpost⟩
        obtain ⟨_, _, _, config', -, -, -, -, hfree', hconfig', hinsert⟩ := post_eq_ok.mp hpost
        rw [hconfig] at hconfig'
        cases hconfig'
        exact (exists_insertBinding _ hfree').mp ⟨db', hinsert⟩
      · intro hstorable
        obtain ⟨db', hinsert⟩ := (exists_insertBinding
          ⟨workspaceId, pluginId, config, now⟩ hfree).mpr hstorable
        exact ⟨db', post_eq_ok.mpr ⟨workspaceId, pluginId, triple, config, htenant, hw, hp, htriple,
          hfree, hconfig, hinsert⟩⟩
    · intro db' hpost
      obtain ⟨w, p, _, config', -, hw', hp', -, hfree, hconfig', hinsert⟩ := post_eq_ok.mp hpost
      rw [hw] at hw'
      rw [hp] at hp'
      rw [hconfig] at hconfig'
      cases hw'
      cases hp'
      cases hconfig'
      exact configOf_insert hinsert hfree

/-- `PUT` stores what its check makes of the config. -/
theorem stores_put (hw : parseUuid workspace = some workspaceId)
    (hp : parseUuid plugin = some pluginId) {db₀ : Tables}
    (hnull : putWorkspacePlugin parseUuid parseTime now caller db gate tenantName workspace plugin
      (updateBody since .null) = .ok db₀) :
    Stores (fun v => putWorkspacePlugin parseUuid parseTime now caller db gate tenantName workspace
      plugin (updateBody since v)) workspaceId pluginId := by
  obtain ⟨w, p, t, triple, live, _, htenant, ht, hw', hp', hlive, hlock, -, htriple, hgate, -⟩ :=
    put_eq_ok.mp hnull
  rw [hw] at hw'
  rw [hp] at hp'
  cases hw'
  cases hp'
  intro v
  constructor
  · intro err hrefused db' hput
    obtain ⟨_, _, _, _, _, config, -, -, -, -, -, -, hconfig, -, -, -⟩ := put_eq_ok.mp hput
    rw [hrefused] at hconfig
    cases hconfig
  · intro config hconfig
    constructor
    · constructor
      · rintro ⟨db', hput⟩
        obtain ⟨_, _, _, _, _, config', -, -, -, -, -, -, hconfig', -, -, hupdate⟩ :=
          put_eq_ok.mp hput
        rw [hconfig] at hconfig'
        cases hconfig'
        exact (exists_updateBinding _).mp ⟨db', hupdate⟩
      · intro hstorable
        obtain ⟨db', hupdate⟩ := (exists_updateBinding
          { live with config, updatedAt := now }).mpr hstorable
        exact ⟨db', put_eq_ok.mpr ⟨workspaceId, pluginId, t, triple, live, config, htenant, ht, hw,
          hp, hlive, hlock, hconfig, htriple, hgate, hupdate⟩⟩
    · intro db' hput
      obtain ⟨w, p, _, _, live', config', -, -, hw', hp', hlive', -, hconfig', -, -, hupdate⟩ :=
        put_eq_ok.mp hput
      rw [hw] at hw'
      rw [hp] at hp'
      rw [hconfig] at hconfig'
      cases hw'
      cases hp'
      cases hconfig'
      exact configOf_update hlive' hupdate

/-- **The two writers of a binding**: `POST` and `PUT` agree with bootstrap on a value
    exactly when it is agreeable, `null` clears the stored config, and so does a body
    without a config, which therefore changes nothing only where nothing is stored. -/
theorem binding_writers_agree (hordered : v.isOrdered = true)
    (hw : parseUuid workspace = some workspaceId) (hp : parseUuid plugin = some pluginId) :
    (∀ db₀, postWorkspacePlugin parseUuid now caller db tenantName
        (createBody workspace plugin .null) = .ok db₀ →
      (Agrees double context (fun v => postWorkspacePlugin parseUuid now caller db tenantName
        (createBody workspace plugin v)) workspaceId pluginId v ↔ Agreeable double v)) ∧
    (∀ db₀, putWorkspacePlugin parseUuid parseTime now caller db gate tenantName workspace plugin
        (updateBody since .null) = .ok db₀ →
      (Agrees double context (fun v => putWorkspacePlugin parseUuid parseTime now caller db gate
        tenantName workspace plugin (updateBody since v)) workspaceId pluginId v ↔
        Agreeable double v) ∧
      configOf db₀ workspaceId pluginId = some none) ∧
    ∀ db', putWorkspacePlugin parseUuid parseTime now caller db gate tenantName workspace plugin
        (updateBodyWithout since) = .ok db' →
      (configOf db' workspaceId pluginId = configOf db workspaceId pluginId ↔
        configOf db workspaceId pluginId = some none) := by
  refine ⟨fun db₀ hnull => agrees_iff hordered (stores_post hw hp hnull), fun db₀ hnull => ?_,
    fun db' hput => ?_⟩
  · have hstores := stores_put hw hp hnull
    exact ⟨agrees_iff hordered hstores, ((hstores .null).2 none rfl).2 db₀ hnull⟩
  · have hnull : putWorkspacePlugin parseUuid parseTime now caller db gate tenantName workspace
        plugin (updateBody since .null) = .ok db' := by
      rw [← hput, putWorkspacePlugin, putWorkspacePlugin, ofJson_updateBodyWithout]
    have hcleared : configOf db' workspaceId pluginId = some none :=
      ((stores_put hw hp hnull .null).2 none rfl).2 db' hnull
    rw [hcleared, eq_comm]

/-! ### A binding that loses its config -/

/-- Ids and times that are decimal numbers. -/
def sampleId (text : String) : Option Nat := parseUnsigned (2 ^ 64) text

def sampleConfig : Json := .object [("region", .string "eu")]

/-- One tenant with one binding that has a config. -/
def sampleTables : Tables where
  tenants := [⟨1, "acme", 0⟩]
  workspaces := [⟨2, 1, "main", 0⟩]
  plugins := [⟨3, ⟨"echo", "echo:1", 8000, "/", "none", .array [], none, .null⟩, 0⟩]
  bindings := [⟨2, 3, some sampleConfig, 7⟩]

def sampleCaller : Caller := ⟨false, some "acme"⟩

/-- A change of the config is accepted and agrees with bootstrap. -/
theorem binding_writers_agree_acme :
    Agrees (fun _ => []) "" (fun v => putWorkspacePlugin sampleId sampleId 9 sampleCaller
      sampleTables none "acme" "2" "3" (updateBody "7" v)) 2 3 sampleConfig := by
  have hnull : (putWorkspacePlugin sampleId sampleId 9 sampleCaller sampleTables none "acme" "2" "3"
      (updateBody "7" .null)).toOption.isSome = true := by decide +kernel
  obtain ⟨db', hnull⟩ := Option.isSome_iff_exists.mp hnull
  have hordered : sampleConfig.isOrdered = true := by decide +kernel
  have hw : sampleId "2" = some 2 := by decide +kernel
  have hp : sampleId "3" = some 3 := by decide +kernel
  refine ((binding_writers_agree hordered hw hp).2.1 db' (toOption_eq_some.mp hnull)).1.mpr ?_
  intro member members h
  cases h
  exact iff_of_true rfl (by decide +kernel)

/-- An update that says nothing of the config deletes it. -/
theorem update_without_config_clears : ¬ ∀ db', putWorkspacePlugin sampleId sampleId 9 sampleCaller
      sampleTables none "acme" "2" "3" (updateBodyWithout "7") = .ok db' →
    configOf db' 2 3 = configOf sampleTables 2 3 := by
  intro h
  have hput : ((putWorkspacePlugin sampleId sampleId 9 sampleCaller sampleTables none "acme" "2" "3"
      (updateBodyWithout "7")).toOption.any fun db' => configOf db' 2 3 = some none) = true := by
    decide +kernel
  obtain ⟨db', hput, hcleared⟩ := (Option.any_eq_true _ _).mp hput
  have hkept := h db' (toOption_eq_some.mp hput)
  rw [of_decide_eq_true hcleared] at hkept
  exact absurd hkept (by decide)

end Botwork.Api
