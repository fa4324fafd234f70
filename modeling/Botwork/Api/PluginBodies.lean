import Botwork.Api.BindingBodies
import Botwork.ApiCore.Normalised
import Botwork.Foundations.YamlText

/-!
# Plugin bodies

`POST` and `PUT` of a plugin turn the nested fields of their JSON body into YAML, by
way of text, before the validator sees them.  `boundary_exact` says for which bodies
nothing is lost on that way.

## Main definitions

- `PluginBody.ofJson`, `PluginUpdateBody.ofJson` — the bodies
- `jsonToYaml`, `jsonToRawPlugin` — the boundary
- `postPlugin`, `putPlugin` — the handlers with their bodies
- `PluginBody.Carries` — the bodies of which nothing is lost
-/

namespace Botwork.Api

open Botwork.Foundations Botwork.ApiCore Botwork.Db

-- ════════════════════════════════════════════════════════════════════════
-- Bodies
-- ════════════════════════════════════════════════════════════════════════

structure PluginBody where
  name : String
  image : Option String
  port : Option Nat
  path : Option String
  upstreamAuth : Option String
  env : Option Json
  resources : Option Json
  egress : Option Json

structure PluginUpdateBody extends PluginBody where
  ifUnmodifiedSince : Nat

/-- A field of type `Option<T>`: missing and `null` are one. -/
def optionalField {α : Type} (read : Json → Option α) (value : Option Json) : Option (Option α) :=
  match optionalValue value with
  | none => some none
  | some v => (read v).map some

def pluginFields : List String :=
  ["name", "image", "port", "path", "upstream_auth", "env", "resources", "egress"]

/-- The fields of a body, as they are found by name or by place. -/
def PluginBody.ofFields (field : String → Option Json) : Option PluginBody := do
  let name ← (field "name").bind Json.asStr
  let image ← optionalField Json.asStr (field "image")
  let port ← optionalField Json.asU64 (field "port")
  let path ← optionalField Json.asStr (field "path")
  let upstreamAuth ← optionalField Json.asStr (field "upstream_auth")
  return ⟨name, image, port, path, upstreamAuth, optionalValue (field "env"),
    optionalValue (field "resources"), optionalValue (field "egress")⟩

def PluginBody.ofJson : Json → Option PluginBody
  | .object members =>
    if onlyFields pluginFields members then PluginBody.ofFields (Json.member? members)
    else none
  | .array items =>
    if items.length = pluginFields.length then
      PluginBody.ofFields (Json.member? (pluginFields.zip items))
    else none
  | _ => none

def PluginUpdateBody.ofJson (parseTime : String → Option Nat) : Json → Option PluginUpdateBody
  | .object members =>
    if onlyFields (pluginFields ++ ["if_unmodified_since"]) members then do
      let body ← PluginBody.ofFields (Json.member? members)
      let since ← ((Json.member? members "if_unmodified_since").bind Json.asStr).bind parseTime
      return ⟨body, since⟩
    else none
  | .array items =>
    if items.length = pluginFields.length + 1 then do
      let body ← PluginBody.ofFields (Json.member? (pluginFields.zip items))
      let since ← (items.getLast?.bind Json.asStr).bind parseTime
      return ⟨body, since⟩
    else none
  | _ => none

-- ════════════════════════════════════════════════════════════════════════
-- Handlers
-- ════════════════════════════════════════════════════════════════════════

section

-- `double` and `readDouble` stand for the decimal text of a double, written and read.
variable (double : UInt64 → List Char) (readDouble : List Char → Option UInt64)

def jsonToYaml (v : Json) : Except WriteRefusal Yaml :=
  parsed (Yaml.fromStr readDouble (v.text double))

/-- `Option::map(json_to_yaml).transpose()`. -/
def optionalYaml : Option Json → Except WriteRefusal (Option Yaml)
  | none => .ok none
  | some v => (jsonToYaml double readDouble v).map some

def jsonToRawPlugin (body : PluginBody) : Except WriteRefusal RawPluginEntry := do
  let env ← optionalYaml double readDouble body.env
  let resources ← optionalYaml double readDouble body.resources
  let egress ← optionalYaml double readDouble body.egress
  return ⟨body.name, body.image, body.port, body.path, body.upstreamAuth, env, resources, egress,
    none⟩

variable (uuid : Tables → Nat) (parseUuid parseTime : String → Option Nat) (now : Nat)
  (caller : Caller) (db : Tables)

/-- `create_plugin`. -/
def postPlugin (rawBody : Json) : Except WriteRefusal Tables := do
  (requireAdmin caller).mapError .refused
  let body ← parsed (PluginBody.ofJson rawBody)
  let raw ← jsonToRawPlugin double readDouble body
  (createPlugin uuid now caller db double raw).mapError .refused

/-- `update_plugin`, once its body is parsed. -/
def putPluginBody (id : String) (body : PluginUpdateBody) : Except WriteRefusal Tables := do
  let id ← parsed (parseUuid id)
  let raw ← jsonToRawPlugin double readDouble body.toPluginBody
  (updatePlugin now caller db double id raw body.ifUnmodifiedSince).mapError .refused

/-- `update_plugin`. -/
def putPlugin (id : String) (rawBody : Json) : Except WriteRefusal Tables := do
  (requireAdmin caller).mapError .refused
  let body ← parsed (PluginUpdateBody.ofJson parseTime rawBody)
  putPluginBody double readDouble parseUuid now caller db id body

end

-- ════════════════════════════════════════════════════════════════════════
-- What the boundary should do
-- ════════════════════════════════════════════════════════════════════════

namespace PluginBody

def nested (body : PluginBody) : List Json :=
  body.env.toList ++ body.resources.toList ++ body.egress.toList

/-- The nested fields are values that a JSON parser builds. -/
def Parsed (body : PluginBody) : Prop := ∀ v ∈ body.nested, v.isOrdered = true

/-- The entry that holds the values as they were sent. -/
def verbatim (body : PluginBody) : RawPluginEntry :=
  ⟨body.name, body.image, body.port, body.path, body.upstreamAuth, body.env.map Yaml.ofJson,
    body.resources.map Yaml.ofJson, body.egress.map Yaml.ofJson, none⟩

/-- What is stored of the nested fields is what was sent: the names and values of the
    environment in their order, and the egress rules. -/
def Sent (body : PluginBody) (spec : ValidatedPlugin) : Prop :=
  (∀ members, body.env = some (.object members) →
    ∃ pairs : List (String × String), spec.env = envJson pairs ∧
      members = pairs.map fun pair => (pair.1, .string pair.2)) ∧
  ∀ members, body.egress = some (.object members) → spec.egress = .object members

/-- The nested fields arrive as they were: nothing is refused that the validator would
    not refuse, and what it accepts is stored as it was sent. -/
def Exact (double : UInt64 → List Char) (readDouble : List Char → Option UInt64)
    (body : PluginBody) : Prop :=
  jsonToRawPlugin double readDouble body = .ok body.verbatim ∧
    ∀ raw spec, jsonToRawPlugin double readDouble body = .ok raw →
      validateOne double raw = .ok spec → body.Sent spec

/-- Every nested field has a printable text, strings that are kept, keys that are short
    and on one line, and no more nesting than a document may have. -/
def Carries (double : UInt64 → List Char) (body : PluginBody) : Prop :=
  ∀ v ∈ body.nested,
    (v.text double).all Yaml.isPrintable = true ∧ Yaml.carries v Yaml.depthLimit = true

end PluginBody

section

variable {double : UInt64 → List Char} {readDouble : List Char → Option UInt64}

theorem jsonToYaml_eq_iff (hdouble : Yaml.DoubleText double readDouble) {v : Json}
    (hv : v.isOrdered = true) :
    jsonToYaml double readDouble v = .ok (Yaml.ofJson v) ↔
      (v.text double).all Yaml.isPrintable = true ∧ Yaml.carries v Yaml.depthLimit = true := by
  rw [← Yaml.fromStr_text_eq_iff hdouble hv, jsonToYaml]
  cases Yaml.fromStr readDouble (v.text double) with
  | none => exact iff_of_false (fun h => by cases h) (fun h => by cases h)
  | some y => simp [parsed]

theorem optionalYaml_eq_iff (hdouble : Yaml.DoubleText double readDouble) {value : Option Json}
    (hv : ∀ v ∈ value, v.isOrdered = true) :
    optionalYaml double readDouble value = .ok (value.map Yaml.ofJson) ↔
      ∀ v ∈ value, (v.text double).all Yaml.isPrintable = true ∧
        Yaml.carries v Yaml.depthLimit = true := by
  cases value with
  | none => exact iff_of_true rfl nofun
  | some v =>
    rw [optionalYaml, Option.map_some, map_eq_ok]
    constructor
    · rintro ⟨y, hy, heq⟩ w hw
      cases heq
      cases hw
      exact (jsonToYaml_eq_iff hdouble (hv v rfl)).mp hy
    · intro h
      exact ⟨_, (jsonToYaml_eq_iff hdouble (hv v rfl)).mpr (h v rfl), rfl⟩

theorem jsonToRawPlugin_eq_ok {body : PluginBody} {raw : RawPluginEntry} :
    jsonToRawPlugin double readDouble body = .ok raw ↔
      ∃ env resources egress, optionalYaml double readDouble body.env = .ok env ∧
        optionalYaml double readDouble body.resources = .ok resources ∧
        optionalYaml double readDouble body.egress = .ok egress ∧
        raw = ⟨body.name, body.image, body.port, body.path, body.upstreamAuth, env, resources,
          egress, none⟩ := by
  constructor
  · intro h
    obtain ⟨env, henv, h⟩ := bind_eq_ok.mp h
    obtain ⟨resources, hresources, h⟩ := bind_eq_ok.mp h
    obtain ⟨egress, hegress, h⟩ := bind_eq_ok.mp h
    cases h
    exact ⟨env, resources, egress, henv, hresources, hegress, rfl⟩
  · rintro ⟨env, resources, egress, henv, hresources, hegress, rfl⟩
    rw [jsonToRawPlugin, henv, hresources, hegress]
    rfl

/-- The entry is the one that was sent exactly if every field of it is. -/
theorem jsonToRawPlugin_verbatim_iff (hdouble : Yaml.DoubleText double readDouble)
    {body : PluginBody} (hbody : body.Parsed) :
    jsonToRawPlugin double readDouble body = .ok body.verbatim ↔ body.Carries double := by
  have henv : ∀ v ∈ body.env, v.isOrdered = true := fun v hv =>
    hbody v (by simp [PluginBody.nested, Option.mem_toList.mpr hv])
  have hresources : ∀ v ∈ body.resources, v.isOrdered = true := fun v hv =>
    hbody v (by simp [PluginBody.nested, Option.mem_toList.mpr hv])
  have hegress : ∀ v ∈ body.egress, v.isOrdered = true := fun v hv =>
    hbody v (by simp [PluginBody.nested, Option.mem_toList.mpr hv])
  have hcarries : body.Carries double ↔
      optionalYaml double readDouble body.env = .ok (body.env.map Yaml.ofJson) ∧
        optionalYaml double readDouble body.resources = .ok (body.resources.map Yaml.ofJson) ∧
        optionalYaml double readDouble body.egress = .ok (body.egress.map Yaml.ofJson) := by
    rw [optionalYaml_eq_iff hdouble henv, optionalYaml_eq_iff hdouble hresources,
      optionalYaml_eq_iff hdouble hegress]
    simp only [PluginBody.Carries, PluginBody.nested, List.mem_append, Option.mem_toList, or_imp,
      forall_and, and_assoc]
    tauto
  rw [hcarries, jsonToRawPlugin_eq_ok]
  constructor
  · rintro ⟨env, resources, egress, h₁, h₂, h₃, heq⟩
    cases heq
    exact ⟨h₁, h₂, h₃⟩
  · rintro ⟨h₁, h₂, h₃⟩
    exact ⟨_, _, _, h₁, h₂, h₃, rfl⟩

end

-- ════════════════════════════════════════════════════════════════════════
-- What is stored of a body that arrives as it was
-- ════════════════════════════════════════════════════════════════════════

section

variable {double : UInt64 → List Char} {readDouble : List Char → Option UInt64}
  {plugin : String}

theorem validateEnvEntry_ofJson {seen : List String} {key : String} {value : Json}
    {pair : String × String}
    (h : validateEnvEntry double plugin seen (.string key, Yaml.ofJson value) = .ok pair) :
    (key, value) = (pair.1, .string pair.2) := by
  cases value with
  | string s =>
    simp only [validateEnvEntry, Yaml.asStr, Yaml.untag, Yaml.ofJson] at h
    split_ifs at h
    all_goals first | (cases h; rfl) | cases h
  | _ =>
    simp only [validateEnvEntry, Yaml.asStr, Yaml.untag, Yaml.ofJson] at h
    cases h

theorem validateEnvEntries_ofMembers {seen : List String} {members : List (String × Json)}
    {pairs : List (String × String)}
    (h : validateEnvEntries double plugin seen (Yaml.ofMembers members) = .ok pairs) :
    members = pairs.map fun pair => (pair.1, .string pair.2) := by
  induction members generalizing seen pairs with
  | nil =>
    cases h
    rfl
  | cons m members ih =>
    obtain ⟨key, value⟩ := m
    rw [Yaml.ofMembers, validateEnvEntries] at h
    obtain ⟨pair, hpair, h⟩ := bind_eq_ok.mp h
    obtain ⟨rest, hrest, h⟩ := bind_eq_ok.mp h
    cases h
    rw [List.map_cons, ← ih hrest, validateEnvEntry_ofJson hpair]

theorem envJson_injective : Function.Injective envJson := fun pairs pairs' h =>
  List.map_injective_iff.mpr (fun pair pair' hpair => by
    cases pair
    cases pair'
    cases hpair
    rfl) (Json.array.inj h)

theorem validateEnv_object {members : List (String × Json)} {env : Json}
    (h : validateEnv double plugin (some (Yaml.ofJson (.object members))) = .ok env) :
    ∃ pairs : List (String × String), env = envJson pairs ∧
      members = pairs.map fun pair => (pair.1, .string pair.2) := by
  rw [validateEnv, if_neg (by intro h; cases h)] at h
  simp only [Yaml.ofJson, Yaml.asMapping, Yaml.untag] at h
  split_ifs at h
  · cases h
  · obtain ⟨pairs, hpairs, rfl⟩ := map_eq_ok.mp h
    exact ⟨pairs, rfl, validateEnvEntries_ofMembers hpairs⟩

theorem validateEgress_object {members : List (String × Json)} {egress : Json}
    (hordered : (Json.object members).isOrdered = true)
    (h : validateEgress double plugin (some (Yaml.ofJson (.object members))) = .ok egress) :
    egress = .object members := by
  rw [validateEgress, if_neg (by intro h; cases h)] at h
  simp only [Yaml.ofJson, Yaml.asStr, Yaml.asMapping, Yaml.untag, validateEgressMapping] at h
  split_ifs at h
  · cases h
  · split at h
    · cases h
    · split at h
      · cases h
      · split at h
        · cases h
        · obtain ⟨_, -, h⟩ := bind_eq_ok.mp h
          have hjson := validateEgressSize_eq_ok h
          rw [← Yaml.ofJson, Yaml.toJson_ofJson hordered] at hjson
          exact (Option.some.inj hjson).symm

/-- What the validator makes of the entry that was sent holds what was sent. -/
theorem sent_of_verbatim {body : PluginBody} (hbody : body.Parsed) {spec : ValidatedPlugin}
    (h : validateOne double body.verbatim = .ok spec) : body.Sent spec := by
  have haccepts := validateOne_eq_ok h
  constructor
  · intro members hmembers
    have henv := haccepts.env
    rw [PluginBody.verbatim, hmembers] at henv
    exact validateEnv_object henv
  · intro members hmembers
    have hegress := haccepts.egress
    rw [PluginBody.verbatim, hmembers] at hegress
    exact validateEgress_object (hbody _ (by simp [PluginBody.nested, hmembers])) hegress

/-- The boundary is exact for a body if and only if its nested fields carry. -/
theorem boundary_exact (hdouble : Yaml.DoubleText double readDouble) {body : PluginBody}
    (hbody : body.Parsed) : body.Exact double readDouble ↔ body.Carries double := by
  rw [← jsonToRawPlugin_verbatim_iff hdouble hbody]
  constructor
  · exact fun h => h.1
  · intro h
    refine ⟨h, fun raw spec hraw hspec => ?_⟩
    rw [h] at hraw
    cases hraw
    exact sent_of_verbatim hbody hspec

end

/-! ### A value with a next-line character -/

/-- A text with a point for every double. -/
def bitsText (bits : UInt64) : List Char := Nat.toDigits 10 bits.toNat ++ ['.', '0']

def readBits (word : List Char) : Option UInt64 :=
  some (UInt64.ofNat (Nat.ofDigitChars 10 (word.takeWhile Char.isDigit) 0))

theorem bitsText_doubleText : Yaml.DoubleText bitsText readBits where
  chars bits _ c hc := by
    obtain hc | hc := List.mem_append.mp hc
    · exact .inl (Yaml.isDigit_of_mem_toDigits hc)
    · obtain rfl | rfl := List.mem_pair.mp hc
      · exact .inr (.inl rfl)
      · exact .inl (by decide)
  fraction bits _ := .inl (List.mem_append_right _ List.mem_cons_self)
  read bits _ := by
    have htake : (bitsText bits).takeWhile Char.isDigit = Nat.toDigits 10 bits.toNat := by
      rw [bitsText, List.takeWhile_append_of_pos fun _ hc => Yaml.isDigit_of_mem_toDigits hc,
        List.takeWhile_cons_of_neg (by decide), List.append_nil]
    rw [readBits, htake, Nat.ofDigitChars_ten_toDigits, UInt64.ofNat_toNat]

/-- A plugin that gets one variable. -/
def greeter (value : String) : PluginBody where
  name := "echo"
  image := some "echo:1"
  port := none
  path := none
  upstreamAuth := none
  env := some (.object [("GREETING", .string value)])
  resources := none
  egress := some (.string "none")

theorem greeter_parsed (value : String) : (greeter value).Parsed := by
  intro v hv
  obtain rfl | rfl := List.mem_pair.mp hv
  · rfl
  · rfl

/-- A value without breaks arrives as it was. -/
theorem boundary_exact_greeter : (greeter "hello \"world\"\n").Exact bitsText readBits :=
  (boundary_exact bitsText_doubleText (greeter_parsed _)).mpr fun v hv => by
    obtain rfl | rfl := List.mem_pair.mp hv
    · exact ⟨by decide +kernel, by decide +kernel⟩
    · exact ⟨by decide +kernel, by decide +kernel⟩

/-- A next-line character is stored as a space, and a delete character is refused. -/
theorem next_line_folded :
    (∃ raw spec, jsonToRawPlugin bitsText readBits (greeter "hello\u0085world") = .ok raw ∧
      validateOne bitsText raw = .ok spec ∧ spec.env = envJson [("GREETING", "hello world")]) ∧
    ¬ (greeter "hello\u0085world").Exact bitsText readBits ∧
    ∀ raw, jsonToRawPlugin bitsText readBits (greeter "hello\x7f") ≠ .ok raw := by
  have hfolded : ((jsonToRawPlugin bitsText readBits (greeter "hello\u0085world")).toOption.any
      fun raw => (validateOne bitsText raw).toOption.any fun spec =>
        spec.env = envJson [("GREETING", "hello world")]) = true := by decide +kernel
  obtain ⟨raw, hraw, hspec⟩ := (Option.any_eq_true _ _).mp hfolded
  obtain ⟨spec, hspec, henv⟩ := (Option.any_eq_true _ _).mp hspec
  have henv : spec.env = envJson [("GREETING", "hello world")] := of_decide_eq_true henv
  refine ⟨⟨raw, spec, toOption_eq_some.mp hraw, toOption_eq_some.mp hspec, henv⟩, ?_, ?_⟩
  · intro h
    obtain ⟨pairs, hpairs, hsent⟩ := (h.2 raw spec (toOption_eq_some.mp hraw)
      (toOption_eq_some.mp hspec)).1 _ rfl
    rw [henv] at hpairs
    obtain rfl := envJson_injective hpairs
    exact absurd hsent (by decide)
  · intro raw h
    have hrefused : (jsonToRawPlugin bitsText readBits (greeter "hello\x7f")).toOption.isSome =
        false := by decide +kernel
    rw [h] at hrefused
    cases hrefused

end Botwork.Api
