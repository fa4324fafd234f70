import Botwork.Api.PluginBodies

/-!
# Writing back what was read

A plugin's row as `GET` shows it, the edit form that is filled from it, and the `PUT`
that sends it back.  The environment and the egress keywords are stored in a shape
that the validator does not take: no row can be written back.

## Main definitions

- `PluginForm` — the form, `populateFrom` and `toUpdate`
- `WritesBack` — a `PUT` that is accepted and changes none of the fields
-/

namespace Botwork.Api

open Botwork.Foundations Botwork.ApiCore Botwork.Db

-- ════════════════════════════════════════════════════════════════════════
-- The edit form
-- ════════════════════════════════════════════════════════════════════════

structure PluginForm where
  name : String
  image : String
  port : String
  path : String
  upstreamAuth : String
  env : String
  resources : String
  egress : String

def nonempty (s : String) : Option String :=
  let t := Text.trim s
  if t = "" then none else some t

/-- The parser's own reason, which follows in the text, is left out. -/
def parseOptionalPort (s : String) : Except String (Option Nat) :=
  let trimmed := Text.trim s
  if trimmed = "" then .ok none
  else
    match parseUnsigned (2 ^ 64) trimmed with
    | some port => .ok (some port)
    | none => .error "port must be a positive integer"

/-- A field of a body that is left out if there is none. -/
def optionalMember (key : String) (value : Option Json) : List (String × Json) :=
  match value with
  | none => []
  | some v => [(key, v)]

section

-- `pretty` and `parseJson` stand for the JSON text of a textarea, written and read.
variable (pretty : Json → String) (parseJson : String → Option Json)

def parseOptionalJson (input : String) : Except String (Option Json) :=
  let trimmed := Text.trim input
  if trimmed = "" then .ok none
  else
    match parseJson trimmed with
    | some v => .ok (some v)
    | none => .error "invalid JSON"

def PluginForm.populateFrom (p : ValidatedPlugin) : PluginForm where
  name := p.name
  image := p.image
  port := toString p.port
  path := p.path
  upstreamAuth := p.upstreamAuth
  env := pretty p.env
  resources := (p.resources.map pretty).getD ""
  egress := pretty p.egress

def PluginForm.toCreate (form : PluginForm) : Except String (List (String × Json)) := do
  let name := Text.trim form.name
  if name = "" then .error "name must not be blank"
  else
    let image := nonempty form.image
    let port ← parseOptionalPort form.port
    let path := nonempty form.path
    let upstreamAuth := nonempty form.upstreamAuth
    let env ← parseOptionalJson parseJson form.env
    let resources ← parseOptionalJson parseJson form.resources
    let egress ← parseOptionalJson parseJson form.egress
    return [("name", .string name)] ++ optionalMember "image" (image.map .string) ++
      optionalMember "port" (port.map fun n => .number (.int n)) ++
      optionalMember "path" (path.map .string) ++
      optionalMember "upstream_auth" (upstreamAuth.map .string) ++ optionalMember "env" env ++
      optionalMember "resources" resources ++ optionalMember "egress" egress

def PluginForm.toUpdate (form : PluginForm) (lock : String) : Except String Json := do
  let c ← form.toCreate parseJson
  return .object (c ++ [("if_unmodified_since", .string lock)])

end

-- ════════════════════════════════════════════════════════════════════════
-- What a row's values are turned into
-- ════════════════════════════════════════════════════════════════════════

section

variable {double : UInt64 → List Char} {readDouble : List Char → Option UInt64}

theorem validateEnv_sequence (plugin : String) (items : List Yaml) :
    validateEnv double plugin (some (.sequence items)) =
      pluginErr plugin "has invalid 'env': expected a mapping" := by
  rw [validateEnv, if_neg (by intro h; cases h)]
  rfl

/-- The environment of a row is refused where a body carries it. -/
theorem jsonToRawPlugin_stored (hdouble : Yaml.DoubleText double readDouble) {body : PluginBody}
    {pairs : List (String × String)} (hbody : body.env = some (envJson pairs))
    {raw : RawPluginEntry} (hraw : jsonToRawPlugin double readDouble body = .ok raw)
    (spec : ValidatedPlugin) : validateOne double raw ≠ .ok spec := by
  intro hspec
  obtain ⟨env, resources, egress, henv, -, -, rfl⟩ := jsonToRawPlugin_eq_ok.mp hraw
  rw [hbody, optionalYaml, map_eq_ok] at henv
  obtain ⟨y, hy, rfl⟩ := henv
  obtain ⟨items, rfl⟩ := Yaml.fromStr_array hdouble (envJson_isOrdered pairs) (parsed_eq_ok.mp hy)
  have hrefused := (validateOne_eq_ok hspec).env
  rw [validateEnv_sequence] at hrefused
  cases hrefused

end

-- ════════════════════════════════════════════════════════════════════════
-- The body of a row
-- ════════════════════════════════════════════════════════════════════════

/-- The body of a `PUT` with the values that `GET` shows. -/
def rowBody (spec : ValidatedPlugin) (lock : String) : Json :=
  .object ([("name", .string spec.name), ("image", .string spec.image),
    ("port", .number (.int spec.port)), ("path", .string spec.path),
    ("upstream_auth", .string spec.upstreamAuth), ("env", spec.env)] ++
    optionalMember "resources" spec.resources ++
    [("egress", spec.egress), ("if_unmodified_since", .string lock)])

/-- The `PUT` is accepted and leaves every field of the plugin as it was. -/
def WritesBack (put : Json → Except WriteRefusal Tables) (id : Nat) (spec : ValidatedPlugin)
    (rawBody : Json) : Prop :=
  ∃ db', put rawBody = .ok db' ∧ ∃ row ∈ db'.plugins, row.id = id ∧ row.spec = spec

/-- The texts of a row's nested values are read back. -/
def TextsKept (pretty : Json → String) (parseJson : String → Option Json)
    (spec : ValidatedPlugin) : Prop :=
  ∀ v ∈ [spec.env, spec.egress] ++ spec.resources.toList,
    Text.trim (pretty v) ≠ "" ∧ parseJson (Text.trim (pretty v)) = some v

section

variable {double : UInt64 → List Char} {plugin : String}

theorem validatePath_trim {raw : Option String} {path : String}
    (h : validatePath plugin raw = .ok path) : Text.trim path = path ∧ path ≠ "" := by
  have hstored := validatePath_stored h
  simp only [validatePath] at hstored
  split_ifs at hstored with hempty <;> first | cases hstored | skip
  have hpath := Except.ok.inj hstored
  exact ⟨hpath, hpath ▸ hempty⟩

theorem validateUpstreamAuth_trim {raw : Option String} {upstreamAuth : String}
    (h : validateUpstreamAuth plugin raw = .ok upstreamAuth) :
    Text.trim upstreamAuth = upstreamAuth ∧ upstreamAuth ≠ "" := by
  have hstored := validateUpstreamAuth_stored h
  simp only [validateUpstreamAuth] at hstored
  split_ifs at hstored with hnone hbearer hstarts hservice
  · rw [hnone]
    exact ⟨Text.trim_of_all (by decide), by decide⟩
  · cases hstored
  · cases hstored
  · have hbearer := toList_of_startsWith hstarts
    simp only [not_or] at hservice
    have hvisible : ∀ c ∈ upstreamAuth.toList, Text.isWhitespace c = false := by
      intro c hc
      rw [← hbearer, String.toList_append, String.toList_ofList] at hc
      obtain hc | hc := List.mem_append.mp hc
      · have hall : "bearer/".toList.all (!Text.isWhitespace ·) = true := by decide
        simpa using List.all_eq_true.mp hall c hc
      · rw [String.toList_ofList] at hc
        rw [← Bool.not_eq_true]
        exact fun hwhite => hservice.2.2 (List.any_eq_true.mpr ⟨c, hc, hwhite⟩)
    refine ⟨Text.trim_of_forall hvisible, ?_⟩
    rintro rfl
    exact absurd hstarts (by decide)
  · cases hstored

theorem parseOptionalPort_toString {port : Nat} (h : port ≤ 65535) :
    parseOptionalPort (toString port) = .ok (some port) := by
  have hdigits : ∀ c ∈ (toString port).toList, c.isDigit = true := by
    intro c hc
    rw [Nat.toString_eq_repr, Nat.toList_repr] at hc
    exact Nat.isDigit_of_mem_toDigits (by decide) (by decide) hc
  have htrim : Text.trim (toString port) = toString port :=
    Text.trim_of_forall fun c hc => Text.isWhitespace_of_isDigit (hdigits c hc)
  have hne : toString port ≠ "" := by
    intro heq
    have hnil : Nat.toDigits 10 port = [] := by rw [← Nat.toList_repr, ← Nat.toString_eq_repr, heq]; rfl
    exact Nat.toDigits_ne_nil hnil
  simp only [parseOptionalPort, htrim]
  rw [if_neg hne, parseUnsigned_toString_ite, if_pos (by omega)]

theorem nonempty_of_trim {s : String} (h : Text.trim s = s ∧ s ≠ "") : nonempty s = some s := by
  simp only [nonempty, h.1]
  exact if_neg h.2

/-- The form that is filled from a row and saved as it is sends the row. -/
theorem toUpdate_populateFrom {pretty : Json → String} {parseJson : String → Option Json}
    {raw : RawPluginEntry} {spec : ValidatedPlugin} (h : validateOne double raw = .ok spec)
    (htexts : TextsKept pretty parseJson spec) (lock : String) :
    (PluginForm.populateFrom pretty spec).toUpdate parseJson lock = .ok (rowBody spec lock) := by
  have haccepts := validateOne_eq_ok h
  obtain ⟨hname, hshape⟩ := validateName_eq_ok.mp (validateName_stored haccepts.name)
  have hblank : spec.name ≠ "" := by
    intro heq
    rw [heq] at hshape
    exact absurd hshape (by decide)
  obtain ⟨himage, hne⟩ := validateImage_eq_ok.mp (validateImage_stored haccepts.image)
  have hjson : ∀ v ∈ [spec.env, spec.egress] ++ spec.resources.toList,
      parseOptionalJson parseJson (pretty v) = .ok (some v) := by
    intro v hv
    obtain ⟨hnonempty, hread⟩ := htexts v hv
    simp only [parseOptionalJson, hread]
    exact if_neg hnonempty
  have hresources : parseOptionalJson parseJson ((spec.resources.map pretty).getD "") =
      .ok spec.resources := by
    cases hr : spec.resources with
    | none => rfl
    | some v => exact hjson v (by simp [hr])
  rw [PluginForm.toUpdate, PluginForm.toCreate, PluginForm.populateFrom]
  dsimp only
  rw [← hname, if_neg hblank, nonempty_of_trim ⟨Option.some.inj himage, hne⟩,
    nonempty_of_trim (validatePath_trim haccepts.path),
    nonempty_of_trim (validateUpstreamAuth_trim haccepts.upstreamAuth),
    parseOptionalPort_toString (validatePort_le haccepts.port), hjson spec.env (by simp),
    hjson spec.egress (by simp), hresources]
  simp [ok_bind, rowBody, optionalMember, pure, Except.pure]

theorem ofFields_env {field : String → Option Json} {body : PluginBody}
    (h : PluginBody.ofFields field = some body) : body.env = optionalValue (field "env") := by
  obtain ⟨name, -, h⟩ := Option.bind_eq_some_iff.mp h
  obtain ⟨image, -, h⟩ := Option.bind_eq_some_iff.mp h
  obtain ⟨port, -, h⟩ := Option.bind_eq_some_iff.mp h
  obtain ⟨path, -, h⟩ := Option.bind_eq_some_iff.mp h
  obtain ⟨upstreamAuth, -, h⟩ := Option.bind_eq_some_iff.mp h
  cases h
  rfl

/-- A body with the row's values carries the environment as it is stored. -/
theorem ofJson_rowBody_env {parseTime : String → Option Nat} {spec : ValidatedPlugin}
    {lock : String} {pairs : List (String × String)} (henv : spec.env = envJson pairs)
    {body : PluginUpdateBody}
    (h : PluginUpdateBody.ofJson parseTime (rowBody spec lock) = some body) :
    body.env = some (envJson pairs) := by
  rw [rowBody, PluginUpdateBody.ofJson] at h
  split_ifs at h
  obtain ⟨fields, hfields, h⟩ := Option.bind_eq_some_iff.mp h
  obtain ⟨since, -, h⟩ := Option.bind_eq_some_iff.mp h
  cases h
  rw [ofFields_env hfields]
  have hmember : Json.member? ([("name", .string spec.name), ("image", .string spec.image),
      ("port", .number (.int spec.port)), ("path", .string spec.path),
      ("upstream_auth", .string spec.upstreamAuth), ("env", spec.env)] ++
      optionalMember "resources" spec.resources ++
      [("egress", spec.egress), ("if_unmodified_since", .string lock)]) "env" = some spec.env := by
    cases spec.resources with
    | none => rfl
    | some v => rfl
  rw [hmember, henv]
  rfl

/-- **No row is written back**: the `PUT` with the values of a row, which is what the form
    sends, is never accepted, since the validator takes only a mapping for an
    environment. -/
theorem no_row_written_back {readDouble : List Char → Option UInt64}
    (hdouble : Yaml.DoubleText double readDouble) {pretty : Json → String}
    {parseJson : String → Option Json} {raw : RawPluginEntry} {spec : ValidatedPlugin}
    (hspec : validateOne double raw = .ok spec) (htexts : TextsKept pretty parseJson spec)
    (parseUuid parseTime : String → Option Nat) (now : Nat) (caller : Caller) (db : Tables)
    (idText lock : String) (id : Nat) :
    ¬ WritesBack (putPlugin double readDouble parseUuid parseTime now caller db idText) id spec
        (rowBody spec lock) ∧
      (PluginForm.populateFrom pretty spec).toUpdate parseJson lock = .ok (rowBody spec lock) ∧
      validateOne double (storedEntry spec (some (Yaml.ofJson spec.env))
        (some (Yaml.ofJson spec.egress))) =
        pluginErr spec.name "has invalid 'env': expected a mapping" := by
  obtain ⟨pairs, henv⟩ := validateEnv_stored (validateOne_eq_ok hspec).env
  refine ⟨?_, toUpdate_populateFrom hspec htexts lock, ?_⟩
  · rintro ⟨db', hput, -⟩
    obtain ⟨_, -, hput⟩ := bind_eq_ok.mp hput
    obtain ⟨body, hbody, hput⟩ := bind_eq_ok.mp hput
    obtain ⟨_, -, hput⟩ := bind_eq_ok.mp hput
    obtain ⟨entry, hentry, hput⟩ := bind_eq_ok.mp hput
    obtain ⟨_, -, hput⟩ := bind_eq_ok.mp (mapError_eq_ok.mp hput)
    obtain ⟨validated, hvalidated, -⟩ := bind_eq_ok.mp hput
    exact jsonToRawPlugin_stored hdouble (ofJson_rowBody_env henv (parsed_eq_ok.mp hbody)) hentry
      validated (mapError_eq_ok.mp hvalidated)
  · rw [validateOne_storedEntry hspec, henv, envJson, Yaml.ofJson, validateEnv_sequence]
    rfl

end

/-! ### A plugin without variables and without egress -/

def quietEntry : RawPluginEntry :=
  ⟨"echo", some "echo:1", none, none, none, none, none, some (.string "none"), none⟩

def quietSpec : ValidatedPlugin :=
  ⟨"echo", "echo:1", 8000, "/", "none", envJson [], none, .object [("mode", .string "none")]⟩

/-- The texts of the row's two values. -/
def quietText (v : Json) : String :=
  if v = envJson [] then "[]" else "\x7b\n  \"mode\": \"none\"\n\x7d"

def readQuietText (s : String) : Option Json :=
  if s = "[]" then some (envJson [])
  else if s = "\x7b\n  \"mode\": \"none\"\n\x7d" then some (.object [("mode", .string "none")])
  else none

def quietTables : Tables where
  tenants := []
  workspaces := []
  plugins := [⟨3, quietSpec, 7⟩]
  bindings := []

theorem no_row_written_back_echo :
    (PluginForm.populateFrom quietText quietSpec).toUpdate readQuietText "7" =
      .ok (rowBody quietSpec "7") :=
  (no_row_written_back bitsText_doubleText (by decide +kernel : validateOne bitsText quietEntry =
    .ok quietSpec) (by
      intro v hv
      obtain rfl | rfl := List.mem_pair.mp hv
      · exact ⟨by decide +kernel, by decide +kernel⟩
      · exact ⟨by decide +kernel, by decide +kernel⟩) sampleId sampleId 9 ⟨true, none⟩ quietTables
    "3" "7" 3).2.1

/-- The row of a plugin that was accepted is refused when it is sent back. -/
theorem quiet_row_refused :
    validateOne bitsText quietEntry = .ok quietSpec ∧
      putPlugin bitsText readBits sampleId sampleId 9 ⟨true, none⟩ quietTables "3"
        (rowBody quietSpec "7") = .error (.refused (.ofValidationError
          (.pluginInvalid "echo" "has invalid 'env': expected a mapping"))) ∧
      ¬ WritesBack (putPlugin bitsText readBits sampleId sampleId 9 ⟨true, none⟩ quietTables "3") 3
        quietSpec (rowBody quietSpec "7") := by
  have hput : putPlugin bitsText readBits sampleId sampleId 9 ⟨true, none⟩ quietTables "3"
      (rowBody quietSpec "7") = .error (.refused (.ofValidationError
        (.pluginInvalid "echo" "has invalid 'env': expected a mapping"))) := by
    decide +kernel
  refine ⟨by decide +kernel, hput, ?_⟩
  rintro ⟨db', h, -⟩
  rw [hput] at h
  cases h

end Botwork.Api
