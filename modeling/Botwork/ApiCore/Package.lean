import Botwork.ApiCore.Normalised

/-!
# Package files

The file that describes a plugin image to its producer: the fields of a plugin entry
without the image, checked by the plugin validator, and the policies for isolation
and for spilling.

## Main definitions

- `PackageFileEntry`, `ValidatedPackage` — a package before and after its checks
- `validateSpill`, `validatePackage` — the checks
-/

namespace Botwork.ApiCore

open Botwork.Foundations

inductive Isolation where
  | shared | perAgentSession | perRequest
  deriving DecidableEq

def Isolation.asWireStr : Isolation → String
  | .shared => "shared"
  | .perAgentSession => "per_agent_session"
  | .perRequest => "per_request"

inductive SpillMode where
  | never | always | size
  deriving DecidableEq

def SpillMode.asWireStr : SpillMode → String
  | .never => "never"
  | .always => "always"
  | .size => "size"

@[ext]
structure SpillEntry where
  mode : SpillMode
  thresholdBytes : Option Nat
  includeMethods : Option (List String)
  includeTools : Option (List String)
  deriving DecidableEq

structure PackageFileEntry where
  name : String
  port : Option Nat
  path : Option String
  upstreamAuth : Option String
  isolation : Isolation
  egress : Yaml
  resources : Option Yaml
  env : Option Yaml
  spill : SpillEntry

@[ext]
structure ValidatedPackage where
  name : String
  port : Nat
  path : String
  upstreamAuth : String
  env : Json
  resources : Option Json
  egress : Json
  isolation : Isolation
  spill : SpillEntry
  deriving DecidableEq

/-- Why a package is refused: by the checks it shares with plugins, or by its own. -/
inductive PackageRefusal where
  | plugin (err : ValidationError)
  | packageInvalid (plugin detail : String)
  deriving DecidableEq

def packageSentinelImage : String := "package-file://no-image-required"

def defaultPackagePath : String := "/mcp"

def packageErr {α : Type} (plugin suffix : String) : Except PackageRefusal α :=
  .error (.packageInvalid plugin suffix)

-- ════════════════════════════════════════════════════════════════════════
-- Checks
-- ════════════════════════════════════════════════════════════════════════

def validateThreshold (plugin : String) (spill : SpillEntry) : Except PackageRefusal Unit :=
  match spill.mode, spill.thresholdBytes with
  | .size, none => packageErr plugin "has invalid 'spill': mode=size requires 'threshold_bytes'"
  | .size, some 0 =>
    packageErr plugin "has invalid 'spill.threshold_bytes': must be a positive integer"
  | .size, some _ => .ok ()
  | _, none => .ok ()
  | mode, some _ =>
    packageErr plugin ("has invalid 'spill.threshold_bytes': only valid with mode=size " ++
      "(got mode=" ++ mode.asWireStr ++ ")")

/-- One of the two allowlists of a spill policy. -/
def validateIncludes (plugin field all : String) : Option (List String) →
    Except PackageRefusal Unit
  | none => .ok ()
  | some [] =>
    packageErr plugin ("has invalid 'spill." ++ field ++ "': must not be empty (omit the key to " ++
      "apply to all " ++ all ++ ")")
  | some entries =>
    if entries.any fun entry => Text.trim entry = "" then
      packageErr plugin ("has invalid 'spill." ++ field ++ "': entries must be non-empty strings")
    else .ok ()

def validateSpill (plugin : String) (spill : SpillEntry) : Except PackageRefusal Unit := do
  validateThreshold plugin spill
  validateIncludes plugin "include_methods" "methods" spill.includeMethods
  validateIncludes plugin "include_tools" "tools" spill.includeTools

/-- The package as a plugin entry, with an image that is none. -/
def PackageFileEntry.synthetic (raw : PackageFileEntry) : RawPluginEntry where
  name := raw.name
  image := some packageSentinelImage
  port := raw.port
  path := some (raw.path.getD defaultPackagePath)
  upstreamAuth := raw.upstreamAuth
  env := raw.env
  resources := raw.resources
  egress := some raw.egress
  network := none

def validatePackage (double : UInt64 → List Char) (raw : PackageFileEntry) :
    Except PackageRefusal ValidatedPackage := do
  let plugin ← (validateOne double raw.synthetic).mapError .plugin
  validateSpill plugin.name raw.spill
  return ⟨plugin.name, plugin.port, plugin.path, plugin.upstreamAuth, plugin.env,
    plugin.resources, plugin.egress, raw.isolation, raw.spill⟩

-- ════════════════════════════════════════════════════════════════════════
-- What an accepted package holds
-- ════════════════════════════════════════════════════════════════════════

/-- The nested values are such as a parser builds, and an allowlist is not empty. -/
structure WellFormedPackage (package : ValidatedPackage) : Prop where
  env : package.env.isOrdered = true
  resources : ∀ resources ∈ package.resources, resources.isOrdered = true
  egress : package.egress.isOrdered = true
  includeMethods : package.spill.includeMethods ≠ some []
  includeTools : package.spill.includeTools ≠ some []

theorem validateIncludes_ne_nil {plugin field all : String} {entries : Option (List String)}
    (h : validateIncludes plugin field all entries = .ok ()) : entries ≠ some [] := by
  rintro rfl
  cases h

theorem validatePackage_wellFormed {double : UInt64 → List Char} {raw : PackageFileEntry}
    {package : ValidatedPackage} (h : validatePackage double raw = .ok package) :
    WellFormedPackage package := by
  obtain ⟨plugin, hplugin, h⟩ := bind_eq_ok.mp h
  obtain ⟨_, hspill, h⟩ := bind_eq_ok.mp h
  obtain ⟨_, -, hspill⟩ := bind_eq_ok.mp hspill
  obtain ⟨_, hmethods, htools⟩ := bind_eq_ok.mp hspill
  cases h
  have haccepts := validateOne_eq_ok (mapError_eq_ok.mp hplugin)
  obtain ⟨pairs, henv⟩ := validateEnv_stored haccepts.env
  refine ⟨?_, ?_, validateEgress_isOrdered haccepts.egress, validateIncludes_ne_nil hmethods,
    validateIncludes_ne_nil htools⟩
  · dsimp only
    rw [henv]
    exact envJson_isOrdered pairs
  · intro resources hresources
    have hsome : plugin.resources = some resources := hresources
    have haccepted := haccepts.resources
    rw [hsome] at haccepted
    exact validateResources_isOrdered haccepted

end Botwork.ApiCore
