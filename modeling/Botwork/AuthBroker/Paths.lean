import Botwork.AuthBroker.Requests
import Botwork.Foundations.Text

/-!
# Paths of the auth-broker

The grammar of names as the auth-broker has it, and the reading of the path of a
request.

## Main definitions

- `validateName`, `validateTenantName`, `validateWorkspaceName`, `validatePluginName`
- `parseOriginalPath` — what a path asks for
-/

namespace Botwork.AuthBroker

open Botwork.Foundations

inductive NameError where
  | invalid
  | reserved
  deriving DecidableEq, Repr

def reservedTenantNames : List String := ["admin", "api", "auth", "static", "stats", "logs"]

/-- Matching of `^[A-Za-z0-9_-]{1,63}$`. -/
def isName (name : String) : Bool :=
  decide (1 ≤ name.toList.length) && decide (name.toList.length ≤ 63) &&
    name.toList.all fun c => c.isUpper || c.isLower || c.isDigit || c == '_' || c == '-'

def normaliseName (name : String) : String := Text.toAsciiLowercase name

def validateName (name : String) (reserved : Bool) : Except NameError Unit :=
  if isName name = false then .error .invalid
  else if reserved && reservedTenantNames.any (normaliseName · = normaliseName name) then
    .error .reserved
  else .ok ()

def validateTenantName (name : String) : Except NameError Unit := validateName name true

def validateWorkspaceName (name : String) : Except NameError Unit := validateName name false

def validatePluginName (name : String) : Except NameError Unit := validateName name false

def accepted (result : Except NameError Unit) : Bool :=
  match result with
  | .ok () => true
  | .error _ => false

/-- `str::trim_start_matches`: the pattern is taken off as often as it stands there. -/
def trimStartMatches (pattern : List Char) (text : List Char) : List Char :=
  if pattern ≠ [] ∧ pattern <+: text then trimStartMatches pattern (text.drop pattern.length)
  else text
termination_by text.length
decreasing_by
  have hlen := (‹pattern ≠ [] ∧ pattern <+: text›).2.length_le
  have hpos := List.length_pos_iff.mpr (‹pattern ≠ [] ∧ pattern <+: text›).1
  rw [List.length_drop]
  omega

/-- The non-empty segments of a path. -/
def segments (path : String) : List String :=
  ((path.toList.splitOn '/').filter (· ≠ [])).map String.ofList

def startsWith (text start : String) : Bool := start.toList.isPrefixOf text.toList

def parseOriginalPath (path : String) : Option ParsedPath :=
  if path = "/api/auth/login" ∨ startsWith path "/api/auth/login/" = true then some .apiAuthLogin
  else if path = "/api/auth" then none
  else if startsWith path "/api/auth/" = true then
    if trimStartMatches "/api/auth/".toList path.toList ≠ [] then some .apiAuthProtected else none
  else if path = "/api" ∨ startsWith path "/api/" = true then
    match segments path with
    | [] => none
    | _ :: "tenant" :: tenant :: _ =>
      if accepted (validateTenantName tenant) then some (.api (some tenant)) else none
    | [_, "tenant"] => none
    | _ => some (.api none)
  else
    match segments path with
    | [tenant] => if accepted (validateTenantName tenant) then some (.spa tenant) else none
    | tenant :: namesp :: plugin :: _ =>
      if accepted (validateTenantName tenant) && accepted (validateWorkspaceName namesp) &&
          accepted (validatePluginName plugin) then
        some (.mcp tenant namesp plugin)
      else none
    | _ => none

-- ════════════════════════════════════════════════════════════════════════
-- Acceptance
-- ════════════════════════════════════════════════════════════════════════

theorem accepted_iff {result : Except NameError Unit} : accepted result = true ↔ result = .ok () := by
  cases result with
  | error err => simp [accepted]
  | ok => simp [accepted]

theorem validateName_eq_ok {name : String} {reserved : Bool} :
    validateName name reserved = .ok () ↔ isName name = true ∧
      (reserved = true → ∀ candidate ∈ reservedTenantNames,
        normaliseName candidate ≠ normaliseName name) := by
  unfold validateName
  by_cases hname : isName name = true
  · cases reserved with
    | false => simp [hname]
    | true =>
      by_cases hreserved : ∃ candidate ∈ reservedTenantNames,
          normaliseName candidate = normaliseName name
      · simp [hname, hreserved]
      · simp [hname, hreserved]
        simpa using hreserved
  · simp [hname]

end Botwork.AuthBroker
