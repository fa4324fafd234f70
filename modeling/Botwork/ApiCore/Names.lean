import Botwork.Foundations.Text

/-!
# Names

The grammar of tenant, workspace and plugin names in the API, and the names no
tenant may carry.

## Main definitions

- `isName` — matching of `NAME_REGEX`
- `reservedTenantNames`, `normaliseName` — reserved names, compared without case
- `validateTenantName`, `validateWorkspaceName`, `validatePluginName` — the checks
-/

namespace Botwork.ApiCore

open Botwork.Foundations

inductive NameError where
  | invalid
  | reserved
  deriving DecidableEq, Repr

def NameError.text : NameError → String
  | .invalid => "name does not match ^[A-Za-z0-9_-]\x7b1,63\x7d$"
  | .reserved => "tenant name is reserved"

def reservedTenantNames : List String := ["admin", "api", "auth", "static", "stats", "logs"]

def isNameChar (c : Char) : Bool := c.isUpper || c.isLower || c.isDigit || c == '_' || c == '-'

/-- Matching of `^[A-Za-z0-9_-]{1,63}$`. -/
def isName (name : String) : Bool :=
  decide (1 ≤ name.toList.length) && decide (name.toList.length ≤ 63) &&
    name.toList.all isNameChar

def normaliseName (name : String) : String := Text.toAsciiLowercase name

def validateFormat (name : String) : Except NameError Unit :=
  if isName name then .ok () else .error .invalid

def validateTenantName (name : String) : Except NameError Unit := do
  validateFormat name
  if normaliseName name ∈ reservedTenantNames then .error .reserved else .ok ()

def validateWorkspaceName (name : String) : Except NameError Unit := validateFormat name

def validatePluginName (name : String) : Except NameError Unit := validateFormat name

-- ════════════════════════════════════════════════════════════════════════
-- Acceptance
-- ════════════════════════════════════════════════════════════════════════

theorem validateFormat_eq_ok {name : String} : validateFormat name = .ok () ↔ isName name = true := by
  unfold validateFormat
  by_cases hname : isName name = true
  · simp [hname]
  · simp [hname]

theorem validateTenantName_eq_ok {name : String} :
    validateTenantName name = .ok () ↔
      isName name = true ∧ normaliseName name ∉ reservedTenantNames := by
  unfold validateTenantName validateFormat
  by_cases hname : isName name = true
  · by_cases hreserved : normaliseName name ∈ reservedTenantNames
    · simp [hname, hreserved, bind, Except.bind]
    · simp [hname, hreserved, bind, Except.bind]
  · simp [hname, bind, Except.bind]

/-- A name that is lowercase already is its own normal form. -/
theorem normaliseName_of_forall {name : String} (h : ∀ c ∈ name.toList, c.isUpper = false) :
    normaliseName name = name := by
  apply String.toList_injective
  rw [normaliseName, Text.toAsciiLowercase, String.toList_map]
  refine (List.map_congr_left ?_).trans (List.map_id _)
  intro c hc
  exact Text.toLower_of_not_upper (h c hc)

theorem isNameChar_lt {c : Char} (h : isNameChar c = true) : c.toNat < 128 := by
  simp only [isNameChar, Text.isUpper_eq, Text.isLower_eq, Char.isDigit, Bool.or_eq_true, Bool.and_eq_true,
    decide_eq_true_eq, beq_iff_eq, UInt32.le_iff_toNat_le] at h
  show c.val.toNat < 128
  obtain (((⟨-, hle⟩ | ⟨-, hle⟩) | ⟨-, hle⟩) | rfl) | rfl := h
  · exact lt_of_le_of_lt (b := 'Z'.val.toNat) hle (by decide)
  · exact lt_of_le_of_lt (b := 'z'.val.toNat) hle (by decide)
  · exact lt_of_le_of_lt (b := '9'.val.toNat) hle (by decide)
  · decide
  · decide

theorem toLower_ne_kelvin {c : Char} (h : isNameChar c = true) : c.toLower ≠ '\u212A' := by
  have hall : ∀ n, n < 128 → (Char.ofNat n).toLower ≠ '\u212A' := by
    decide +kernel
  have hc := hall c.toNat (isNameChar_lt h)
  rwa [Char.ofNat_toNat] at hc

/-- A name is found by its lowercase form, whatever the case it is stored in. -/
theorem toLowercase_eq_normaliseName {name stored : String} (hname : isName name = true)
    (hsame : normaliseName stored = normaliseName name) :
    Text.toLowercase stored = normaliseName name := by
  rw [← hsame]
  apply String.toList_injective
  rw [Text.toLowercase, normaliseName, Text.toAsciiLowercase, String.toList_map, String.toList_map]
  apply List.map_congr_left
  intro c hc
  have hmem : c.toLower ∈ (normaliseName name).toList := by
    rw [← hsame, normaliseName, Text.toAsciiLowercase, String.toList_map]
    exact List.mem_map_of_mem hc
  rw [normaliseName, Text.toAsciiLowercase, String.toList_map] at hmem
  obtain ⟨d, hd, hlower⟩ := List.mem_map.mp hmem
  have hchar : isNameChar d = true := by
    simp only [isName, Bool.and_eq_true, List.all_eq_true] at hname
    exact hname.2 d hd
  rw [Text.lowerChar, if_neg]
  rintro rfl
  exact toLower_ne_kelvin hchar (hlower.trans (by decide))

end Botwork.ApiCore
