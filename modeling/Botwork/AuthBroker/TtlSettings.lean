import Botwork.AuthBroker.Leases
import Botwork.AuthBroker.Paths
import Botwork.Foundations.Json
import Botwork.Foundations.Lines

/-!
# Settings for the cache

The idle and the absolute time of a cached key come from the environment, with an
override per tenant.  The name of an override is documented as a function of the
tenant's name, which several tenants share; the code goes the other way and guesses
one tenant from the name.  It misses every tenant with an underscore or an uppercase
letter, and it reads several names as one tenant's.

## Main definitions

- `TtlConfig.fromLookup` — the settings that an environment gives
- `Knob` — the variables of one of the two times
- `Knob.documented` — the time the documentation promises a tenant
- `Knob.Honours` — the environments that give it, or less

## Main results

- `Knob.overrides_le_iff` — which environments these are, whatever their order
- `Knob.overrides_filter` — no override goes to a tenant with another name
-/

namespace Botwork.AuthBroker

open Botwork.Foundations

-- ════════════════════════════════════════════════════════════════════════
-- The variables
-- ════════════════════════════════════════════════════════════════════════

/-- The variables of one time: the default of all tenants, the floor, and the front of
    the overrides' names. -/
structure Knob where
  ttlVar : String
  minVar : String
  tenantPrefix : String
  ttl : Nat
  min : Nat

def idleKnob : Knob where
  ttlVar := "BOTWORK_AUTH_BROKER_IDLE_TTL_SECS"
  minVar := "BOTWORK_AUTH_BROKER_MIN_IDLE_SECS"
  tenantPrefix := "BOTWORK_AUTH_BROKER_TENANT_IDLE_"
  ttl := TtlConfig.default.defaultIdle
  min := TtlConfig.default.minIdle

def absoluteKnob : Knob where
  ttlVar := "BOTWORK_AUTH_BROKER_ABS_TTL_SECS"
  minVar := "BOTWORK_AUTH_BROKER_MIN_ABS_SECS"
  tenantPrefix := "BOTWORK_AUTH_BROKER_TENANT_ABS_"
  ttl := TtlConfig.default.defaultAbsolute
  min := TtlConfig.default.minAbsolute

/-- `parse_secs`. -/
def parseSecs (raw : String) : Option Nat :=
  ((parseUnsigned (2 ^ 64) raw).filter (0 < ·)).map seconds

def hyphenChar (c : Char) : Char := if c = '_' then '-' else c

/-- The tenant that the code reads off the name of an override. -/
def stripPrefixToTenant (key front : String) : Option String :=
  (Text.stripPrefix front key).bind fun suffix =>
    if suffix.isEmpty then none else some ((Text.toAsciiLowercase suffix).map hyphenChar)

def documentedChar (c : Char) : Char :=
  if c.toUpper = '-' ∨ c.toUpper = '.' then '_' else c.toUpper

/-- The name of a tenant in the documented name of its override: in uppercase, with
    underscores for hyphens and dots. -/
def documentedName (tenant : String) : String := tenant.map documentedChar

namespace TtlConfig

/-- One round of the loop over the environment. -/
def addOverride (config : TtlConfig) (e : String × String) : TtlConfig :=
  match stripPrefixToTenant e.1 idleKnob.tenantPrefix with
  | some tenant =>
    match parseSecs e.2 with
    | some parsed => { config with perTenantIdle := config.perTenantIdle.insert tenant parsed }
    | none => config
  | none =>
    match stripPrefixToTenant e.1 absoluteKnob.tenantPrefix with
    | some tenant =>
      match parseSecs e.2 with
      | some parsed =>
        { config with perTenantAbsolute := config.perTenantAbsolute.insert tenant parsed }
      | none => config
    | none => config

def normalise (config : TtlConfig) : TtlConfig :=
  { config with
    perTenantIdle := config.perTenantIdle.mapValues (max · config.minIdle)
    perTenantAbsolute := config.perTenantAbsolute.mapValues (max · config.minAbsolute)
    defaultIdle := max config.defaultIdle config.minIdle
    defaultAbsolute := max config.defaultAbsolute config.minAbsolute }

end TtlConfig

namespace Knob

/-- `parse_secs_env` of a variable, or its built-in value. -/
def setting (lookup : String → Option String) (var : String) (builtin : Nat) : Nat :=
  ((lookup var).bind parseSecs).getD builtin

def default (k : Knob) (lookup : String → Option String) : Nat := setting lookup k.ttlVar k.ttl

def floor (k : Knob) (lookup : String → Option String) : Nat := setting lookup k.minVar k.min

/-- The documented name of the override of a tenant. -/
def documentedKey (k : Knob) (tenant : String) : String := k.tenantPrefix ++ documentedName tenant

/-- The time the documentation promises a tenant: its override if there is a valid one,
    else the default, but no less than the floor. -/
def documented (k : Knob) (lookup : String → Option String) (tenant : String) : Nat :=
  max (((lookup (k.documentedKey tenant)).bind parseSecs).getD (k.default lookup)) (k.floor lookup)

/-- The values of the overrides that the code takes for the tenant's, in the order of
    the environment. -/
def overrides (k : Knob) (tenant : String) (env : List (String × String)) : List Nat :=
  env.filterMap fun e =>
    if stripPrefixToTenant e.1 k.tenantPrefix = some tenant then parseSecs e.2 else none

/-- The time the code gives a tenant. -/
def effective (k : Knob) (lookup : String → Option String) (env : List (String × String))
    (tenant : String) : Nat :=
  max ((k.overrides tenant env).getLast?.getD (k.default lookup)) (k.floor lookup)

end Knob

/-- `TtlConfig::from_lookup`. -/
def TtlConfig.fromLookup (lookup : String → Option String) (env : List (String × String)) :
    TtlConfig :=
  (env.foldl TtlConfig.addOverride
    { defaultIdle := idleKnob.default lookup
      defaultAbsolute := absoluteKnob.default lookup
      minIdle := idleKnob.floor lookup
      minAbsolute := absoluteKnob.floor lookup
      perTenantIdle := ∅
      perTenantAbsolute := ∅ }).normalise

/-- An order in which the environment may be iterated. -/
def Iterates (env : FiniteMap String String) (order : List (String × String)) : Prop :=
  order.Perm (env.entries.map fun e => (e.1, e.2))

/-- `TtlConfig::from_env`. -/
def TtlConfig.fromEnv (env : FiniteMap String String) (order : List (String × String)) :
    TtlConfig :=
  TtlConfig.fromLookup env.lookup order

-- ════════════════════════════════════════════════════════════════════════
-- What the settings are
-- ════════════════════════════════════════════════════════════════════════

namespace TtlConfig

theorem addOverride_defaults (config : TtlConfig) (e : String × String) :
    (config.addOverride e).defaultIdle = config.defaultIdle ∧
      (config.addOverride e).defaultAbsolute = config.defaultAbsolute ∧
      (config.addOverride e).minIdle = config.minIdle ∧
      (config.addOverride e).minAbsolute = config.minAbsolute := by
  fun_cases addOverride config e <;> exact ⟨rfl, rfl, rfl, rfl⟩

theorem foldl_defaults (env : List (String × String)) (config : TtlConfig) :
    (env.foldl addOverride config).defaultIdle = config.defaultIdle ∧
      (env.foldl addOverride config).defaultAbsolute = config.defaultAbsolute ∧
      (env.foldl addOverride config).minIdle = config.minIdle ∧
      (env.foldl addOverride config).minAbsolute = config.minAbsolute := by
  induction env generalizing config with
  | nil => exact ⟨rfl, rfl, rfl, rfl⟩
  | cons e env ih =>
    obtain ⟨hidle, habsolute, hminIdle, hminAbsolute⟩ := ih (config.addOverride e)
    obtain ⟨hidle', habsolute', hminIdle', hminAbsolute'⟩ := config.addOverride_defaults e
    exact ⟨hidle.trans hidle', habsolute.trans habsolute', hminIdle.trans hminIdle',
      hminAbsolute.trans hminAbsolute'⟩

/-- No name is that of an override of both times. -/
theorem strip_idle_of_strip_absolute {key tenant : String}
    (h : stripPrefixToTenant key absoluteKnob.tenantPrefix = some tenant) :
    stripPrefixToTenant key idleKnob.tenantPrefix = none := by
  cases hidle : stripPrefixToTenant key idleKnob.tenantPrefix with
  | none => rfl
  | some other =>
    obtain ⟨suffix, hsuffix, -⟩ := Option.bind_eq_some_iff.mp h
    obtain ⟨suffix', hsuffix', -⟩ := Option.bind_eq_some_iff.mp hidle
    have habsolute : absoluteKnob.tenantPrefix.toList <+: key.toList := by
      rw [Text.stripPrefix_eq_some.mp hsuffix, String.toList_append]
      exact List.prefix_append _ _
    have hidle' : idleKnob.tenantPrefix.toList <+: key.toList := by
      rw [Text.stripPrefix_eq_some.mp hsuffix', String.toList_append]
      exact List.prefix_append _ _
    have hnested := List.prefix_of_prefix_length_le habsolute hidle' (by decide)
    exact absurd hnested (by decide)

/-- The last value of a list, where an earlier one may be skipped. -/
theorem getLast?_filterMap_cons {α β : Type} (f : α → Option β) (a : α) (l : List α)
    (b : Option β) :
    ((a :: l).filterMap f).getLast?.or b = (l.filterMap f).getLast?.or ((f a).or b) := by
  cases hf : f a with
  | none => rw [List.filterMap_cons_none hf, Option.none_or]
  | some v =>
    rw [List.filterMap_cons_some hf, List.getLast?_cons, Option.some_or]
    cases (l.filterMap f).getLast? <;> rfl

theorem lookup_addOverride_idle (config : TtlConfig) (e : String × String) (tenant : String) :
    (config.addOverride e).perTenantIdle.lookup tenant =
      (if stripPrefixToTenant e.1 idleKnob.tenantPrefix = some tenant then parseSecs e.2
        else none).or (config.perTenantIdle.lookup tenant) := by
  fun_cases addOverride config e
  case case1 other hother parsed hparsed =>
    show (config.perTenantIdle.insert other parsed).lookup tenant = _
    rw [FiniteMap.lookup_insert_ite, hother, hparsed]
    by_cases htenant : tenant = other
    · rw [if_pos htenant, if_pos (by rw [htenant]), Option.some_or]
    · rw [if_neg htenant, if_neg fun h => htenant (Option.some.inj h).symm, Option.none_or]
  case case2 other hother hparsed =>
    rw [hparsed, ite_self, Option.none_or]
  case case3 hidle _ _ _ _ => rw [hidle, if_neg nofun, Option.none_or]
  case case4 hidle _ _ _ => rw [hidle, if_neg nofun, Option.none_or]
  case case5 hidle _ => rw [hidle, if_neg nofun, Option.none_or]

theorem lookup_addOverride_absolute (config : TtlConfig) (e : String × String)
    (tenant : String) :
    (config.addOverride e).perTenantAbsolute.lookup tenant =
      (if stripPrefixToTenant e.1 absoluteKnob.tenantPrefix = some tenant then parseSecs e.2
        else none).or (config.perTenantAbsolute.lookup tenant) := by
  have hnone : ∀ other, stripPrefixToTenant e.1 idleKnob.tenantPrefix = some other →
      stripPrefixToTenant e.1 absoluteKnob.tenantPrefix ≠ some tenant := by
    intro other hother h
    rw [strip_idle_of_strip_absolute h] at hother
    cases hother
  fun_cases addOverride config e
  case case1 other hother parsed hparsed => rw [if_neg (hnone other hother), Option.none_or]
  case case2 other hother hparsed => rw [if_neg (hnone other hother), Option.none_or]
  case case3 hidle other hother parsed hparsed =>
    show (config.perTenantAbsolute.insert other parsed).lookup tenant = _
    rw [FiniteMap.lookup_insert_ite, hother, hparsed]
    by_cases htenant : tenant = other
    · rw [if_pos htenant, if_pos (by rw [htenant]), Option.some_or]
    · rw [if_neg htenant, if_neg fun h => htenant (Option.some.inj h).symm, Option.none_or]
  case case4 hidle other hother hparsed => rw [hparsed, ite_self, Option.none_or]
  case case5 hidle habsolute => rw [habsolute, if_neg nofun, Option.none_or]

theorem lookup_foldl_idle (env : List (String × String)) (config : TtlConfig) (tenant : String) :
    (env.foldl addOverride config).perTenantIdle.lookup tenant =
      (idleKnob.overrides tenant env).getLast?.or (config.perTenantIdle.lookup tenant) := by
  induction env generalizing config with
  | nil => rfl
  | cons e env ih =>
    rw [List.foldl_cons, ih, lookup_addOverride_idle, Knob.overrides, Knob.overrides,
      getLast?_filterMap_cons]

theorem lookup_foldl_absolute (env : List (String × String)) (config : TtlConfig)
    (tenant : String) :
    (env.foldl addOverride config).perTenantAbsolute.lookup tenant =
      (absoluteKnob.overrides tenant env).getLast?.or
        (config.perTenantAbsolute.lookup tenant) := by
  induction env generalizing config with
  | nil => rfl
  | cons e env ih =>
    rw [List.foldl_cons, ih, lookup_addOverride_absolute, Knob.overrides, Knob.overrides,
      getLast?_filterMap_cons]

/-- Raising values to a floor early changes nothing of what is raised to it at the
    end. -/
theorem max_getD_map (value : Option Nat) (default floor : Nat) :
    max ((value.map (max · floor)).getD (max default floor)) floor =
      max (value.getD default) floor := by
  cases value with
  | none => exact max_eq_left (le_max_right default floor)
  | some v => exact max_eq_left (le_max_right v floor)

theorem idleFor_fromLookup (lookup : String → Option String) (env : List (String × String))
    (tenant : String) :
    (fromLookup lookup env).idleFor tenant = idleKnob.effective lookup env tenant := by
  have hdefaults := foldl_defaults env
    { defaultIdle := idleKnob.default lookup
      defaultAbsolute := absoluteKnob.default lookup
      minIdle := idleKnob.floor lookup
      minAbsolute := absoluteKnob.floor lookup
      perTenantIdle := ∅
      perTenantAbsolute := ∅ }
  simp only [fromLookup, normalise, idleFor, Knob.effective, FiniteMap.lookup_mapValues,
    lookup_foldl_idle, hdefaults, AList.lookup_empty, Option.or_none, max_getD_map]

theorem absoluteFor_fromLookup (lookup : String → Option String)
    (env : List (String × String)) (tenant : String) :
    (fromLookup lookup env).absoluteFor tenant = absoluteKnob.effective lookup env tenant := by
  have hdefaults := foldl_defaults env
    { defaultIdle := idleKnob.default lookup
      defaultAbsolute := absoluteKnob.default lookup
      minIdle := idleKnob.floor lookup
      minAbsolute := absoluteKnob.floor lookup
      perTenantIdle := ∅
      perTenantAbsolute := ∅ }
  simp only [fromLookup, normalise, absoluteFor, Knob.effective, FiniteMap.lookup_mapValues,
    lookup_foldl_absolute, hdefaults, AList.lookup_empty, Option.or_none, max_getD_map]

end TtlConfig

-- ════════════════════════════════════════════════════════════════════════
-- Which environments are read as documented
-- ════════════════════════════════════════════════════════════════════════

namespace Knob

variable {k : Knob} {env : FiniteMap String String} {order : List (String × String)}
  {tenant : String}

/-- Every valid override that the code takes for the tenant's is within what the
    documentation promises the tenant, and so is the default if there is none. -/
def Honours (k : Knob) (env : FiniteMap String String) (tenant : String) : Prop :=
  (∀ key value secs, env.lookup key = some value →
    stripPrefixToTenant key k.tenantPrefix = some tenant → parseSecs value = some secs →
      secs ≤ k.documented env.lookup tenant) ∧
  ((∀ key value, env.lookup key = some value →
    stripPrefixToTenant key k.tenantPrefix = some tenant → parseSecs value = none) →
      k.default env.lookup ≤ k.documented env.lookup tenant)

theorem mem_of_iterates (h : Iterates env order) {key value : String} :
    (key, value) ∈ order ↔ env.lookup key = some value := by
  rw [h.mem_iff, FiniteMap.lookup_eq_some_iff, List.mem_map]
  constructor
  · rintro ⟨⟨key', value'⟩, hmem, heq⟩
    cases heq
    exact hmem
  · exact fun hmem => ⟨⟨key, value⟩, hmem, rfl⟩

theorem mem_overrides (h : Iterates env order) {secs : Nat} :
    secs ∈ k.overrides tenant order ↔ ∃ key value, env.lookup key = some value ∧
      stripPrefixToTenant key k.tenantPrefix = some tenant ∧ parseSecs value = some secs := by
  rw [overrides, List.mem_filterMap]
  constructor
  · rintro ⟨⟨key, value⟩, hmem, hsecs⟩
    split at hsecs
    next hkey => exact ⟨key, value, (mem_of_iterates h).mp hmem, hkey, hsecs⟩
    next => cases hsecs
  · rintro ⟨key, value, hlook, hkey, hsecs⟩
    exact ⟨(key, value), (mem_of_iterates h).mpr hlook, (if_pos hkey).trans hsecs⟩

theorem floor_le_documented : k.floor env.lookup ≤ k.documented env.lookup tenant :=
  le_max_right _ _

theorem effective_le (h : k.Honours env tenant) (horder : Iterates env order) :
    k.effective env.lookup order tenant ≤ k.documented env.lookup tenant := by
  refine max_le ?_ floor_le_documented
  cases hlast : (k.overrides tenant order).getLast? with
  | some secs =>
    obtain ⟨key, value, hlook, hkey, hsecs⟩ :=
      (mem_overrides horder).mp (List.mem_of_getLast? hlast)
    exact h.1 key value secs hlook hkey hsecs
  | none =>
    refine h.2 fun key value hlook hkey => ?_
    cases hsecs : parseSecs value with
    | none => rfl
    | some secs =>
      have hmem := (mem_overrides horder).mpr ⟨key, value, hlook, hkey, hsecs⟩
      rw [List.getLast?_eq_none_iff.mp hlast] at hmem
      exact absurd hmem List.not_mem_nil

/-- Any override may come last. -/
theorem exists_order {key value : String} {secs : Nat} (hlook : env.lookup key = some value)
    (hkey : stripPrefixToTenant key k.tenantPrefix = some tenant)
    (hsecs : parseSecs value = some secs) :
    ∃ order, Iterates env order ∧ (k.overrides tenant order).getLast? = some secs := by
  have hmem : (key, value) ∈ env.entries.map fun e => (e.1, e.2) :=
    (mem_of_iterates (List.Perm.refl _)).mpr hlook
  obtain ⟨front, back, hsplit⟩ := List.append_of_mem hmem
  refine ⟨front ++ back ++ [(key, value)], ?_, ?_⟩
  · rw [Iterates, hsplit, List.append_assoc]
    exact (List.perm_append_singleton (key, value) back).append_left front
  · have hlast : overrides k tenant [(key, value)] = [secs] := by
      rw [overrides, List.filterMap_cons_some (b := secs)]
      · rfl
      · exact (if_pos hkey).trans hsecs
    rw [overrides, List.filterMap_append, ← overrides, ← overrides, hlast,
      List.getLast?_append_of_ne_nil]
    · rfl
    · nofun

/-- **Which environments give a tenant no more than the documentation promises**,
    whatever the order they are iterated in. -/
theorem overrides_le_iff :
    (∀ order, Iterates env order →
      k.effective env.lookup order tenant ≤ k.documented env.lookup tenant) ↔
        k.Honours env tenant := by
  constructor
  · intro h
    refine ⟨fun key value secs hlook hkey hsecs => ?_, fun hnone => ?_⟩
    · obtain ⟨order, horder, hlast⟩ := exists_order hlook hkey hsecs
      have hle := h order horder
      rw [effective, hlast] at hle
      exact (le_max_left secs _).trans hle
    · have hle := h _ (List.Perm.refl _)
      have hempty : k.overrides tenant (env.entries.map fun e => (e.1, e.2)) = [] := by
        refine List.eq_nil_iff_forall_not_mem.mpr fun secs hmem => ?_
        obtain ⟨key, value, hlook, hkey, hsecs⟩ := (mem_overrides (List.Perm.refl _)).mp hmem
        rw [hnone key value hlook hkey] at hsecs
        cases hsecs
      rw [effective, hempty] at hle
      exact (le_max_left (k.default env.lookup) _).trans hle
  · exact fun h order horder => effective_le h horder

-- ════════════════════════════════════════════════════════════════════════
-- Whose override it is
-- ════════════════════════════════════════════════════════════════════════

/-- Reading a documented name backwards and documenting it again gives it back. -/
theorem documentedChar_hyphen (c : Char) :
    documentedChar (hyphenChar (documentedChar c).toLower) = documentedChar c := by
  by_cases hascii : c.toNat < 128
  · have hall : ∀ n, n < 128 → documentedChar (hyphenChar (documentedChar (.ofNat n)).toLower) =
        documentedChar (.ofNat n) := by decide +kernel
    have hc := hall c.toNat hascii
    rwa [Char.ofNat_toNat] at hc
  -- the case mappings and the hyphens are about ASCII only
  · have hupper : c.toUpper = c := by
      refine dif_neg ?_
      rintro ⟨-, hle⟩
      exact hascii (lt_of_le_of_lt (show c.toNat ≤ 'z'.toNat from hle) (by decide))
    have hlower : c.toLower = c := by
      apply Text.toLower_of_not_upper
      refine decide_eq_false fun h => hascii ?_
      exact lt_of_le_of_lt (show c.toNat ≤ 'Z'.toNat from h.2) (by decide)
    have hne : ∀ d : Char, d.toNat < 128 → c ≠ d := by
      rintro d hd rfl
      exact hascii hd
    have hself : documentedChar c = c := by
      rw [documentedChar, hupper, if_neg]
      rintro (rfl | rfl) <;> exact hascii (by decide)
    rw [hself, hlower, hyphenChar, if_neg (hne '_' (by decide)), hself]

/-- A tenant that the code reads off a documented name has that name. -/
theorem documentedName_of_strip {other : String}
    (h : stripPrefixToTenant (k.documentedKey other) k.tenantPrefix = some tenant) :
    documentedName tenant = documentedName other := by
  rw [stripPrefixToTenant, documentedKey, Text.stripPrefix_append, Option.bind_some] at h
  split at h
  next => exact absurd h.symm (Option.some_ne_none tenant)
  next =>
    rw [Option.some_inj] at h
    rw [← h, ← String.toList_inj]
    simp only [documentedName, Text.toAsciiLowercase, String.toList_map, List.map_map]
    refine List.map_congr_left fun c _ => ?_
    simpa only [Function.comp_apply] using documentedChar_hyphen c

/-- **No override goes to a tenant with another documented name.** -/
theorem overrides_filter {other : String} (h : documentedName other ≠ documentedName tenant) :
    k.overrides tenant (order.filter fun e => e.1 ≠ k.documentedKey other) =
      k.overrides tenant order := by
  rw [overrides, overrides, List.filterMap_filter]
  refine List.filterMap_congr fun e _ => ?_
  by_cases hkey : e.1 = k.documentedKey other
  · have hnot : stripPrefixToTenant e.1 k.tenantPrefix ≠ some tenant := by
      intro htenant
      rw [hkey] at htenant
      exact h (documentedName_of_strip htenant).symm
    rw [if_neg hnot, ite_self]
  · rw [if_pos (by simpa using hkey)]

end Knob

end Botwork.AuthBroker
