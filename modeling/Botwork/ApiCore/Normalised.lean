import Botwork.ApiCore.PluginSpec

/-!
# Stored plugins as entries

What the validator makes of the columns that it stored itself: the scalars and the
resources pass as they are, so that only the environment and the egress rules, which
are stored in another shape than they are written, are looked at again.

## Main definitions

- `storedEntry` — a stored plugin as an entry, with an environment and egress rules of
  its own
-/

namespace Botwork.ApiCore

open Botwork.Foundations

-- ════════════════════════════════════════════════════════════════════════
-- Scalars
-- ════════════════════════════════════════════════════════════════════════

section

variable {plugin : String}

theorem validateName_stored {raw name : String} (h : validateName raw = .ok name) :
    validateName name = .ok name := by
  obtain ⟨rfl, hname⟩ := validateName_eq_ok.mp h
  exact validateName_eq_ok.mpr ⟨(Text.trim_trim raw).symm, hname⟩

theorem validateImage_eq_ok {raw : Option String} {image : String} :
    validateImage plugin raw = .ok image ↔ raw.map Text.trim = some image ∧ image ≠ "" := by
  have hfilter : (raw.map Text.trim).filter (· ≠ "") = some image ↔
      raw.map Text.trim = some image ∧ image ≠ "" := by
    rw [Option.filter_eq_some_iff, decide_eq_true_eq]
  rw [← hfilter, validateImage]
  cases (raw.map Text.trim).filter (· ≠ "") with
  | none => exact ⟨nofun, nofun⟩
  | some image' => exact ⟨fun h => congrArg some (Except.ok.inj h), fun h => congrArg Except.ok
      (Option.some.inj h)⟩

theorem validateImage_stored {raw : Option String} {image : String}
    (h : validateImage plugin raw = .ok image) : validateImage plugin (some image) = .ok image := by
  obtain ⟨hraw, hne⟩ := validateImage_eq_ok.mp h
  obtain ⟨r, -, rfl⟩ := Option.map_eq_some_iff.mp hraw
  exact validateImage_eq_ok.mpr ⟨by rw [Option.map_some, Text.trim_trim], hne⟩

theorem validatePort_stored {raw : Option Nat} {port : Nat}
    (h : validatePort plugin raw = .ok port) : validatePort plugin (some port) = .ok port := by
  cases raw with
  | none =>
    cases h
    rfl
  | some p =>
    have hport : p = port := by
      rw [validatePort] at h
      split_ifs at h
      · exact Except.ok.inj h
      · cases h
    rw [← hport]
    rw [← hport] at h
    exact h

theorem validatePath_stored {raw : Option String} {path : String}
    (h : validatePath plugin raw = .ok path) : validatePath plugin (some path) = .ok path := by
  cases raw with
  | none =>
    cases h
    have htrim : Text.trim "/" = "/" := Text.trim_of_all (by decide)
    rw [validatePath, htrim]
    rfl
  | some r =>
    have hpath : Text.trim r = path := by
      simp only [validatePath] at h
      split_ifs at h <;> first | exact Except.ok.inj h | cases h
    rw [validatePath, ← hpath, Text.trim_trim]
    rw [validatePath, ← hpath] at h
    exact h

theorem toList_of_startsWith {text start : String} (h : startsWith text start = true) :
    start ++ String.ofList (text.toList.drop start.length) = text := by
  obtain ⟨rest, hrest⟩ := List.isPrefixOf_iff_prefix.mp h
  rw [← String.toList_inj, String.toList_append, String.toList_ofList, ← hrest]
  rw [← String.length_toList, List.drop_left]

theorem validateUpstreamAuth_stored {raw : Option String} {upstreamAuth : String}
    (h : validateUpstreamAuth plugin raw = .ok upstreamAuth) :
    validateUpstreamAuth plugin (some upstreamAuth) = .ok upstreamAuth := by
  cases raw with
  | none =>
    cases h
    rfl
  | some r =>
    have hauth : r = upstreamAuth := by
      simp only [validateUpstreamAuth] at h
      split_ifs at h with hnone hbearer hstarts hservice
      · rw [hnone]
        exact Except.ok.inj h
      · cases h
      · cases h
      · rw [toList_of_startsWith hstarts] at h
        exact Except.ok.inj h
      · cases h
    rw [← hauth]
    rw [← hauth] at h
    exact h

-- ════════════════════════════════════════════════════════════════════════
-- Resources
-- ════════════════════════════════════════════════════════════════════════

/-- Members that ascend and that the check of a member leaves as they are. -/
structure StoredResources (plugin : String) (members : List (String × Json)) : Prop where
  ascend : (members.map Prod.fst).Pairwise (· < ·)
  fixed : ∀ m ∈ members, validateResource plugin (.string m.1, Yaml.ofJson m.2) = .ok m

theorem asU64_ofJson_int {n : Nat} (h : n < 2 ^ 64) :
    (Yaml.ofJson (.number (.int n))).asU64 = some n := by
  have hint : (n : Int) < 2 ^ 64 := by exact_mod_cast h
  rw [Yaml.ofJson, Yaml.asU64, Yaml.untag]
  · dsimp only
    rw [if_pos ⟨Int.natCast_nonneg n, hint⟩, Int.toNat_natCast]
  · intro _ _ h
    cases h

theorem lt_u64_of_pids {n : Nat} (h : ¬ (n = 0 ∨ 2 ^ 32 ≤ n)) : n < 2 ^ 64 :=
  (Nat.not_le.mp fun hle => h (.inr hle)).trans (by decide)

theorem validateResource_pids {key : String} {v : Yaml} {value : Nat} (hpids : key = "pids")
    (hv : v.asU64 = some value) (hrange : ¬ (value = 0 ∨ 2 ^ 32 ≤ value)) :
    validateResource plugin (.string key, v) = .ok (key, .number (.int value)) := by
  have hscalar : ¬ (key = "cpus" ∨ key = "memory") := by
    rw [hpids]
    decide
  rw [validateResource]
  dsimp only [Yaml.asStr, Yaml.untag]
  rw [if_neg hscalar, if_pos hpids, hv]
  exact if_neg hrange

theorem validateResource_stored {entry : Yaml × Yaml} {m : String × Json}
    (h : validateResource plugin entry = .ok m) :
    validateResource plugin (.string m.1, Yaml.ofJson m.2) = .ok m := by
  rw [validateResource] at h
  split at h
  · cases h
  · next key hkey =>
    split_ifs at h with hscalar hpids
    · split at h
      · next value hvalue =>
        cases h
        have hfilter : (some value).filter (· ≠ "") = some value :=
          Option.filter_eq_some_iff.mpr ⟨rfl, (Option.filter_eq_some_iff.mp hvalue).2⟩
        rw [validateResource]
        dsimp only [Yaml.asStr, Yaml.untag, Yaml.ofJson]
        rw [if_pos hscalar, hfilter]
      · cases h
    · split at h
      · next value hvalue =>
        by_cases hrange : value = 0 ∨ 2 ^ 32 ≤ value
        · rw [if_pos hrange] at h
          cases h
        · rw [if_neg hrange] at h
          obtain rfl := Except.ok.inj h
          exact validateResource_pids hpids (asU64_ofJson_int (lt_u64_of_pids hrange)) hrange
      · cases h
    · cases h

theorem validateResourceEntries_stored {out members : List (String × Json)}
    {entries : List (Yaml × Yaml)} (hout : StoredResources plugin out)
    (h : validateResourceEntries plugin out entries = .ok members) :
    StoredResources plugin members := by
  induction entries generalizing out with
  | nil =>
    cases h
    exact hout
  | cons entry entries ih =>
    obtain ⟨⟨key, value⟩, hentry, h⟩ := bind_eq_ok.mp h
    refine ih ⟨Yaml.insertMember_ascend hout.ascend, fun m hm => ?_⟩ h
    obtain rfl | hm := Yaml.mem_insertMember hm
    · exact validateResource_stored hentry
    · exact hout.fixed m hm

/-- Members that ascend are put one behind the other. -/
theorem validateResourceEntries_ofMembers {before members : List (String × Json)}
    (h : StoredResources plugin members) (hbefore : ∀ m ∈ before, ∀ m' ∈ members, m.1 < m'.1) :
    validateResourceEntries plugin before (Yaml.ofMembers members) = .ok (before ++ members) := by
  induction members generalizing before with
  | nil => rw [Yaml.ofMembers, validateResourceEntries, List.append_nil]
  | cons m members ih =>
    obtain ⟨key, value⟩ := m
    obtain ⟨hkey, hascend⟩ := List.pairwise_cons.mp h.ascend
    have hinsert : Yaml.insertMember key value before = before ++ [(key, value)] :=
      Yaml.insertMember_of_forall_lt fun m hm => hbefore m hm _ List.mem_cons_self
    have hrest : ∀ m ∈ before ++ [(key, value)], ∀ m' ∈ members, m.1 < m'.1 := by
      intro m hm m' hm'
      obtain hm | hm := List.mem_append.mp hm
      · exact hbefore m hm m' (List.mem_cons_of_mem _ hm')
      · rw [List.mem_singleton.mp hm]
        exact hkey m'.1 (List.mem_map_of_mem hm')
    rw [Yaml.ofMembers, validateResourceEntries, h.fixed _ List.mem_cons_self, ok_bind]
    dsimp only
    rw [hinsert, ih ⟨hascend, fun m hm => h.fixed m (List.mem_cons_of_mem _ hm)⟩ hrest,
      List.append_assoc, List.singleton_append]

theorem validateResources_members {raw : Option Yaml} {resources : Json}
    (h : validateResources plugin raw = .ok (some resources)) :
    ∃ members, resources = .object members ∧ members ≠ [] ∧ StoredResources plugin members := by
  cases raw with
  | none => cases h
  | some y =>
    rw [validateResources] at h
    split_ifs at h
    · cases h
    · split at h
      · cases h
      · next entries hentries =>
        obtain ⟨members, hmembers, heq⟩ := map_eq_ok.mp h
        have hstored : StoredResources plugin members :=
          validateResourceEntries_stored ⟨.nil, fun _ hm => absurd hm List.not_mem_nil⟩ hmembers
        split_ifs at heq with hnil
        cases heq
        exact ⟨members, rfl, hnil, hstored⟩

theorem validateResources_stored {raw : Option Yaml} {resources : Option Json}
    (h : validateResources plugin raw = .ok resources) :
    validateResources plugin (resources.map Yaml.ofJson) = .ok resources := by
  cases resources with
  | none => rfl
  | some r =>
    obtain ⟨members, rfl, hne, hstored⟩ := validateResources_members h
    have hentries : validateResourceEntries plugin [] (Yaml.ofMembers members) =
        .ok ([] ++ members) :=
      validateResourceEntries_ofMembers hstored fun _ hm => absurd hm List.not_mem_nil
    rw [Option.map_some, validateResources, if_neg (by exact nofun)]
    simp only [Yaml.ofJson, Yaml.asMapping, Yaml.untag, hentries, List.nil_append]
    rw [Except.map, if_neg hne]

/-- Every value of a stored member is one that a parser builds. -/
theorem validateResource_isOrdered {entry : Yaml × Yaml} {m : String × Json}
    (h : validateResource plugin entry = .ok m) : m.2.isOrdered = true := by
  rw [validateResource] at h
  split at h
  · cases h
  · split_ifs at h
    · split at h
      · cases h
        rfl
      · cases h
    · split at h
      · split_ifs at h
        · cases h
        · cases h
          rfl
      · cases h
    · cases h

theorem validateResources_isOrdered {raw : Option Yaml} {resources : Json}
    (h : validateResources plugin raw = .ok (some resources)) : resources.isOrdered = true := by
  obtain ⟨members, rfl, -, hstored⟩ := validateResources_members h
  rw [Json.isOrdered, Bool.and_eq_true, decide_eq_true_eq]
  exact ⟨hstored.ascend, Json.membersOrdered_of_forall fun m hm =>
    validateResource_isOrdered (hstored.fixed m hm)⟩

end

-- ════════════════════════════════════════════════════════════════════════
-- Environment and egress rules
-- ════════════════════════════════════════════════════════════════════════

section

variable {double : UInt64 → List Char} {plugin : String}

/-- Every stored environment is a list of names and values. -/
theorem validateEnv_stored {raw : Option Yaml} {env : Json}
    (h : validateEnv double plugin raw = .ok env) : ∃ pairs, env = envJson pairs := by
  cases raw with
  | none =>
    cases h
    exact ⟨[], rfl⟩
  | some y =>
    rw [validateEnv] at h
    split_ifs at h
    · cases h
      exact ⟨[], rfl⟩
    · split at h
      · cases h
      · split_ifs at h
        · cases h
        · obtain ⟨pairs, -, rfl⟩ := map_eq_ok.mp h
          exact ⟨pairs, rfl⟩

theorem envJson_isOrdered (pairs : List (String × String)) :
    (envJson pairs).isOrdered = true := by
  rw [envJson, Json.isOrdered]
  induction pairs with
  | nil => rfl
  | cons pair pairs ih =>
    have hascend : ["name", "value"].Pairwise (· < ·) := by decide
    rw [List.map_cons, Json.itemsOrdered, ih, Bool.and_true, Json.isOrdered, Bool.and_eq_true,
      decide_eq_true_eq]
    exact ⟨hascend, rfl⟩

theorem validateEgressSize_eq_ok {raw : Yaml} {value : Json}
    (h : validateEgressSize double plugin raw = .ok value) : raw.toJson double = some value := by
  rw [validateEgressSize] at h
  split at h
  · cases h
  · next value' hvalue =>
    split_ifs at h
    · cases h
    · cases h
      exact hvalue

theorem validateEgress_isOrdered {raw : Option Yaml} {egress : Json}
    (h : validateEgress double plugin raw = .ok egress) : egress.isOrdered = true := by
  cases raw with
  | none => cases h
  | some y =>
    rw [validateEgress] at h
    split_ifs at h
    · cases h
    · split at h
      · split_ifs at h
        · cases h
          rfl
        · cases h
      · split at h
        · cases h
        · rw [validateEgressMapping] at h
          split_ifs at h
          · cases h
          · split at h
            · cases h
            · split at h
              · cases h
              · split at h
                · cases h
                · obtain ⟨_, -, h⟩ := bind_eq_ok.mp h
                  exact Yaml.isOrdered_of_toJson (validateEgressSize_eq_ok h)

end

-- ════════════════════════════════════════════════════════════════════════
-- Entries
-- ════════════════════════════════════════════════════════════════════════

/-- A stored plugin as an entry, with this environment and these egress rules. -/
def storedEntry (spec : ValidatedPlugin) (env egress : Option Yaml) : RawPluginEntry :=
  ⟨spec.name, some spec.image, some spec.port, some spec.path, some spec.upstreamAuth, env,
    spec.resources.map Yaml.ofJson, egress, none⟩

/-- What is left to check of an entry that was stored. -/
theorem validateOne_storedEntry {double : UInt64 → List Char} {raw : RawPluginEntry}
    {spec : ValidatedPlugin} (h : validateOne double raw = .ok spec) (env egress : Option Yaml) :
    validateOne double (storedEntry spec env egress) = (do
      let env ← validateEnv double spec.name env
      let egress ← validateEgress double spec.name egress
      return { spec with env, egress }) := by
  have haccepts := validateOne_eq_ok h
  rw [validateOne, storedEntry, validateName_stored haccepts.name, ok_bind, validateNetwork,
    ok_bind, validateImage_stored haccepts.image, ok_bind, validatePort_stored haccepts.port,
    ok_bind, validatePath_stored haccepts.path, ok_bind,
    validateUpstreamAuth_stored haccepts.upstreamAuth, ok_bind,
    validateResources_stored haccepts.resources]
  rfl

end Botwork.ApiCore
