import Botwork.Foundations.JsonText
import Botwork.Launcher.Container

/-!
# Accepted launches

What the launcher accepts as a launch: a body within the size limit that parses
and of which a container configuration can be made.

## Main definitions

- `Accepted` — a payload, the launch it parses to and its configuration
- `LaunchAccepted` — a payload is accepted
-/

namespace Botwork.Launcher

open Botwork.Foundations

/-- The launch a payload becomes, with the proxy in its environment. -/
def LaunchRequest.proxied (launch : LaunchRequest) (config : Config) : LaunchRequest :=
  { launch with env := injectProxyEnv launch.env config.egressProxy }

section

variable (double : UInt64 → List Char) (config : Config)

/-- A payload passes the size check as it is sent, parses to `launch`, and `body`
    is what docker is asked for. -/
structure Accepted (payload : List (String × Json)) (launch : LaunchRequest)
    (body : ContainerConfig) : Prop where
  size : (Json.bytes double (.object payload)).length ≤ maxJsonBodyBytes
  parsed : parseLaunchPayload config.validImage config.defaultNetwork payload = .ok launch
  built : buildContainerConfig config (launch.proxied config) = .ok body

def LaunchAccepted (payload : List (String × Json)) : Prop :=
  ∃ launch body, Accepted double config payload launch body

end

-- ════════════════════════════════════════════════════════════════════════
-- Configurations
-- ════════════════════════════════════════════════════════════════════════

/-- The pointer of a secret whose name has no foreign character is always valid. -/
theorem secretPointer_eq_ok {secret : String × String}
    (h : ∀ c ∈ secret.1.toList, isEnvChar c = true) :
    secretPointer secret = .ok ("BOTWORK_SECRET_" ++ Text.toAsciiUppercase secret.1 ++ "_FILE" ++
      "=" ++ secretsTmpfsPath ++ "/" ++ secretFileName secret.1) := by
  have hchars : ∀ c ∈ (Text.toAsciiUppercase secret.1).toList, isEnvChar c = true := by
    have hall : ∀ n, n < 128 → isEnvChar (Char.ofNat n) = true →
        isEnvChar (Char.ofNat n).toUpper = true := by
      decide +kernel
    intro c hc
    rw [Text.toAsciiUppercase, String.toList_map] at hc
    obtain ⟨d, hd, rfl⟩ := List.mem_map.mp hc
    have hupper := hall d.toNat (isEnvChar_lt (h d hd)).2
    rw [Char.ofNat_toNat] at hupper
    exact hupper (h d hd)
  generalize hname : "BOTWORK_SECRET_" ++ Text.toAsciiUppercase secret.1 ++ "_FILE" = envName
  have hlist : envName.toList = 'B' :: ("OTWORK_SECRET_".toList ++
      (Text.toAsciiUppercase secret.1).toList ++ "_FILE".toList) := by
    rw [← hname, String.toList_append, String.toList_append]
    rfl
  have hvalid : validEnvName envName = true := by
    have hrest : ("OTWORK_SECRET_".toList ++ (Text.toAsciiUppercase secret.1).toList ++
        "_FILE".toList).all isEnvChar = true := by
      rw [List.all_append, List.all_append, Bool.and_eq_true, Bool.and_eq_true]
      exact ⟨⟨by decide, List.all_eq_true.mpr hchars⟩, by decide⟩
    have hfree : reservedEnvNames.contains envName = false := by
      have hne (other : String) (hhead : other.toList.head? ≠ some 'B') : envName ≠ other := by
        rintro rfl
        rw [hlist] at hhead
        exact hhead rfl
      simp only [reservedEnvNames, List.contains_cons, List.contains_nil, Bool.or_false,
        Bool.or_eq_false_iff, beq_eq_false_iff_ne]
      exact ⟨hne _ (by decide), hne _ (by decide), hne _ (by decide)⟩
    have hdocker : startsWith envName "DOCKER_" = false := by
      rw [startsWith, hlist]
      rfl
    unfold validEnvName
    rw [hlist]
    simp only [hrest, hfree, hdocker]
    rfl
  simp only [secretPointer, hname, hvalid, if_true]

theorem mapM_eq_ok {α β : Type} {f : α → Except LauncherError β} {g : α → β} {xs : List α}
    (h : ∀ x ∈ xs, f x = .ok (g x)) : xs.mapM f = .ok (xs.map g) := by
  induction xs with
  | nil => rfl
  | cons x xs ih =>
    rw [List.mapM_cons, h x List.mem_cons_self, ih fun y hy => h y (List.mem_cons_of_mem _ hy)]
    rfl

/-- Secrets with such names never spoil a configuration. -/
theorem buildContainerConfig_secrets {config : Config} {launch : LaunchRequest}
    {body : ContainerConfig} (h : buildContainerConfig config launch = .ok body)
    {secrets : List (String × String)}
    (hnames : ∀ secret ∈ secrets, ∀ c ∈ secret.1.toList, isEnvChar c = true) :
    ∃ body', buildContainerConfig config { launch with secrets := secrets } = .ok body' := by
  rw [buildContainerConfig] at h
  obtain ⟨env, henv, h⟩ := bind_eq_ok.mp h
  obtain ⟨_, -, h⟩ := bind_eq_ok.mp h
  obtain ⟨⟨memory, nanoCpus⟩, hlimits, h⟩ := bind_eq_ok.mp h
  have hpointers := mapM_eq_ok fun secret hsecret => secretPointer_eq_ok (hnames secret hsecret)
  rw [buildContainerConfig]
  simp only [henv, hpointers, hlimits]
  exact ⟨_, rfl⟩

end Botwork.Launcher
