import Botwork.Foundations.Text
import Botwork.SessionBroker.State

/-!
# Secrets of a spawn

What session-broker makes of the secrets it fetches: the name and text pairs for
the launcher, and the token it projects upstream itself.

## Main definitions

- `FetchedSecret` — a secret as auth-broker returned it, decoded
- `sanitizeSegment`, `buildSecretPairs` — the launcher's `secrets` field
- `resolveSpawnUpstreamAuthorization` — the upstream bearer of a spawn
-/

namespace Botwork.SessionBroker

open Botwork.Foundations

structure FetchedSecret where
  service : String
  name : String
  kind : String
  value : List UInt8
  deriving DecidableEq

def maxSecretEntries : Nat := 64
def maxSecretValueBytes : Nat := 64 * 1024

-- ════════════════════════════════════════════════════════════════════════
-- Pairs for the launcher
-- ════════════════════════════════════════════════════════════════════════

/-- One byte of `sanitizeSegment`. -/
def sanitizeByte (b : UInt8) : Char :=
  let c := Char.ofNat b.toNat
  if c.isUpper || c.isLower then c.toUpper else if c.isDigit then c else '_'

def sanitizeSegment (input : String) : String := String.ofList ((Text.utf8 input).map sanitizeByte)

/-- The name of a secret on the launcher's wire. -/
def FetchedSecret.rawName (secret : FetchedSecret) : String :=
  sanitizeSegment secret.service ++ "_" ++ sanitizeSegment secret.name

/-- One round of the loop of `build_secret_pairs`: `out` is what has been pushed,
    newest last.  An oversized value is skipped before its name counts as seen. -/
def pushSecretPair (out : List (String × String)) (secret : FetchedSecret) :
    List (String × String) :=
  if maxSecretEntries ≤ out.length then out
  else if maxSecretValueBytes < secret.value.length then out
  else if secret.rawName ∈ out.map Prod.fst then out
  else out ++ [(secret.rawName, Text.fromUtf8Lossy secret.value)]

def buildSecretPairs (secrets : List FetchedSecret) : List (String × String) :=
  secrets.foldl pushSecretPair []

/-- The pair a secret becomes. -/
def FetchedSecret.pair (secret : FetchedSecret) : String × String :=
  (secret.rawName, Text.fromUtf8Lossy secret.value)

theorem mem_foldl_pushSecretPair {secrets : List FetchedSecret} {out : List (String × String)}
    {pair : String × String} (h : pair ∈ secrets.foldl pushSecretPair out) :
    pair ∈ out ∨ ∃ secret ∈ secrets, pair = secret.pair := by
  induction secrets generalizing out with
  | nil => exact Or.inl h
  | cons secret secrets ih =>
    rcases ih h with hout | ⟨other, hother, heq⟩
    · have hpush : pair ∈ out ∨ pair = secret.pair := by
        unfold pushSecretPair at hout
        split at hout
        next => exact Or.inl hout
        next =>
          split at hout
          next => exact Or.inl hout
          next =>
            split at hout
            next => exact Or.inl hout
            next =>
              rcases List.mem_append.mp hout with hout | hout
              · exact Or.inl hout
              · exact Or.inr (List.mem_singleton.mp hout)
      rcases hpush with hout | heq
      · exact Or.inl hout
      · exact Or.inr ⟨secret, List.mem_cons_self, heq⟩
    · exact Or.inr ⟨other, List.mem_cons_of_mem _ hother, heq⟩

/-- Every pair comes from a secret. -/
theorem mem_buildSecretPairs {secrets : List FetchedSecret} {pair : String × String}
    (h : pair ∈ buildSecretPairs secrets) : ∃ secret ∈ secrets, pair = secret.pair := by
  rcases mem_foldl_pushSecretPair h with hnil | hsecret
  · cases hnil
  · exact hsecret

theorem foldl_pushSecretPair {secrets : List FetchedSecret} {out : List (String × String)}
    (hfew : out.length + secrets.length ≤ maxSecretEntries)
    (hshort : ∀ secret ∈ secrets, secret.value.length ≤ maxSecretValueBytes)
    (hnodup : (secrets.map FetchedSecret.rawName).Nodup)
    (hfresh : ∀ secret ∈ secrets, secret.rawName ∉ out.map Prod.fst) :
    secrets.foldl pushSecretPair out = out ++ secrets.map FetchedSecret.pair := by
  induction secrets generalizing out with
  | nil => simp
  | cons secret secrets ih =>
    have hroom : ¬ maxSecretEntries ≤ out.length := by
      rw [List.length_cons] at hfew
      omega
    have hpush : pushSecretPair out secret = out ++ [secret.pair] := by
      rw [pushSecretPair, if_neg hroom, if_neg (Nat.not_lt.mpr (hshort secret List.mem_cons_self)),
        if_neg (hfresh secret List.mem_cons_self)]
      rfl
    rw [List.map_cons, List.nodup_cons] at hnodup
    rw [List.foldl_cons, hpush, ih]
    · simp
    · rw [List.length_append, List.length_singleton]
      rw [List.length_cons] at hfew
      omega
    · exact fun other hother => hshort other (List.mem_cons_of_mem _ hother)
    · exact hnodup.2
    · intro other hother hmem
      rw [List.map_append, List.mem_append] at hmem
      rcases hmem with hmem | hmem
      · exact hfresh other (List.mem_cons_of_mem _ hother) hmem
      · have heq : other.rawName = secret.rawName := List.mem_singleton.mp hmem
        exact hnodup.1 (heq ▸ List.mem_map_of_mem hother)

/-- Few, short secrets with distinct names are all passed on. -/
theorem buildSecretPairs_eq_map {secrets : List FetchedSecret}
    (hfew : secrets.length ≤ maxSecretEntries)
    (hshort : ∀ secret ∈ secrets, secret.value.length ≤ maxSecretValueBytes)
    (hnodup : (secrets.map FetchedSecret.rawName).Nodup) :
    buildSecretPairs secrets = secrets.map FetchedSecret.pair := by
  have hroom : ([] : List (String × String)).length + secrets.length ≤ maxSecretEntries := by
    rw [List.length_nil, Nat.zero_add]
    exact hfew
  exact foldl_pushSecretPair hroom hshort hnodup (by simp)

-- ════════════════════════════════════════════════════════════════════════
-- Upstream authorization
-- ════════════════════════════════════════════════════════════════════════

/-- The text of a UTF-8 value. -/
def strFromUtf8 (value : List UInt8) : Option String := String.fromUTF8? value.toByteArray

def resolveSpawnUpstreamAuthorization (upstreamAuth : UpstreamAuth)
    (secrets : List FetchedSecret) : Except String (Option String) :=
  match upstreamAuth with
  | .none => .ok none
  | .bearer service =>
    match secrets.filter fun secret => secret.service = service with
    | [] => .error "configured upstream authorization secret was not found"
    | [secret] =>
      match strFromUtf8 secret.value with
      | some value => .ok (some value)
      | none => .error "configured upstream authorization secret must be valid UTF-8"
    | _ => .error ("ambiguous upstream authorization secret for service '" ++ service ++ "'")

/-- A plugin with a bearer policy never spawns without its token. -/
theorem resolveSpawnUpstreamAuthorization_eq_ok {upstreamAuth : UpstreamAuth}
    {secrets : List FetchedSecret} {authorization : Option String}
    (h : resolveSpawnUpstreamAuthorization upstreamAuth secrets = .ok authorization) :
    authorization.isSome = true ↔ upstreamAuth ≠ .none := by
  revert h
  fun_cases resolveSpawnUpstreamAuthorization <;> intro h <;> cases h
  · simp
  · simp

end Botwork.SessionBroker
