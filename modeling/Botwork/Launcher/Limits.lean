import Botwork.Foundations.FloatText
import Botwork.Launcher.Payload

/-!
# Limits of a container

The memory limit is a decimal number with a unit, the CPU limit a number of CPUs.
Both are computed in binary64 and rounded to whole bytes and to billionths of a CPU.

## Main definitions

- `parseMemoryLimit`, `parseCpuLimit`

## Main results

- `parseMemoryLimit_eq_ok`, `parseCpuLimit_eq_ok` — what is asked of docker fits an `i64`
-/

namespace Botwork.Launcher

open Botwork.Foundations

/-- The bytes in a unit, by its suffix in lower case. -/
def memoryMultiplier (suffix : String) : Option Nat :=
  if suffix = "" ∨ suffix = "b" then some 1
  else if suffix = "k" ∨ suffix = "kb" then some 1024
  else if suffix = "m" ∨ suffix = "mb" then some (1024 ^ 2)
  else if suffix = "g" ∨ suffix = "gb" then some (1024 ^ 3)
  else if suffix = "t" ∨ suffix = "tb" then some (1024 ^ 4)
  else if suffix = "p" ∨ suffix = "pb" then some (1024 ^ 5)
  else if suffix = "e" ∨ suffix = "eb" then some (1024 ^ 6)
  else none

def invalidLimit {α : Type} (kind value : String) : Except LauncherError α :=
  .error (.internal ("invalid " ++ kind ++ " limit " ++ Text.debug value))

def parseMemoryLimit (value : String) : Except LauncherError Nat :=
  let trimmed := Text.trim value
  let inNumber := fun c : Char => c.isDigit || c == '.'
  let suffix := Text.toAsciiLowercase (String.ofList (trimmed.toList.dropWhile inNumber))
  if trimmed = "" then .error (.internal "memory limit is empty")
  else
    match FloatText.parse (String.ofList (trimmed.toList.takeWhile inNumber)) with
    | .error e =>
      .error (.internal ("invalid memory limit " ++ Text.debug value ++ ": " ++ e.text))
    | .ok number =>
      match memoryMultiplier suffix with
      | none =>
        .error (.internal ("invalid memory limit suffix " ++ Text.debug suffix ++ " in " ++
          Text.debug value))
      | some multiplier =>
        let product := number * Float.ofNat multiplier
        let bytes := FloatText.roundNat product
        -- `i64::MAX as f64` is `2 ^ 63`, which passes the check and does not parse
        if product.isFinite = false ∨ bytes = 0 ∨ 2 ^ 63 ≤ bytes then invalidLimit "memory" value
        else .ok bytes

def parseCpuLimit (value : String) : Except LauncherError Nat :=
  match FloatText.parse (Text.trim value) with
  | .error e => .error (.internal ("invalid cpu limit " ++ Text.debug value ++ ": " ++ e.text))
  | .ok cpus =>
    let nano := FloatText.roundNat (cpus * 1000000000)
    if cpus.isFinite = false ∨ cpus ≤ 0 ∨ 2 ^ 63 ≤ nano then invalidLimit "cpu" value
    else .ok nano

/-- The memory limit first, then the CPU limit. -/
def parseLimits (memory cpu : String) : Except LauncherError (Nat × Nat) := do
  let memory ← parseMemoryLimit memory
  let nanoCpus ← parseCpuLimit cpu
  return (memory, nanoCpus)

/-- A memory limit is a positive number of bytes. -/
theorem parseMemoryLimit_eq_ok {value : String} {bytes : Nat}
    (h : parseMemoryLimit value = .ok bytes) : 0 < bytes ∧ bytes < 2 ^ 63 := by
  simp only [parseMemoryLimit] at h
  split_ifs at h
  split at h
  next => cases h
  next =>
    split at h
    next => cases h
    next =>
      split_ifs at h with hrefused
      · cases h
      · cases h
        simp only [not_or, not_le] at hrefused
        exact ⟨Nat.pos_of_ne_zero hrefused.2.1, hrefused.2.2⟩

theorem parseCpuLimit_eq_ok {value : String} {nano : Nat} (h : parseCpuLimit value = .ok nano) :
    nano < 2 ^ 63 := by
  simp only [parseCpuLimit] at h
  split at h
  next => cases h
  next =>
    split_ifs at h with hrefused
    · cases h
    · cases h
      simp only [not_or, not_le] at hrefused
      exact hrefused.2.2

example : parseMemoryLimit "1.5GB" = .ok 1610612736 := by decide +kernel

/-- A positive CPU limit may be rounded to zero, which docker takes for no limit. -/
example : parseCpuLimit "1e-10" = .ok 0 := by decide +kernel

end Botwork.Launcher
