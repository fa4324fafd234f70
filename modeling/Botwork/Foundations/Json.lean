import Mathlib.Algebra.Group.Int.Defs
import Mathlib.Algebra.GroupWithZero.Nat
import Mathlib.Tactic.Common

/-!
# JSON values and decimal integers

JSON documents as a syntax tree with decidable equality, and the decimal
notation of machine integers: printing is Lean's own `toString`, parsing follows
the usual rules for an unsigned integer (an optional leading `+`, at least one
digit, no overflow).

## Main definitions

- `Json` — JSON values; object members are kept in document order
- `Json.member?` — an object's member under a key
- `Json.get`, `Json.asStr`, `Json.asArray`, `Json.asU64` — accessors of a value
- `parseUnsigned` — parse a decimal integer below a bound
-/

namespace Botwork.Foundations

/-- JSON numbers: an exact integer, or the bit pattern of a double. -/
inductive JsonNumber where
  | int (n : Int)
  | double (bits : UInt64)
  deriving DecidableEq, Repr

/-- JSON values. -/
inductive Json where
  | null
  | bool (b : Bool)
  | number (n : JsonNumber)
  | string (s : String)
  | array (items : List Json)
  | object (members : List (String × Json))
  deriving Repr

namespace Json

mutual

/-- Equality of JSON values is decidable, by recursion on both trees. -/
def decEq : (a b : Json) → Decidable (a = b)
  | .null, .null => isTrue rfl
  | .bool a, .bool b => decidable_of_iff (a = b) (by simp)
  | .number a, .number b => decidable_of_iff (a = b) (by simp)
  | .string a, .string b => decidable_of_iff (a = b) (by simp)
  | .array as, .array bs =>
    match decEqItems as bs with
    | isTrue h => isTrue (by rw [h])
    | isFalse h => isFalse (by simpa using h)
  | .object as, .object bs =>
    match decEqMembers as bs with
    | isTrue h => isTrue (by rw [h])
    | isFalse h => isFalse (by simpa using h)
  | .null, .bool _ | .null, .number _ | .null, .string _ | .null, .array _ | .null, .object _
  | .bool _, .null | .bool _, .number _ | .bool _, .string _ | .bool _, .array _
  | .bool _, .object _ | .number _, .null | .number _, .bool _ | .number _, .string _
  | .number _, .array _ | .number _, .object _ | .string _, .null | .string _, .bool _
  | .string _, .number _ | .string _, .array _ | .string _, .object _ | .array _, .null
  | .array _, .bool _ | .array _, .number _ | .array _, .string _ | .array _, .object _
  | .object _, .null | .object _, .bool _ | .object _, .number _ | .object _, .string _
  | .object _, .array _ => isFalse nofun

def decEqItems : (as bs : List Json) → Decidable (as = bs)
  | [], [] => isTrue rfl
  | a :: as, b :: bs =>
    match decEq a b, decEqItems as bs with
    | isTrue h, isTrue h' => isTrue (by rw [h, h'])
    | isFalse h, _ => isFalse (by simp [h])
    | _, isFalse h => isFalse (by simp [h])
  | [], _ :: _ | _ :: _, [] => isFalse nofun

def decEqMembers : (as bs : List (String × Json)) → Decidable (as = bs)
  | [], [] => isTrue rfl
  | (k, a) :: as, (l, b) :: bs =>
    match String.decEq k l, decEq a b, decEqMembers as bs with
    | isTrue hk, isTrue h, isTrue h' => isTrue (by rw [hk, h, h'])
    | isFalse h, _, _ => isFalse (by simp [h])
    | _, isFalse h, _ => isFalse (by simp [h])
    | _, _, isFalse h => isFalse (by simp [h])
  | [], _ :: _ | _ :: _, [] => isFalse nofun

end

instance : DecidableEq Json := decEq

/-- The member of an object under a key; of several the last one counts. -/
def member? (members : List (String × Json)) (key : String) : Option Json :=
  members.reverse.lookup key

/-- The member of a value under a key: `none` for anything but an object. -/
def get : Json → String → Option Json
  | .object members, key => member? members key
  | _, _ => none

def asStr : Json → Option String
  | .string s => some s
  | _ => none

def asArray : Json → Option (List Json)
  | .array items => some items
  | _ => none

/-- A non-negative integer of 64 bits; a double never is one. -/
def asU64 : Json → Option Nat
  | .number (.int n) => if 0 ≤ n ∧ n < 2 ^ 64 then some n.toNat else none
  | _ => none

theorem get_eq_some {v member : Json} {key : String} :
    v.get key = some member ↔ ∃ members, v = .object members ∧ member? members key = some member := by
  cases v <;> simp [get]

theorem asStr_eq_some {v : Json} {s : String} : v.asStr = some s ↔ v = .string s := by
  cases v <;> simp [asStr]

theorem asArray_eq_some {v : Json} {items : List Json} :
    v.asArray = some items ↔ v = .array items := by
  cases v <;> simp [asArray]

/-- A member read as a text. -/
theorem get_asStr_eq_some {v : Json} {key s : String} :
    (v.get key).bind asStr = some s ↔
      ∃ members, v = .object members ∧ member? members key = some (.string s) := by
  simp only [Option.bind_eq_some_iff, asStr_eq_some, exists_eq_right, get_eq_some]

/-- A member read as an array. -/
theorem get_asArray_eq_some {v : Json} {key : String} {items : List Json} :
    (v.get key).bind asArray = some items ↔
      ∃ members, v = .object members ∧ member? members key = some (.array items) := by
  simp only [Option.bind_eq_some_iff, asArray_eq_some, exists_eq_right, get_eq_some]

theorem asU64_eq_some {v : Json} {n : Nat} :
    v.asU64 = some n ↔ v = .number (.int n) ∧ n < 2 ^ 64 := by
  constructor
  · intro h
    unfold asU64 at h
    split at h
    next i =>
      rw [Option.ite_none_right_eq_some, Option.some.injEq] at h
      obtain ⟨⟨hpos, hlt⟩, rfl⟩ := h
      have hcast : (i.toNat : Int) = i := Int.toNat_of_nonneg hpos
      refine ⟨by rw [hcast], ?_⟩
      omega
    next => cases h
  · rintro ⟨rfl, hlt⟩
    have hbound : 0 ≤ (n : Int) ∧ (n : Int) < 2 ^ 64 := by omega
    rw [asU64, if_pos hbound, Int.toNat_natCast]

end Json

-- ════════════════════════════════════════════════════════════════════════
-- Decimal integers
-- ════════════════════════════════════════════════════════════════════════

/-- The digits of a decimal integer: everything after an optional `+`. -/
def unsignedDigits (s : String) : List Char :=
  match s.toList with
  | '+' :: rest => rest
  | cs => cs

/-- Parse an unsigned decimal integer below `bound`: an optional `+`, then one
    or more digits, then the end of the text. -/
def parseUnsigned (bound : Nat) (s : String) : Option Nat :=
  let digits := unsignedDigits s
  if digits.isEmpty || !digits.all Char.isDigit then none
  else
    let n := Nat.ofDigitChars 10 digits 0
    if n < bound then some n else none

private theorem isDigit_of_mem_decimal {n : Nat} {c : Char} (hc : c ∈ Nat.toDigits 10 n) :
    c.isDigit = true :=
  Nat.isDigit_of_mem_toDigits (by decide) (by decide) hc

/-- A printed number has no sign to strip. -/
theorem unsignedDigits_toString (n : Nat) : unsignedDigits (toString n) = Nat.toDigits 10 n := by
  have hlist : (toString n).toList = Nat.toDigits 10 n := Nat.toList_repr
  unfold unsignedDigits
  rw [hlist]
  split
  next rest heq =>
    have hdigit := isDigit_of_mem_decimal (n := n) (c := '+') (by rw [heq]; exact List.mem_cons_self)
    exact absurd hdigit (by decide)
  next => rfl

/-- What `toString` prints parses to the same number, if it is below the bound. -/
theorem parseUnsigned_toString_ite (bound n : Nat) :
    parseUnsigned bound (toString n) = if n < bound then some n else none := by
  have hall : (Nat.toDigits 10 n).all Char.isDigit = true :=
    List.all_eq_true.mpr fun _ hc => isDigit_of_mem_decimal hc
  have hne : Nat.toDigits 10 n ≠ [] := Nat.toDigits_ne_nil
  simp only [parseUnsigned, unsignedDigits_toString]
  simp [hall, hne, Nat.ofDigitChars_ten_toDigits]

end Botwork.Foundations
