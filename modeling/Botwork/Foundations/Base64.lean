import Mathlib.Algebra.Group.Int.Defs
import Mathlib.Algebra.GroupWithZero.Nat
import Mathlib.Tactic.Common

/-!
# Base64

The standard alphabet with canonical padding: groups of three bytes as four
characters, the last group padded with `=`.  The decoder refuses every other
spelling, also one whose unused bits are not zero.

## Main definitions

- `Base64.encode`, `Base64.decode` — between bytes and text
-/

namespace Botwork.Foundations.Base64

/-- The character of a six-bit digit. -/
def encodeDigit (n : Nat) : Char :=
  if n < 26 then Char.ofNat (65 + n)
  else if n < 52 then Char.ofNat (71 + n)
  else if n < 62 then Char.ofNat (n - 4)
  else if n = 62 then '+'
  else '/'

def decodeDigit (c : Char) : Option Nat :=
  if 'A' ≤ c ∧ c ≤ 'Z' then some (c.toNat - 65)
  else if 'a' ≤ c ∧ c ≤ 'z' then some (c.toNat - 71)
  else if '0' ≤ c ∧ c ≤ '9' then some (c.toNat + 4)
  else if c = '+' then some 62
  else if c = '/' then some 63
  else none

theorem decodeDigit_encodeDigit {n : Nat} (h : n < 64) : decodeDigit (encodeDigit n) = some n := by
  revert n
  decide

theorem encodeDigit_ne_pad {n : Nat} (h : n < 64) : encodeDigit n ≠ '=' := by
  revert n
  decide

-- ════════════════════════════════════════════════════════════════════════
-- Groups
-- ════════════════════════════════════════════════════════════════════════

def encodeChars : List UInt8 → List Char
  | [] => []
  | [a] => [encodeDigit (a.toNat / 4), encodeDigit (a.toNat % 4 * 16), '=', '=']
  | [a, b] =>
    [encodeDigit (a.toNat / 4), encodeDigit (a.toNat % 4 * 16 + b.toNat / 16),
      encodeDigit (b.toNat % 16 * 4), '=']
  | a :: b :: c :: bytes =>
    encodeDigit (a.toNat / 4) :: encodeDigit (a.toNat % 4 * 16 + b.toNat / 16) ::
      encodeDigit (b.toNat % 16 * 4 + c.toNat / 64) :: encodeDigit (c.toNat % 64) ::
        encodeChars bytes

/-- The bytes of four characters; only the last group may be padded. -/
def decodeGroup (p q r s : Char) (last : Bool) : Option (List UInt8) := do
  let x ← decodeDigit p
  let y ← decodeDigit q
  if last ∧ r = '=' ∧ s = '=' then
    if y % 16 = 0 then some [UInt8.ofNat (x * 4 + y / 16)] else none
  else
    let z ← decodeDigit r
    if last ∧ s = '=' then
      if z % 4 = 0 then some [UInt8.ofNat (x * 4 + y / 16), UInt8.ofNat (y % 16 * 16 + z / 4)]
      else none
    else
      let w ← decodeDigit s
      some [UInt8.ofNat (x * 4 + y / 16), UInt8.ofNat (y % 16 * 16 + z / 4),
        UInt8.ofNat (z % 4 * 64 + w)]

def decodeChars : List Char → Option (List UInt8)
  | [] => some []
  | p :: q :: r :: s :: chars => do
    let group ← decodeGroup p q r s chars.isEmpty
    let bytes ← decodeChars chars
    return group ++ bytes
  | _ => none

def encode (bytes : List UInt8) : String := String.ofList (encodeChars bytes)

def decode (text : String) : Option (List UInt8) := decodeChars text.toList

-- ════════════════════════════════════════════════════════════════════════
-- Round trip
-- ════════════════════════════════════════════════════════════════════════

private theorem ofNat_eq {a : UInt8} {n : Nat} (h : n = a.toNat) : UInt8.ofNat n = a := by
  rw [h, UInt8.ofNat_toNat]

theorem decodeGroup_one (a : UInt8) :
    decodeGroup (encodeDigit (a.toNat / 4)) (encodeDigit (a.toNat % 4 * 16)) '=' '=' true =
      some [a] := by
  have ha : a.toNat < 256 := a.toNat_lt
  have hx := decodeDigit_encodeDigit (n := a.toNat / 4) (by omega)
  have hy := decodeDigit_encodeDigit (n := a.toNat % 4 * 16) (by omega)
  have hzero : a.toNat % 4 * 16 % 16 = 0 := by omega
  have hbyte : UInt8.ofNat (a.toNat / 4 * 4 + a.toNat % 4 * 16 / 16) = a := ofNat_eq (by omega)
  simp only [decodeGroup, hx, hy, Option.bind_eq_bind, Option.bind_some, and_self, if_true, hzero,
    hbyte]

theorem decodeGroup_two (a b : UInt8) :
    decodeGroup (encodeDigit (a.toNat / 4)) (encodeDigit (a.toNat % 4 * 16 + b.toNat / 16))
      (encodeDigit (b.toNat % 16 * 4)) '=' true = some [a, b] := by
  have ha : a.toNat < 256 := a.toNat_lt
  have hb : b.toNat < 256 := b.toNat_lt
  have hx := decodeDigit_encodeDigit (n := a.toNat / 4) (by omega)
  have hy := decodeDigit_encodeDigit (n := a.toNat % 4 * 16 + b.toNat / 16) (by omega)
  have hz := decodeDigit_encodeDigit (n := b.toNat % 16 * 4) (by omega)
  have hpad := encodeDigit_ne_pad (n := b.toNat % 16 * 4) (by omega)
  have hzero : b.toNat % 16 * 4 % 4 = 0 := by omega
  have hfirst : UInt8.ofNat (a.toNat / 4 * 4 + (a.toNat % 4 * 16 + b.toNat / 16) / 16) = a :=
    ofNat_eq (by omega)
  have hsecond : UInt8.ofNat ((a.toNat % 4 * 16 + b.toNat / 16) % 16 * 16 +
      b.toNat % 16 * 4 / 4) = b := ofNat_eq (by omega)
  simp only [decodeGroup, hx, hy, hz, Option.bind_eq_bind, Option.bind_some, hpad, false_and,
    and_false, if_false, and_self, if_true, hzero, hfirst, hsecond]

theorem decodeGroup_three (a b c : UInt8) (last : Bool) :
    decodeGroup (encodeDigit (a.toNat / 4)) (encodeDigit (a.toNat % 4 * 16 + b.toNat / 16))
      (encodeDigit (b.toNat % 16 * 4 + c.toNat / 64)) (encodeDigit (c.toNat % 64)) last =
      some [a, b, c] := by
  have ha : a.toNat < 256 := a.toNat_lt
  have hb : b.toNat < 256 := b.toNat_lt
  have hc : c.toNat < 256 := c.toNat_lt
  have hx := decodeDigit_encodeDigit (n := a.toNat / 4) (by omega)
  have hy := decodeDigit_encodeDigit (n := a.toNat % 4 * 16 + b.toNat / 16) (by omega)
  have hz := decodeDigit_encodeDigit (n := b.toNat % 16 * 4 + c.toNat / 64) (by omega)
  have hw := decodeDigit_encodeDigit (n := c.toNat % 64) (by omega)
  have hpad := encodeDigit_ne_pad (n := c.toNat % 64) (by omega)
  have hfirst : UInt8.ofNat (a.toNat / 4 * 4 + (a.toNat % 4 * 16 + b.toNat / 16) / 16) = a :=
    ofNat_eq (by omega)
  have hsecond : UInt8.ofNat ((a.toNat % 4 * 16 + b.toNat / 16) % 16 * 16 +
      (b.toNat % 16 * 4 + c.toNat / 64) / 4) = b := ofNat_eq (by omega)
  have hthird : UInt8.ofNat ((b.toNat % 16 * 4 + c.toNat / 64) % 4 * 64 + c.toNat % 64) = c :=
    ofNat_eq (by omega)
  simp only [decodeGroup, hx, hy, hz, hw, Option.bind_eq_bind, Option.bind_some, hpad, and_false,
    if_false, hfirst, hsecond, hthird]

theorem decodeChars_encodeChars (bytes : List UInt8) :
    decodeChars (encodeChars bytes) = some bytes := by
  induction bytes using encodeChars.induct with
  | case1 => rfl
  | case2 a =>
    show (decodeGroup _ _ '=' '=' true).bind _ = some [a]
    rw [decodeGroup_one]
    rfl
  | case3 a b =>
    show (decodeGroup _ _ _ '=' true).bind _ = some [a, b]
    rw [decodeGroup_two]
    rfl
  | case4 a b c bytes ih =>
    rw [encodeChars, decodeChars, decodeGroup_three, ih]
    rfl

/-- **Round trip**: what `encode` writes, `decode` reads back. -/
theorem decode_encode (bytes : List UInt8) : decode (encode bytes) = some bytes := by
  rw [decode, encode, String.toList_ofList, decodeChars_encodeChars]

example : encode [0x66, 0x6F, 0x6F, 0x62, 0x61] = "Zm9vYmE=" := by decide

end Botwork.Foundations.Base64
