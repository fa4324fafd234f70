import Botwork.Foundations.Text

/-!
# Percent coding

Bytes written as `%` and two hexadecimal digits.  The encoder leaves `%` itself
alone, so it does not undo the decoder, but it never changes what a text decodes
to.

## Main definitions

- `percentDecode`, `percentEncode` — the decoder, and the encoder of a set of bytes
- `fromUtf8` — the text of some bytes, if they are UTF-8
-/

namespace Botwork.Foundations

/-- The code of an ASCII character. -/
abbrev ascii (c : Char) : UInt8 := UInt8.ofNat c.toNat

def hexValue (b : UInt8) : Option UInt8 :=
  if ascii '0' ≤ b ∧ b ≤ ascii '9' then some (b - ascii '0')
  else if ascii 'A' ≤ b ∧ b ≤ ascii 'F' then some (b - ascii 'A' + 10)
  else if ascii 'a' ≤ b ∧ b ≤ ascii 'f' then some (b - ascii 'a' + 10)
  else none

/-- The upper case digit of a number below 16. -/
def hexCode (n : UInt8) : UInt8 := if n < 10 then ascii '0' + n else ascii 'A' + (n - 10)

/-- The byte that two digits stand for. -/
def escape? (high low : UInt8) : Option UInt8 :=
  match hexValue high, hexValue low with
  | some h, some l => some (h * 16 + l)
  | _, _ => none

/-- Every `%` that two digits follow is decoded; another one stands for itself. -/
def percentDecode : List UInt8 → List UInt8
  | [] => []
  | [a] => [a]
  | [a, b] => [a, b]
  | a :: high :: low :: rest =>
    if a = ascii '%' then
      match escape? high low with
      | some b => b :: percentDecode rest
      | none => a :: percentDecode (high :: low :: rest)
    else a :: percentDecode (high :: low :: rest)

def encodeByte (b : UInt8) : List UInt8 := [ascii '%', hexCode (b / 16), hexCode (b % 16)]

/-- The bytes of the set are encoded. -/
def percentEncode (set : UInt8 → Bool) (bytes : List UInt8) : List UInt8 :=
  bytes.flatMap fun b => if set b then encodeByte b else [b]

-- ════════════════════════════════════════════════════════════════════════
-- Decoding
-- ════════════════════════════════════════════════════════════════════════

theorem escape?_hexCode (b : UInt8) : escape? (hexCode (b / 16)) (hexCode (b % 16)) = some b := by
  have hall : ∀ n, n < 256 → escape? (hexCode (UInt8.ofNat n / 16)) (hexCode (UInt8.ofNat n % 16)) =
      some (UInt8.ofNat n) := by
    decide +kernel
  have hb := hall b.toNat b.toNat_lt
  rwa [UInt8.ofNat_toNat] at hb

theorem percentDecode_cons_of_ne {a : UInt8} (h : a ≠ ascii '%') (rest : List UInt8) :
    percentDecode (a :: rest) = a :: percentDecode rest := by
  match rest with
  | [] => rfl
  | [_] => rfl
  | high :: low :: rest => rw [percentDecode, if_neg h]

theorem percentDecode_escape {high low b : UInt8} (h : escape? high low = some b)
    (rest : List UInt8) :
    percentDecode (ascii '%' :: high :: low :: rest) = b :: percentDecode rest := by
  rw [percentDecode, if_pos rfl, h]

/-- A `%` that no two digits follow. -/
theorem percentDecode_percent {rest : List UInt8}
    (h : ∀ high low rest', rest = high :: low :: rest' → escape? high low = none) :
    percentDecode (ascii '%' :: rest) = ascii '%' :: percentDecode rest := by
  match rest with
  | [] => rfl
  | [_] => rfl
  | high :: low :: rest' =>
    rw [percentDecode, if_pos rfl]
    rw [h high low rest' rfl]

theorem percentDecode_encodeByte (b : UInt8) (rest : List UInt8) :
    percentDecode (encodeByte b ++ rest) = b :: percentDecode rest :=
  percentDecode_escape (escape?_hexCode b) rest

/-- A text without `%` is its own decoding. -/
theorem percentDecode_eq_self {bytes : List UInt8} (h : ascii '%' ∉ bytes) :
    percentDecode bytes = bytes := by
  induction bytes with
  | nil => rfl
  | cons b bytes ih =>
    rw [List.mem_cons, not_or] at h
    rw [percentDecode_cons_of_ne (Ne.symm h.1), ih h.2]

-- ════════════════════════════════════════════════════════════════════════
-- Encoding
-- ════════════════════════════════════════════════════════════════════════

/-- The set spares `%` and the digits. -/
structure Sparing (set : UInt8 → Bool) : Prop where
  percent : set (ascii '%') = false
  digit : ∀ b, (hexValue b).isSome = true → set b = false

variable {set : UInt8 → Bool}

theorem percentEncode_cons (b : UInt8) (bytes : List UInt8) :
    percentEncode set (b :: bytes) =
      (if set b then encodeByte b else [b]) ++ percentEncode set bytes :=
  List.flatMap_cons

/-- The first byte of an encoding is the byte encoded, or `%`. -/
theorem head_percentEncode {bytes rest : List UInt8} {high : UInt8}
    (h : percentEncode set bytes = high :: rest) :
    high = ascii '%' ∨ ∃ bytes', bytes = high :: bytes' ∧ rest = percentEncode set bytes' := by
  cases bytes with
  | nil => cases h
  | cons b bytes =>
    rw [percentEncode_cons] at h
    split at h
    next => exact .inl (List.cons.inj h).1.symm
    next =>
      obtain ⟨rfl, hrest⟩ := List.cons.inj h
      exact .inr ⟨bytes, rfl, hrest.symm⟩

theorem escape?_percent (b : UInt8) : escape? (ascii '%') b = none ∧ escape? b (ascii '%') = none := by
  have hnone : hexValue (ascii '%') = none := by decide
  constructor
  · rw [escape?, hnone]
  · rw [escape?, hnone]
    cases hexValue b <;> rfl

theorem hexValue_of_escape? {high low b : UInt8} (h : escape? high low = some b) :
    (hexValue high).isSome = true ∧ (hexValue low).isSome = true := by
  rw [escape?] at h
  split at h
  next x y hx hy => exact ⟨by rw [hx]; rfl, by rw [hy]; rfl⟩
  next => cases h

/-- No escape is made by encoding what follows a `%`. -/
theorem escape?_percentEncode {bytes rest : List UInt8} {high low : UInt8}
    (h : ∀ high low rest, bytes = high :: low :: rest → escape? high low = none)
    (hencode : percentEncode set bytes = high :: low :: rest) : escape? high low = none := by
  obtain rfl | ⟨bytes', rfl, hrest⟩ := head_percentEncode hencode
  · exact (escape?_percent low).1
  · obtain rfl | ⟨bytes'', rfl, -⟩ := head_percentEncode hrest.symm
    · exact (escape?_percent high).2
    · exact h high low bytes'' rfl

/-- Encoding does not change what a text decodes to. -/
theorem percentDecode_percentEncode (hset : Sparing set) (bytes : List UInt8) :
    percentDecode (percentEncode set bytes) = percentDecode bytes := by
  induction hlength : bytes.length using Nat.strong_induction_on generalizing bytes with
  | _ n ih =>
    subst hlength
    have hspared : ∀ {b : UInt8} (rest : List UInt8), set b = false →
        percentEncode set (b :: rest) = b :: percentEncode set rest := by
      intro b rest hb
      rw [percentEncode_cons, if_neg (by simp [hb])]
      rfl
    cases bytes with
    | nil => rfl
    | cons b bytes =>
      have ih₁ := ih bytes.length (Nat.lt_succ_self _) bytes rfl
      by_cases hb : b = ascii '%'
      · subst hb
        rw [hspared bytes hset.percent]
        by_cases hescape : ∃ high low rest c, bytes = high :: low :: rest ∧ escape? high low = some c
        · obtain ⟨high, low, rest, c, rfl, hc⟩ := hescape
          obtain ⟨hhigh, hlow⟩ := hexValue_of_escape? hc
          rw [hspared _ (hset.digit high hhigh), hspared _ (hset.digit low hlow),
            percentDecode_escape hc, percentDecode_escape hc]
          have hlt : rest.length < (ascii '%' :: high :: low :: rest).length := by
            simp only [List.length_cons]
            omega
          rw [ih rest.length hlt rest rfl]
        · have hnone : ∀ high low rest, bytes = high :: low :: rest → escape? high low = none := by
            intro high low rest heq
            cases hc : escape? high low with
            | none => rfl
            | some c => exact absurd ⟨high, low, rest, c, heq, hc⟩ hescape
          rw [percentDecode_percent hnone,
            percentDecode_percent fun _ _ _ h => escape?_percentEncode hnone h, ih₁]
      · rw [percentEncode_cons, percentDecode_cons_of_ne hb]
        split
        next => rw [percentDecode_encodeByte, ih₁]
        next =>
          show percentDecode (b :: percentEncode set bytes) = b :: percentDecode bytes
          rw [percentDecode_cons_of_ne hb, ih₁]

-- ════════════════════════════════════════════════════════════════════════
-- UTF-8
-- ════════════════════════════════════════════════════════════════════════

def fromUtf8 (bytes : List UInt8) : Option String :=
  let text := Text.fromUtf8Lossy bytes
  if Text.utf8 text = bytes then some text else none

theorem fromUtf8_eq_some {bytes : List UInt8} {s : String} :
    fromUtf8 bytes = some s ↔ bytes = Text.utf8 s := by
  constructor
  · intro h
    simp only [fromUtf8] at h
    split at h
    next hsame => cases h; exact hsame.symm
    next => cases h
  · rintro rfl
    simp only [fromUtf8, Text.fromUtf8Lossy_utf8, if_pos]

/-- An ASCII byte of a text is one of its characters. -/
theorem mem_of_ascii_mem_utf8 {s : String} {c : Char} (hc : c.toNat < 128)
    (h : ascii c ∈ Text.utf8 s) : c ∈ s.toList := by
  have hcode : (ascii c).toNat = c.toNat := by
    rw [UInt8.toNat_ofNat', Nat.mod_eq_of_lt (by omega)]
  obtain ⟨d, hd, hmem⟩ := List.mem_flatMap.mp h
  have hlt : ascii c < 0x80 := by
    rw [UInt8.lt_iff_toNat_lt, hcode]
    exact hc
  have hsame : d = c := Char.toNat_inj.mp (((Text.mem_utf8EncodeChar_of_lt hlt).mp hmem).trans hcode)
  rwa [hsame] at hd

theorem utf8_append (s t : String) : Text.utf8 (s ++ t) = Text.utf8 s ++ Text.utf8 t := by
  rw [Text.utf8, String.toList_append, List.flatMap_append]
  rfl

end Botwork.Foundations
