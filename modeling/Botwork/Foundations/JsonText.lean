import Botwork.Foundations.Json
import Botwork.Foundations.Text

/-!
# Compact JSON text

A JSON value as text without blanks.  Quotes, backslashes and control characters
are escaped, everything else stands for itself; the decimal form of a double is a
parameter.

## Main definitions

- `Json.text` — the characters of a value
- `Json.bytes` — the same in UTF-8
-/

namespace Botwork.Foundations.Json

def hexDigit (n : Nat) : Char := if n < 10 then Char.ofNat (48 + n) else Char.ofNat (87 + n)

/-- One character of a string, between the quotes. -/
def escapeChar (c : Char) : List Char :=
  if c = '"' then ['\\', '"']
  else if c = '\\' then ['\\', '\\']
  else if c = '\x08' then ['\\', 'b']
  else if c = '\x09' then ['\\', 't']
  else if c = '\x0a' then ['\\', 'n']
  else if c = '\x0c' then ['\\', 'f']
  else if c = '\x0d' then ['\\', 'r']
  else if c.toNat < 32 then
    ['\\', 'u', '0', '0', hexDigit (c.toNat / 16), hexDigit (c.toNat % 16)]
  else [c]

def stringText (s : String) : List Char := '"' :: s.toList.flatMap escapeChar ++ ['"']

def numberText (double : UInt64 → List Char) : JsonNumber → List Char
  | .int n => (toString n).toList
  | .double bits => double bits

section

variable (double : UInt64 → List Char)

mutual

def text : Json → List Char
  | .null => "null".toList
  | .bool b => (toString b).toList
  | .number n => numberText double n
  | .string s => stringText s
  | .array items => '[' :: [','].intercalate (itemTexts items) ++ [']']
  | .object members => '{' :: [','].intercalate (memberTexts members) ++ ['}']

def itemTexts : List Json → List (List Char)
  | [] => []
  | item :: items => text item :: itemTexts items

def memberTexts : List (String × Json) → List (List Char)
  | [] => []
  | (key, value) :: members => (stringText key ++ ':' :: text value) :: memberTexts members

end

/-- The encoding of a value on the wire. -/
def bytes (v : Json) : List UInt8 := (text double v).flatMap String.utf8EncodeChar

theorem itemTexts_eq_map (items : List Json) : itemTexts double items = items.map (text double) := by
  induction items with
  | nil => rfl
  | cons item items ih => rw [itemTexts, ih, List.map_cons]

theorem memberTexts_eq_map (members : List (String × Json)) :
    memberTexts double members =
      members.map fun m => stringText m.1 ++ ':' :: text double m.2 := by
  induction members with
  | nil => rfl
  | cons m members ih => rw [memberTexts, ih, List.map_cons]

-- ════════════════════════════════════════════════════════════════════════
-- Parts of a text
-- ════════════════════════════════════════════════════════════════════════

theorem infix_intercalate {sep piece : List Char} {pieces : List (List Char)}
    (h : piece ∈ pieces) : piece <:+: sep.intercalate pieces := by
  induction pieces with
  | nil => cases h
  | cons first rest ih =>
    by_cases hrest : rest = []
    · subst hrest
      simp [List.mem_singleton.mp h]
    · rw [List.intercalate_cons_of_ne_nil hrest]
      rcases List.mem_cons.mp h with rfl | h
      · exact ⟨[], sep ++ sep.intercalate rest, by simp⟩
      · obtain ⟨before, after, heq⟩ := ih h
        exact ⟨first ++ sep ++ before, after, by simp [← heq]⟩

theorem length_flatMap_le_of_infix {a b : List Char} (h : a <:+: b) :
    (a.flatMap String.utf8EncodeChar).length ≤ (b.flatMap String.utf8EncodeChar).length := by
  obtain ⟨before, after, rfl⟩ := h
  simp only [List.flatMap_append, List.length_append]
  omega

/-- An item is no longer than its array. -/
theorem length_bytes_item {items : List Json} {item : Json} (h : item ∈ items) :
    (bytes double item).length ≤ (bytes double (.array items)).length := by
  apply length_flatMap_le_of_infix
  have hpiece : text double item ∈ itemTexts double items := by
    rw [itemTexts_eq_map]
    exact List.mem_map_of_mem h
  obtain ⟨before, after, heq⟩ : _ <:+: [','].intercalate _ := infix_intercalate hpiece
  exact ⟨'[' :: before, after ++ [']'], by simp [text, ← heq]⟩

/-- A member is no longer than its object. -/
theorem length_bytes_member {members : List (String × Json)} {key : String} {value : Json}
    (h : (key, value) ∈ members) :
    (bytes double value).length ≤ (bytes double (.object members)).length := by
  apply length_flatMap_le_of_infix
  have hpiece : stringText key ++ ':' :: text double value ∈ memberTexts double members := by
    rw [memberTexts_eq_map]
    exact List.mem_map.mpr ⟨(key, value), h, rfl⟩
  obtain ⟨before, after, heq⟩ : _ <:+: [','].intercalate _ := infix_intercalate hpiece
  exact ⟨'{' :: before ++ stringText key ++ [':'], after ++ ['}'], by simp [text, ← heq]⟩

/-- Escaping never shortens a character. -/
theorem utf8Size_le_escapeChar (c : Char) :
    c.utf8Size ≤ ((escapeChar c).flatMap String.utf8EncodeChar).length := by
  have hascii : c.toNat < 128 → c.utf8Size = 1 := by
    intro h
    rw [← String.length_utf8EncodeChar, Text.utf8EncodeChar_of_lt h]
    rfl
  have hpair (d e : Char) : 1 ≤ ([d, e].flatMap String.utf8EncodeChar).length := by
    have hpos := Char.utf8Size_pos d
    simp only [List.flatMap_cons, List.length_append, String.length_utf8EncodeChar]
    omega
  unfold escapeChar
  split_ifs with h₁ h₂ h₃ h₄ h₅ h₆ h₇ h₈
  iterate 7
    · subst c
      exact hpair _ _
  · have hpos := Char.utf8Size_pos '\\'
    rw [hascii (by omega)]
    simp only [List.flatMap_cons, List.length_append, String.length_utf8EncodeChar]
    omega
  · simp

/-- A string on the wire is no shorter than its text. -/
theorem length_utf8_le_bytes (s : String) :
    (Text.utf8 s).length ≤ (bytes double (.string s)).length := by
  have hchars (chars : List Char) : (chars.flatMap String.utf8EncodeChar).length ≤
      ((chars.flatMap escapeChar).flatMap String.utf8EncodeChar).length := by
    induction chars with
    | nil => exact le_rfl
    | cons c chars ih =>
      have hc := utf8Size_le_escapeChar c
      simp only [List.flatMap_cons, List.flatMap_append, List.length_append,
        String.length_utf8EncodeChar] at ih ⊢
      omega
  have hquoted := length_flatMap_le_of_infix
    (show s.toList.flatMap escapeChar <:+: stringText s from ⟨['"'], ['"'], by simp [stringText]⟩)
  exact (hchars s.toList).trans hquoted

end

end Botwork.Foundations.Json
