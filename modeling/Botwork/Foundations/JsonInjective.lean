import Botwork.Foundations.YamlText

/-!
# The text of a JSON value tells the value

Compact JSON is a prefix code: where a value's text ends is known from the text, and
the value is too.

## Main results

- `text_unique` — two texts, each with something behind it
- `text_injective` — two whole texts
-/

namespace Botwork.Foundations.Json

open Yaml (DoubleText Word Delimited delimited_nil delimited_cons)

-- ════════════════════════════════════════════════════════════════════════
-- Strings
-- ════════════════════════════════════════════════════════════════════════

theorem hexDigit_inj {m n : Nat} (hm : m < 16) (hn : n < 16) (h : hexDigit m = hexDigit n) :
    m = n := by
  have hvalue := congrArg Yaml.hexValue h
  rw [Yaml.hexValue_hexDigit hm, Yaml.hexValue_hexDigit hn] at hvalue
  exact Option.some.inj hvalue

theorem escapeChar_prefix {c c' : Char} {rest rest' : List Char}
    (h : escapeChar c ++ rest = escapeChar c' ++ rest') : c = c' ∧ rest = rest' := by
  obtain ⟨e, hc, hu, hshort, -⟩ | ⟨hc, hlt⟩ | ⟨hc, -, -, hslash⟩ := Yaml.escapeChar_cases c <;>
    obtain ⟨e', hc', hu', hshort', -⟩ | ⟨hc', hlt'⟩ | ⟨hc', -, -, hslash'⟩ :=
      Yaml.escapeChar_cases c' <;>
    rw [hc, hc'] at h
  · cases h
    exact ⟨Option.some.inj (hshort.symm.trans hshort'), rfl⟩
  · exact absurd (List.cons.inj (List.cons.inj h).2).1 hu
  · exact absurd (List.cons.inj h).1.symm hslash'
  · exact absurd (List.cons.inj (List.cons.inj h).2).1.symm hu'
  · simp only [List.cons_append, List.nil_append, List.cons.injEq, true_and] at h
    have hhigh := hexDigit_inj (m := c.toNat / 16) (n := c'.toNat / 16) (by omega) (by omega) h.1
    have hlow := hexDigit_inj (m := c.toNat % 16) (n := c'.toNat % 16) (by omega) (by omega) h.2.1
    exact ⟨Char.toNat_inj.mp (by omega), h.2.2⟩
  · exact absurd (List.cons.inj h).1.symm hslash'
  · exact absurd (List.cons.inj h).1 hslash
  · exact absurd (List.cons.inj h).1 hslash
  · exact List.cons.inj h

theorem escapeChar_ne_quote (c : Char) (rest tail : List Char) :
    '"' :: rest ≠ escapeChar c ++ tail := by
  intro h
  obtain ⟨e, hc, -, -, -⟩ | ⟨hc, -⟩ | ⟨hc, -, hquote, -⟩ := Yaml.escapeChar_cases c <;> rw [hc] at h
  · exact absurd (List.cons.inj h).1 (by decide)
  · exact absurd (List.cons.inj h).1 (by decide)
  · exact hquote (List.cons.inj h).1.symm

theorem escaped_prefix {s s' rest rest' : List Char}
    (h : s.flatMap escapeChar ++ '"' :: rest = s'.flatMap escapeChar ++ '"' :: rest') :
    s = s' ∧ rest = rest' := by
  induction s generalizing s' with
  | nil =>
    cases s' with
    | nil => exact ⟨rfl, (List.cons.inj h).2⟩
    | cons c' cs' =>
      rw [List.flatMap_cons, List.append_assoc] at h
      exact absurd h (escapeChar_ne_quote _ _ _)
  | cons c cs ih =>
    rw [List.flatMap_cons, List.append_assoc] at h
    cases s' with
    | nil => exact absurd h.symm (escapeChar_ne_quote _ _ _)
    | cons c' cs' =>
      rw [List.flatMap_cons, List.append_assoc] at h
      obtain ⟨rfl, htail⟩ := escapeChar_prefix h
      obtain ⟨rfl, hrest⟩ := ih htail
      exact ⟨rfl, hrest⟩

theorem stringText_prefix {s s' : String} {rest rest' : List Char}
    (h : stringText s ++ rest = stringText s' ++ rest') : s = s' ∧ rest = rest' := by
  rw [Yaml.stringText_append, Yaml.stringText_append] at h
  obtain ⟨hs, hrest⟩ := escaped_prefix (List.cons.inj h).2
  exact ⟨String.toList_inj.mp hs, hrest⟩

-- ════════════════════════════════════════════════════════════════════════
-- Words
-- ════════════════════════════════════════════════════════════════════════

/-- The kinds of text that the first character tells apart. -/
inductive Kind where
  | word | quoted | bracketed | braced
  deriving DecidableEq

def kind : Json → Kind
  | .null | .bool _ | .number _ => .word
  | .string _ => .quoted
  | .array _ => .bracketed
  | .object _ => .braced

def kindOf (c : Char) : Kind :=
  if c = '"' then .quoted else if c = '[' then .bracketed else if c = '{' then .braced else .word

section

variable {double : UInt64 → List Char} {readDouble : List Char → Option UInt64}

theorem word_of_kind (hdouble : DoubleText double readDouble) {v : Json} (hv : v.isOrdered = true)
    (hkind : v.kind = .word) : Word readDouble (v.text double) (Yaml.ofJson v) := by
  cases v with
  | null => exact Word.null
  | bool b => exact Word.bool b
  | number n =>
    cases n with
    | int n => exact Word.int n
    | double bits => exact Word.fraction hdouble hv
  | string _ | array _ | object _ => cases hkind

theorem kindOf_text (hdouble : DoubleText double readDouble) {v : Json} (hv : v.isOrdered = true) :
    ∃ c cs, v.text double = c :: cs ∧ kindOf c = v.kind := by
  by_cases hkind : v.kind = .word
  · have hword := word_of_kind hdouble hv hkind
    obtain ⟨c, cs, htext⟩ := List.exists_cons_of_ne_nil hword.ne_nil
    obtain ⟨hflow, hquote⟩ := hword.chars c (by rw [htext]; exact List.mem_cons_self)
    refine ⟨c, cs, htext, ?_⟩
    have hopen : c ≠ '[' := by
      rintro rfl
      exact absurd hflow (by decide)
    have hbrace : c ≠ '{' := by
      rintro rfl
      exact absurd hflow (by decide)
    rw [kindOf, if_neg hquote, if_neg hopen, if_neg hbrace, hkind]
  · cases v with
    | null | bool _ | number _ => exact absurd rfl hkind
    | string s => exact ⟨_, _, rfl, rfl⟩
    | array items => exact ⟨_, _, rfl, rfl⟩
    | object members => exact ⟨_, _, rfl, rfl⟩

theorem kind_eq_of_text (hdouble : DoubleText double readDouble) {v w : Json}
    (hv : v.isOrdered = true) (hw : w.isOrdered = true) {rest rest' : List Char}
    (h : v.text double ++ rest = w.text double ++ rest') : v.kind = w.kind := by
  obtain ⟨c, cs, hc, hkind⟩ := kindOf_text hdouble hv
  obtain ⟨c', cs', hc', hkind'⟩ := kindOf_text hdouble hw
  rw [hc, hc'] at h
  rw [← hkind, ← hkind', (List.cons.inj h).1]

theorem ofJson_inj_of_word {v w : Json} (hv : v.kind = .word) (hw : w.kind = .word)
    (h : Yaml.ofJson v = Yaml.ofJson w) : v = w := by
  cases v <;> cases w <;> cases hv <;> cases hw <;> cases h <;> rfl

theorem word_prefix (hdouble : DoubleText double readDouble) {v w : Json}
    (hv : v.isOrdered = true) (hw : w.isOrdered = true) (hkind : v.kind = .word)
    (hkind' : w.kind = .word) {rest rest' : List Char} (hrest : Delimited rest)
    (hrest' : Delimited rest') (h : v.text double ++ rest = w.text double ++ rest') :
    v = w ∧ rest = rest' := by
  have hword := word_of_kind hdouble hv hkind
  have hword' := word_of_kind hdouble hw hkind'
  have htext : v.text double = w.text double := by
    rw [← hword.takeWhile_eq hrest, h, hword'.takeWhile_eq hrest']
  refine ⟨ofJson_inj_of_word hkind hkind' ?_, ?_⟩
  · rw [← hword.read, ← hword'.read, htext]
  · rw [htext] at h
    exact List.append_cancel_left h

end

-- ════════════════════════════════════════════════════════════════════════
-- Values
-- ════════════════════════════════════════════════════════════════════════

section

variable {double : UInt64 → List Char} {readDouble : List Char → Option UInt64}

/-- What stands behind the first piece of a collection. -/
def behind (close : Char) (rest : List Char) : List (List Char) → List Char
  | [] => close :: rest
  | piece :: pieces => ',' :: ([','].intercalate (piece :: pieces) ++ close :: rest)

theorem intercalate_behind (close : Char) (rest piece : List Char) (pieces : List (List Char)) :
    [','].intercalate (piece :: pieces) ++ close :: rest = piece ++ behind close rest pieces := by
  cases pieces with
  | nil => rw [List.intercalate_singleton, behind]
  | cons piece' pieces =>
    rw [List.intercalate_cons_cons, List.append_assoc, List.append_assoc, List.singleton_append,
      behind]

theorem delimited_behind {close : Char} (hclose : Yaml.isFlowIndicator close = true)
    (rest : List Char) (pieces : List (List Char)) : Delimited (behind close rest pieces) := by
  cases pieces with
  | nil => exact delimited_cons hclose
  | cons piece pieces => exact delimited_cons (by decide)

mutual

/-- Two values whose texts agree up to what stands behind them are one. -/
theorem text_unique (hdouble : DoubleText double readDouble) :
    ∀ {v w : Json} {rest rest' : List Char}, v.isOrdered = true → w.isOrdered = true →
      Delimited rest → Delimited rest' → v.text double ++ rest = w.text double ++ rest' →
      v = w ∧ rest = rest'
  | .string s, w, rest, rest', hv, hw, _, _, h => by
    have hkind := kind_eq_of_text hdouble hv hw h
    cases w with
    | string s' =>
      obtain ⟨rfl, hrest⟩ := stringText_prefix h
      exact ⟨rfl, hrest⟩
    | _ => cases hkind
  | .array items, w, rest, rest', hv, hw, _, _, h => by
    have hkind := kind_eq_of_text hdouble hv hw h
    cases w with
    | array items' =>
      have hitems : [','].intercalate (itemTexts double items) ++ ']' :: rest =
          [','].intercalate (itemTexts double items') ++ ']' :: rest' := by
        simpa [text] using h
      obtain ⟨rfl, hrest⟩ := items_prefix hdouble hv hw hitems
      exact ⟨rfl, hrest⟩
    | _ => cases hkind
  | .object members, w, rest, rest', hv, hw, _, _, h => by
    have hkind := kind_eq_of_text hdouble hv hw h
    cases w with
    | object members' =>
      have hmembers : [','].intercalate (memberTexts double members) ++ '}' :: rest =
          [','].intercalate (memberTexts double members') ++ '}' :: rest' := by
        simpa [text] using h
      rw [isOrdered, Bool.and_eq_true] at hv hw
      obtain ⟨rfl, hrest⟩ := members_prefix hdouble hv.2 hw.2 hmembers
      exact ⟨rfl, hrest⟩
    | _ => cases hkind
  | .null, w, rest, rest', hv, hw, hrest, hrest', h =>
    word_prefix hdouble hv hw rfl (kind_eq_of_text hdouble hv hw h).symm hrest hrest' h
  | .bool b, w, rest, rest', hv, hw, hrest, hrest', h =>
    word_prefix hdouble hv hw rfl (kind_eq_of_text hdouble hv hw h).symm hrest hrest' h
  | .number n, w, rest, rest', hv, hw, hrest, hrest', h =>
    word_prefix hdouble hv hw rfl (kind_eq_of_text hdouble hv hw h).symm hrest hrest' h

theorem items_prefix (hdouble : DoubleText double readDouble) :
    ∀ {items items' : List Json} {rest rest' : List Char}, itemsOrdered items = true →
      itemsOrdered items' = true →
      [','].intercalate (itemTexts double items) ++ ']' :: rest =
        [','].intercalate (itemTexts double items') ++ ']' :: rest' →
      items = items' ∧ rest = rest'
  | [], [], _, _, _, _, h => ⟨rfl, (List.cons.inj h).2⟩
  | [], item' :: items', rest, rest', _, hitems', h => by
    rw [itemsOrdered, Bool.and_eq_true] at hitems'
    obtain ⟨c, cs, htext, hc⟩ := Yaml.text_head hdouble hitems'.1
    rw [itemTexts, itemTexts, intercalate_behind, htext] at h
    exact absurd (List.cons.inj h).1.symm hc
  | item :: items, [], rest, rest', hitems, _, h => by
    rw [itemsOrdered, Bool.and_eq_true] at hitems
    obtain ⟨c, cs, htext, hc⟩ := Yaml.text_head hdouble hitems.1
    rw [itemTexts, itemTexts, intercalate_behind, htext] at h
    exact absurd (List.cons.inj h).1 hc
  | item :: items, item' :: items', rest, rest', hitems, hitems', h => by
    rw [itemsOrdered, Bool.and_eq_true] at hitems hitems'
    rw [itemTexts, itemTexts, intercalate_behind, intercalate_behind] at h
    obtain ⟨rfl, htail⟩ := text_unique hdouble hitems.1 hitems'.1
      (delimited_behind (by decide) _ _) (delimited_behind (by decide) _ _) h
    match items, items', hitems.2, hitems'.2, htail with
    | [], [], _, _, htail => exact ⟨rfl, (List.cons.inj htail).2⟩
    | [], _ :: _, _, _, htail => exact absurd (List.cons.inj htail).1 (by decide)
    | _ :: _, [], _, _, htail => exact absurd (List.cons.inj htail).1 (by decide)
    | _ :: _, _ :: _, hrest, hrest', htail =>
      obtain ⟨heq, htail⟩ := items_prefix hdouble hrest hrest' (List.cons.inj htail).2
      exact ⟨by rw [heq], htail⟩

theorem members_prefix (hdouble : DoubleText double readDouble) :
    ∀ {members members' : List (String × Json)} {rest rest' : List Char},
      membersOrdered members = true → membersOrdered members' = true →
      [','].intercalate (memberTexts double members) ++ '}' :: rest =
        [','].intercalate (memberTexts double members') ++ '}' :: rest' →
      members = members' ∧ rest = rest'
  | [], [], _, _, _, _, h => ⟨rfl, (List.cons.inj h).2⟩
  | [], (key', value') :: members', rest, rest', _, _, h => by
    rw [memberTexts, memberTexts, intercalate_behind] at h
    exact absurd (List.cons.inj h).1 (by decide)
  | (key, value) :: members, [], rest, rest', _, _, h => by
    rw [memberTexts, memberTexts, intercalate_behind] at h
    exact absurd (List.cons.inj h).1 (by decide)
  | (key, value) :: members, (key', value') :: members', rest, rest', hmembers, hmembers', h => by
    rw [membersOrdered, Bool.and_eq_true] at hmembers hmembers'
    rw [memberTexts, memberTexts, intercalate_behind, intercalate_behind, List.append_assoc,
      List.append_assoc] at h
    obtain ⟨rfl, hvalue⟩ := stringText_prefix h
    obtain ⟨rfl, htail⟩ := text_unique hdouble hmembers.1 hmembers'.1
      (delimited_behind (by decide) _ _) (delimited_behind (by decide) _ _)
      (List.cons.inj hvalue).2
    match members, members', hmembers.2, hmembers'.2, htail with
    | [], [], _, _, htail => exact ⟨rfl, (List.cons.inj htail).2⟩
    | [], _ :: _, _, _, htail => exact absurd (List.cons.inj htail).1 (by decide)
    | _ :: _, [], _, _, htail => exact absurd (List.cons.inj htail).1 (by decide)
    | (_, _) :: _, (_, _) :: _, hrest, hrest', htail =>
      obtain ⟨heq, htail⟩ := members_prefix hdouble hrest hrest' (List.cons.inj htail).2
      exact ⟨by rw [heq], htail⟩

end

/-- A value is known by its text. -/
theorem text_injective (hdouble : DoubleText double readDouble) {v w : Json}
    (hv : v.isOrdered = true) (hw : w.isOrdered = true) (h : v.text double = w.text double) :
    v = w :=
  (text_unique hdouble hv hw delimited_nil delimited_nil (congrArg (· ++ []) h)).1

end

end Botwork.Foundations.Json
