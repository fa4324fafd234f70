import Botwork.Foundations.QuotedScalars
import Botwork.Foundations.Yaml

/-!
# Compact JSON read as YAML

A YAML reader, as far as the text of a JSON value without blanks goes: flow
collections, plain and double-quoted scalars.  The value it reads is the JSON value
itself exactly for texts that are printable throughout, whose strings are kept and
whose keys are short and on one line.

## Main definitions

- `fromStr` — the reader
- `reread` — its result on the text of a JSON value
- `carries` — the values that are read as they were
-/

namespace Botwork.Foundations.Yaml

/-- How many characters an implicit key has at most, its quotes included. -/
def keyLimit : Nat := 1024

/-- How deep collections nest at most. -/
def depthLimit : Nat := 128

-- ════════════════════════════════════════════════════════════════════════
-- The reader
-- ════════════════════════════════════════════════════════════════════════

def isFlowIndicator (c : Char) : Bool := c = ',' ∨ c = '[' ∨ c = ']' ∨ c = '{' ∨ c = '}'

def readNat (digits : List Char) : Option Nat :=
  if digits = [] ∨ digits.all Char.isDigit = false then none
  else some (Nat.ofDigitChars 10 digits 0)

def readInt : List Char → Option Int
  | '-' :: digits => (readNat digits).map fun n : Nat => -(n : Int)
  | digits => (readNat digits).map fun n : Nat => (n : Int)

section

-- `readDouble` stands for the parsing of a decimal fraction.
variable (readDouble : List Char → Option UInt64)

/-- A plain scalar: of the forms YAML has, those that JSON writes are told apart. -/
def plain (word : List Char) : Yaml :=
  if word = ['n', 'u', 'l', 'l'] then .null
  else if word = ['t', 'r', 'u', 'e'] then .bool true
  else if word = ['f', 'a', 'l', 's', 'e'] then .bool false
  else
    match readInt word with
    | some n => .number (.int n)
    | none =>
      match readDouble word with
      | some bits => .number (.double bits)
      | none => .string (String.ofList word)

/-- A key in double quotes, on one line and within the limit, and its colon. -/
def readKey (cs : List Char) : Option (String × List Char) :=
  match cs with
  | '"' :: cs' =>
    (scan .empty false cs').bind fun out =>
      let quoted := cs.take (cs.length - out.2.length)
      if quoted.any isBreak ∨ keyLimit < quoted.length then none
      else
        match out.2 with
        | ':' :: rest => some (String.ofList out.1, rest)
        | _ => none
  | _ => none

mutual

/-- One node; `fuel` bounds its characters, `depth` the collections around it. -/
def readNode : Nat → Nat → List Char → Option (Yaml × List Char)
  | 0, _, _ => none
  | fuel + 1, depth, cs =>
    match cs with
    | '"' :: cs =>
      (scan .empty false cs).map fun out => (.string (String.ofList out.1), out.2)
    | '[' :: cs =>
      match depth with
      | 0 => none
      | depth + 1 =>
        match cs with
        | ']' :: rest => some (.sequence [], rest)
        | cs => (readItems fuel depth cs).map fun out => (.sequence out.1, out.2)
    | '{' :: cs =>
      match depth with
      | 0 => none
      | depth + 1 =>
        match cs with
        | '}' :: rest => some (.mapping [], rest)
        | cs => (readEntries fuel depth cs).map fun out => (.mapping out.1, out.2)
    | cs => some (plain readDouble (cs.takeWhile (!isFlowIndicator ·)),
        cs.dropWhile (!isFlowIndicator ·))

def readItems : Nat → Nat → List Char → Option (List Yaml × List Char)
  | 0, _, _ => none
  | fuel + 1, depth, cs =>
    match readNode fuel depth cs with
    | some (item, ',' :: rest) =>
      (readItems fuel depth rest).map fun out => (item :: out.1, out.2)
    | some (item, ']' :: rest) => some ([item], rest)
    | _ => none

/-- A key that stands twice is refused. -/
def readEntries : Nat → Nat → List Char → Option (List (Yaml × Yaml) × List Char)
  | 0, _, _ => none
  | fuel + 1, depth, cs =>
    match readKey cs with
    | none => none
    | some (key, rest) =>
      match readNode fuel depth rest with
      | some (value, ',' :: rest) =>
        (readEntries fuel depth rest).bind fun out =>
          if ( entry? key out.1).isSome then none else some ((.string key, value) :: out.1, out.2)
      | some (value, '}' :: rest) => some ([(.string key, value)], rest)
      | _ => none

end

/-- One document. -/
def fromStr (text : List Char) : Option Yaml :=
  if text.all isPrintable then
    match readNode readDouble (text.length + 1) depthLimit text with
    | some (v, []) => some v
    | _ => none
  else none

end

-- ════════════════════════════════════════════════════════════════════════
-- The value that is read
-- ════════════════════════════════════════════════════════════════════════

/-- What a key is read as. -/
def rereadKey (key : String) : Option String :=
  if (Json.stringText key).any isBreak ∨ keyLimit < (Json.stringText key).length then none
  else (foldText .empty false key.toList).map String.ofList

mutual

/-- What the text of a JSON value is read as. -/
def reread : Json → Nat → Option Yaml
  | .null, _ => some .null
  | .bool b, _ => some (.bool b)
  | .number n, _ => some (.number n)
  | .string s, _ => (foldText .empty false s.toList).map fun out => .string (String.ofList out)
  | .array _, 0 => none
  | .array items, depth + 1 => (rereadItems items depth).map .sequence
  | .object _, 0 => none
  | .object members, depth + 1 => (rereadMembers members depth).map .mapping

def rereadItems : List Json → Nat → Option (List Yaml)
  | [], _ => some []
  | item :: items, depth =>
    (reread item depth).bind fun v => (rereadItems items depth).map (v :: ·)

def rereadMembers : List (String × Json) → Nat → Option (List (Yaml × Yaml))
  | [], _ => some []
  | (key, value) :: members, depth =>
    (rereadKey key).bind fun k =>
      (reread value depth).bind fun v =>
        (rereadMembers members depth).bind fun entries =>
          if ( entry? k entries).isSome then none else some ((.string k, v) :: entries)

end

-- ════════════════════════════════════════════════════════════════════════
-- The values that are read as they were
-- ════════════════════════════════════════════════════════════════════════

def keyCarries (key : String) : Bool :=
  key.toList.all (!isRawBreak ·) && decide ((Json.stringText key).length ≤ keyLimit)

mutual

/-- The strings are kept, the keys short and on one line, the nesting within bounds. -/
def carries : Json → Nat → Bool
  | .null, _ | .bool _, _ | .number _, _ => true
  | .string s, _ => kept false s.toList
  | .array _, 0 | .object _, 0 => false
  | .array items, depth + 1 => itemsCarry items depth
  | .object members, depth + 1 => membersCarry members depth

def itemsCarry : List Json → Nat → Bool
  | [], _ => true
  | item :: items, depth => carries item depth && itemsCarry items depth

def membersCarry : List (String × Json) → Nat → Bool
  | [], _ => true
  | (key, value) :: members, depth =>
    keyCarries key && carries value depth && membersCarry members depth

end

-- ════════════════════════════════════════════════════════════════════════
-- Plain scalars
-- ════════════════════════════════════════════════════════════════════════

/-- The decimal text of a double: digits, a sign, and a point or an exponent, which is
    read back as the same double. -/
structure DoubleText (double : UInt64 → List Char) (readDouble : List Char → Option UInt64) :
    Prop where
  chars : ∀ bits, isFinite bits = true →
    ∀ c ∈ double bits, c.isDigit = true ∨ c = '.' ∨ c = 'e' ∨ c = '+' ∨ c = '-'
  fraction : ∀ bits, isFinite bits = true → '.' ∈ double bits ∨ 'e' ∈ double bits
  read : ∀ bits, isFinite bits = true → readDouble (double bits) = some bits

/-- The first character of a text, and those behind a flow collection's node. -/
def Delimited (rest : List Char) : Prop := ∀ c ∈ rest.head?, isFlowIndicator c = true

theorem readNat_toDigits (n : Nat) : readNat (Nat.toDigits 10 n) = some n := by
  have hall : (Nat.toDigits 10 n).all Char.isDigit = true :=
    List.all_eq_true.mpr fun _ hc => Nat.isDigit_of_mem_toDigits (by decide) (by decide) hc
  have hcond : ¬ (Nat.toDigits 10 n = [] ∨ (Nat.toDigits 10 n).all Char.isDigit = false) := by
    rw [hall]
    exact not_or.mpr ⟨Nat.toDigits_ne_nil, nofun⟩
  rw [readNat, if_neg hcond, Nat.ofDigitChars_ten_toDigits]

theorem isDigit_of_mem_toDigits {n : Nat} {c : Char} (hc : c ∈ Nat.toDigits 10 n) :
    c.isDigit = true := Nat.isDigit_of_mem_toDigits (by decide) (by decide) hc

theorem readInt_of_digits {n : Nat} : readInt (Nat.toDigits 10 n) = some (n : Int) := by
  have hminus : ∀ rest, Nat.toDigits 10 n ≠ '-' :: rest := by
    intro rest h
    have hdigit := isDigit_of_mem_toDigits (n := n) (c := '-') (by rw [h]; exact List.mem_cons_self)
    exact absurd hdigit (by decide)
  unfold readInt
  split
  · next digits heq => exact absurd heq (hminus digits)
  · rw [readNat_toDigits]
    rfl

theorem intText_eq (n : Int) : (toString n).toList =
    if 0 ≤ n then Nat.toDigits 10 n.toNat else '-' :: Nat.toDigits 10 n.natAbs := by
  cases n with
  | ofNat m =>
    rw [if_pos (show (0 : Int) ≤ Int.ofNat m from Int.natCast_nonneg m)]
    exact Nat.toList_repr
  | negSucc m =>
    rw [if_neg (by omega)]
    show ("-" ++ Nat.repr (m + 1)).toList = _
    rw [String.toList_append, Nat.toList_repr]
    rfl

theorem readInt_toString (n : Int) : readInt (toString n).toList = some n := by
  rw [intText_eq]
  split_ifs with hn
  · rw [readInt_of_digits, Int.toNat_of_nonneg hn]
  · rw [readInt, readNat_toDigits, Option.map_some]
    have habs : -((n.natAbs : Nat) : Int) = n := by omega
    rw [habs]

-- ════════════════════════════════════════════════════════════════════════
-- The text of a JSON value
-- ════════════════════════════════════════════════════════════════════════

section

variable {double : UInt64 → List Char} {readDouble : List Char → Option UInt64}

/-- A word that a flow collection's node can be, and what it is read as. -/
structure Word (readDouble : List Char → Option UInt64) (word : List Char) (v : Yaml) : Prop where
  ne_nil : word ≠ []
  chars : ∀ c ∈ word, isFlowIndicator c = false ∧ c ≠ '"'
  read : plain readDouble word = v

theorem flowFree_of_all {word : List Char}
    (h : word.all (fun c => !isFlowIndicator c && c != '"') = true) :
    ∀ c ∈ word, isFlowIndicator c = false ∧ c ≠ '"' := fun c hc => by
  simpa using List.all_eq_true.mp h c hc

theorem Word.null : Word readDouble "null".toList .null :=
  ⟨by decide, flowFree_of_all (by decide), rfl⟩

theorem Word.bool (b : Bool) : Word readDouble (toString b).toList (.bool b) := by
  cases b with
  | false => exact ⟨by decide, flowFree_of_all (by decide), rfl⟩
  | true => exact ⟨by decide, flowFree_of_all (by decide), rfl⟩

/-- Digits, signs, points and exponents are neither brackets nor letters of a word. -/
theorem plain_of_number {word : List Char}
    (h : ∀ c ∈ word, c.isDigit = true ∨ c = '.' ∨ c = 'e' ∨ c = '+' ∨ c = '-') :
    (∀ c ∈ word, isFlowIndicator c = false ∧ c ≠ '"') ∧ word ≠ ['n', 'u', 'l', 'l'] ∧
      word ≠ ['t', 'r', 'u', 'e'] ∧ word ≠ ['f', 'a', 'l', 's', 'e'] := by
  refine ⟨fun c hc => ?_, ?_, ?_, ?_⟩
  · have hne : ∀ d : Char, d.isDigit = false → d ≠ '.' → d ≠ 'e' → d ≠ '+' → d ≠ '-' → c ≠ d := by
      rintro d hdigit hpoint hexp hplus hminus rfl
      obtain h | h | h | h | h := h c hc
      · rw [hdigit] at h
        cases h
      · exact hpoint h
      · exact hexp h
      · exact hplus h
      · exact hminus h
    refine ⟨?_, hne '"' (by decide) (by decide) (by decide) (by decide) (by decide)⟩
    rw [isFlowIndicator, decide_eq_false_iff_not]
    rintro (h | h | h | h | h) <;>
      exact hne _ (by decide) (by decide) (by decide) (by decide) (by decide) h
  · rintro rfl
    exact absurd (h 'n' (by decide)) (by decide)
  · rintro rfl
    exact absurd (h 't' (by decide)) (by decide)
  · rintro rfl
    exact absurd (h 'f' (by decide)) (by decide)

theorem Word.int (n : Int) : Word readDouble (toString n).toList (.number (.int n)) := by
  have hchars : ∀ c ∈ (toString n).toList,
      c.isDigit = true ∨ c = '.' ∨ c = 'e' ∨ c = '+' ∨ c = '-' := by
    intro c hc
    rw [intText_eq] at hc
    split_ifs at hc with hn
    · exact .inl (isDigit_of_mem_toDigits hc)
    · obtain rfl | hc := List.mem_cons.mp hc
      · exact .inr (.inr (.inr (.inr rfl)))
      · exact .inl (isDigit_of_mem_toDigits hc)
  obtain ⟨hword, hnull, htrue, hfalse⟩ := plain_of_number hchars
  refine ⟨?_, hword, ?_⟩
  · rw [intText_eq]
    split_ifs with hn
    · exact Nat.toDigits_ne_nil
    · exact List.cons_ne_nil _ _
  · rw [plain, if_neg hnull, if_neg htrue, if_neg hfalse, readInt_toString]

theorem readInt_eq_none {word : List Char} (h : '.' ∈ word ∨ 'e' ∈ word) : readInt word = none := by
  have hnat : ∀ {digits : List Char}, '.' ∈ digits ∨ 'e' ∈ digits → readNat digits = none := by
    intro digits h
    refine if_pos (.inr ?_)
    rw [← Bool.not_eq_true, List.all_eq_true]
    intro hall
    obtain h | h := h
    · exact absurd (hall _ h) (by decide)
    · exact absurd (hall _ h) (by decide)
  unfold readInt
  split
  · next digits =>
    have hdigits : '.' ∈ digits ∨ 'e' ∈ digits := by simpa using h
    rw [hnat hdigits]
    rfl
  · rw [hnat h]
    rfl

theorem Word.fraction (hdouble : DoubleText double readDouble) {bits : UInt64}
    (hfinite : isFinite bits = true) :
    Word readDouble (double bits) (.number (.double bits)) := by
  obtain ⟨hword, hnull, htrue, hfalse⟩ := plain_of_number (hdouble.chars bits hfinite)
  refine ⟨?_, hword, ?_⟩
  · intro hnil
    have hfraction := hdouble.fraction bits hfinite
    rw [hnil] at hfraction
    exact hfraction.elim List.not_mem_nil List.not_mem_nil
  · rw [plain, if_neg hnull, if_neg htrue, if_neg hfalse,
      readInt_eq_none (hdouble.fraction bits hfinite)]
    dsimp only
    rw [hdouble.read bits hfinite]

/-- A word ends where a delimiter stands. -/
theorem Word.takeWhile_eq {word rest : List Char} {v : Yaml} (h : Word readDouble word v)
    (hrest : Delimited rest) : (word ++ rest).takeWhile (!isFlowIndicator ·) = word := by
  rw [List.takeWhile_append_of_pos fun c hc => by rw [(h.chars c hc).1]; rfl]
  cases rest with
  | nil => exact List.append_nil word
  | cons c cs =>
    rw [List.takeWhile_cons_of_neg, List.append_nil]
    rw [hrest c rfl]
    exact nofun

theorem readNode_word {word rest : List Char} {v : Yaml} {fuel depth : Nat}
    (h : Word readDouble word v) (hrest : Delimited rest) :
    readNode readDouble (fuel + 1) depth (word ++ rest) = some (v, rest) := by
  have hchars : ∀ c ∈ word, (!isFlowIndicator c) = true := fun c hc => by rw [(h.chars c hc).1]; rfl
  have hdrop : (word ++ rest).dropWhile (!isFlowIndicator ·) = rest := by
    rw [List.dropWhile_append_of_pos hchars]
    cases rest with
    | nil => rfl
    | cons c cs =>
      rw [List.dropWhile_cons_of_neg]
      rw [hrest c rfl]
      exact nofun
  obtain ⟨c, cs, rfl⟩ := List.exists_cons_of_ne_nil h.ne_nil
  obtain ⟨hflow, hquote⟩ := h.chars c List.mem_cons_self
  have hopen : c ≠ '[' := by
    rintro rfl
    exact absurd hflow (by decide)
  have hbrace : c ≠ '{' := by
    rintro rfl
    exact absurd hflow (by decide)
  unfold readNode
  split
  · next heq => exact absurd (List.cons.inj heq).1 hquote
  · next heq => exact absurd (List.cons.inj heq).1 hopen
  · next heq => exact absurd (List.cons.inj heq).1 hbrace
  · rw [h.takeWhile_eq hrest, hdrop, h.read]

theorem stringText_append (s : String) (rest : List Char) :
    Json.stringText s ++ rest = '"' :: (s.toList.flatMap Json.escapeChar ++ '"' :: rest) := by
  rw [Json.stringText, List.append_assoc]
  rfl

theorem readNode_string {s : String} {rest : List Char} {fuel depth : Nat} :
    readNode readDouble (fuel + 1) depth (Json.stringText s ++ rest) =
      (reread (.string s) depth).map (·, rest) := by
  rw [stringText_append, readNode, scan_escaped, reread, Option.map_map, Option.map_map]
  rfl

theorem readKey_stringText {key : String} {rest : List Char} :
    readKey (Json.stringText key ++ ':' :: rest) = (rereadKey key).map (·, rest) := by
  have hquoted : (Json.stringText key ++ ':' :: rest).take
      ((Json.stringText key ++ ':' :: rest).length - (':' :: rest).length) = Json.stringText key := by
    rw [List.length_append, Nat.add_sub_cancel, List.take_left]
  rw [stringText_append] at hquoted ⊢
  rw [readKey, scan_escaped, rereadKey, Option.bind_map]
  cases hfold : foldText .empty false key.toList with
  | none =>
    rw [Option.map_none, ite_self]
    rfl
  | some out =>
    rw [Option.bind_some, Option.map_some, Function.comp_apply, hquoted]
    dsimp only
    split_ifs
    · rfl
    · rfl

-- Behind a node of a collection.

theorem delimited_nil : Delimited [] := nofun

theorem delimited_cons {c : Char} {rest : List Char} (h : isFlowIndicator c = true) :
    Delimited (c :: rest) := by
  intro d hd
  rw [← Option.some.inj hd]
  exact h

/-- No node starts with a closing bracket. -/
theorem text_head (hdouble : DoubleText double readDouble) {v : Json} (hv : v.isOrdered = true) :
    ∃ c cs, v.text double = c :: cs ∧ c ≠ ']' := by
  have hword : ∀ {word : List Char} {y : Yaml}, Word readDouble word y →
      ∃ c cs, word = c :: cs ∧ c ≠ ']' := by
    intro word y h
    obtain ⟨c, cs, rfl⟩ := List.exists_cons_of_ne_nil h.ne_nil
    refine ⟨c, cs, rfl, ?_⟩
    rintro rfl
    exact absurd (h.chars ']' List.mem_cons_self).1 (by decide)
  cases v with
  | null => exact hword Word.null
  | bool b => exact hword (Word.bool b)
  | number n =>
    cases n with
    | int n => exact hword (Word.int n)
    | double bits => exact hword (Word.fraction hdouble hv)
  | string s => exact ⟨_, _, rfl, by decide⟩
  | array items => exact ⟨_, _, rfl, by decide⟩
  | object members => exact ⟨_, _, rfl, by decide⟩

theorem readNode_items {c : Char} {cs : List Char} {fuel depth : Nat} (hc : c ≠ ']') :
    readNode readDouble (fuel + 1) (depth + 1) ('[' :: c :: cs) =
      (readItems readDouble fuel depth (c :: cs)).map fun out => (.sequence out.1, out.2) := by
  rw [readNode]
  rintro rest heq
  exact absurd (List.cons.inj heq).1 hc

theorem readNode_entries {c : Char} {cs : List Char} {fuel depth : Nat} (hc : c ≠ '}') :
    readNode readDouble (fuel + 1) (depth + 1) ('{' :: c :: cs) =
      (readEntries readDouble fuel depth (c :: cs)).map fun out => (.mapping out.1, out.2) := by
  rw [readNode]
  rintro rest heq
  exact absurd (List.cons.inj heq).1 hc

/-- The pieces of a collection start as the first of them does. -/
theorem intercalate_head (c : Char) (cs tail : List Char) (pieces : List (List Char)) :
    ∃ cs', [','].intercalate ((c :: cs) :: pieces) ++ tail = c :: cs' := by
  cases pieces with
  | nil => exact ⟨_, by rw [List.intercalate_singleton, List.cons_append]⟩
  | cons piece pieces =>
    exact ⟨_, by rw [List.intercalate_cons_cons, List.append_assoc, List.append_assoc,
      List.cons_append]⟩

mutual

/-- The reader, on the text of a value and whatever may stand behind it. -/
theorem readNode_text (hdouble : DoubleText double readDouble) :
    ∀ {v : Json} {fuel depth : Nat} {rest : List Char}, v.isOrdered = true →
      (v.text double).length < fuel → Delimited rest →
      readNode readDouble fuel depth (v.text double ++ rest) = (reread v depth).map (·, rest)
  | v, 0, _, _, _, hfuel, _ => absurd hfuel (Nat.not_lt_zero _)
  | .null, fuel + 1, depth, rest, _, _, hrest => readNode_word Word.null hrest
  | .bool b, fuel + 1, depth, rest, _, _, hrest => readNode_word (Word.bool b) hrest
  | .number (.int n), fuel + 1, depth, rest, _, _, hrest => readNode_word (Word.int n) hrest
  | .number (.double bits), fuel + 1, depth, rest, hv, _, hrest =>
    readNode_word (Word.fraction hdouble hv) hrest
  | .string s, fuel + 1, depth, rest, _, _, _ => readNode_string
  | .array items, fuel + 1, 0, rest, _, _, _ => rfl
  | .object members, fuel + 1, 0, rest, _, _, _ => rfl
  | .array [], fuel + 1, depth + 1, rest, _, _, _ => rfl
  | .object [], fuel + 1, depth + 1, rest, _, _, _ => rfl
  | .array (item :: items), fuel + 1, depth + 1, rest, hv, hfuel, _ => by
    rw [Json.text, List.length_append, List.length_cons, List.length_singleton] at hfuel
    have hitems : readItems readDouble fuel depth
        ([','].intercalate (Json.itemTexts double (item :: items)) ++ ']' :: rest) =
        (rereadItems (item :: items) depth).map (·, rest) :=
      readItems_text hdouble hv (by omega)
    obtain ⟨c, cs, htext, hc⟩ := text_head hdouble (v := item) (by
      rw [Json.isOrdered, Json.itemsOrdered, Bool.and_eq_true] at hv
      exact hv.1)
    have hopen : (Json.array (item :: items)).text double ++ rest =
        '[' :: ([','].intercalate (Json.itemTexts double (item :: items)) ++ ']' :: rest) := by
      rw [Json.text, List.append_assoc]
      rfl
    rw [Json.itemTexts, htext] at hopen hitems
    obtain ⟨cs', hcs'⟩ := intercalate_head c cs (']' :: rest) (Json.itemTexts double items)
    rw [hcs'] at hopen hitems
    rw [hopen, readNode_items hc, hitems, reread, Option.map_map, Option.map_map]
    rfl
  | .object ((key, value) :: members), fuel + 1, depth + 1, rest, hv, hfuel, _ => by
    rw [Json.text, List.length_append, List.length_cons, List.length_singleton] at hfuel
    rw [Json.isOrdered, Bool.and_eq_true] at hv
    have hentries : readEntries readDouble fuel depth
        ([','].intercalate (Json.memberTexts double ((key, value) :: members)) ++ '}' :: rest) =
        (rereadMembers ((key, value) :: members) depth).map (·, rest) :=
      readEntries_text hdouble hv.2 (by omega)
    have hopen : (Json.object ((key, value) :: members)).text double ++ rest =
        '{' :: ([','].intercalate (Json.memberTexts double ((key, value) :: members)) ++
          '}' :: rest) := by
      rw [Json.text, List.append_assoc]
      rfl
    rw [Json.memberTexts, stringText_append] at hopen hentries
    obtain ⟨cs', hcs'⟩ := intercalate_head '"'
      (key.toList.flatMap Json.escapeChar ++ '"' :: ':' :: value.text double) ('}' :: rest)
      (Json.memberTexts double members)
    rw [hcs'] at hopen hentries
    rw [hopen, readNode_entries (by decide), hentries, reread, Option.map_map, Option.map_map]
    rfl

theorem readItems_text (hdouble : DoubleText double readDouble) :
    ∀ {item : Json} {items : List Json} {fuel depth : Nat} {rest : List Char},
      Json.itemsOrdered (item :: items) = true →
      ([','].intercalate (Json.itemTexts double (item :: items))).length + 1 < fuel →
      readItems readDouble fuel depth
        ([','].intercalate (Json.itemTexts double (item :: items)) ++ ']' :: rest) =
        (rereadItems (item :: items) depth).map (·, rest)
  | item, items, 0, _, _, _, hfuel => absurd hfuel (Nat.not_lt_zero _)
  | item, [], fuel + 1, depth, rest, hitems, hfuel => by
    rw [Json.itemTexts, Json.itemTexts, List.intercalate_singleton] at hfuel ⊢
    rw [Json.itemsOrdered, Bool.and_eq_true] at hitems
    rw [readItems, readNode_text hdouble hitems.1 (by omega) (delimited_cons (by decide)),
      rereadItems, rereadItems]
    cases reread item depth with
    | none => rfl
    | some v => rfl
  | item, item' :: items, fuel + 1, depth, rest, hitems, hfuel => by
    rw [Json.itemsOrdered, Bool.and_eq_true] at hitems
    rw [Json.itemTexts, Json.itemTexts, List.intercalate_cons_cons, ← Json.itemTexts] at hfuel ⊢
    simp only [List.length_append, List.length_singleton] at hfuel
    rw [List.append_assoc, List.append_assoc, List.singleton_append, readItems,
      readNode_text hdouble hitems.1 (by omega) (delimited_cons (by decide)), rereadItems]
    cases reread item depth with
    | none => rfl
    | some v =>
      have hrest : readItems readDouble fuel depth
          ([','].intercalate (Json.itemTexts double (item' :: items)) ++ ']' :: rest) =
          (rereadItems (item' :: items) depth).map (·, rest) :=
        readItems_text hdouble hitems.2 (by omega)
      rw [Option.map_some, Option.bind_some]
      refine (congrArg (Option.map fun out => (v :: out.1, out.2)) hrest).trans ?_
      rw [Option.map_map, Option.map_map]
      rfl

theorem readEntries_text (hdouble : DoubleText double readDouble) :
    ∀ {key : String} {value : Json} {members : List (String × Json)} {fuel depth : Nat}
      {rest : List Char}, Json.membersOrdered ((key, value) :: members) = true →
      ([','].intercalate (Json.memberTexts double ((key, value) :: members))).length + 1 < fuel →
      readEntries readDouble fuel depth
        ([','].intercalate (Json.memberTexts double ((key, value) :: members)) ++ '}' :: rest) =
        (rereadMembers ((key, value) :: members) depth).map (·, rest)
  | key, value, members, 0, _, _, _, hfuel => absurd hfuel (Nat.not_lt_zero _)
  | key, value, [], fuel + 1, depth, rest, hmembers, hfuel => by
    rw [Json.memberTexts, Json.memberTexts, List.intercalate_singleton, List.length_append,
      List.length_cons] at hfuel
    rw [Json.memberTexts, Json.memberTexts, List.intercalate_singleton]
    rw [Json.membersOrdered, Bool.and_eq_true] at hmembers
    rw [List.append_assoc, List.cons_append, readEntries, readKey_stringText, rereadMembers]
    cases rereadKey key with
    | none => rfl
    | some k =>
      rw [Option.map_some, Option.bind_some]
      dsimp only
      rw [readNode_text hdouble hmembers.1 (by omega) (delimited_cons (by decide))]
      cases reread value depth with
      | none => rfl
      | some v => rfl
  | key, value, (key', value') :: members, fuel + 1, depth, rest, hmembers, hfuel => by
    rw [Json.membersOrdered, Bool.and_eq_true] at hmembers
    rw [Json.memberTexts, Json.memberTexts, List.intercalate_cons_cons, ← Json.memberTexts]
      at hfuel ⊢
    simp only [List.length_append, List.length_cons, List.length_nil] at hfuel
    rw [List.append_assoc, List.append_assoc, List.singleton_append, List.append_assoc,
      List.cons_append, readEntries, readKey_stringText, rereadMembers]
    cases rereadKey key with
    | none => rfl
    | some k =>
      rw [Option.map_some, Option.bind_some]
      dsimp only
      rw [readNode_text hdouble hmembers.1 (by omega) (delimited_cons (by decide))]
      cases reread value depth with
      | none => rfl
      | some v =>
        have hrest : readEntries readDouble fuel depth
            ([','].intercalate (Json.memberTexts double ((key', value') :: members)) ++
              '}' :: rest) = (rereadMembers ((key', value') :: members) depth).map (·, rest) :=
          readEntries_text hdouble hmembers.2 (by omega)
        rw [Option.map_some, Option.bind_some]
        refine (congrArg (Option.bind · fun out => if ( entry? k out.1).isSome then none
          else some ((Yaml.string k, v) :: out.1, out.2)) hrest).trans ?_
        cases rereadMembers ((key', value') :: members) depth with
        | none => rfl
        | some entries =>
          rw [Option.map_some, Option.bind_some, Option.bind_some]
          split_ifs
          · rfl
          · rfl

end

/-- The text of a JSON value, as one document. -/
theorem fromStr_text (hdouble : DoubleText double readDouble) {v : Json} (hv : v.isOrdered = true) :
    fromStr readDouble (v.text double) =
      if (v.text double).all isPrintable then reread v depthLimit else none := by
  have hread : readNode readDouble ((v.text double).length + 1) depthLimit (v.text double ++ []) =
      (reread v depthLimit).map (·, []) :=
    readNode_text hdouble hv (Nat.lt_succ_self _) delimited_nil
  rw [List.append_nil] at hread
  rw [fromStr]
  refine if_congr Iff.rfl ?_ rfl
  rw [hread]
  cases reread v depthLimit with
  | none => rfl
  | some _ => rfl

-- ════════════════════════════════════════════════════════════════════════
-- What is read as it was
-- ════════════════════════════════════════════════════════════════════════

theorem map_ofList_eq_some {α : Type} {f : String → α} (hf : Function.Injective f)
    {out : Option (List Char)} {s : String} :
    (out.map fun chars => f (String.ofList chars)) = some (f s) ↔ out = some s.toList := by
  cases out with
  | none => exact ⟨nofun, nofun⟩
  | some chars =>
    rw [Option.map_some, Option.some.injEq, hf.eq_iff, Option.some.injEq]
    constructor
    · rintro rfl
      exact String.toList_ofList.symm
    · rintro rfl
      exact String.ofList_toList

theorem rereadKey_eq_iff {key : String} : rereadKey key = some key ↔ keyCarries key = true := by
  have hbreak : (Json.stringText key).any isBreak = key.toList.any isRawBreak := by
    rw [Json.stringText, List.any_append, List.any_cons, List.any_flatMap]
    simp only [any_isBreak_escapeChar]
    rw [show isBreak '"' = false from by decide, Bool.false_or, List.any_cons, List.any_nil,
      show isBreak '"' = false from by decide, Bool.or_false, Bool.or_false]
  rw [rereadKey, hbreak, keyCarries, Bool.and_eq_true, decide_eq_true_eq]
  by_cases hany : key.toList.any isRawBreak = true
  · rw [if_pos (.inl hany)]
    refine iff_of_false (fun h => by cases h) fun h => ?_
    obtain ⟨c, hc, hraw⟩ := List.any_eq_true.mp hany
    have hnot := List.all_eq_true.mp h.1 c hc
    rw [hraw] at hnot
    cases hnot
  · rw [Bool.not_eq_true] at hany
    have hall : ∀ c ∈ key.toList, isRawBreak c = false := fun c hc => by
      rw [← Bool.not_eq_true]
      intro hraw
      rw [List.any_eq_false] at hany
      exact hany c hc hraw
    have hsame : foldText .empty false key.toList = some key.toList :=
      foldText_eq_self.mpr (kept_of_forall hall)
    have hline : key.toList.all (!isRawBreak ·) = true :=
      List.all_eq_true.mpr fun c hc => by rw [hall c hc]; rfl
    rw [hany, hsame, Option.map_some, String.ofList_toList, and_iff_right hline]
    by_cases hlong : keyLimit < (Json.stringText key).length
    · rw [if_pos (.inr hlong)]
      exact iff_of_false (fun h => by cases h) (Nat.not_le.mpr hlong)
    · rw [if_neg (not_or.mpr ⟨Bool.false_ne_true, hlong⟩)]
      exact iff_of_true rfl (Nat.not_lt.mp hlong)

/-- An entry of a key is one of the members of that key. -/
theorem entry?_ofMembers {key : String} {members : List (String × Json)}
    (h : ∀ k ∈ members.map Prod.fst, key < k) : entry? key (ofMembers members) = none := by
  induction members with
  | nil => rfl
  | cons m members ih =>
    obtain ⟨k, value⟩ := m
    have hlt : key < k := h k List.mem_cons_self
    rw [ofMembers, entry?, if_neg (String.ne_of_lt hlt).symm]
    exact ih fun k' hk' => h k' (List.mem_cons_of_mem _ hk')

mutual

/-- The value that is read is the value itself if and only if it is one that carries. -/
theorem reread_eq_iff : ∀ {v : Json} {depth : Nat}, v.isOrdered = true →
    (reread v depth = some (ofJson v) ↔ carries v depth = true)
  | .null, _, _ | .bool _, _, _ | .number _, _, _ => by
    rw [reread, ofJson, carries]
    exact iff_of_true rfl rfl
  | .string s, _, _ => by
    rw [reread, ofJson, carries, map_ofList_eq_some fun _ _ h => Yaml.string.inj h, foldText_eq_self]
  | .array _, 0, _ | .object _, 0, _ => by
    rw [reread, carries]
    exact iff_of_false nofun nofun
  | .array items, depth + 1, hv => by
    rw [reread, ofJson, carries, ← rereadItems_eq_iff hv]
    exact (Option.map_injective fun _ _ h => Yaml.sequence.inj h).eq_iff (b := some (ofItems items))
  | .object members, depth + 1, hv => by
    rw [Json.isOrdered, Bool.and_eq_true, decide_eq_true_eq] at hv
    rw [reread, ofJson, carries, ← rereadMembers_eq_iff hv.1 hv.2]
    exact (Option.map_injective fun _ _ h => Yaml.mapping.inj h).eq_iff
      (b := some (ofMembers members))

theorem rereadItems_eq_iff : ∀ {items : List Json} {depth : Nat}, Json.itemsOrdered items = true →
    (rereadItems items depth = some (ofItems items) ↔ itemsCarry items depth = true)
  | [], _, _ => iff_of_true rfl rfl
  | item :: items, depth, h => by
    rw [Json.itemsOrdered, Bool.and_eq_true] at h
    rw [rereadItems, ofItems, itemsCarry, Bool.and_eq_true, ← reread_eq_iff h.1,
      ← rereadItems_eq_iff h.2]
    cases reread item depth with
    | none => exact iff_of_false nofun fun h => nomatch h.1
    | some y =>
      cases rereadItems items depth with
      | none => exact iff_of_false nofun fun h => nomatch h.2
      | some ys => simp

theorem rereadMembers_eq_iff : ∀ {members : List (String × Json)} {depth : Nat},
    (members.map Prod.fst).Pairwise (· < ·) → Json.membersOrdered members = true →
    (rereadMembers members depth = some (ofMembers members) ↔ membersCarry members depth = true)
  | [], _, _, _ => iff_of_true rfl rfl
  | (key, value) :: members, depth, hkeys, h => by
    rw [Json.membersOrdered, Bool.and_eq_true] at h
    rw [List.map_cons, List.pairwise_cons] at hkeys
    rw [rereadMembers, ofMembers, membersCarry, Bool.and_eq_true, Bool.and_eq_true,
      ← rereadKey_eq_iff, ← reread_eq_iff h.1, ← rereadMembers_eq_iff hkeys.2 h.2]
    constructor
    · intro hread
      obtain ⟨k, hk, hread⟩ := Option.bind_eq_some_iff.mp hread
      obtain ⟨y, hy, hread⟩ := Option.bind_eq_some_iff.mp hread
      obtain ⟨entries, hentries, hread⟩ := Option.bind_eq_some_iff.mp hread
      split_ifs at hread
      cases hread
      exact ⟨⟨hk, hy⟩, hentries⟩
    · rintro ⟨⟨hk, hy⟩, hentries⟩
      rw [hk, hy, hentries]
      simp only [Option.bind_some]
      rw [entry?_ofMembers hkeys.1]
      rfl

end

/-- A JSON value goes through its text and back as YAML exactly if the text is printable
    and the value is one that carries. -/
theorem fromStr_text_eq_iff (hdouble : DoubleText double readDouble) {v : Json}
    (hv : v.isOrdered = true) :
    fromStr readDouble (v.text double) = some (ofJson v) ↔
      (v.text double).all isPrintable = true ∧ carries v depthLimit = true := by
  rw [fromStr_text hdouble hv, ← reread_eq_iff hv]
  split_ifs with hprintable
  · exact (and_iff_right hprintable).symm
  · exact iff_of_false nofun fun h => hprintable h.1

/-- What an array is read as, if anything, is a sequence. -/
theorem fromStr_array (hdouble : DoubleText double readDouble) {items : List Json}
    (hv : (Json.array items).isOrdered = true) {y : Yaml}
    (h : fromStr readDouble ((Json.array items).text double) = some y) :
    ∃ ys, y = .sequence ys := by
  rw [fromStr_text hdouble hv, depthLimit, reread] at h
  split_ifs at h
  obtain ⟨ys, -, rfl⟩ := Option.map_eq_some_iff.mp h
  exact ⟨ys, rfl⟩

end

end Botwork.Foundations.Yaml
