import Botwork.Foundations.JsonText

/-!
# Double-quoted scalars

How a YAML scanner reads the text between double quotes: escapes are replaced,
blanks around a line break are swallowed and line breaks fold.  NEL, LS and PS are
line breaks; NEL is read as a line feed, LS and PS stand for themselves.  Of a JSON
string everything else arrives as it was.

## Main definitions

- `scan` — the scanner, behind the opening quote
- `foldText` — its result on the text of a JSON string
- `kept` — the texts that arrive as they were
-/

namespace Botwork.Foundations.Yaml

-- ════════════════════════════════════════════════════════════════════════
-- Characters
-- ════════════════════════════════════════════════════════════════════════

/-- The characters a reader lets through at all. -/
def isPrintable (c : Char) : Bool :=
  c = '\t' ∨ c = '\n' ∨ c = '\r' ∨ (0x20 ≤ c.toNat ∧ c.toNat ≤ 0x7E) ∨ c = '\x85' ∨
    (0xA0 ≤ c.toNat ∧ c.toNat ≤ 0xD7FF) ∨ (0xE000 ≤ c.toNat ∧ c.toNat ≤ 0xFFFD) ∨
    0x10000 ≤ c.toNat

def isBlank (c : Char) : Bool := c = ' ' ∨ c = '\t'

/-- Line breaks that are kept: the line and the paragraph separator. -/
def isSeparator (c : Char) : Bool := c = '\u2028' ∨ c = '\u2029'

/-- Line breaks; of the pair CR LF, which is one, no text here holds any. -/
def isBreak (c : Char) : Bool := c = '\r' ∨ c = '\n' ∨ c = '\x85' ∨ isSeparator c

/-- What a line break is read as. -/
def breakText (c : Char) : Char := if isSeparator c then c else '\n'

/-- Three dots or hyphens with a blank, a break or the end behind them. -/
def isMarker (blankz : Char → Bool) : List Char → Bool
  | a :: b :: c :: rest =>
    ([a, b, c] = ['-', '-', '-'] ∨ [a, b, c] = ['.', '.', '.']) ∧ rest.head?.all blankz
  | _ => false

def hexValue (c : Char) : Option Nat :=
  if '0' ≤ c ∧ c ≤ '9' then some (c.toNat - '0'.toNat)
  else if 'a' ≤ c ∧ c ≤ 'f' then some (c.toNat - 'a'.toNat + 10)
  else if 'A' ≤ c ∧ c ≤ 'F' then some (c.toNat - 'A'.toNat + 10)
  else none

/-- The character of four hexadecimal digits; a surrogate is none. -/
def unicodeEscape (a b c d : Char) : Option Char := do
  let value := (((← hexValue a) * 16 + (← hexValue b)) * 16 + (← hexValue c)) * 16 + (← hexValue d)
  if 0xD800 ≤ value ∧ value ≤ 0xDFFF then none else some (Char.ofNat value)

/-- The escapes of one character. -/
def shortEscape : Char → Option Char
  | '0' => some '\x00' | 'a' => some '\x07' | 'b' => some '\x08' | 't' => some '\t'
  | '\t' => some '\t' | 'n' => some '\n' | 'v' => some '\x0b' | 'f' => some '\x0c'
  | 'r' => some '\r' | 'e' => some '\x1b' | ' ' => some ' ' | '"' => some '"'
  | '/' => some '/' | '\\' => some '\\' | 'N' => some '\x85' | '_' => some '\xa0'
  | 'L' => some '\u2028' | 'P' => some '\u2029'
  | _ => none

-- ════════════════════════════════════════════════════════════════════════
-- Blanks and breaks
-- ════════════════════════════════════════════════════════════════════════

/-- The blanks and line breaks since the last other character. -/
structure Gap where
  whitespaces : List Char
  leadingBreak : Option Char
  trailingBreaks : List Char

namespace Gap

def empty : Gap := ⟨[], none, []⟩

/-- A blank behind a line break is swallowed. -/
def blank (g : Gap) (c : Char) : Gap :=
  match g.leadingBreak with
  | none => { g with whitespaces := g.whitespaces ++ [c] }
  | some _ => g

/-- The first line break swallows the blanks before it. -/
def line (g : Gap) (c : Char) : Gap :=
  match g.leadingBreak with
  | none => ⟨[], some (breakText c), []⟩
  | some _ => { g with trailingBreaks := g.trailingBreaks ++ [breakText c] }

/-- What the gap adds to the scalar: one line feed is a space, the first of several
    is dropped. -/
def fold (g : Gap) : List Char :=
  match g.leadingBreak with
  | none => g.whitespaces
  | some d =>
    if d = '\n' then (if g.trailingBreaks = [] then [' '] else g.trailingBreaks)
    else d :: g.trailingBreaks

/-- What is held back in the gap. -/
def pending (g : Gap) : List Char :=
  match g.leadingBreak with
  | none => g.whitespaces
  | some d => d :: g.trailingBreaks

end Gap

/-- The scalar up to the closing quote, and the text behind it. -/
def scan (g : Gap) (lineStart : Bool) : List Char → Option (List Char × List Char)
  | [] => none
  | c :: cs =>
    if c = '"' then some (g.fold, cs)
    else if c = '\\' then
      match cs with
      | 'u' :: c₁ :: c₂ :: c₃ :: c₄ :: cs =>
        (unicodeEscape c₁ c₂ c₃ c₄).bind fun c =>
          (scan .empty false cs).map fun out => (g.fold ++ c :: out.1, out.2)
      | e :: cs =>
        (shortEscape e).bind fun c =>
          (scan .empty false cs).map fun out => (g.fold ++ c :: out.1, out.2)
      | [] => none
    else if isBlank c then scan (g.blank c) false cs
    else if isBreak c then scan (g.line c) true cs
    -- A document marker at the start of a line ends the document within the scalar.
    else if lineStart && isMarker (fun d => isBlank d || isBreak d) (c :: cs) then none
    else (scan .empty false cs).map fun out => (g.fold ++ c :: out.1, out.2)

-- ════════════════════════════════════════════════════════════════════════
-- The text of a JSON string
-- ════════════════════════════════════════════════════════════════════════

/-- The line breaks that a JSON string does not escape. -/
def isRawBreak (c : Char) : Bool := c = '\x85' ∨ isSeparator c

/-- The rest of a JSON string, as it is written, starts with a marker. -/
def isRawMarker (s : List Char) : Bool :=
  isMarker (fun d => isBlank d || isBreak d) (s.flatMap Json.escapeChar ++ ['"'])

/-- What the scanner makes of a JSON string. -/
def foldText (g : Gap) (lineStart : Bool) : List Char → Option (List Char)
  | [] => some g.fold
  | c :: cs =>
    if c = ' ' then foldText (g.blank c) false cs
    else if isRawBreak c then foldText (g.line c) true cs
    else if lineStart && isRawMarker (c :: cs) then none
    else (foldText .empty false cs).map fun out => g.fold ++ c :: out

/-- The text holds no NEL, and no separator stands next to a space or in front of a
    document marker. -/
def kept (afterSpace : Bool) : List Char → Bool
  | [] => true
  | c :: cs =>
    (if isSeparator c then !afterSpace && decide (cs.head? ≠ some ' ') && !isRawMarker cs
      else decide (c ≠ '\x85')) && kept (decide (c = ' ')) cs

-- ════════════════════════════════════════════════════════════════════════
-- Scanning an escaped string
-- ════════════════════════════════════════════════════════════════════════

theorem hexValue_hexDigit {n : Nat} (h : n < 16) : hexValue (Json.hexDigit n) = some n := by
  have hall : ∀ m, m < 16 → hexValue (Json.hexDigit m) = some m := by decide
  exact hall n h

theorem unicodeEscape_control {c : Char} (h : c.toNat < 32) :
    unicodeEscape '0' '0' (Json.hexDigit (c.toNat / 16)) (Json.hexDigit (c.toNat % 16)) = some c := by
  have hhigh := hexValue_hexDigit (n := c.toNat / 16) (by omega)
  have hlow := hexValue_hexDigit (n := c.toNat % 16) (by omega)
  have hzero : hexValue '0' = some 0 := by decide
  have hvalue : ((0 * 16 + 0) * 16 + c.toNat / 16) * 16 + c.toNat % 16 = c.toNat := by omega
  simp only [unicodeEscape, hzero, hhigh, hlow, Option.bind_eq_bind, Option.bind_some, hvalue]
  rw [if_neg (by omega), Char.ofNat_toNat]

variable {g : Gap} {lineStart : Bool}

theorem isBlank_of_ge {c : Char} (h : 32 ≤ c.toNat) : isBlank c = decide (c = ' ') := by
  have htab : c ≠ '\t' := by
    rintro rfl
    exact absurd h (by decide)
  rw [isBlank]
  simp only [htab, or_false]

theorem isBreak_of_ge {c : Char} (h : 32 ≤ c.toNat) : isBreak c = isRawBreak c := by
  have hcr : c ≠ '\r' := by
    rintro rfl
    exact absurd h (by decide)
  have hlf : c ≠ '\n' := by
    rintro rfl
    exact absurd h (by decide)
  rw [isBreak, isRawBreak]
  simp only [hcr, hlf, false_or]

/-- How a character of a string is written: as an escape, or as itself. -/
theorem escapeChar_cases (c : Char) :
    (∃ e, Json.escapeChar c = ['\\', e] ∧ e ≠ 'u' ∧ shortEscape e = some c ∧
        (c = '"' ∨ c = '\\' ∨ c.toNat < 32)) ∨
      (Json.escapeChar c = ['\\', 'u', '0', '0', Json.hexDigit (c.toNat / 16),
        Json.hexDigit (c.toNat % 16)] ∧ c.toNat < 32) ∨
      (Json.escapeChar c = [c] ∧ 32 ≤ c.toNat ∧ c ≠ '"' ∧ c ≠ '\\') := by
  rw [Json.escapeChar]
  by_cases h₁ : c = '"'
  · rw [if_pos h₁]
    exact .inl ⟨'"', rfl, by decide, by rw [h₁]; rfl, .inl h₁⟩
  rw [if_neg h₁]
  by_cases h₂ : c = '\\'
  · rw [if_pos h₂]
    exact .inl ⟨'\\', rfl, by decide, by rw [h₂]; rfl, .inr (.inl h₂)⟩
  rw [if_neg h₂]
  by_cases h₃ : c = '\x08'
  · rw [if_pos h₃]
    exact .inl ⟨'b', rfl, by decide, by rw [h₃]; rfl, .inr (.inr (by rw [h₃]; decide))⟩
  rw [if_neg h₃]
  by_cases h₄ : c = '\x09'
  · rw [if_pos h₄]
    exact .inl ⟨'t', rfl, by decide, by rw [h₄]; rfl, .inr (.inr (by rw [h₄]; decide))⟩
  rw [if_neg h₄]
  by_cases h₅ : c = '\x0a'
  · rw [if_pos h₅]
    exact .inl ⟨'n', rfl, by decide, by rw [h₅]; rfl, .inr (.inr (by rw [h₅]; decide))⟩
  rw [if_neg h₅]
  by_cases h₆ : c = '\x0c'
  · rw [if_pos h₆]
    exact .inl ⟨'f', rfl, by decide, by rw [h₆]; rfl, .inr (.inr (by rw [h₆]; decide))⟩
  rw [if_neg h₆]
  by_cases h₇ : c = '\x0d'
  · rw [if_pos h₇]
    exact .inl ⟨'r', rfl, by decide, by rw [h₇]; rfl, .inr (.inr (by rw [h₇]; decide))⟩
  rw [if_neg h₇]
  by_cases h₈ : c.toNat < 32
  · rw [if_pos h₈]
    exact .inr (.inl ⟨rfl, h₈⟩)
  · rw [if_neg h₈]
    exact .inr (.inr ⟨rfl, by omega, h₁, h₂⟩)

theorem head_of_isMarker {blankz : Char → Bool} {c : Char} {cs : List Char}
    (h : isMarker blankz (c :: cs) = true) : c = '-' ∨ c = '.' := by
  match cs, h with
  | b :: d :: rest, h =>
    rw [isMarker, decide_eq_true_eq] at h
    obtain h | h := h.1
    · exact .inl (List.cons.inj h).1
    · exact .inr (List.cons.inj h).1

theorem head_of_isRawMarker {c : Char} {cs : List Char} (h : isRawMarker (c :: cs) = true) :
    c = '-' ∨ c = '.' := by
  rw [isRawMarker, List.flatMap_cons] at h
  obtain ⟨e, hc, -⟩ | ⟨hc, -⟩ | ⟨hc, -⟩ := escapeChar_cases c
  · rw [hc] at h
    exact absurd (head_of_isMarker h) (by decide)
  · rw [hc] at h
    exact absurd (head_of_isMarker h) (by decide)
  · rw [hc] at h
    exact head_of_isMarker h

/-- A marker is recognised within the quotes. -/
theorem isMarker_quoted {blankz : Char → Bool} (hquote : blankz '"' = false) (c : Char)
    (text rest : List Char) :
    isMarker blankz (c :: (text ++ '"' :: rest)) = isMarker blankz (c :: (text ++ ['"'])) := by
  match text with
  | [] => cases rest <;> simp [isMarker]
  | [a] => cases rest <;> simp [isMarker]
  | [a, b] => simp [isMarker, hquote]
  | a :: b :: d :: text => simp [isMarker]

theorem isRawBreak_escaped {c : Char} (h : c = '"' ∨ c = '\\' ∨ c.toNat < 32) :
    isRawBreak c = false := by
  rw [isRawBreak, isSeparator, decide_eq_false_iff_not]
  simp only [decide_eq_true_eq]
  rintro (rfl | rfl | rfl) <;> exact absurd h (by decide)

/-- What is written for a character has a break if and only if it is one. -/
theorem any_isBreak_escapeChar (c : Char) : (Json.escapeChar c).any isBreak = isRawBreak c := by
  obtain ⟨e, hc, -, hshort, hesc⟩ | ⟨hc, hlt⟩ | ⟨hc, hge, -, -⟩ := escapeChar_cases c
  · have he : isBreak e = false := by
      rw [isBreak, isSeparator, decide_eq_false_iff_not]
      simp only [decide_eq_true_eq]
      rintro (rfl | rfl | rfl | rfl | rfl) <;> cases hshort
    rw [hc, isRawBreak_escaped hesc, List.any_cons, List.any_cons, he]
    rfl
  · have hdigit : ∀ n, n < 16 → isBreak (Json.hexDigit n) = false := by decide
    rw [hc, isRawBreak_escaped (.inr (.inr hlt))]
    simp only [List.any_cons, List.any_nil, hdigit (c.toNat / 16) (by omega),
      hdigit (c.toNat % 16) (by omega)]
    rfl
  · rw [hc, List.any_cons, List.any_nil, Bool.or_false, isBreak_of_ge hge]

/-- A character that is escaped is neither a space nor a break. -/
theorem foldText_escaped {c : Char} {cs : List Char} (h : c = '"' ∨ c = '\\' ∨ c.toNat < 32) :
    foldText g lineStart (c :: cs) =
      (foldText .empty false cs).map fun out => g.fold ++ c :: out := by
  have hspace : c ≠ ' ' := by
    rintro rfl
    exact absurd h (by decide)
  have hbreak := isRawBreak_escaped h
  have hmarker : isRawMarker (c :: cs) = false := by
    rw [← Bool.not_eq_true]
    intro hm
    obtain rfl | rfl := head_of_isRawMarker hm <;> exact absurd h (by decide)
  rw [foldText, if_neg hspace, hbreak, if_neg nofun, hmarker, Bool.and_false, if_neg nofun]

theorem scan_quote {rest : List Char} : scan g lineStart ('"' :: rest) = some (g.fold, rest) := by
  rw [scan.eq_def]
  rfl

theorem scan_short {e c : Char} {cs : List Char} (hu : e ≠ 'u') (h : shortEscape e = some c) :
    scan g lineStart ('\\' :: e :: cs) =
      (scan .empty false cs).map fun out => (g.fold ++ c :: out.1, out.2) := by
  rw [scan.eq_def]
  dsimp only
  rw [if_neg (by decide), if_pos rfl]
  split
  · next heq => exact absurd (List.cons.inj heq).1 hu
  · next heq =>
    cases heq
    rw [h]
    rfl
  · next heq => cases heq

theorem scan_unicode {c₁ c₂ c₃ c₄ c : Char} {cs : List Char}
    (h : unicodeEscape c₁ c₂ c₃ c₄ = some c) :
    scan g lineStart ('\\' :: 'u' :: c₁ :: c₂ :: c₃ :: c₄ :: cs) =
      (scan .empty false cs).map fun out => (g.fold ++ c :: out.1, out.2) := by
  rw [scan.eq_def]
  dsimp only
  rw [if_neg (by decide), if_pos rfl]
  exact (congrArg (Option.bind · _) h).trans rfl

theorem scan_other {c : Char} {cs : List Char} (hquote : c ≠ '"') (hslash : c ≠ '\\') :
    scan g lineStart (c :: cs) =
      if isBlank c then scan (g.blank c) false cs
      else if isBreak c then scan (g.line c) true cs
      else if lineStart && isMarker (fun d => isBlank d || isBreak d) (c :: cs) then none
      else (scan .empty false cs).map fun out => (g.fold ++ c :: out.1, out.2) := by
  rw [scan.eq_def]
  dsimp only
  rw [if_neg hquote, if_neg hslash]

/-- The scanner reads a JSON string up to its quote. -/
theorem scan_escaped (s rest : List Char) (g : Gap) (lineStart : Bool) :
    scan g lineStart (s.flatMap Json.escapeChar ++ '"' :: rest) =
      (foldText g lineStart s).map fun out => (out, rest) := by
  induction s generalizing g lineStart with
  | nil => exact scan_quote
  | cons c cs ih =>
    rw [List.flatMap_cons, List.append_assoc]
    obtain ⟨e, hc, hu, hshort, hesc⟩ | ⟨hc, hlt⟩ | ⟨hc, hge, hquote, hslash⟩ := escapeChar_cases c
    · rw [hc, foldText_escaped hesc, Option.map_map]
      refine (scan_short hu hshort).trans ?_
      rw [List.append_eq, List.nil_append, ih, Option.map_map]
      rfl
    · rw [hc, foldText_escaped (.inr (.inr hlt)), Option.map_map]
      refine (scan_unicode (unicodeEscape_control hlt)).trans ?_
      rw [List.append_eq, List.nil_append, ih, Option.map_map]
      rfl
    · have hmarker : isMarker (fun d => isBlank d || isBreak d)
          (c :: (cs.flatMap Json.escapeChar ++ '"' :: rest)) = isRawMarker (c :: cs) := by
        rw [isMarker_quoted (by decide), isRawMarker, List.flatMap_cons, hc]
        rfl
      rw [hc, List.singleton_append, scan_other hquote hslash, isBlank_of_ge hge,
        isBreak_of_ge hge, hmarker, foldText]
      by_cases hspace : c = ' '
      · rw [if_pos (decide_eq_true hspace), if_pos hspace, ih]
      · rw [if_neg (by rw [decide_eq_false hspace]; exact nofun), if_neg hspace]
        split_ifs with hbreak hm
        · exact ih _ _
        · rfl
        · rw [ih, Option.map_map, Option.map_map]
          rfl

-- ════════════════════════════════════════════════════════════════════════
-- What arrives as it was
-- ════════════════════════════════════════════════════════════════════════

theorem Gap.length_fold (g : Gap) : g.fold.length ≤ g.pending.length := by
  obtain ⟨whitespaces, leadingBreak, trailingBreaks⟩ := g
  cases leadingBreak with
  | none => exact le_rfl
  | some d =>
    rw [Gap.fold, Gap.pending]
    dsimp only
    split_ifs with hlf htrailing
    · rw [htrailing]
      exact le_rfl
    · exact Nat.le_succ _
    · exact le_rfl

theorem Gap.length_blank (g : Gap) (c : Char) :
    (g.blank c).pending.length ≤ g.pending.length + 1 := by
  obtain ⟨whitespaces, leadingBreak, trailingBreaks⟩ := g
  cases leadingBreak with
  | none => exact (List.length_append).le
  | some d => exact Nat.le_succ _

theorem Gap.length_line (g : Gap) (c : Char) :
    (g.line c).pending.length ≤ g.pending.length + 1 := by
  obtain ⟨whitespaces, leadingBreak, trailingBreaks⟩ := g
  cases leadingBreak with
  | none => exact Nat.succ_le_succ (Nat.zero_le _)
  | some d => exact Nat.succ_le_succ (List.length_append).le

/-- Folding makes no text longer. -/
theorem length_foldText {s out : List Char} (h : foldText g lineStart s = some out) :
    out.length ≤ g.pending.length + s.length := by
  induction s generalizing g lineStart out with
  | nil =>
    cases h
    exact g.length_fold
  | cons c cs ih =>
    rw [foldText] at h
    rw [List.length_cons]
    split_ifs at h with hspace hbreak hmarker
    · have hout := ih h
      have hgap := g.length_blank c
      omega
    · have hout := ih h
      have hgap := g.length_line c
      omega
    · obtain ⟨tail, htail, rfl⟩ := Option.map_eq_some_iff.mp h
      have hout : tail.length ≤ cs.length := by simpa [Gap.empty, Gap.pending] using ih htail
      have hgap := g.length_fold
      rw [List.length_append, List.length_cons]
      omega

theorem breakText_ne_nel (c : Char) : breakText c ≠ '\x85' := by
  rw [breakText]
  split_ifs with h
  · rintro rfl
    exact absurd h (by decide)
  · decide

theorem Gap.nel_notMem_fold (hg : '\x85' ∉ g.pending) : '\x85' ∉ g.fold := by
  obtain ⟨whitespaces, leadingBreak, trailingBreaks⟩ := g
  cases leadingBreak with
  | none => exact hg
  | some d =>
    rw [Gap.pending, List.mem_cons, not_or] at hg
    rw [Gap.fold]
    dsimp only
    split_ifs with hlf htrailing
    · decide
    · exact hg.2
    · rw [List.mem_cons, not_or]
      exact hg

theorem Gap.nel_notMem_blank (hg : '\x85' ∉ g.pending) : '\x85' ∉ (g.blank ' ').pending := by
  obtain ⟨whitespaces, leadingBreak, trailingBreaks⟩ := g
  cases leadingBreak with
  | none => exact fun hmem => (List.mem_append.mp hmem).elim hg (by decide)
  | some d => exact hg

theorem Gap.nel_notMem_line (hg : '\x85' ∉ g.pending) (c : Char) :
    '\x85' ∉ (g.line c).pending := by
  have hc : ∀ {b : Char}, b ∈ [breakText c] → '\x85' ≠ b := by
    rintro b hb rfl
    exact breakText_ne_nel c (List.mem_singleton.mp hb).symm
  obtain ⟨whitespaces, leadingBreak, trailingBreaks⟩ := g
  cases leadingBreak with
  | none => exact fun hmem => hc hmem rfl
  | some d =>
    rw [Gap.pending, List.mem_cons, not_or] at hg
    intro hmem
    obtain hmem | hmem := List.mem_cons.mp hmem
    · exact hg.1 hmem
    · exact (List.mem_append.mp hmem).elim hg.2 fun hmem => hc hmem rfl

/-- No NEL is left. -/
theorem nel_notMem_foldText {s out : List Char} (hg : '\x85' ∉ g.pending)
    (h : foldText g lineStart s = some out) : '\x85' ∉ out := by
  induction s generalizing g lineStart out with
  | nil =>
    cases h
    exact Gap.nel_notMem_fold hg
  | cons c cs ih =>
    rw [foldText] at h
    split_ifs at h with hspace hbreak hmarker
    · rw [hspace] at h
      exact ih (Gap.nel_notMem_blank hg) h
    · exact ih (Gap.nel_notMem_line hg c) h
    · obtain ⟨tail, htail, rfl⟩ := Option.map_eq_some_iff.mp h
      have hrest : '\x85' ∉ tail := ih (by exact List.not_mem_nil) htail
      have hc : '\x85' ≠ c := by
        rintro rfl
        exact hbreak (by decide)
      intro hmem
      obtain hmem | hmem := List.mem_append.mp hmem
      · exact Gap.nel_notMem_fold hg hmem
      · exact (List.mem_cons.mp hmem).elim hc hrest

/-- A gap from which nothing is lost yet. -/
structure Gap.Clean (g : Gap) : Prop where
  leading : g.leadingBreak ≠ some '\n'
  nel : '\x85' ∉ g.pending

def Gap.afterBreak (g : Gap) : Bool := g.leadingBreak.isSome

def Gap.afterSpace (g : Gap) : Bool := g.leadingBreak.isNone && !g.whitespaces.isEmpty

theorem Gap.Clean.empty : Gap.empty.Clean := ⟨nofun, by exact List.not_mem_nil⟩

theorem Gap.Clean.fold_eq (h : g.Clean) : g.fold = g.pending := by
  obtain ⟨whitespaces, leadingBreak, trailingBreaks⟩ := g
  cases leadingBreak with
  | none => rfl
  | some d =>
    have hlf : d ≠ '\n' := fun hd => h.leading (congrArg some hd)
    exact if_neg hlf

/-- A space where no break came before is kept. -/
theorem Gap.Clean.blank (h : g.Clean) (hbreak : g.leadingBreak = none) :
    (g.blank ' ').Clean ∧ (g.blank ' ').pending = g.pending ++ [' '] ∧
      (g.blank ' ').afterBreak = false ∧ (g.blank ' ').afterSpace = true := by
  obtain ⟨whitespaces, leadingBreak, trailingBreaks⟩ := g
  cases hbreak
  refine ⟨⟨nofun, ?_⟩, rfl, rfl, ?_⟩
  · exact fun hmem => (List.mem_append.mp hmem).elim h.nel (by decide)
  · cases whitespaces <;> rfl

/-- A separator is kept where no space came before. -/
theorem Gap.Clean.line {c : Char} (h : g.Clean) (hspace : g.afterSpace = false)
    (hc : isSeparator c = true) :
    (g.line c).Clean ∧ (g.line c).pending = g.pending ++ [c] ∧ (g.line c).afterBreak = true ∧
      (g.line c).afterSpace = false := by
  have htext : breakText c = c := if_pos hc
  have hlf : c ≠ '\n' := by
    rintro rfl
    exact absurd hc (by decide)
  have hnel : '\x85' ≠ c := by
    rintro rfl
    exact absurd hc (by decide)
  obtain ⟨whitespaces, leadingBreak, trailingBreaks⟩ := g
  cases leadingBreak with
  | none =>
    have hnil : whitespaces = [] := by
      cases whitespaces with
      | nil => rfl
      | cons _ _ => cases hspace
    subst hnil
    refine ⟨⟨?_, ?_⟩, ?_, rfl, rfl⟩
    · rw [Gap.line, htext]
      exact fun hd => hlf (Option.some.inj hd)
    · rw [Gap.line, htext]
      exact fun hmem => hnel (List.mem_singleton.mp hmem)
    · rw [Gap.line, htext]
      rfl
  | some d =>
    refine ⟨⟨h.leading, ?_⟩, ?_, rfl, rfl⟩
    · rw [Gap.line, htext]
      exact fun hmem => (List.mem_append.mp hmem).elim h.nel fun hmem =>
        hnel (List.mem_singleton.mp hmem)
    · rw [Gap.line, htext]
      rfl

theorem isRawMarker_nil : isRawMarker [] = false := rfl

/-- Nothing is lost if and only if the text is one that is kept. -/
theorem foldText_eq_iff {s : List Char} (hg : g.Clean) :
    foldText g g.afterBreak s = some (g.pending ++ s) ↔
      (g.afterBreak = true → s.head? ≠ some ' ' ∧ isRawMarker s = false) ∧
        kept g.afterSpace s = true := by
  induction s generalizing g with
  | nil =>
    rw [foldText, hg.fold_eq, List.append_nil]
    exact iff_of_true rfl ⟨fun _ => ⟨nofun, isRawMarker_nil⟩, rfl⟩
  | cons c cs ih =>
    rw [foldText, kept]
    by_cases hspace : c = ' '
    · subst hspace
      rw [if_pos rfl]
      cases hbreak : g.leadingBreak with
      | none =>
        obtain ⟨hclean, hpending, hafter, hafterSpace⟩ := hg.blank hbreak
        have hstep := ih hclean
        rw [hafter, hpending, hafterSpace, List.append_assoc, List.singleton_append] at hstep
        rw [hstep, Gap.afterBreak, hbreak, if_neg (by decide)]
        exact and_congr (iff_of_true nofun nofun) (by simp)
      | some d =>
        -- The space is swallowed.
        refine iff_of_false (fun h => ?_) fun h => ?_
        · have hlen := length_foldText h
          rw [Gap.blank, hbreak] at hlen
          simp only [List.length_append, List.length_cons] at hlen
          omega
        · exact (h.1 (by rw [Gap.afterBreak, hbreak]; rfl)).1 rfl
    · rw [if_neg hspace]
      by_cases hraw : isRawBreak c = true
      · rw [if_pos hraw]
        by_cases hsep : isSeparator c = true
        · rw [if_pos hsep]
          have hmarker : isRawMarker (c :: cs) = false := by
            rw [← Bool.not_eq_true]
            intro hm
            obtain rfl | rfl := head_of_isRawMarker hm <;> exact absurd hsep (by decide)
          cases hafterSpace : g.afterSpace with
          | true =>
            -- The spaces before it are swallowed.
            refine iff_of_false (fun h => ?_) fun h => ?_
            · have hlen := length_foldText h
              obtain ⟨whitespaces, leadingBreak, trailingBreaks⟩ := g
              cases leadingBreak with
              | some d => cases hafterSpace
              | none =>
                cases whitespaces with
                | nil => cases hafterSpace
                | cons w ws =>
                  simp only [Gap.line, Gap.pending, List.length_append, List.length_cons,
                    List.length_nil] at hlen
                  omega
            · exact absurd h.2 (by simp)
          | false =>
            obtain ⟨hclean, hpending, hafter, hspaceAfter⟩ := hg.line hafterSpace hsep
            have hstep := ih hclean
            rw [hafter, hpending, hspaceAfter, List.append_assoc, List.singleton_append] at hstep
            rw [hstep, hmarker]
            simp [hspace]
        · -- It is the NEL, of which none is left.
          have hnel : c = '\x85' := by
            rw [isRawBreak, decide_eq_true_eq] at hraw
            exact hraw.resolve_right hsep
          refine iff_of_false (fun h => ?_) fun h => ?_
          · exact nel_notMem_foldText (Gap.nel_notMem_line hg.nel c) h (by rw [hnel]; simp)
          · rw [if_neg hsep, hnel] at h
            exact absurd h.2 (by simp)
      · have hsep : ¬ isSeparator c = true := fun h => hraw (decide_eq_true (.inr h))
        have hnel : c ≠ '\x85' := fun h => hraw (decide_eq_true (.inl h))
        have hstep := ih Gap.Clean.empty
        rw [if_neg hraw, if_neg hsep, decide_eq_true hnel, Bool.true_and, decide_eq_false hspace]
        split_ifs with hmarker
        · rw [Bool.and_eq_true] at hmarker
          refine iff_of_false nofun fun h => ?_
          rw [(h.1 hmarker.1).2] at hmarker
          cases hmarker.2
        · rw [hg.fold_eq, Option.map_eq_some_iff]
          have hcond : g.afterBreak = true →
              (c :: cs).head? ≠ some ' ' ∧ isRawMarker (c :: cs) = false := by
            intro hafter
            rw [hafter, Bool.true_and, Bool.not_eq_true] at hmarker
            exact ⟨fun h => hspace (Option.some.inj h), hmarker⟩
          rw [and_iff_right hcond]
          constructor
          · rintro ⟨out, hout, heq⟩
            cases List.append_cancel_left heq
            exact (hstep.mp hout).2
          · exact fun h => ⟨cs, hstep.mpr ⟨nofun, h⟩, rfl⟩

/-- A whole string arrives as it was if and only if it is one that is kept. -/
theorem foldText_eq_self {s : List Char} :
    foldText .empty false s = some s ↔ kept false s = true :=
  (foldText_eq_iff Gap.Clean.empty).trans (and_iff_right nofun)

/-- A string without line breaks is kept. -/
theorem kept_of_forall {s : List Char} {afterSpace : Bool} (h : ∀ c ∈ s, isRawBreak c = false) :
    kept afterSpace s = true := by
  induction s generalizing afterSpace with
  | nil => rfl
  | cons c cs ih =>
    have hc : ¬ isRawBreak c = true := by
      rw [h c List.mem_cons_self]
      exact nofun
    have hsep : ¬ isSeparator c = true := fun hsep => hc (decide_eq_true (.inr hsep))
    have hnel : c ≠ '\x85' := fun hnel => hc (decide_eq_true (.inl hnel))
    rw [kept, if_neg hsep, decide_eq_true hnel, Bool.true_and]
    exact ih fun d hd => h d (List.mem_cons_of_mem c hd)

end Botwork.Foundations.Yaml
