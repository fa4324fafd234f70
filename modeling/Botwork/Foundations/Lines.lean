import Botwork.Foundations.Text
import Mathlib.Data.List.Infix
import Mathlib.Data.String.Basic

/-!
# Lines

The first line of a text, its fields, and texts that are put together from lines.

## Main definitions

- `Text.firstLine` — the first line without its ending
- `Text.splitWhitespace` — the fields of a line
- `Text.ended` — a text ended by a newline
- `Text.lines` — all lines of a text
-/

namespace Botwork.Foundations.Text

/-- The characters before the first newline. -/
def lineChars (chars : List Char) : List Char := chars.takeWhile (· != '\n')

/-- The first of the `lines`; a line ends with a newline, after which a carriage
    return goes with it. -/
def firstLine (s : String) : String :=
  let line := lineChars s.toList
  if '\n' ∈ s.toList ∧ line.getLast? = some '\r' then String.ofList line.dropLast
  else String.ofList line

/-- The fields between white space. -/
def splitWhitespace (s : String) : List String :=
  ((s.toList.splitOnP isWhitespace).filter fun field => !field.isEmpty).map String.ofList

/-- A text that ends with a newline. -/
def ended (s : String) : String := if s.toList.getLast? = some '\n' then s else s ++ "\n"

-- ════════════════════════════════════════════════════════════════════════
-- The first line
-- ════════════════════════════════════════════════════════════════════════

theorem not_mem_lineChars (chars : List Char) : '\n' ∉ lineChars chars := by
  intro h
  exact absurd (List.mem_takeWhile_imp h) (by simp)

theorem lineChars_of_not_mem {chars : List Char} (h : '\n' ∉ chars) : lineChars chars = chars := by
  refine List.takeWhile_eq_self_iff.mpr fun c hc => ?_
  simpa using fun heq : c = '\n' => h (heq ▸ hc)

theorem lineChars_append_newline {chars rest : List Char} (h : '\n' ∉ chars) :
    lineChars (chars ++ '\n' :: rest) = chars := by
  rw [lineChars, List.takeWhile_append_of_pos fun c hc => ?_]
  · simp
  · simpa using fun heq : c = '\n' => h (heq ▸ hc)

theorem mem_of_mem_trim {s : String} {c : Char} (h : c ∈ (trim s).toList) : c ∈ s.toList := by
  rw [trim, String.toList_ofList] at h
  exact (List.dropWhile_sublist _).subset ((List.rdropWhile_prefix _ _).subset h)

/-- White space at the end is trimmed. -/
theorem trim_append_whitespace {chars : List Char} {c : Char} (h : isWhitespace c = true) :
    trim (String.ofList (chars ++ [c])) = trim (String.ofList chars) := by
  rw [trim, trim, String.toList_ofList, String.toList_ofList, List.dropWhile_append]
  split
  next hempty =>
    rw [List.dropWhile_cons_of_pos h, List.dropWhile_nil, List.isEmpty_iff.mp hempty]
  next => rw [List.rdropWhile_concat_pos _ _ _ h]

/-- The ending of a line does not matter where it is trimmed. -/
theorem trim_firstLine (s : String) :
    trim (firstLine s) = trim (String.ofList (lineChars s.toList)) := by
  rw [firstLine]
  split
  next h =>
    obtain ⟨front, hfront⟩ := List.getLast?_eq_some_iff.mp h.2
    rw [hfront, List.dropLast_concat]
    exact (trim_append_whitespace (by decide)).symm
  next => rfl

theorem newline_not_mem_trim_firstLine (s : String) : '\n' ∉ (trim (firstLine s)).toList := by
  intro h
  rw [trim_firstLine] at h
  have hmem := mem_of_mem_trim h
  rw [String.toList_ofList] at hmem
  exact not_mem_lineChars _ hmem

-- ════════════════════════════════════════════════════════════════════════
-- Newlines at the end
-- ════════════════════════════════════════════════════════════════════════

theorem lineChars_ended (s : String) : lineChars (ended s).toList = lineChars s.toList := by
  rw [ended]
  split
  next => rfl
  next =>
    rw [String.toList_append]
    by_cases hmem : '\n' ∈ s.toList
    · obtain ⟨front, rest, hsplit, hfront⟩ := List.eq_append_cons_of_mem hmem
      rw [hsplit, List.append_assoc, List.cons_append, lineChars_append_newline hfront,
        lineChars_append_newline hfront]
    · exact (lineChars_append_newline hmem).trans (lineChars_of_not_mem hmem).symm

theorem trim_firstLine_ended (s : String) : trim (firstLine (ended s)) = trim (firstLine s) := by
  rw [trim_firstLine, trim_firstLine, lineChars_ended]

/-- Texts of as many lines each are the same only line by line. -/
theorem join_lines_injective {α : Type} {f g : α → String} (l : List α)
    (hf : ∀ a ∈ l, '\n' ∉ (f a).toList) (hg : ∀ a ∈ l, '\n' ∉ (g a).toList)
    (h : String.join (l.map fun a => f a ++ "\n") = String.join (l.map fun a => g a ++ "\n")) :
    ∀ a ∈ l, f a = g a := by
  induction l with
  | nil => exact fun a ha => absurd ha List.not_mem_nil
  | cons a l ih =>
    have hlists : (f a).toList ++ '\n' :: (String.join (l.map fun a => f a ++ "\n")).toList =
        (g a).toList ++ '\n' :: (String.join (l.map fun a => g a ++ "\n")).toList := by
      simpa using congrArg String.toList h
    -- the first newline ends the first line
    have hfirst : (f a).toList = (g a).toList := by
      have hline := congrArg lineChars hlists
      rwa [lineChars_append_newline (hf a List.mem_cons_self),
        lineChars_append_newline (hg a List.mem_cons_self)] at hline
    have hrest : String.join (l.map fun a => f a ++ "\n") = String.join (l.map fun a => g a ++ "\n") := by
      rw [hfirst] at hlists
      exact String.toList_injective (List.cons.inj (List.append_cancel_left hlists)).2
    intro b hb
    obtain rfl | hb := List.mem_cons.mp hb
    · exact String.toList_injective hfirst
    · exact ih (fun a ha => hf a (List.mem_cons_of_mem _ ha))
        (fun a ha => hg a (List.mem_cons_of_mem _ ha)) hrest b hb

-- ════════════════════════════════════════════════════════════════════════
-- Endings and order
-- ════════════════════════════════════════════════════════════════════════

/-- An ending that both lists get changes their order only where one list goes on
    from the other. -/
theorem append_lt_append_iff {chars chars' ending : List Char} (h : chars < chars') :
    chars ++ ending < chars' ++ ending ↔
      ¬ ∃ rest, chars' = chars ++ rest ∧ rest ++ ending < ending := by
  induction chars generalizing chars' with
  | nil =>
    have hne : chars' ++ ending ≠ ending := by
      intro heq
      have hlength := congrArg List.length heq
      rw [List.length_append] at hlength
      have hnil : chars' = [] := List.length_eq_zero_iff.mp (by omega)
      exact absurd h (hnil ▸ lt_irrefl _)
    constructor
    · rintro hlt ⟨rest, rfl, hback⟩
      exact lt_asymm hlt hback
    · intro hno
      obtain hlt | heq | hback := lt_trichotomy ending (chars' ++ ending)
      · exact hlt
      · exact absurd heq.symm hne
      · exact absurd ⟨chars', rfl, hback⟩ hno
  | cons c chars ih =>
    cases chars' with
    | nil => exact absurd h (List.not_lt_nil _)
    | cons c' chars' =>
      rw [List.cons_append, List.cons_append, List.cons_lt_cons_iff]
      obtain hlt | ⟨rfl, hrest⟩ := List.cons_lt_cons_iff.mp h
      · refine iff_of_true (.inl hlt) ?_
        rintro ⟨rest, heq, -⟩
        exact absurd hlt ((List.cons.inj heq).1 ▸ lt_irrefl _)
      · have hsame : (∃ rest, c :: chars' = c :: chars ++ rest ∧ rest ++ ending < ending) ↔
            ∃ rest, chars' = chars ++ rest ∧ rest ++ ending < ending := by
          simp
        rw [hsame, ← ih hrest]
        simp

-- ════════════════════════════════════════════════════════════════════════
-- All lines
-- ════════════════════════════════════════════════════════════════════════

/-- A line without the carriage return in front of its newline. -/
def withoutReturn (line : List Char) : List Char :=
  if line.getLast? = some '\r' then line.dropLast else line

/-- The lines that the pieces between newlines are.  Nothing behind the last newline
    is no line. -/
def linesOf : List (List Char) → List (List Char)
  | [] => []
  | [last] => if last.isEmpty then [] else [last]
  | line :: rest => withoutReturn line :: linesOf rest

/-- `str::lines`. -/
def lines (s : String) : List String := (linesOf (s.toList.splitOn '\n')).map String.ofList

def stripPrefix (front s : String) : Option String :=
  if front.toList <+: s.toList then some (String.ofList (s.toList.drop front.length)) else none

theorem stripPrefix_append (front s : String) : stripPrefix front (front ++ s) = some s := by
  rw [stripPrefix, String.toList_append, if_pos (List.prefix_append _ _), ← String.length_toList,
    List.drop_left, String.ofList_toList]

theorem stripPrefix_eq_some {front s rest : String} :
    stripPrefix front s = some rest ↔ s = front ++ rest := by
  constructor
  · intro h
    rw [stripPrefix] at h
    split at h
    next hfront =>
      obtain ⟨tail, htail⟩ := hfront
      cases h
      rw [← htail, ← String.length_toList, List.drop_left]
      apply String.toList_injective
      rw [String.toList_append, String.toList_ofList, htail]
    next => cases h
  · rintro rfl
    exact stripPrefix_append front rest

/-- A text of one line. -/
theorem lines_append_newline {s : String} (hline : '\n' ∉ s.toList) (hend : '\r' ∉ s.toList) :
    lines (s ++ "\n") = [s] := by
  have hpieces : (s ++ "\n").toList.splitOn '\n' = [s.toList, []] := by
    have hnewline : ("\n" : String).toList = ['\n'] := rfl
    rw [String.toList_append, hnewline, List.splitOn]
    have hfront : ∀ c ∈ s.toList, (c == '\n') = false := by
      intro c hc
      simpa using fun heq : c = '\n' => hline (heq ▸ hc)
    rw [List.splitOnP_append_cons_of_forall_mem hfront '\n' (by decide)]
    rfl
  have hlast : s.toList.getLast? ≠ some '\r' := fun h => hend (List.mem_of_getLast? h)
  rw [lines, hpieces, linesOf, linesOf, withoutReturn, if_neg hlast]
  · simp
  · nofun

end Botwork.Foundations.Text
