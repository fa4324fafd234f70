import Mathlib.Algebra.Group.Int.Defs
import Mathlib.Algebra.GroupWithZero.Nat
import Mathlib.Tactic.Common

/-!
# Unix paths

The components of a path: empty parts and dots are skipped, except that a
relative path may begin with a dot.  A part is plain when it is itself a name, and
paths of plain parts are determined by them.

## Main definitions

- `Component`, `components` — the components of a path
- `PathBuf` — a path that is built by pushing and popping components
- `Under` — a path lies below a directory
- `absolute` — the absolute path of a list of parts
- `splitFileAtDot` — the stem and the extension of a file name
-/

namespace Botwork.Foundations.UnixPath

inductive Component where
  | rootDir
  | curDir
  | parentDir
  | normal (part : List Char)
  deriving DecidableEq, Repr

/-- The component of a part that does not begin the path. -/
def component? (part : List Char) : Option Component :=
  if part = [] ∨ part = ['.'] then none
  else if part = ['.', '.'] then some .parentDir
  else some (.normal part)

def components (path : List Char) : List Component :=
  match path with
  | '/' :: rest => .rootDir :: (rest.splitOn '/').filterMap component?
  | path =>
    let parts := path.splitOn '/'
    (if parts.head? = some ['.'] then [.curDir] else []) ++ parts.filterMap component?

/-- A path below a directory, and not the directory itself. -/
def Under (dir path : List Char) : Prop :=
  components dir <+: components path ∧ components dir ≠ components path

-- ════════════════════════════════════════════════════════════════════════
-- Buffers
-- ════════════════════════════════════════════════════════════════════════

/-- A path under construction: whether it is absolute, and its parts. -/
structure PathBuf where
  isAbsolute : Bool
  parts : List (List Char)
  deriving DecidableEq, Repr

namespace PathBuf

def empty : PathBuf := ⟨false, []⟩

/-- Push an absolute path, a name, or pop the last part. -/
def apply (buf : PathBuf) : Component → PathBuf
  | .rootDir => ⟨true, []⟩
  | .curDir => buf
  | .parentDir => { buf with parts := buf.parts.dropLast }
  | .normal part => { buf with parts := buf.parts ++ [part] }

def render (buf : PathBuf) : List Char :=
  (if buf.isAbsolute then ['/'] else []) ++ ['/'].intercalate buf.parts

theorem foldl_apply_normal (parts : List (List Char)) (buf : PathBuf) :
    (parts.map Component.normal).foldl apply buf = { buf with parts := buf.parts ++ parts } := by
  induction parts generalizing buf with
  | nil => simp
  | cons part parts ih =>
    rw [List.map_cons, List.foldl_cons, ih]
    simp [apply]

end PathBuf

-- ════════════════════════════════════════════════════════════════════════
-- Plain parts
-- ════════════════════════════════════════════════════════════════════════

/-- A part that is a name. -/
structure Plain (part : List Char) : Prop where
  noSlash : '/' ∉ part
  ne_nil : part ≠ []
  ne_dot : part ≠ ['.']
  ne_dotdot : part ≠ ['.', '.']

theorem Plain.component {part : List Char} (h : Plain part) :
    component? part = some (.normal part) := by
  rw [component?, if_neg (not_or.mpr ⟨h.ne_nil, h.ne_dot⟩), if_neg h.ne_dotdot]

/-- The absolute path of a list of parts. -/
def absolute (parts : List (List Char)) : List Char := '/' :: ['/'].intercalate parts

theorem absolute_snoc {parts : List (List Char)} (h : parts ≠ []) (part : List Char) :
    absolute (parts ++ [part]) = absolute parts ++ '/' :: part := by
  have hjoin : ['/'].intercalate (parts ++ [part]) = ['/'].intercalate parts ++ '/' :: part := by
    induction parts with
    | nil => exact absurd rfl h
    | cons first rest ih =>
      by_cases hrest : rest = []
      · subst hrest
        simp [List.intercalate]
      · rw [List.cons_append, List.intercalate_cons_of_ne_nil (by simp),
          List.intercalate_cons_of_ne_nil hrest, ih hrest]
        simp
  rw [absolute, hjoin]
  rfl

section

variable {parts other : List (List Char)}

theorem filterMap_component (h : ∀ part ∈ parts, Plain part) :
    parts.filterMap component? = parts.map Component.normal := by
  induction parts with
  | nil => rfl
  | cons part parts ih =>
    rw [List.filterMap_cons_some (h part List.mem_cons_self).component, List.map_cons,
      ih fun p hp => h p (List.mem_cons_of_mem _ hp)]

theorem components_absolute (h : ∀ part ∈ parts, Plain part) :
    components (absolute parts) = .rootDir :: parts.map Component.normal := by
  rw [absolute, components]
  congr 1
  by_cases hnil : parts = []
  · subst hnil
    decide
  · rw [List.splitOn_intercalate '/' (fun part hpart => (h part hpart).noSlash) hnil,
      filterMap_component h]

/-- A path of plain parts is its own normal form. -/
theorem render_components_absolute (h : ∀ part ∈ parts, Plain part) :
    ((components (absolute parts)).foldl PathBuf.apply .empty).render = absolute parts := by
  rw [components_absolute h, List.foldl_cons, PathBuf.foldl_apply_normal]
  rfl

/-- One path of plain parts lies below another when its parts go on. -/
theorem under_absolute_iff (h : ∀ part ∈ parts, Plain part) (hother : ∀ part ∈ other, Plain part) :
    Under (absolute parts) (absolute other) ↔ parts <+: other ∧ parts ≠ other := by
  have hinj : Function.Injective Component.normal := fun _ _ => Component.normal.inj
  rw [Under, components_absolute h, components_absolute hother, List.prefix_cons_inj,
    ne_eq, List.cons.injEq, List.map_inj_right hinj]
  have hbefore : parts.map Component.normal <+: other.map Component.normal ↔ parts <+: other := by
    constructor
    · rintro ⟨rest, hrest⟩
      obtain ⟨first, last, rfl, hfirst, -⟩ := List.append_eq_map_iff.mp hrest
      have hsame : first = parts := (List.map_inj_right hinj).mp hfirst
      exact ⟨last, by rw [hsame]⟩
    · exact fun h => h.map _
  rw [hbefore]
  simp

end

-- ════════════════════════════════════════════════════════════════════════
-- File names
-- ════════════════════════════════════════════════════════════════════════

/-- The stem and the extension of a file name: the last dot divides them, unless it
    begins the name. -/
def splitFileAtDot (name : List Char) : List Char × Option (List Char) :=
  if name = ['.', '.'] then (name, none)
  else
    match name.reverse.dropWhile (· != '.') with
    | [] | [_] => (name, none)
    | _ :: before => (before.reverse, some (name.reverse.takeWhile (· != '.')).reverse)

theorem splitFileAtDot_append {stem ext : List Char} (hstem : stem ≠ []) (hdot : '.' ∉ ext)
    (hext : ext ≠ []) : splitFileAtDot (stem ++ '.' :: ext) = (stem, some ext) := by
  have hreverse : (stem ++ '.' :: ext).reverse = ext.reverse ++ '.' :: stem.reverse := by simp
  have hplain : ∀ c ∈ ext.reverse, (c != '.') = true := by
    intro c hc
    simpa using fun heq : c = '.' => hdot (heq ▸ List.mem_reverse.mp hc)
  have hparent : stem ++ '.' :: ext ≠ ['.', '.'] := by
    intro heq
    obtain ⟨first, rest, rfl⟩ := List.exists_cons_of_ne_nil hstem
    have hlength := congrArg List.length heq
    have hpos := List.length_pos_iff.mpr hext
    simp at hlength
    omega
  rw [splitFileAtDot, if_neg hparent, hreverse, List.dropWhile_append_of_pos hplain,
    List.takeWhile_append_of_pos hplain]
  obtain ⟨last, front, hfront⟩ := List.exists_cons_of_ne_nil (List.reverse_ne_nil_iff.mpr hstem)
  have hback : (last :: front).reverse = stem := by rw [← hfront, List.reverse_reverse]
  simp [← hback]

end Botwork.Foundations.UnixPath
