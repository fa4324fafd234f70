import Botwork.Foundations.FiniteMap

/-!
# The ustar archive format

Archives of regular files in the POSIX ustar format: header blocks of 512 bytes
with octal numbers and a checksum, contents padded to whole blocks, two zero
blocks at the end.  A `Header` carries the widths of its fields, so that a block
of another length cannot be built.

## Main definitions

- `Ustar.octalDigits`, `Ustar.octalValue` — numbers in a header
- `Ustar.Header` — a header block by its fields
- `Ustar.read` — the files of an archive, in order
- `Ustar.list` — the same with mode and owner
- `Ustar.unpack` — the directory after the archive is extracted into an empty one
-/

namespace Botwork.Foundations.Ustar

-- ════════════════════════════════════════════════════════════════════════
-- Octal numbers
-- ════════════════════════════════════════════════════════════════════════

def digitByte (c : Char) : UInt8 := UInt8.ofNat c.toNat

/-- The octal digits of a number, with zeros in front up to `width` digits. -/
def octalDigits (width n : Nat) : List UInt8 :=
  List.replicate (width - (Nat.toDigits 8 n).length) 48 ++ (Nat.toDigits 8 n).map digitByte

def isOctalDigit (b : UInt8) : Bool := decide (48 ≤ b) && decide (b < 56)

def isFieldEnd (b : UInt8) : Bool := b == 0 || b == 32

/-- The number in a field: octal digits up to the first NUL or blank. -/
def octalValue (field : List UInt8) : Option Nat :=
  let digits := field.takeWhile fun b => !isFieldEnd b
  if digits.all isOctalDigit then some (digits.foldl (fun n b => 8 * n + (b.toNat - 48)) 0)
  else none

theorem mem_toDigits_eight {n : Nat} {c : Char} (hc : c ∈ Nat.toDigits 8 n) :
    48 ≤ c.toNat ∧ c.toNat < 56 := by
  have hdigit : ∀ d, d < 8 → 48 ≤ (Nat.digitChar d).toNat ∧ (Nat.digitChar d).toNat < 56 := by
    decide
  induction n using Nat.strongRecOn with
  | ind n ih =>
    rw [Nat.toDigits_eq_if (by decide)] at hc
    by_cases hn : n < 8
    · rw [if_pos hn, List.mem_singleton] at hc
      rw [hc]
      exact hdigit n hn
    · rw [if_neg hn, List.mem_append, List.mem_singleton] at hc
      rcases hc with hc | hc
      · exact ih (n / 8) (by omega) hc
      · rw [hc]
        exact hdigit (n % 8) (by omega)

theorem toNat_digitByte {n : Nat} {c : Char} (hc : c ∈ Nat.toDigits 8 n) :
    (digitByte c).toNat = c.toNat := by
  have h := mem_toDigits_eight hc
  show (UInt8.ofNat c.toNat).toNat = c.toNat
  rw [UInt8.toNat_ofNat']
  omega

theorem isOctalDigit_of_mem {width n : Nat} {b : UInt8} (hb : b ∈ octalDigits width n) :
    isOctalDigit b = true := by
  rcases List.mem_append.mp hb with hb | hb
  · rw [List.eq_of_mem_replicate hb]
    rfl
  · obtain ⟨c, hc, rfl⟩ := List.mem_map.mp hb
    have hbound := mem_toDigits_eight hc
    have hnat := toNat_digitByte hc
    simp only [isOctalDigit, UInt8.le_iff_toNat_le, UInt8.lt_iff_toNat_lt, hnat, Bool.and_eq_true,
      decide_eq_true_eq]
    exact hbound

theorem not_isFieldEnd_of_isOctalDigit {b : UInt8} (h : isOctalDigit b = true) :
    isFieldEnd b = false := by
  by_contra hend
  rw [Bool.not_eq_false, isFieldEnd, Bool.or_eq_true, beq_iff_eq, beq_iff_eq] at hend
  rcases hend with rfl | rfl
  · exact absurd h (by decide)
  · exact absurd h (by decide)

theorem foldl_octalDigits (width n : Nat) :
    (octalDigits width n).foldl (fun n b => 8 * n + (b.toNat - 48)) 0 = n := by
  have hzeros : ∀ k, (List.replicate k (48 : UInt8)).foldl (fun n b => 8 * n + (b.toNat - 48)) 0 = 0 := by
    intro k
    induction k with
    | zero => rfl
    | succ k ih => rw [List.replicate_succ, List.foldl_cons]; exact ih
  rw [octalDigits, List.foldl_append, hzeros, List.foldl_map]
  calc (Nat.toDigits 8 n).foldl (fun n c => 8 * n + ((digitByte c).toNat - 48)) 0
      = (Nat.toDigits 8 n).foldl (fun n c => 8 * n + (c.toNat - '0'.toNat)) 0 := by
        apply List.foldl_ext
        intro m c hc
        rw [toNat_digitByte hc]
        rfl
    _ = n := by rw [← Nat.ofDigitChars_eq_foldl, Nat.ofDigitChars_toDigits (by decide) (by decide)]

/-- What is written with a field end behind it reads back. -/
theorem octalValue_octalDigits {width n : Nat} {b : UInt8} (hend : isFieldEnd b = true)
    (rest : List UInt8) : octalValue (octalDigits width n ++ b :: rest) = some n := by
  have hdigits : (octalDigits width n ++ b :: rest).takeWhile (fun b => !isFieldEnd b) =
      octalDigits width n := by
    rw [List.takeWhile_append_of_pos]
    · simp [hend]
    · intro b hb
      rw [not_isFieldEnd_of_isOctalDigit (isOctalDigit_of_mem hb)]
      rfl
  have hall : (octalDigits width n).all isOctalDigit = true :=
    List.all_eq_true.mpr fun b hb => isOctalDigit_of_mem hb
  simp only [octalValue, hdigits, hall, if_true, foldl_octalDigits]

/-- A number that fills its field reads back too. -/
theorem octalValue_octalDigits_self (width n : Nat) :
    octalValue (octalDigits width n) = some n := by
  have hdigits : (octalDigits width n).takeWhile (fun b => !isFieldEnd b) = octalDigits width n := by
    have hall : ∀ b ∈ octalDigits width n, (!isFieldEnd b) = true := by
      intro b hb
      rw [not_isFieldEnd_of_isOctalDigit (isOctalDigit_of_mem hb)]
      rfl
    rw [← List.append_nil (octalDigits width n), List.takeWhile_append_of_pos hall]
    rfl
  have hall : (octalDigits width n).all isOctalDigit = true :=
    List.all_eq_true.mpr fun b hb => isOctalDigit_of_mem hb
  simp only [octalValue, hdigits, hall, if_true, foldl_octalDigits]

theorem foldl_octal_lt (digits : List UInt8) (h : digits.all isOctalDigit = true) :
    ∀ n, digits.foldl (fun n b => 8 * n + (b.toNat - 48)) n < (n + 1) * 8 ^ digits.length := by
  induction digits with
  | nil =>
    intro n
    rw [List.foldl_nil, List.length_nil, Nat.pow_zero, Nat.mul_one]
    exact Nat.lt_succ_self n
  | cons b digits ih =>
    intro n
    rw [List.all_cons, Bool.and_eq_true] at h
    obtain ⟨hb, hdigits⟩ := h
    simp only [isOctalDigit, UInt8.le_iff_toNat_le, UInt8.lt_iff_toNat_lt, Bool.and_eq_true,
      decide_eq_true_eq] at hb
    have hdigit : b.toNat < 56 := hb.2
    rw [List.foldl_cons, List.length_cons, Nat.pow_succ]
    calc digits.foldl (fun n b => 8 * n + (b.toNat - 48)) (8 * n + (b.toNat - 48))
        < (8 * n + (b.toNat - 48) + 1) * 8 ^ digits.length := ih hdigits _
      _ ≤ ((n + 1) * 8) * 8 ^ digits.length := Nat.mul_le_mul_right _ (by omega)
      _ = (n + 1) * (8 ^ digits.length * 8) := by
          rw [Nat.mul_assoc, Nat.mul_comm 8]

/-- A field of `k` bytes holds numbers below `8 ^ k`. -/
theorem octalValue_lt {field : List UInt8} {n : Nat} (h : octalValue field = some n) :
    n < 8 ^ field.length := by
  unfold octalValue at h
  simp only at h
  split at h
  next hall =>
    cases h
    have hle : (field.takeWhile fun b => !isFieldEnd b).length ≤ field.length :=
      (List.takeWhile_sublist _).length_le
    have hlt := foldl_octal_lt _ hall 0
    rw [Nat.zero_add, Nat.one_mul] at hlt
    exact lt_of_lt_of_le hlt (Nat.pow_le_pow_right (by decide) hle)
  next => cases h

theorem length_octalDigits {width n : Nat} (hpos : 0 < width) (h : n < 8 ^ width) :
    (octalDigits width n).length = width := by
  have := (Nat.length_toDigits_le_iff (by decide) hpos).mpr h
  rw [octalDigits, List.length_append, List.length_replicate, List.length_map]
  omega

-- ════════════════════════════════════════════════════════════════════════
-- Header blocks
-- ════════════════════════════════════════════════════════════════════════

def blockSize : Nat := 512

/-- Cut a prefix of a byte string into pieces of the given widths. -/
def cut : List Nat → List UInt8 → List (List UInt8)
  | [], _ => []
  | width :: widths, bytes => bytes.take width :: cut widths (bytes.drop width)

theorem cut_flatten (pieces : List (List UInt8)) (rest : List UInt8) :
    cut (pieces.map List.length) (pieces.flatten ++ rest) = pieces := by
  induction pieces with
  | nil => rfl
  | cons piece pieces ih =>
    rw [List.map_cons, List.flatten_cons, List.append_assoc, cut, List.take_left, List.drop_left, ih]

/-- The fields of a header block, in order. -/
structure Fields where
  name : List UInt8
  mode : List UInt8
  uid : List UInt8
  gid : List UInt8
  size : List UInt8
  mtime : List UInt8
  checksum : List UInt8
  typeflag : List UInt8
  linkname : List UInt8
  magic : List UInt8
  version : List UInt8
  /-- the user and group names and the device numbers -/
  owner : List UInt8
  pathPrefix : List UInt8
  unused : List UInt8

namespace Fields

def widths : List Nat := [100, 8, 8, 8, 12, 12, 8, 1, 100, 6, 2, 80, 155, 12]

def pieces (f : Fields) : List (List UInt8) :=
  [f.name, f.mode, f.uid, f.gid, f.size, f.mtime, f.checksum, f.typeflag, f.linkname, f.magic,
    f.version, f.owner, f.pathPrefix, f.unused]

def bytes (f : Fields) : List UInt8 := f.pieces.flatten

def ofPieces? : List (List UInt8) → Option Fields
  | [name, mode, uid, gid, size, mtime, checksum, typeflag, linkname, magic, version, owner,
      pathPrefix, unused] =>
    some ⟨name, mode, uid, gid, size, mtime, checksum, typeflag, linkname, magic, version, owner,
      pathPrefix, unused⟩
  | _ => none

theorem ofPieces?_pieces (f : Fields) : ofPieces? f.pieces = some f := rfl

/-- The sum over the block, with blanks in place of the checksum. -/
def total (f : Fields) : Nat :=
  ({ f with checksum := List.replicate 8 32 }.bytes.map UInt8.toNat).sum

/-- The text of a field: what stands before the first NUL. -/
def text (field : List UInt8) : List UInt8 := field.takeWhile (· ≠ 0)

/-- The path of the file: prefix and name. -/
def path (f : Fields) : List UInt8 :=
  if text f.pathPrefix = [] then text f.name else text f.pathPrefix ++ 47 :: text f.name

end Fields

/-- A header block: fields of the right widths. -/
structure Header where
  fields : Fields
  lengths : fields.pieces.map List.length = Fields.widths

theorem Header.length_bytes (h : Header) : h.fields.bytes.length = blockSize := by
  rw [Fields.bytes, List.length_flatten, h.lengths]
  rfl

theorem sum_toNat_le (bytes : List UInt8) : (bytes.map UInt8.toNat).sum ≤ 255 * bytes.length := by
  induction bytes with
  | nil => exact Nat.le_refl _
  | cons b bytes ih =>
    have hb : b.toNat < 256 := b.toNat_lt
    rw [List.map_cons, List.sum_cons, List.length_cons]
    omega

/-- Blanks in place of the checksum. -/
def Header.blank (h : Header) : Header where
  fields := { h.fields with checksum := List.replicate 8 32 }
  lengths := by
    have hlengths := h.lengths
    simp only [Fields.pieces, Fields.widths, List.map_cons, List.map_nil, List.cons.injEq,
      List.length_replicate, true_and] at hlengths ⊢
    obtain ⟨h₁, h₂, h₃, h₄, h₅, h₆, -, h₈⟩ := hlengths
    exact ⟨h₁, h₂, h₃, h₄, h₅, h₆, h₈⟩

theorem Header.total_lt (h : Header) : h.fields.total < 8 ^ 6 := by
  have hsum : h.fields.total ≤ 255 * h.blank.fields.bytes.length := sum_toNat_le _
  rw [h.blank.length_bytes] at hsum
  exact lt_of_le_of_lt hsum (by decide)

/-- Put the checksum into a header. -/
def Header.seal (h : Header) : Header where
  fields := { h.fields with checksum := octalDigits 6 h.fields.total ++ [0, 32] }
  lengths := by
    have hlengths := h.lengths
    have hchecksum : (octalDigits 6 h.fields.total ++ [0, 32]).length = 8 := by
      rw [List.length_append, length_octalDigits (by decide) h.total_lt]
      rfl
    simp only [Fields.pieces, Fields.widths, List.map_cons, List.map_nil, List.cons.injEq,
      hchecksum, true_and] at hlengths ⊢
    obtain ⟨h₁, h₂, h₃, h₄, h₅, h₆, -, h₈⟩ := hlengths
    exact ⟨h₁, h₂, h₃, h₄, h₅, h₆, h₈⟩

theorem Header.octalValue_seal (h : Header) :
    octalValue h.seal.fields.checksum = some h.seal.fields.total := octalValue_octalDigits rfl [32]

/-- The fields at the start of a byte string. -/
def parseFields (archive : List UInt8) : Option Fields :=
  Fields.ofPieces? (cut Fields.widths archive)

theorem parseFields_bytes (h : Header) (rest : List UInt8) :
    parseFields (h.fields.bytes ++ rest) = some h.fields := by
  rw [parseFields, ← h.lengths, Fields.bytes, cut_flatten, Fields.ofPieces?_pieces]

-- ════════════════════════════════════════════════════════════════════════
-- Archives
-- ════════════════════════════════════════════════════════════════════════

structure File where
  path : List UInt8
  content : List UInt8
  deriving DecidableEq

/-- `ustar` and a NUL. -/
def magic : List UInt8 := [117, 115, 116, 97, 114, 0]

/-- How many bytes fill the last block of a content. -/
def padding (size : Nat) : Nat := (blockSize - size % blockSize) % blockSize

/-- The regular file at the start of an archive, and what follows it. -/
def readFile (archive : List UInt8) : Option (File × List UInt8) := do
  let fields ← parseFields archive
  let checksum ← octalValue fields.checksum
  let size ← octalValue fields.size
  let data := archive.drop blockSize
  if fields.magic = magic ∧ fields.typeflag = [48] ∧ checksum = fields.total ∧
      size ≤ data.length then
    some (⟨fields.path, data.take size⟩, data.drop (size + padding size))
  else none

/-- The end of an archive. -/
def trailer : List UInt8 := List.replicate (2 * blockSize) 0

def readFiles : Nat → List UInt8 → Option (List File)
  | 0, _ => none
  | fuel + 1, archive =>
    if archive.take (2 * blockSize) = trailer then some []
    else do
      let (file, rest) ← readFile archive
      let files ← readFiles fuel rest
      return file :: files

/-- The files of an archive; `none` when it is malformed or holds anything else. -/
def read (archive : List UInt8) : Option (List File) := readFiles (archive.length + 1) archive

/-- What extraction leaves in an empty directory: a later file replaces an
    earlier one of the same path. -/
def unpack (files : List File) : FiniteMap (List UInt8) (List UInt8) :=
  FiniteMap.insertAll ∅ (files.map fun file => (file.path, file.content))

/-- A file with its mode and its owner. -/
structure Entry where
  path : List UInt8
  mode : Nat
  uid : Nat
  gid : Nat
  content : List UInt8
  deriving DecidableEq

/-- The entry that a header makes of a content. -/
def Fields.entry (f : Fields) (content : List UInt8) : Option Entry := do
  let mode ← octalValue f.mode
  let uid ← octalValue f.uid
  let gid ← octalValue f.gid
  return ⟨f.path, mode, uid, gid, content⟩

def readEntry (archive : List UInt8) : Option (Entry × List UInt8) := do
  let fields ← parseFields archive
  let (file, rest) ← readFile archive
  let entry ← fields.entry file.content
  return (entry, rest)

def readEntries : Nat → List UInt8 → Option (List Entry)
  | 0, _ => none
  | fuel + 1, archive =>
    if archive.take (2 * blockSize) = trailer then some []
    else do
      let (entry, rest) ← readEntry archive
      let entries ← readEntries fuel rest
      return entry :: entries

/-- The entries of an archive; `none` when it is malformed or holds anything but
    regular files. -/
def list (archive : List UInt8) : Option (List Entry) := readEntries (archive.length + 1) archive

/-- A header that describes `content` and sums to its checksum. -/
structure Header.Describes (h : Header) (content : List UInt8) : Prop where
  magic : h.fields.magic = Ustar.magic
  typeflag : h.fields.typeflag = [48]
  size : octalValue h.fields.size = some content.length
  checksum : octalValue h.fields.checksum = some h.fields.total

/-- A file as an archive holds it. -/
def member (h : Header) (content : List UInt8) : List UInt8 :=
  h.fields.bytes ++ (content ++ List.replicate (padding content.length) 0)

theorem readFile_member {h : Header} {content : List UInt8} (hdesc : h.Describes content)
    (rest : List UInt8) :
    readFile (member h content ++ rest) = some (⟨h.fields.path, content⟩, rest) := by
  have hsplit : member h content ++ rest =
      h.fields.bytes ++ (content ++ (List.replicate (padding content.length) 0 ++ rest)) := by
    simp only [member, List.append_assoc]
  have hdrop : (member h content ++ rest).drop blockSize =
      content ++ (List.replicate (padding content.length) 0 ++ rest) := by
    rw [hsplit, ← h.length_bytes, List.drop_left]
  have hfields : parseFields (member h content ++ rest) = some h.fields := by
    rw [hsplit, parseFields_bytes]
  have hrest : (content ++ (List.replicate (padding content.length) 0 ++ rest)).drop
      (content.length + padding content.length) = rest := by
    rw [← List.append_assoc, List.drop_left']
    rw [List.length_append, List.length_replicate]
  have hle : content.length ≤
      (content ++ (List.replicate (padding content.length) 0 ++ rest)).length := by
    rw [List.length_append]
    omega
  simp only [readFile, hfields, hdesc.checksum, hdesc.size, hdrop, hdesc.magic, hdesc.typeflag, hle,
    Option.bind_eq_bind, Option.bind_some, and_self, if_true, List.take_left, hrest]

theorem length_member_pos (h : Header) (content : List UInt8) : 0 < (member h content).length := by
  rw [member, List.length_append, h.length_bytes]
  exact Nat.add_pos_left (by decide) _

/-- A file is no end of an archive. -/
theorem take_member_ne_trailer {h : Header} {content : List UInt8} (hdesc : h.Describes content)
    (rest : List UInt8) : (member h content ++ rest).take (2 * blockSize) ≠ trailer := by
  intro htrailer
  have hmem : (117 : UInt8) ∈ h.fields.bytes := by
    apply List.mem_flatten.mpr
    refine ⟨h.fields.magic, ?_, ?_⟩
    · simp [Fields.pieces]
    · rw [hdesc.magic]
      exact List.mem_cons_self
  have htake : (member h content ++ rest).take (2 * blockSize) =
      h.fields.bytes ++ ((content ++ List.replicate (padding content.length) 0) ++ rest).take
        blockSize := by
    rw [member, List.append_assoc, List.take_append, h.length_bytes,
      List.take_of_length_le (by rw [h.length_bytes]; decide)]
    rfl
  have hzero : (117 : UInt8) ∈ trailer := by
    rw [← htrailer, htake]
    exact List.mem_append_left _ hmem
  exact absurd (List.eq_of_mem_replicate hzero) (by decide)

theorem readFiles_members {members : List (Header × List UInt8)} {fuel : Nat}
    (hdesc : ∀ m ∈ members, m.1.Describes m.2) (hfuel : members.length < fuel) :
    readFiles fuel ((members.map fun m => member m.1 m.2).flatten ++ trailer) =
      some (members.map fun m => ⟨m.1.fields.path, m.2⟩) := by
  induction members generalizing fuel with
  | nil =>
    cases fuel with
    | zero => exact absurd hfuel (Nat.not_lt_zero _)
    | succ fuel =>
      have hend : (([] : List (List UInt8)).flatten ++ trailer).take (2 * blockSize) = trailer := by
        rw [List.flatten_nil, List.nil_append, List.take_of_length_le]
        rw [trailer, List.length_replicate]
      rw [List.map_nil, readFiles, if_pos hend]
      rfl
  | cons m members ih =>
    cases fuel with
    | zero => exact absurd hfuel (Nat.not_lt_zero _)
    | succ fuel =>
      have hm := hdesc m List.mem_cons_self
      have hrest := ih (fun m hm => hdesc m (List.mem_cons_of_mem _ hm)) (Nat.lt_of_succ_lt_succ hfuel)
      rw [List.map_cons, List.flatten_cons, List.append_assoc, readFiles,
        if_neg (take_member_ne_trailer hm _), readFile_member hm]
      show (readFiles fuel _).bind _ = _
      rw [hrest]
      rfl

theorem length_le_length_members (members : List (Header × List UInt8)) :
    members.length ≤ (members.map fun m => member m.1 m.2).flatten.length := by
  induction members with
  | nil => exact Nat.zero_le _
  | cons m members ih =>
    have hpos := length_member_pos m.1 m.2
    rw [List.map_cons, List.flatten_cons, List.length_append, List.length_cons]
    omega

/-- **Round trip**: the archive of a list of members reads back as their paths
    and contents. -/
theorem read_members {members : List (Header × List UInt8)}
    (hdesc : ∀ m ∈ members, m.1.Describes m.2) :
    read ((members.map fun m => member m.1 m.2).flatten ++ trailer) =
      some (members.map fun m => ⟨m.1.fields.path, m.2⟩) := by
  apply readFiles_members hdesc
  have hlength := length_le_length_members members
  rw [List.length_append]
  omega

theorem readEntry_member {h : Header} {content : List UInt8} (hdesc : h.Describes content)
    (rest : List UInt8) :
    readEntry (member h content ++ rest) =
      (h.fields.entry content).map fun entry => (entry, rest) := by
  have hfields : parseFields (member h content ++ rest) = some h.fields := by
    rw [member, List.append_assoc, parseFields_bytes]
  simp only [readEntry, hfields, readFile_member hdesc, Option.bind_eq_bind, Option.bind_some]
  cases h.fields.entry content <;> rfl

theorem readEntries_members {members : List (Header × List UInt8)} {fuel : Nat}
    (hdesc : ∀ m ∈ members, m.1.Describes m.2) (hfuel : members.length < fuel) :
    readEntries fuel ((members.map fun m => member m.1 m.2).flatten ++ trailer) =
      members.mapM fun m => m.1.fields.entry m.2 := by
  induction members generalizing fuel with
  | nil =>
    cases fuel with
    | zero => exact absurd hfuel (Nat.not_lt_zero _)
    | succ fuel =>
      have hend : (([] : List (List UInt8)).flatten ++ trailer).take (2 * blockSize) = trailer := by
        rw [List.flatten_nil, List.nil_append, List.take_of_length_le]
        rw [trailer, List.length_replicate]
      rw [List.map_nil, readEntries, if_pos hend]
      rfl
  | cons m members ih =>
    cases fuel with
    | zero => exact absurd hfuel (Nat.not_lt_zero _)
    | succ fuel =>
      have hm := hdesc m List.mem_cons_self
      have hrest := ih (fun m hm => hdesc m (List.mem_cons_of_mem _ hm)) (Nat.lt_of_succ_lt_succ hfuel)
      rw [List.map_cons, List.flatten_cons, List.append_assoc, readEntries,
        if_neg (take_member_ne_trailer hm _), readEntry_member hm, List.mapM_cons]
      cases m.1.fields.entry m.2 with
      | none => rfl
      | some entry =>
        show (readEntries fuel _).bind _ = _
        rw [hrest]
        rfl

/-- **Listing**: the archive of a list of members lists what their headers make
    of their contents. -/
theorem list_members {members : List (Header × List UInt8)}
    (hdesc : ∀ m ∈ members, m.1.Describes m.2) :
    list ((members.map fun m => member m.1 m.2).flatten ++ trailer) =
      members.mapM fun m => m.1.fields.entry m.2 := by
  apply readEntries_members hdesc
  have hlength := length_le_length_members members
  rw [List.length_append]
  omega

-- ════════════════════════════════════════════════════════════════════════
-- Extraction
-- ════════════════════════════════════════════════════════════════════════

theorem mem_of_lookup_unpack {files : List File} {path content : List UInt8}
    (h : (unpack files).lookup path = some content) : ⟨path, content⟩ ∈ files := by
  obtain ⟨file, hfile, heq⟩ := List.mem_map.mp (FiniteMap.mem_of_lookup_insertAll h)
  cases heq
  exact hfile

/-- A file whose path no other file shares is extracted as it is. -/
theorem lookup_unpack_of_nodup {files : List File} (hnodup : (files.map File.path).Nodup)
    {file : File} (hmem : file ∈ files) : (unpack files).lookup file.path = some file.content := by
  have hentry : (file.path, file.content) ∈ files.map fun file => (file.path, file.content) :=
    List.mem_map_of_mem hmem
  obtain ⟨content, hcontent, hlook⟩ := FiniteMap.exists_lookup_insertAll (m := ∅) hentry
  obtain ⟨other, hother, heq⟩ := List.mem_map.mp hcontent
  have hsame : other = file :=
    List.inj_on_of_nodup_map hnodup hother hmem (congrArg Prod.fst heq)
  have hvalue : other.content = content := congrArg Prod.snd heq
  rw [unpack, hlook, ← hvalue, hsame]

end Botwork.Foundations.Ustar
