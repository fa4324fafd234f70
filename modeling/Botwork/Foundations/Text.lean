import Mathlib.Algebra.Group.Int.Defs
import Mathlib.Algebra.GroupWithZero.Nat
import Mathlib.Data.List.DropRight
import Mathlib.Tactic.Common

/-!
# Text and bytes

String operations with the semantics of Rust's standard library.  Unicode white
space is the property `White_Space`; the lossy decoder replaces every maximal
ill-formed piece of its input by U+FFFD.

## Main definitions

- `Text.trim` — strip leading and trailing white space
- `Text.toAsciiUppercase`, `Text.toAsciiLowercase`, `Text.toLowercase` — case mappings
- `Text.utf8` — the bytes of a string
- `Text.fromUtf8Lossy` — decode, with U+FFFD for what is not UTF-8
- `Text.Message` — a text with strings in it as `{:?}` shows them
-/

namespace Botwork.Foundations.Text

-- ════════════════════════════════════════════════════════════════════════
-- Characters
-- ════════════════════════════════════════════════════════════════════════

/-- The Unicode property `White_Space`. -/
def isWhitespace (c : Char) : Bool :=
  let n := c.toNat
  (decide (9 ≤ n) && decide (n ≤ 13)) || n == 0x20 || n == 0x85 || n == 0xA0 || n == 0x1680 ||
    (decide (0x2000 ≤ n) && decide (n ≤ 0x200A)) || n == 0x2028 || n == 0x2029 || n == 0x202F ||
    n == 0x205F || n == 0x3000

def trim (s : String) : String :=
  String.ofList ((s.toList.dropWhile isWhitespace).rdropWhile isWhitespace)

theorem trim_of_forall {s : String} (h : ∀ c ∈ s.toList, isWhitespace c = false) : trim s = s := by
  have hdrop : s.toList.dropWhile isWhitespace = s.toList := by
    cases hs : s.toList with
    | nil => rfl
    | cons c cs => exact List.dropWhile_cons_of_neg (by simp [h c (by simp [hs])])
  have hrdrop : s.toList.rdropWhile isWhitespace = s.toList := by
    rw [List.rdropWhile_eq_self_iff]
    intro hne
    simp [h _ (List.getLast_mem hne)]
  rw [trim, hdrop, hrdrop, String.ofList_toList]

theorem trim_of_all {s : String} (h : s.toList.all (!isWhitespace ·) = true) : trim s = s :=
  trim_of_forall fun c hc => by simpa using List.all_eq_true.mp h c hc

theorem isWhitespace_of_isDigit {c : Char} (h : c.isDigit = true) : isWhitespace c = false := by
  have hall : ∀ n, n < 58 → (Char.ofNat n).isDigit = true → isWhitespace (Char.ofNat n) = false := by
    decide
  have hlt : c.toNat < 58 := by
    rw [Char.isDigit, Bool.and_eq_true, decide_eq_true_eq, decide_eq_true_eq] at h
    exact Nat.lt_succ_of_le (UInt32.le_iff_toNat_le.mp h.2)
  have hc := hall c.toNat hlt
  rw [Char.ofNat_toNat] at hc
  exact hc h

/-- What is trimmed has no white space left at its ends. -/
theorem trim_trim (s : String) : trim (trim s) = trim s := by
  have hfront : ((s.toList.dropWhile isWhitespace).rdropWhile isWhitespace).dropWhile isWhitespace =
      (s.toList.dropWhile isWhitespace).rdropWhile isWhitespace := by
    cases hrest : (s.toList.dropWhile isWhitespace).rdropWhile isWhitespace with
    | nil => rfl
    | cons c cs =>
      obtain ⟨tail, htail⟩ := List.rdropWhile_prefix isWhitespace (s.toList.dropWhile isWhitespace)
      rw [hrest, List.cons_append] at htail
      have hhead := List.head?_dropWhile_not isWhitespace s.toList
      rw [← htail] at hhead
      exact List.dropWhile_cons_of_neg (by simpa using hhead)
  rw [trim, trim, String.toList_ofList, hfront, List.rdropWhile_idempotent]

def toAsciiUppercase (s : String) : String := s.map Char.toUpper

def toAsciiLowercase (s : String) : String := s.map Char.toLower

/-- One character of `toLowercase`.  U+212A KELVIN SIGN is the only character
    outside ASCII whose lowercase mapping is an ASCII string; the mapping of any
    other one is left out, as it yields no ASCII text. -/
def lowerChar (c : Char) : Char := if c = '\u212A' then 'k' else c.toLower

/-- Lowercase mapping, exact on which strings become a given ASCII string. -/
def toLowercase (s : String) : String := s.map lowerChar

-- ════════════════════════════════════════════════════════════════════════
-- Messages
-- ════════════════════════════════════════════════════════════════════════

/-- A piece of a text: a string as it is, or as `{:?}` shows it.  What `{:?}`
    escapes depends on the Unicode tables of the standard library. -/
inductive Fragment where
  | text (s : String)
  | debug (value : String)
  deriving DecidableEq, Repr

/-- The text that the fragments give one after the other. -/
abbrev Message := List Fragment

instance : Coe String Message := ⟨fun s => [.text s]⟩

/-- `{:?}` of a string. -/
def debug (value : String) : Message := [.debug value]

/-- `{:?}` of a list of strings. -/
def debugList (values : List String) : Message :=
  "[" ++ (", " : Message).intercalate (values.map debug) ++ "]"

-- ════════════════════════════════════════════════════════════════════════
-- UTF-8
-- ════════════════════════════════════════════════════════════════════════

instance lawfulBEq_bytes : LawfulBEq (List UInt8) := inferInstance

/-- The UTF-8 encoding of a string. -/
def utf8 (s : String) : List UInt8 := s.toList.flatMap String.utf8EncodeChar

theorem isUpper_eq (c : Char) :
    c.isUpper = (decide (c.val ≥ 'A'.val ∧ c.val ≤ 'Z'.val)) := rfl

theorem isLower_eq (c : Char) :
    c.isLower = (decide (c.val ≥ 'a'.val) && decide (c.val ≤ 'z'.val)) := rfl

theorem toLower_of_not_upper {c : Char} (h : c.isUpper = false) : c.toLower = c :=
  dif_neg (of_decide_eq_false h)

/-- A character below U+0080 is one byte. -/
theorem utf8EncodeChar_of_lt {c : Char} (h : c.toNat < 128) :
    String.utf8EncodeChar c = [UInt8.ofNat c.toNat] := by
  have hall : ∀ n, n < 128 → String.utf8EncodeChar (Char.ofNat n) = [UInt8.ofNat n] := by
    decide +kernel
  have hc := hall c.toNat h
  rwa [Char.ofNat_toNat] at hc

theorem utf8_of_ascii {s : String} (h : ∀ c ∈ s.toList, c.toNat < 128) :
    utf8 s = s.toList.map fun c => UInt8.ofNat c.toNat := by
  rw [utf8, List.map_eq_flatMap]
  apply List.flatMap_congr
  intro c hc
  exact utf8EncodeChar_of_lt (h c hc)

def isContinuation (b : UInt8) : Bool := decide (0x80 ≤ b) && decide (b < 0xC0)

/-- Whether `b` may stand second after the lead byte `lead`. -/
def isSecond (lead b : UInt8) : Bool :=
  if lead = 0xE0 then decide (0xA0 ≤ b) && decide (b < 0xC0)
  else if lead = 0xED then decide (0x80 ≤ b) && decide (b < 0xA0)
  else if lead = 0xF0 then decide (0x90 ≤ b) && decide (b < 0xC0)
  else if lead = 0xF4 then decide (0x80 ≤ b) && decide (b < 0x90)
  else isContinuation b

/-- How many further bytes a lead byte announces. -/
def announced (lead : UInt8) : Nat :=
  if 0xC2 ≤ lead ∧ lead < 0xE0 then 1
  else if 0xE0 ≤ lead ∧ lead < 0xF0 then 2
  else if 0xF0 ≤ lead ∧ lead < 0xF5 then 3
  else 0

/-- How many bytes after the lead byte belong to the ill-formed piece it starts. -/
def illFormedTail (lead : UInt8) : List UInt8 → Nat
  | [] => 0
  | b :: bs =>
    if announced lead = 0 ∨ isSecond lead b = false then 0
    else 1 + ((bs.take (announced lead - 1)).takeWhile isContinuation).length

/-- The characters of `fromUtf8Lossy`; every round consumes a byte at least. -/
def lossyChars : Nat → List UInt8 → List Char
  | 0, _ => []
  | _ + 1, [] => []
  | fuel + 1, b :: bs =>
    match (b :: bs).toByteArray.utf8DecodeChar? 0 with
    | some c => c :: lossyChars fuel ((b :: bs).drop c.utf8Size)
    | none => '\uFFFD' :: lossyChars fuel (bs.drop (illFormedTail b bs))

def fromUtf8Lossy (bytes : List UInt8) : String := String.ofList (lossyChars bytes.length bytes)

theorem lossyChars_flatMap {chars : List Char} {fuel : Nat}
    (h : (chars.flatMap String.utf8EncodeChar).length ≤ fuel) :
    lossyChars fuel (chars.flatMap String.utf8EncodeChar) = chars := by
  induction chars generalizing fuel with
  | nil => cases fuel <;> rfl
  | cons c chars ih =>
    have hdecode : (String.utf8EncodeChar c ++
        chars.flatMap String.utf8EncodeChar).toByteArray.utf8DecodeChar? 0 = some c := by
      rw [List.toByteArray_append]
      exact ByteArray.utf8DecodeChar?_utf8EncodeChar_append
    have hdrop : (String.utf8EncodeChar c ++ chars.flatMap String.utf8EncodeChar).drop c.utf8Size =
        chars.flatMap String.utf8EncodeChar := by
      rw [← String.length_utf8EncodeChar c, List.drop_left]
    have hpos : 0 < c.utf8Size := Char.utf8Size_pos c
    rw [List.flatMap_cons, List.length_append, String.length_utf8EncodeChar] at h
    rw [List.flatMap_cons]
    cases fuel with
    | zero => omega
    | succ fuel =>
      cases hbytes : String.utf8EncodeChar c ++ chars.flatMap String.utf8EncodeChar with
      | nil =>
        exact absurd (List.append_eq_nil_iff.mp hbytes).1 String.utf8EncodeChar_ne_nil
      | cons b bs =>
        rw [hbytes] at hdecode hdrop
        simp only [lossyChars, hdecode]
        rw [hdrop, ih (by omega)]

/-- What is UTF-8 decodes to its text. -/
theorem fromUtf8Lossy_utf8 (s : String) : fromUtf8Lossy (utf8 s) = s := by
  unfold fromUtf8Lossy utf8
  rw [lossyChars_flatMap le_rfl, String.ofList_toList]

theorem utf8_injective : Function.Injective utf8 := by
  intro s t h
  rw [← fromUtf8Lossy_utf8 s, h, fromUtf8Lossy_utf8]

/-- Decoding keeps the bytes exactly when they are the encoding of a text. -/
theorem utf8_fromUtf8Lossy {bytes : List UInt8} :
    utf8 (fromUtf8Lossy bytes) = bytes ↔ ∃ s, utf8 s = bytes := by
  constructor
  · exact fun h => ⟨_, h⟩
  · rintro ⟨s, rfl⟩
    rw [fromUtf8Lossy_utf8]

example : fromUtf8Lossy [0x68, 0xE2, 0x82, 0x41, 0xFF] = "h\uFFFDA\uFFFD" := by decide +kernel

/-- The bytes below 0x80 are the ASCII characters. -/
theorem mem_utf8EncodeChar_of_lt {b : UInt8} {c : Char} (hb : b < 0x80) :
    b ∈ String.utf8EncodeChar c ↔ c.toNat = b.toNat := by
  have hmark : ∀ x mark : UInt8, 0x80 ≤ mark → b ≠ x ||| mark := by
    rintro x mark hmark rfl
    rw [UInt8.lt_iff_toNat_lt, UInt8.toNat_or] at hb
    have hle : mark.toNat ≤ x.toNat ||| mark.toNat := Nat.right_le_or
    exact absurd (Nat.lt_of_le_of_lt hle hb) (Nat.not_lt_of_le (UInt8.le_iff_toNat_le.mp hmark))
  constructor
  · intro h
    by_cases hascii : c.toNat < 128
    · rw [utf8EncodeChar_of_lt hascii, List.mem_singleton] at h
      rw [h, UInt8.toNat_ofNat', Nat.mod_eq_of_lt (by omega)]
    · have hval : ¬ c.val ≤ 0x7f := by
        intro hle
        exact hascii (Nat.lt_succ_of_le (UInt32.le_iff_toNat_le.mp hle))
      -- every byte of a longer encoding has a marker bit
      rw [String.utf8EncodeChar_eq_utf8EncodeCharFast, String.utf8EncodeCharFast, if_neg hval] at h
      split_ifs at h <;> simp [hmark] at h
  · intro h
    have hlt : c.toNat < 128 := by
      rw [h]
      exact UInt8.lt_iff_toNat_lt.mp hb
    rw [utf8EncodeChar_of_lt hlt, List.mem_singleton, h, UInt8.ofNat_toNat]

/-- Only the character NUL has a zero byte. -/
theorem zero_mem_utf8EncodeChar {c : Char} : 0 ∈ String.utf8EncodeChar c ↔ c = '\x00' := by
  rw [mem_utf8EncodeChar_of_lt (by decide)]
  constructor
  · intro h
    rw [← Char.ofNat_toNat c, h]
    rfl
  · rintro rfl
    rfl

theorem ne_zero_of_isContinuation {b : UInt8} (h : isContinuation b = true) : b ≠ 0 := by
  rintro rfl
  exact absurd h (by decide)

theorem ne_zero_of_isSecond {lead b : UInt8} (h : isSecond lead b = true) : b ≠ 0 := by
  rintro rfl
  revert h
  unfold isSecond
  split_ifs <;> decide

/-- No zero byte is skipped after the first byte of an ill-formed piece. -/
theorem ne_zero_of_mem_take_illFormedTail {lead b : UInt8} {bs : List UInt8}
    (h : b ∈ bs.take (illFormedTail lead bs)) : b ≠ 0 := by
  unfold illFormedTail at h
  split at h
  next => simp at h
  next second rest =>
    split at h
    next => simp at h
    next hsecond =>
      rw [not_or, Bool.not_eq_false] at hsecond
      rw [Nat.add_comm, List.take_succ_cons, List.mem_cons] at h
      rcases h with rfl | h
      · exact ne_zero_of_isSecond hsecond.2
      · have hrun : (rest.take (announced lead - 1)).takeWhile isContinuation =
            rest.take ((rest.take (announced lead - 1)).takeWhile isContinuation).length := by
          have hprefix : (rest.take (announced lead - 1)).takeWhile isContinuation <+: rest :=
            (List.takeWhile_prefix _).trans (List.take_prefix _ _)
          exact List.prefix_iff_eq_take.mp hprefix
        rw [← hrun] at h
        exact ne_zero_of_isContinuation (List.mem_takeWhile_imp h)

/-- Lossy decoding neither makes nor loses a NUL. -/
theorem nul_mem_lossyChars {fuel : Nat} {bytes : List UInt8} (hfuel : bytes.length ≤ fuel) :
    '\x00' ∈ lossyChars fuel bytes ↔ 0 ∈ bytes := by
  induction fuel generalizing bytes with
  | zero =>
    have hnil : bytes = [] := List.eq_nil_of_length_eq_zero (Nat.le_zero.mp hfuel)
    simp [hnil, lossyChars]
  | succ fuel ih =>
    cases bytes with
    | nil => simp [lossyChars]
    | cons b bs =>
      rw [List.length_cons] at hfuel
      cases hdecode : (b :: bs).toByteArray.utf8DecodeChar? 0 with
      | some c =>
        obtain ⟨rest, hsplit⟩ := ByteArray.exists_of_utf8DecodeChar?_eq_some hdecode
        have hbytes : b :: bs = String.utf8EncodeChar c ++ rest.data.toList := by
          have := congrArg (fun b => b.data.toList) hsplit
          simpa using this
        have hdrop : (b :: bs).drop c.utf8Size = rest.data.toList := by
          rw [hbytes, ← String.length_utf8EncodeChar c, List.drop_left]
        have hpos := Char.utf8Size_pos c
        simp only [lossyChars, hdecode, List.mem_cons]
        rw [ih, hdrop, ← List.mem_cons, hbytes, List.mem_append, zero_mem_utf8EncodeChar, eq_comm]
        rw [List.length_drop, List.length_cons]
        omega
      | none =>
        have hb : b ≠ 0 := by
          rintro rfl
          have hnul := ByteArray.utf8DecodeChar?_utf8EncodeChar_append (c := '\x00')
            (b := bs.toByteArray)
          rw [← List.toByteArray_append] at hnul
          have heq : String.utf8EncodeChar '\x00' ++ bs = 0 :: bs := rfl
          rw [heq, hdecode] at hnul
          cases hnul
        simp only [lossyChars, hdecode, List.mem_cons]
        rw [ih]
        · have hsplit : 0 ∈ bs ↔ 0 ∈ bs.drop (illFormedTail b bs) := by
            conv_lhs => rw [← List.take_append_drop (illFormedTail b bs) bs]
            rw [List.mem_append]
            constructor
            · rintro (h | h)
              · exact absurd rfl (ne_zero_of_mem_take_illFormedTail h)
              · exact h
            · exact Or.inr
          constructor
          · rintro (h | h)
            · exact absurd h (by decide)
            · exact Or.inr (hsplit.mpr h)
          · rintro (h | h)
            · exact absurd h.symm hb
            · exact Or.inr (hsplit.mp h)
        · rw [List.length_drop]
          omega

theorem nul_mem_fromUtf8Lossy {bytes : List UInt8} :
    '\x00' ∈ (fromUtf8Lossy bytes).toList ↔ 0 ∈ bytes := by
  rw [fromUtf8Lossy, String.toList_ofList]
  exact nul_mem_lossyChars le_rfl

/-- The loop of `ByteArray.toList`. -/
theorem byteArray_loop_eq (bs : ByteArray) (i : Nat) (r : List UInt8) :
    ByteArray.toList.loop bs i r = r.reverse ++ bs.data.toList.drop i := by
  fun_induction ByteArray.toList.loop bs i r with
  | case1 i r h ih =>
    have hlt : i < bs.data.toList.length := h
    have hget : bs.get! i = bs.data.toList[i] := by
      show bs.data[i]! = _
      rw [getElem!_pos bs.data i h]
      rfl
    rw [ih, hget, List.reverse_cons, List.append_assoc, List.singleton_append,
      List.getElem_cons_drop]
  | case2 i r h =>
    have hle : bs.data.toList.length ≤ i := Nat.le_of_not_lt h
    rw [List.drop_eq_nil_of_le hle, List.append_nil]

/-- Strings with the same bytes are the same. -/
theorem toUTF8_toList_inj {a b : String} (h : a.toUTF8.toList = b.toUTF8.toList) : a = b := by
  have hdata : ∀ bs : ByteArray, bs.toList = bs.data.toList := fun bs => byteArray_loop_eq bs 0 []
  rw [hdata, hdata] at h
  exact String.toByteArray_inj.mp (ByteArray.ext (Array.toList_inj.mp h))

end Botwork.Foundations.Text
