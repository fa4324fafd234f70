import Botwork.Foundations.Json
import Botwork.Foundations.PercentCoding

/-!
# URLs

The WHATWG parser on URLs of the form `http://host…`, as bytes of UTF-8: white
space around the text and line breaks in it are dropped, dot segments are
resolved, and what may not stand in a path or a query is percent-encoded.  The
host is kept as it is written.  With it, the serialiser and the parser of
`application/x-www-form-urlencoded`.

## Main definitions

- `WebUrl.parse` — the parser
- `WebUrl.appendPair` — add a parameter to the query
- `formPairs` — the parameters of a query
- `HttpRequest` — a request
-/

namespace Botwork.Foundations

-- ════════════════════════════════════════════════════════════════════════
-- Parsing
-- ════════════════════════════════════════════════════════════════════════

/-- A C0 control or a space. -/
def isC0OrSpace (b : UInt8) : Bool := b ≤ 0x20

/-- Neither a tab nor a line break. -/
def isText (b : UInt8) : Bool := b ≠ 0x09 && b ≠ 0x0A && b ≠ 0x0D

/-- The C0 control percent-encode set. -/
def controlSet (b : UInt8) : Bool := b < 0x20 || 0x7E < b

def pathSet (b : UInt8) : Bool :=
  controlSet b || b ∈ [' ', '"', '#', '<', '>', '?', '`', '{', '}'].map ascii

/-- The query set of the special schemes. -/
def specialQuerySet (b : UInt8) : Bool :=
  controlSet b || b ∈ [' ', '"', '#', '<', '>', '\''].map ascii

def asciiText (s : String) : List UInt8 := s.toList.map ascii

def singleDots : List (List UInt8) := [".", "%2e", "%2E"].map asciiText

def doubleDots : List (List UInt8) :=
  ["..", ".%2e", ".%2E", "%2e.", "%2E.", "%2e%2e", "%2e%2E", "%2E%2e", "%2E%2E"].map asciiText

/-- A query or a fragment starts here. -/
def isMark (b : UInt8) : Bool := b = ascii '?' || b = ascii '#'

def isSlash (b : UInt8) : Bool := b = ascii '/' || b = ascii '\\'

/-- The host ends at a slash or a mark, the path at a mark. -/
def inHost (b : UInt8) : Bool := !isSlash b && !isMark b
def inPath (b : UInt8) : Bool := !isMark b

/-- The path without the slash before each segment. -/
structure WebUrl where
  host : List UInt8
  path : List (List UInt8)
  query : Option (List UInt8)
  deriving DecidableEq

namespace WebUrl

/-- What is left of the text of a URL before it is parsed. -/
def strip (input : List UInt8) : List UInt8 :=
  ((input.dropWhile isC0OrSpace).rdropWhile isC0OrSpace).filter isText

/-- One more segment, encoded, behind the path. -/
def pushSegment (path : List (List UInt8)) (segment : List UInt8) (last : Bool) :
    List (List UInt8) :=
  if segment ∈ doubleDots then if last then path.dropLast ++ [[]] else path.dropLast
  else if segment ∈ singleDots then if last then path ++ [[]] else path
  else path ++ [segment]

def pushSegments (path : List (List UInt8)) : List (List UInt8) → List (List UInt8)
  | [] => path
  | [segment] => pushSegment path (percentEncode pathSet segment) true
  | segment :: next :: segments =>
    pushSegments (pushSegment path (percentEncode pathSet segment) false) (next :: segments)

/-- The path of a URL, from the first slash to the query. -/
def parsePath (rest : List UInt8) : List (List UInt8) :=
  pushSegments [] (rest.splitOnP isSlash).tail

/-- The query, if what follows the path is one. -/
def parseQuery : List UInt8 → Option (List UInt8)
  | [] => none
  | b :: rest =>
    if b = ascii '?' then some (percentEncode specialQuerySet (rest.takeWhile (· ≠ ascii '#')))
    else none

def scheme : List UInt8 := asciiText "http://"

def parse (input : List UInt8) : Option WebUrl :=
  let input := strip input
  if scheme.isPrefixOf input then
    let rest := input.drop scheme.length
    let afterHost := rest.dropWhile inHost
    some
      { host := rest.takeWhile inHost
        path := parsePath (afterHost.takeWhile inPath)
        query := parseQuery (afterHost.dropWhile inPath) }
  else none

/-- The path as a request line has it. -/
def pathText (url : WebUrl) : List UInt8 := url.path.flatMap (ascii '/' :: ·)

end WebUrl

-- ════════════════════════════════════════════════════════════════════════
-- Forms
-- ════════════════════════════════════════════════════════════════════════

/-- The bytes a form leaves as they are. -/
def isFormByte (b : UInt8) : Bool :=
  (ascii '0' ≤ b && b ≤ ascii '9') || (ascii 'A' ≤ b && b ≤ ascii 'Z') ||
    (ascii 'a' ≤ b && b ≤ ascii 'z') || b ∈ ['*', '-', '.', '_'].map ascii

def formEncode (bytes : List UInt8) : List UInt8 :=
  bytes.flatMap fun b =>
    if isFormByte b then [b] else if b = ascii ' ' then [ascii '+'] else encodeByte b

/-- The byte a form reads for a `+`. -/
def plusToSpace (b : UInt8) : UInt8 := if b = ascii '+' then ascii ' ' else b

def formDecode (bytes : List UInt8) : String :=
  Text.fromUtf8Lossy (percentDecode (bytes.map plusToSpace))

/-- The key of a parameter ends at the first `=`. -/
def inKey (b : UInt8) : Bool := b ≠ ascii '='

/-- One parameter of a query. -/
def formPair (piece : List UInt8) : String × String :=
  (formDecode (piece.takeWhile inKey), formDecode ((piece.dropWhile inKey).drop 1))

def formPairs (query : List UInt8) : List (String × String) :=
  ((query.splitOn (ascii '&')).filter fun piece => !piece.isEmpty).map formPair

/-- `append_pair` of the serialiser of a query. -/
def WebUrl.appendPair (url : WebUrl) (key value : String) : WebUrl :=
  let pair := formEncode (Text.utf8 key) ++ ascii '=' :: formEncode (Text.utf8 value)
  let query :=
    match url.query.getD [] with
    | [] => pair
    | before => before ++ ascii '&' :: pair
  { url with query := some query }

/-- A fact about every byte, by its number. -/
theorem forall_byte {P : UInt8 → Prop} (h : ∀ n, n < 256 → P (UInt8.ofNat n)) (b : UInt8) : P b := by
  have hb := h b.toNat b.toNat_lt
  rwa [UInt8.ofNat_toNat] at hb

theorem sparing_pathSet : Sparing pathSet where
  percent := by decide
  digit := forall_byte (by decide +kernel)

/-- No delimiter comes out of an encoder. -/
theorem mem_percentEncode {set : UInt8 → Bool} {bytes : List UInt8} {c : UInt8}
    (hc : ∀ b, c ∉ encodeByte b) (h : c ∈ percentEncode set bytes) : c ∈ bytes := by
  obtain ⟨b, hb, hmem⟩ := List.mem_flatMap.mp h
  split at hmem
  next => exact absurd hmem (hc b)
  next => rwa [List.mem_singleton.mp hmem]

namespace WebUrl

theorem rdropWhile_append_cons {p : UInt8 → Bool} {x : UInt8} (hx : p x = false)
    (front back : List UInt8) :
    (front ++ x :: back).rdropWhile p = front ++ x :: back.rdropWhile p := by
  rw [List.rdropWhile, List.reverse_append, List.reverse_cons, List.append_assoc,
    List.dropWhile_append]
  split
  next hempty =>
    rw [List.rdropWhile, List.isEmpty_iff.mp hempty, List.singleton_append,
      List.dropWhile_cons_of_neg (by simp [hx])]
    simp
  next => simp [List.rdropWhile]

/-- The bytes a host is written with. -/
def isHostByte (b : UInt8) : Bool := !isC0OrSpace b && inHost b

/-- What a URL with a path of two slashes at least is parsed to. -/
theorem parse_http {host front back : List UInt8} (hhost : ∀ b ∈ host, isHostByte b = true) :
    parse (scheme ++ host ++ ascii '/' :: front ++ ascii '/' :: back) =
      let rest := ascii '/' :: front.filter isText ++ ascii '/' ::
        (back.rdropWhile isC0OrSpace).filter isText
      some
        { host := host
          path := parsePath (rest.takeWhile inPath)
          query := parseQuery (rest.dropWhile inPath) } := by
  have hscheme : scheme = ascii 'h' :: asciiText "ttp://" := by decide +kernel
  have hschemeFilter : scheme.filter isText = scheme := by decide +kernel
  have hbyte : ∀ b, isHostByte b = true → isText b = true ∧ inHost b = true :=
    forall_byte (by decide +kernel)
  have hhostFilter : host.filter isText = host :=
    List.filter_eq_self.mpr fun b hb => (hbyte b (hhost b hb)).1
  have hdrop : (scheme ++ host ++ ascii '/' :: front ++ ascii '/' :: back).dropWhile isC0OrSpace =
      scheme ++ host ++ ascii '/' :: front ++ ascii '/' :: back := by
    rw [hscheme]
    exact List.dropWhile_cons_of_neg (by decide)
  have hslash : isText (ascii '/') = true := by decide
  have hstrip : strip (scheme ++ host ++ ascii '/' :: front ++ ascii '/' :: back) =
      scheme ++ (host ++ (ascii '/' :: front.filter isText ++ ascii '/' ::
        (back.rdropWhile isC0OrSpace).filter isText)) := by
    rw [strip, hdrop, rdropWhile_append_cons (by decide), List.filter_append, List.filter_append,
      List.filter_append, hschemeFilter, hhostFilter, List.filter_cons_of_pos hslash,
      List.filter_cons_of_pos hslash, List.append_assoc, List.append_assoc]
  rw [parse, hstrip, List.cons_append]
  generalize front.filter isText ++ ascii '/' :: (back.rdropWhile isC0OrSpace).filter isText = rest
  have hfront : scheme.isPrefixOf (scheme ++ (host ++ ascii '/' :: rest)) = true :=
    List.isPrefixOf_iff_prefix.mpr (List.prefix_append _ _)
  have hstop : ¬ inHost (ascii '/') = true := by decide
  simp only [hfront, if_pos, List.drop_left]
  rw [List.takeWhile_append_of_pos fun b hb => (hbyte b (hhost b hb)).2,
    List.dropWhile_append_of_pos fun b hb => (hbyte b (hhost b hb)).2,
    List.takeWhile_cons_of_neg hstop, List.dropWhile_cons_of_neg hstop, List.append_nil]

-- ════════════════════════════════════════════════════════════════════════
-- Paths
-- ════════════════════════════════════════════════════════════════════════

theorem splitOnP_segments {front : List UInt8} {segments : List (List UInt8)}
    (hfront : ∀ b ∈ front, isSlash b = false)
    (hsegments : ∀ segment ∈ segments, ∀ b ∈ segment, isSlash b = false) :
    (front ++ segments.flatMap (ascii '/' :: ·)).splitOnP isSlash = front :: segments := by
  induction segments generalizing front with
  | nil =>
    rw [List.flatMap_nil, List.append_nil]
    exact List.splitOnP_eq_singleton hfront
  | cons segment segments ih =>
    rw [List.flatMap_cons, List.cons_append,
      List.splitOnP_append_cons_of_forall_mem hfront _ (by decide),
      ih (hsegments segment List.mem_cons_self)
        fun other hother => hsegments other (List.mem_cons_of_mem _ hother)]

/-- A path that is written segment by segment. -/
theorem parsePath_segments {segments : List (List UInt8)}
    (h : ∀ segment ∈ segments, ∀ b ∈ segment, isSlash b = false) :
    parsePath (segments.flatMap (ascii '/' :: ·)) = pushSegments [] segments := by
  have hsplit : ([] ++ segments.flatMap (ascii '/' :: ·)).splitOnP isSlash = [] :: segments :=
    splitOnP_segments (fun b hb => absurd hb List.not_mem_nil) h
  rw [List.nil_append] at hsplit
  rw [parsePath, hsplit, List.tail_cons]

theorem length_pushSegment_le (path : List (List UInt8)) (segment : List UInt8) (last : Bool) :
    (pushSegment path segment last).length ≤ path.length + 1 := by
  unfold pushSegment
  split_ifs
  all_goals simp
  omega

theorem length_pushSegments_le (path segments : List (List UInt8)) :
    (pushSegments path segments).length ≤ path.length + segments.length := by
  induction segments generalizing path with
  | nil => exact Nat.le_refl _
  | cons segment segments ih =>
    cases segments with
    | nil => exact length_pushSegment_le path _ true
    | cons next segments =>
      have hfirst := length_pushSegment_le path (percentEncode pathSet segment) false
      have hrest := ih (pushSegment path (percentEncode pathSet segment) false)
      simp only [List.length_cons] at hrest ⊢
      rw [pushSegments]
      omega

/-- Every segment of the result is one that was there, one of the new ones encoded,
    or empty. -/
theorem mem_pushSegments {path segments : List (List UInt8)} {segment : List UInt8}
    (h : segment ∈ pushSegments path segments) :
    segment ∈ path ∨ segment = [] ∨ ∃ raw ∈ segments, segment = percentEncode pathSet raw := by
  have hpush : ∀ {path new last}, segment ∈ pushSegment path new last →
      segment ∈ path ∨ segment = [] ∨ segment = new := by
    intro path new last hmem
    unfold pushSegment at hmem
    split_ifs at hmem
    · obtain hmem | hmem := List.mem_append.mp hmem
      · exact .inl (List.dropLast_subset _ hmem)
      · exact .inr (.inl (List.mem_singleton.mp hmem))
    · exact .inl (List.dropLast_subset _ hmem)
    · obtain hmem | hmem := List.mem_append.mp hmem
      · exact .inl hmem
      · exact .inr (.inl (List.mem_singleton.mp hmem))
    · exact .inl hmem
    · obtain hmem | hmem := List.mem_append.mp hmem
      · exact .inl hmem
      · exact .inr (.inr (List.mem_singleton.mp hmem))
  induction segments generalizing path with
  | nil => exact .inl h
  | cons raw segments ih =>
    cases segments with
    | nil => exact (hpush h).imp_right (Or.imp_right fun heq => ⟨raw, List.mem_singleton_self raw, heq⟩)
    | cons next segments =>
      obtain hmem | hnil | ⟨other, hother, heq⟩ := ih h
      · exact (hpush hmem).imp_right (Or.imp_right fun heq => ⟨raw, List.mem_cons_self, heq⟩)
      · exact .inr (.inl hnil)
      · exact .inr (.inr ⟨other, List.mem_cons_of_mem _ hother, heq⟩)

/-- No segment of a parsed path contains a slash. -/
theorem not_mem_pushSegments {segments : List (List UInt8)}
    (h : ∀ segment ∈ segments, ascii '/' ∉ segment) {segment : List UInt8}
    (hmem : segment ∈ pushSegments [] segments) : ascii '/' ∉ segment := by
  obtain hnil | rfl | ⟨raw, hraw, rfl⟩ := mem_pushSegments hmem
  · exact absurd hnil List.not_mem_nil
  · exact List.not_mem_nil
  · have hbyte : ∀ b, ascii '/' ∉ encodeByte b := forall_byte (by decide +kernel)
    exact fun hslash => h raw hraw (mem_percentEncode hbyte hslash)

/-- A dot segment spells a dot or two. -/
theorem percentDecode_of_dots {segment : List UInt8}
    (h : percentEncode pathSet segment ∈ doubleDots ∨ percentEncode pathSet segment ∈ singleDots) :
    percentDecode segment = asciiText "." ∨ percentDecode segment = asciiText ".." := by
  have hall : ∀ dots ∈ doubleDots ++ singleDots,
      percentDecode dots = asciiText "." ∨ percentDecode dots = asciiText ".." := by
    decide +kernel
  rw [← percentDecode_percentEncode sparing_pathSet]
  exact hall _ (List.mem_append.mpr h)

theorem intercalate_cons (sep : UInt8) (segment : List UInt8) (segments : List (List UInt8)) :
    [sep].intercalate (segment :: segments) = segment ++ segments.flatMap (sep :: ·) := by
  induction segments generalizing segment with
  | nil => simp [List.intercalate]
  | cons next segments ih =>
    rw [List.intercalate_cons_of_ne_nil (by simp), ih, List.flatMap_cons]
    simp

/-- The server splits a path into the segments it was put together from. -/
theorem splitOn_pathText {url : WebUrl} (h : ∀ segment ∈ url.path, ascii '/' ∉ segment) :
    url.pathText.splitOn (ascii '/') = [] :: url.path := by
  have hjoin : url.pathText = [ascii '/'].intercalate ([] :: url.path) :=
    (intercalate_cons _ [] url.path).symm
  rw [hjoin, List.splitOn_intercalate]
  · intro segment hsegment
    obtain rfl | hmem := List.mem_cons.mp hsegment
    · exact List.not_mem_nil
    · exact h segment hmem
  · exact List.cons_ne_nil _ _

end WebUrl

-- ════════════════════════════════════════════════════════════════════════
-- Parameters
-- ════════════════════════════════════════════════════════════════════════

theorem formEncode_cons (b : UInt8) (bytes : List UInt8) :
    formEncode (b :: bytes) =
      (if isFormByte b then [b] else if b = ascii ' ' then [ascii '+'] else encodeByte b) ++
        formEncode bytes :=
  List.flatMap_cons

/-- What a form encodes it decodes to the same bytes. -/
theorem percentDecode_formEncode (bytes : List UInt8) :
    percentDecode ((formEncode bytes).map plusToSpace) = bytes := by
  have hplain : ∀ b, isFormByte b = true → plusToSpace b = b ∧ b ≠ ascii '%' :=
    forall_byte (by decide +kernel)
  have hescape : ∀ b, (encodeByte b).map plusToSpace = encodeByte b :=
    forall_byte (by decide +kernel)
  induction bytes with
  | nil => rfl
  | cons b bytes ih =>
    rw [formEncode_cons, List.map_append]
    split_ifs with hform hspace
    · obtain ⟨hsame, hne⟩ := hplain b hform
      rw [List.map_singleton, hsame, List.singleton_append, percentDecode_cons_of_ne hne, ih]
    · subst hspace
      have hspace : plusToSpace (ascii '+') = ascii ' ' := by decide
      rw [List.map_singleton, hspace, List.singleton_append,
        percentDecode_cons_of_ne (by decide), ih]
    · rw [hescape, percentDecode_encodeByte, ih]

theorem formDecode_formEncode (s : String) : formDecode (formEncode (Text.utf8 s)) = s := by
  rw [formDecode, percentDecode_formEncode, Text.fromUtf8Lossy_utf8]

/-- Neither delimiter of a form comes out of its encoder. -/
theorem not_mem_formEncode {c : UInt8} (hc : c = ascii '&' ∨ c = ascii '=') (bytes : List UInt8) :
    c ∉ formEncode bytes := by
  have hall : ∀ b, c ∉ (if isFormByte b then [b] else if b = ascii ' ' then [ascii '+']
      else encodeByte b) := by
    obtain rfl | rfl := hc
    · exact forall_byte (by decide +kernel)
    · exact forall_byte (by decide +kernel)
  intro hmem
  obtain ⟨b, -, hb⟩ := List.mem_flatMap.mp hmem
  exact hall b hb

theorem formPair_formEncode (key value : String) :
    formPair (formEncode (Text.utf8 key) ++ ascii '=' :: formEncode (Text.utf8 value)) =
      (key, value) := by
  have hkey : ∀ b ∈ formEncode (Text.utf8 key), inKey b = true := by
    intro b hb
    rw [inKey, decide_eq_true_eq]
    rintro rfl
    exact not_mem_formEncode (.inr rfl) _ hb
  have hstop : ¬ inKey (ascii '=') = true := by decide
  rw [formPair, List.takeWhile_append_of_pos hkey, List.dropWhile_append_of_pos hkey,
    List.takeWhile_cons_of_neg hstop, List.dropWhile_cons_of_neg hstop, List.append_nil,
    List.drop_one, List.tail_cons, formDecode_formEncode, formDecode_formEncode]

/-- A parameter that is added comes last, behind those that were there. -/
theorem formPairs_appendPair (url : WebUrl) (key value : String) :
    formPairs ((url.appendPair key value).query.getD []) =
      formPairs (url.query.getD []) ++ [(key, value)] := by
  have hpair : formPairs (formEncode (Text.utf8 key) ++ ascii '=' :: formEncode (Text.utf8 value)) =
      [(key, value)] := by
    have hamp : ascii '&' ∉
        formEncode (Text.utf8 key) ++ ascii '=' :: formEncode (Text.utf8 value) := by
      rw [List.mem_append, List.mem_cons, not_or, not_or]
      exact ⟨not_mem_formEncode (.inl rfl) _, by decide, not_mem_formEncode (.inl rfl) _⟩
    rw [formPairs, List.splitOn_eq_singleton hamp, List.filter_cons_of_pos (by simp),
      List.filter_nil, List.map_singleton, formPair_formEncode]
  rw [WebUrl.appendPair]
  cases hbefore : url.query.getD [] with
  | nil => exact hpair
  | cons b before =>
    show formPairs (b :: before ++ ascii '&' :: _) = _
    rw [formPairs, List.splitOn_append_cons_self, List.filter_append, List.map_append]
    exact congrArg _ hpair

-- ════════════════════════════════════════════════════════════════════════
-- Requests
-- ════════════════════════════════════════════════════════════════════════

inductive Method where
  | get
  | post
  | delete
  deriving DecidableEq, Repr

/-- A request as the server gets it; a body is a JSON value. -/
structure HttpRequest where
  method : Method
  path : List UInt8
  query : Option (List UInt8)
  body : Option Json
  deriving DecidableEq

end Botwork.Foundations
