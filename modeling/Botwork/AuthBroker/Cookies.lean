import Botwork.AuthBroker.Requests
import Botwork.Foundations.WebUrl

/-!
# Cookie credentials

Where a request carries no `Authorization` header its credential is the cookie
`botwork_cap`.  The code looks at the first `Cookie` header only, reads it if all of
its bytes are visible, and gives up at the first part without an equals sign.

## Main definitions

- `requestCap` — the credential the code finds
- `firstCap` — the first part that carries one, over all headers
- `InReach` — the parts the code sees
- `authCookie`, `sentBack` — the cookie the broker sets and what a browser makes of it

## Main results

- `request_cap_iff`
-/

namespace Botwork.AuthBroker

open Botwork.Foundations

/-- The headers of a request in order, their names in lower case. -/
abbrev RequestHeaders := List (String × List UInt8)

/-- `HeaderMap::get_all`. -/
def RequestHeaders.getAll (headers : RequestHeaders) (name : String) : List (List UInt8) :=
  (headers.filter fun header => header.1 == name).map (·.2)

/-- `HeaderMap::get`. -/
def RequestHeaders.get (headers : RequestHeaders) (name : String) : Option (List UInt8) :=
  (headers.getAll name).head?

def isVisibleAscii (b : UInt8) : Bool := (32 ≤ b && b < 127) || b == 9

/-- A header value, byte by byte. -/
def valueChars (value : List UInt8) : List Char := value.map fun b => Char.ofNat b.toNat

/-- `HeaderValue::to_str`. -/
def headerStr (value : List UInt8) : Option String :=
  if value.all isVisibleAscii then some (String.ofList (valueChars value)) else none

-- ════════════════════════════════════════════════════════════════════════
-- The code
-- ════════════════════════════════════════════════════════════════════════

def botworkCapCookieName : String := "botwork_cap"

def bearerScheme : List Char := "Bearer ".toList

def extractBearer (authHeader : String) : Option String :=
  if ¬ bearerScheme.isPrefixOf authHeader.toList then none
  else
    let bearer := Text.trim (String.ofList (authHeader.toList.drop bearerScheme.length))
    if bearer = "" then none else some bearer

/-- `str::split_once`. -/
def splitOnce (sep : Char) (s : String) : Option (String × String) :=
  if sep ∈ s.toList then
    some (String.ofList (s.toList.takeWhile (· != sep)),
      String.ofList ((s.toList.dropWhile (· != sep)).drop 1))
  else none

/-- The loop over the parts of a header. -/
def scanParts : List String → Option String
  | [] => none
  | part :: parts =>
    match splitOnce '=' (Text.trim part) with
    | none => none
    | some (name, value) =>
      if Text.trim name = botworkCapCookieName then
        if Text.trim value ≠ "" then some (Text.trim value) else scanParts parts
      else scanParts parts

/-- `str::split`. -/
def splitParts (text : List Char) : List (List Char) := text.splitOn ';'

def extractCookieCap (headers : RequestHeaders) : Option String := do
  let value ← headers.get "cookie"
  let cookie ← headerStr value
  scanParts ((splitParts cookie.toList).map String.ofList)

def requestCap (headers : RequestHeaders) : Except ErrorCode (Option String) :=
  let authHeader := ((headers.get "authorization").bind headerStr).getD ""
  if authHeader ≠ "" then
    match extractBearer authHeader with
    | none => .error .invalidBearer
    | some bearer => .ok (some bearer)
  else .ok (extractCookieCap headers)

/-- `auth_cookie`; the expiry date is a parameter. -/
def authCookie (value expires : String) (secure : Bool) : String :=
  botworkCapCookieName ++ "=" ++ value ++ "; Path=/; HttpOnly; SameSite=Lax; Expires=" ++ expires ++
    if secure then "; Secure" else ""

-- ════════════════════════════════════════════════════════════════════════
-- The cookie of a request
-- ════════════════════════════════════════════════════════════════════════

/-- A blank around a cookie's name or value. -/
def isBlank (c : Char) : Bool := c = ' ' || c = '\t'

def stripBlanks (text : List Char) : List Char := (text.dropWhile isBlank).rdropWhile isBlank

/-- The credential of a part: its value, if it has the name and a value. -/
def partCap (part : List Char) : Option String :=
  let pair := stripBlanks part
  let name := stripBlanks (pair.takeWhile (· != '='))
  let value := stripBlanks ((pair.dropWhile (· != '=')).drop 1)
  if '=' ∈ pair ∧ name = botworkCapCookieName.toList ∧ value ≠ [] then
    some (String.ofList value)
  else none

/-- The parts of a header. -/
def cookieParts (value : List UInt8) : List (List Char) := splitParts (valueChars value)

/-- The credential of the first part that has one. -/
def firstCap (values : List (List UInt8)) : Option String :=
  (values.flatMap cookieParts).findSome? partCap

/-- The name and value a browser keeps of a cookie that is set, and sends back. -/
def sentBack (cookie : String) : List Char := cookie.toList.takeWhile (· != ';')

/-- No part has a credential, or one in the first header does whose bytes are all
    visible, with an equals sign in every part in front of it. -/
def InReach (values : List (List UInt8)) : Prop :=
  (∀ part ∈ values.flatMap cookieParts, partCap part = none) ∨
    ∃ first rest before part after, values = first :: rest ∧ first.all isVisibleAscii = true ∧
      cookieParts first = before ++ part :: after ∧ (∀ p ∈ before, '=' ∈ p) ∧
      (partCap part).isSome

-- ════════════════════════════════════════════════════════════════════════
-- Visible text
-- ════════════════════════════════════════════════════════════════════════

/-- The text of a visible header value. -/
def Visible (text : List Char) : Prop := ∀ c ∈ text, Text.isWhitespace c = isBlank c

theorem isWhitespace_of_visible {b : UInt8} (h : isVisibleAscii b = true) :
    Text.isWhitespace (Char.ofNat b.toNat) = isBlank (Char.ofNat b.toNat) := by
  revert h
  exact forall_byte (P := fun b => isVisibleAscii b = true →
    Text.isWhitespace (Char.ofNat b.toNat) = isBlank (Char.ofNat b.toNat)) (by decide +kernel) b

theorem visible_valueChars {value : List UInt8} (h : value.all isVisibleAscii = true) :
    Visible (valueChars value) := by
  intro c hc
  obtain ⟨b, hb, rfl⟩ := List.mem_map.mp hc
  exact isWhitespace_of_visible (List.all_eq_true.mp h b hb)

theorem Visible.sublist {text text' : List Char} (h : Visible text)
    (hsub : text'.Sublist text) : Visible text' := fun c hc => h c (hsub.subset hc)

theorem dropWhile_congr {p q : Char → Bool} {text : List Char} (h : ∀ c ∈ text, p c = q c) :
    text.dropWhile p = text.dropWhile q := by
  induction text with
  | nil => rfl
  | cons c text ih =>
    rw [List.dropWhile_cons, List.dropWhile_cons, h c List.mem_cons_self,
      ih fun d hd => h d (List.mem_cons_of_mem c hd)]

theorem Visible.trim {text : List Char} (h : Visible text) :
    Text.trim (String.ofList text) = String.ofList (stripBlanks text) := by
  have hfront : text.dropWhile Text.isWhitespace = text.dropWhile isBlank := dropWhile_congr h
  have hback : ((text.dropWhile isBlank).reverse).dropWhile Text.isWhitespace =
      ((text.dropWhile isBlank).reverse).dropWhile isBlank := by
    apply dropWhile_congr
    intro c hc
    exact h c ((List.dropWhile_sublist _).subset (List.mem_reverse.mp hc))
  rw [Text.trim, String.toList_ofList, hfront, stripBlanks, List.rdropWhile, List.rdropWhile, hback]

theorem stripBlanks_sublist (text : List Char) : (stripBlanks text).Sublist text :=
  (List.rdropWhile_prefix isBlank _).sublist.trans (List.dropWhile_sublist isBlank)

theorem mem_dropWhile_of_not {p : Char → Bool} {text : List Char} {c : Char} (hc : p c = false)
    (hmem : c ∈ text) : c ∈ text.dropWhile p := by
  rw [← List.takeWhile_append_dropWhile (p := p) (l := text)] at hmem
  rcases List.mem_append.mp hmem with htake | hdrop
  · have htrue := List.mem_takeWhile_imp htake
    rw [hc] at htrue
    cases htrue
  · exact hdrop

/-- Blanks around a part hide no equals sign. -/
theorem equals_mem_stripBlanks {text : List Char} : '=' ∈ stripBlanks text ↔ '=' ∈ text := by
  constructor
  · exact fun h => (stripBlanks_sublist text).subset h
  · intro h
    have hfront := mem_dropWhile_of_not (p := isBlank) (by decide) h
    rw [stripBlanks, List.rdropWhile, List.mem_reverse]
    exact mem_dropWhile_of_not (by decide) (List.mem_reverse.mpr hfront)

-- ════════════════════════════════════════════════════════════════════════
-- The scan
-- ════════════════════════════════════════════════════════════════════════

theorem mem_of_mem_splitOn {sep c : Char} {text part : List Char} (hpart : part ∈ text.splitOn sep)
    (hc : c ∈ part) : c ∈ text := by
  induction text generalizing part with
  | nil =>
    rw [List.splitOn_nil, List.mem_singleton] at hpart
    rw [hpart] at hc
    exact hc
  | cons x text ih =>
    rw [List.splitOn_cons_eq_if_modifyHead] at hpart
    split at hpart
    next =>
      rcases List.mem_cons.mp hpart with rfl | hrest
      · cases hc
      · exact List.mem_cons_of_mem x (ih hrest hc)
    next =>
      cases hparts : text.splitOn sep with
      | nil => exact absurd hparts (List.splitOn_ne_nil sep text)
      | cons first rest =>
        rw [hparts, List.modifyHead_cons] at hpart
        rcases List.mem_cons.mp hpart with rfl | hrest
        · rcases List.mem_cons.mp hc with rfl | hc'
          · exact List.mem_cons_self
          · exact List.mem_cons_of_mem x (ih (hparts ▸ List.mem_cons_self) hc')
        · exact List.mem_cons_of_mem x (ih (hparts ▸ List.mem_cons_of_mem first hrest) hc)

theorem ofList_eq_iff {chars : List Char} {s : String} :
    String.ofList chars = s ↔ chars = s.toList := by
  constructor
  · rintro rfl
    exact String.toList_ofList.symm
  · rintro rfl
    exact String.ofList_toList

/-- The scan finds what is in front of the first part without an equals sign. -/
theorem scanParts_eq {parts : List (List Char)} (h : ∀ part ∈ parts, Visible part) :
    scanParts (parts.map String.ofList) =
      (parts.takeWhile fun part => decide ('=' ∈ part)).findSome? partCap := by
  induction parts with
  | nil => rfl
  | cons part parts ih =>
    have hpart := h part List.mem_cons_self
    have ih' := ih fun p hp => h p (List.mem_cons_of_mem part hp)
    have hpair := hpart.sublist (stripBlanks_sublist part)
    rw [List.map_cons, scanParts, hpart.trim, splitOnce, String.toList_ofList]
    by_cases heq : '=' ∈ part
    · have heq' := equals_mem_stripBlanks.mpr heq
      have hname := hpair.sublist (List.takeWhile_sublist (p := (· != '=')))
      have hvalue := hpair.sublist
        ((List.drop_sublist 1 _).trans (List.dropWhile_sublist (p := (· != '='))))
      rw [if_pos heq', List.takeWhile_cons_of_pos (by simpa using heq), List.findSome?_cons]
      dsimp only
      rw [hname.trim, hvalue.trim, partCap, ih']
      generalize stripBlanks ((stripBlanks part).takeWhile (· != '=')) = name
      generalize stripBlanks (((stripBlanks part).dropWhile (· != '=')).drop 1) = value
      by_cases hn : name = botworkCapCookieName.toList
      · by_cases hv : value = []
        · rw [if_pos (ofList_eq_iff.mpr hn), if_neg (not_not.mpr (ofList_eq_iff.mpr hv)),
            if_neg fun h => h.2.2 hv]
        · rw [if_pos (ofList_eq_iff.mpr hn), if_pos fun h => hv (ofList_eq_iff.mp h),
            if_pos ⟨heq', hn, hv⟩]
      · rw [if_neg fun h => hn (ofList_eq_iff.mp h), if_neg fun h => hn h.2.1]
    · have heq' := fun h => heq (equals_mem_stripBlanks.mp h)
      rw [if_neg heq', List.takeWhile_cons_of_neg (by simpa using heq)]
      rfl

theorem extractCookieCap_eq (headers : RequestHeaders) :
    extractCookieCap headers =
      match headers.getAll "cookie" with
      | [] => none
      | first :: _ =>
        if first.all isVisibleAscii then
          ((cookieParts first).takeWhile fun part => decide ('=' ∈ part)).findSome? partCap
        else none := by
  rw [extractCookieCap, RequestHeaders.get]
  cases headers.getAll "cookie" with
  | nil => rfl
  | cons first rest =>
    show (headerStr first >>= _) = _
    rw [headerStr]
    by_cases hvisible : first.all isVisibleAscii = true
    · have hparts : ∀ part ∈ cookieParts first, Visible part := by
        intro part hpart c hc
        exact visible_valueChars hvisible c (mem_of_mem_splitOn hpart hc)
      rw [if_pos hvisible]
      show scanParts ((splitParts (String.ofList (valueChars first)).toList).map _) =
        if first.all isVisibleAscii = true then _ else none
      rw [if_pos hvisible, String.toList_ofList]
      exact scanParts_eq hparts
    · rw [if_neg hvisible]
      exact (if_neg hvisible).symm

-- ════════════════════════════════════════════════════════════════════════
-- The main result
-- ════════════════════════════════════════════════════════════════════════

/-- A scan that stops at the elements without `p` finds an element of `f`. -/
theorem isSome_findSome?_takeWhile {α β : Type} {p : α → Bool} {f : α → Option β}
    (hf : ∀ x, (f x).isSome → p x = true) (parts : List α) :
    ((parts.takeWhile p).findSome? f).isSome ↔
      ∃ before part after, parts = before ++ part :: after ∧ (∀ x ∈ before, p x = true) ∧
        (f part).isSome := by
  rw [List.findSome?_isSome_iff]
  constructor
  · rintro ⟨part, hmem, hsome⟩
    obtain ⟨before, after, htake⟩ := List.append_of_mem hmem
    refine ⟨before, part, after ++ parts.dropWhile p, ?_, ?_, hsome⟩
    · rw [← List.cons_append, ← List.append_assoc, ← htake, List.takeWhile_append_dropWhile]
    · intro x hx
      apply List.mem_takeWhile_imp (l := parts)
      rw [htake]
      exact List.mem_append_left _ hx
  · rintro ⟨before, part, after, rfl, hbefore, hsome⟩
    refine ⟨part, ?_, hsome⟩
    rw [List.takeWhile_append_of_pos hbefore, List.takeWhile_cons_of_pos (hf part hsome)]
    exact List.mem_append_right _ List.mem_cons_self

/-- What such a scan finds is the first there is. -/
theorem findSome?_takeWhile_eq {α β : Type} {p : α → Bool} {f : α → Option β} {parts : List α}
    (h : ((parts.takeWhile p).findSome? f).isSome) (rest : List α) :
    (parts.takeWhile p).findSome? f = (parts ++ rest).findSome? f := by
  obtain ⟨b, hb⟩ := Option.isSome_iff_exists.mp h
  conv_rhs => rw [← List.takeWhile_append_dropWhile (p := p) (l := parts)]
  rw [List.append_assoc, List.findSome?_append, hb, Option.some_or]

theorem equals_mem_of_partCap (part : List Char) (h : (partCap part).isSome) :
    decide ('=' ∈ part) = true := by
  rw [partCap] at h
  split at h
  next hpair => exact decide_eq_true (equals_mem_stripBlanks.mp hpair.1)
  next => cases h

theorem extractCookieCap_iff (headers : RequestHeaders) :
    extractCookieCap headers = firstCap (headers.getAll "cookie") ↔
      InReach (headers.getAll "cookie") := by
  rw [extractCookieCap_eq]
  cases headers.getAll "cookie" with
  | nil => exact iff_of_true rfl (Or.inl fun part hpart => by cases hpart)
  | cons first rest =>
    have hparts : (first :: rest).flatMap cookieParts =
        cookieParts first ++ rest.flatMap cookieParts := List.flatMap_cons
    rw [InReach, firstCap]
    dsimp only
    by_cases hnone : ∀ part ∈ (first :: rest).flatMap cookieParts, partCap part = none
    · refine iff_of_true ?_ (Or.inl hnone)
      rw [List.findSome?_eq_none_iff.mpr hnone]
      split
      next =>
        rw [List.findSome?_eq_none_iff]
        intro part hpart
        refine hnone part ?_
        rw [hparts]
        exact List.mem_append_left _ ((List.takeWhile_sublist _).subset hpart)
      next => rfl
    · have hsome : (((first :: rest).flatMap cookieParts).findSome? partCap).isSome := by
        rw [Option.isSome_iff_ne_none, Ne, List.findSome?_eq_none_iff]
        exact hnone
      rw [or_iff_right hnone]
      by_cases hvisible : first.all isVisibleAscii = true
      · rw [if_pos hvisible]
        have hscan := isSome_findSome?_takeWhile equals_mem_of_partCap (cookieParts first)
        constructor
        · intro heq
          rw [← heq] at hsome
          obtain ⟨before, part, after, hsplit, hbefore, hcap⟩ := hscan.mp hsome
          exact ⟨first, rest, before, part, after, rfl, hvisible, hsplit,
            fun p hp => of_decide_eq_true (hbefore p hp), hcap⟩
        · rintro ⟨first', rest', before, part, after, hvalues, -, hsplit, hbefore, hcap⟩
          cases hvalues
          rw [hparts]
          exact findSome?_takeWhile_eq (hscan.mpr ⟨before, part, after, hsplit,
            fun p hp => decide_eq_true (hbefore p hp), hcap⟩) _
      · rw [if_neg hvisible]
        refine iff_of_false (fun h => ?_) ?_
        · rw [← h] at hsome
          cases hsome
        · rintro ⟨first', rest', before, part, after, hvalues, hvisible', -⟩
          cases hvalues
          exact hvisible hvisible'

/-- A value that a cookie can carry. -/
structure IsCookieValue (v : String) : Prop where
  ne : v ≠ ""
  chars : ∀ c ∈ v.toList, c ≠ ';' ∧ isBlank c = false

theorem stripBlanks_of_forall {text : List Char} (h : ∀ c ∈ text, isBlank c = false) :
    stripBlanks text = text := by
  have hfront : text.dropWhile isBlank = text := by
    cases text with
    | nil => rfl
    | cons c text =>
      rw [List.dropWhile_cons_of_neg]
      rw [h c List.mem_cons_self]
      exact Bool.false_ne_true
  rw [stripBlanks, hfront, List.rdropWhile_eq_self_iff]
  intro hne
  rw [h _ (List.getLast_mem hne)]
  exact Bool.false_ne_true

theorem sentBack_authCookie {v expires : String} {secure : Bool} (hv : IsCookieValue v) :
    sentBack (authCookie v expires secure) = botworkCapCookieName.toList ++ '=' :: v.toList := by
  have hsplit : (authCookie v expires secure).toList =
      (botworkCapCookieName.toList ++ '=' :: v.toList) ++ ';' ::
        (" Path=/; HttpOnly; SameSite=Lax; Expires=".toList ++ expires.toList ++
          (if secure then "; Secure" else "").toList) := by
    simp [authCookie, String.toList_append]
  have hfront : ∀ c ∈ botworkCapCookieName.toList ++ '=' :: v.toList, (c != ';') = true := by
    intro c hc
    rw [bne_iff_ne]
    rcases List.mem_append.mp hc with hname | hrest
    · exact ne_of_mem_of_not_mem hname (by decide)
    · rcases List.mem_cons.mp hrest with rfl | hvalue
      · decide
      · exact (hv.chars c hvalue).1
  rw [sentBack, hsplit, List.takeWhile_append_of_pos hfront,
    List.takeWhile_cons_of_neg (by decide), List.append_nil]

theorem partCap_pair {v : String} {part : List Char} (hv : IsCookieValue v)
    (hpart : stripBlanks part = botworkCapCookieName.toList ++ '=' :: v.toList) :
    partCap part = some v := by
  have hall : botworkCapCookieName.toList.all (fun c => c != '=' && !isBlank c) = true := by
    decide
  have hname : ∀ c ∈ botworkCapCookieName.toList, (c != '=') = true ∧ isBlank c = false := by
    intro c hc
    simpa using List.all_eq_true.mp hall c hc
  have htake : (botworkCapCookieName.toList ++ '=' :: v.toList).takeWhile (· != '=') =
      botworkCapCookieName.toList := by
    rw [List.takeWhile_append_of_pos fun c hc => (hname c hc).1,
      List.takeWhile_cons_of_neg (by decide), List.append_nil]
  have hdrop : (botworkCapCookieName.toList ++ '=' :: v.toList).dropWhile (· != '=') =
      '=' :: v.toList := by
    rw [List.dropWhile_append_of_pos fun c hc => (hname c hc).1,
      List.dropWhile_cons_of_neg (by decide)]
  have hequals : '=' ∈ botworkCapCookieName.toList ++ '=' :: v.toList :=
    List.mem_append_right _ List.mem_cons_self
  have hne : v.toList ≠ [] := fun h => hv.ne (by rw [← String.ofList_toList (s := v), h])
  rw [partCap, hpart]
  rw [htake, hdrop, List.drop_one, List.tail_cons, stripBlanks_of_forall fun c hc => (hname c hc).2,
    stripBlanks_of_forall fun c hc => (hv.chars c hc).2, if_pos ⟨hequals, rfl, hne⟩,
    String.ofList_toList]

/-- **Cookie credentials**: without an `Authorization` header a request has the
    credential of the first part that carries one exactly if the code's scan comes that
    far; and the pair that a browser sends back carries the value that was set. -/
theorem request_cap_iff {headers : RequestHeaders} (hauth : headers.get "authorization" = none) :
    (requestCap headers = .ok (firstCap (headers.getAll "cookie")) ↔
      InReach (headers.getAll "cookie")) ∧
    ∀ v expires secure before part after, IsCookieValue v →
      (headers.getAll "cookie").flatMap cookieParts = before ++ part :: after →
      (∀ p ∈ before, partCap p = none) →
      stripBlanks part = sentBack (authCookie v expires secure) →
      firstCap (headers.getAll "cookie") = some v := by
  constructor
  · rw [← extractCookieCap_iff, requestCap, hauth]
    show (.ok (extractCookieCap headers) : Except ErrorCode (Option String)) = _ ↔ _
    rw [Except.ok.injEq]
  · intro v expires secure before part after hv hparts hbefore hpart
    rw [sentBack_authCookie hv] at hpart
    rw [firstCap, hparts, List.findSome?_eq_some_iff]
    exact ⟨before, part, after, rfl, partCap_pair hv hpart, hbefore⟩

/-- Behind another cookie the credential is found. -/
theorem request_cap_iff_second_part :
    requestCap [("cookie", asciiText "theme=dark; botwork_cap=abc")] = .ok (some "abc") := by
  have hfirst : firstCap [asciiText "theme=dark; botwork_cap=abc"] = some "abc" := by decide +kernel
  have hreach : InReach [asciiText "theme=dark; botwork_cap=abc"] :=
    Or.inr ⟨_, [], ["theme=dark".toList], " botwork_cap=abc".toList, [], rfl, by decide +kernel,
      by decide +kernel, by decide, by decide +kernel⟩
  have hauth : RequestHeaders.get [("cookie", asciiText "theme=dark; botwork_cap=abc")]
      "authorization" = none := rfl
  have hiff := (request_cap_iff hauth).1
  exact (hiff.mpr hreach).trans (congrArg Except.ok hfirst)

/-- A part without an equals sign in front of the credential hides it. -/
theorem bare_part_hides_credential :
    ¬ ∀ headers : RequestHeaders, headers.get "authorization" = none →
      requestCap headers = .ok (firstCap (headers.getAll "cookie")) := by
  intro hclaim
  have hfound := hclaim [("cookie", asciiText "theme; botwork_cap=abc")] rfl
  have hnone : requestCap [("cookie", asciiText "theme; botwork_cap=abc")] = .ok none := by
    decide +kernel
  have hfirst : firstCap [asciiText "theme; botwork_cap=abc"] = some "abc" := by decide +kernel
  rw [hnone] at hfound
  exact Option.some_ne_none "abc" (hfirst.symm.trans (Except.ok.inj hfound).symm)

end Botwork.AuthBroker
