import Botwork.Api.SecretStore
import Botwork.AuthBroker.SecretRoutes

/-!
# The address of a secret

The API names a secret by a service and a name, and the secret store by what its
router reads of the request.  A stored secret is the one that is named.  A
deletion puts the two strings into a URL as they are, and the store reads them
back as a URL.

## Main definitions

- `spelledKey` — the key that a service and a name spell in a URL
- `addressed_deleteSecret` — the secret a deletion reaches
- `Faithful` — when that is the one that was named
-/

namespace Botwork.System

open Botwork.Foundations Botwork.Vault Botwork.Api Botwork.AuthBroker

-- ════════════════════════════════════════════════════════════════════════
-- What a URL makes of a key
-- ════════════════════════════════════════════════════════════════════════

/-- The service in a URL: tabs and line breaks are dropped. -/
def urlService (service : String) : Bytes := (Text.utf8 service).filter isText

/-- The name in a URL, which it ends: controls behind it are dropped, too. -/
def urlName (name : String) : Bytes := ((Text.utf8 name).rdropWhile isC0OrSpace).filter isText

/-- The name up to the first mark. -/
def urlNamePath (name : String) : Bytes := (urlName name).takeWhile inPath

/-- The text behind the first question mark has no parameter `tenant`. -/
def tenantFree (name : String) : Bool :=
  (formPairs ((WebUrl.parseQuery ((urlName name).dropWhile inPath)).getD [])).all
    fun pair => pair.1 ≠ "tenant"

/-- The key a service and a name spell, with their escapes decoded; a mark in the
    service ends the path before the name. -/
def spelledKey (service name : String) : Option SecretKey :=
  if (urlService service).all inPath then do
    let service ← fromUtf8 (percentDecode (urlService service))
    let name ← fromUtf8 (percentDecode (urlNamePath name))
    return ⟨service, name⟩
  else none

def secretsSegment : Bytes := asciiText "secrets"

variable {tenant service name : String}

/-- The bytes of a component have no slash of either kind. -/
theorem isSlash_of_component {s : String} (h : AcceptedComponent s) :
    ∀ b ∈ Text.utf8 s, isSlash b = false := by
  intro b hb
  rw [isSlash, Bool.or_eq_false_iff, decide_eq_false_iff_not, decide_eq_false_iff_not]
  constructor
  · rintro rfl
    exact h.noSlash (mem_of_ascii_mem_utf8 (by decide) hb)
  · rintro rfl
    exact h.noBackslash (mem_of_ascii_mem_utf8 (by decide) hb)

/-- The URL of a deletion. -/
def deleteUrl (service name : String) : WebUrl :=
  let rest := ascii '/' :: secretsSegment ++ ascii '/' :: urlService service ++
    ascii '/' :: urlName name
  { host := asciiText "secret_store:9101"
    path := WebUrl.parsePath (rest.takeWhile inPath)
    query := WebUrl.parseQuery (rest.dropWhile inPath) }

theorem deleteSecret_eq (tenant service name : String) :
    deleteSecret tenant service name =
      some ⟨.delete, (deleteUrl service name).pathText,
        ((deleteUrl service name).appendPair "tenant" tenant).query, none⟩ := by
  have hendpoint : Text.utf8 secretStoreEndpoint =
      WebUrl.scheme ++ asciiText "secret_store:9101" := by
    decide
  have hfront : Text.utf8 "/secrets/" = ascii '/' :: (secretsSegment ++ [ascii '/']) := by
    decide
  have hslash : Text.utf8 "/" = [ascii '/'] := by decide
  have hsegment : (secretsSegment ++ [ascii '/']).filter isText = secretsSegment ++ [ascii '/'] := by
    decide
  have hhost : ∀ b ∈ asciiText "secret_store:9101", WebUrl.isHostByte b = true :=
    List.all_eq_true.mp rfl
  have htext : Text.utf8 (secretStoreEndpoint ++ "/secrets/" ++ service ++ "/" ++ name) =
      WebUrl.scheme ++ asciiText "secret_store:9101" ++
        ascii '/' :: (secretsSegment ++ [ascii '/'] ++ Text.utf8 service) ++
          ascii '/' :: Text.utf8 name := by
    rw [utf8_append, utf8_append, utf8_append, utf8_append, hendpoint, hfront, hslash]
    simp
  have hrest : ascii '/' :: (secretsSegment ++ [ascii '/'] ++ Text.utf8 service).filter isText ++
        ascii '/' :: ((Text.utf8 name).rdropWhile isC0OrSpace).filter isText =
      ascii '/' :: secretsSegment ++ ascii '/' :: urlService service ++
        ascii '/' :: urlName name := by
    rw [List.filter_append, hsegment, urlService, urlName]
    simp
  rw [deleteSecret, requestTo, htext, WebUrl.parse_http hhost, hrest]
  rfl

-- ════════════════════════════════════════════════════════════════════════
-- What the store reads
-- ════════════════════════════════════════════════════════════════════════

/-- The path of a deletion up to a mark. -/
theorem takeWhile_rest {service name : Bytes} :
    (ascii '/' :: secretsSegment ++ ascii '/' :: service ++ ascii '/' :: name).takeWhile inPath =
      if service.all inPath then
        [secretsSegment, service, name.takeWhile inPath].flatMap (ascii '/' :: ·)
      else [secretsSegment, service.takeWhile inPath].flatMap (ascii '/' :: ·) := by
  have hsecrets : ∀ b ∈ ascii '/' :: secretsSegment, inPath b = true :=
    List.all_eq_true.mp rfl
  have hslash : inPath (ascii '/') = true := by decide
  have hservice : (service.takeWhile inPath).length = service.length ↔
      service.all inPath = true := by
    rw [List.all_eq_true, ← List.takeWhile_eq_self_iff]
    exact ⟨fun h => (List.takeWhile_prefix _).eq_of_length h, fun h => congrArg _ h⟩
  rw [List.append_assoc, List.takeWhile_append_of_pos hsecrets]
  show _ ++ (ascii '/' :: (service ++ ascii '/' :: name)).takeWhile inPath = _
  rw [List.takeWhile_cons_of_pos hslash, List.takeWhile_append, List.takeWhile_cons_of_pos hslash]
  by_cases hall : service.all inPath = true
  · rw [if_pos (hservice.mpr hall), if_pos hall]
    simp
  · rw [if_neg fun h => hall (hservice.mp h), if_neg hall]
    simp

/-- What follows the path when the service has no mark. -/
theorem dropWhile_rest {service name : Bytes} (hservice : service.all inPath = true) :
    (ascii '/' :: secretsSegment ++ ascii '/' :: service ++ ascii '/' :: name).dropWhile inPath =
      name.dropWhile inPath := by
  have hsecrets : ∀ b ∈ ascii '/' :: secretsSegment, inPath b = true :=
    List.all_eq_true.mp rfl
  have hslash : inPath (ascii '/') = true := by decide
  rw [List.append_assoc, List.dropWhile_append_of_pos hsecrets]
  show (ascii '/' :: (service ++ ascii '/' :: name)).dropWhile inPath = _
  rw [List.dropWhile_cons_of_pos hslash,
    List.dropWhile_append_of_pos (List.all_eq_true.mp hservice), List.dropWhile_cons_of_pos hslash]

/-- The slash is no byte of what a URL keeps of a component. -/
theorem isSlash_of_urlService (h : AcceptedComponent service) :
    ∀ b ∈ urlService service, isSlash b = false :=
  fun b hb => isSlash_of_component h b (List.mem_of_mem_filter hb)

theorem isSlash_of_urlNamePath (h : AcceptedComponent name) :
    ∀ b ∈ urlNamePath name, isSlash b = false := by
  intro b hb
  have hname := List.mem_of_mem_filter ((List.takeWhile_prefix _).subset hb)
  exact isSlash_of_component h b ((List.rdropWhile_prefix _ _).subset hname)

/-- A dot segment as a URL writes it. -/
def isDots (segment : Bytes) : Prop :=
  percentEncode pathSet segment ∈ doubleDots ∨ percentEncode pathSet segment ∈ singleDots

/-- No component of a valid key is written as a dot segment. -/
theorem not_isDots_of_validate {key : SecretKey} (h : key.validate = .ok ()) {segment : Bytes}
    (hsegment : percentDecode segment = Text.utf8 key.service ∨
      percentDecode segment = Text.utf8 key.name) :
    ¬ isDots segment := by
  have hdot : asciiText "." = Text.utf8 "." := by decide
  have hdots : asciiText ".." = Text.utf8 ".." := by decide
  intro hmem
  have hspelled : ∀ s, percentDecode segment = Text.utf8 s → s = "." ∨ s = ".." := by
    intro s hs
    obtain heq | heq := WebUrl.percentDecode_of_dots hmem
    · exact .inl (Text.utf8_injective (hs.symm.trans (heq.trans hdot)))
    · exact .inr (Text.utf8_injective (hs.symm.trans (heq.trans hdots)))
  obtain ⟨hservice, hname⟩ := SecretKey.validate_eq_ok.mp h
  obtain hs | hn := hsegment
  · obtain heq | heq := hspelled _ hs
    · rw [heq] at hservice
      exact absurd hservice (by decide)
    · rw [heq] at hservice
      exact absurd hservice (by decide)
  · obtain ⟨-, hdot, hdots, -⟩ := validateComponent_eq_ok.mp hname
    exact (hspelled _ hn).elim hdot hdots

/-- The path of a deletion: a dot segment leaves fewer segments, or no name. -/
theorem pushSegments_delete (service name : Bytes) :
    let path := WebUrl.pushSegments [] [secretsSegment, service, name]
    path.length ≤ 2 ∧ (isDots service ∨ isDots name) ∨
      path = [secretsSegment, percentEncode pathSet service, []] ∧ isDots name ∨
        path = [secretsSegment, percentEncode pathSet service, percentEncode pathSet name] ∧
          ¬ isDots service ∧ ¬ isDots name := by
  have hsecrets : WebUrl.pushSegment [] (percentEncode pathSet secretsSegment) false =
      [secretsSegment] := by
    decide
  simp only [WebUrl.pushSegments, hsecrets]
  by_cases hservice : isDots service
  · have hshort : (WebUrl.pushSegment [secretsSegment] (percentEncode pathSet service) false).length
        ≤ 1 := by
      rw [WebUrl.pushSegment]
      by_cases hdouble : percentEncode pathSet service ∈ doubleDots
      · rw [if_pos hdouble]
        exact Nat.zero_le 1
      · rw [if_neg hdouble, if_pos (hservice.resolve_left hdouble)]
        exact Nat.le_refl 1
    have hlength := WebUrl.length_pushSegment_le
      (WebUrl.pushSegment [secretsSegment] (percentEncode pathSet service) false)
      (percentEncode pathSet name) true
    exact .inl ⟨by omega, .inl hservice⟩
  · obtain ⟨hdouble, hsingle⟩ := not_or.mp hservice
    have hpush : WebUrl.pushSegment [secretsSegment] (percentEncode pathSet service) false =
        [secretsSegment, percentEncode pathSet service] := by
      rw [WebUrl.pushSegment, if_neg hdouble, if_neg hsingle]
      rfl
    rw [hpush, WebUrl.pushSegment]
    by_cases hdouble' : percentEncode pathSet name ∈ doubleDots
    · rw [if_pos hdouble']
      exact .inl ⟨Nat.le_refl 2, .inr (.inl hdouble')⟩
    · rw [if_neg hdouble']
      by_cases hsingle' : percentEncode pathSet name ∈ singleDots
      · rw [if_pos hsingle']
        exact .inr (.inl ⟨rfl, .inr hsingle'⟩)
      · rw [if_neg hsingle']
        exact .inr (.inr ⟨rfl, hservice, not_or.mpr ⟨hdouble', hsingle'⟩⟩)

theorem spelledKey_eq_some {key : SecretKey} :
    spelledKey service name = some key ↔ (urlService service).all inPath = true ∧
      percentDecode (urlService service) = Text.utf8 key.service ∧
        percentDecode (urlNamePath name) = Text.utf8 key.name := by
  rw [spelledKey]
  split
  next hmark =>
    simp only [Option.bind_eq_bind, Option.bind_eq_some_iff, fromUtf8_eq_some, Option.pure_def,
      Option.some.injEq, hmark, true_and]
    constructor
    · rintro ⟨s, hs, n, hn, rfl⟩
      exact ⟨hs, hn⟩
    · exact fun ⟨hs, hn⟩ => ⟨key.service, hs, key.name, hn, rfl⟩
  next hmark => exact iff_of_false nofun fun h => hmark h.1

/-- The segments of a deletion as they are written: a mark in the service ends the
    path. -/
def deleteSegments (service name : String) : List Bytes :=
  if (urlService service).all inPath then [secretsSegment, urlService service, urlNamePath name]
  else [secretsSegment, (urlService service).takeWhile inPath]

theorem isSlash_of_deleteSegments (hservice : AcceptedComponent service)
    (hname : AcceptedComponent name) :
    ∀ segment ∈ deleteSegments service name, ∀ b ∈ segment, isSlash b = false := by
  have hsecrets : ∀ b ∈ secretsSegment, isSlash b = false := by
    intro b hb
    have hall : secretsSegment.all (fun b => !isSlash b) = true := rfl
    simpa using List.all_eq_true.mp hall b hb
  have hservice' := isSlash_of_urlService hservice
  have hfront : ∀ b ∈ (urlService service).takeWhile inPath, isSlash b = false :=
    fun b hb => hservice' b ((List.takeWhile_prefix _).subset hb)
  rw [deleteSegments]
  split
  next => simpa using ⟨hsecrets, hservice', isSlash_of_urlNamePath hname⟩
  next => simpa using ⟨hsecrets, hfront⟩

theorem deleteUrl_path (hservice : AcceptedComponent service) (hname : AcceptedComponent name) :
    (deleteUrl service name).path = WebUrl.pushSegments [] (deleteSegments service name) := by
  rw [← WebUrl.parsePath_segments (isSlash_of_deleteSegments hservice hname), deleteSegments,
    apply_ite (List.flatMap _)]
  exact congrArg WebUrl.parsePath takeWhile_rest

theorem not_mem_deleteUrl_path (hservice : AcceptedComponent service)
    (hname : AcceptedComponent name) :
    ∀ segment ∈ (deleteUrl service name).path, ascii '/' ∉ segment := by
  intro segment hsegment
  rw [deleteUrl_path hservice hname] at hsegment
  refine WebUrl.not_mem_pushSegments (fun raw hraw hmem => ?_) hsegment
  exact absurd (isSlash_of_deleteSegments hservice hname raw hraw _ hmem) (by decide)

/-- The secret that a deletion reaches is the one its service and its name spell. -/
theorem addressed_deleteSecret {request : HttpRequest} {unixNow : Int} {target : String × SecretKey}
    (hservice : AcceptedComponent service) (hname : AcceptedComponent name)
    (h : deleteSecret tenant service name = some request) :
    addressed request unixNow = some target ↔
      spelledKey service name = some target.2 ∧ tenantFree name = true ∧
        target.2.validate = .ok () ∧ target.1 = tenant := by
  have hpath := deleteUrl_path hservice hname
  have hslash := not_mem_deleteUrl_path hservice hname
  rw [deleteSecret_eq] at h
  cases h
  rw [spelledKey_eq_some]
  by_cases hmark : (urlService service).all inPath = true
  · have hquery : deleteQuery ((deleteUrl service name).appendPair "tenant" tenant).query =
        if tenantFree name then some tenant else none := by
      rw [deleteQuery_appendPair, tenantFree, ← dropWhile_rest hmark]
      rfl
    rw [deleteSegments, if_pos hmark] at hpath
    have hcases := pushSegments_delete (urlService service) (urlNamePath name)
    rw [← hpath] at hcases
    have hnot : isDots (urlService service) ∨ isDots (urlNamePath name) →
        ¬ (((urlService service).all inPath = true ∧
          percentDecode (urlService service) = Text.utf8 target.2.service ∧
            percentDecode (urlNamePath name) = Text.utf8 target.2.name) ∧
              tenantFree name = true ∧ target.2.validate = .ok () ∧ target.1 = tenant) := by
      rintro hdots ⟨⟨-, hs, hn⟩, -, hvalid, -⟩
      exact hdots.elim (not_isDots_of_validate hvalid (.inl hs))
        (not_isDots_of_validate hvalid (.inr hn))
    obtain ⟨hlength, hdots⟩ | ⟨hthree, hdots⟩ | ⟨hthree, -⟩ := hcases
    · rw [addressed_of_length_le hslash hlength]
      exact iff_of_false nofun (hnot hdots)
    · refine iff_of_false (fun h => ?_) (hnot (.inr hdots))
      obtain ⟨-, hn, -, hvalid⟩ := (addressed_eq_some hslash hthree).mp h
      have hempty : target.2.name = "" := Text.utf8_injective hn.symm
      obtain ⟨-, hname⟩ := SecretKey.validate_eq_ok.mp hvalid
      exact (validateComponent_eq_ok.mp hname).1 hempty
    · rw [addressed_eq_some hslash hthree, percentDecode_percentEncode sparing_pathSet,
        percentDecode_percentEncode sparing_pathSet, hquery]
      constructor
      · rintro ⟨hs, hn, htenant, hvalid⟩
        split at htenant
        next hfree =>
          exact ⟨⟨hmark, hs, hn⟩, hfree, hvalid, (Option.some.inj htenant).symm⟩
        next => cases htenant
      · rintro ⟨⟨-, hs, hn⟩, hfree, hvalid, rfl⟩
        exact ⟨hs, hn, if_pos hfree, hvalid⟩
  · rw [deleteSegments, if_neg hmark] at hpath
    have hlength := WebUrl.length_pushSegments_le []
      [secretsSegment, (urlService service).takeWhile inPath]
    rw [← hpath] at hlength
    rw [addressed_of_length_le hslash hlength]
    exact iff_of_false nofun fun h => hmark h.1.1

-- ════════════════════════════════════════════════════════════════════════
-- Faithful calls
-- ════════════════════════════════════════════════════════════════════════

/-- A byte that a URL hands on as it is. -/
def isPlainByte (b : UInt8) : Bool := isText b && inPath b && !isC0OrSpace b && b ≠ ascii '%'

theorem isPlainByte_of_component {s : String} (h : s.toList.all isComponentChar = true) :
    ∀ b ∈ Text.utf8 s, isPlainByte b = true := by
  have hall : ∀ b, isPlainByte b = false →
      b < 0x80 ∧ isComponentChar (Char.ofNat b.toNat) = false :=
    forall_byte (by decide +kernel)
  intro b hb
  by_contra hplain
  obtain ⟨hlt, hchar⟩ := hall b (Bool.eq_false_iff.mpr hplain)
  obtain ⟨c, hc, hmem⟩ := List.mem_flatMap.mp hb
  rw [← (Text.mem_utf8EncodeChar_of_lt hlt).mp hmem, Char.ofNat_toNat] at hchar
  rw [List.all_eq_true.mp h c hc] at hchar
  cases hchar

/-- A valid key spells itself. -/
theorem spelledKey_of_validate (hservice : AcceptedComponent service)
    (hvalid : SecretKey.validate ⟨service, name⟩ = .ok ()) :
    spelledKey service name = some ⟨service, name⟩ ∧ tenantFree name = true := by
  have hplain : ∀ b, isPlainByte b = true →
      isText b = true ∧ inPath b = true ∧ isC0OrSpace b = false ∧ b ≠ ascii '%' :=
    forall_byte (by decide +kernel)
  obtain ⟨hs, hn⟩ := SecretKey.validate_eq_ok.mp hvalid
  rw [validateService_eq_ok hservice.noSlash] at hs
  have hservice := isPlainByte_of_component (validateComponent_eq_ok.mp hs).2.2.2
  have hname := isPlainByte_of_component (validateComponent_eq_ok.mp hn).2.2.2
  have hdecode : ∀ s, (∀ b ∈ Text.utf8 s, isPlainByte b = true) →
      percentDecode (Text.utf8 s) = Text.utf8 s :=
    fun s h => percentDecode_eq_self fun hmem => (hplain _ (h _ hmem)).2.2.2 rfl
  have hurlService : urlService service = Text.utf8 service :=
    List.filter_eq_self.mpr fun b hb => (hplain b (hservice b hb)).1
  have hurlName : urlName name = Text.utf8 name := by
    have htail : (Text.utf8 name).rdropWhile isC0OrSpace = Text.utf8 name := by
      refine List.rdropWhile_eq_self_iff.mpr fun hne hlast => ?_
      rw [(hplain _ (hname _ (List.getLast_mem hne))).2.2.1] at hlast
      cases hlast
    rw [urlName, htail]
    exact List.filter_eq_self.mpr fun b hb => (hplain b (hname b hb)).1
  have hpath : ∀ b ∈ Text.utf8 name, inPath b = true := fun b hb => (hplain b (hname b hb)).2.1
  constructor
  · rw [spelledKey_eq_some, hurlService, urlNamePath, hurlName, List.takeWhile_eq_self_iff.mpr hpath]
    exact ⟨List.all_eq_true.mpr fun b hb => (hplain b (hservice b hb)).2.1,
      hdecode service hservice, hdecode name hname⟩
  · rw [tenantFree, hurlName, List.dropWhile_eq_nil_iff.mpr hpath]
    rfl

-- ════════════════════════════════════════════════════════════════════════
-- Stored secrets
-- ════════════════════════════════════════════════════════════════════════

theorem jsonTexts_strings (texts : List String) :
    jsonTexts (.array (texts.map .string)) = some texts := by
  rw [jsonTexts, List.mapM_map]
  induction texts with
  | nil => rfl
  | cons text texts ih => simp [List.mapM_cons, ih, Json.asStr]

/-- The store reads the body that is sent. -/
theorem ofJson_json (req : PutSecretRequest) :
    StoreRequest.ofJson req.json = some
      { tenant := req.tenant
        key := ⟨req.service, req.name⟩
        kind := parseSecretKind req.kind
        value := Base64.decode req.valueB64
        allowedConsumers := req.allowedConsumers
        tags := req.tags
        overwrite := req.overwrite } := by
  simp [StoreRequest.ofJson, PutSecretRequest.json, jsonField, Json.asStr, jsonTexts_strings,
    jsonBool]

/-- A secret is stored under the key and the tenant of the body. -/
theorem addressed_putSecret {req : PutSecretRequest} {request : HttpRequest} {unixNow : Int}
    {target : String × SecretKey} (h : putSecret req = some request)
    (htarget : addressed request unixNow = some target) :
    target = (req.tenant, ⟨req.service, req.name⟩) := by
  have hparse : WebUrl.parse (Text.utf8 (secretStoreEndpoint ++ "/secrets")) =
      some ⟨asciiText "secret_store:9101", [secretsSegment], none⟩ := by
    decide
  have hpath : ((WebUrl.pathText ⟨asciiText "secret_store:9101", [secretsSegment], none⟩).splitOn
      (ascii '/')).tail = [asciiText "secrets"] := by
    decide
  rw [putSecret, requestTo, hparse] at h
  cases h
  have hrouter : ∀ {body}, StoreRequest.ofJson req.json = some body →
      (secretsRouter ⟨.post, WebUrl.pathText ⟨asciiText "secret_store:9101", [secretsSegment], none⟩,
        none, some req.json⟩).toOption = some (.store body) := by
    intro body hbody
    simp only [secretsRouter, hpath, Option.bind_some, hbody]
    rfl
  simp only [List.foldl_nil, addressed, hrouter (ofJson_json req), Request.vaultTenant, Option.bind_eq_bind,
    Option.bind_some, Option.bind_eq_some_iff] at htarget
  obtain ⟨⟨write, overwrite⟩, hwrite, htarget⟩ := htarget
  rw [toOption_eq_some] at hwrite
  cases htarget
  rw [key_of_secretWrite_store hwrite]

/-- When a call writes the secret it names, or none: a deletion names a valid key,
    or the key that its service and its name spell is not valid, or the text behind
    the question mark has a tenant of its own. -/
def Faithful : SecretCall → Prop
  | .create _ _ => True
  | .delete _ service name =>
    let service := Text.trim service
    let name := Text.trim name
    SecretKey.validate ⟨service, name⟩ = .ok () ∨
      ∀ key, spelledKey service name = some key → tenantFree name = true → key.validate ≠ .ok ()

/-- A call writes no other secret than the one it reports exactly when it is
    faithful. -/
theorem addressed_eq_reported_iff {caller : Caller} {call : SecretCall} {sent : SentSecret}
    (h : call.send caller = .ok sent) (unixNow : Int) :
    (∀ target, sent.request.bind (addressed · unixNow) = some target → target = sent.reported) ↔
      Faithful call := by
  cases call with
  | create tenant body =>
    obtain ⟨_, -, h⟩ := bind_eq_ok.mp h
    obtain ⟨service, -, h⟩ := bind_eq_ok.mp h
    obtain ⟨name, -, h⟩ := bind_eq_ok.mp h
    cases h
    refine iff_of_true (fun target htarget => ?_) trivial
    obtain ⟨request, hrequest, htarget⟩ := Option.bind_eq_some_iff.mp htarget
    exact addressed_putSecret hrequest htarget
  | delete tenant service name =>
    obtain ⟨_, -, h⟩ := bind_eq_ok.mp h
    obtain ⟨_, hs, h⟩ := bind_eq_ok.mp h
    obtain ⟨_, hn, h⟩ := bind_eq_ok.mp h
    obtain ⟨rfl, hservice⟩ := requireSecretComponent_eq_ok hs
    obtain ⟨rfl, hname⟩ := requireSecretComponent_eq_ok hn
    obtain rfl := Except.ok.inj h
    obtain ⟨request, hsent⟩ : ∃ request,
        deleteSecret tenant (Text.trim service) (Text.trim name) = some request :=
      ⟨_, deleteSecret_eq tenant _ _⟩
    simp only [hsent, Option.bind_some, addressed_deleteSecret hservice hname hsent]
    constructor
    · intro hall
      by_cases hvalid : SecretKey.validate ⟨Text.trim service, Text.trim name⟩ = .ok ()
      · exact .inl hvalid
      · refine .inr fun key hkey hfree hkeyValid => hvalid ?_
        have hsame := hall (tenant, key) ⟨hkey, hfree, hkeyValid, rfl⟩
        rw [← (Prod.mk.inj hsame).2]
        exact hkeyValid
    · rintro hfaithful ⟨tenant', key⟩ ⟨hkey, hfree, hkeyValid, rfl⟩
      obtain hvalid | hnone := hfaithful
      · have hself := (spelledKey_of_validate hservice hvalid).1
        rw [hself] at hkey
        cases hkey
        rfl
      · exact absurd hkeyValid (hnone key hkey hfree)

/-- What a deletion sends when its checks pass. -/
theorem send_delete {caller : Caller} {service' name' : String}
    (htenant : checkTenantConsistency caller tenant = .ok ())
    (hservice : requireSecretComponent "service" service = .ok service')
    (hname : requireSecretComponent "name" name = .ok name') :
    (SecretCall.delete tenant service name).send caller =
      .ok ⟨deleteSecret tenant service' name', (tenant, ⟨service', name'⟩)⟩ := by
  rw [SecretCall.send, htenant, hservice, hname]
  rfl

theorem addressed_eq_reported_token :
    (∀ target, (deleteSecret "acme" "github" "token").bind (addressed · 0) = some target →
        target = ("acme", ⟨"github", "token"⟩)) ↔
      Faithful (.delete "acme" "github" "token") := by
  have hsend : (SecretCall.delete "acme" "github" "token").send ⟨false, some "acme"⟩ =
      .ok ⟨deleteSecret "acme" "github" "token", ("acme", ⟨"github", "token"⟩)⟩ :=
    send_delete (by decide +kernel) (by decide +kernel) (by decide +kernel)
  exact addressed_eq_reported_iff hsend 0

/-- The name `tok?x` deletes `tok`. -/
theorem deletion_reaches_another_secret :
    ¬ ∀ (caller : Caller) (call : SecretCall) (sent : SentSecret) (unixNow : Int)
      (target : String × SecretKey), call.send caller = .ok sent →
        sent.request.bind (addressed · unixNow) = some target → target = sent.reported := by
  intro h
  have hsend : (SecretCall.delete "acme" "github" "tok?x").send ⟨false, some "acme"⟩ =
      .ok ⟨deleteSecret "acme" "github" "tok?x", ("acme", ⟨"github", "tok?x"⟩)⟩ :=
    send_delete (by decide +kernel) (by decide +kernel) (by decide +kernel)
  have hreached : (deleteSecret "acme" "github" "tok?x").bind (addressed · 0) =
      some ("acme", ⟨"github", "tok"⟩) := by
    decide
  exact absurd (h _ _ _ 0 _ hsend hreached) (by decide)

end Botwork.System
