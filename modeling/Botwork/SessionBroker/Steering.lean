import Botwork.SessionBroker.Isolation

/-!
# Steering headers

Every routed request overwrites or removes the headers by which its client could
steer the proxy, and neither the upstream it gets nor the headers it is sent on
with depend on the client's values of them.  A method outside GET, POST and
DELETE is let through with no mutation at all.

## Main definitions

- `Shielded` — a mutation under which no steering header of the client counts
- `SameMessage` — two header lists that differ in the steering headers only
- `SameGrant` — two requests whose caps buy the same secrets
- `NeverSteered` — what a request gets does not depend on its steering headers
-/

namespace Botwork.SessionBroker

open Botwork.Foundations

-- ════════════════════════════════════════════════════════════════════════
-- Shielding mutations
-- ════════════════════════════════════════════════════════════════════════

/-- Overwriting settings see of the client's headers only the keys they do not set. -/
theorem foldl_setHeader_congr {settings : List HeaderValueOption}
    (hset : ∀ h ∈ settings, h.appendAction = .overwriteIfExistsOrAdd)
    {headers headers' : List (String × List UInt8)}
    (hagree : (headers.filter fun e => e.1 ∉ settings.map (·.header.key)) =
      headers'.filter fun e => e.1 ∉ settings.map (·.header.key)) :
    settings.foldl HeaderMutation.setHeader headers =
      settings.foldl HeaderMutation.setHeader headers' := by
  induction settings generalizing headers headers' with
  | nil => simpa using hagree
  | cons h settings ih =>
    have hhead : h.appendAction = .overwriteIfExistsOrAdd := hset h List.mem_cons_self
    refine ih (fun h' hmem => hset h' (List.mem_cons_of_mem _ hmem)) ?_
    have hsplit : ∀ l : List (String × List UInt8),
        ((HeaderMutation.setHeader l h).filter fun e => e.1 ∉ settings.map (·.header.key)) =
          (l.filter fun e => e.1 ∉ (h :: settings).map (·.header.key)) ++
            [(h.header.key, h.header.rawValue)].filter fun e =>
              e.1 ∉ settings.map (·.header.key) := by
      intro l
      simp only [HeaderMutation.setHeader, hhead, List.filter_append, List.filter_filter]
      congr 1
      refine List.filter_congr fun e _ => ?_
      by_cases hkey : e.1 = h.header.key <;> simp [hkey]
    rw [hsplit, hsplit, hagree]

/-- Headers by which a client could steer the proxy. -/
def steeringHeaders : List String := ["x-session-upstream", "x-botwork-cap", "authorization"]

/-- Two clients send the same headers, the steering ones apart. -/
def SameClient (client client' : List (String × List UInt8)) : Prop :=
  (client.filter fun e => e.1 ∉ steeringHeaders) = client'.filter fun e => e.1 ∉ steeringHeaders

/-- The mutation overwrites or removes every steering header, so that the client's
    values of them do not count in what is forwarded. -/
structure Shielded (m : HeaderMutation) : Prop where
  upstream : ∃ name, m.Overwrites "x-session-upstream" name
  cap : m.Removes "x-botwork-cap"
  authorization : (∃ value, m.Overwrites "authorization" value) ∨ m.Removes "authorization"
  forward : ∀ client client', SameClient client client' → m.forward client = m.forward client'

theorem shielded_upstreamHeaderMutation (upstreamName : String) (path authorization : Option String) :
    Shielded (upstreamHeaderMutation upstreamName path authorization authorization.isNone) where
  upstream := ⟨_, overwrites_upstream _ _ _ _⟩
  cap := removes_cap _ _ _ _
  authorization := by
    cases authorization with
    | none => exact Or.inr (removes_authorization _ _ _)
    | some token => exact Or.inl ⟨_, overwrites_authorization _ _ _ _⟩
  forward := by
    intro client client' hsame
    refine foldl_setHeader_congr ?_ ?_
    · intro h hmem
      cases path <;> cases authorization <;>
        simp only [upstreamHeaderMutation, Option.map_none, Option.map_some, Option.toList_none,
          Option.toList_some, List.nil_append, List.append_nil, List.cons_append, List.mem_cons,
          List.not_mem_nil, or_false] at hmem <;>
        rcases hmem with rfl | rfl | rfl <;> rfl
    · set m := upstreamHeaderMutation upstreamName path authorization authorization.isNone with hm
      have hcover : ∀ key ∈ steeringHeaders,
          key ∈ m.removeHeaders ∨ key ∈ m.setHeaders.map (·.header.key) := by
        intro key hkey
        simp only [steeringHeaders, List.mem_cons, List.not_mem_nil, or_false] at hkey
        cases path <;> cases authorization <;> rcases hkey with rfl | rfl | rfl <;>
          simp [hm, upstreamHeaderMutation, overwriteHeader]
      have hnarrow : ∀ l : List (String × List UInt8),
          ((l.filter fun e => e.1 ∉ m.removeHeaders).filter fun e =>
              e.1 ∉ m.setHeaders.map (·.header.key)) =
            ((l.filter fun e => e.1 ∉ steeringHeaders).filter fun e =>
              e.1 ∉ m.removeHeaders).filter fun e => e.1 ∉ m.setHeaders.map (·.header.key) := by
        intro l
        simp only [List.filter_filter]
        refine List.filter_congr fun e _ => ?_
        by_cases hkey : e.1 ∈ steeringHeaders
        · rcases hcover e.1 hkey with h | h <;> simp [h]
        · simp [hkey]
      rw [hnarrow, hnarrow client', hsame]

-- ════════════════════════════════════════════════════════════════════════
-- Messages that differ in the steering headers
-- ════════════════════════════════════════════════════════════════════════

/-- The bytes of a header as the proxy holds them. -/
def HeaderValue.bytes (header : HeaderValue) : List UInt8 :=
  if header.value = "" then header.rawValue else Text.utf8 header.value

/-- The headers of a request as the proxy holds them. -/
def clientHeaders (headers : List HeaderValue) : List (String × List UInt8) :=
  headers.map fun header => (Text.toLowercase header.key, header.bytes)

/-- The headers a request is sent on with under a response that lets it continue. -/
def CommonResponse.forward (response : CommonResponse) (headers : List HeaderValue) :
    List (String × List UInt8) :=
  match response.headerMutation with
  | some m => m.forward (clientHeaders headers)
  | none => clientHeaders headers

/-- Two messages carry the same headers, the steering ones apart. -/
def SameMessage (headers headers' : List HeaderValue) : Prop :=
  (headers.filter fun header => Text.toLowercase header.key ∉ steeringHeaders) =
    headers'.filter fun header => Text.toLowercase header.key ∉ steeringHeaders

theorem SameMessage.sameClient {headers headers' : List HeaderValue}
    (h : SameMessage headers headers') :
    SameClient (clientHeaders headers) (clientHeaders headers') := by
  simp only [SameClient, clientHeaders, List.filter_map]
  exact congrArg (List.map _) h

/-- Headers under other names do not count for a lookup. -/
theorem lookup_extractHeaders_filter {key : String} (hkey : key ∉ steeringHeaders)
    (headers : List HeaderValue) :
    (extractHeaders headers).lookup key = (extractHeaders
      (headers.filter fun header => Text.toLowercase header.key ∉ steeringHeaders)).lookup key := by
  suffices h : ∀ m m' : FiniteMap String String, m.lookup key = m'.lookup key →
      (headers.foldl (fun extracted header =>
        extracted.insert (Text.toLowercase header.key) header.text) m).lookup key =
      ((headers.filter fun header => Text.toLowercase header.key ∉ steeringHeaders).foldl
        (fun extracted header =>
          extracted.insert (Text.toLowercase header.key) header.text) m').lookup key from
    h ∅ ∅ rfl
  induction headers with
  | nil => exact fun m m' hagree => hagree
  | cons header headers ih =>
    intro m m' hagree
    rw [List.foldl_cons, List.filter_cons]
    by_cases hsteer : Text.toLowercase header.key ∈ steeringHeaders
    · have hne : key ≠ Text.toLowercase header.key := fun heq => hkey (heq ▸ hsteer)
      rw [if_neg (by simpa using hsteer)]
      refine ih _ _ ?_
      rw [FiniteMap.lookup_insert_ite, if_neg hne, hagree]
    · rw [if_pos (by simpa using hsteer), List.foldl_cons]
      refine ih _ _ ?_
      rw [FiniteMap.lookup_insert_ite, FiniteMap.lookup_insert_ite, hagree]

theorem SameMessage.lookup {headers headers' : List HeaderValue} (h : SameMessage headers headers')
    {key : String} (hkey : key ∉ steeringHeaders) :
    (extractHeaders headers').lookup key = (extractHeaders headers).lookup key := by
  rw [lookup_extractHeaders_filter hkey headers', lookup_extractHeaders_filter hkey headers, h]

/-- Of the steering headers the handler keeps the cap alone. -/
theorem SameMessage.observe {headers headers' : List HeaderValue} (h : SameMessage headers headers')
    (stream : PerStreamState) :
    stream.observe headers' =
      { stream.observe headers with cap := (stream.observe headers').cap } := by
  simp only [PerStreamState.observe,
    h.lookup (by decide : ":method" ∉ steeringHeaders),
    h.lookup (by decide : "method" ∉ steeringHeaders),
    h.lookup (by decide : "content-type" ∉ steeringHeaders),
    h.lookup (by decide : ":path" ∉ steeringHeaders),
    h.lookup (by decide : "path" ∉ steeringHeaders),
    h.lookup (by decide : ":authority" ∉ steeringHeaders),
    h.lookup (by decide : "host" ∉ steeringHeaders),
    h.lookup (by decide : "mcp-session-id" ∉ steeringHeaders),
    h.lookup (by decide : "x-envoy-external-address" ∉ steeringHeaders),
    h.lookup (by decide : "x-forwarded-for" ∉ steeringHeaders),
    h.lookup (by decide : "x-botwork-tenant" ∉ steeringHeaders)]

-- ════════════════════════════════════════════════════════════════════════
-- Routes and caps
-- ════════════════════════════════════════════════════════════════════════

/-- The caps of two requests buy the same secrets.  A cap is minted by the external
    authorization for the request it arrives with, and only a spawn spends it. -/
def SameGrant (remote : Remote) (stream stream' : PerStreamState) : Prop :=
  stream.mcpSessionId.isSome = true ∨
    stream.cap.bind remote.fetchSecrets = stream'.cap.bind remote.fetchSecrets

section Route

variable {remote : Remote} {s : AppState} {stream : PerStreamState} {headers headers' : List HeaderValue}
  {response response' : CommonResponse}

/-- The answer that lets a routed request continue. -/
theorem routed_response
    (hcond : (stream.observe headers).method ∈ routedMethods ∨
      isSlug (stream.observe headers).trustedTenant = false)
    (hresponse : (handleRequestHeaders remote s stream headers).response =
      .requestHeaders response) :
    ∃ upstreamName path authorization,
      ((∃ id transport, Admitted s (stream.observe headers) id transport ∧
          ProcessingResponse.requestHeaders response =
            routeTransport (stream.observe headers).path transport) ∨
        (stream.observe headers).mcpSessionId = none ∧
          SpawnRoute remote (stream.observe headers) upstreamName path authorization) ∧
      response = ⟨some (upstreamHeaderMutation upstreamName (some path) authorization
        authorization.isNone), true⟩ := by
  rcases handleRequestHeaders_response remote s stream headers with
    ⟨status, body, h⟩ | ⟨id, transport, hadmitted, h⟩ | ⟨hnone, name, path, authorization, hspawn, h⟩ |
    ⟨hmethod, hslug, -⟩
  · rw [hresponse] at h
    cases h
  · rw [hresponse] at h
    have hroute := h
    rw [routeTransport, routeAuthorizationForTransport_snd] at hroute
    exact ⟨_, _, _, Or.inl ⟨id, transport, hadmitted, h⟩,
      ProcessingResponse.requestHeaders.inj hroute⟩
  · rw [hresponse] at h
    refine ⟨name, path, authorization, Or.inr ⟨hnone, hspawn⟩, ?_⟩
    cases h
    rfl
  · rcases hcond with h | h
    · exact absurd h hmethod
    · rw [hslug] at h
      cases h

/-- A spawn's name and path are the same for every cap, and its bearer for every
    cap that buys the same secrets. -/
theorem SpawnRoute.of_sameMessage (hsame : SameMessage headers headers')
    {upstreamName upstreamName' path path' : String} {authorization authorization' : Option String}
    (h : SpawnRoute remote (stream.observe headers) upstreamName path authorization)
    (h' : SpawnRoute remote (stream.observe headers') upstreamName' path' authorization') :
    upstreamName' = upstreamName ∧ path' = path ∧
      ((stream.observe headers).cap.bind remote.fetchSecrets =
        (stream.observe headers').cap.bind remote.fetchSecrets → authorization' = authorization) := by
  obtain ⟨captures, descriptor, secrets, hparse, hresolve, hfetch, hauth, hname, hpath⟩ :=
    h.of_descriptor
  obtain ⟨captures', descriptor', secrets', hparse', hresolve', hfetch', hauth', hname', hpath'⟩ :=
    h'.of_descriptor
  have hpaths : (stream.observe headers').path = (stream.observe headers).path :=
    by rw [hsame.observe stream]
  have htenants : (stream.observe headers').trustedTenant = (stream.observe headers).trustedTenant :=
    by rw [hsame.observe stream]
  rw [hpaths, hparse] at hparse'
  obtain rfl := Option.some_inj.mp hparse'
  rw [htenants, hresolve] at hresolve'
  obtain rfl := Except.ok.inj hresolve'
  refine ⟨hname'.trans hname.symm, by rw [hpath', hpath, hpaths], fun hgrant => ?_⟩
  rw [hfetch, hfetch'] at hgrant
  obtain rfl := Option.some_inj.mp hgrant
  exact Except.ok.inj (hauth'.symm.trans hauth)

/-- Two messages that differ in the steering headers only get one upstream and one
    path, and one bearer when their caps buy the same secrets. -/
theorem SameMessage.routed (hsame : SameMessage headers headers')
    (hcond : (stream.observe headers).method ∈ routedMethods ∨
      isSlug (stream.observe headers).trustedTenant = false)
    (hresponse : (handleRequestHeaders remote s stream headers).response =
      .requestHeaders response)
    (hresponse' : (handleRequestHeaders remote s stream headers').response =
      .requestHeaders response') :
    ∃ upstreamName path authorization authorization',
      response = ⟨some (upstreamHeaderMutation upstreamName (some path) authorization
        authorization.isNone), true⟩ ∧
      response' = ⟨some (upstreamHeaderMutation upstreamName (some path) authorization'
        authorization'.isNone), true⟩ ∧
      (SameGrant remote (stream.observe headers) (stream.observe headers') →
        authorization' = authorization) := by
  have hid : (stream.observe headers').mcpSessionId = (stream.observe headers).mcpSessionId :=
    by rw [hsame.observe stream]
  have hpath : (stream.observe headers').path = (stream.observe headers).path :=
    by rw [hsame.observe stream]
  have hcond' : (stream.observe headers').method ∈ routedMethods ∨
      isSlug (stream.observe headers').trustedTenant = false := by
    rw [hsame.observe stream]
    exact hcond
  obtain ⟨name, path, authorization, hroute, rfl⟩ := routed_response hcond hresponse
  obtain ⟨name', path', authorization', hroute', rfl⟩ := routed_response hcond' hresponse'
  rcases hroute with ⟨id, transport, hadmitted, heq⟩ | ⟨hnone, hspawn⟩
  · rcases hroute' with ⟨id', transport', hadmitted', heq'⟩ | ⟨hnone', -⟩
    · -- both messages name the session, whose entry decides the route
      have hids : id' = id := by
        rw [← Option.some_inj, ← hadmitted.named, ← hadmitted'.named, hid]
      subst hids
      have hentries : transport' = transport :=
        Option.some_inj.mp (hadmitted'.entry.symm.trans hadmitted.entry)
      rw [hpath, hentries, ← heq] at heq'
      exact ⟨name, path, authorization, authorization, rfl, ProcessingResponse.requestHeaders.inj heq',
        fun _ => rfl⟩
    · rw [hid, hadmitted.named] at hnone'
      cases hnone'
  · rcases hroute' with ⟨id', transport', hadmitted', -⟩ | ⟨-, hspawn'⟩
    · rw [← hid, hadmitted'.named] at hnone
      cases hnone
    · obtain ⟨rfl, rfl, hbearer⟩ := hspawn.of_sameMessage hsame hspawn'
      refine ⟨_, _, authorization, authorization', rfl, rfl, fun hgrant => ?_⟩
      rcases hgrant with h | h
      · rw [hnone] at h
        cases h
      · exact hbearer h

end Route

-- ════════════════════════════════════════════════════════════════════════
-- No steering
-- ════════════════════════════════════════════════════════════════════════

/-- What a request gets does not depend on its client's steering headers: a response
    that lets it continue shields them, and any message that differs in them only gets
    the same response for the same cap, and is sent to the same upstream, with the same
    headers. -/
structure NeverSteered (remote : Remote) (s : AppState) (stream : PerStreamState)
    (headers : List HeaderValue) : Prop where
  shielded : ∀ response, (handleRequestHeaders remote s stream headers).response =
    .requestHeaders response → ∃ m, response.headerMutation = some m ∧ Shielded m
  answered : ∀ headers', SameMessage headers headers' →
    (stream.observe headers').cap = (stream.observe headers).cap →
      (handleRequestHeaders remote s stream headers').response =
        (handleRequestHeaders remote s stream headers).response
  upstream : ∀ headers' response response', SameMessage headers headers' →
    (handleRequestHeaders remote s stream headers).response = .requestHeaders response →
    (handleRequestHeaders remote s stream headers').response = .requestHeaders response' →
    ∃ name m m', response.headerMutation = some m ∧ response'.headerMutation = some m' ∧
      m.Overwrites "x-session-upstream" name ∧ m'.Overwrites "x-session-upstream" name
  forwarded : ∀ headers' response response', SameMessage headers headers' →
    SameGrant remote (stream.observe headers) (stream.observe headers') →
    (handleRequestHeaders remote s stream headers).response = .requestHeaders response →
    (handleRequestHeaders remote s stream headers').response = .requestHeaders response' →
    response'.forward headers' = response.forward headers

/-- **No steering by the client**: what a request gets does not depend on its client's
    steering headers exactly when the method is one the handler routes, or the tenant
    header is refused first. -/
theorem client_headers_never_steer (remote : Remote) (s : AppState) (stream : PerStreamState)
    (headers : List HeaderValue) :
    NeverSteered remote s stream headers ↔
      (stream.observe headers).method ∈ routedMethods ∨
        isSlug (stream.observe headers).trustedTenant = false := by
  constructor
  · intro hnever
    by_contra hcond
    rw [not_or, Bool.not_eq_false] at hcond
    obtain ⟨hmethod, hslug⟩ := hcond
    have hcontinue : (handleRequestHeaders remote s stream headers).response =
        requestHeadersContinue := by
      have hne : (stream.observe headers).trustedTenant ≠ "" := by
        intro hempty
        rw [hempty] at hslug
        exact absurd hslug (by decide)
      simp only [routedMethods, List.mem_cons, List.not_mem_nil, or_false, not_or] at hmethod
      simp [handleRequestHeaders, hne, hslug, routeMethod, hmethod.1, hmethod.2.1, hmethod.2.2]
    obtain ⟨m, hm, -⟩ := hnever.shielded ⟨none, false⟩ hcontinue
    cases hm
  · intro hcond
    refine ⟨fun response hresponse => ?_, fun headers' hsame hcap => ?_,
      fun headers' response response' hsame hresponse hresponse' => ?_,
      fun headers' response response' hsame hgrant hresponse hresponse' => ?_⟩
    · obtain ⟨name, path, authorization, -, rfl⟩ := routed_response hcond hresponse
      exact ⟨_, rfl, shielded_upstreamHeaderMutation _ _ _⟩
    · rw [handleRequestHeaders, handleRequestHeaders, hsame.observe stream, hcap]
    · obtain ⟨name, path, authorization, authorization', rfl, rfl, -⟩ :=
        hsame.routed hcond hresponse hresponse'
      exact ⟨name, _, _, rfl, rfl, overwrites_upstream _ _ _ _, overwrites_upstream _ _ _ _⟩
    · obtain ⟨name, path, authorization, authorization', rfl, rfl, hbearer⟩ :=
        hsame.routed hcond hresponse hresponse'
      obtain rfl := hbearer hgrant
      exact ((shielded_upstreamHeaderMutation _ _ _).forward _ _ hsame.sameClient).symm

/-- An OPTIONS request is let through with the upstream its client asked for. -/
theorem options_request_steers :
    ¬ ∀ (remote : Remote) (s : AppState) (stream : PerStreamState) (headers : List HeaderValue),
      NeverSteered remote s stream headers := by
  intro hclaim
  obtain ⟨m, hm, -⟩ := (hclaim Sample.remote Sample.state Sample.stream
    (Sample.request "OPTIONS" [("x-session-upstream", "169.254.169.254:80")])).shielded ⟨none, false⟩
    (by decide +kernel)
  cases hm

end Botwork.SessionBroker
