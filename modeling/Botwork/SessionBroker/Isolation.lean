import Botwork.SessionBroker.Routing

/-!
# Isolation of the request path

A request that names a session is answered from that session's entry alone, and
is let through only to the container of its own tenant.

## Main definitions

- `Admitted` — a request passes every check of the session it names
- `SpawnRoute` — where a spawned container is routed to
- `RoutesTo` — a mutation that routes to one container
-/

namespace Botwork.SessionBroker

open Botwork.Foundations

-- ════════════════════════════════════════════════════════════════════════
-- State updates
-- ════════════════════════════════════════════════════════════════════════

@[simp] theorem AppState.transportSessions_purgeTombstone (s : AppState) (id : String) :
    (s.purgeTombstone id).transportSessions = s.transportSessions := by
  unfold AppState.purgeTombstone
  split <;> rfl

@[simp] theorem AppState.livenessCache_purgeTombstone (s : AppState) (id : String) :
    (s.purgeTombstone id).livenessCache = s.livenessCache := by
  unfold AppState.purgeTombstone
  split <;> rfl

@[simp] theorem AppState.now_purgeTombstone (s : AppState) (id : String) :
    (s.purgeTombstone id).now = s.now := by
  unfold AppState.purgeTombstone
  split <;> rfl

/-- The liveness check reads the clock and the cache only. -/
theorem checkContainerLiveness_fst_congr {remote : Remote} {s s' : AppState} {c : String}
    (hnow : s'.now = s.now) (hcache : s'.livenessCache = s.livenessCache) :
    (s'.checkContainerLiveness remote c).1 = (s.checkContainerLiveness remote c).1 := by
  unfold AppState.checkContainerLiveness
  rw [hnow, hcache]
  split
  next => rfl
  next => split <;> rfl

-- ════════════════════════════════════════════════════════════════════════
-- Answers of the branches
-- ════════════════════════════════════════════════════════════════════════

/-- The request passes the checks of the session it names. -/
structure Admitted (s : AppState) (stream : PerStreamState) (id : String)
    (transport : TransportState) : Prop where
  named : stream.mcpSessionId = some id
  alive : s.isTombstoned id = false
  entry : s.transportSessions.lookup id = some transport
  bound : bindingError stream transport = none

/-- An answer that ends the request at the proxy. -/
def ProcessingResponse.Immediate (response : ProcessingResponse) : Prop :=
  ∃ status body, response = .immediateResponse status body

theorem Admitted.tenant {s : AppState} {stream : PerStreamState} {id : String}
    {transport : TransportState} (h : Admitted s stream id transport) :
    transport.tenantName = stream.trustedTenant := by
  have hbound := h.bound
  unfold bindingError at hbound
  split at hbound
  next => cases hbound
  next heq => exact not_not.mp heq

theorem Admitted.path {s : AppState} {stream : PerStreamState} {id : String}
    {transport : TransportState} (h : Admitted s stream id transport) {captures : PathCaptures}
    (hpath : parseTenantWorkspacePlugin stream.path = some captures) :
    captures.tenant = transport.tenantName ∧ captures.workspace = transport.workspace := by
  have hbound := h.bound
  have htenant := h.tenant
  simp only [bindingError, htenant, ne_eq, not_true_eq_false, if_false, hpath] at hbound
  split at hbound
  next => cases hbound
  next hsame =>
    split at hbound
    next => cases hbound
    next hworkspace => exact ⟨by rw [htenant]; exact not_not.mp hsame, not_not.mp hworkspace⟩

theorem routeGet_response (s : AppState) (stream : PerStreamState) :
    (routeGet s stream).response.Immediate ∨ ∃ id transport, Admitted s stream id transport ∧
      (routeGet s stream).response = routeTransport stream.path transport := by
  fun_cases routeGet s stream with
  | case1 => exact Or.inl ⟨_, _, rfl⟩
  | case2 => exact Or.inl ⟨_, _, rfl⟩
  | case3 => exact Or.inl ⟨_, _, rfl⟩
  | case4 => exact Or.inl ⟨_, _, rfl⟩
  | case5 id hid halive s₁ transport hentry hbound =>
    have halive : s.isTombstoned id = false := by simpa using halive
    exact Or.inr ⟨id, transport, ⟨hid, halive, by simpa [s₁] using hentry, hbound⟩, rfl⟩

theorem routeDelete_response (remote : Remote) (s : AppState) (stream : PerStreamState) :
    (routeDelete remote s stream).response.Immediate ∨
      ∃ id transport, Admitted s stream id transport ∧
        (routeDelete remote s stream).response = routeTransport stream.path transport := by
  fun_cases routeDelete remote s stream with
  | case1 => exact Or.inl ⟨_, _, rfl⟩
  | case2 => exact Or.inl ⟨_, _, rfl⟩
  | case3 => exact Or.inl ⟨_, _, rfl⟩
  | case4 => exact Or.inl ⟨_, _, rfl⟩
  | case5 => exact Or.inl ⟨_, _, rfl⟩
  | case6 id hid halive s₁ transport hentry s₂ _ hbound =>
    have halive : s.isTombstoned id = false := by simpa using halive
    exact Or.inr ⟨id, transport, ⟨hid, halive, by simpa [s₁] using hentry, hbound⟩, rfl⟩

theorem routePost_response (remote : Remote) (s : AppState) (stream : PerStreamState) {id : String}
    (hid : stream.mcpSessionId = some id) :
    (routePost remote s stream id).response.Immediate ∨
      ∃ transport, Admitted s stream id transport ∧
        (routePost remote s stream id).response = routeTransport stream.path transport := by
  fun_cases routePost remote s stream id with
  | case1 => exact Or.inl ⟨_, _, rfl⟩
  | case2 => exact Or.inl ⟨_, _, rfl⟩
  | case3 => exact Or.inl ⟨_, _, rfl⟩
  | case4 => exact Or.inl ⟨_, _, rfl⟩
  | case5 halive s₁ transport hentry s₂ _ hbound =>
    have halive : s.isTombstoned id = false := by simpa using halive
    exact Or.inr ⟨transport, ⟨hid, halive, by simpa [s₁] using hentry, hbound⟩, rfl⟩

/-- The route of a spawned container: its name is drawn by the broker, its port and
    path are its plugin's, and its bearer is read from the secrets of the cap. -/
structure SpawnRoute (remote : Remote) (stream : PerStreamState) (upstreamName path : String)
    (authorization : Option String) : Prop where
  of_descriptor : ∃ captures descriptor secrets,
    parseTenantWorkspacePlugin stream.path = some captures ∧
    remote.resolve stream.trustedTenant captures.workspace captures.plugin = .ok descriptor ∧
    stream.cap.bind remote.fetchSecrets = some secrets ∧
    resolveSpawnUpstreamAuthorization descriptor.upstreamAuth secrets = .ok authorization ∧
    upstreamName = upstream ("mcp_session_" ++ remote.token) descriptor.port ∧
    path = forwardPath stream.path descriptor.path

/-- A container that was launched is the one the spawn named. -/
theorem spawnNewContainer_ok {remote : Remote} {spawn : Spawn} {secrets : List (String × String)}
    {pending : PendingInit} {effects : List Effect}
    (h : spawnNewContainer remote spawn secrets = (.ok pending, effects)) :
    pending.containerName = spawn.containerName := by
  revert h
  fun_cases spawnNewContainer remote spawn secrets <;> intro h <;>
    simp only [Prod.mk.injEq, Except.ok.injEq, reduceCtorEq, false_and] at h
  rw [← h.1]
  rfl

theorem routeSpawn_response (remote : Remote) (s : AppState) (stream : PerStreamState) :
    (routeSpawn remote s stream).response.Immediate ∨
      ∃ upstreamName path authorization, SpawnRoute remote stream upstreamName path authorization ∧
        (routeSpawn remote s stream).response =
          requestHeadersRoute upstreamName path authorization authorization.isNone := by
  fun_cases routeSpawn remote s stream
  case case9 captures hparse _ _ descriptor hresolve cap hcap secrets hfetch authorization hauth
      spawn pending effects hspawn =>
    refine Or.inr ⟨_, _, _, ⟨captures, descriptor, secrets, hparse, hresolve, ?_, hauth, ?_, rfl⟩, rfl⟩
    · rw [(Option.filter_eq_some_iff.mp hcap).1]
      exact hfetch
    · rw [spawnNewContainer_ok hspawn]
      rfl
  all_goals exact Or.inl ⟨_, _, rfl⟩

/-- The methods the handler has a branch for. -/
def routedMethods : List String := ["GET", "POST", "DELETE"]

/-- What an answer of the handler can be, and for which requests. -/
theorem handleRequestHeaders_response (remote : Remote) (s : AppState) (stream : PerStreamState)
    (headers : List HeaderValue) :
    let observed := stream.observe headers
    let response := (handleRequestHeaders remote s stream headers).response
    response.Immediate ∨
      (∃ id transport, Admitted s observed id transport ∧
        response = routeTransport observed.path transport) ∨
      (observed.mcpSessionId = none ∧ ∃ upstreamName path authorization,
        SpawnRoute remote observed upstreamName path authorization ∧ response =
          requestHeadersRoute upstreamName path authorization authorization.isNone) ∨
      (observed.method ∉ routedMethods ∧ isSlug observed.trustedTenant = true ∧
        response = requestHeadersContinue) := by
  intro observed response
  by_cases hempty : observed.trustedTenant = ""
  · exact Or.inl ⟨401, _, congrArg Outcome.response (if_pos hempty)⟩
  by_cases hslug : isSlug observed.trustedTenant = false
  · exact Or.inl ⟨400, _, congrArg Outcome.response ((if_neg hempty).trans (if_pos hslug))⟩
  have hresponse : response = (routeMethod remote s observed).response :=
    congrArg Outcome.response ((if_neg hempty).trans (if_neg hslug))
  rw [hresponse]
  fun_cases routeMethod remote s observed with
  | case1 =>
    rcases routeGet_response s observed with h | ⟨id, transport, h⟩
    · exact Or.inl h
    · exact Or.inr (Or.inl ⟨id, transport, h⟩)
  | case2 =>
    rcases routeDelete_response remote s observed with h | ⟨id, transport, h⟩
    · exact Or.inl h
    · exact Or.inr (Or.inl ⟨id, transport, h⟩)
  | case3 _ _ _ id hid =>
    rcases routePost_response remote s observed hid with h | ⟨transport, h⟩
    · exact Or.inl h
    · exact Or.inr (Or.inl ⟨id, transport, h⟩)
  | case4 _ _ _ hid =>
    rcases routeSpawn_response remote s observed with h | h
    · exact Or.inl h
    · exact Or.inr (Or.inr (Or.inl ⟨hid, h⟩))
  | case5 hget hdelete hpost =>
    refine Or.inr (Or.inr (Or.inr ⟨?_, by simpa using hslug, rfl⟩))
    simp [routedMethods, hget, hdelete, hpost]

-- ════════════════════════════════════════════════════════════════════════
-- Mutations
-- ════════════════════════════════════════════════════════════════════════

theorem overwrites_upstream (upstreamName : String) (path authorization : Option String)
    (strip : Bool) :
    (upstreamHeaderMutation upstreamName path authorization strip).Overwrites "x-session-upstream"
      upstreamName := by
  cases path <;> cases authorization <;>
    simp [HeaderMutation.Overwrites, upstreamHeaderMutation, overwriteHeader]

theorem overwrites_authorization (upstreamName : String) (path : Option String) (token : String)
    (strip : Bool) :
    (upstreamHeaderMutation upstreamName path (some token) strip).Overwrites "authorization"
      ("Bearer " ++ token) := by
  cases path <;> simp [HeaderMutation.Overwrites, upstreamHeaderMutation, overwriteHeader]

theorem HeaderMutation.Overwrites.unique {m : HeaderMutation} {key text text' : String}
    (h : m.Overwrites key text) (h' : m.Overwrites key text') : text = text' := by
  have heq : [overwriteHeader key text] = [overwriteHeader key text'] := h.symm.trans h'
  simp only [overwriteHeader, List.cons.injEq, HeaderValueOption.mk.injEq, HeaderValue.mk.injEq] at heq
  exact Text.utf8_injective heq.1.1.2.2

theorem removes_cap (upstreamName : String) (path authorization : Option String) (strip : Bool) :
    (upstreamHeaderMutation upstreamName path authorization strip).Removes "x-botwork-cap" :=
  List.mem_cons_self

theorem removes_authorization (upstreamName : String) (path authorization : Option String) :
    (upstreamHeaderMutation upstreamName path authorization true).Removes "authorization" := by
  simp [HeaderMutation.Removes, upstreamHeaderMutation]

-- ════════════════════════════════════════════════════════════════════════
-- Known sessions
-- ════════════════════════════════════════════════════════════════════════

/-- The mutation routes to the container of `transport`, with the session's own
    bearer or with none. -/
structure RoutesTo (m : HeaderMutation) (transport : TransportState) : Prop where
  upstream : m.Overwrites "x-session-upstream"
    (SessionBroker.upstream transport.containerName transport.port)
  cap : m.Removes "x-botwork-cap"
  authorization :
    (∃ service token, transport.upstreamAuth = .bearer service ∧
      transport.upstreamAuthorization = some token ∧
      m.Overwrites "authorization" ("Bearer " ++ token)) ∨ m.Removes "authorization"

theorem routesTo_of_routeTransport {path : String} {transport : TransportState}
    {m : HeaderMutation} {clear : Bool}
    (h : routeTransport path transport = .requestHeaders ⟨some m, clear⟩) : RoutesTo m transport := by
  cases h
  refine ⟨overwrites_upstream _ _ _ _, removes_cap _ _ _ _, ?_⟩
  fun_cases routeAuthorizationForTransport transport with
  | case1 service token htoken hauth =>
    exact Or.inl ⟨service, token, hauth, htoken, overwrites_authorization _ _ _ _⟩
  | case2 => exact Or.inr (removes_authorization _ _ _)
  | case3 => exact Or.inr (removes_authorization _ _ _)

/-- The bearer and the strip flag of a transport exclude each other. -/
theorem routeAuthorizationForTransport_snd (transport : TransportState) :
    (routeAuthorizationForTransport transport).2 =
      (routeAuthorizationForTransport transport).1.isNone := by
  fun_cases routeAuthorizationForTransport transport <;> rfl

section Congr

variable {s s' : AppState} {stream : PerStreamState} {id : String} {remote : Remote}

/-- Two states that differ in the transport entries of other sessions only. -/
structure AgreeOn (id : String) (s s' : AppState) : Prop where
  now : s'.now = s.now
  tombstones : s'.tombstones = s.tombstones
  livenessCache : s'.livenessCache = s.livenessCache
  entry : s'.transportSessions.lookup id = s.transportSessions.lookup id

theorem AgreeOn.isTombstoned (h : AgreeOn id s s') : s'.isTombstoned id = s.isTombstoned id := by
  unfold AppState.isTombstoned
  rw [h.now, h.tombstones]

theorem AgreeOn.checkContainerLiveness (h : AgreeOn id s s') (remote : Remote) (c : String) :
    ((s'.purgeTombstone id).checkContainerLiveness remote c).1 =
      ((s.purgeTombstone id).checkContainerLiveness remote c).1 :=
  checkContainerLiveness_fst_congr (by simp [h.now]) (by simp [h.livenessCache])

theorem routeGet_congr (h : AgreeOn id s s') (hid : stream.mcpSessionId = some id) :
    (routeGet s' stream).response = (routeGet s stream).response := by
  simp only [routeGet, hid, h.isTombstoned, AppState.transportSessions_purgeTombstone, h.entry]
  split
  next => rfl
  next =>
    split
    next => rfl
    next => split <;> rfl

theorem routeDelete_congr (h : AgreeOn id s s') (hid : stream.mcpSessionId = some id) :
    (routeDelete remote s' stream).response = (routeDelete remote s stream).response := by
  simp only [routeDelete, hid, h.isTombstoned, AppState.transportSessions_purgeTombstone, h.entry]
  split
  next => rfl
  next =>
    split
    next => rfl
    next transport _ =>
      have halive := h.checkContainerLiveness remote transport.containerName
      revert halive
      rcases (s'.purgeTombstone id).checkContainerLiveness remote transport.containerName with ⟨alive', t'⟩
      rcases (s.purgeTombstone id).checkContainerLiveness remote transport.containerName with ⟨alive, t⟩
      intro halive
      obtain rfl : alive' = alive := halive
      cases alive' with
      | false => rfl
      | true => cases bindingError stream transport <;> rfl

theorem routePost_congr (h : AgreeOn id s s') :
    (routePost remote s' stream id).response = (routePost remote s stream id).response := by
  simp only [routePost, h.isTombstoned, AppState.transportSessions_purgeTombstone, h.entry]
  split
  next => rfl
  next =>
    split
    next => rfl
    next transport _ =>
      have halive := h.checkContainerLiveness remote transport.containerName
      revert halive
      rcases (s'.purgeTombstone id).checkContainerLiveness remote transport.containerName with ⟨alive', t'⟩
      rcases (s.purgeTombstone id).checkContainerLiveness remote transport.containerName with ⟨alive, t⟩
      intro halive
      obtain rfl : alive' = alive := halive
      cases alive' with
      | false => rfl
      | true => cases bindingError stream transport <;> rfl

/-- A request that names a session is answered from that session's entry alone. -/
theorem handleRequestHeaders_congr (h : AgreeOn id s s') {headers : List HeaderValue}
    (hid : (stream.observe headers).mcpSessionId = some id) :
    (handleRequestHeaders remote s' stream headers).response =
      (handleRequestHeaders remote s stream headers).response := by
  simp only [handleRequestHeaders]
  split
  next => rfl
  next =>
    split
    next => rfl
    next =>
      simp only [routeMethod, hid]
      split
      next => exact routeGet_congr h hid
      next =>
        split
        next => exact routeDelete_congr h hid
        next =>
          split
          next => exact routePost_congr h
          next => rfl

end Congr

@[simp] theorem PerStreamState.mcpSessionId_observe (stream : PerStreamState)
    (headers : List HeaderValue) :
    (stream.observe headers).mcpSessionId = (extractHeaders headers).lookup "mcp-session-id" := rfl

/-- The trusted tenant of a request is its trimmed header. -/
theorem trustedTenant_observe {stream : PerStreamState} {headers : List HeaderValue}
    (h : (stream.observe headers).trustedTenant ≠ "") :
    ((extractHeaders headers).lookup "x-botwork-tenant").map Text.trim =
      some (stream.observe headers).trustedTenant := by
  simp only [PerStreamState.observe] at h ⊢
  cases hheader : (extractHeaders headers).lookup "x-botwork-tenant" with
  | none =>
    rw [hheader] at h
    exact absurd rfl h
  | some tenant => rfl

/-- **Tenant isolation**: a routing answer to a request that names a session is
    for a live session of the request's own tenant and workspace, routes to that
    session's container, and is the same whatever other sessions there are. -/
theorem tenant_isolation (remote : Remote) (s : AppState) (stream : PerStreamState)
    (headers : List HeaderValue) (id : String)
    (hid : (extractHeaders headers).lookup "mcp-session-id" = some id) :
    (∀ m clear, (handleRequestHeaders remote s stream headers).response =
        .requestHeaders ⟨some m, clear⟩ →
      ∃ transport, s.transportSessions.lookup id = some transport ∧ s.isTombstoned id = false ∧
        ((extractHeaders headers).lookup "x-botwork-tenant").map Text.trim =
          some transport.tenantName ∧
        (∀ captures, parseTenantWorkspacePlugin (stream.observe headers).path = some captures →
          captures.tenant = transport.tenantName ∧ captures.workspace = transport.workspace) ∧
        RoutesTo m transport) ∧
    ∀ sessions : FiniteMap String TransportState,
      sessions.lookup id = s.transportSessions.lookup id →
      (handleRequestHeaders remote { s with transportSessions := sessions } stream headers).response =
        (handleRequestHeaders remote s stream headers).response := by
  refine ⟨?_, fun sessions hsame => ?_⟩
  swap
  · have hagree : AgreeOn id s { s with transportSessions := sessions } := ⟨rfl, rfl, rfl, hsame⟩
    exact handleRequestHeaders_congr hagree hid
  intro m clear hroute
  rcases handleRequestHeaders_response remote s stream headers with
    ⟨status, body, h⟩ | ⟨id', transport, hadmitted, h⟩ | ⟨hnone, -⟩ | ⟨-, -, h⟩
  · rw [hroute] at h
    cases h
  · have hsame : id' = id := Option.some_inj.mp (hadmitted.named.symm.trans hid)
    subst hsame
    rw [hroute] at h
    refine ⟨transport, hadmitted.entry, hadmitted.alive, ?_, fun _ => hadmitted.path,
      routesTo_of_routeTransport h.symm⟩
    rw [hadmitted.tenant]
    refine trustedTenant_observe fun hempty => ?_
    simp [handleRequestHeaders, hempty, refuse] at hroute
  · rw [PerStreamState.mcpSessionId_observe, hid] at hnone
    cases hnone
  · rw [hroute] at h
    cases h

/-- A GET of the sample session reaches the sample container, whatever else is
    in the table. -/
theorem tenant_isolation_get :
    (∃ transport, Sample.state.transportSessions.lookup "s-1" = some transport ∧
      RoutesTo (upstreamHeaderMutation "mcp_session_00000000000a:8000" (some "/mcp") none true)
        transport) ∧
    (handleRequestHeaders Sample.remote { Sample.state with
        transportSessions := Sample.state.transportSessions.insert "s-2" Sample.transport }
        Sample.stream (Sample.request "GET" [("mcp-session-id", "s-1")])).response =
      (handleRequestHeaders Sample.remote Sample.state Sample.stream
        (Sample.request "GET" [("mcp-session-id", "s-1")])).response := by
  have h := tenant_isolation Sample.remote Sample.state Sample.stream
    (Sample.request "GET" [("mcp-session-id", "s-1")]) "s-1" (by decide +kernel)
  obtain ⟨transport, hentry, -, -, -, hroutes⟩ :=
    h.1 (upstreamHeaderMutation "mcp_session_00000000000a:8000" (some "/mcp") none true) true
      (by decide +kernel)
  exact ⟨⟨transport, hentry, hroutes⟩, h.2 _ (by decide +kernel)⟩

end Botwork.SessionBroker
