import Botwork.SessionBroker.Isolation

/-!
# Cold-start recovery

After a restart the broker rebuilds its transport table from docker, the
`session_worker` rows and config-broker.  The upstream token is not among these
sources, so a session whose plugin projects one loses it.

## Main definitions

- `ContainerInspect`, `extractInspectResult` — what docker tells of a container
- `LiveWorker`, `Sources` — the inputs of the recovery
- `recoverLiveWorkers` — orphans, dead rows and the rebuilt table
- `LiveSession` — a session as spawn and install left it in every source
-/

namespace Botwork.SessionBroker

open Botwork.Foundations Botwork.ControlPlane

-- ════════════════════════════════════════════════════════════════════════
-- Docker
-- ════════════════════════════════════════════════════════════════════════

structure MountPoint where
  destination : Option String
  source : Option String

/-- A `docker inspect` answer; an address that is empty or does not parse is `none`. -/
structure ContainerInspect where
  labels : Option (FiniteMap String String)
  networks : Option (List (String × Option Ipv4Addr))
  mounts : Option (List MountPoint)

structure InspectResult where
  containerIp : Ipv4Addr
  tenant : String
  workspace : String
  agentSessionLabel : Option String
  stagingToken : Option String
  deriving DecidableEq

/-- The last segment of a path. -/
def lastSegment (path : String) : String := String.ofList (path.toList.rtakeWhile (· != '/'))

/-- The staging token a mount names, when it is the workspace mount. -/
def MountPoint.stagingToken (mount : MountPoint) : Option String :=
  if mount.destination = some "/workspace" then mount.source.map lastSegment else none

def extractInspectResult (r : ContainerInspect) : Option InspectResult := do
  let labels ← r.labels
  let tenant ← labels.lookup "io.botworkz.tenant"
  let workspace ← labels.lookup "io.botworkz.workspace"
  let networks := r.networks.getD []
  let ip ← (networks.lookup "botwork-plugin").join.or (networks.head?.bind (·.2))
  return {
    containerIp := ip
    tenant := tenant
    workspace := workspace
    agentSessionLabel := labels.lookup "io.botworkz.agent_session"
    stagingToken := (r.mounts.getD []).findSome? MountPoint.stagingToken }

/-- What docker holds of a container that `spawn_new_container` launched. -/
def Spawn.inspect (s : Spawn) (ip : Ipv4Addr) : ContainerInspect where
  labels := some (FiniteMap.insertAll ∅ (spawnLabels s))
  networks := some [("botwork-plugin", some ip)]
  mounts := some [⟨some "/workspace", some (stagingPath s.tenantName s.stagingToken)⟩]

theorem lastSegment_stagingPath {tenantName token : String} (h : '/' ∉ token.toList) :
    lastSegment (stagingPath tenantName token) = token := by
  have hslash : "/".toList = ['/'] := rfl
  have hparent : "/var/lib/botwork/tenants/" ++ tenantName ++ "/staging" ++ "/" =
      "/var/lib/botwork/tenants/" ++ tenantName ++ "/staging/" := by
    rw [String.append_assoc]
    rfl
  have hpath : stagingPath tenantName token =
      "/var/lib/botwork/tenants/" ++ tenantName ++ "/staging" ++ "/" ++ token := by
    rw [hparent]
    rfl
  have hreverse : (stagingPath tenantName token).toList.reverse = token.toList.reverse ++
      '/' :: ("/var/lib/botwork/tenants/" ++ tenantName ++ "/staging").toList.reverse := by
    rw [hpath, String.toList_append, String.toList_append, hslash, List.reverse_append,
      List.reverse_append, List.reverse_singleton, List.singleton_append]
  have htoken : ∀ c ∈ token.toList.reverse, (c != '/') = true := by
    intro c hc
    rw [bne_iff_ne]
    rintro rfl
    exact h (List.mem_reverse.mp hc)
  rw [lastSegment, List.rtakeWhile, hreverse, List.takeWhile_append_of_pos htoken]
  simp

/-- The labels and mounts of a spawn give back what recovery needs. -/
theorem extractInspectResult_inspect {s : Spawn} (h : '/' ∉ s.stagingToken.toList) (ip : Ipv4Addr) :
    extractInspectResult (s.inspect ip) =
      some ⟨ip, s.tenantName, s.workspace, none, some s.stagingToken⟩ := by
  have hmount : (MountPoint.mk (some "/workspace")
      (some (stagingPath s.tenantName s.stagingToken))).stagingToken = some s.stagingToken := by
    simp [MountPoint.stagingToken, lastSegment_stagingPath h]
  have hlabels : ∀ key, (FiniteMap.insertAll ∅ (spawnLabels s)).lookup key =
      if key = "io.botworkz.plugin" then some s.pluginName
      else if key = "io.botworkz.workspace" then some s.workspace
      else if key = "io.botworkz.tenant" then some s.tenantName else none := by
    intro key
    simp only [FiniteMap.insertAll, spawnLabels, List.foldl_cons, List.foldl_nil,
      FiniteMap.lookup_insert_ite, AList.lookup_empty]
  simp [extractInspectResult, Spawn.inspect, hlabels, hmount]

-- ════════════════════════════════════════════════════════════════════════
-- Recovery
-- ════════════════════════════════════════════════════════════════════════

/-- A row of `session_worker` that is not marked reaped. -/
structure LiveWorker where
  containerName : String
  containerIp : Ipv4Addr
  mcpSessionId : String
  pluginId : Nat
  deriving DecidableEq

/-- The inputs of the recovery; `none` where a source fails as a whole. -/
structure Sources where
  running : Option (List String)
  liveRows : Option (List LiveWorker)
  resolvePluginName : Nat → Option String
  inspector : String → Option InspectResult
  resolver : String → String → String → Except ConfigBrokerError PluginDescriptor

structure Recovered where
  /-- containers removed by force -/
  orphans : List String
  /-- containers whose rows are marked reaped -/
  reaped : List String
  transportSessions : FiniteMap String TransportState

def rowByName (rows : List LiveWorker) : FiniteMap String LiveWorker :=
  FiniteMap.insertAll ∅ (rows.map fun row => (row.containerName, row))

/-- What the recovery makes of one running container. -/
def rehydrate (src : Sources) (rows : FiniteMap String LiveWorker) (container : String) :
    Option (String × TransportState) := do
  let row ← rows.lookup container
  let pluginName ← src.resolvePluginName row.pluginId
  let inspect ← src.inspector container
  if row.mcpSessionId = "" then none
  let descriptor ← (src.resolver inspect.tenant inspect.workspace pluginName).toOption
  return (row.mcpSessionId,
    { containerName := container
      containerIp := inspect.containerIp
      stagingToken := inspect.stagingToken.getD ""
      tenantName := inspect.tenant
      workspace := inspect.workspace
      pluginName := pluginName
      port := descriptor.port
      path := descriptor.path
      upstreamAuth := descriptor.upstreamAuth
      upstreamAuthorization := none
      agentId := inspect.agentSessionLabel
      egressPolicy := descriptor.egress })

/-- `recover_live_workers_with`; `running` stands in the order the set is walked in. -/
def recoverLiveWorkers (src : Sources) (sessions : FiniteMap String TransportState) : Recovered :=
  match src.running, src.liveRows with
  | some running, some liveRows =>
    let rows := rowByName liveRows
    { orphans := running.filter fun container => (rows.lookup container).isNone
      reaped := (liveRows.map (·.containerName)).filter fun container => container ∉ running
      transportSessions := sessions.insertAll (running.filterMap (rehydrate src rows)) }
  | _, _ => ⟨[], [], sessions⟩

/-- The broker right after a restart. -/
def restarted (src : Sources) (now : Nat) : AppState where
  now := now
  transportSessions := (recoverLiveWorkers src ∅).transportSessions
  pendingInit := ∅
  tombstones := ∅
  livenessCache := ∅

theorem rehydrate_eq_some {src : Sources} {rows : FiniteMap String LiveWorker} {container id : String}
    {transport : TransportState} (h : rehydrate src rows container = some (id, transport)) :
    id ≠ "" ∧ transport.containerName = container ∧ transport.upstreamAuthorization = none := by
  simp only [rehydrate, Option.bind_eq_bind, Option.bind_eq_some_iff] at h
  obtain ⟨row, -, pluginName, -, inspect, -, h⟩ := h
  split at h
  next => simp at h
  next hne =>
    simp only [Option.pure_def, Option.bind_eq_some_iff] at h
    obtain ⟨descriptor, -, h⟩ := h
    cases h
    exact ⟨hne, rfl, rfl⟩

theorem lookup_restarted {src : Sources} {running : List String} {rows : List LiveWorker} {now : Nat}
    (hrunning : src.running = some running) (hrows : src.liveRows = some rows) :
    (restarted src now).transportSessions =
      FiniteMap.insertAll ∅ (running.filterMap (rehydrate src (rowByName rows))) := by
  simp [restarted, recoverLiveWorkers, hrunning, hrows]

-- ════════════════════════════════════════════════════════════════════════
-- Routing before and after
-- ════════════════════════════════════════════════════════════════════════

theorem checkContainerLiveness_of_running {remote : Remote} {s : AppState} {c : String}
    (h : remote.isContainerRunning c ≠ some false) : (s.checkContainerLiveness remote c).1 = true := by
  unfold AppState.checkContainerLiveness
  split
  next => rfl
  next =>
    split
    next => rfl
    next hdead =>
      cases hanswer : remote.isContainerRunning c with
      | none => simp [hanswer] at hdead
      | some running =>
        cases running with
        | false => exact absurd hanswer h
        | true => simp [hanswer] at hdead

theorem routeMethod_admitted {remote : Remote} {s : AppState} {stream : PerStreamState} {id : String}
    {transport : TransportState} (h : Admitted s stream id transport)
    (hmethod : stream.method = "GET" ∨ stream.method = "POST")
    (hrunning : remote.isContainerRunning transport.containerName ≠ some false) :
    (routeMethod remote s stream).response = routeTransport stream.path transport := by
  rcases hmethod with hget | hpost
  · simp [routeMethod, hget, routeGet, h.named, h.alive, h.entry, h.bound]
  · rcases hcheck : (s.purgeTombstone id).checkContainerLiveness remote transport.containerName
      with ⟨alive, s'⟩
    have halive := checkContainerLiveness_of_running (s := s.purgeTombstone id) hrunning
    rw [hcheck] at halive
    obtain rfl : alive = true := halive
    simp [routeMethod, hpost, h.named, routePost, h.alive, h.entry, hcheck, h.bound]

/-- A request that passes the checks of a session with a running container is routed. -/
theorem handleRequestHeaders_admitted {remote : Remote} {s : AppState} {stream : PerStreamState}
    {headers : List HeaderValue} {id : String} {transport : TransportState}
    (h : Admitted s (stream.observe headers) id transport)
    (hslug : isSlug (stream.observe headers).trustedTenant = true)
    (hmethod : (stream.observe headers).method = "GET" ∨ (stream.observe headers).method = "POST")
    (hrunning : remote.isContainerRunning transport.containerName ≠ some false) :
    (handleRequestHeaders remote s stream headers).response =
      routeTransport (stream.observe headers).path transport := by
  have hne : (stream.observe headers).trustedTenant ≠ "" := by
    intro hempty
    rw [hempty] at hslug
    exact absurd hslug (by decide)
  rw [← routeMethod_admitted h hmethod hrunning]
  simp [handleRequestHeaders, hne, hslug]

theorem upstream_inj {c c' : String} {port port' : Nat} (hc : ':' ∉ c.toList) (hc' : ':' ∉ c'.toList)
    (h : upstream c port = upstream c' port') : c = c' := by
  have hname : ∀ {c : String} {port : Nat}, ':' ∉ c.toList →
      (upstream c port).toList.takeWhile (· != ':') = c.toList := by
    intro c port hc
    have hsplit : (upstream c port).toList = c.toList ++ ':' :: (toString port).toList := by
      have hcolon : ":".toList = [':'] := rfl
      have happ : upstream c port = c ++ ":" ++ toString port := rfl
      rw [happ, String.toList_append, String.toList_append, hcolon, List.append_assoc,
        List.singleton_append]
    have hall : ∀ a ∈ c.toList, (a != ':') = true := by
      intro a ha
      rw [bne_iff_ne]
      rintro rfl
      exact hc ha
    rw [hsplit, List.takeWhile_append_of_pos hall]
    simp
  rw [← String.toList_inj, ← @hname c port hc, ← @hname c' port' hc', h]

-- ════════════════════════════════════════════════════════════════════════
-- Transparency
-- ════════════════════════════════════════════════════════════════════════

/-- A session that is live before a restart, as its spawn and its install left it
    in the broker, in docker, in the rows and at config-broker.  The recovery
    walks `before`, then its container, then `after`. -/
structure LiveSession (src : Sources) (remote : Remote) (s : AppState) (id : String) (spawn : Spawn)
    (rows : List LiveWorker) (before after : List String) : Prop where
  tenant : isSlug spawn.tenantName = true
  token : isToken spawn.stagingToken = true
  authorization : ∃ secrets, resolveSpawnUpstreamAuthorization spawn.descriptor.upstreamAuth secrets =
    .ok spawn.upstreamAuthorization
  entry : ∃ ip agentId, s.transportSessions.lookup id =
    some { (spawn.pending ip).transport with agentId := agentId }
  alive : s.isTombstoned id = false
  container : remote.isContainerRunning spawn.containerName ≠ some false
  running : src.running = some (before ++ spawn.containerName :: after)
  names : ∀ c ∈ after, c ≠ spawn.containerName ∧ ':' ∉ c.toList
  listed : src.liveRows = some rows
  row : ∃ row, (rowByName rows).lookup spawn.containerName = some row ∧ row.mcpSessionId = id ∧
    src.resolvePluginName row.pluginId = some spawn.pluginName
  inspected : ∃ ip, src.inspector spawn.containerName = extractInspectResult (spawn.inspect ip)
  resolved : src.resolver spawn.tenantName spawn.workspace spawn.pluginName = .ok spawn.descriptor

/-- The restart is invisible to the requests of a session: a GET or POST that was
    routed before is answered the same after. -/
def Transparent (src : Sources) (remote : Remote) (s : AppState) (id : String) (now : Nat) : Prop :=
  ∀ stream headers m clear, (extractHeaders headers).lookup "mcp-session-id" = some id →
    (stream.observe headers).method = "GET" ∨ (stream.observe headers).method = "POST" →
    (handleRequestHeaders remote s stream headers).response = .requestHeaders ⟨some m, clear⟩ →
    (handleRequestHeaders remote (restarted src now) stream headers).response =
      .requestHeaders ⟨some m, clear⟩

section LiveSession

variable {src : Sources} {remote : Remote} {s : AppState} {id : String} {spawn : Spawn}
  {rows : List LiveWorker} {before after : List String}

/-- A token has hexadecimal digits only. -/
theorem not_mem_of_isToken {token : String} (h : isToken token = true) {c : Char}
    (hdigit : ¬('0' ≤ c ∧ c ≤ '9')) (hletter : ¬('a' ≤ c ∧ c ≤ 'f')) : c ∉ token.toList := by
  intro hc
  simp only [isToken, Bool.and_eq_true, List.all_eq_true, Bool.or_eq_true, decide_eq_true_eq] at h
  rcases h.2 c hc with h | h
  · exact hdigit h
  · exact hletter h

theorem LiveSession.containerName_colon (h : LiveSession src remote s id spawn rows before after) :
    ':' ∉ spawn.containerName.toList := by
  have hname : spawn.containerName.toList = "mcp_session_".toList ++ spawn.stagingToken.toList :=
    String.toList_append
  rw [hname, List.mem_append, not_or]
  exact ⟨by decide, not_mem_of_isToken h.token (by decide) (by decide)⟩

/-- The own container is rehydrated with everything but its token and its agent. -/
theorem LiveSession.rehydrate (h : LiveSession src remote s id spawn rows before after)
    (hid : id ≠ "") : ∃ ip, SessionBroker.rehydrate src (rowByName rows) spawn.containerName =
      some (id, { (spawn.pending ip).transport with upstreamAuthorization := none }) := by
  obtain ⟨row, hrow, hrowid, hplugin⟩ := h.row
  obtain ⟨ip, hinspect⟩ := h.inspected
  rw [extractInspectResult_inspect (not_mem_of_isToken h.token (by decide) (by decide))] at hinspect
  refine ⟨ip, ?_⟩
  simp [SessionBroker.rehydrate, hrow, hplugin, hinspect, hrowid, hid, h.resolved, Except.toOption,
    PendingInit.transport, Spawn.pending]

/-- What the restarted broker holds under the id, when nothing later takes it. -/
theorem LiveSession.lookup_restarted (h : LiveSession src remote s id spawn rows before after)
    (hid : id ≠ "") (now : Nat)
    (hafter : ∀ c ∈ after, ∀ t, SessionBroker.rehydrate src (rowByName rows) c ≠ some (id, t)) :
    ∃ ip, (restarted src now).transportSessions.lookup id =
      some { (spawn.pending ip).transport with upstreamAuthorization := none } := by
  obtain ⟨ip, hown⟩ := h.rehydrate hid
  refine ⟨ip, ?_⟩
  rw [SessionBroker.lookup_restarted h.running h.listed, List.filterMap_append,
    List.filterMap_cons_some hown, FiniteMap.insertAll_append]
  have hlater : ∀ t, (id, t) ∉ after.filterMap (SessionBroker.rehydrate src (rowByName rows)) := by
    intro t hmem
    obtain ⟨c, hc, ht⟩ := List.mem_filterMap.mp hmem
    exact hafter c hc t ht
  rw [FiniteMap.insertAll, List.foldl_cons]
  exact (FiniteMap.lookup_insertAll_of_ne hlater).trans (AList.lookup_insert _)

/-- A GET that names the session and its tenant. -/
def knownGet (tenant id : String) : List HeaderValue :=
  [⟨":method", "GET", []⟩, ⟨"x-botwork-tenant", tenant, []⟩, ⟨"mcp-session-id", id, []⟩]

theorem isWhitespace_of_isSlug {tenant : String} (h : isSlug tenant = true) :
    ∀ c ∈ tenant.toList, Text.isWhitespace c = false := by
  have hletter : ∀ c : Char, (isAsciiLower c || isAsciiDigit c || c == '-') = true →
      Text.isWhitespace c = false := by
    intro c hc
    simp only [isAsciiLower, isAsciiDigit, Bool.or_eq_true, Bool.and_eq_true, decide_eq_true_eq,
      beq_iff_eq, Char.le_def, UInt32.le_iff_toNat_le] at hc
    have hrange : 0x2D ≤ c.toNat ∧ c.toNat ≤ 0x7A := by
      rcases hc with (⟨h₁, h₂⟩ | ⟨h₁, h₂⟩) | rfl
      · exact ⟨le_trans (by decide) h₁, h₂⟩
      · exact ⟨le_trans (by decide) h₁, le_trans h₂ (by decide)⟩
      · decide
    simp only [Text.isWhitespace, Bool.or_eq_false_iff, Bool.and_eq_false_iff, decide_eq_false_iff_not,
      beq_eq_false_iff_ne]
    omega
  intro c hc
  unfold isSlug at h
  split at h
  next => cases h
  next first rest heq =>
    rw [heq] at hc
    simp only [Bool.and_eq_true, List.all_eq_true] at h
    rcases List.mem_cons.mp hc with rfl | hrest
    · exact hletter _ (by simp [h.1.1])
    · exact hletter _ (h.2 c hrest)

theorem observe_knownGet (id : String) {tenant : String} (h : isSlug tenant = true) :
    let observed := Sample.stream.observe (knownGet tenant id)
    observed.method = "GET" ∧ observed.trustedTenant = tenant ∧ observed.path = "" ∧
      observed.mcpSessionId = some id := by
  have htext : ∀ key value, (HeaderValue.mk key value []).text = value := by
    intro key value
    by_cases hempty : value = ""
    · subst hempty
      rfl
    · exact if_neg hempty
  have hlookup : ∀ key, (extractHeaders (knownGet tenant id)).lookup key =
      if key = "mcp-session-id" then some id
      else if key = "x-botwork-tenant" then some tenant
      else if key = ":method" then some "GET" else none := by
    have hlower : Text.toLowercase ":method" = ":method" ∧
        Text.toLowercase "x-botwork-tenant" = "x-botwork-tenant" ∧
        Text.toLowercase "mcp-session-id" = "mcp-session-id" := by decide +kernel
    intro key
    simp only [extractHeaders, knownGet, List.foldl_cons, List.foldl_nil, htext, hlower.1,
      hlower.2.1, hlower.2.2, FiniteMap.lookup_insert_ite, AList.lookup_empty]
  refine ⟨?_, ?_, ?_, ?_⟩
  · have hupper : Text.toAsciiUppercase "GET" = "GET" := by decide +kernel
    simp [PerStreamState.observe, hlookup, hupper]
  · simp [PerStreamState.observe, hlookup, Text.trim_of_forall (isWhitespace_of_isSlug h)]
  · simp [PerStreamState.observe, hlookup, Sample.stream]
  · simp [hlookup]

/-- What stands under an id after the restart comes from a walked container, and
    from one walked after the session's own when such a one claims the id. -/
theorem LiveSession.origin (h : LiveSession src remote s id spawn rows before after) {now : Nat}
    {t : TransportState} (ht : (restarted src now).transportSessions.lookup id = some t) :
    id ≠ "" ∧ t.upstreamAuthorization = none ∧
      ((∃ c ∈ after, ∃ t', SessionBroker.rehydrate src (rowByName rows) c = some (id, t')) →
        t.containerName ∈ after) := by
  rw [SessionBroker.lookup_restarted h.running h.listed] at ht
  obtain ⟨c, -, hc⟩ := List.mem_filterMap.mp (FiniteMap.mem_of_lookup_insertAll ht)
  obtain ⟨hid, -, hnone⟩ := rehydrate_eq_some hc
  refine ⟨hid, hnone, ?_⟩
  rintro ⟨c', hc', t', ht'⟩
  rw [List.append_cons, List.filterMap_append, FiniteMap.insertAll_append] at ht
  obtain ⟨w, hw, hlook⟩ :=
    FiniteMap.exists_lookup_insertAll (List.mem_filterMap.mpr ⟨c', hc', ht'⟩)
  rw [ht] at hlook
  cases hlook
  obtain ⟨c'', hc'', ht''⟩ := List.mem_filterMap.mp hw
  rw [(rehydrate_eq_some ht'').2.1]
  exact hc''

/-- A spawn with a bearer policy has its token, so its session is routed with it. -/
theorem LiveSession.bearer (h : LiveSession src remote s id spawn rows before after)
    {transport : TransportState} (hauth : transport.upstreamAuth = spawn.descriptor.upstreamAuth)
    (htoken : transport.upstreamAuthorization = spawn.upstreamAuthorization) :
    (routeAuthorizationForTransport transport).1.isNone = true ↔
      spawn.descriptor.upstreamAuth = .none := by
  obtain ⟨secrets, hresolve⟩ := h.authorization
  have hsome := resolveSpawnUpstreamAuthorization_eq_ok hresolve
  rw [← hauth, ← htoken] at hsome
  rw [← hauth]
  fun_cases routeAuthorizationForTransport transport with
  | case1 service value hvalue hbearer => simp [hbearer]
  | case2 hnone => simp [hnone]
  | case3 service hvalue hbearer =>
    rw [hvalue, hbearer] at hsome
    simp at hsome

theorem routeAuthorizationForTransport_none {transport : TransportState}
    (h : transport.upstreamAuthorization = none) :
    (routeAuthorizationForTransport transport).1.isNone = true := by
  fun_cases routeAuthorizationForTransport transport with
  | case1 service value hvalue => exact absurd (h.symm.trans hvalue) (by simp)
  | case2 => rfl
  | case3 => rfl

/-- Equal routing answers name the same upstream and agree on whether a token is set. -/
theorem routeTransport_inj {path : String} {t t' : TransportState}
    (h : routeTransport path t = routeTransport path t') :
    upstream t.containerName t.port = upstream t'.containerName t'.port ∧
      (routeAuthorizationForTransport t).1.isNone = (routeAuthorizationForTransport t').1.isNone := by
  have hroute := routesTo_of_routeTransport (rfl : routeTransport path t = _)
  have hroute' := routesTo_of_routeTransport (h.symm : routeTransport path t' = _)
  refine ⟨hroute.upstream.unique hroute'.upstream, ?_⟩
  simp only [routeTransport, requestHeadersRoute, ProcessingResponse.requestHeaders.injEq,
    CommonResponse.mk.injEq, Option.some_inj, and_true] at h
  have hlength := congrArg (fun m => m.setHeaders.length) h
  simp only [upstreamHeaderMutation, List.length_cons, List.length_append] at hlength
  cases hauth : (routeAuthorizationForTransport t).1 <;>
    cases hauth' : (routeAuthorizationForTransport t').1 <;> simp [hauth, hauth'] at hlength ⊢

/-- The session's answers before and after the restart differ in the token only. -/
theorem routeTransport_restarted (path : String) (ip ip' : Ipv4Addr) (agentId : Option String)
    (hnone : spawn.descriptor.upstreamAuth = .none) :
    routeTransport path { (spawn.pending ip').transport with upstreamAuthorization := none } =
      routeTransport path { (spawn.pending ip).transport with agentId := agentId } := by
  simp [routeTransport, routeAuthorizationForTransport, PendingInit.transport, Spawn.pending, hnone]

/-- **Restart transparency**: a live session is answered as before exactly when its
    plugin projects no upstream token, its id is not empty, and the recovery
    rebuilds no other container under its id after it. -/
theorem restart_transparent (now : Nat) (h : LiveSession src remote s id spawn rows before after) :
    Transparent src remote s id now ↔
      spawn.descriptor.upstreamAuth = .none ∧ id ≠ "" ∧
        ∀ c ∈ after, ∀ t, SessionBroker.rehydrate src (rowByName rows) c ≠ some (id, t) := by
  obtain ⟨ip, agentId, hentry⟩ := h.entry
  constructor
  · intro htransparent
    obtain ⟨hget, htenant, hpath, hnamed⟩ := observe_knownGet id h.tenant
    have hadmitted : Admitted s (Sample.stream.observe (knownGet spawn.tenantName id)) id
        { (spawn.pending ip).transport with agentId := agentId } := by
      refine ⟨hnamed, h.alive, hentry, ?_⟩
      simp only [bindingError, htenant, hpath]
      exact if_neg (not_not.mpr rfl)
    have hbefore := handleRequestHeaders_admitted hadmitted (by rw [htenant]; exact h.tenant)
      (Or.inl hget) h.container
    have hafter := htransparent _ _ _ _ hnamed (Or.inl hget) hbefore
    rcases handleRequestHeaders_response remote (restarted src now) Sample.stream
      (knownGet spawn.tenantName id) with
      ⟨status, body, hout⟩ | ⟨id', t, hadm, hout⟩ | ⟨hnone, -⟩ | ⟨hmethod, -⟩
    · rw [hafter] at hout
      cases hout
    · obtain rfl : id' = id := Option.some_inj.mp (hadm.named.symm.trans hnamed)
      obtain ⟨hid, htnone, hlater⟩ := h.origin hadm.entry
      obtain ⟨hupstream, htoken⟩ := routeTransport_inj (hout.symm.trans hafter)
      have hnoauth : spawn.descriptor.upstreamAuth = .none := by
        rw [← @LiveSession.bearer _ _ _ _ _ _ _ _ h
          { (spawn.pending ip).transport with agentId := agentId } rfl rfl, ← htoken]
        exact routeAuthorizationForTransport_none htnone
      refine ⟨hnoauth, hid, fun c hc t' ht' => ?_⟩
      have hmem := hlater ⟨c, hc, t', ht'⟩
      obtain ⟨hother, hcolon⟩ := h.names _ hmem
      exact hother (upstream_inj hcolon h.containerName_colon hupstream)
    · rw [hnamed] at hnone
      cases hnone
    · exact absurd (by simp [hget, routedMethods]) hmethod
  · rintro ⟨hnone, hid, hlater⟩ stream headers m clear hheader hmethod hbefore
    obtain ⟨ip', hrestarted⟩ := h.lookup_restarted hid now hlater
    rcases handleRequestHeaders_response remote s stream headers with
      ⟨status, body, hout⟩ | ⟨id', t, hadm, hout⟩ | ⟨hunnamed, -⟩ | ⟨-, -, hout⟩
    · rw [hbefore] at hout
      cases hout
    · obtain rfl : id' = id := Option.some_inj.mp (hadm.named.symm.trans hheader)
      obtain rfl := Option.some_inj.mp (hadm.entry.symm.trans hentry)
      have hadmitted : Admitted (restarted src now) (stream.observe headers) id'
          { (spawn.pending ip').transport with upstreamAuthorization := none } :=
        ⟨hheader, by simp [restarted, AppState.isTombstoned], hrestarted, hadm.bound⟩
      have hslug : isSlug (stream.observe headers).trustedTenant = true := by
        rw [← hadm.tenant]
        exact h.tenant
      rw [handleRequestHeaders_admitted hadmitted hslug hmethod h.container, ← hbefore, hout]
      exact routeTransport_restarted _ _ _ _ hnone
    · rw [PerStreamState.mcpSessionId_observe, hheader] at hunnamed
      cases hunnamed
    · rw [hbefore] at hout
      cases hout

end LiveSession

-- ════════════════════════════════════════════════════════════════════════
-- Samples
-- ════════════════════════════════════════════════════════════════════════

namespace Sample

/-- The sample spawn, of a plugin that projects a token. -/
def bearerSpawn : Spawn :=
  { sampleSpawn with
    descriptor := { sampleSpawn.descriptor with upstreamAuth := .bearer "github.com" }
    upstreamAuthorization := some "t0ken" }

/-- The broker with one session of the spawn. -/
def running (spawn : Spawn) : AppState :=
  { state with transportSessions := AList.insert "s-1" (spawn.pending ⟨10, 0, 0, 7⟩).transport ∅ }

def rows (spawn : Spawn) : List LiveWorker := [⟨spawn.containerName, ⟨10, 0, 0, 7⟩, "s-1", 0⟩]

def sources (spawn : Spawn) : Sources where
  running := some [spawn.containerName]
  liveRows := some (rows spawn)
  resolvePluginName _ := some spawn.pluginName
  inspector _ := extractInspectResult (spawn.inspect ⟨10, 0, 0, 7⟩)
  resolver _ _ _ := .ok spawn.descriptor

theorem liveSession {spawn : Spawn} (htenant : isSlug spawn.tenantName = true)
    (htoken : isToken spawn.stagingToken = true) (secrets : List FetchedSecret)
    (hresolve : resolveSpawnUpstreamAuthorization spawn.descriptor.upstreamAuth secrets =
      .ok spawn.upstreamAuthorization) :
    LiveSession (sources spawn) remote (running spawn) "s-1" spawn (rows spawn) [] [] where
  tenant := htenant
  token := htoken
  authorization := ⟨secrets, hresolve⟩
  entry := ⟨⟨10, 0, 0, 7⟩, none, AList.lookup_insert _⟩
  alive := rfl
  container := by simp [remote]
  running := rfl
  names := by simp
  listed := rfl
  row := ⟨_, AList.lookup_insert _, rfl, rfl⟩
  inspected := ⟨_, rfl⟩
  resolved := rfl

end Sample

/-- The sample session, whose plugin projects no token, does not see a restart. -/
theorem restart_transparent_sample :
    Transparent (Sample.sources sampleSpawn) Sample.remote (Sample.running sampleSpawn) "s-1" 7 :=
  (restart_transparent 7 (Sample.liveSession (by decide) (by decide) [] rfl)).mpr
    ⟨rfl, by decide, by simp⟩

/-- After a restart the same session of a plugin with a token is routed without it. -/
theorem restart_drops_bearer :
    ¬ ∀ (src : Sources) (remote : Remote) (s : AppState) (id : String) (spawn : Spawn)
      (rows : List LiveWorker) (before after : List String) (now : Nat),
      LiveSession src remote s id spawn rows before after → Transparent src remote s id now := by
  intro hclaim
  have hlive := @Sample.liveSession Sample.bearerSpawn (by decide) (by decide)
    [⟨"github.com", "pat", "api-key", Text.utf8 "t0ken"⟩] (by decide +kernel)
  have hbefore : (handleRequestHeaders Sample.remote (Sample.running Sample.bearerSpawn) Sample.stream
      (Sample.request "GET" [("mcp-session-id", "s-1")])).response =
      .requestHeaders ⟨some (upstreamHeaderMutation "mcp_session_00000000000a:8000" (some "/mcp")
        (some "t0ken") false), true⟩ := by decide +kernel
  have hafter := hclaim _ _ _ _ _ _ _ _ 7 hlive Sample.stream _ _ _ (by decide +kernel)
    (Or.inl (by decide +kernel)) hbefore
  revert hafter
  decide +kernel

end Botwork.SessionBroker
