import Botwork.SessionBroker.Headers
import Botwork.SessionBroker.World

/-!
# Request headers

`handle_request_headers` on one state of the broker: it routes a known session,
spawns a container for a session-less POST, or answers itself.  What other
services answer is a parameter; what the handler sets in motion beside its
answer (a liveness bump, an eviction) is part of the outcome.

## Main definitions

- `AppState` — the maps the handler reads and writes
- `Remote` — the answers of docker, config-broker, auth-broker, launcher and
  control-plane
- `Outcome` — the answer of a handler with what it leaves behind
- `handleRequestHeaders`
-/

namespace Botwork.SessionBroker

open Botwork.Foundations Botwork.ControlPlane

-- ════════════════════════════════════════════════════════════════════════
-- Errors of other services
-- ════════════════════════════════════════════════════════════════════════

inductive ConfigBrokerError where
  | invalidRequest (detail : String)
  | invalidWorkspace (detail : String)
  | unknownPlugin (detail : String)
  | internal (detail : String)
  | unavailable (detail : String)
  | transport (detail : String)
  | badResponse (detail : String)
  deriving DecidableEq

def ConfigBrokerError.statusCode : ConfigBrokerError → Nat
  | .invalidRequest _ | .invalidWorkspace _ => 400
  | .unknownPlugin _ => 404
  | .internal _ | .unavailable _ | .transport _ | .badResponse _ => 502

def ConfigBrokerError.text : ConfigBrokerError → String
  | .invalidRequest detail => "invalid request: " ++ detail
  | .invalidWorkspace detail => "invalid workspace: " ++ detail
  | .unknownPlugin detail => "unknown plugin: " ++ detail
  | .internal detail => "config-broker internal error: " ++ detail
  | .unavailable detail => "config-broker unavailable: " ++ detail
  | .transport detail => "transport error contacting config-broker: " ++ detail
  | .badResponse detail => "bad response from config-broker: " ++ detail

inductive ControlPlaneError where
  | invalidRequest (detail : String)
  | alreadyExists (detail : String)
  | notFound (detail : String)
  | internal (detail : String)
  | transport (detail : String)
  | badResponse (detail : String)
  deriving DecidableEq

def ControlPlaneError.statusCode (_ : ControlPlaneError) : Nat := 503

def ControlPlaneError.text : ControlPlaneError → String
  | .invalidRequest detail => "invalid request: " ++ detail
  | .alreadyExists detail => "session_id already exists in control-plane: " ++ detail
  | .notFound detail => "session_id not found in control-plane: " ++ detail
  | .internal detail => "control-plane internal error: " ++ detail
  | .transport detail => "transport error contacting control-plane: " ++ detail
  | .badResponse detail => "bad response from control-plane: " ++ detail

/-- The errors of `spawn_new_container`. -/
inductive LauncherError where
  | launch (detail : String)
  | launchHttp (status : Nat) (detail : String)
  | launchInvalidJson
  | probeTimeout (host : String) (port : Nat)
  | controlPlane (err : ControlPlaneError)
  deriving DecidableEq

def LauncherError.statusCode : LauncherError → Nat
  | .probeTimeout _ _ => 504
  | .controlPlane err => err.statusCode
  | .launch _ | .launchHttp _ _ | .launchInvalidJson => 502

def LauncherError.text : LauncherError → String
  | .launch detail => "failed to contact launcher: " ++ detail
  | .launchHttp status detail => s!"launcher returned HTTP {status}: " ++ detail
  | .launchInvalidJson => "launcher returned invalid JSON"
  | .probeTimeout host port => s!"timed out waiting for {host}:{port} to become ready"
  | .controlPlane err => "control-plane denied session: " ++ err.text

-- ════════════════════════════════════════════════════════════════════════
-- State
-- ════════════════════════════════════════════════════════════════════════

/-- The maps of the broker a request reads; times are in seconds. -/
structure AppState where
  now : Nat
  transportSessions : FiniteMap String TransportState
  pendingInit : FiniteMap String PendingInit
  tombstones : FiniteMap String Nat
  livenessCache : FiniteMap String Nat

/-- How long a container-liveness cache entry stays valid, in seconds. -/
def livenessTtl : Nat := 300

/-- What a launch asks of the launcher. -/
structure LaunchRequest where
  name : String
  image : String
  stagingPath : String
  env : List (String × String)
  secrets : List (String × String)
  resources : PluginResources
  labels : List (String × String)
  deriving DecidableEq

/-- The answers of the other services during one request. -/
structure Remote where
  /-- `is_container_running`; `none` when docker does not answer -/
  isContainerRunning : String → Option Bool
  resolve : String → String → String → Except ConfigBrokerError PluginDescriptor
  /-- `none` for every failure of `secrets/fetch` -/
  fetchSecrets : String → Option (List FetchedSecret)
  /-- the staging token a spawn draws -/
  token : String
  launchSession : LaunchRequest → Except LauncherError Ipv4Addr
  probeReady : Ipv4Addr → Nat → Bool
  postSession : SessionRecord → Except ControlPlaneError Unit

structure PerStreamState where
  streamId : String
  method : String
  path : String
  authority : String
  mcpSessionId : Option String
  contentType : String
  contentTypeIsJson : Bool
  clientAddr : String
  requestBody : List UInt8
  chosenUpstream : Option String
  trustedTenant : String
  cap : Option String
  teardownOnResponse : Option Target
  livenessSessionId : Option String
  deriving DecidableEq

/-- A `CommonResponse` with status `CONTINUE`. -/
structure CommonResponse where
  headerMutation : Option HeaderMutation
  clearRouteCache : Bool
  deriving DecidableEq

/-- An answer to a request-headers message. -/
inductive ProcessingResponse where
  | requestHeaders (response : CommonResponse)
  | immediateResponse (status : Nat) (body : String)
  deriving DecidableEq

/-- What a handler sets in motion beside its answer. -/
inductive Effect where
  | livenessBump (mcpSessionId : String)
  | evictDeadSession (mcpSessionId : String) (transport : TransportState)
  | teardownUnannounced (target : Target)
  | recordSpawn (pluginName containerName : String) (containerIp : Ipv4Addr)
  deriving DecidableEq

structure Outcome where
  state : AppState
  stream : PerStreamState
  response : ProcessingResponse
  effects : List Effect

namespace AppState

def isTombstoned (s : AppState) (mcpSessionId : String) : Bool :=
  (s.tombstones.lookup mcpSessionId).any (s.now < ·)

/-- An expired tombstone is dropped when it is looked at. -/
def purgeTombstone (s : AppState) (mcpSessionId : String) : AppState :=
  if s.isTombstoned mcpSessionId then s
  else { s with tombstones := s.tombstones.erase mcpSessionId }

/-- `check_container_liveness`: docker is asked when the cache has no valid entry,
    and a docker that does not answer counts as a running container. -/
def checkContainerLiveness (remote : Remote) (s : AppState) (containerName : String) :
    Bool × AppState :=
  if (s.livenessCache.lookup containerName).any (s.now < ·) then (true, s)
  else if (remote.isContainerRunning containerName).getD true then
    (true, { s with livenessCache := s.livenessCache.insert containerName (s.now + livenessTtl) })
  else (false, s)

/-- What `evict_dead_session` does to the routing maps. -/
def evictDeadSession (s : AppState) (mcpSessionId : String) : AppState :=
  { s with
    tombstones := s.tombstones.insert mcpSessionId (s.now + tombstoneTtl)
    transportSessions := s.transportSessions.erase mcpSessionId }

end AppState

-- ════════════════════════════════════════════════════════════════════════
-- Known sessions
-- ════════════════════════════════════════════════════════════════════════

def refuse (s : AppState) (stream : PerStreamState) (status : Nat) (body : String) : Outcome :=
  ⟨s, stream, .immediateResponse status body, []⟩

def requestHeadersContinue : ProcessingResponse := .requestHeaders ⟨none, false⟩

def requestHeadersRoute (upstreamName rewrittenPath : String)
    (upstreamAuthorization : Option String) (stripAuthorization : Bool) : ProcessingResponse :=
  .requestHeaders ⟨some (upstreamHeaderMutation upstreamName (some rewrittenPath)
    upstreamAuthorization stripAuthorization), true⟩

def routeAuthorizationForTransport (transport : TransportState) : Option String × Bool :=
  match transport.upstreamAuth, transport.upstreamAuthorization with
  | .bearer _, some value => (some value, false)
  | .none, _ => (none, true)
  | .bearer _, none => (none, true)

/-- The answer that routes a request for `path` to the container of a session. -/
def routeTransport (path : String) (transport : TransportState) : ProcessingResponse :=
  requestHeadersRoute (upstream transport.containerName transport.port)
    (forwardPath path transport.path) (routeAuthorizationForTransport transport).1
    (routeAuthorizationForTransport transport).2

/-- Why a request may not use a session it names: the tenant and path checks,
    which every branch makes on its own. -/
def bindingError (stream : PerStreamState) (transport : TransportState) : Option String :=
  if transport.tenantName ≠ stream.trustedTenant then some "session tenant mismatch"
  else
    match parseTenantWorkspacePlugin stream.path with
    | none => none
    | some captures =>
      if captures.tenant ≠ stream.trustedTenant then some "tenant path/header mismatch"
      else if captures.workspace ≠ transport.workspace then some "session workspace mismatch"
      else none

/-- The GET branch. -/
def routeGet (s : AppState) (stream : PerStreamState) : Outcome :=
  match stream.mcpSessionId with
  | none => refuse s stream 400 "missing Mcp-Session-Id header"
  | some id =>
    if s.isTombstoned id then refuse s stream 404 "unknown mcp-session-id"
    else
      let s := s.purgeTombstone id
      match s.transportSessions.lookup id with
      | none => refuse s stream 404 "unknown mcp-session-id"
      | some transport =>
        match bindingError stream transport with
        | some message => refuse s stream 403 message
        | none =>
          { state := s
            stream := { stream with
              chosenUpstream := some (upstream transport.containerName transport.port)
              livenessSessionId := some id }
            response := routeTransport stream.path transport
            effects := [.livenessBump id] }

/-- The DELETE branch: it checks the container, and arms a teardown instead of
    bumping the liveness counter. -/
def routeDelete (remote : Remote) (s : AppState) (stream : PerStreamState) : Outcome :=
  match stream.mcpSessionId with
  | none => refuse s stream 404 "missing Mcp-Session-Id header"
  | some id =>
    if s.isTombstoned id then refuse s stream 404 "unknown mcp-session-id"
    else
      let s := s.purgeTombstone id
      match s.transportSessions.lookup id with
      | none => refuse s stream 404 "unknown mcp-session-id"
      | some transport =>
        match s.checkContainerLiveness remote transport.containerName with
        | (false, s) =>
          { refuse (s.evictDeadSession id) stream 404 "unknown mcp-session-id" with
            effects := [.evictDeadSession id transport] }
        | (true, s) =>
          match bindingError stream transport with
          | some message => refuse s stream 403 message
          | none =>
            { state := s
              stream := { stream with
                chosenUpstream := some (upstream transport.containerName transport.port)
                teardownOnResponse := some (transport.target id) }
              response := routeTransport stream.path transport
              effects := [] }

/-- The POST branch of a request that names a session. -/
def routePost (remote : Remote) (s : AppState) (stream : PerStreamState) (id : String) : Outcome :=
  if s.isTombstoned id then refuse s stream 404 "unknown mcp-session-id"
  else
    let s := s.purgeTombstone id
    match s.transportSessions.lookup id with
    | none => refuse s stream 404 "unknown mcp-session-id"
    | some transport =>
      match s.checkContainerLiveness remote transport.containerName with
      | (false, s) =>
        { refuse (s.evictDeadSession id) stream 404 "unknown mcp-session-id" with
          effects := [.evictDeadSession id transport] }
      | (true, s) =>
        match bindingError stream transport with
        | some message => refuse s stream 403 message
        | none =>
          { state := s
            stream := { stream with
              chosenUpstream := some (upstream transport.containerName transport.port)
              livenessSessionId := some id }
            response := routeTransport stream.path transport
            effects := [.livenessBump id] }

-- ════════════════════════════════════════════════════════════════════════
-- Spawns
-- ════════════════════════════════════════════════════════════════════════

def configEnvName : String := "BOTWORK_MCP_CONFIG"

/-- The environment of a spawn: static entries first, then the structured config. -/
def spawnEnv (descriptor : PluginDescriptor) : List (String × String) :=
  descriptor.env ++ (descriptor.configBlob.map fun blob => (configEnvName, blob)).toList

def spawnLabels (s : Spawn) : List (String × String) :=
  [("io.botworkz.tenant", s.tenantName), ("io.botworkz.workspace", s.workspace),
    ("io.botworkz.plugin", s.pluginName)]

def launchRequest (s : Spawn) (secrets : List (String × String)) : LaunchRequest where
  name := s.containerName
  image := s.descriptor.image
  stagingPath := stagingPath s.tenantName s.stagingToken
  env := spawnEnv s.descriptor
  secrets := secrets
  resources := s.descriptor.resources
  labels := spawnLabels s

/-- `spawn_new_container`: launch, probe, announce, record. -/
def spawnNewContainer (remote : Remote) (s : Spawn) (secrets : List (String × String)) :
    Except LauncherError PendingInit × List Effect :=
  match remote.launchSession (launchRequest s secrets) with
  | .error err => (.error err, [])
  | .ok ip =>
    let pending := s.pending ip
    if remote.probeReady ip s.descriptor.port = false then
      (.error (.probeTimeout s.containerName s.descriptor.port),
        [.teardownUnannounced pending.target])
    else
      match remote.postSession pending.record with
      | .error err => (.error (.controlPlane err), [.teardownUnannounced pending.target])
      | .ok () => (.ok pending, [.recordSpawn s.pluginName s.containerName ip])

/-- The POST branch of a request that names no session. -/
def routeSpawn (remote : Remote) (s : AppState) (stream : PerStreamState) : Outcome :=
  match parseTenantWorkspacePlugin stream.path with
  | none => refuse s stream 400 "workspace required: use /<tenant>/<workspace>/<plugin>"
  | some captures =>
    if isSlug captures.workspace = false then refuse s stream 400 "invalid workspace"
    else if captures.tenant ≠ stream.trustedTenant then
      refuse s stream 403 "tenant path/header mismatch"
    else
      match remote.resolve stream.trustedTenant captures.workspace captures.plugin with
      | .error err => refuse s stream err.statusCode err.text
      | .ok descriptor =>
        match stream.cap.filter (· ≠ "") with
        | none => refuse s stream 503 "spawn requires x-botwork-cap"
        | some cap =>
          match remote.fetchSecrets cap with
          | none => refuse s stream 503 "spawn secrets fetch failed"
          | some secrets =>
            match resolveSpawnUpstreamAuthorization descriptor.upstreamAuth secrets with
            | .error message => refuse s stream 500 message
            | .ok authorization =>
              let spawn : Spawn := ⟨remote.token, stream.trustedTenant, captures.workspace,
                captures.plugin, descriptor, authorization⟩
              match spawnNewContainer remote spawn (buildSecretPairs secrets) with
              | (.error err, effects) =>
                { refuse s stream err.statusCode err.text with effects := effects }
              | (.ok pending, effects) =>
                { state := { s with pendingInit := s.pendingInit.insert stream.streamId pending }
                  stream := { stream with
                    chosenUpstream := some (upstream pending.containerName descriptor.port) }
                  response := requestHeadersRoute
                    (upstream pending.containerName descriptor.port)
                    (forwardPath stream.path descriptor.path) authorization authorization.isNone
                  effects := effects }

-- ════════════════════════════════════════════════════════════════════════
-- The handler
-- ════════════════════════════════════════════════════════════════════════

/-- What the handler keeps of the headers. -/
def PerStreamState.observe (stream : PerStreamState) (headers : List HeaderValue) :
    PerStreamState :=
  let extracted := extractHeaders headers
  let method := Text.toAsciiUppercase
    (((extracted.lookup ":method").or (extracted.lookup "method")).getD "POST")
  let contentType := (extracted.lookup "content-type").getD ""
  { stream with
    method := method
    path := ((extracted.lookup ":path").or (extracted.lookup "path")).getD stream.path
    authority := ((extracted.lookup ":authority").or (extracted.lookup "host")).getD stream.authority
    mcpSessionId := extracted.lookup "mcp-session-id"
    contentType := contentType
    contentTypeIsJson := SessionBroker.contentTypeIsJson method contentType
    clientAddr := ((extracted.lookup "x-envoy-external-address").or
      (extracted.lookup "x-forwarded-for")).getD "unknown"
    trustedTenant := ((extracted.lookup "x-botwork-tenant").map Text.trim).getD ""
    cap := (extracted.lookup "x-botwork-cap").map Text.trim }

/-- The branches of the handler, by method. -/
def routeMethod (remote : Remote) (s : AppState) (stream : PerStreamState) : Outcome :=
  if stream.method = "GET" then routeGet s stream
  else if stream.method = "DELETE" then routeDelete remote s stream
  else if stream.method = "POST" then
    match stream.mcpSessionId with
    | some id => routePost remote s stream id
    | none => routeSpawn remote s stream
  else ⟨s, stream, requestHeadersContinue, []⟩

def handleRequestHeaders (remote : Remote) (s : AppState) (stream : PerStreamState)
    (headers : List HeaderValue) : Outcome :=
  let stream := stream.observe headers
  if stream.trustedTenant = "" then refuse s stream 401 "missing x-botwork-tenant header"
  else if isSlug stream.trustedTenant = false then
    refuse s stream 400 "invalid x-botwork-tenant header"
  else routeMethod remote s stream

-- ════════════════════════════════════════════════════════════════════════
-- Samples
-- ════════════════════════════════════════════════════════════════════════

namespace Sample

/-- Every service answers; docker runs every container. -/
def remote : Remote where
  isContainerRunning _ := some true
  resolve _ _ _ := .ok sampleSpawn.descriptor
  fetchSecrets _ := some []
  token := sampleSpawn.stagingToken
  launchSession _ := .ok ⟨10, 0, 0, 7⟩
  probeReady _ _ := true
  postSession _ := .ok ()

/-- The sample container, installed. -/
def transport : TransportState := (sampleSpawn.pending ⟨10, 0, 0, 7⟩).transport

def state : AppState where
  now := 0
  transportSessions := AList.insert "s-1" transport ∅
  pendingInit := ∅
  tombstones := ∅
  livenessCache := ∅

/-- A stream before its first message. -/
def stream : PerStreamState where
  streamId := "00000000"
  method := "POST"
  path := ""
  authority := ""
  mcpSessionId := none
  contentType := ""
  contentTypeIsJson := false
  clientAddr := "unknown"
  requestBody := []
  chosenUpstream := none
  trustedTenant := ""
  cap := none
  teardownOnResponse := none
  livenessSessionId := none

/-- A request of tenant `acme` for its echo plugin. -/
def request (method : String) (more : List (String × String)) : List HeaderValue :=
  ([(":method", method), (":path", "/acme/main/echo"), ("x-botwork-tenant", "acme")] ++ more).map
    fun (key, value) => ⟨key, value, []⟩

end Sample

end Botwork.SessionBroker
