import Botwork.ControlPlane.Handler

/-!
# Session-broker state and teardown programs

The two maps through which the broker holds its containers, and the paths that
take a session down.  A path is a list of operations on one target; each
operation is one access to shared state or one remote call, so a path can be
interrupted between any two of them.

## Main definitions

- `PendingInit`, `TransportState` — a container before and after `initialize`
- `Target` — what a teardown path captures of a session before it starts
- `teardownSession`, `evictDeadSession`, `evictSession`, `handleContainerExit` —
  the operations of each path
-/

namespace Botwork.SessionBroker

open Botwork.Foundations Botwork.ControlPlane

-- ════════════════════════════════════════════════════════════════════════
-- Sessions
-- ════════════════════════════════════════════════════════════════════════

inductive UpstreamAuth where
  | none
  | bearer (service : String)
  deriving DecidableEq, Repr

structure PluginResources where
  cpus : Option String
  memory : Option String
  pids : Option Int
  deriving DecidableEq, Repr

/-- What config-broker's `/resolve` returns for a binding. -/
structure PluginDescriptor where
  image : String
  port : Nat
  path : String
  upstreamAuth : UpstreamAuth
  resources : PluginResources
  env : List (String × String)
  configBlob : Option String
  egress : Option Json
  deriving DecidableEq

/-- The arguments of `spawn_new_container` that outlive the launch, with the
    fresh token it draws. -/
structure Spawn where
  stagingToken : String
  tenantName : String
  workspace : String
  pluginName : String
  descriptor : PluginDescriptor
  upstreamAuthorization : Option String
  deriving DecidableEq

/-- A staging token: six random bytes in lowercase hex. -/
def isToken (s : String) : Bool :=
  decide (s.toList.length = 12) &&
    s.toList.all fun c => (decide ('0' ≤ c) && decide (c ≤ '9')) || (decide ('a' ≤ c) && decide (c ≤ 'f'))

def Spawn.containerName (s : Spawn) : String := "mcp_session_" ++ s.stagingToken

/-- The names the broker gives its containers are session ids for control-plane. -/
theorem isSessionId_containerName {s : Spawn} (h : isToken s.stagingToken = true) :
    isSessionId s.containerName = true := by
  have hlist : s.containerName.toList = "mcp_session_".toList ++ s.stagingToken.toList :=
    String.toList_append
  simp only [isToken, Bool.and_eq_true, decide_eq_true_eq, List.all_eq_true, Bool.or_eq_true] at h
  obtain ⟨hlen, hhex⟩ := h
  have hne : s.stagingToken.toList ≠ [] := by
    intro hnil
    rw [hnil] at hlen
    cases hlen
  have hall : ∀ c ∈ s.stagingToken.toList, isAsciiLower c = true ∨ isAsciiDigit c = true := by
    intro c hc
    rcases hhex c hc with hdigit | hletter
    · exact Or.inr (by simpa [isAsciiDigit] using hdigit)
    · refine Or.inl ?_
      simp only [isAsciiLower, Bool.and_eq_true, decide_eq_true_eq]
      exact ⟨hletter.1, Char.le_trans hletter.2 (by decide)⟩
  simp only [isSessionId, hlist, List.drop_left, Bool.and_eq_true, List.all_eq_true,
    Bool.or_eq_true, List.isPrefixOf_iff_prefix, List.prefix_append, true_and]
  exact ⟨by simpa using hne, hall⟩

/-- A container that runs but has not answered `initialize` yet. -/
structure PendingInit where
  containerName : String
  containerIp : Ipv4Addr
  stagingToken : String
  tenantName : String
  workspace : String
  pluginName : String
  descriptor : PluginDescriptor
  upstreamAuthorization : Option String
  deriving DecidableEq

def Spawn.pending (s : Spawn) (ip : Ipv4Addr) : PendingInit where
  containerName := s.containerName
  containerIp := ip
  stagingToken := s.stagingToken
  tenantName := s.tenantName
  workspace := s.workspace
  pluginName := s.pluginName
  descriptor := s.descriptor
  upstreamAuthorization := s.upstreamAuthorization

/-- The record `post_session` announces to control-plane. -/
def PendingInit.record (p : PendingInit) : SessionRecord where
  sessionId := p.containerName
  containerIp := p.containerIp
  tenant := p.tenantName
  workspace := p.workspace
  plugin := p.pluginName
  egressPolicy := p.descriptor.egress.getD .null

/-- Per-session state held while a transport is alive. -/
structure TransportState where
  containerName : String
  containerIp : Ipv4Addr
  stagingToken : String
  tenantName : String
  workspace : String
  pluginName : String
  port : Nat
  path : String
  upstreamAuth : UpstreamAuth
  upstreamAuthorization : Option String
  agentId : Option String
  egressPolicy : Option Json
  deriving DecidableEq

/-- The transport installed at `response_headers`. -/
def PendingInit.transport (p : PendingInit) : TransportState where
  containerName := p.containerName
  containerIp := p.containerIp
  stagingToken := p.stagingToken
  tenantName := p.tenantName
  workspace := p.workspace
  pluginName := p.pluginName
  port := p.descriptor.port
  path := p.descriptor.path
  upstreamAuth := p.descriptor.upstreamAuth
  upstreamAuthorization := p.upstreamAuthorization
  agentId := none
  egressPolicy := p.descriptor.egress

def stagingPath (tenantName token : String) : String :=
  s!"/var/lib/botwork/tenants/{tenantName}/staging/{token}"

/-- How long a tombstone blocks new routing, in seconds. -/
def tombstoneTtl : Nat := 300

/-- A `session_worker` row, as far as spawn, install and reap write it. -/
structure Worker where
  containerIp : Ipv4Addr
  pluginName : String
  mcpSessionId : String
  reaped : Bool
  deriving DecidableEq

-- ════════════════════════════════════════════════════════════════════════
-- Teardown paths
-- ════════════════════════════════════════════════════════════════════════

/-- The session a path works on, captured when the path starts. -/
structure Target where
  mcpSessionId : String
  containerName : String
  stagingPath : String
  deriving DecidableEq

def TransportState.target (t : TransportState) (mcpSessionId : String) : Target where
  mcpSessionId := mcpSessionId
  containerName := t.containerName
  stagingPath := SessionBroker.stagingPath t.tenantName t.stagingToken

def PendingInit.target (p : PendingInit) : Target where
  mcpSessionId := ""
  containerName := p.containerName
  stagingPath := SessionBroker.stagingPath p.tenantName p.stagingToken

/-- One operation of a path. -/
inductive Op where
  /-- ask docker whether the container runs; the path ends when it does -/
  | inspect
  /-- send the launcher a teardown -/
  | callTeardown
  /-- tombstone the session id -/
  | tombstone
  /-- remove the transport entry of the session id -/
  | removeEntry
  /-- remove the transport entry and start the launcher teardown in the background -/
  | evictEntry
  /-- remove the transport entry on an exit event -/
  | exitEntry
  /-- mark the worker row of the container reaped -/
  | recordReap
  /-- start the launcher teardown in the background -/
  | forkTeardown
  /-- start the control-plane DELETE in the background -/
  | forkDelete
  /-- send control-plane a DELETE for the session id -/
  | callDelete
  deriving DecidableEq, Repr

/-- What is left of a running path. -/
abbrev Program := List (Op × Target)

/-- `teardown_session`: the launcher call comes first, the entry goes after it. -/
def teardownSession (t : Target) : Program :=
  [(.callTeardown, t), (.tombstone, t), (.removeEntry, t), (.recordReap, t)]

/-- One round of the loop of `evict_sessions_for_tenant`. -/
def evictSession (t : Target) : Program := [(.tombstone, t), (.evictEntry, t)]

/-- `evict_dead_session`, behind its liveness check. -/
def evictDeadSession (t : Target) : Program := (.inspect, t) :: evictSession t

/-- `handle_container_exit`, once it has found the entry of the container. -/
def handleContainerExit (t : Target) : Program :=
  [(.tombstone, t), (.exitEntry, t), (.recordReap, t), (.forkTeardown, t), (.forkDelete, t)]

/-- The background half of an eviction. -/
def backgroundEvict (t : Target) : Program := [(.callTeardown, t), (.recordReap, t)]

end Botwork.SessionBroker
