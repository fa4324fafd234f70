import Botwork.Foundations.Tasks
import Botwork.Foundations.Transition
import Botwork.SessionBroker.World

/-!
# Stream liveness and teardown, section by section

Streams, grace timers and teardown paths as tasks over the shared state of the
broker.  A turn of a task is one section under one mutex, one update of an
atomic counter, or one remote call; a timer that sleeps may wake at any time.

A map entry of `stream_liveness` is an `Arc`: a task that has looked it up keeps
it after the map has dropped it.  Entries are therefore numbered, and the map
holds numbers.  The entry number in `streaming` and `dropEntry` is the one the
stream was counted on; the code does not keep it, and looks the map up again.

`evict_sessions_for_tenant` works through its sessions in one task.  DB writes
succeed, and both writers are configured.

## Main definitions

- `SessionLiveness`, `Shared` — the shared state
- `Pc` — where a task stands
- `turn` — what a task does next
- `tasks` — the transition system
-/

namespace Botwork.SessionBroker.Liveness

open Botwork.Foundations

-- ════════════════════════════════════════════════════════════════════════
-- Shared state
-- ════════════════════════════════════════════════════════════════════════

structure Identity where
  tenantName : String
  workspace : String
  agentId : String
  deriving DecidableEq, Repr

/-- The states of an `agent_session` row that the broker writes. -/
inductive AgentState where
  | active
  | grace
  | inactive
  deriving DecidableEq, Repr

structure SessionLiveness where
  openStreams : Nat
  /-- the grace timer that `grace_handle` aborts -/
  graceHandle : Option Nat
  deriving DecidableEq

structure Shared where
  now : Nat
  transportSessions : FiniteMap String TransportState
  streamLiveness : FiniteMap String Nat
  entries : Nat → SessionLiveness
  nextEntry : Nat
  tombstones : FiniteMap String Nat
  agentSessions : FiniteMap Identity AgentState
  workers : FiniteMap String Worker
  /-- the launcher teardowns issued so far -/
  issued : List Target

/-- The agent a transport is bound to. -/
def identity (t : TransportState) : Option Identity :=
  t.agentId.map fun agentId => ⟨t.tenantName, t.workspace, agentId⟩

namespace Shared

/-- The agent that the session is bound to, by its transport entry. -/
def identityOf (s : Shared) (mcpSessionId : String) : Option Identity :=
  (s.transportSessions.lookup mcpSessionId).bind identity

def setEntry (s : Shared) (e : Nat) (liveness : SessionLiveness) : Shared :=
  { s with entries := Function.update s.entries e liveness }

/-- The first section of `liveness_bump`: the entry of the session, or a new one. -/
def orInsert (s : Shared) (mcpSessionId : String) : Shared × Nat :=
  match s.streamLiveness.lookup mcpSessionId with
  | some e => (s, e)
  | none =>
    ({ s with
        streamLiveness := s.streamLiveness.insert mcpSessionId s.nextEntry
        entries := Function.update s.entries s.nextEntry ⟨0, none⟩
        nextEntry := s.nextEntry + 1 }, s.nextEntry)

/-- Take the handle out of an entry. -/
def takeHandle (s : Shared) (e : Nat) : Shared :=
  s.setEntry e { s.entries e with graceHandle := none }

def isTombstoned (s : Shared) (mcpSessionId : String) : Bool :=
  (s.tombstones.lookup mcpSessionId).any (s.now < ·)

/-- After a bind-agent call, an entry that has no agent gets one. -/
def bindAgent (s : Shared) (mcpSessionId agentId : String) : Shared :=
  match s.transportSessions.lookup mcpSessionId with
  | some t =>
    if t.agentId.isNone then
      { s with transportSessions :=
          s.transportSessions.insert mcpSessionId { t with agentId := some agentId } }
    else s
  | none => s

/-- `record_bind_agent`: the row becomes active, and is made if there is none. -/
def recordBindAgent (s : Shared) (who : Identity) : Shared :=
  { s with agentSessions := s.agentSessions.insert who .active }

/-- `record_grace` and `record_inactive`: a row that is missing stays so. -/
def transitionState (s : Shared) (who : Identity) (state : AgentState) : Shared :=
  if (s.agentSessions.lookup who).isSome then
    { s with agentSessions := s.agentSessions.insert who state }
  else s

end Shared

-- ════════════════════════════════════════════════════════════════════════
-- Tasks
-- ════════════════════════════════════════════════════════════════════════

/-- The operations of the teardown paths. -/
inductive PathOp where
  /-- `liveness_remove`: remove the map entry -/
  | unmap
  /-- `liveness_remove`: take the handle of the removed entry and abort the timer -/
  | takeHandle
  /-- `teardown_session`: note the agent of the session -/
  | identify
  | callTeardown
  | tombstone
  | removeEntry
  | recordInactive
  | recordReap
  /-- the background task of an eviction -/
  | forkBackground
  /-- the background launcher call of the exit path -/
  | forkTeardown
  deriving DecidableEq, Repr

/-- The session a path works on, as the path found it. -/
structure Job where
  mcpSessionId : String
  transport : TransportState
  deriving DecidableEq

def Job.target (job : Job) : Target := job.transport.target job.mcpSessionId

def teardownSession : List PathOp :=
  [.unmap, .takeHandle, .identify, .callTeardown, .tombstone, .removeEntry, .recordInactive,
    .recordReap]

/-- `evict_dead_session`, and one round of `evict_sessions_for_tenant`. -/
def evictSession : List PathOp := [.unmap, .takeHandle, .tombstone, .removeEntry, .forkBackground]

def backgroundEvict : List PathOp := [.callTeardown, .recordInactive, .recordReap]

/-- `handle_container_exit`, once it has found the session. -/
def handleContainerExit : List PathOp :=
  [.tombstone, .removeEntry, .unmap, .takeHandle, .recordReap, .forkTeardown]

/-- Where a path stands: the operations it still has to run on its session, the
    entry that `liveness_remove` has removed, the agent it has noted, and the
    sessions that come after. -/
structure Path where
  /-- run by a grace timer -/
  reaper : Bool
  job : Job
  held : Option Nat
  who : Option Identity
  ops : List PathOp
  rest : List Job
  deriving DecidableEq

/-- Where a task stands. -/
inductive Pc where
  /-- `liveness_bump` -/
  | bumpEntry (mcpSessionId : String)
  | bumpCount (mcpSessionId : String) (e : Nat)
  | bumpTake (mcpSessionId : String) (e : Nat)
  | bumpIdentify (mcpSessionId : String) (e : Nat)
  | bumpRecord (mcpSessionId : String) (e : Nat) (who : Identity)
  /-- the bump has returned -/
  | streaming (mcpSessionId : String) (e : Nat)
  /-- `liveness_drop` -/
  | dropEntry (mcpSessionId : String) (e : Nat)
  | dropCount (mcpSessionId : String) (e : Nat)
  | dropIdentify (mcpSessionId : String) (e : Nat)
  | dropRecord (mcpSessionId : String) (e : Nat) (who : Identity)
  /-- `schedule_grace_timer` -/
  | arm (mcpSessionId : String) (e : Nat)
  /-- the timer task -/
  | sleeping (mcpSessionId : String) (e : Nat)
  | expired (mcpSessionId : String)
  | reaping (mcpSessionId : String)
  | path (p : Path)
  /-- the DB write of a bind-agent call -/
  | bindRecord (who : Identity)
  deriving DecidableEq

/-- An abort of a timer that sleeps ends it at once. -/
def Pc.sleeps : Pc → Bool
  | .sleeping _ _ => true
  | _ => false

/-- The session a task works on. -/
def Pc.session : Pc → Option String
  | .bumpEntry id | .bumpCount id _ | .bumpTake id _ | .bumpIdentify id _ | .bumpRecord id _ _
  | .streaming id _ | .dropEntry id _ | .dropCount id _ | .dropIdentify id _ | .dropRecord id _ _
  | .arm id _ | .sleeping id _ | .expired id | .reaping id => some id
  | .path p => some p.job.mcpSessionId
  | .bindRecord _ => none

/-- A path goes on with what is left, or with the next session of an eviction. -/
def Path.continue (p : Path) (ops : List PathOp) : Option Pc :=
  match ops, p.rest with
  | [], [] => none
  | [], job :: rest =>
    some (.path { p with job := job, held := none, who := identity job.transport,
                         ops := evictSession, rest := rest })
  | ops, _ => some (.path { p with ops := ops })

/-- A task that runs `ops` in the background, for the session of a path. -/
def Path.background (p : Path) (ops : List PathOp) : Pc :=
  .path ⟨false, p.job, none, p.who, ops, []⟩

/-- One operation of a path; `ops` are the ones after it. -/
def Path.turn (s : Shared) (p : Path) (ops : List PathOp) : PathOp → Turn Shared Pc
  | .unmap =>
    ⟨{ s with streamLiveness := s.streamLiveness.erase p.job.mcpSessionId },
      { p with held := s.streamLiveness.lookup p.job.mcpSessionId }.continue ops, none, none⟩
  | .takeHandle =>
    match p.held with
    | some e =>
      ⟨s.takeHandle e, { p with held := none }.continue ops, none, (s.entries e).graceHandle⟩
    | none => ⟨s, p.continue ops, none, none⟩
  | .identify =>
    ⟨s, { p with who := s.identityOf p.job.mcpSessionId }.continue ops, none, none⟩
  | .callTeardown => ⟨{ s with issued := p.job.target :: s.issued }, p.continue ops, none, none⟩
  | .tombstone =>
    ⟨{ s with tombstones := s.tombstones.insert p.job.mcpSessionId (s.now + tombstoneTtl) },
      p.continue ops, none, none⟩
  | .removeEntry =>
    ⟨{ s with transportSessions := s.transportSessions.erase p.job.mcpSessionId },
      p.continue ops, none, none⟩
  | .recordInactive =>
    match p.who with
    | some who => ⟨s.transitionState who .inactive, p.continue ops, none, none⟩
    | none => ⟨s, p.continue ops, none, none⟩
  | .recordReap =>
    ⟨{ s with workers := World.updateWorker s.workers p.job.transport.containerName fun row =>
        { row with reaped := true } }, p.continue ops, none, none⟩
  | .forkBackground => ⟨s, p.continue ops, some (p.background backgroundEvict), none⟩
  | .forkTeardown => ⟨s, p.continue ops, some (p.background [.callTeardown]), none⟩

/-- What a task at a point does next; `task` is the number a task it spawns gets. -/
def turn (s : Shared) (task : Nat) : Pc → Turn Shared Pc
  | .bumpEntry id =>
    match s.orInsert id with
    | (s', e) => ⟨s', some (.bumpCount id e), none, none⟩
  | .bumpCount id e =>
    ⟨s.setEntry e { s.entries e with openStreams := (s.entries e).openStreams + 1 },
      some (.bumpTake id e), none, none⟩
  | .bumpTake id e =>
    match (s.entries e).graceHandle with
    | some timer => ⟨s.takeHandle e, some (.bumpIdentify id e), none, some timer⟩
    | none => ⟨s, some (.streaming id e), none, none⟩
  | .bumpIdentify id e =>
    match s.identityOf id with
    | some who => ⟨s, some (.bumpRecord id e who), none, none⟩
    | none => ⟨s, some (.streaming id e), none, none⟩
  | .bumpRecord id e who => ⟨s.recordBindAgent who, some (.streaming id e), none, none⟩
  -- the stream ends
  | .streaming id e => ⟨s, some (.dropEntry id e), none, none⟩
  | .dropEntry id _ =>
    match s.streamLiveness.lookup id with
    | some found => ⟨s, some (.dropCount id found), none, none⟩
    | none => ⟨s, none, none, none⟩
  | .dropCount id e =>
    match (s.entries e).openStreams with
    | 0 => ⟨s, none, none, none⟩
    | n + 1 =>
      ⟨s.setEntry e { s.entries e with openStreams := n },
        if n = 0 then some (.dropIdentify id e) else none, none, none⟩
  | .dropIdentify id e =>
    match s.identityOf id with
    | some who => ⟨s, some (.dropRecord id e who), none, none⟩
    | none => ⟨s, some (.arm id e), none, none⟩
  | .dropRecord id e who => ⟨s.transitionState who .grace, some (.arm id e), none, none⟩
  | .arm id e =>
    if 0 < (s.entries e).openStreams then ⟨s, none, none, none⟩
    else
      ⟨s.setEntry e { s.entries e with graceHandle := some task }, none, some (.sleeping id e), none⟩
  -- the grace period is over
  | .sleeping id _ => ⟨s, some (.expired id), none, none⟩
  | .expired id =>
    ⟨{ s with streamLiveness := s.streamLiveness.erase id }, some (.reaping id), none, none⟩
  | .reaping id =>
    match s.transportSessions.lookup id with
    | some t => ⟨s, some (.path ⟨true, ⟨id, t⟩, none, none, teardownSession, []⟩), none, none⟩
    | none => ⟨s, none, none, none⟩
  | .path p =>
    match p.ops with
    | op :: ops => p.turn s ops op
    | [] => ⟨s, p.continue [], none, none⟩
  | .bindRecord who => ⟨s.recordBindAgent who, none, none, none⟩

-- ════════════════════════════════════════════════════════════════════════
-- The transition system
-- ════════════════════════════════════════════════════════════════════════

abbrev State := Pool Shared Pc

inductive Action where
  /-- a request is routed to the session and is about to bump -/
  | arrive (mcpSessionId : String)
  /-- response headers install a session; the stream is about to bump -/
  | install (mcpSessionId : String) (t : TransportState)
  /-- startup: a recovered session with its grace timer -/
  | recover (mcpSessionId : String) (t : TransportState)
  /-- a bind-agent call has succeeded, for a transport that was read before it -/
  | bindAgent (mcpSessionId : String) (t : TransportState) (agentId : String)
  /-- a task takes its next turn -/
  | run (k : Nat)
  /-- an aborted task ends -/
  | cancel (k : Nat)
  /-- `teardown_session` for a DELETE -/
  | delete (mcpSessionId : String)
  | evictDead (mcpSessionId : String)
  | evictTenant (tenant : String)
  | exit (containerName : String)
  deriving DecidableEq

/-- A path of a request handler on its first session. -/
def pathOn (job : Job) (who : Option Identity) (ops : List PathOp) (rest : List Job) : Pc :=
  .path ⟨false, job, none, who, ops, rest⟩

/-- The sessions `evict_sessions_for_tenant` collects under the lock. -/
def tenantJobs (s : Shared) (tenant : String) : List Job :=
  (s.transportSessions.entries.filter fun e => e.2.tenantName = tenant).map fun e => ⟨e.1, e.2⟩

def next (s : State) : Action → Option State
  | .arrive id => some (s.start (.bumpEntry id))
  | .install id t =>
    some ({ s with shared := { s.shared with
      transportSessions := s.shared.transportSessions.insert id t } }.start (.bumpEntry id))
  | .recover id t =>
    if (s.shared.transportSessions.lookup id).isNone ∧ (s.shared.streamLiveness.lookup id).isNone ∧
        s.tasks.all (fun _ u => u.pc.session ≠ some id) then
      let e := s.shared.nextEntry
      some ({ s with shared := { s.shared with
        transportSessions := s.shared.transportSessions.insert id t
        streamLiveness := s.shared.streamLiveness.insert id e
        entries := Function.update s.shared.entries e ⟨0, some s.nextTask⟩
        nextEntry := e + 1 } }.start (.sleeping id e))
    else none
  | .bindAgent id t agentId =>
    some ({ s with shared := s.shared.bindAgent id agentId }.start
      (.bindRecord ⟨t.tenantName, t.workspace, agentId⟩))
  | .run k =>
    match s.tasks.lookup k with
    | some t => some (s.resume Pc.sleeps k t (turn s.shared s.nextTask t.pc))
    | none => none
  | .cancel k =>
    match s.tasks.lookup k with
    | some t => if t.aborted then some (s.cancel k) else none
    | none => none
  | .delete id =>
    match s.shared.transportSessions.lookup id with
    | some t => some (s.start (pathOn ⟨id, t⟩ none teardownSession []))
    | none => none
  | .evictDead id =>
    match s.shared.transportSessions.lookup id with
    | some t => some (s.start (pathOn ⟨id, t⟩ (identity t) evictSession []))
    | none => none
  | .evictTenant tenant =>
    match tenantJobs s.shared tenant with
    | job :: rest => some (s.start (pathOn job (identity job.transport) evictSession rest))
    | [] => some s
  | .exit c =>
    match s.shared.transportSessions.find? fun _ t => t.containerName = c with
    | some (id, t) => some (s.start (pathOn ⟨id, t⟩ none handleContainerExit []))
    | none => some s

def init : State where
  shared :=
    { now := 0
      transportSessions := ∅
      streamLiveness := ∅
      entries := fun _ => ⟨0, none⟩
      nextEntry := 0
      tombstones := ∅
      agentSessions := ∅
      workers := ∅
      issued := [] }
  tasks := ∅
  nextTask := 0

/-- The broker's streams, timers and paths, from a cold start. -/
def tasks : Machine State Action where
  Start s := s = init
  next := next

-- ════════════════════════════════════════════════════════════════════════
-- Sample runs
-- ════════════════════════════════════════════════════════════════════════

/-- The transport of the sample container, for the runs of the later modules. -/
def sampleTransport : TransportState := (sampleSpawn.pending ⟨10, 0, 0, 7⟩).transport

/-- `n` turns of task `k`. -/
def turns (k n : Nat) : List Action := List.replicate n (.run k)

/-- A session is installed, its stream ends, and its grace timer, task 8, is set. -/
def idleRun : List Action := .install "s-1" sampleTransport :: turns 0 8

end Botwork.SessionBroker.Liveness
