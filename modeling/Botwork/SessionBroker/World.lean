import Botwork.Foundations.Transition
import Botwork.SessionBroker.State

/-!
# Session-broker, launcher, docker and control-plane

One transition system for the life of plugin containers.  Broker streams and
teardown paths advance one access at a time.  A remote call takes effect at its
callee in a step of its own, so a caller that has given up does not stop the
effect of its call.  Grace timers may expire at any time.

Container names are fresh: the broker draws 48 random bits for each.  The ack
gate of control-plane is `Botwork.ControlPlane`; here a POST or DELETE that
control-plane processes is one that envoy acknowledged.

## Main definitions

- `Saga` — one `spawn_new_container` call and the remote calls it makes
- `Stream` — one ext_proc stream and where its handler stands
- `World` — all parties, the messages in flight and the history
- `World.next` — one step of one party
- `broker` — the transition system
-/

namespace Botwork.SessionBroker

open Botwork.Foundations Botwork.ControlPlane

-- ════════════════════════════════════════════════════════════════════════
-- Parties
-- ════════════════════════════════════════════════════════════════════════

/-- Where a `spawn_new_container` call stands. -/
inductive SagaStage where
  /-- waiting for the launcher -/
  | launching
  | probing
  /-- waiting for control-plane -/
  | posting
  /-- about to write the `session_worker` row -/
  | recording
  /-- about to return `Ok` and enter `pending_init` -/
  | returning
  | returned
  /-- returned `Err` -/
  | refused
  deriving DecidableEq, Repr

inductive CallStatus where
  | unsent
  | inFlight
  | succeeded
  | failed
  deriving DecidableEq, Repr

/-- One `spawn_new_container` call.  `launch` and `post` say what the call did at
    its callee, whatever the broker has heard; `ip` is set by the launch. -/
structure Saga where
  spawn : Spawn
  stage : SagaStage
  launch : CallStatus
  post : CallStatus
  ip : Ipv4Addr
  deriving DecidableEq

def Saga.pending (saga : Saga) : PendingInit := saga.spawn.pending saga.ip

/-- Where the handler of an ext_proc stream stands. -/
inductive StreamPc where
  /-- waiting for the next message -/
  | idle
  /-- request headers: inside `spawn_new_container` for this container -/
  | spawning (containerName : String)
  /-- response headers: waiting for the teardown of a DELETE to finish -/
  | tearingDown (task : Nat) (mcpSessionId : Option String)
  /-- response headers: about to take the pending container -/
  | observing (mcpSessionId : Option String)
  /-- about to write the session id into the `session_worker` row -/
  | backfilling (containerName mcpSessionId : String)
  deriving DecidableEq

structure Stream where
  pc : StreamPc
  teardownOnResponse : Option Target
  deriving DecidableEq

inductive Phase where
  | running
  | exited
  | removed
  deriving DecidableEq, Repr

/-- A container as docker and the launcher hold it; `mounted` is its staging
    mount, which a launch sets up first and which outlives the container. -/
structure Container where
  phase : Phase
  mounted : Bool
  deriving DecidableEq

inductive EventKind where
  | die
  | destroy
  deriving DecidableEq, Repr

structure ContainerEvent where
  name : String
  kind : EventKind
  deriving DecidableEq, Repr

/-- What has happened so far.  Nothing in the code reads it. -/
structure History where
  /-- containers that entered `transport_sessions` -/
  installed : List String := []
  /-- containers with a launcher teardown issued -/
  issued : List String := []
  /-- containers with an exit event passed to `handle_container_exit` -/
  reported : List String := []
  /-- containers whose entry `handle_container_exit` found -/
  handled : List String := []
  /-- containers that exited on their own -/
  crashed : List String := []
  /-- removed records: the container the DELETE was sent for, and the record's id -/
  deregistered : List (String × String) := []
  deriving DecidableEq

structure World where
  now : Nat
  transportSessions : FiniteMap String TransportState
  pendingInit : FiniteMap Nat PendingInit
  tombstones : FiniteMap String Nat
  streams : FiniteMap Nat Stream
  tasks : FiniteMap Nat Program
  sagas : FiniteMap String Saga
  workers : FiniteMap String Worker
  docker : FiniteMap String Container
  records : SessionTable
  teardowns : List Target
  deletes : List Target
  events : List ContainerEvent
  history : History

inductive Action where
  | openStream (i : Nat)
  /-- the stream ends, cleanly or not -/
  | closeStream (i : Nat)
  /-- request headers of a session-less POST: the spawn starts -/
  | spawn (i : Nat) (s : Spawn)
  | launchOk (i : Nat)
  | launchErr (i : Nat)
  | probeOk (i : Nat)
  | probeErr (i k : Nat)
  | postOk (i : Nat)
  | postErr (i k : Nat)
  | recordSpawn (i : Nat)
  | spawnOk (i : Nat)
  /-- request headers of a DELETE on a known session -/
  | requestDelete (i : Nat) (mcpSessionId : String)
  | responseHeaders (i k : Nat) (mcpSessionId : Option String)
  | tornDown (i : Nat)
  | observe (i : Nat)
  | backfill (i : Nat)
  /-- a request finds a session whose container may be dead -/
  | evictDead (k : Nat) (mcpSessionId : String)
  | evictTenant (k : Nat) (tenant : String)
  /-- a grace timer expires -/
  | reap (k : Nat) (mcpSessionId : String)
  /-- the next operation of a path; `fork` names a task it may start -/
  | task (k fork : Nat)
  /-- an event reaches `handle_container_exit` -/
  | deliver (e : ContainerEvent) (k : Nat)
  /-- the launcher processes a launch -/
  | runLaunch (c : String) (ip : Ipv4Addr)
  /-- the launcher fails a launch and leaves behind what it had set up -/
  | failLaunch (c : String) (left : Option Container)
  | runTeardown (t : Target)
  /-- a teardown call is lost, or fails without effect -/
  | dropTeardown (t : Target)
  /-- control-plane processes a POST -/
  | runPost (c : String)
  | failPost (c : String)
  | runDelete (t : Target)
  /-- a container exits on its own -/
  | crash (c : String)
  /-- docker removes an exited container -/
  | autoRemove (c : String)
  | clock
  deriving DecidableEq

-- ════════════════════════════════════════════════════════════════════════
-- Steps
-- ════════════════════════════════════════════════════════════════════════

namespace World

def setPc (w : World) (i : Nat) (st : Stream) (pc : StreamPc) : World :=
  { w with streams := w.streams.insert i { st with pc := pc } }

def setTask (w : World) (k : Nat) (program : Program) : World :=
  { w with tasks := w.tasks.insert k program }

def setSaga (w : World) (c : String) (saga : Saga) : World :=
  { w with sagas := w.sagas.insert c saga }

def log (w : World) (f : History → History) : World := { w with history := f w.history }

def fresh (w : World) (k : Nat) : Bool := (w.tasks.lookup k).isNone

/-- The spawn that stream `i` is in, when it stands at `stage`. -/
def atStage (w : World) (i : Nat) (stage : SagaStage) : Option (String × Stream × Saga) :=
  match w.streams.lookup i with
  | some ⟨.spawning c, td⟩ =>
    match w.sagas.lookup c with
    | some saga => if saga.stage = stage then some (c, ⟨.spawning c, td⟩, saga) else none
    | none => none
  | _ => none

/-- `teardown_unannounced_container`, in the background as task `k`. -/
def teardownUnannounced (w : World) (k : Nat) (p : PendingInit) : World :=
  (w.setTask k [(.callTeardown, p.target)]).log fun h =>
    { h with issued := p.containerName :: h.issued }

/-- `spawn_new_container` returns `Err`; the stream answers at once. -/
def refuse (w : World) (i : Nat) (st : Stream) (c : String) (saga : Saga) : World :=
  (w.setPc i st .idle).setSaga c { saga with stage := .refused }

/-- The worker rows after one of them is overwritten, when it exists. -/
def updateWorker (workers : FiniteMap String Worker) (c : String) (f : Worker → Worker) :
    FiniteMap String Worker :=
  match workers.lookup c with
  | none => workers
  | some row => workers.insert c (f row)

/-- What `response_headers` installs: the pending container of the stream, when
    there is one and the response names a session id. -/
def installation (w : World) (i : Nat) (mcpSessionId : Option String) :
    Option (String × PendingInit) :=
  match mcpSessionId, w.pendingInit.lookup i with
  | some id, some p => some (id, p)
  | _, _ => none

/-- Take the pending container of the stream and install it when the response
    names a session id. -/
def observe (w : World) (i : Nat) (st : Stream) (mcpSessionId : Option String) : World :=
  let w' := { w with pendingInit := w.pendingInit.erase i }
  match w.installation i mcpSessionId with
  | none => w'.setPc i st .idle
  | some (id, p) =>
    ({ w' with transportSessions := w.transportSessions.insert id p.transport }.setPc i st
      (.backfilling p.containerName id)).log fun h =>
        { h with installed := p.containerName :: h.installed }

/-- The effect of one operation on everything but the task that runs it. -/
def perform (w : World) (fork : Nat) (op : Op) (t : Target) : World :=
  match op with
  | .inspect => w
  | .callTeardown =>
    { w with teardowns := t :: w.teardowns }.log fun h =>
      { h with issued := t.containerName :: h.issued }
  | .tombstone => { w with tombstones := w.tombstones.insert t.mcpSessionId (w.now + tombstoneTtl) }
  | .removeEntry | .exitEntry =>
    { w with transportSessions := w.transportSessions.erase t.mcpSessionId }
  | .evictEntry =>
    ({ w with transportSessions := w.transportSessions.erase t.mcpSessionId }.setTask fork
      (backgroundEvict t)).log fun h => { h with issued := t.containerName :: h.issued }
  | .recordReap =>
    { w with workers := updateWorker w.workers t.containerName fun row =>
        { row with reaped := true } }
  | .forkTeardown =>
    (w.setTask fork [(.callTeardown, t)]).log fun h =>
      { h with issued := t.containerName :: h.issued }
  | .forkDelete => w.setTask fork [(.callDelete, t)]
  | .callDelete => { w with deletes := t :: w.deletes }

/-- What is left of a path after its first operation: a liveness check that
    finds the container running ends it. -/
def remaining (w : World) (op : Op) (t : Target) (rest : Program) : Program :=
  if op = .inspect ∧ (w.docker.lookup t.containerName).any (·.phase = .running) then [] else rest

/-- Store what is left of task `k`; a task with nothing left ends. -/
def keepTask (w : World) (k : Nat) (todo : Program) : World :=
  { w with tasks := if todo = [] then w.tasks.erase k else w.tasks.insert k todo }

/-- The next operation of task `k`. -/
def runTask (w : World) (k fork : Nat) : Option World :=
  match w.tasks.lookup k with
  | some ((op, t) :: rest) =>
    if w.fresh fork ∧ fork ≠ k then
      some ((w.keepTask k (w.remaining op t rest)).perform fork op t)
    else none
  | _ => none

/-- The entry of a container, as `handle_container_exit` finds it. -/
def entryOf (w : World) (c : String) : Option (String × TransportState) :=
  w.transportSessions.find? fun _ t => t.containerName = c

/-- `handle_container_exit`: a container without an entry is unknown. -/
def exitEvent (w : World) (c : String) (k : Nat) : World :=
  { w with
    tasks := match w.entryOf c with
      | none => w.tasks
      | some (id, t) => w.tasks.insert k (handleContainerExit (t.target id))
    history := { w.history with
      reported := c :: w.history.reported
      handled := if (w.entryOf c).isSome then c :: w.history.handled else w.history.handled } }

/-- The targets `evict_sessions_for_tenant` collects under the lock. -/
def tenantTargets (w : World) (tenant : String) : List Target :=
  (w.transportSessions.entries.filter fun e => e.2.tenantName = tenant).map fun e => e.2.target e.1

/-- Docker after a failed launch that leaves a mount, or a mount and a container. -/
def leave (w : World) (c : String) : Option Container → FiniteMap String Container
  | none => w.docker
  | some left => w.docker.insert c left

/-- What docker reports when the launcher removes a container by force. -/
def removalEvents (w : World) (c : String) : List ContainerEvent :=
  match w.docker.lookup c with
  | some ⟨.running, _⟩ => [⟨c, .die⟩, ⟨c, .destroy⟩]
  | some ⟨.exited, _⟩ => [⟨c, .destroy⟩]
  | some ⟨.removed, _⟩ | none => []

/-- The launcher's `/teardown`: remove the container by force, unmount the
    staging directory. -/
def launcherTeardown (w : World) (c : String) : World :=
  { w with
    docker := if (w.docker.lookup c).isSome then w.docker.insert c ⟨.removed, false⟩ else w.docker
    events := w.events ++ w.removalEvents c }

/-- Whether control-plane's `DELETE /sessions/<id>` finds a record to remove. -/
def deletes? (w : World) (t : Target) : Bool :=
  isSessionId t.mcpSessionId && (w.records.get t.mcpSessionId).isSome

/-- Control-plane's `DELETE /sessions/<id>`. -/
def controlPlaneDelete (w : World) (t : Target) : World :=
  { w with
    records := if w.deletes? t then w.records.unset t.mcpSessionId else w.records
    history := { w.history with
      deregistered := if w.deletes? t then
          (t.containerName, t.mcpSessionId) :: w.history.deregistered
        else w.history.deregistered } }

def next (w : World) : Action → Option World
  | .openStream i =>
    if (w.streams.lookup i).isSome then none
    else some { w with streams := w.streams.insert i ⟨.idle, none⟩ }
  | .closeStream i =>
    match w.streams.lookup i with
    | some ⟨.idle, _⟩ =>
      some { w with streams := w.streams.erase i, pendingInit := w.pendingInit.erase i }
    | _ => none
  | .spawn i s =>
    match w.streams.lookup i with
    | some ⟨.idle, td⟩ =>
      if (w.sagas.lookup s.containerName).isSome ∨ ¬ isToken s.stagingToken then none
      else some ((w.setPc i ⟨.idle, td⟩ (.spawning s.containerName)).setSaga s.containerName
        ⟨s, .launching, .inFlight, .unsent, ⟨0, 0, 0, 0⟩⟩)
    | _ => none
  | .launchOk i =>
    match w.atStage i .launching with
    | some (c, _, saga) =>
      if saga.launch = .succeeded then some (w.setSaga c { saga with stage := .probing }) else none
    | none => none
  | .launchErr i =>
    match w.atStage i .launching with
    | some (c, st, saga) => some (w.refuse i st c saga)
    | none => none
  | .probeOk i =>
    match w.atStage i .probing with
    | some (c, _, saga) => some (w.setSaga c { saga with stage := .posting, post := .inFlight })
    | none => none
  | .probeErr i k =>
    match w.atStage i .probing with
    | some (c, st, saga) =>
      if w.fresh k then some ((w.teardownUnannounced k saga.pending).refuse i st c saga) else none
    | none => none
  | .postOk i =>
    match w.atStage i .posting with
    | some (c, _, saga) =>
      if saga.post = .succeeded then some (w.setSaga c { saga with stage := .recording }) else none
    | none => none
  | .postErr i k =>
    match w.atStage i .posting with
    | some (c, st, saga) =>
      if w.fresh k then some ((w.teardownUnannounced k saga.pending).refuse i st c saga) else none
    | none => none
  | .recordSpawn i =>
    match w.atStage i .recording with
    | some (c, _, saga) =>
      let row : Worker := ⟨saga.ip, saga.spawn.pluginName, "", false⟩
      some ({ w with workers := w.workers.insert c row }.setSaga c { saga with stage := .returning })
    | none => none
  | .spawnOk i =>
    match w.atStage i .returning with
    | some (c, st, saga) =>
      some (({ w with pendingInit := w.pendingInit.insert i saga.pending }.setPc i st .idle).setSaga c
        { saga with stage := .returned })
    | none => none
  | .requestDelete i id =>
    match w.streams.lookup i, w.transportSessions.lookup id with
    | some ⟨.idle, _⟩, some t =>
      if (w.tombstones.lookup id).any (w.now < ·) then none
      else some { w with streams := w.streams.insert i ⟨.idle, some (t.target id)⟩ }
    | _, _ => none
  | .responseHeaders i k id =>
    match w.streams.lookup i with
    | some ⟨.idle, none⟩ => some (w.setPc i ⟨.idle, none⟩ (.observing id))
    | some ⟨.idle, some t⟩ =>
      if w.fresh k then
        some ((w.setTask k (teardownSession t)).setPc i ⟨.idle, none⟩ (.tearingDown k id))
      else none
    | _ => none
  | .tornDown i =>
    match w.streams.lookup i with
    | some ⟨.tearingDown k id, td⟩ =>
      if w.fresh k then some (w.setPc i ⟨.tearingDown k id, td⟩ (.observing id)) else none
    | _ => none
  | .observe i =>
    match w.streams.lookup i with
    | some ⟨.observing id, td⟩ => some (w.observe i ⟨.observing id, td⟩ id)
    | _ => none
  | .backfill i =>
    match w.streams.lookup i with
    | some ⟨.backfilling c id, td⟩ =>
      let workers := updateWorker w.workers c fun row => { row with mcpSessionId := id }
      some ({ w with workers := workers }.setPc i ⟨.backfilling c id, td⟩ .idle)
    | _ => none
  | .evictDead k id =>
    match w.transportSessions.lookup id with
    | some t => if w.fresh k then some (w.setTask k (evictDeadSession (t.target id))) else none
    | none => none
  | .evictTenant k tenant =>
    if w.fresh k then
      some (w.keepTask k ((w.tenantTargets tenant).flatMap evictSession))
    else none
  | .reap k id =>
    match w.transportSessions.lookup id with
    | some t => if w.fresh k then some (w.setTask k (teardownSession (t.target id))) else none
    | none => none
  | .task k fork => w.runTask k fork
  | .deliver e k =>
    if e ∈ w.events ∧ w.fresh k then
      some ({ w with events := w.events.erase e }.exitEvent e.name k)
    else none
  | .runLaunch c ip =>
    match w.sagas.lookup c with
    | some saga =>
      if saga.launch = .inFlight then
        some ({ w with docker := w.docker.insert c ⟨.running, true⟩ }.setSaga c
          { saga with launch := .succeeded, ip := ip })
      else none
    | none => none
  | .failLaunch c left =>
    match w.sagas.lookup c with
    | some saga =>
      if saga.launch = .inFlight ∧ left.all (·.mounted) then
        some ({ w with docker := w.leave c left }.setSaga c { saga with launch := .failed })
      else none
    | none => none
  | .runTeardown t =>
    if t ∈ w.teardowns then
      some ({ w with teardowns := w.teardowns.erase t }.launcherTeardown t.containerName)
    else none
  | .dropTeardown t =>
    if t ∈ w.teardowns then some { w with teardowns := w.teardowns.erase t } else none
  | .runPost c =>
    match w.sagas.lookup c with
    | some saga =>
      if saga.post = .inFlight ∧ (w.records.get saga.pending.record.sessionId).isNone then
        some ({ w with records := w.records.set saga.pending.record }.setSaga c
          { saga with post := .succeeded })
      else none
    | none => none
  | .failPost c =>
    match w.sagas.lookup c with
    | some saga =>
      if saga.post = .inFlight then some (w.setSaga c { saga with post := .failed }) else none
    | none => none
  | .runDelete t =>
    if t ∈ w.deletes then
      some ({ w with deletes := w.deletes.erase t }.controlPlaneDelete t)
    else none
  | .crash c =>
    match w.docker.lookup c with
    | some ⟨.running, mounted⟩ =>
      some ({ w with docker := w.docker.insert c ⟨.exited, mounted⟩,
                     events := w.events ++ [(⟨c, .die⟩ : ContainerEvent)] }.log
        fun h => { h with crashed := c :: h.crashed })
    | _ => none
  | .autoRemove c =>
    match w.docker.lookup c with
    | some ⟨.exited, mounted⟩ =>
      some { w with docker := w.docker.insert c ⟨.removed, mounted⟩,
                    events := w.events ++ [⟨c, .destroy⟩] }
    | _ => none
  | .clock => some { w with now := w.now + 1 }

def init : World where
  now := 0
  transportSessions := ∅
  pendingInit := ∅
  tombstones := ∅
  streams := ∅
  tasks := ∅
  sagas := ∅
  workers := ∅
  docker := ∅
  records := SessionTable.empty
  teardowns := []
  deletes := []
  events := []
  history := {}

end World

/-- The system of broker, launcher, docker and control-plane. -/
def broker : Machine World Action where
  Start w := w = World.init
  next := World.next

-- ════════════════════════════════════════════════════════════════════════
-- Sample runs
-- ════════════════════════════════════════════════════════════════════════

/-- A spawn of plugin `echo` for the sample runs of the later modules. -/
def sampleSpawn : Spawn where
  stagingToken := "00000000000a"
  tenantName := "acme"
  workspace := "main"
  pluginName := "echo"
  descriptor := ⟨"echo:1", 8000, "/mcp", .none, ⟨none, none, none⟩, [], none, none⟩
  upstreamAuthorization := none

/-- The container of `sampleSpawn`. -/
def sampleContainer : String := "mcp_session_00000000000a"

/-- Stream 0 spawns the sample container; every call succeeds. -/
def spawnRun : List Action :=
  [.openStream 0, .spawn 0 sampleSpawn, .runLaunch sampleContainer ⟨10, 0, 0, 7⟩, .launchOk 0,
    .probeOk 0, .runPost sampleContainer, .postOk 0, .recordSpawn 0, .spawnOk 0]

end Botwork.SessionBroker
