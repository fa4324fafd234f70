import Botwork.ControlPlane.Handler
import Botwork.Foundations.Transition

/-!
# ADS streams and the control-plane system

Each connected envoy drives one ADS stream.  The stream's task alternates
between requests from envoy and ticks of the generation channel; a push reads
the generation, then the table, and ships the table under that generation.  The
`System` puts streams, handlers and envoys together; every label is one access
to shared state, so its runs are all interleavings.

An envoy answers the responses of a stream in order, accepts or rejects each,
and opens a stream with the version it accepted last, which may stem from an
earlier control-plane process.

## Main definitions

- `LdsPush` — a listener response: version and the snapshot it is compiled from
- `AdsStream` — one stream: task, inbound requests, unanswered responses
- `System`, `Action`, `System.next` — the whole system
- `controlPlane` — its transition system
-/

namespace Botwork.ControlPlane

open Botwork.Foundations

-- ════════════════════════════════════════════════════════════════════════
-- Messages
-- ════════════════════════════════════════════════════════════════════════

inductive TypeUrl where
  | listener
  | cluster
  | other
  deriving DecidableEq, Repr

/-- What the stream task reads of a `DiscoveryRequest`. -/
structure DiscoveryRequest where
  typeUrl : TypeUrl
  versionInfo : String
  errorDetail : Option String
  deriving DecidableEq, Repr

/-- A listener push: the generation it is labelled with and the snapshot its
    listener is compiled from. -/
structure LdsPush where
  version : Nat
  snapshot : List SessionRecord
  deriving DecidableEq

/-- The static cluster is always shipped under this version. -/
def clusterVersion : String := "1"

inductive DiscoveryResponse where
  | listener (nonce : Nat) (push : LdsPush)
  | cluster (nonce : Nat)
  deriving DecidableEq

namespace DiscoveryResponse

def typeUrl : DiscoveryResponse → TypeUrl
  | .listener _ _ => .listener
  | .cluster _ => .cluster

def versionInfo : DiscoveryResponse → String
  | .listener _ push => toString push.version
  | .cluster _ => clusterVersion

end DiscoveryResponse

/-- `version_info` as the stream task reads it. -/
def DiscoveryRequest.envoyHas (req : DiscoveryRequest) : Option Nat :=
  if req.versionInfo.isEmpty then none else parseUnsigned (2 ^ 64) req.versionInfo

-- ════════════════════════════════════════════════════════════════════════
-- One stream
-- ════════════════════════════════════════════════════════════════════════

/-- Where a stream task stands. -/
inductive StreamPc where
  /-- the subscriber guard is taken, the body has not been polled yet -/
  | opened
  /-- waiting for a request or a generation tick -/
  | select
  /-- an LDS request is recorded; about to read the generation -/
  | compare (envoyHas : Option Nat)
  /-- about to read the table for a push of this version -/
  | snapshot (version : Nat)
  /-- the listener is compiled; about to yield it -/
  | yield (push : LdsPush)
  deriving DecidableEq

/-- One ADS stream.  `seen` is the generation last observed by the stream's
    receiver; `inbound` and `outbound` are the messages in flight. -/
structure AdsStream where
  envoy : Nat
  pc : StreamPc
  seen : Nat
  nonceCounter : Nat
  clusterVersionPushed : Bool
  inbound : List DiscoveryRequest
  outbound : List DiscoveryResponse
  deriving DecidableEq

namespace AdsStream

def new (envoy : Nat) : AdsStream where
  envoy := envoy
  pc := .opened
  seen := 0
  nonceCounter := 0
  clusterVersionPushed := false
  inbound := []
  outbound := []

/-- Emit a response under the next nonce. -/
def send (st : AdsStream) (response : Nat → DiscoveryResponse) : AdsStream :=
  { st with nonceCounter := st.nonceCounter + 1,
            outbound := st.outbound ++ [response (st.nonceCounter + 1)] }

/-- Handle the next inbound request, up to the end of `record_acked_version`. -/
def receive (store : SessionStore) (st : AdsStream) : Option (SessionStore × AdsStream) :=
  match st.pc, st.inbound with
  | .select, req :: rest =>
    let st := { st with inbound := rest }
    if req.errorDetail.isSome then some (store, st)
    else
      match req.typeUrl with
      | .listener =>
        match req.envoyHas with
        | some acked =>
          some (store.recordAckedVersion acked, { st with pc := .compare (some acked) })
        | none => some (store, { st with pc := .compare none })
      | .cluster =>
        if st.clusterVersionPushed then some (store, st)
        else some (store, { st.send .cluster with clusterVersionPushed := true })
      | .other => some (store, st)
  | _, _ => none

/-- Observe a generation tick. -/
def tick (store : SessionStore) (st : AdsStream) : Option AdsStream :=
  if st.pc = .select ∧ st.seen ≠ store.generation then
    some { st with seen := store.generation, pc := .snapshot store.generation }
  else none

/-- The next access of the task outside its `select!`. -/
def advance (store : SessionStore) (st : AdsStream) : Option AdsStream :=
  match st.pc with
  | .opened => some { st with pc := .select, seen := store.generation }
  | .select => none
  | .compare envoyHas =>
    if envoyHas = some store.generation then some { st with pc := .select }
    else some { st with pc := .snapshot store.generation }
  | .snapshot version => some { st with pc := .yield ⟨version, store.list⟩ }
  | .yield push => some { st.send (.listener · push) with pc := .select }

end AdsStream

-- ════════════════════════════════════════════════════════════════════════
-- The system
-- ════════════════════════════════════════════════════════════════════════

/-- Control-plane and its envoys.  `lastAccepted` is the listener version each
    envoy accepted last, as text; `acked` records the pushes of this process
    that an envoy has acknowledged. -/
structure System where
  store : SessionStore
  handlers : FiniteMap Nat HandlerPc
  streams : FiniteMap Nat AdsStream
  lastAccepted : Nat → String
  acked : List LdsPush

inductive Action where
  | post (h : Nat) (body : Option PostBody)
  | delete (h : Nat) (id : String)
  /-- the next access of a handler -/
  | handler (h : Nat)
  /-- a handler's wait budget runs out -/
  | expire (h : Nat)
  /-- an envoy connects -/
  | connect (i : Nat) (envoy : Nat)
  /-- a stream ends, whatever its task is doing -/
  | disconnect (i : Nat)
  | receive (i : Nat)
  | tick (i : Nat)
  /-- the next access of a stream task outside its `select!` -/
  | stream (i : Nat)
  /-- envoy subscribes, naming the version it accepted last -/
  | subscribe (i : Nat) (typeUrl : TypeUrl)
  /-- envoy applies the next response and acknowledges it -/
  | accept (i : Nat)
  /-- envoy rejects the next response -/
  | reject (i : Nat) (message : String)
  deriving DecidableEq

namespace System

def setHandler (s : System) (h : Nat) (store : SessionStore) (pc : HandlerPc) : System :=
  { s with store := store, handlers := s.handlers.insert h pc }

def setStream (s : System) (i : Nat) (st : AdsStream) : System :=
  { s with streams := s.streams.insert i st }

/-- The request by which an envoy names the version it accepted last. -/
def requestOf (s : System) (envoy : Nat) (typeUrl : TypeUrl) (errorDetail : Option String) :
    DiscoveryRequest where
  typeUrl := typeUrl
  versionInfo := if typeUrl = .listener then s.lastAccepted envoy else ""
  errorDetail := errorDetail

/-- Envoy applies `response` on stream `i` and acknowledges it. -/
def acknowledge (s : System) (i : Nat) (st : AdsStream) (response : DiscoveryResponse)
    (rest : List DiscoveryResponse) : System :=
  let ack : DiscoveryRequest := ⟨response.typeUrl, response.versionInfo, none⟩
  let s := s.setStream i { st with outbound := rest, inbound := st.inbound ++ [ack] }
  match response with
  | .listener _ push =>
    { s with lastAccepted := Function.update s.lastAccepted st.envoy response.versionInfo,
             acked := push :: s.acked }
  | .cluster _ => s

def next (state : AppState) (s : System) : Action → Option System
  | .post h body =>
    if (s.handlers.lookup h).isSome then none
    else
      let (store, pc) := HandlerPc.post s.store body
      some (s.setHandler h store pc)
  | .delete h id =>
    if (s.handlers.lookup h).isSome then none
    else
      let (store, pc) := HandlerPc.delete s.store id
      some (s.setHandler h store pc)
  | .handler h => do
    let pc ← s.handlers.lookup h
    let (store, pc) ← pc.advance state s.store
    return s.setHandler h store pc
  | .expire h => do
    let pc ← s.handlers.lookup h
    let pc ← pc.expire
    return s.setHandler h s.store pc
  | .connect i envoy =>
    if (s.streams.lookup i).isSome then none
    else
      let store := { s.store with xdsSubscribers := s.store.xdsSubscribers + 1 }
      some { s with store := store, streams := s.streams.insert i (.new envoy) }
  | .disconnect i =>
    if (s.streams.lookup i).isNone then none
    else
      let store := { s.store with xdsSubscribers := s.store.xdsSubscribers - 1 }
      some { s with store := store, streams := s.streams.erase i }
  | .receive i => do
    let st ← s.streams.lookup i
    let (store, st) ← st.receive s.store
    return { s with store := store, streams := s.streams.insert i st }
  | .tick i => do
    let st ← s.streams.lookup i
    let st ← st.tick s.store
    return s.setStream i st
  | .stream i => do
    let st ← s.streams.lookup i
    let st ← st.advance s.store
    return s.setStream i st
  | .subscribe i typeUrl => do
    let st ← s.streams.lookup i
    return s.setStream i { st with inbound := st.inbound ++ [s.requestOf st.envoy typeUrl none] }
  | .accept i => do
    let st ← s.streams.lookup i
    let response :: rest := st.outbound | none
    return s.acknowledge i st response rest
  | .reject i message => do
    let st ← s.streams.lookup i
    let response :: rest := st.outbound | none
    let nack := s.requestOf st.envoy response.typeUrl (some message)
    return s.setStream i { st with outbound := rest, inbound := st.inbound ++ [nack] }

/-- A process that has seeded its store and serves its first request.  Envoys
    may have accepted any version from an earlier process. -/
def Start (s : System) : Prop :=
  (∃ records, s.store = SessionStore.new.seedStore records) ∧
    s.handlers = ∅ ∧ s.streams = ∅ ∧ s.acked = []

end System

/-- Control-plane as a transition system. -/
def controlPlane (state : AppState) : Machine System Action where
  Start := System.Start
  next := System.next state

end Botwork.ControlPlane
