import Botwork.SessionBroker.Isolation

/-!
# Tombstones

Every teardown path writes a tombstone for its session id and removes the
transport entry; requests look at the tombstone before anything else of the
session.  Expired tombstones are dropped by the next request that looks, and by
a sweeper whose clock reading may be old.  `torn_down_stays_dead` proves, for
every interleaving, that an id is answered 404 for the whole life of its
tombstone, and after that until it is installed again.  The life counts from
the write of the tombstone, not from the end of the path
(`ttl_counts_from_tombstone`).

## Main definitions

- `Graveyard`, `graveyard` — the routing maps, the paths under way and a log
- `StaysDead` — the property
- `AppState.Covers` — a tombstone that lasts to a deadline
- `GraveInv` — the invariant
-/

namespace Botwork.SessionBroker

open Botwork.Foundations

-- ════════════════════════════════════════════════════════════════════════
-- Teardowns, requests and the sweeper
-- ════════════════════════════════════════════════════════════════════════

inductive Event where
  /-- a path has written the tombstone of the id -/
  | buried (mcpSessionId : String) (time : Nat)
  /-- a path has removed the transport entry of the id -/
  | removed (mcpSessionId : String)
  /-- a path has performed its last operation -/
  | completed (mcpSessionId : String) (time : Nat)
  | installed (mcpSessionId : String)
  /-- a request has been answered -/
  | answered (time : Nat) (stream : PerStreamState) (response : ProcessingResponse)
  deriving DecidableEq

/-- The routing maps, the teardown paths under way, and what has happened, the
    latest event first. -/
structure Graveyard where
  app : AppState
  paths : FiniteMap Nat Program
  log : List Event

/-- The paths that tear a session down; an eviction is a round of
    `evict_sessions_for_tenant`, or `evict_dead_session` after its check. -/
inductive PathStart where
  | teardown (t : Target)
  | evict (t : Target)
  | containerExit (t : Target)
  deriving DecidableEq

def PathStart.program : PathStart → Program
  | .teardown t => teardownSession t
  | .evict t => evictSession t
  | .containerExit t => handleContainerExit t

inductive GraveAction where
  /-- time passes -/
  | elapse (seconds : Nat)
  | request (remote : Remote) (stream : PerStreamState) (headers : List HeaderValue)
  /-- an initialize response installs a session id -/
  | install (mcpSessionId : String) (transport : TransportState)
  | start (k : Nat) (path : PathStart)
  /-- the next operation of a path -/
  | step (k : Nat)
  /-- `prune_expired`, with a clock reading that is `age` seconds old -/
  | sweep (age : Nat)

namespace Graveyard

/-- One operation of a path on the routing maps, with what it logs. -/
def perform (app : AppState) (op : Op) (t : Target) : AppState × List Event :=
  match op with
  | .tombstone =>
    ({ app with tombstones := app.tombstones.insert t.mcpSessionId (app.now + tombstoneTtl) },
      [.buried t.mcpSessionId app.now])
  | .removeEntry | .evictEntry | .exitEntry =>
    ({ app with transportSessions := app.transportSessions.erase t.mcpSessionId },
      [.removed t.mcpSessionId])
  | .inspect | .callTeardown | .recordReap | .forkTeardown | .forkDelete | .callDelete => (app, [])

/-- What one effect of a request logs. -/
def evictions (now : Nat) : Effect → List Event
  | .evictDeadSession id _ => [.removed id, .buried id now]
  | .livenessBump _ | .teardownUnannounced _ | .recordSpawn _ _ _ => []

/-- What a request logs: the eviction it has carried out, and its answer. -/
def answer (now : Nat) (stream : PerStreamState) (outcome : Outcome) : List Event :=
  .answered now stream outcome.response :: outcome.effects.flatMap (evictions now)

def next (g : Graveyard) : GraveAction → Option Graveyard
  | .elapse seconds => some { g with app := { g.app with now := g.app.now + seconds } }
  | .request remote stream headers =>
    let outcome := handleRequestHeaders remote g.app stream headers
    some { g with app := outcome.state,
                  log := answer g.app.now (stream.observe headers) outcome ++ g.log }
  | .install id transport =>
    some { g with
      app := { g.app with transportSessions := g.app.transportSessions.insert id transport },
      log := .installed id :: g.log }
  | .start k path =>
    if (g.paths.lookup k).isSome then none
    else some { g with paths := g.paths.insert k path.program }
  | .step k => do
    let (op, t) :: rest ← g.paths.lookup k | none
    let (app, events) := perform g.app op t
    let done := if rest.isEmpty then [.completed t.mcpSessionId g.app.now] else []
    return { app := app, paths := g.paths.insert k rest, log := done ++ events ++ g.log }
  | .sweep age =>
    some { g with app := { g.app with
      tombstones := g.app.tombstones.retain fun _ expiresAt => g.app.now - age < expiresAt } }

end Graveyard

/-- The broker starts with the sessions it has recovered and without tombstones. -/
def graveyard : Machine Graveyard GraveAction where
  Start g := g.app.tombstones = ∅ ∧ g.paths = ∅ ∧ g.log = []
  next := Graveyard.next

-- ════════════════════════════════════════════════════════════════════════
-- The property
-- ════════════════════════════════════════════════════════════════════════

/-- A GET, POST or DELETE that names the session. -/
def PerStreamState.Names (stream : PerStreamState) (id : String) : Prop :=
  stream.mcpSessionId = some id ∧
    (stream.method = "GET" ∨ stream.method = "POST" ∨ stream.method = "DELETE")

def unknownSession : ProcessingResponse := .immediateResponse 404 "unknown mcp-session-id"

/-- A request for an id that is dead is answered at the proxy, and with 404 when
    its tenant header is well formed. -/
def DeadAnswer (stream : PerStreamState) (response : ProcessingResponse) : Prop :=
  response.Immediate ∧ (isSlug stream.trustedTenant = true → response = unknownSession)

/-- An id is dead while a tombstone written for it lasts, and after a path has
    removed its entry until it is installed again. -/
structure StaysDead (g : Graveyard) : Prop where
  buried : ∀ newer older time stream response id writtenAt,
    g.log = newer ++ .answered time stream response :: older → .buried id writtenAt ∈ older →
      stream.Names id → time < writtenAt + tombstoneTtl → DeadAnswer stream response
  removed : ∀ newer between older time stream response id,
    g.log = newer ++ .answered time stream response :: (between ++ .removed id :: older) →
      .installed id ∉ between → stream.Names id → DeadAnswer stream response

/-- The life counted from an event of the path: its requests get the answer `A`. -/
def DeadSince (event : String → Nat → Event) (A : PerStreamState → ProcessingResponse → Prop)
    (g : Graveyard) : Prop :=
  ∀ newer older time stream response id t,
    g.log = newer ++ .answered time stream response :: older → event id t ∈ older →
      stream.Names id → time < t + tombstoneTtl → A stream response

-- ════════════════════════════════════════════════════════════════════════
-- Tombstones that last
-- ════════════════════════════════════════════════════════════════════════

namespace AppState

variable {s s' : AppState} {id : String} {deadline : Nat}

/-- The tombstone of the id lasts to the deadline, or the deadline has passed. -/
def Covers (s : AppState) (id : String) (deadline : Nat) : Prop :=
  (∃ expiresAt, s.tombstones.lookup id = some expiresAt ∧ deadline ≤ expiresAt) ∨ deadline ≤ s.now

/-- What the broker may do to its maps: tombstones last, and no entry appears. -/
structure Decays (s s' : AppState) : Prop where
  now : s'.now = s.now
  covers : ∀ id deadline, deadline ≤ s.now + tombstoneTtl → s.Covers id deadline →
    s'.Covers id deadline
  gone : ∀ id, s.transportSessions.lookup id = none → s'.transportSessions.lookup id = none

theorem Covers.isTombstoned (h : s.Covers id deadline) (hlt : s.now < deadline) :
    s.isTombstoned id = true := by
  rcases h with ⟨expiresAt, hlook, hle⟩ | hpast
  · rw [AppState.isTombstoned, hlook]
    exact decide_eq_true (hlt.trans_le hle)
  · omega

theorem Decays.refl (s : AppState) : Decays s s := ⟨rfl, fun _ _ _ h => h, fun _ h => h⟩

theorem Decays.trans {s'' : AppState} (h : Decays s s') (h' : Decays s' s'') : Decays s s'' where
  now := h'.now.trans h.now
  covers id deadline hle hcov := h'.covers id deadline (h.now ▸ hle) (h.covers id deadline hle hcov)
  gone id hnone := h'.gone id (h.gone id hnone)

/-- Only an expired tombstone is purged. -/
theorem decays_purgeTombstone (s : AppState) (id : String) : Decays s (s.purgeTombstone id) := by
  refine ⟨s.now_purgeTombstone id, ?_, fun _ h => by rwa [s.transportSessions_purgeTombstone]⟩
  intro id' deadline _ hcov
  unfold purgeTombstone
  split
  next => exact hcov
  next hexpired =>
    rcases hcov with ⟨expiresAt, hlook, hle⟩ | hpast
    · by_cases hid : id' = id
      · subst hid
        have hpast : ¬ s.now < expiresAt := by simpa [AppState.isTombstoned, hlook] using hexpired
        exact .inr (by show deadline ≤ s.now; omega)
      · exact .inl ⟨expiresAt, (AList.lookup_erase_ne hid).trans hlook, hle⟩
    · exact .inr hpast

theorem decays_tombstone (s : AppState) (id : String) :
    Decays s { s with tombstones := s.tombstones.insert id (s.now + tombstoneTtl) } := by
  refine ⟨rfl, ?_, fun _ h => h⟩
  rintro id' deadline hle (⟨expiresAt, hlook, hlast⟩ | hpast)
  · by_cases hid : id' = id
    · exact .inl ⟨s.now + tombstoneTtl, by rw [hid]; exact AList.lookup_insert _, hle⟩
    · exact .inl ⟨expiresAt, (AList.lookup_insert_ne hid).trans hlook, hlast⟩
  · exact .inr hpast

theorem decays_erase (s : AppState) (id : String) :
    Decays s { s with transportSessions := s.transportSessions.erase id } := by
  refine ⟨rfl, fun _ _ _ h => h, ?_⟩
  intro id' hnone
  rw [FiniteMap.lookup_erase_ite]
  split
  next => rfl
  next => exact hnone

theorem decays_evictDeadSession (s : AppState) (id : String) : Decays s (s.evictDeadSession id) :=
  (decays_tombstone s id).trans (decays_erase _ id)

theorem decays_checkContainerLiveness (remote : Remote) (s : AppState) (containerName : String) :
    Decays s (s.checkContainerLiveness remote containerName).2 := by
  unfold checkContainerLiveness
  split
  next => exact Decays.refl s
  next =>
    split
    next => exact ⟨rfl, fun _ _ _ h => h, fun _ h => h⟩
    next => exact Decays.refl s

/-- A sweep drops what has expired by a clock reading of the past. -/
theorem decays_sweep (s : AppState) (age : Nat) :
    Decays s { s with
      tombstones := s.tombstones.retain fun _ expiresAt => s.now - age < expiresAt } := by
  refine ⟨rfl, ?_, fun _ h => h⟩
  rintro id' deadline _ (⟨expiresAt, hlook, hlast⟩ | hpast)
  · by_cases hlive : s.now - age < expiresAt
    · exact .inl ⟨expiresAt, (FiniteMap.lookup_retain_eq_some _ _ _ _).mpr
        ⟨hlook, decide_eq_true hlive⟩, hlast⟩
    · exact .inr (by show deadline ≤ s.now; omega)
  · exact .inr hpast

end AppState

-- ════════════════════════════════════════════════════════════════════════
-- Requests
-- ════════════════════════════════════════════════════════════════════════

/-- What a request leaves of the maps; where it evicts, its session is dead. -/
structure Attends (s : AppState) (outcome : Outcome) : Prop where
  decays : s.Decays outcome.state
  evicts : ∀ id transport, .evictDeadSession id transport ∈ outcome.effects →
    outcome.response = unknownSession ∧ outcome.state.transportSessions.lookup id = none ∧
      outcome.state.Covers id (s.now + tombstoneTtl)

theorem attends_refuse (s : AppState) (stream : PerStreamState) (status : Nat) (body : String) :
    Attends s (refuse s stream status body) where
  decays := AppState.Decays.refl s
  evicts _ _ hmem := absurd hmem List.not_mem_nil

theorem attends_evict {s s' : AppState} (stream : PerStreamState) (id : String)
    (transport : TransportState) (h : s.Decays s') :
    Attends s { refuse (s'.evictDeadSession id) stream 404 "unknown mcp-session-id" with
      effects := [.evictDeadSession id transport] } where
  decays := h.trans (AppState.decays_evictDeadSession s' id)
  evicts id' transport' hmem := by
    obtain ⟨rfl, rfl⟩ : id' = id ∧ transport' = transport := by simpa using hmem
    refine ⟨rfl, ?_, .inl ⟨s'.now + tombstoneTtl, ?_, ?_⟩⟩
    · exact AList.lookup_erase id' s'.transportSessions
    · exact AList.lookup_insert s'.tombstones
    · rw [h.now]

theorem decays_purge_then_check (remote : Remote) (s : AppState) (id containerName : String) :
    s.Decays ((s.purgeTombstone id).checkContainerLiveness remote containerName).2 :=
  (AppState.decays_purgeTombstone s id).trans
    (AppState.decays_checkContainerLiveness remote _ containerName)

theorem attends_routeGet (s : AppState) (stream : PerStreamState) :
    Attends s (routeGet s stream) := by
  have hpurge := AppState.decays_purgeTombstone s
  fun_cases routeGet s stream with
  | case1 => exact attends_refuse s stream _ _
  | case2 => exact attends_refuse s stream _ _
  | case3 id _ _ s₁ _ => exact ⟨hpurge id, fun _ _ hmem => absurd hmem List.not_mem_nil⟩
  | case4 id _ _ s₁ _ _ _ _ => exact ⟨hpurge id, fun _ _ hmem => absurd hmem List.not_mem_nil⟩
  | case5 id _ _ s₁ _ _ _ => exact ⟨hpurge id, by simp⟩

theorem attends_routeDelete (remote : Remote) (s : AppState) (stream : PerStreamState) :
    Attends s (routeDelete remote s stream) := by
  have hpurge := AppState.decays_purgeTombstone s
  have hcheck := decays_purge_then_check remote s
  fun_cases routeDelete remote s stream with
  | case1 => exact attends_refuse s stream _ _
  | case2 => exact attends_refuse s stream _ _
  | case3 id _ _ s₁ _ => exact ⟨hpurge id, fun _ _ hmem => absurd hmem List.not_mem_nil⟩
  | case4 id _ _ s₁ transport _ s₂ hdead =>
    refine attends_evict stream id transport ?_
    have := hcheck id transport.containerName
    rwa [show AppState.checkContainerLiveness remote _ _ = _ from hdead] at this
  | case5 id _ _ s₁ transport _ s₂ halive _ _ =>
    refine ⟨?_, fun _ _ hmem => absurd hmem List.not_mem_nil⟩
    have := hcheck id transport.containerName
    rwa [show AppState.checkContainerLiveness remote _ _ = _ from halive] at this
  | case6 id _ _ s₁ transport _ s₂ halive _ =>
    refine ⟨?_, fun _ _ hmem => absurd hmem List.not_mem_nil⟩
    have := hcheck id transport.containerName
    rwa [show AppState.checkContainerLiveness remote _ _ = _ from halive] at this

theorem attends_routePost (remote : Remote) (s : AppState) (stream : PerStreamState)
    (id : String) : Attends s (routePost remote s stream id) := by
  have hpurge := AppState.decays_purgeTombstone s
  have hcheck := decays_purge_then_check remote s id
  fun_cases routePost remote s stream id with
  | case1 => exact attends_refuse s stream _ _
  | case2 _ s₁ _ => exact ⟨hpurge id, fun _ _ hmem => absurd hmem List.not_mem_nil⟩
  | case3 _ s₁ transport _ s₂ hdead =>
    refine attends_evict stream id transport ?_
    have := hcheck transport.containerName
    rwa [show AppState.checkContainerLiveness remote _ _ = _ from hdead] at this
  | case4 _ s₁ transport _ s₂ halive _ _ =>
    refine ⟨?_, fun _ _ hmem => absurd hmem List.not_mem_nil⟩
    have := hcheck transport.containerName
    rwa [show AppState.checkContainerLiveness remote _ _ = _ from halive] at this
  | case5 _ s₁ transport _ s₂ halive _ =>
    refine ⟨?_, by simp⟩
    have := hcheck transport.containerName
    rwa [show AppState.checkContainerLiveness remote _ _ = _ from halive] at this

/-- A spawn evicts no session. -/
theorem not_evict_of_spawn {remote : Remote} {spawn : Spawn} {secrets : List (String × String)}
    {result : Except LauncherError PendingInit} {effects : List Effect}
    (h : spawnNewContainer remote spawn secrets = (result, effects)) (id : String)
    (transport : TransportState) : .evictDeadSession id transport ∉ effects := by
  have hnot : .evictDeadSession id transport ∉ (spawnNewContainer remote spawn secrets).2 := by
    fun_cases spawnNewContainer remote spawn secrets <;> simp
  rwa [h] at hnot

theorem attends_routeSpawn (remote : Remote) (s : AppState) (stream : PerStreamState) :
    Attends s (routeSpawn remote s stream) := by
  fun_cases routeSpawn remote s stream
  case case8 effects hspawn outcome =>
    exact ⟨AppState.Decays.refl s,
      fun id transport hmem => absurd hmem (not_evict_of_spawn hspawn id transport)⟩
  case case9 effects hspawn =>
    exact ⟨⟨rfl, fun _ _ _ h => h, fun _ h => h⟩,
      fun id transport hmem => absurd hmem (not_evict_of_spawn hspawn id transport)⟩
  all_goals exact attends_refuse s stream _ _

theorem attends_handleRequestHeaders (remote : Remote) (s : AppState) (stream : PerStreamState)
    (headers : List HeaderValue) :
    Attends s (handleRequestHeaders remote s stream headers) := by
  unfold handleRequestHeaders
  simp only
  split
  next => exact attends_refuse s _ _ _
  next =>
    split
    next => exact attends_refuse s _ _ _
    next =>
      unfold routeMethod
      split
      next => exact attends_routeGet s _
      next =>
        split
        next => exact attends_routeDelete remote s _
        next =>
          split
          next =>
            split
            next id _ => exact attends_routePost remote s _ id
            next => exact attends_routeSpawn remote s _
          next => exact ⟨AppState.Decays.refl s, fun _ _ hmem => absurd hmem List.not_mem_nil⟩

/-- Nothing serves the id. -/
def AppState.Dead (s : AppState) (id : String) : Prop :=
  s.isTombstoned id = true ∨ s.transportSessions.lookup id = none

theorem routeGet_dead {s : AppState} {stream : PerStreamState} {id : String} (hdead : s.Dead id)
    (hid : stream.mcpSessionId = some id) : (routeGet s stream).response = unknownSession := by
  unfold routeGet
  rw [hid]
  simp only
  split
  next => rfl
  next halive =>
    have hnone := hdead.resolve_left halive
    simp only [AppState.transportSessions_purgeTombstone, hnone]
    rfl

theorem routeDelete_dead (remote : Remote) {s : AppState} {stream : PerStreamState} {id : String}
    (hdead : s.Dead id) (hid : stream.mcpSessionId = some id) :
    (routeDelete remote s stream).response = unknownSession := by
  unfold routeDelete
  rw [hid]
  simp only
  split
  next => rfl
  next halive =>
    have hnone := hdead.resolve_left halive
    simp only [AppState.transportSessions_purgeTombstone, hnone]
    rfl

theorem routePost_dead (remote : Remote) {s : AppState} (stream : PerStreamState) {id : String}
    (hdead : s.Dead id) : (routePost remote s stream id).response = unknownSession := by
  unfold routePost
  split
  next => rfl
  next halive =>
    have hnone := hdead.resolve_left halive
    simp only [AppState.transportSessions_purgeTombstone, hnone]
    rfl

theorem deadAnswer_unknownSession (stream : PerStreamState) :
    DeadAnswer stream unknownSession := ⟨⟨_, _, rfl⟩, fun _ => rfl⟩

/-- A dead id is answered at the proxy. -/
theorem handleRequestHeaders_dead (remote : Remote) {s : AppState} {stream : PerStreamState}
    {headers : List HeaderValue} {id : String} (hnames : (stream.observe headers).Names id)
    (hdead : s.Dead id) :
    DeadAnswer (stream.observe headers)
      (handleRequestHeaders remote s stream headers).response := by
  obtain ⟨hid, hmethod⟩ := hnames
  have hempty : isSlug "" = false := by decide
  unfold handleRequestHeaders
  simp only
  by_cases htenant : (stream.observe headers).trustedTenant = ""
  · rw [if_pos htenant]
    refine ⟨⟨_, _, rfl⟩, fun hslug => ?_⟩
    rw [htenant, hempty] at hslug
    cases hslug
  rw [if_neg htenant]
  by_cases hslug : isSlug (stream.observe headers).trustedTenant = false
  · rw [if_pos hslug]
    refine ⟨⟨_, _, rfl⟩, fun htrue => ?_⟩
    rw [hslug] at htrue
    cases htrue
  rw [if_neg hslug]
  suffices h : (routeMethod remote s (stream.observe headers)).response = unknownSession by
    rw [h]
    exact deadAnswer_unknownSession _
  unfold routeMethod
  rcases hmethod with hget | hpost | hdelete
  · rw [if_pos hget]
    exact routeGet_dead hdead hid
  · have hnotGet : (stream.observe headers).method ≠ "GET" := by rw [hpost]; decide
    have hnotDelete : (stream.observe headers).method ≠ "DELETE" := by rw [hpost]; decide
    rw [if_neg hnotGet, if_neg hnotDelete, if_pos hpost, hid]
    exact routePost_dead remote _ hdead
  · have hnotGet : (stream.observe headers).method ≠ "GET" := by rw [hdelete]; decide
    rw [if_neg hnotGet, if_pos hdelete]
    exact routeDelete_dead remote hdead hid

-- ════════════════════════════════════════════════════════════════════════
-- What the log says
-- ════════════════════════════════════════════════════════════════════════

/-- By the log, the entry of the id has been removed and not installed since. -/
def Gone (id : String) : List Event → Prop
  | [] => False
  | .removed id' :: older => id' = id ∨ Gone id older
  | .installed id' :: older => id' ≠ id ∧ Gone id older
  | .buried _ _ :: older | .completed _ _ :: older | .answered _ _ _ :: older => Gone id older

theorem gone_of_removed {id : String} (older : List Event) {between : List Event}
    (hbetween : .installed id ∉ between) : Gone id (between ++ .removed id :: older) := by
  induction between with
  | nil => exact .inl rfl
  | cons event between ih =>
    have hrest := ih fun hmem => hbetween (List.mem_cons_of_mem _ hmem)
    cases event with
    | removed id' => exact .inr hrest
    | installed id' =>
      refine ⟨fun heq => hbetween ?_, hrest⟩
      rw [heq]
      exact List.mem_cons_self
    | buried _ _ => exact hrest
    | completed _ _ => exact hrest
    | answered _ _ _ => exact hrest

/-- By the log, the id is dead at the time. -/
def DeadAt (time : Nat) (id : String) (log : List Event) : Prop :=
  (∃ writtenAt, .buried id writtenAt ∈ log ∧ time < writtenAt + tombstoneTtl) ∨ Gone id log

/-- Every answer of the log to a request for an id that was dead. -/
def Answered : List Event → Prop
  | [] => True
  | .answered time stream response :: older =>
    (∀ id, stream.Names id → DeadAt time id older → DeadAnswer stream response) ∧ Answered older
  | .removed _ :: older | .installed _ :: older | .buried _ _ :: older | .completed _ _ :: older =>
    Answered older

theorem Answered.answer {newer older : List Event} {time : Nat} {stream : PerStreamState}
    {response : ProcessingResponse}
    (h : Answered (newer ++ .answered time stream response :: older)) {id : String}
    (hnames : stream.Names id) (hdead : DeadAt time id older) : DeadAnswer stream response := by
  induction newer with
  | nil => exact h.1 id hnames hdead
  | cons event newer ih =>
    cases event with
    | answered _ _ _ => exact ih h.2
    | removed _ => exact ih h
    | installed _ => exact ih h
    | buried _ _ => exact ih h
    | completed _ _ => exact ih h

theorem Answered.staysDead {g : Graveyard} (h : Answered g.log) : StaysDead g where
  buried newer older time stream response id writtenAt hlog hburied hnames hlt := by
    rw [hlog] at h
    exact h.answer hnames (.inl ⟨writtenAt, hburied, hlt⟩)
  removed newer between older time stream response id hlog hbetween hnames := by
    rw [hlog] at h
    exact h.answer hnames (.inr (gone_of_removed older hbetween))

-- ════════════════════════════════════════════════════════════════════════
-- The invariant
-- ════════════════════════════════════════════════════════════════════════

/-- What the log says of the maps. -/
structure LogSound (app : AppState) (log : List Event) : Prop where
  covers : ∀ id writtenAt, .buried id writtenAt ∈ log →
    writtenAt ≤ app.now ∧ app.Covers id (writtenAt + tombstoneTtl)
  gone : ∀ id, Gone id log → app.transportSessions.lookup id = none

structure GraveInv (g : Graveyard) : Prop where
  sound : LogSound g.app g.log
  answered : Answered g.log

namespace LogSound

variable {app app' : AppState} {log : List Event}

/-- A sound log finds every id dead that it calls dead. -/
theorem dead (h : LogSound app log) {id : String} (hdead : DeadAt app.now id log) :
    app.Dead id := by
  rcases hdead with ⟨writtenAt, hburied, hlt⟩ | hgone
  · exact .inl ((h.covers id writtenAt hburied).2.isTombstoned hlt)
  · exact .inr (h.gone id hgone)

theorem decays (h : LogSound app log) (hdecays : app.Decays app') : LogSound app' log where
  covers id writtenAt hburied := by
    obtain ⟨hle, hcovers⟩ := h.covers id writtenAt hburied
    rw [hdecays.now]
    exact ⟨hle, hdecays.covers id _ (by omega) hcovers⟩
  gone id hgone := hdecays.gone id (h.gone id hgone)

theorem elapse (h : LogSound app log) (seconds : Nat) :
    LogSound { app with now := app.now + seconds } log where
  covers id writtenAt hburied := by
    obtain ⟨hle, hcovers⟩ := h.covers id writtenAt hburied
    refine ⟨hle.trans (Nat.le_add_right _ _), ?_⟩
    rcases hcovers with hlook | hpast
    · exact .inl hlook
    · exact .inr (hpast.trans (Nat.le_add_right _ _))
  gone := h.gone

theorem bury (h : LogSound app log) {id : String} (hcovers : app.Covers id (app.now + tombstoneTtl)) :
    LogSound app (.buried id app.now :: log) where
  covers id' writtenAt hburied := by
    rcases List.mem_cons.mp hburied with heq | hburied
    · obtain ⟨rfl, rfl⟩ : id' = id ∧ writtenAt = app.now := by simpa using heq
      exact ⟨le_refl _, hcovers⟩
    · exact h.covers id' writtenAt hburied
  gone := h.gone

theorem remove (h : LogSound app log) {id : String}
    (hnone : app.transportSessions.lookup id = none) : LogSound app (.removed id :: log) where
  covers id' writtenAt hburied := by
    rcases List.mem_cons.mp hburied with heq | hburied
    · cases heq
    · exact h.covers id' writtenAt hburied
  gone id' hgone := by
    rcases hgone with heq | hgone
    · rw [← heq]
      exact hnone
    · exact h.gone id' hgone

theorem answer (h : LogSound app log) (time : Nat) (stream : PerStreamState)
    (response : ProcessingResponse) : LogSound app (.answered time stream response :: log) where
  covers id writtenAt hburied := by
    rcases List.mem_cons.mp hburied with heq | hburied
    · cases heq
    · exact h.covers id writtenAt hburied
  gone := h.gone

theorem complete (h : LogSound app log) (id : String) (time : Nat) :
    LogSound app (.completed id time :: log) where
  covers id writtenAt hburied := by
    rcases List.mem_cons.mp hburied with heq | hburied
    · cases heq
    · exact h.covers id writtenAt hburied
  gone := h.gone

theorem install (h : LogSound app log) (id : String) (transport : TransportState) :
    LogSound { app with transportSessions := app.transportSessions.insert id transport }
      (.installed id :: log) where
  covers id' writtenAt hburied := by
    rcases List.mem_cons.mp hburied with heq | hburied
    · cases heq
    · exact h.covers id' writtenAt hburied
  gone id' hgone := (AList.lookup_insert_ne hgone.1.symm).trans (h.gone id' hgone.2)

end LogSound

-- ════════════════════════════════════════════════════════════════════════
-- Every step keeps it
-- ════════════════════════════════════════════════════════════════════════

theorem answered_evictions {log : List Event} (h : Answered log) (now : Nat)
    (effects : List Effect) : Answered (effects.flatMap (Graveyard.evictions now) ++ log) := by
  induction effects with
  | nil => exact h
  | cons effect effects ih =>
    rw [List.flatMap_cons, List.append_assoc]
    cases effect <;> exact ih

/-- The evictions of a request are sound in the state it leaves. -/
theorem logSound_evictions {app : AppState} {log : List Event} (h : LogSound app log)
    {effects : List Effect}
    (hevicts : ∀ id transport, .evictDeadSession id transport ∈ effects →
      app.transportSessions.lookup id = none ∧ app.Covers id (app.now + tombstoneTtl)) :
    LogSound app (effects.flatMap (Graveyard.evictions app.now) ++ log) := by
  induction effects with
  | nil => exact h
  | cons effect effects ih =>
    have hrest := ih fun id transport hmem => hevicts id transport (List.mem_cons_of_mem _ hmem)
    rw [List.flatMap_cons, List.append_assoc]
    cases effect with
    | evictDeadSession id transport =>
      obtain ⟨hnone, hcovers⟩ := hevicts id transport List.mem_cons_self
      exact (hrest.bury hcovers).remove hnone
    | livenessBump _ => exact hrest
    | teardownUnannounced _ => exact hrest
    | recordSpawn _ _ _ => exact hrest

/-- A request that has evicted is answered as for a dead id; another finds the
    maps as the log before it has them. -/
theorem deadAnswer_request {app : AppState} {log : List Event} (h : LogSound app log)
    (remote : Remote) {stream : PerStreamState} {headers : List HeaderValue} {id : String}
    (hnames : (stream.observe headers).Names id)
    (hdead : DeadAt app.now id ((handleRequestHeaders remote app stream headers).effects.flatMap
      (Graveyard.evictions app.now) ++ log)) :
    DeadAnswer (stream.observe headers)
      (handleRequestHeaders remote app stream headers).response := by
  have hattends := attends_handleRequestHeaders remote app stream headers
  generalize hout : handleRequestHeaders remote app stream headers = outcome at hattends hdead
  by_cases hevicted : ∃ id transport, .evictDeadSession id transport ∈ outcome.effects
  · obtain ⟨id', transport, hmem⟩ := hevicted
    rw [(hattends.evicts id' transport hmem).1]
    exact deadAnswer_unknownSession _
  · have hnone : outcome.effects.flatMap (Graveyard.evictions app.now) = [] := by
      refine List.flatMap_eq_nil_iff.mpr fun effect hmem => ?_
      cases effect with
      | evictDeadSession id' transport => exact absurd ⟨id', transport, hmem⟩ hevicted
      | livenessBump _ => rfl
      | teardownUnannounced _ => rfl
      | recordSpawn _ _ _ => rfl
    rw [hnone, List.nil_append] at hdead
    rw [← hout]
    exact handleRequestHeaders_dead remote hnames (h.dead hdead)

theorem graveInv_request {g : Graveyard} (h : GraveInv g) (remote : Remote)
    (stream : PerStreamState) (headers : List HeaderValue) :
    GraveInv { g with
      app := (handleRequestHeaders remote g.app stream headers).state
      log := Graveyard.answer g.app.now (stream.observe headers)
        (handleRequestHeaders remote g.app stream headers) ++ g.log } := by
  have hattends := attends_handleRequestHeaders remote g.app stream headers
  have hnow := hattends.decays.now
  constructor
  · refine LogSound.answer ?_ _ _ _
    rw [← hnow]
    refine logSound_evictions (h.sound.decays hattends.decays) fun id transport hmem => ?_
    obtain ⟨-, hnone, hcovers⟩ := hattends.evicts id transport hmem
    rw [hnow]
    exact ⟨hnone, hcovers⟩
  · exact ⟨fun id hnames hdead => deadAnswer_request h.sound remote hnames hdead,
      answered_evictions h.answered _ _⟩

/-- One operation of a path keeps the log sound. -/
theorem logSound_perform {app : AppState} {log : List Event} (h : LogSound app log) (op : Op)
    (t : Target) : LogSound (Graveyard.perform app op t).1
      ((Graveyard.perform app op t).2 ++ log) := by
  have hremoved := (h.decays (AppState.decays_erase app t.mcpSessionId)).remove
    (AList.lookup_erase t.mcpSessionId app.transportSessions)
  cases op with
  | tombstone =>
    exact (h.decays (AppState.decays_tombstone app t.mcpSessionId)).bury
      (.inl ⟨_, AList.lookup_insert app.tombstones, le_refl _⟩)
  | removeEntry => exact hremoved
  | evictEntry => exact hremoved
  | exitEntry => exact hremoved
  | inspect => exact h
  | callTeardown => exact h
  | recordReap => exact h
  | forkTeardown => exact h
  | forkDelete => exact h
  | callDelete => exact h

theorem answered_perform {log : List Event} (h : Answered log) (app : AppState) (op : Op)
    (t : Target) : Answered ((Graveyard.perform app op t).2 ++ log) := by
  cases op <;> exact h

theorem graveInv_next {g g' : Graveyard} {a : GraveAction} (hnext : g.next a = some g')
    (h : GraveInv g) : GraveInv g' := by
  cases a with
  | elapse seconds =>
    cases hnext
    exact ⟨h.sound.elapse seconds, h.answered⟩
  | request remote stream headers =>
    cases hnext
    exact graveInv_request h remote stream headers
  | install id transport =>
    cases hnext
    exact ⟨h.sound.install id transport, h.answered⟩
  | start k path =>
    simp only [Graveyard.next] at hnext
    split at hnext
    next => cases hnext
    next =>
      cases hnext
      exact ⟨h.sound, h.answered⟩
  | step k =>
    simp only [Graveyard.next] at hnext
    obtain ⟨rest, -, hnext⟩ := Option.bind_eq_some_iff.mp hnext
    split at hnext
    next op t rest =>
      have hsound := logSound_perform h.sound op t
      have hanswered := answered_perform h.answered g.app op t
      cases hnext
      cases hrest : rest.isEmpty with
      | true => exact ⟨hsound.complete _ _, hanswered⟩
      | false => exact ⟨hsound, hanswered⟩
    next => cases hnext
  | sweep age =>
    cases hnext
    exact ⟨h.sound.decays (AppState.decays_sweep g.app age), h.answered⟩

/-- **A torn-down session id stays dead**: in every run, a request for an id that
    a path has buried less than `TOMBSTONE_TTL` ago is never routed, nor is one
    for an id whose entry a path has removed and that is not installed since. -/
theorem torn_down_stays_dead {g : Graveyard} (hreach : graveyard.Reachable g) : StaysDead g := by
  have hinv : GraveInv g := by
    refine hreach.invariant ?_ fun t a t' ht _ hnext => graveInv_next hnext ht
    rintro t ⟨-, -, hlog⟩
    refine ⟨⟨?_, ?_⟩, ?_⟩
    · intro id writtenAt hmem
      rw [hlog] at hmem
      cases hmem
    · intro id hgone
      rw [hlog] at hgone
      exact hgone.elim
    · rw [hlog]
      trivial
  exact hinv.answered.staysDead

-- ════════════════════════════════════════════════════════════════════════
-- Sample runs
-- ════════════════════════════════════════════════════════════════════════

namespace Sample

/-- The broker with the sample session. -/
def quietGraveyard : Graveyard := ⟨state, ∅, []⟩

def getSample : GraveAction := .request remote stream (request "GET" [("mcp-session-id", "s-1")])

/-- The container exits, and a client asks for the session. -/
def exitRun : List GraveAction :=
  [.start 0 (.containerExit (transport.target "s-1")), .step 0, .step 0, .step 0, .step 0, .step 0,
    .elapse 299, .sweep 0, getSample]

/-- The teardown records the reap ten seconds after it has written the tombstone,
    and the same id is installed again. -/
def slowTeardownRun : List GraveAction :=
  [.start 0 (.teardown (transport.target "s-1")), .step 0, .step 0, .step 0, .elapse 10, .step 0,
    .install "s-1" transport, .elapse 295, getSample]

/-- The container exits, and a request without a tenant names the session. -/
def strayRun : List GraveAction :=
  [.start 0 (.containerExit (transport.target "s-1")), .step 0, .step 0,
    .request remote stream [⟨":method", "GET", []⟩, ⟨"mcp-session-id", "s-1", []⟩]]

end Sample

/-- The last event of the log answers a GET for the sample session. -/
def Graveyard.answersSample (g : Graveyard) (check : Nat → ProcessingResponse → List Event → Bool) :
    Bool :=
  match g.log with
  | .answered time stream response :: older =>
    stream.mcpSessionId = some "s-1" && stream.method = "GET" && check time response older
  | _ => false

theorem Graveyard.exists_answer {g : Graveyard}
    {check : Nat → ProcessingResponse → List Event → Bool} (h : g.answersSample check = true) :
    ∃ time stream response older, g.log = .answered time stream response :: older ∧
      stream.Names "s-1" ∧ check time response older = true := by
  unfold answersSample at h
  split at h
  next time stream response older hlog =>
    simp only [Bool.and_eq_true, decide_eq_true_eq] at h
    exact ⟨time, stream, response, older, hlog, ⟨h.1.1, .inl h.1.2⟩, h.2⟩
  next => cases h

theorem torn_down_stays_dead_exit_run :
    ∃ g, StaysDead g ∧
      g.answersSample (fun time response _ => time = 299 && response = unknownSession) = true := by
  have hexec : (graveyard.execUnder (fun _ _ => True) Sample.quietGraveyard Sample.exitRun).any
      (·.answersSample fun time response _ => time = 299 && response = unknownSession) = true := by
    decide +kernel
  obtain ⟨g, hrun, hanswered⟩ := Machine.exists_run_of_execUnder _ hexec
  exact ⟨g, torn_down_stays_dead ⟨_, ⟨rfl, rfl, rfl⟩, hrun⟩, hanswered⟩

theorem DeadSince.answer {g : Graveyard} {event : String → Nat → Event}
    {A : PerStreamState → ProcessingResponse → Prop} (h : DeadSince event A g) {t : Nat}
    {check : Nat → ProcessingResponse → List Event → Bool}
    (hanswered : g.answersSample check = true)
    (hcheck : ∀ time response older, check time response older = true →
      event "s-1" t ∈ older ∧ time < t + tombstoneTtl) :
    ∃ time stream response older, check time response older = true ∧ A stream response := by
  obtain ⟨time, stream, response, older, hlog, hnames, hpass⟩ := Graveyard.exists_answer hanswered
  obtain ⟨hevent, hlt⟩ := hcheck time response older hpass
  exact ⟨time, stream, response, older, hpass, h [] older time stream response "s-1" t hlog hevent
    hnames hlt⟩

/-- The life of a tombstone does not count from the end of the path, for any
    immediate answer: 295 seconds after that, the id installed again is routed.
    And while it lasts, a request without a tenant gets 401. -/
theorem ttl_counts_from_tombstone :
    (¬ ∀ g, graveyard.Reachable g →
      DeadSince .completed (fun _ response => response = unknownSession) g) ∧
    (¬ ∀ g, graveyard.Reachable g →
      DeadSince .completed (fun _ response => response.Immediate) g) ∧
    ¬ ∀ g, graveyard.Reachable g →
      DeadSince .buried (fun _ response => response = unknownSession) g := by
  have hslow : (graveyard.execUnder (fun _ _ => True) Sample.quietGraveyard
      Sample.slowTeardownRun).any (·.answersSample fun time response older =>
        (time = 305 && older.contains (.completed "s-1" 10)) &&
          !response matches .immediateResponse _ _) = true := by
    decide +kernel
  have hstray : (graveyard.execUnder (fun _ _ => True) Sample.quietGraveyard
      Sample.strayRun).any (·.answersSample fun time response older =>
        (time = 0 && older.contains (.buried "s-1" 0)) && response ≠ unknownSession) = true := by
    decide +kernel
  obtain ⟨g, hrun, hanswered⟩ := Machine.exists_run_of_execUnder _ hslow
  obtain ⟨g', hrun', hanswered'⟩ := Machine.exists_run_of_execUnder _ hstray
  have hreach : graveyard.Reachable g := ⟨_, ⟨rfl, rfl, rfl⟩, hrun⟩
  have hreach' : graveyard.Reachable g' := ⟨_, ⟨rfl, rfl, rfl⟩, hrun'⟩
  have himmediate : ¬ DeadSince .completed (fun _ response => response.Immediate) g := by
    intro hdead
    obtain ⟨time, stream, response, older, hcheck, status, body, rfl⟩ :=
      hdead.answer hanswered fun time response older h => by
        simp only [Bool.and_eq_true, decide_eq_true_eq, List.contains_iff_mem] at h
        exact ⟨h.1.2, by rw [h.1.1]; decide⟩
    simp at hcheck
  refine ⟨fun hclaim => himmediate ?_, fun hclaim => himmediate (hclaim g hreach), fun hclaim => ?_⟩
  · intro newer older time stream response id t hlog hevent hnames hlt
    exact ⟨404, _, hclaim g hreach newer older time stream response id t hlog hevent hnames hlt⟩
  · obtain ⟨time, stream, response, older, hcheck, hunknown⟩ :=
      (hclaim g' hreach').answer hanswered' fun time response older h => by
        simp only [Bool.and_eq_true, decide_eq_true_eq, List.contains_iff_mem] at h
        exact ⟨h.1.2, by rw [h.1.1]; decide⟩
    simp [hunknown] at hcheck

end Botwork.SessionBroker
