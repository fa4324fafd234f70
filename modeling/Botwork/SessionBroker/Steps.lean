import Botwork.SessionBroker.World

/-!
# What one step can change

One lemma for each part of the world: which steps change it, and how.  The
invariants of the later modules are proved from these lemmas and never unfold
`World.next`.

## Main results

- `next_transport`, `next_pending`, `next_tasks` — the broker's own tables
- `next_records`, `next_deletes`, `next_docker`, `next_sagas` — the other parties
- `HistoryLe` — the history only grows
-/

namespace Botwork.SessionBroker

open Botwork.Foundations Botwork.ControlPlane

variable {w w' : World} {a : Action}

-- ════════════════════════════════════════════════════════════════════════
-- Helpers
-- ════════════════════════════════════════════════════════════════════════

/-- The operations that remove a transport entry. -/
def Op.removes : Op → Bool
  | .removeEntry | .evictEntry | .exitEntry => true
  | _ => false

theorem World.atStage_eq_some {i : Nat} {stage : SagaStage} {c : String} {st : Stream}
    {saga : Saga} (h : w.atStage i stage = some (c, st, saga)) :
    w.streams.lookup i = some st ∧ st.pc = .spawning c ∧ w.sagas.lookup c = some saga ∧
      saga.stage = stage := by
  unfold World.atStage at h
  split at h
  next c' td hst =>
    split at h
    next saga' hsaga =>
      split at h
      next hstage => cases h; exact ⟨hst, rfl, hsaga, hstage⟩
      next => cases h
    next => cases h
  next => cases h

theorem World.installation_eq_some {i : Nat} {mcpSessionId : Option String} {id : String}
    {p : PendingInit} (h : w.installation i mcpSessionId = some (id, p)) :
    mcpSessionId = some id ∧ w.pendingInit.lookup i = some p := by
  unfold World.installation at h
  split at h
  next id' p' hp => cases h; exact ⟨rfl, hp⟩
  next => cases h

theorem World.runTask_eq_some {k fork : Nat} (h : w.runTask k fork = some w') :
    ∃ op t rest, w.tasks.lookup k = some ((op, t) :: rest) ∧ w.fresh fork = true ∧ fork ≠ k ∧
      w' = (w.keepTask k (w.remaining op t rest)).perform fork op t := by
  unfold World.runTask at h
  split at h
  next op t rest htask =>
    split at h
    next hfork => cases h; exact ⟨op, t, rest, htask, hfork.1, hfork.2, rfl⟩
    next => cases h
  next => cases h

theorem World.remaining_eq (w : World) (op : Op) (t : Target) (rest : Program) :
    w.remaining op t rest = [] ∨ w.remaining op t rest = rest := by
  unfold World.remaining
  split
  next => exact Or.inl rfl
  next => exact Or.inr rfl

/-- A step of a task, with the operation it runs. -/
theorem next_task {k fork : Nat} {op : Op} {t : Target} {rest : Program}
    (h : w.next (.task k fork) = some w') (htask : w.tasks.lookup k = some ((op, t) :: rest)) :
    w.fresh fork = true ∧ fork ≠ k ∧
      w' = (w.keepTask k (w.remaining op t rest)).perform fork op t := by
  obtain ⟨op', t', rest', htask', hfresh, hne, heq⟩ := World.runTask_eq_some h
  rw [htask] at htask'
  cases htask'
  exact ⟨hfresh, hne, heq⟩

theorem next_observe {i : Nat} (h : w.next (.observe i) = some w') :
    ∃ id td, w.streams.lookup i = some ⟨.observing id, td⟩ ∧
      w' = w.observe i ⟨.observing id, td⟩ id := by
  simp only [World.next] at h
  split at h
  next id td hst => exact ⟨id, td, hst, (Option.some.inj h).symm⟩
  next => cases h

-- ════════════════════════════════════════════════════════════════════════
-- The broker's tables
-- ════════════════════════════════════════════════════════════════════════

/-- Transport entries appear at an install and go by a removing operation. -/
theorem next_transport (h : w.next a = some w') :
    w'.transportSessions = w.transportSessions ∨
      (∃ i td id p, a = .observe i ∧ w.streams.lookup i = some ⟨.observing (some id), td⟩ ∧
        w.pendingInit.lookup i = some p ∧
        w'.transportSessions = w.transportSessions.insert id p.transport) ∨
      ∃ k fork op t rest, a = .task k fork ∧ w.tasks.lookup k = some ((op, t) :: rest) ∧
        op.removes = true ∧ w'.transportSessions = w.transportSessions.erase t.mcpSessionId := by
  revert h
  fun_cases World.next w a <;> intro h
  all_goals try cases h
  all_goals try exact Or.inl rfl
  · -- observe
    rename_i i id td hst
    unfold World.observe
    simp only
    split
    next => exact Or.inl rfl
    next id' p hins =>
      obtain ⟨rfl, hp⟩ := World.installation_eq_some hins
      exact Or.inr (Or.inl ⟨i, td, id', p, rfl, hst, hp, rfl⟩)
  · -- task
    rename_i k fork
    obtain ⟨op, t, rest, htask, -, -, rfl⟩ := World.runTask_eq_some h
    cases op
    case removeEntry | evictEntry | exitEntry =>
      exact Or.inr (Or.inr ⟨k, fork, _, t, rest, rfl, htask, rfl, rfl⟩)
    all_goals exact Or.inl rfl

/-- Pending containers appear when a spawn returns `Ok` and go when their stream
    ends or its response arrives. -/
theorem next_pending (h : w.next a = some w') :
    w'.pendingInit = w.pendingInit ∨
      (∃ i c st saga, a = .spawnOk i ∧ w.atStage i .returning = some (c, st, saga) ∧
        w'.pendingInit = w.pendingInit.insert i saga.pending) ∨
      ∃ i, (a = .closeStream i ∨ a = .observe i) ∧ w'.pendingInit = w.pendingInit.erase i := by
  revert h
  fun_cases World.next w a <;> intro h
  all_goals try cases h
  all_goals try exact Or.inl rfl
  · -- closeStream
    exact Or.inr (Or.inr ⟨_, Or.inl rfl, rfl⟩)
  · -- spawnOk
    rename_i hat
    exact Or.inr (Or.inl ⟨_, _, _, _, rfl, hat, rfl⟩)
  · -- observe
    refine Or.inr (Or.inr ⟨_, Or.inr rfl, ?_⟩)
    unfold World.observe
    simp only
    split <;> rfl
  · -- task
    obtain ⟨op, t, rest, -, -, -, rfl⟩ := World.runTask_eq_some h
    cases op <;> exact Or.inl rfl

/-- A stream stays open until it is closed. -/
theorem next_stream_isSome (h : w.next a = some w') {i : Nat}
    (hi : (w.streams.lookup i).isSome = true) (hclose : a ≠ .closeStream i) :
    (w'.streams.lookup i).isSome = true := by
  have hset : ∀ (j : Nat) (st : Stream), ((w.streams.insert j st).lookup i).isSome = true := by
    intro j st
    rw [FiniteMap.lookup_insert_ite]
    split
    next => rfl
    next => exact hi
  revert h
  fun_cases World.next w a <;> intro h
  all_goals try cases h
  all_goals try exact hi
  all_goals try exact hset _ _
  · -- closeStream
    rename_i j td hst
    have hne : i ≠ j := fun heq => hclose (heq ▸ rfl)
    simpa only [FiniteMap.lookup_erase_ite, if_neg hne] using hi
  · -- observe
    unfold World.observe
    simp only
    split <;> exact hset _ _
  · -- task
    obtain ⟨op, t, rest, -, -, -, rfl⟩ := World.runTask_eq_some h
    cases op <;> exact hi

-- ════════════════════════════════════════════════════════════════════════
-- Sagas
-- ════════════════════════════════════════════════════════════════════════

/-- The steps that move the saga of container `c`, with the saga they leave. -/
inductive SagaMove (w : World) (c : String) : Action → Saga → Prop
  | spawn {i : Nat} {s : Spawn} {ip : Ipv4Addr} (hfresh : w.sagas.lookup c = none)
      (htoken : isToken s.stagingToken = true) (hname : s.containerName = c) :
      SagaMove w c (.spawn i s) ⟨s, .launching, .inFlight, .unsent, ip⟩
  | launchOk {i : Nat} {st : Stream} {saga : Saga}
      (hat : w.atStage i .launching = some (c, st, saga)) (hok : saga.launch = .succeeded) :
      SagaMove w c (.launchOk i) { saga with stage := .probing }
  | launchErr {i : Nat} {st : Stream} {saga : Saga}
      (hat : w.atStage i .launching = some (c, st, saga)) :
      SagaMove w c (.launchErr i) { saga with stage := .refused }
  | probeOk {i : Nat} {st : Stream} {saga : Saga}
      (hat : w.atStage i .probing = some (c, st, saga)) :
      SagaMove w c (.probeOk i) { saga with stage := .posting, post := .inFlight }
  | probeErr {i k : Nat} {st : Stream} {saga : Saga}
      (hat : w.atStage i .probing = some (c, st, saga)) :
      SagaMove w c (.probeErr i k) { saga with stage := .refused }
  | postOk {i : Nat} {st : Stream} {saga : Saga}
      (hat : w.atStage i .posting = some (c, st, saga)) (hok : saga.post = .succeeded) :
      SagaMove w c (.postOk i) { saga with stage := .recording }
  | postErr {i k : Nat} {st : Stream} {saga : Saga}
      (hat : w.atStage i .posting = some (c, st, saga)) :
      SagaMove w c (.postErr i k) { saga with stage := .refused }
  | recordSpawn {i : Nat} {st : Stream} {saga : Saga}
      (hat : w.atStage i .recording = some (c, st, saga)) :
      SagaMove w c (.recordSpawn i) { saga with stage := .returning }
  | spawnOk {i : Nat} {st : Stream} {saga : Saga}
      (hat : w.atStage i .returning = some (c, st, saga)) :
      SagaMove w c (.spawnOk i) { saga with stage := .returned }
  | runLaunch {ip : Ipv4Addr} {saga : Saga} (hsaga : w.sagas.lookup c = some saga)
      (hlaunch : saga.launch = .inFlight) :
      SagaMove w c (.runLaunch c ip) { saga with launch := .succeeded, ip := ip }
  | failLaunch {left : Option Container} {saga : Saga} (hsaga : w.sagas.lookup c = some saga)
      (hlaunch : saga.launch = .inFlight) :
      SagaMove w c (.failLaunch c left) { saga with launch := .failed }
  | runPost {saga : Saga} (hsaga : w.sagas.lookup c = some saga) (hpost : saga.post = .inFlight) :
      SagaMove w c (.runPost c) { saga with post := .succeeded }
  | failPost {saga : Saga} (hsaga : w.sagas.lookup c = some saga) (hpost : saga.post = .inFlight) :
      SagaMove w c (.failPost c) { saga with post := .failed }

/-- **Saga inversion**: a step leaves the saga of `c` alone or moves it. -/
theorem next_saga (h : w.next a = some w') (c : String) :
    w'.sagas.lookup c = w.sagas.lookup c ∨
      ∃ saga, w'.sagas.lookup c = some saga ∧ SagaMove w c a saga := by
  -- a step replaces at most one saga, and by a move
  have hset : ∀ {d : String} {saga : Saga}, SagaMove w d a saga →
      (w.sagas.insert d saga).lookup c = w.sagas.lookup c ∨
        ∃ saga', (w.sagas.insert d saga).lookup c = some saga' ∧ SagaMove w c a saga' := by
    intro d saga hmove
    rw [FiniteMap.lookup_insert_ite]
    split
    next heq => subst heq; exact Or.inr ⟨saga, rfl, hmove⟩
    next => exact Or.inl rfl
  revert h hset
  fun_cases World.next w a <;> intro h hset
  all_goals try cases h
  all_goals try exact Or.inl rfl
  · -- spawn
    rename_i hfresh
    rw [not_or, not_not] at hfresh
    exact hset (.spawn (by simpa using hfresh.1) hfresh.2 rfl)
  · -- launchOk
    rename_i hat hok
    exact hset (.launchOk hat hok)
  · -- launchErr
    rename_i hat
    exact hset (.launchErr hat)
  · -- probeOk
    rename_i hat
    exact hset (.probeOk hat)
  · -- probeErr
    rename_i hat _
    exact hset (.probeErr hat)
  · -- postOk
    rename_i hat hok
    exact hset (.postOk hat hok)
  · -- postErr
    rename_i hat _
    exact hset (.postErr hat)
  · -- recordSpawn
    rename_i hat _
    exact hset (.recordSpawn hat)
  · -- spawnOk
    rename_i hat
    exact hset (.spawnOk hat)
  · -- observe
    refine Or.inl ?_
    unfold World.observe
    simp only
    split <;> rfl
  · -- task
    obtain ⟨op, t, rest, -, -, -, rfl⟩ := World.runTask_eq_some h
    cases op <;> exact Or.inl rfl
  · -- runLaunch
    rename_i hsaga hlaunch
    exact hset (.runLaunch hsaga hlaunch)
  · -- failLaunch
    rename_i hsaga hlaunch
    exact hset (.failLaunch hsaga hlaunch.1)
  · -- runPost
    rename_i hsaga hpost
    exact hset (.runPost hsaga hpost.1)
  · -- failPost
    rename_i hsaga hpost
    exact hset (.failPost hsaga hpost)

/-- A move starts a saga under a free name or keeps the spawn of the old one. -/
theorem SagaMove.spawn_eq {c : String} {saga : Saga} (hmove : SagaMove w c a saga) :
    (w.sagas.lookup c = none ∧ isToken saga.spawn.stagingToken = true ∧
        saga.spawn.containerName = c) ∨
      ∃ old, w.sagas.lookup c = some old ∧ saga.spawn = old.spawn := by
  cases hmove with
  | spawn hfresh htoken hname => exact Or.inl ⟨hfresh, htoken, hname⟩
  | launchOk hat | launchErr hat | probeOk hat | probeErr hat | postOk hat | postErr hat
  | recordSpawn hat | spawnOk hat =>
    exact Or.inr ⟨_, (World.atStage_eq_some hat).2.2.1, rfl⟩
  | runLaunch hold | failLaunch hold | runPost hold | failPost hold => exact Or.inr ⟨_, hold, rfl⟩

/-- Sagas are stored under the name of the container they spawn, made from a
    well-formed token. -/
def SagasNamed (w : World) : Prop :=
  ∀ c saga, w.sagas.lookup c = some saga →
    saga.spawn.containerName = c ∧ isToken saga.spawn.stagingToken = true

theorem SagasNamed.isSessionId {c : String} {saga : Saga} (h : SagasNamed w)
    (hsaga : w.sagas.lookup c = some saga) : isSessionId c = true := by
  obtain ⟨hname, htoken⟩ := h c saga hsaga
  rw [← hname]
  exact isSessionId_containerName htoken

theorem sagasNamed_step (inv : SagasNamed w) (h : w.next a = some w') : SagasNamed w' := by
  intro c saga hsaga
  rcases next_saga h c with hsame | ⟨saga', hsaga', hmove⟩
  · exact inv c saga (hsame ▸ hsaga)
  · obtain rfl : saga' = saga := by rw [hsaga] at hsaga'; exact (Option.some.inj hsaga').symm
    rcases hmove.spawn_eq with ⟨-, htoken, hname⟩ | ⟨old, hold, heq⟩
    · exact ⟨hname, htoken⟩
    · rw [heq]
      exact inv c old hold

/-- Past the gate, control-plane has accepted the POST. -/
def Announced (w : World) : Prop :=
  ∀ c saga, w.sagas.lookup c = some saga →
    saga.stage = .recording ∨ saga.stage = .returning ∨ saga.stage = .returned →
    saga.post = .succeeded

theorem announced_step (inv : Announced w) (h : w.next a = some w') : Announced w' := by
  intro c saga hsaga hstage
  rcases next_saga h c with hsame | ⟨saga', hsaga', hmove⟩
  · exact inv c saga (hsame ▸ hsaga) hstage
  · obtain rfl : saga' = saga := by rw [hsaga] at hsaga'; exact (Option.some.inj hsaga').symm
    cases hmove with
    | spawn | launchOk | launchErr | probeOk | probeErr | postErr => simp at hstage
    | postOk hat hok => exact hok
    | @recordSpawn i st old hat =>
      obtain ⟨-, -, hold, hat⟩ := World.atStage_eq_some hat
      exact inv c old hold (Or.inl hat)
    | @spawnOk i st old hat =>
      obtain ⟨-, -, hold, hat⟩ := World.atStage_eq_some hat
      exact inv c old hold (Or.inr (Or.inl hat))
    | @runLaunch ip old hold | @failLaunch left old hold => exact inv c old hold hstage
    | runPost => rfl
    | @failPost old hold hpost =>
      have hsent := inv c old hold hstage
      rw [hpost] at hsent
      cases hsent

-- ════════════════════════════════════════════════════════════════════════
-- History
-- ════════════════════════════════════════════════════════════════════════

/-- The later history keeps everything the earlier one records. -/
structure HistoryLe (h h' : History) : Prop where
  installed : ∀ c ∈ h.installed, c ∈ h'.installed
  issued : ∀ c ∈ h.issued, c ∈ h'.issued
  reported : ∀ c ∈ h.reported, c ∈ h'.reported
  handled : ∀ c ∈ h.handled, c ∈ h'.handled

theorem HistoryLe.refl (h : History) : HistoryLe h h :=
  ⟨fun _ => id, fun _ => id, fun _ => id, fun _ => id⟩

theorem next_history (h : w.next a = some w') : HistoryLe w.history w'.history := by
  have hcons : ∀ {l : List String} (c : String), ∀ d ∈ l, d ∈ c :: l :=
    fun _ _ hd => List.mem_cons_of_mem _ hd
  revert h
  fun_cases World.next w a <;> intro h
  all_goals try cases h
  all_goals try exact ⟨fun _ => id, fun _ => id, fun _ => id, fun _ => id⟩
  all_goals try exact ⟨fun _ => id, hcons _, fun _ => id, fun _ => id⟩
  · -- observe
    unfold World.observe
    simp only
    split
    next => exact HistoryLe.refl _
    next => exact ⟨hcons _, fun _ => id, fun _ => id, fun _ => id⟩
  · -- task
    obtain ⟨op, t, rest, -, -, -, rfl⟩ := World.runTask_eq_some h
    cases op
    case callTeardown | evictEntry | forkTeardown =>
      exact ⟨fun _ => id, hcons _, fun _ => id, fun _ => id⟩
    all_goals exact HistoryLe.refl _
  · -- deliver
    refine ⟨fun _ => id, fun _ => id, hcons _, ?_⟩
    intro c hc
    simp only [World.exitEvent]
    split
    next => exact hcons _ c hc
    next => exact hc

theorem World.entryOf_eq_some {c id : String} {t : TransportState}
    (h : w.entryOf c = some (id, t)) :
    w.transportSessions.lookup id = some t ∧ t.containerName = c := by
  obtain ⟨hlook, hname⟩ := FiniteMap.find?_eq_some h
  exact ⟨hlook, of_decide_eq_true hname⟩

theorem next_deliver {e : ContainerEvent} {k : Nat} (h : w.next (.deliver e k) = some w') :
    e ∈ w.events ∧ w.fresh k = true ∧
      w' = { w with events := w.events.erase e }.exitEvent e.name k := by
  simp only [World.next, Option.ite_none_right_eq_some, Option.some.injEq] at h
  exact ⟨h.1.1, h.1.2, h.2.symm⟩

/-- Containers enter the transport map only by an install. -/
theorem next_installed (h : w.next a = some w') {c : String} (hc : c ∈ w'.history.installed) :
    c ∈ w.history.installed ∨ ∃ i td id p, a = .observe i ∧
      w.streams.lookup i = some ⟨.observing (some id), td⟩ ∧ w.pendingInit.lookup i = some p ∧
      p.containerName = c ∧ w'.transportSessions = w.transportSessions.insert id p.transport := by
  revert h
  fun_cases World.next w a <;> intro h
  all_goals try cases h
  all_goals try exact Or.inl hc
  · -- observe
    rename_i i id td hst
    unfold World.observe at hc ⊢
    simp only at hc ⊢
    split at hc
    next => exact Or.inl hc
    next id' p hins =>
      obtain ⟨rfl, hp⟩ := World.installation_eq_some hins
      rcases List.mem_cons.mp hc with rfl | hc
      · exact Or.inr ⟨i, td, id', p, rfl, hst, hp, rfl, rfl⟩
      · exact Or.inl hc
  · -- task
    obtain ⟨op, t, rest, -, -, -, rfl⟩ := World.runTask_eq_some h
    cases op <;> exact Or.inl hc

-- ════════════════════════════════════════════════════════════════════════
-- Tasks
-- ════════════════════════════════════════════════════════════════════════

/-- The programs a step can start, with what it knows about their targets. -/
inductive Starts (w : World) : Action → Program → Prop
  | teardown {i k : Nat} {id : Option String} {t : Target}
      (hst : w.streams.lookup i = some ⟨.idle, some t⟩) :
      Starts w (.responseHeaders i k id) (teardownSession t)
  | reap {k : Nat} {id : String} {t : TransportState}
      (ht : w.transportSessions.lookup id = some t) :
      Starts w (.reap k id) (teardownSession (t.target id))
  | evictDead {k : Nat} {id : String} {t : TransportState}
      (ht : w.transportSessions.lookup id = some t) :
      Starts w (.evictDead k id) (evictDeadSession (t.target id))
  | evictTenant {k : Nat} {tenant : String} :
      Starts w (.evictTenant k tenant) ((w.tenantTargets tenant).flatMap evictSession)
  | exit {e : ContainerEvent} {k : Nat} {id : String} {t : TransportState}
      (ht : w.entryOf e.name = some (id, t)) :
      Starts w (.deliver e k) (handleContainerExit (t.target id))
  | probeErr {i k : Nat} {c : String} {st : Stream} {saga : Saga}
      (hat : w.atStage i .probing = some (c, st, saga)) :
      Starts w (.probeErr i k) [(.callTeardown, saga.pending.target)]
  | postErr {i k : Nat} {c : String} {st : Stream} {saga : Saga}
      (hat : w.atStage i .posting = some (c, st, saga)) :
      Starts w (.postErr i k) [(.callTeardown, saga.pending.target)]
  | evictEntry {k fork : Nat} {t : Target} {rest : Program}
      (htask : w.tasks.lookup k = some ((.evictEntry, t) :: rest)) :
      Starts w (.task k fork) (backgroundEvict t)
  | forkTeardown {k fork : Nat} {t : Target} {rest : Program}
      (htask : w.tasks.lookup k = some ((.forkTeardown, t) :: rest)) :
      Starts w (.task k fork) [(.callTeardown, t)]
  | forkDelete {k fork : Nat} {t : Target} {rest : Program}
      (htask : w.tasks.lookup k = some ((.forkDelete, t) :: rest)) :
      Starts w (.task k fork) [(.callDelete, t)]

theorem World.lookup_keepTask (w : World) (k j : Nat) (todo program : Program) :
    (w.keepTask k todo).tasks.lookup j = some program →
      (j = k ∧ program = todo) ∨ (j ≠ k ∧ w.tasks.lookup j = some program) := by
  intro h
  unfold World.keepTask at h
  simp only at h
  split at h
  next =>
    rw [FiniteMap.lookup_erase_ite] at h
    split at h
    next => cases h
    next hne => exact Or.inr ⟨hne, h⟩
  next =>
    rw [FiniteMap.lookup_insert_ite] at h
    split at h
    next heq => cases h; exact Or.inl ⟨heq, rfl⟩
    next hne => exact Or.inr ⟨hne, h⟩

/-- **Task inversion**: a task of the next world was there, is the rest of one
    that has just run an operation, or has just been started. -/
theorem next_tasks (h : w.next a = some w') {j : Nat} {program : Program}
    (hj : w'.tasks.lookup j = some program) :
    (w.tasks.lookup j = some program ∧ ∀ fork, a ≠ .task j fork) ∨
      (∃ fork op t rest, a = .task j fork ∧ w.tasks.lookup j = some ((op, t) :: rest) ∧
        program = w.remaining op t rest) ∨
      Starts w a program := by
  have hset : ∀ {k : Nat} {new : Program} {b : Action}, Starts w b new → (∀ i f, b ≠ .task i f) →
      (w.tasks.insert k new).lookup j = some program →
      (w.tasks.lookup j = some program ∧ ∀ fork, b ≠ .task j fork) ∨
        (∃ fork op t rest, b = .task j fork ∧ w.tasks.lookup j = some ((op, t) :: rest) ∧
          program = w.remaining op t rest) ∨ Starts w b program := by
    intro k new b hstart hb hlook
    rw [FiniteMap.lookup_insert_ite] at hlook
    split at hlook
    next => cases hlook; exact Or.inr (Or.inr hstart)
    next => exact Or.inl ⟨hlook, hb j⟩
  revert h
  fun_cases World.next w a <;> intro h
  all_goals try cases h
  all_goals try exact Or.inl ⟨hj, by simp⟩
  · -- probeErr
    rename_i hat _
    exact hset (.probeErr hat) (by simp) hj
  · -- postErr
    rename_i hat _
    exact hset (.postErr hat) (by simp) hj
  · -- responseHeaders
    rename_i hst _
    exact hset (.teardown hst) (by simp) hj
  · -- observe
    unfold World.observe at hj
    simp only at hj
    split at hj <;> exact Or.inl ⟨hj, by simp⟩
  · -- evictDead
    rename_i ht _
    exact hset (.evictDead ht) (by simp) hj
  · -- evictTenant
    rcases World.lookup_keepTask _ _ _ _ _ hj with ⟨-, rfl⟩ | ⟨-, hj⟩
    · exact Or.inr (Or.inr .evictTenant)
    · exact Or.inl ⟨hj, by simp⟩
  · -- reap
    rename_i ht _
    exact hset (.reap ht) (by simp) hj
  · -- task
    rename_i k fork
    obtain ⟨op, t, rest, htask, -, -, rfl⟩ := World.runTask_eq_some h
    have hkeep : (w.keepTask k (w.remaining op t rest)).tasks.lookup j = some program →
        (w.tasks.lookup j = some program ∧ ∀ f, Action.task k fork ≠ .task j f) ∨
          (∃ f op t rest, Action.task k fork = .task j f ∧
            w.tasks.lookup j = some ((op, t) :: rest) ∧ program = w.remaining op t rest) ∨
          Starts w (.task k fork) program := by
      intro hlook
      rcases World.lookup_keepTask _ _ _ _ _ hlook with ⟨rfl, rfl⟩ | ⟨hne, hlook⟩
      · exact Or.inr (Or.inl ⟨fork, op, t, rest, rfl, htask, rfl⟩)
      · exact Or.inl ⟨hlook, fun f heq => hne (Action.task.inj heq).1.symm⟩
    -- the operations that fork add one more task
    have hfork : ∀ {new : Program}, Starts w (.task k fork) new →
        ((w.keepTask k (w.remaining op t rest)).tasks.insert fork new).lookup j = some program →
        (w.tasks.lookup j = some program ∧ ∀ f, Action.task k fork ≠ .task j f) ∨
          (∃ f op t rest, Action.task k fork = .task j f ∧
            w.tasks.lookup j = some ((op, t) :: rest) ∧ program = w.remaining op t rest) ∨
          Starts w (.task k fork) program := by
      intro new hstart hlook
      rw [FiniteMap.lookup_insert_ite] at hlook
      split at hlook
      next => cases hlook; exact Or.inr (Or.inr hstart)
      next => exact hkeep hlook
    cases op
    case evictEntry => exact hfork (.evictEntry htask) hj
    case forkTeardown => exact hfork (.forkTeardown htask) hj
    case forkDelete => exact hfork (.forkDelete htask) hj
    all_goals exact hkeep hj
  · -- deliver
    rename_i e k hcond
    simp only [World.exitEvent, World.entryOf] at hj
    split at hj
    next => exact Or.inl ⟨hj, by simp⟩
    next id t ht => exact hset (.exit ht) (by simp) hj

theorem World.mem_tenantTargets {tenant : String} {t : Target} (h : t ∈ w.tenantTargets tenant) :
    ∃ id e, w.transportSessions.lookup id = some e ∧ t = e.target id := by
  simp only [World.tenantTargets, List.mem_map, List.mem_filter] at h
  obtain ⟨⟨id, e⟩, ⟨hmem, -⟩, rfl⟩ := h
  exact ⟨id, e, (FiniteMap.lookup_eq_some_iff _ _ _).mpr hmem, rfl⟩

/-- Where the target of a started operation comes from: an entry, a DELETE
    request, or an operation of a running task; only an unannounced container is
    torn down without any of these. -/
theorem Starts.target {program : Program} {op : Op} {t : Target} (hstart : Starts w a program)
    (hmem : (op, t) ∈ program) (hop : op ≠ .callTeardown) :
    (∃ id e, w.transportSessions.lookup id = some e ∧ t = e.target id) ∨
      (∃ i st, w.streams.lookup i = some st ∧ st.teardownOnResponse = some t) ∨
      ∃ k op' rest, w.tasks.lookup k = some ((op', t) :: rest) ∧ op' ≠ .callTeardown := by
  have hpaths : ∀ {t' : Target}, (op, t) ∈ teardownSession t' ∨ (op, t) ∈ evictSession t' ∨
      (op, t) ∈ evictDeadSession t' ∨ (op, t) ∈ handleContainerExit t' ∨
      (op, t) ∈ backgroundEvict t' → t = t' := by
    simp [teardownSession, evictSession, evictDeadSession, handleContainerExit, backgroundEvict]
    grind
  cases hstart with
  | teardown hst =>
    obtain rfl := hpaths (Or.inl hmem)
    exact Or.inr (Or.inl ⟨_, _, hst, rfl⟩)
  | reap ht =>
    obtain rfl := hpaths (Or.inl hmem)
    exact Or.inl ⟨_, _, ht, rfl⟩
  | evictDead ht =>
    obtain rfl := hpaths (Or.inr (Or.inr (Or.inl hmem)))
    exact Or.inl ⟨_, _, ht, rfl⟩
  | evictTenant =>
    obtain ⟨t', ht', hmem⟩ := List.mem_flatMap.mp hmem
    obtain rfl := hpaths (Or.inr (Or.inl hmem))
    exact Or.inl (World.mem_tenantTargets ht')
  | exit ht =>
    obtain rfl := hpaths (Or.inr (Or.inr (Or.inr (Or.inl hmem))))
    exact Or.inl ⟨_, _, (World.entryOf_eq_some ht).1, rfl⟩
  | probeErr | postErr =>
    simp only [List.mem_singleton, Prod.mk.injEq] at hmem
    exact absurd hmem.1 hop
  | evictEntry htask =>
    obtain rfl := hpaths (Or.inr (Or.inr (Or.inr (Or.inr hmem))))
    exact Or.inr (Or.inr ⟨_, _, _, htask, by simp⟩)
  | forkTeardown =>
    simp only [List.mem_singleton, Prod.mk.injEq] at hmem
    exact absurd hmem.1 hop
  | forkDelete htask =>
    simp only [List.mem_singleton, Prod.mk.injEq] at hmem
    obtain ⟨rfl, rfl⟩ := hmem
    exact Or.inr (Or.inr ⟨_, _, _, htask, by simp⟩)

/-- A task that does not run stays as it is. -/
theorem next_tasks_keep (h : w.next a = some w') {j : Nat} {program : Program}
    (hj : w.tasks.lookup j = some program) (hrun : ∀ fork, a ≠ .task j fork) :
    w'.tasks.lookup j = some program := by
  have hset : ∀ {k : Nat} {new : Program}, w.fresh k = true →
      (w.tasks.insert k new).lookup j = some program := by
    intro k new hfresh
    rw [FiniteMap.lookup_insert_ite]
    split
    next heq =>
      subst heq
      rw [World.fresh, hj] at hfresh
      cases hfresh
    next => exact hj
  revert h
  fun_cases World.next w a <;> intro h
  all_goals try cases h
  all_goals try exact hj
  all_goals try exact hset ‹_›
  · -- observe
    unfold World.observe
    simp only
    split <;> exact hj
  · -- evictTenant
    rename_i k tenant hfresh
    unfold World.keepTask
    simp only
    split
    next =>
      rw [FiniteMap.lookup_erase_ite]
      split
      next heq =>
        subst heq
        rw [World.fresh, hj] at hfresh
        cases hfresh
      next => exact hj
    next => exact hset hfresh
  · -- task
    rename_i k fork
    obtain ⟨op, t, rest, htask, hfresh, -, rfl⟩ := World.runTask_eq_some h
    have hne : j ≠ k := fun heq => hrun fork (heq ▸ rfl)
    have hkeep : (w.keepTask k (w.remaining op t rest)).tasks.lookup j = some program := by
      unfold World.keepTask
      simp only
      split
      next => rw [FiniteMap.lookup_erase_ite, if_neg hne]; exact hj
      next => rw [FiniteMap.lookup_insert_ite, if_neg hne]; exact hj
    have hfork : ∀ {new : Program},
        ((w.keepTask k (w.remaining op t rest)).tasks.insert fork new).lookup j = some program := by
      intro new
      rw [FiniteMap.lookup_insert_ite]
      split
      next heq =>
        subst heq
        rw [World.fresh, hj] at hfresh
        cases hfresh
      next => exact hkeep
    cases op
    case evictEntry | forkTeardown | forkDelete => exact hfork
    all_goals exact hkeep
  · -- deliver
    rename_i hcond
    simp only [World.exitEvent]
    split
    next => exact hj
    next => exact hset hcond.2

end Botwork.SessionBroker
