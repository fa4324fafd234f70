import Botwork.SessionBroker.Steps

/-!
# Messages in flight and the other parties

The second half of the inversion lemmas: control-plane's records, docker, the
messages in flight, and the operations a path still has to run.

## Main results

- `next_records`, `next_docker`, `next_workers` — the parties behind the broker
- `next_deletes`, `next_teardowns`, `next_events` — a message stays in flight until
  it is processed
- `due_step` — an operation stays due until its path runs it
-/

namespace Botwork.SessionBroker

open Botwork.Foundations Botwork.ControlPlane

variable {w w' : World} {a : Action}

-- ════════════════════════════════════════════════════════════════════════
-- Control-plane
-- ════════════════════════════════════════════════════════════════════════

/-- Records appear by a POST and go by a DELETE. -/
theorem next_records (h : w.next a = some w') :
    w'.records = w.records ∨
      (∃ c saga, a = .runPost c ∧ w.sagas.lookup c = some saga ∧ saga.post = .inFlight ∧
        w'.records = w.records.set saga.pending.record) ∨
      ∃ t, a = .runDelete t ∧ t ∈ w.deletes ∧
        w'.records = if w.deletes? t then w.records.unset t.mcpSessionId else w.records := by
  revert h
  fun_cases World.next w a <;> intro h
  all_goals try cases h
  all_goals try exact Or.inl rfl
  · -- observe
    refine Or.inl ?_
    unfold World.observe
    simp only
    split <;> rfl
  · -- task
    obtain ⟨op, t, rest, -, -, -, rfl⟩ := World.runTask_eq_some h
    cases op <;> exact Or.inl rfl
  · -- runPost
    rename_i hsaga hpost
    exact Or.inr (Or.inl ⟨_, _, rfl, hsaga, hpost.1, rfl⟩)
  · -- runDelete
    rename_i ht
    exact Or.inr (Or.inr ⟨_, rfl, ht, rfl⟩)

/-- The record of a container appears when control-plane processes its own POST. -/
theorem next_record_none (named : SagasNamed w) (h : w.next a = some w') {c : String}
    (hnone : w.records.get c = none)
    (hpost : ∀ saga, w.sagas.lookup c = some saga → saga.post ≠ .inFlight) :
    w'.records.get c = none := by
  rcases next_records h with hsame | ⟨d, saga, -, hsaga, hd, hset⟩ | ⟨t, -, -, hunset⟩
  · rw [hsame]
    exact hnone
  · rw [hset, SessionTable.get_set, if_neg]
    · exact hnone
    · rintro rfl
      obtain ⟨hname, -⟩ := named d saga hsaga
      have hd' : saga.pending.record.sessionId = d := hname
      rw [hd'] at hpost
      exact hpost saga hsaga hd
  · rw [hunset]
    split
    next =>
      rw [SessionTable.get_unset]
      split
      next => rfl
      next => exact hnone
    next => exact hnone

/-- A DELETE under the name of a container leaves no record of it. -/
theorem records_runDelete {t : Target} (h : w.next (.runDelete t) = some w')
    (hid : isSessionId t.mcpSessionId = true) : w'.records.get t.mcpSessionId = none := by
  rcases next_records h with hsame | ⟨c, saga, heq, -⟩ | ⟨t', heq, -, hunset⟩
  · have hdel := h
    simp only [World.next, Option.ite_none_right_eq_some, Option.some.injEq] at hdel
    obtain ⟨-, rfl⟩ := hdel
    simp only [World.controlPlaneDelete]
    split
    next => rw [SessionTable.get_unset, if_pos rfl]
    next hnone =>
      simpa [World.deletes?, hid] using hnone
  · cases heq
  · cases heq
    rw [hunset]
    split
    next => rw [SessionTable.get_unset, if_pos rfl]
    next hnone =>
      simpa [World.deletes?, hid] using hnone

theorem next_deregistered (h : w.next a = some w') {x : String × String}
    (hx : x ∈ w'.history.deregistered) :
    x ∈ w.history.deregistered ∨ ∃ t ∈ w.deletes, x = (t.containerName, t.mcpSessionId) := by
  revert h
  fun_cases World.next w a <;> intro h
  all_goals try cases h
  all_goals try exact Or.inl hx
  · -- observe
    unfold World.observe at hx
    simp only at hx
    split at hx <;> exact Or.inl hx
  · -- task
    obtain ⟨op, t, rest, -, -, -, rfl⟩ := World.runTask_eq_some h
    cases op <;> exact Or.inl hx
  · -- runDelete
    rename_i ht
    simp only [World.controlPlaneDelete] at hx
    split at hx
    next =>
      rcases List.mem_cons.mp hx with rfl | hx
      · exact Or.inr ⟨_, ht, rfl⟩
      · exact Or.inl hx
    next => exact Or.inl hx

-- ════════════════════════════════════════════════════════════════════════
-- Docker
-- ════════════════════════════════════════════════════════════════════════

/-- The steps that change container `c` at docker, with the container they leave. -/
inductive DockerMove (w : World) (c : String) : Action → Container → Prop
  | launch {ip : Ipv4Addr} {saga : Saga} (hsaga : w.sagas.lookup c = some saga)
      (hlaunch : saga.launch = .inFlight) : DockerMove w c (.runLaunch c ip) ⟨.running, true⟩
  | leave {left : Container} {saga : Saga} (hsaga : w.sagas.lookup c = some saga)
      (hlaunch : saga.launch = .inFlight) : DockerMove w c (.failLaunch c (some left)) left
  | teardown {t : Target} (ht : t ∈ w.teardowns) (hname : t.containerName = c)
      (hsome : (w.docker.lookup c).isSome = true) :
      DockerMove w c (.runTeardown t) ⟨.removed, false⟩
  | crash {mounted : Bool} (hrun : w.docker.lookup c = some ⟨.running, mounted⟩) :
      DockerMove w c (.crash c) ⟨.exited, mounted⟩
  | autoRemove {mounted : Bool} (hexit : w.docker.lookup c = some ⟨.exited, mounted⟩) :
      DockerMove w c (.autoRemove c) ⟨.removed, mounted⟩

/-- **Docker inversion**: a step leaves container `c` alone or moves it. -/
theorem next_docker (h : w.next a = some w') (c : String) :
    w'.docker.lookup c = w.docker.lookup c ∨
      ∃ k, w'.docker.lookup c = some k ∧ DockerMove w c a k := by
  have hset : ∀ {d : String} {k : Container}, DockerMove w d a k →
      (w.docker.insert d k).lookup c = w.docker.lookup c ∨
        ∃ k', (w.docker.insert d k).lookup c = some k' ∧ DockerMove w c a k' := by
    intro d k hmove
    rw [FiniteMap.lookup_insert_ite]
    split
    next heq => subst heq; exact Or.inr ⟨k, rfl, hmove⟩
    next => exact Or.inl rfl
  revert h hset
  fun_cases World.next w a <;> intro h hset
  all_goals try cases h
  all_goals try exact Or.inl rfl
  · -- observe
    refine Or.inl ?_
    unfold World.observe
    simp only
    split <;> rfl
  · -- task
    obtain ⟨op, t, rest, -, -, -, rfl⟩ := World.runTask_eq_some h
    cases op <;> exact Or.inl rfl
  · -- runLaunch
    rename_i hsaga hlaunch
    exact hset (.launch hsaga hlaunch)
  · -- failLaunch
    rename_i left saga hsaga hlaunch
    cases left with
    | none => exact Or.inl rfl
    | some left => exact hset (.leave hsaga hlaunch.1)
  · -- runTeardown
    rename_i ht
    simp only [World.launcherTeardown]
    split
    next hsome => exact hset (.teardown ht rfl hsome)
    next => exact Or.inl rfl
  · -- crash
    rename_i hrun
    exact hset (.crash hrun)
  · -- autoRemove
    rename_i hexit
    exact hset (.autoRemove hexit)

/-- Nothing of the container runs, and its staging directory is unmounted. -/
def Stopped (w : World) (c : String) : Prop :=
  w.docker.lookup c = none ∨ w.docker.lookup c = some ⟨.removed, false⟩

/-- The launcher's teardown stops the container. -/
theorem stopped_runTeardown {t : Target} (h : w.next (.runTeardown t) = some w') :
    Stopped w' t.containerName := by
  simp only [World.next, Option.ite_none_right_eq_some, Option.some.injEq] at h
  obtain ⟨-, rfl⟩ := h
  simp only [World.launcherTeardown]
  split
  next => exact Or.inr (AList.lookup_insert _)
  next hnone => exact Or.inl (by simpa using hnone)

-- ════════════════════════════════════════════════════════════════════════
-- Messages in flight
-- ════════════════════════════════════════════════════════════════════════

/-- A DELETE stays in flight until control-plane processes it. -/
theorem next_deletes_keep (h : w.next a = some w') {t : Target} (ht : t ∈ w.deletes) :
    t ∈ w'.deletes ∨ a = .runDelete t := by
  revert h
  fun_cases World.next w a <;> intro h
  all_goals try cases h
  all_goals try exact Or.inl ht
  · -- observe
    unfold World.observe
    simp only
    split <;> exact Or.inl ht
  · -- task
    obtain ⟨op, t', rest, -, -, -, rfl⟩ := World.runTask_eq_some h
    cases op
    case callDelete => exact Or.inl (List.mem_cons_of_mem _ ht)
    all_goals exact Or.inl ht
  · -- runDelete
    rename_i t' _
    by_cases heq : t = t'
    · exact Or.inr (heq ▸ rfl)
    · exact Or.inl ((List.mem_erase_of_ne heq).mpr ht)

/-- A DELETE is sent by a path. -/
theorem next_deletes (h : w.next a = some w') {t : Target} (ht : t ∈ w'.deletes) :
    t ∈ w.deletes ∨ ∃ k rest, w.tasks.lookup k = some ((.callDelete, t) :: rest) := by
  revert h
  fun_cases World.next w a <;> intro h
  all_goals try cases h
  all_goals try exact Or.inl ht
  · -- observe
    unfold World.observe at ht
    simp only at ht
    split at ht <;> exact Or.inl ht
  · -- task
    obtain ⟨op, t', rest, htask, -, -, rfl⟩ := World.runTask_eq_some h
    cases op
    case callDelete =>
      rcases List.mem_cons.mp ht with rfl | ht
      · exact Or.inr ⟨_, rest, htask⟩
      · exact Or.inl ht
    all_goals exact Or.inl ht
  · -- runDelete
    exact Or.inl (List.mem_of_mem_erase ht)

/-- A teardown call stays in flight until the launcher processes it or it is lost. -/
theorem next_teardowns_keep (h : w.next a = some w') {t : Target} (ht : t ∈ w.teardowns) :
    t ∈ w'.teardowns ∨ a = .runTeardown t ∨ a = .dropTeardown t := by
  revert h
  fun_cases World.next w a <;> intro h
  all_goals try cases h
  all_goals try exact Or.inl ht
  · -- observe
    unfold World.observe
    simp only
    split <;> exact Or.inl ht
  · -- task
    obtain ⟨op, t', rest, -, -, -, rfl⟩ := World.runTask_eq_some h
    cases op
    case callTeardown => exact Or.inl (List.mem_cons_of_mem _ ht)
    all_goals exact Or.inl ht
  · -- runTeardown
    rename_i t' _
    by_cases heq : t = t'
    · exact Or.inr (Or.inl (heq ▸ rfl))
    · exact Or.inl ((List.mem_erase_of_ne heq).mpr ht)
  · -- dropTeardown
    rename_i t' _
    by_cases heq : t = t'
    · exact Or.inr (Or.inr (heq ▸ rfl))
    · exact Or.inl ((List.mem_erase_of_ne heq).mpr ht)

/-- An exit event stays in flight until it is delivered. -/
theorem next_events_keep (h : w.next a = some w') {e : ContainerEvent} (he : e ∈ w.events) :
    e ∈ w'.events ∨ ∃ k, a = .deliver e k := by
  revert h
  fun_cases World.next w a <;> intro h
  all_goals try cases h
  all_goals try exact Or.inl he
  all_goals try exact Or.inl (List.mem_append_left _ he)
  · -- observe
    unfold World.observe
    simp only
    split <;> exact Or.inl he
  · -- task
    obtain ⟨op, t', rest, -, -, -, rfl⟩ := World.runTask_eq_some h
    cases op <;> exact Or.inl he
  · -- deliver
    rename_i e' k _
    by_cases heq : e = e'
    · exact Or.inr ⟨k, heq ▸ rfl⟩
    · exact Or.inl ((List.mem_erase_of_ne heq).mpr he)

/-- A stream takes the target of a DELETE request from an entry. -/
theorem next_teardownOnResponse (h : w.next a = some w') {i : Nat} {st : Stream} {t : Target}
    (hst : w'.streams.lookup i = some st) (ht : st.teardownOnResponse = some t) :
    (∃ j st₀, w.streams.lookup j = some st₀ ∧ st₀.teardownOnResponse = some t) ∨
      ∃ id e, w.transportSessions.lookup id = some e ∧ t = e.target id := by
  -- a step replaces at most one stream, which keeps its target or drops it
  have hset : ∀ {j : Nat} {old new : Stream}, w.streams.lookup j = some old →
      (w.streams.insert j new).lookup i = some st →
      new.teardownOnResponse = old.teardownOnResponse →
      ∃ j st₀, w.streams.lookup j = some st₀ ∧ st₀.teardownOnResponse = some t := by
    intro j old new hold hlook heq
    rw [FiniteMap.lookup_insert_ite] at hlook
    split at hlook
    next => cases hlook; exact ⟨j, old, hold, heq ▸ ht⟩
    next => exact ⟨i, st, hlook, ht⟩
  have hidle : ∀ {j : Nat} {pc : StreamPc}, (w.streams.insert j ⟨pc, none⟩).lookup i = some st →
      ∃ j st₀, w.streams.lookup j = some st₀ ∧ st₀.teardownOnResponse = some t := by
    intro j pc hlook
    rw [FiniteMap.lookup_insert_ite] at hlook
    split at hlook
    next => cases hlook; cases ht
    next => exact ⟨i, st, hlook, ht⟩
  have hat : ∀ {j : Nat} {stage : SagaStage} {c : String} {old : Stream} {saga : Saga},
      w.atStage j stage = some (c, old, saga) → w.streams.lookup j = some old :=
    fun hat => (World.atStage_eq_some hat).1
  revert h
  fun_cases World.next w a <;> intro h
  all_goals try cases h
  all_goals try exact Or.inl ⟨i, st, hst, ht⟩
  all_goals try exact Or.inl (hidle hst)
  · -- closeStream
    simp only [FiniteMap.lookup_erase_ite] at hst
    split at hst
    next => cases hst
    next => exact Or.inl ⟨i, st, hst, ht⟩
  · -- spawn
    rename_i hstream _
    exact Or.inl (hset hstream hst rfl)
  · -- launchErr
    rename_i hstage
    exact Or.inl (hset (hat hstage) hst rfl)
  · -- probeErr
    rename_i hstage _
    exact Or.inl (hset (hat hstage) hst rfl)
  · -- postErr
    rename_i hstage _
    exact Or.inl (hset (hat hstage) hst rfl)
  · -- spawnOk
    rename_i hstage
    exact Or.inl (hset (hat hstage) hst rfl)
  · -- requestDelete
    rename_i j id td e hentry _ _
    simp only [FiniteMap.lookup_insert_ite] at hst
    split at hst
    next => cases hst; cases ht; exact Or.inr ⟨id, e, hentry, rfl⟩
    next => exact Or.inl ⟨i, st, hst, ht⟩
  · -- tornDown
    rename_i hstream _
    exact Or.inl (hset hstream hst rfl)
  · -- observe
    rename_i hstream
    unfold World.observe at hst
    simp only at hst
    split at hst <;> exact Or.inl (hset hstream hst rfl)
  · -- backfill
    rename_i hstream _
    exact Or.inl (hset hstream hst rfl)
  · -- task
    obtain ⟨op, t', rest, -, -, -, rfl⟩ := World.runTask_eq_some h
    cases op <;> exact Or.inl ⟨i, st, hst, ht⟩

-- ════════════════════════════════════════════════════════════════════════
-- Worker rows
-- ════════════════════════════════════════════════════════════════════════

theorem lookup_updateWorker {workers : FiniteMap String Worker} {c d : String}
    {f : Worker → Worker} {row' : Worker}
    (h : (World.updateWorker workers c f).lookup d = some row') :
    ∃ row, workers.lookup d = some row ∧ (row' = row ∨ row' = f row) := by
  unfold World.updateWorker at h
  split at h
  next => exact ⟨row', h, Or.inl rfl⟩
  next row hrow =>
    rw [FiniteMap.lookup_insert_ite] at h
    split at h
    next heq => cases h; exact ⟨row, heq ▸ hrow, Or.inr rfl⟩
    next => exact ⟨row', h, Or.inl rfl⟩

/-- A row appears when its spawn is recorded, and stays reaped once it is. -/
theorem next_worker (h : w.next a = some w') {c : String} {row' : Worker}
    (hrow : w'.workers.lookup c = some row') :
    (∃ row, w.workers.lookup c = some row ∧ (row.reaped = true → row'.reaped = true)) ∨
      ∃ i st saga, a = .recordSpawn i ∧ w.atStage i .recording = some (c, st, saga) := by
  revert h
  fun_cases World.next w a <;> intro h
  all_goals try cases h
  all_goals try exact Or.inl ⟨row', hrow, id⟩
  · -- recordSpawn
    rename_i i c' st saga hat _
    simp only [World.setSaga, FiniteMap.lookup_insert_ite] at hrow
    split at hrow
    next heq => subst heq; exact Or.inr ⟨i, st, saga, rfl, hat⟩
    next => exact Or.inl ⟨row', hrow, id⟩
  · -- observe
    unfold World.observe at hrow
    simp only at hrow
    split at hrow <;> exact Or.inl ⟨row', hrow, id⟩
  · -- backfill
    obtain ⟨row, hold, rfl | rfl⟩ := lookup_updateWorker hrow
    · exact Or.inl ⟨row', hold, id⟩
    · exact Or.inl ⟨row, hold, id⟩
  · -- task
    obtain ⟨op, t, rest, -, -, -, rfl⟩ := World.runTask_eq_some h
    cases op
    case recordReap =>
      obtain ⟨row, hold, rfl | rfl⟩ := lookup_updateWorker hrow
      · exact Or.inl ⟨row', hold, id⟩
      · exact Or.inl ⟨row, hold, fun _ => rfl⟩
    all_goals exact Or.inl ⟨row', hrow, id⟩

-- ════════════════════════════════════════════════════════════════════════
-- Operations that are due
-- ════════════════════════════════════════════════════════════════════════

/-- Some task still has to run the operation. -/
def Due (w : World) (op : Op) (t : Target) : Prop :=
  ∃ k program, w.tasks.lookup k = some program ∧ (op, t) ∈ program

/-- The operations of an eviction, which a liveness check can call off. -/
def Op.evicts : Op → Bool
  | .inspect | .tombstone | .evictEntry => true
  | _ => false

/-- A liveness check is followed by an eviction only, and the exit path sends a
    DELETE after it has removed the entry. -/
def Ordered : Program → Prop
  | [] => True
  | (op, t) :: rest =>
    (op = .inspect → ∀ o ∈ rest, o.1.evicts = true) ∧
      (op = .exitEntry → (.forkDelete, t) ∈ rest) ∧ Ordered rest

theorem ordered_evictSessions (ts : List Target) : Ordered (ts.flatMap evictSession) := by
  induction ts with
  | nil => trivial
  | cons t ts ih =>
    have hcons : (t :: ts).flatMap evictSession =
        (.tombstone, t) :: (.evictEntry, t) :: ts.flatMap evictSession := rfl
    rw [hcons]
    exact ⟨by simp, by simp, by simp, by simp, ih⟩

theorem Starts.ordered {program : Program} (hstart : Starts w a program) : Ordered program := by
  cases hstart with
  | evictTenant => exact ordered_evictSessions _
  | _ => simp [Ordered, teardownSession, evictDeadSession, evictSession, handleContainerExit,
      backgroundEvict, Op.evicts]

/-- Every task of the world is ordered. -/
def TasksOrdered (w : World) : Prop :=
  ∀ k program, w.tasks.lookup k = some program → Ordered program

theorem tasksOrdered_step (inv : TasksOrdered w) (h : w.next a = some w') : TasksOrdered w' := by
  intro k program hprog
  rcases next_tasks h hprog with ⟨hold, -⟩ | ⟨fork, op, t, rest, rfl, htask, rfl⟩ | hstart
  · exact inv k program hold
  · rcases w.remaining_eq op t rest with hrem | hrem
    · rw [hrem]
      trivial
    · rw [hrem]
      exact (inv k _ htask).2.2
  · exact hstart.ordered

/-- The tasks after one of them has run an operation. -/
theorem lookup_task_self {k fork : Nat} {op : Op} {t : Target} {rest : Program}
    (h : w.next (.task k fork) = some w') (htask : w.tasks.lookup k = some ((op, t) :: rest))
    (hne : w.remaining op t rest ≠ []) : w'.tasks.lookup k = some (w.remaining op t rest) := by
  obtain ⟨-, hfork, rfl⟩ := next_task h htask
  have hkeep : (w.keepTask k (w.remaining op t rest)).tasks.lookup k =
      some (w.remaining op t rest) := by
    simp only [World.keepTask, if_neg hne, AList.lookup_insert]
  cases op
  case evictEntry | forkTeardown | forkDelete =>
    show AList.lookup k (AList.insert fork _ _) = _
    rw [FiniteMap.lookup_insert_ite, if_neg hfork.symm]
    exact hkeep
  all_goals exact hkeep

/-- **Due operations**: an operation outside evictions stays due until a task
    runs it. -/
theorem due_step (inv : TasksOrdered w) (h : w.next a = some w') {op : Op} {t : Target}
    (hdue : Due w op t) (hop : op.evicts = false) :
    Due w' op t ∨
      ∃ k fork rest, a = .task k fork ∧ w.tasks.lookup k = some ((op, t) :: rest) := by
  obtain ⟨k, program, hprog, hmem⟩ := hdue
  by_cases hrun : ∀ fork, a ≠ .task k fork
  · exact Or.inl ⟨k, program, next_tasks_keep h hprog hrun, hmem⟩
  · simp only [not_forall, not_not] at hrun
    obtain ⟨fork, rfl⟩ := hrun
    cases program with
    | nil => cases hmem
    | cons head rest =>
      obtain ⟨op', t'⟩ := head
      rcases List.mem_cons.mp hmem with heq | hmem
      · cases heq
        exact Or.inr ⟨k, fork, rest, rfl, hprog⟩
      · -- a liveness check is never in front of the operation
        have hcheck : op' ≠ .inspect := by
          intro hinspect
          have hevicts := (inv k _ hprog).1 hinspect (op, t) hmem
          rw [hop] at hevicts
          cases hevicts
        have hrem : w.remaining op' t' rest = rest := by
          simp only [World.remaining, hcheck, false_and, if_false]
        have hne : w.remaining op' t' rest ≠ [] := by
          rw [hrem]
          exact List.ne_nil_of_mem hmem
        exact Or.inl ⟨k, _, lookup_task_self h hprog hne, hrem.symm ▸ hmem⟩

/-- An operation that is due was due, or has just been started. -/
theorem due_next (h : w.next a = some w') {op : Op} {t : Target} (hdue : Due w' op t) :
    Due w op t ∨ ∃ program, Starts w a program ∧ (op, t) ∈ program := by
  obtain ⟨k, program, hprog, hmem⟩ := hdue
  rcases next_tasks h hprog with ⟨hold, -⟩ | ⟨fork, op', t', rest, rfl, htask, rfl⟩ | hstart
  · exact Or.inl ⟨k, program, hold, hmem⟩
  · rcases w.remaining_eq op' t' rest with hrem | hrem
    · rw [hrem] at hmem
      cases hmem
    · rw [hrem] at hmem
      exact Or.inl ⟨k, _, htask, List.mem_cons_of_mem _ hmem⟩
  · exact Or.inr ⟨program, hstart, hmem⟩

section Running

variable {k fork : Nat} {t : Target} {rest : Program} (h : w.next (.task k fork) = some w')
include h

theorem due_forkDelete (htask : w.tasks.lookup k = some ((.forkDelete, t) :: rest)) :
    Due w' .callDelete t := by
  obtain ⟨-, -, rfl⟩ := next_task h htask
  exact ⟨fork, [(.callDelete, t)], AList.lookup_insert _, List.mem_singleton.mpr rfl⟩

theorem mem_deletes_callDelete (htask : w.tasks.lookup k = some ((.callDelete, t) :: rest)) :
    t ∈ w'.deletes := by
  obtain ⟨-, -, rfl⟩ := next_task h htask
  exact List.mem_cons_self

theorem mem_teardowns_callTeardown
    (htask : w.tasks.lookup k = some ((.callTeardown, t) :: rest)) : t ∈ w'.teardowns := by
  obtain ⟨-, -, rfl⟩ := next_task h htask
  exact List.mem_cons_self

/-- `record_reap` leaves the row of its container reaped. -/
theorem reaped_recordReap (htask : w.tasks.lookup k = some ((.recordReap, t) :: rest))
    {row : Worker} (hrow : w'.workers.lookup t.containerName = some row) : row.reaped = true := by
  obtain ⟨-, -, rfl⟩ := next_task h htask
  simp only [World.perform, World.updateWorker, World.keepTask] at hrow
  split at hrow
  next hnone => rw [hnone] at hrow; cases hrow
  next old hold =>
    rw [AList.lookup_insert] at hrow
    cases hrow
    rfl

theorem issued_forkTeardown (htask : w.tasks.lookup k = some ((.forkTeardown, t) :: rest)) :
    t.containerName ∈ w'.history.issued := by
  obtain ⟨-, -, rfl⟩ := next_task h htask
  exact List.mem_cons_self

theorem lookup_exitEntry (htask : w.tasks.lookup k = some ((.exitEntry, t) :: rest)) :
    w'.transportSessions.lookup t.mcpSessionId = none := by
  obtain ⟨-, -, rfl⟩ := next_task h htask
  exact AList.lookup_erase _ _

end Running

/-- The exit path of a delivered event has all its operations due. -/
theorem due_deliver {e : ContainerEvent} {k : Nat} {id : String} {t : TransportState}
    (h : w.next (.deliver e k) = some w') (hentry : w.entryOf e.name = some (id, t)) {op : Op}
    (hop : (op, t.target id) ∈ handleContainerExit (t.target id)) : Due w' op (t.target id) := by
  obtain ⟨-, -, rfl⟩ := next_deliver h
  have hentry' : { w with events := w.events.erase e }.entryOf e.name = some (id, t) := hentry
  refine ⟨k, handleContainerExit (t.target id), ?_, hop⟩
  simp only [World.exitEvent, hentry', AList.lookup_insert]

-- ════════════════════════════════════════════════════════════════════════
-- Returned spawns
-- ════════════════════════════════════════════════════════════════════════

/-- The spawn of the container has returned `Ok`. -/
def Returned (w : World) (c : String) : Prop :=
  ∃ saga, w.sagas.lookup c = some saga ∧ saga.stage = .returned

theorem returned_step {c : String} (hret : Returned w c) (h : w.next a = some w') :
    Returned w' c := by
  obtain ⟨saga, hsaga, hstage⟩ := hret
  -- no stage is left once the spawn has returned
  have hat : ∀ {i : Nat} {stage : SagaStage} {st : Stream} {old : Saga},
      w.atStage i stage = some (c, st, old) → stage = .returned := by
    intro i stage st old hat
    obtain ⟨-, -, hold, heq⟩ := World.atStage_eq_some hat
    rw [hsaga] at hold
    cases hold
    rw [← heq, hstage]
  have hkeep : ∀ {old new : Saga}, w.sagas.lookup c = some old → new.stage = old.stage →
      new.stage = .returned := by
    intro old new hold heq
    rw [hsaga] at hold
    cases hold
    rw [heq, hstage]
  rcases next_saga h c with hsame | ⟨new, hnew, hmove⟩
  · exact ⟨saga, hsame ▸ hsaga, hstage⟩
  · refine ⟨new, hnew, ?_⟩
    cases hmove with
    | spawn hfresh => rw [hsaga] at hfresh; cases hfresh
    | launchOk hstage' | launchErr hstage' | probeOk hstage' | probeErr hstage' | postOk hstage'
    | postErr hstage' | recordSpawn hstage' | spawnOk hstage' => cases hat hstage'
    | runLaunch hold | failLaunch hold | runPost hold | failPost hold =>
      exact hkeep hold rfl

/-- The containers the broker holds come from spawns that returned `Ok`. -/
structure HoldsReturned (w : World) : Prop where
  pending : ∀ i p, w.pendingInit.lookup i = some p → Returned w p.containerName
  installed : ∀ c ∈ w.history.installed, Returned w c

theorem holdsReturned_step (named : SagasNamed w) (inv : HoldsReturned w)
    (h : w.next a = some w') : HoldsReturned w' where
  pending i p hp := by
    have hold : w.pendingInit.lookup i = some p → Returned w' p.containerName :=
      fun hp => returned_step (inv.pending i p hp) h
    rcases next_pending h with hsame | ⟨j, c, st, saga, rfl, hat, hins⟩ | ⟨j, -, heras⟩
    · exact hold (hsame ▸ hp)
    · rw [hins, FiniteMap.lookup_insert_ite] at hp
      split at hp
      next =>
        cases hp
        obtain ⟨-, -, hsaga, -⟩ := World.atStage_eq_some hat
        have hname : saga.pending.containerName = c := (named c saga hsaga).1
        simp only [World.next, hat, Option.some.injEq] at h
        subst h
        rw [hname]
        exact ⟨_, AList.lookup_insert _, rfl⟩
      next => exact hold hp
    · rw [heras, FiniteMap.lookup_erase_ite] at hp
      split at hp
      next => cases hp
      next => exact hold hp
  installed c hc := by
    rcases next_installed h hc with hold | ⟨i, td, id, p, -, -, hp, rfl, -⟩
    · exact returned_step (inv.installed c hold) h
    · exact returned_step (inv.pending i p hp) h

end Botwork.SessionBroker
