import Botwork.SessionBroker.Steps

/-!
# Ownership of containers

Every container whose spawn returned `Ok` should be held by the broker (pending
on an open stream, or installed) until a launcher teardown is issued for it or
its exit is reported.  The broker drops containers when a stream ends or answers
without a session id while its container is pending, and when an insert or a
removal hits an entry of another container; `ownership` proves the property of
every run whose steps meet `OwnershipGuard`.

## Main definitions

- `Owned` — who holds a container
- `NoLoss` — every container that was returned is owned
- `OwnershipGuard` — the steps that drop no container
- `Ready` — a program removes an entry only after it has accounted for it
-/

namespace Botwork.SessionBroker

open Botwork.Foundations Botwork.ControlPlane

variable {w w' : World} {a : Action}

-- ════════════════════════════════════════════════════════════════════════
-- The property
-- ════════════════════════════════════════════════════════════════════════

/-- A launcher teardown was issued for the container, or its exit was reported. -/
def Accounted (w : World) (c : String) : Prop :=
  c ∈ w.history.issued ∨ c ∈ w.history.reported

/-- The container is pending on an open stream, installed, or accounted for. -/
def Owned (w : World) (c : String) : Prop :=
  (∃ i p, w.pendingInit.lookup i = some p ∧ p.containerName = c ∧
      (w.streams.lookup i).isSome = true) ∨
    (∃ id t, w.transportSessions.lookup id = some t ∧ t.containerName = c) ∨ Accounted w c

/-- No container whose `spawn_new_container` returned `Ok` is lost. -/
def NoLoss (w : World) : Prop :=
  ∀ c saga, w.sagas.lookup c = some saga → saga.stage = .returned → Owned w c

-- ════════════════════════════════════════════════════════════════════════
-- The guard
-- ════════════════════════════════════════════════════════════════════════

/-- The entry under this session id, if any, belongs to an accounted container. -/
def Replaceable (w : World) (mcpSessionId : String) : Prop :=
  ∀ t ∈ w.transportSessions.lookup mcpSessionId, Accounted w t.containerName

/-- A response that finds a pending container names a session id, and the entry
    under that id may be replaced. -/
def ObserveGuard (w : World) (i : Nat) : Option Stream → Prop
  | some ⟨.observing id, _⟩ =>
    w.pendingInit.lookup i = none ∨ ∃ mcpSessionId ∈ id, Replaceable w mcpSessionId
  | _ => True

/-- A path removes the entry of its own container, or one it may replace. -/
def RemoveGuard (w : World) : Option Program → Prop
  | some ((op, t) :: _) =>
    op.removes = true → (∀ e ∈ w.transportSessions.lookup t.mcpSessionId,
      e.containerName = t.containerName) ∨ Replaceable w t.mcpSessionId
  | _ => True

/-- The steps that drop no container. -/
def OwnershipGuard (w : World) : Action → Prop
  | .closeStream i | .spawnOk i => w.pendingInit.lookup i = none
  | .observe i => ObserveGuard w i (w.streams.lookup i)
  | .task k _ => RemoveGuard w (w.tasks.lookup k)
  | _ => True

instance (w : World) (c : String) : Decidable (Accounted w c) :=
  inferInstanceAs (Decidable (_ ∨ _))

instance (w : World) (id : String) : Decidable (Replaceable w id) :=
  inferInstanceAs (Decidable (∀ t ∈ w.transportSessions.lookup id, Accounted w t.containerName))

instance (w : World) (i : Nat) : (st : Option Stream) → Decidable (ObserveGuard w i st)
  | some ⟨.observing id, _⟩ =>
    inferInstanceAs (Decidable (w.pendingInit.lookup i = none ∨ ∃ m ∈ id, Replaceable w m))
  | none | some ⟨.idle, _⟩ | some ⟨.spawning _, _⟩ | some ⟨.tearingDown _ _, _⟩
  | some ⟨.backfilling _ _, _⟩ => isTrue trivial

instance (w : World) : (program : Option Program) → Decidable (RemoveGuard w program)
  | some ((op, t) :: _) =>
    inferInstanceAs (Decidable (op.removes = true → (∀ e ∈ w.transportSessions.lookup t.mcpSessionId,
      e.containerName = t.containerName) ∨ Replaceable w t.mcpSessionId))
  | none | some [] => isTrue trivial

instance (w : World) (a : Action) : Decidable (OwnershipGuard w a) :=
  match a with
  | .closeStream i | .spawnOk i => inferInstanceAs (Decidable (w.pendingInit.lookup i = none))
  | .observe i => inferInstanceAs (Decidable (ObserveGuard w i (w.streams.lookup i)))
  | .task k _ => inferInstanceAs (Decidable (RemoveGuard w (w.tasks.lookup k)))
  | .openStream _ | .spawn _ _ | .launchOk _ | .launchErr _ | .probeOk _ | .probeErr _ _
  | .postOk _ | .postErr _ _ | .recordSpawn _ | .requestDelete _ _ | .responseHeaders _ _ _
  | .tornDown _ | .backfill _ | .evictDead _ _ | .evictTenant _ _ | .reap _ _ | .deliver _ _
  | .runLaunch _ _ | .failLaunch _ _ | .runTeardown _ | .dropTeardown _ | .runPost _ | .failPost _
  | .runDelete _ | .crash _ | .autoRemove _ | .clock => isTrue trivial

-- ════════════════════════════════════════════════════════════════════════
-- Programs account before they remove
-- ════════════════════════════════════════════════════════════════════════

/-- When the program removes an entry, the teardown of its container has been
    issued (`teardown_session`) or its exit reported (`handle_container_exit`). -/
def Ready (issued reported : List String) : Program → Prop
  | [] => True
  | (op, t) :: rest =>
    (op = .removeEntry → t.containerName ∈ issued) ∧
      (op = .exitEntry → t.containerName ∈ reported) ∧
      Ready (if op = .callTeardown then t.containerName :: issued else issued) reported rest

theorem Ready.mono {program : Program} {issued reported issued' reported' : List String}
    (h : Ready issued reported program) (hissued : ∀ c ∈ issued, c ∈ issued')
    (hreported : ∀ c ∈ reported, c ∈ reported') : Ready issued' reported' program := by
  induction program generalizing issued issued' with
  | nil => trivial
  | cons head rest ih =>
    obtain ⟨op, t⟩ := head
    obtain ⟨hremove, hexit, hrest⟩ := h
    refine ⟨fun hop => hissued _ (hremove hop), fun hop => hreported _ (hexit hop), ih hrest ?_⟩
    intro c hc
    split at hc
    next hop =>
      rw [if_pos hop]
      rcases List.mem_cons.mp hc with rfl | hc
      · exact List.mem_cons_self
      · exact List.mem_cons_of_mem _ (hissued c hc)
    next hop =>
      rw [if_neg hop]
      exact hissued c hc

theorem Ready.append {p q : Program} {issued reported : List String}
    (hp : Ready issued reported p) (hq : Ready issued reported q) :
    Ready issued reported (p ++ q) := by
  induction p generalizing issued with
  | nil => exact hq
  | cons head rest ih =>
    obtain ⟨hremove, hexit, hrest⟩ := hp
    refine ⟨hremove, hexit, ih hrest (hq.mono ?_ fun _ => id)⟩
    intro c hc
    split
    next => exact List.mem_cons_of_mem _ hc
    next => exact hc

theorem ready_teardownSession (issued reported : List String) (t : Target) :
    Ready issued reported (teardownSession t) := by
  simp [teardownSession, Ready]

theorem ready_evictSession (issued reported : List String) (t : Target) :
    Ready issued reported (evictSession t) := by
  simp [evictSession, Ready]

theorem ready_evictSessions (issued reported : List String) (ts : List Target) :
    Ready issued reported (ts.flatMap evictSession) := by
  induction ts with
  | nil => trivial
  | cons t ts ih => exact (ready_evictSession issued reported t).append ih

theorem ready_handleContainerExit {issued reported : List String} {t : Target}
    (h : t.containerName ∈ reported) : Ready issued reported (handleContainerExit t) := by
  simp [handleContainerExit, Ready, h]

/-- Every program a step starts is ready in the world the step leaves. -/
theorem Starts.ready {program : Program} (hstart : Starts w a program)
    (h : w.next a = some w') : Ready w'.history.issued w'.history.reported program := by
  cases hstart with
  | teardown | reap => exact ready_teardownSession _ _ _
  | evictDead => simp [evictDeadSession, evictSession, Ready]
  | evictTenant => exact ready_evictSessions _ _ _
  | probeErr | postErr => simp [Ready]
  | evictEntry => simp [backgroundEvict, Ready]
  | forkTeardown => simp [Ready]
  | forkDelete => simp [Ready]
  | exit ht =>
    obtain ⟨-, -, rfl⟩ := next_deliver h
    apply ready_handleContainerExit
    have hname := (World.entryOf_eq_some ht).2
    exact List.mem_cons.mpr (Or.inl hname)

-- ════════════════════════════════════════════════════════════════════════
-- The invariant
-- ════════════════════════════════════════════════════════════════════════

/-- The invariant of guarded runs. -/
structure OwnInv (w : World) : Prop where
  named : SagasNamed w
  owned : NoLoss w
  ready : ∀ k program, w.tasks.lookup k = some program →
    Ready w.history.issued w.history.reported program

theorem ownInv_init : OwnInv World.init where
  named c saga h := by simp [World.init] at h
  owned c saga h := by simp [World.init] at h
  ready k program h := by simp [World.init] at h

theorem Accounted.mono {c : String} (h : Accounted w c) (hle : HistoryLe w.history w'.history) :
    Accounted w' c := h.imp (hle.issued c) (hle.reported c)

/-- Running `callTeardown` or `evictEntry` issues the teardown of the target. -/
theorem issued_of_task {k fork : Nat} {op : Op} {t : Target} {rest : Program}
    (h : w.next (.task k fork) = some w') (htask : w.tasks.lookup k = some ((op, t) :: rest))
    (hop : op = .callTeardown ∨ op = .evictEntry) : t.containerName ∈ w'.history.issued := by
  obtain ⟨-, -, rfl⟩ := next_task h htask
  rcases hop with rfl | rfl <;> exact List.mem_cons_self

/-- What a running operation leaves is ready again. -/
theorem Ready.rest {k fork : Nat} {op : Op} {t : Target} {rest : Program}
    (hready : Ready w.history.issued w.history.reported ((op, t) :: rest))
    (htask : w.tasks.lookup k = some ((op, t) :: rest)) (h : w.next (.task k fork) = some w') :
    Ready w'.history.issued w'.history.reported (w.remaining op t rest) := by
  have hle := next_history h
  rcases w.remaining_eq op t rest with hrem | hrem
  · rw [hrem]
    trivial
  · rw [hrem]
    refine hready.2.2.mono ?_ hle.reported
    intro c hc
    split at hc
    next hop =>
      rcases List.mem_cons.mp hc with rfl | hc
      · exact issued_of_task h htask (Or.inl hop)
      · exact hle.issued c hc
    next => exact hle.issued c hc

theorem ready_step (inv : OwnInv w) (h : w.next a = some w') (k : Nat) (program : Program)
    (hprog : w'.tasks.lookup k = some program) :
    Ready w'.history.issued w'.history.reported program := by
  have hle := next_history h
  rcases next_tasks h hprog with ⟨hold, -⟩ | ⟨fork, op, t, rest, rfl, htask, rfl⟩ | hstart
  · exact (inv.ready k program hold).mono hle.issued hle.reported
  · exact (inv.ready k _ htask).rest htask h
  · exact hstart.ready h

/-- A pending container stays pending until its response installs it. -/
theorem owned_of_pending {i : Nat} {p : PendingInit} (hguard : OwnershipGuard w a)
    (h : w.next a = some w') (hp : w.pendingInit.lookup i = some p)
    (hopen : (w.streams.lookup i).isSome = true) : Owned w' p.containerName := by
  have hnone : w.pendingInit.lookup i ≠ none := by rw [hp]; exact Option.some_ne_none p
  have hstay : w'.pendingInit.lookup i = some p → Owned w' p.containerName := by
    intro hp'
    refine Or.inl ⟨i, p, hp', rfl, next_stream_isSome h hopen ?_⟩
    rintro rfl
    exact hnone hguard
  rcases next_pending h with hsame | ⟨j, c, st, saga, rfl, -, hins⟩ | ⟨j, hj, heras⟩
  · exact hstay (hsame ▸ hp)
  · by_cases hij : i = j
    · subst hij
      exact absurd hguard hnone
    · exact hstay (by rw [hins, FiniteMap.lookup_insert_ite, if_neg hij]; exact hp)
  · by_cases hij : i = j
    · subst hij
      rcases hj with rfl | rfl
      · exact absurd hguard hnone
      · -- the guard makes the response name a session id
        obtain ⟨id, td, hst, rfl⟩ := next_observe h
        have hobs : ObserveGuard w i (some ⟨.observing id, td⟩) := hst ▸ hguard
        rcases hobs with hempty | ⟨m, hm, -⟩
        · exact absurd hempty hnone
        · obtain rfl : id = some m := hm
          refine Or.inr (Or.inl ⟨m, p.transport, ?_, rfl⟩)
          simp [World.observe, World.installation, hp, World.log, World.setPc]
    · exact hstay (by rw [heras, FiniteMap.lookup_erase_ite, if_neg hij]; exact hp)

/-- An installed container stays installed until it is accounted for. -/
theorem owned_of_installed {id : String} {t : TransportState} (inv : OwnInv w)
    (hguard : OwnershipGuard w a) (h : w.next a = some w')
    (ht : w.transportSessions.lookup id = some t) : Owned w' t.containerName := by
  have hle := next_history h
  have hstay : w'.transportSessions.lookup id = some t → Owned w' t.containerName :=
    fun ht' => Or.inr (Or.inl ⟨id, t, ht', rfl⟩)
  have hreplaced : Replaceable w id → Owned w' t.containerName :=
    fun hrep => Or.inr (Or.inr ((hrep t ht).mono hle))
  rcases next_transport h with hsame | ⟨i, td, m, p, rfl, hst, hp, hins⟩ |
    ⟨k, fork, op, target, rest, rfl, htask, hop, heras⟩
  · exact hstay (hsame ▸ ht)
  · by_cases hid : id = m
    · subst hid
      have hobs : ObserveGuard w i (some ⟨.observing (some id), td⟩) := hst ▸ hguard
      rcases hobs with hempty | ⟨m', hm', hrep⟩
      · rw [hp] at hempty; cases hempty
      · cases hm'
        exact hreplaced hrep
    · exact hstay (by rw [hins, FiniteMap.lookup_insert_ite, if_neg hid]; exact ht)
  · by_cases hid : id = target.mcpSessionId
    · subst hid
      have hrem : RemoveGuard w (some ((op, target) :: rest)) := htask ▸ hguard
      rcases hrem hop with hown | hrep
      · rw [hown t ht]
        have hready := inv.ready k _ htask
        -- the path has accounted for its own container
        cases op with
        | removeEntry => exact Or.inr (Or.inr (Or.inl (hle.issued _ (hready.1 rfl))))
        | exitEntry => exact Or.inr (Or.inr (Or.inr (hle.reported _ (hready.2.1 rfl))))
        | evictEntry => exact Or.inr (Or.inr (Or.inl (issued_of_task h htask (Or.inr rfl))))
        | _ => cases hop
      · exact hreplaced hrep
    · exact hstay (by rw [heras, FiniteMap.lookup_erase_ite, if_neg hid]; exact ht)

/-- Ownership passes from one holder to the next. -/
theorem Owned.step {c : String} (howned : Owned w c) (inv : OwnInv w)
    (hguard : OwnershipGuard w a) (h : w.next a = some w') : Owned w' c := by
  rcases howned with ⟨i, p, hp, rfl, hopen⟩ | ⟨id, t, ht, rfl⟩ | hacc
  · exact owned_of_pending hguard h hp hopen
  · exact owned_of_installed inv hguard h ht
  · exact Or.inr (Or.inr (hacc.mono (next_history h)))

/-- A spawn that returns `Ok` leaves its container pending on its own stream. -/
theorem owned_of_spawnOk {i : Nat} {c : String} {st : Stream} {saga : Saga} (inv : OwnInv w)
    (h : w.next (.spawnOk i) = some w') (hat : w.atStage i .returning = some (c, st, saga)) :
    Owned w' c := by
  simp only [World.next, hat, Option.some.injEq] at h
  subst h
  have hname : saga.pending.containerName = c :=
    (inv.named c saga (World.atStage_eq_some hat).2.2.1).1
  exact Or.inl ⟨i, saga.pending, by simp [World.setSaga, World.setPc], hname,
    by simp [World.setSaga, World.setPc]⟩

theorem noLoss_step (inv : OwnInv w) (hguard : OwnershipGuard w a) (h : w.next a = some w') :
    NoLoss w' := by
  intro c saga hsaga hstage
  rcases next_saga h c with hsame | ⟨saga', hsaga', hmove⟩
  · exact (inv.owned c saga (hsame ▸ hsaga) hstage).step inv hguard h
  · obtain rfl : saga' = saga := by rw [hsaga] at hsaga'; exact (Option.some.inj hsaga').symm
    cases hmove with
    | spawnOk hat => exact owned_of_spawnOk inv h hat
    | runLaunch hold | failLaunch hold | runPost hold | failPost hold =>
      exact (inv.owned c _ hold hstage).step inv hguard h
    | _ => cases hstage

theorem ownInv_step (inv : OwnInv w) (hguard : OwnershipGuard w a) (h : w.next a = some w') :
    OwnInv w' :=
  ⟨sagasNamed_step inv.named h, noLoss_step inv hguard h, ready_step inv h⟩

/-- **Ownership**: in every run whose steps drop no container, every container
    that was returned is pending, installed or accounted for. -/
theorem ownership (hreach : broker.ReachableUnder OwnershipGuard w) : NoLoss w := by
  have inv : OwnInv w := hreach.invariant (fun _ hstart => hstart ▸ ownInv_init)
    fun _ _ _ inv hguard hnext => ownInv_step inv hguard hnext
  exact inv.owned

-- ════════════════════════════════════════════════════════════════════════
-- Runs
-- ════════════════════════════════════════════════════════════════════════

/-- The spawn of the sample container has returned `Ok`. -/
private def sampleReturned (w : World) : Bool :=
  (w.sagas.lookup sampleContainer).any (·.stage = .returned)

private theorem exists_of_sampleReturned (h : sampleReturned w = true) :
    ∃ saga, w.sagas.lookup sampleContainer = some saga ∧ saga.stage = .returned := by
  obtain ⟨saga, hsaga, hstage⟩ := (Option.any_eq_true _ _).mp h
  exact ⟨saga, hsaga, of_decide_eq_true hstage⟩

/-- The container is installed, and a client DELETE tears it down. -/
private def deleteRun : List Action :=
  spawnRun ++ [.responseHeaders 0 0 (some "s1"), .observe 0, .backfill 0, .closeStream 0,
    .openStream 1, .requestDelete 1 "s1", .responseHeaders 1 0 none, .task 0 1, .task 0 1,
    .task 0 1, .task 0 1, .tornDown 1, .observe 1]

theorem ownership_delete_run :
    ∃ w, (∃ saga, w.sagas.lookup sampleContainer = some saga ∧ saga.stage = .returned) ∧
      w.transportSessions.isEmpty = true ∧ Owned w sampleContainer := by
  have hexec : (broker.execUnder OwnershipGuard World.init deleteRun).any (fun w =>
      sampleReturned w && w.transportSessions.isEmpty) = true := by decide +kernel
  obtain ⟨w, hrun, hw⟩ := Machine.exists_run_of_execUnder _ hexec
  rw [Bool.and_eq_true] at hw
  obtain ⟨saga, hsaga, hstage⟩ := exists_of_sampleReturned hw.1
  have hloss := ownership ⟨World.init, rfl, hrun⟩
  exact ⟨w, ⟨saga, hsaga, hstage⟩, hw.2, hloss _ saga hsaga hstage⟩

/-- The response to `initialize` carries no `Mcp-Session-Id`: the pending
    container is discarded and nobody holds it any more. -/
private def discardRun : List Action :=
  spawnRun ++ [.responseHeaders 0 0 none, .observe 0]

theorem response_without_session_id_loses_container :
    ¬ ∀ w, broker.Reachable w → NoLoss w := by
  intro hclaim
  have hexec : (broker.execUnder (fun _ _ => True) World.init discardRun).any (fun w =>
      sampleReturned w && (w.pendingInit.isEmpty && (w.transportSessions.isEmpty &&
        decide (¬ Accounted w sampleContainer)))) = true := by decide +kernel
  obtain ⟨w, hrun, hw⟩ := Machine.exists_run_of_execUnder _ hexec
  rw [Bool.and_eq_true, Bool.and_eq_true, Bool.and_eq_true, decide_eq_true_eq] at hw
  obtain ⟨hreturned, hpending, htransport, hacc⟩ := hw
  obtain ⟨saga, hsaga, hstage⟩ := exists_of_sampleReturned hreturned
  rcases hclaim w ⟨World.init, rfl, hrun⟩ _ saga hsaga hstage with
    ⟨i, p, hp, -⟩ | ⟨id, t, ht, -⟩ | h
  · rw [FiniteMap.lookup_of_isEmpty hpending] at hp
    cases hp
  · rw [FiniteMap.lookup_of_isEmpty htransport] at ht
    cases ht
  · exact hacc h

end Botwork.SessionBroker
