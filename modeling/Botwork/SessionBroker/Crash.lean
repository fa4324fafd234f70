import Botwork.SessionBroker.Deregistration
import Botwork.SessionBroker.Exits
import Botwork.SessionBroker.Holding
import Botwork.SessionBroker.Refusal

/-!
# Crashed containers

A container that exits on its own should be cleaned up everywhere.  The exit
path finds it only while it is installed and reports it unknown otherwise, so
the exit events of a container that dies earlier are lost; and the DELETE it
sends names the `Mcp-Session-Id`.  `crash_cleanup` proves the property of every
run in which the last exit event of a crashed container is not lost and the exit
path finds it under its own name.

## Main definitions

- `CallsSucceed` — no remote call fails
- `Delivered` — every stream has ended and every message has been processed
- `CrashesCleanedUp` — crashed containers are cleaned up
- `CrashGuard` — the steps that lose no crash
-/

namespace Botwork.SessionBroker

open Botwork.Foundations Botwork.ControlPlane

variable {w w' : World} {a : Action}

-- ════════════════════════════════════════════════════════════════════════
-- The property
-- ════════════════════════════════════════════════════════════════════════

/-- No remote call fails or is given up on. -/
def CallsSucceed : Action → Prop
  | .launchErr _ | .failLaunch _ _ | .postErr _ _ | .failPost _ | .dropTeardown _ => False
  | _ => True

/-- Every stream has ended, and all messages and exit events have been delivered. -/
structure Delivered (w : World) : Prop where
  streams : ∀ i, w.streams.lookup i = none
  tasks : ∀ k, w.tasks.lookup k = none
  teardowns : w.teardowns = []
  deletes : w.deletes = []
  events : w.events = []
  docker : ∀ c k, w.docker.lookup c = some k → k.phase ≠ .exited

/-- The container is cleaned up everywhere. -/
structure CleanedUp (w : World) (c : String) : Prop where
  entry : ∀ id t, w.transportSessions.lookup id = some t → t.containerName ≠ c
  pending : ∀ i p, w.pendingInit.lookup i = some p → p.containerName ≠ c
  worker : ∀ row, w.workers.lookup c = some row → row.reaped = true
  issued : c ∈ w.history.issued
  record : w.records.get c = none

/-- Once everything is delivered, every crashed container is cleaned up. -/
def CrashesCleanedUp (w : World) : Prop :=
  Delivered w → ∀ c ∈ w.history.crashed, CleanedUp w c

-- ════════════════════════════════════════════════════════════════════════
-- The guard
-- ════════════════════════════════════════════════════════════════════════

/-- The spawn of the container has passed the probe and was not refused. -/
def SagaStage.passed : SagaStage → Bool
  | .launching | .probing | .refused => false
  | .posting | .recording | .returning | .returned => true

/-- An exit event finds its container under its own name, or is not the one that
    counts: an earlier event found it, a later event will come, or the spawn has
    not passed the probe. -/
def ExitSeen (w : World) (e : ContainerEvent) : Option (String × TransportState) → Prop
  | some (id, _) => id = e.name
  | none => e.name ∈ w.history.handled ∨ ExitToCome w (w.events.erase e) e.name ∨
      (w.sagas.lookup e.name).all (fun saga => !saga.stage.passed) = true

/-- A probe that succeeds on a crashed container comes before its last exit event. -/
def ProbeInTime (w : World) : Option (String × Stream × Saga) → Prop
  | some (c, _, _) => c ∈ w.history.crashed → ExitToCome w w.events c
  | none => True

/-- The steps that lose no crash. -/
def CrashGuard (w : World) : Action → Prop
  | .deliver e _ => e.name ∈ w.history.crashed → ExitSeen w e (w.entryOf e.name)
  | .probeOk i => ProbeInTime w (w.atStage i .probing)
  | _ => True

instance : (a : Action) → Decidable (CallsSucceed a)
  | .launchErr _ | .failLaunch _ _ | .postErr _ _ | .failPost _ | .dropTeardown _ => isFalse id
  | .openStream _ | .closeStream _ | .spawn _ _ | .launchOk _ | .probeOk _ | .probeErr _ _
  | .postOk _ | .recordSpawn _ | .spawnOk _ | .requestDelete _ _ | .responseHeaders _ _ _
  | .tornDown _ | .observe _ | .backfill _ | .evictDead _ _ | .evictTenant _ _ | .reap _ _
  | .task _ _ | .deliver _ _ | .runLaunch _ _ | .runTeardown _ | .runPost _ | .runDelete _
  | .crash _ | .autoRemove _ | .clock => isTrue trivial

instance (w : World) (e : ContainerEvent) :
    (entry : Option (String × TransportState)) → Decidable (ExitSeen w e entry)
  | some (id, _) => inferInstanceAs (Decidable (id = e.name))
  | none => inferInstanceAs (Decidable (e.name ∈ w.history.handled ∨
      ExitToCome w (w.events.erase e) e.name ∨
      (w.sagas.lookup e.name).all (fun saga => !saga.stage.passed) = true))

instance (w : World) : (at' : Option (String × Stream × Saga)) → Decidable (ProbeInTime w at')
  | some (c, _, _) =>
    inferInstanceAs (Decidable (c ∈ w.history.crashed → ExitToCome w w.events c))
  | none => isTrue trivial

instance (w : World) (a : Action) : Decidable (CrashGuard w a) :=
  match a with
  | .deliver e _ =>
    inferInstanceAs (Decidable (e.name ∈ w.history.crashed → ExitSeen w e (w.entryOf e.name)))
  | .probeOk i => inferInstanceAs (Decidable (ProbeInTime w (w.atStage i .probing)))
  | .openStream _ | .closeStream _ | .spawn _ _ | .launchOk _ | .launchErr _ | .probeErr _ _
  | .postOk _ | .postErr _ _ | .recordSpawn _ | .spawnOk _ | .requestDelete _ _
  | .responseHeaders _ _ _ | .tornDown _ | .observe _ | .backfill _ | .evictDead _ _
  | .evictTenant _ _ | .reap _ _ | .task _ _ | .runLaunch _ _ | .failLaunch _ _ | .runTeardown _
  | .dropTeardown _ | .runPost _ | .failPost _ | .runDelete _ | .crash _ | .autoRemove _
  | .clock => isTrue trivial

theorem CallsSucceed.refusal (h : CallsSucceed a) : RefusalGuard w a := by
  cases a with
  | launchErr | postErr | dropTeardown => exact h.elim
  | _ => trivial

theorem CallsSucceed.ne_failLaunch (h : CallsSucceed a) {c : String} (k : Option Container) :
    a ≠ .failLaunch c k := by
  rintro rfl
  exact h

-- ════════════════════════════════════════════════════════════════════════
-- The exit of a crashed container is seen
-- ════════════════════════════════════════════════════════════════════════

/-- The spawn of the container has passed the probe and was not refused. -/
def Passed (w : World) (c : String) : Prop :=
  ∃ saga, w.sagas.lookup c = some saga ∧ saga.stage.passed = true

/-- A spawn passes the probe by a successful probe. -/
theorem passed_cases (h : w.next a = some w') {c : String} (hpassed : Passed w' c) :
    Passed w c ∨ ∃ i st saga, a = .probeOk i ∧ w.atStage i .probing = some (c, st, saga) := by
  obtain ⟨saga, hsaga, hstage⟩ := hpassed
  have hat : ∀ {i : Nat} {stage : SagaStage} {st : Stream} {old : Saga},
      w.atStage i stage = some (c, st, old) → stage.passed = true → Passed w c := by
    intro i stage st old hat hpassed
    obtain ⟨-, -, hold, heq⟩ := World.atStage_eq_some hat
    exact ⟨old, hold, heq ▸ hpassed⟩
  rcases next_saga h c with hsame | ⟨new, hnew, hmove⟩
  · exact Or.inl ⟨saga, hsame ▸ hsaga, hstage⟩
  · rw [hsaga] at hnew
    cases hnew
    cases hmove with
    | spawn | launchOk | launchErr | probeErr | postErr => cases hstage
    | probeOk hprobe => exact Or.inr ⟨_, _, _, rfl, hprobe⟩
    | postOk hpost | recordSpawn hpost | spawnOk hpost => exact Or.inl (hat hpost rfl)
    | runLaunch hold | failLaunch hold | runPost hold | failPost hold =>
      exact Or.inl ⟨_, hold, hstage⟩

/-- Once the spawn of a crashed container has passed the probe, an exit event is
    still to come or the exit path has found the container. -/
def CrashSeen (w : World) : Prop :=
  ∀ c ∈ w.history.crashed, Passed w c → ExitToCome w w.events c ∨ c ∈ w.history.handled

/-- The event that is delivered does not lose a crashed container. -/
theorem crashSeen_deliver {e : ContainerEvent} {k : Nat} (hguard : CrashGuard w (.deliver e k))
    (h : w.next (.deliver e k) = some w') (hc : e.name ∈ w.history.crashed)
    (hpassed : Passed w e.name) :
    ExitToCome w' w'.events e.name ∨ e.name ∈ w'.history.handled := by
  have hseen : ExitSeen w e (w.entryOf e.name) := hguard hc
  cases hentry : w.entryOf e.name with
  | some found => exact Or.inr (handled_deliver h (by rw [hentry]; rfl))
  | none =>
    rw [hentry] at hseen
    rcases hseen with hhandled | hcome | hearly
    · exact Or.inr ((next_history h).handled _ hhandled)
    · obtain ⟨-, -, rfl⟩ := next_deliver h
      exact Or.inl hcome
    · obtain ⟨saga, hsaga, hstage⟩ := hpassed
      rw [hsaga] at hearly
      simp only [Option.all_some, Bool.not_eq_true'] at hearly
      rw [hearly] at hstage
      cases hstage

theorem crashSeen_step (inv : CrashSeen w) (hcalls : CallsSucceed a) (hguard : CrashGuard w a)
    (h : w.next a = some w') : CrashSeen w' := by
  intro c hc hpassed
  have hcome : ExitToCome w w.events c → (∀ e k, a = .deliver e k → e.name ≠ c) →
      ExitToCome w' w'.events c ∨ c ∈ w'.history.handled := by
    intro hcome hne
    rcases exitToCome_step h (fun k => hcalls.ne_failLaunch k) hcome with hcome | ⟨e, k, ha, hname⟩
    · exact Or.inl hcome
    · exact absurd hname (hne e k ha)
  rcases next_crashed h hc with hold | ⟨-, hdie⟩
  · rcases passed_cases h hpassed with hpassed | ⟨i, st, saga, rfl, hat⟩
    · by_cases hdeliver : ∃ e k, a = .deliver e k ∧ e.name = c
      · obtain ⟨e, k, rfl, rfl⟩ := hdeliver
        exact crashSeen_deliver hguard h hold hpassed
      · rcases inv c hold hpassed with hcome' | hhandled
        · exact hcome hcome' fun e k ha hname => hdeliver ⟨e, k, ha, hname⟩
        · exact Or.inr ((next_history h).handled c hhandled)
    · have hprobe : ProbeInTime w (some (c, st, saga)) := hat ▸ hguard
      exact hcome (hprobe hold) fun e k ha _ => by cases ha
  · exact Or.inl (Or.inl ⟨_, hdie, rfl⟩)

-- ════════════════════════════════════════════════════════════════════════
-- Refused spawns and worker rows
-- ════════════════════════════════════════════════════════════════════════

/-- The launcher teardown of a refused spawn was issued. -/
def RefusedIssued (w : World) : Prop :=
  ∀ c saga, w.sagas.lookup c = some saga → saga.stage = .refused → c ∈ w.history.issued

theorem refusedIssued_step (named : SagasNamed w) (inv : RefusedIssued w)
    (hcalls : CallsSucceed a) (h : w.next a = some w') : RefusedIssued w' := by
  intro c saga hsaga hrefused
  have hmono := (next_history h).issued c
  rcases next_saga h c with hsame | ⟨new, hnew, hmove⟩
  · exact hmono (inv c saga (hsame ▸ hsaga) hrefused)
  · rw [hsaga] at hnew
    cases hnew
    cases hmove with
    | spawn | launchOk | probeOk | postOk | recordSpawn | spawnOk => cases hrefused
    | launchErr | postErr => exact hcalls.elim
    | @probeErr i k st old hat =>
      have hname : old.pending.containerName = c :=
        (named c old (World.atStage_eq_some hat).2.2.1).1
      simp only [World.next, hat, Option.ite_none_right_eq_some, Option.some.injEq] at h
      obtain ⟨-, rfl⟩ := h
      exact hname ▸ List.mem_cons_self
    | @runLaunch ip old hold | @failLaunch left old hold | @runPost old hold
    | @failPost old hold => exact hmono (inv c old hold hrefused)

/-- The spawn of the container has written its `session_worker` row. -/
def Recorded (w : World) (c : String) : Prop :=
  ∃ saga, w.sagas.lookup c = some saga ∧ (saga.stage = .returning ∨ saga.stage = .returned)

theorem recorded_step {c : String} (hrec : Recorded w c) (h : w.next a = some w') :
    Recorded w' c := by
  obtain ⟨saga, hsaga, hstage⟩ := hrec
  have hsame : ∀ {old new : Saga}, w.sagas.lookup c = some old → new.stage = old.stage →
      new.stage = .returning ∨ new.stage = .returned := by
    intro old new hold heq
    rw [hsaga] at hold
    cases hold
    rwa [heq]
  rcases next_saga h c with hkeep | ⟨new, hnew, hmove⟩
  · exact ⟨saga, hkeep ▸ hsaga, hstage⟩
  · refine ⟨new, hnew, ?_⟩
    cases hmove with
    | spawn hfresh => rw [hsaga] at hfresh; cases hfresh
    | launchOk hat | launchErr hat | probeOk hat | probeErr hat | postOk hat | postErr hat =>
      obtain ⟨-, -, hold, hat⟩ := World.atStage_eq_some hat
      have hrec := hsame hold rfl
      rw [hat] at hrec
      rcases hrec with hrec | hrec <;> cases hrec
    | recordSpawn => exact Or.inl rfl
    | spawnOk => exact Or.inr rfl
    | @runLaunch ip old hold | @failLaunch left old hold | @runPost old hold
    | @failPost old hold => exact hsame hold rfl

/-- Worker rows belong to recorded spawns. -/
def WorkersRecorded (w : World) : Prop :=
  ∀ c row, w.workers.lookup c = some row → Recorded w c

theorem recorded_recordSpawn {i : Nat} {c : String} {st : Stream} {saga : Saga}
    (h : w.next (.recordSpawn i) = some w') (hat : w.atStage i .recording = some (c, st, saga)) :
    Recorded w' c := by
  simp only [World.next, hat, Option.some.injEq] at h
  subst h
  exact ⟨_, AList.lookup_insert _, Or.inl rfl⟩

theorem workersRecorded_step (inv : WorkersRecorded w) (h : w.next a = some w') :
    WorkersRecorded w' := by
  intro c row' hrow'
  rcases next_worker h hrow' with ⟨row, hrow, -⟩ | ⟨i, st, saga, rfl, hat⟩
  · exact recorded_step (inv c row hrow) h
  · exact recorded_recordSpawn h hat

-- ════════════════════════════════════════════════════════════════════════
-- What the exit path does
-- ════════════════════════════════════════════════════════════════════════

/-- The exit path has found the container: everything it does is done or due. -/
structure ExitHandled (w : World) (c : String) : Prop where
  installed : c ∈ w.history.installed
  entry : ∀ id t, w.transportSessions.lookup id = some t → t.containerName = c →
    ∃ tg : Target, tg.mcpSessionId = id ∧ Due w .exitEntry tg
  worker : (∀ row, w.workers.lookup c = some row → row.reaped = true) ∨
    ∃ tg : Target, tg.containerName = c ∧ Due w .recordReap tg
  issued : c ∈ w.history.issued ∨ ∃ tg : Target, tg.containerName = c ∧ Due w .forkTeardown tg
  record : Deregistering w c

/-- The event that finds a container starts its exit path. -/
theorem exitHandled_deliver {e : ContainerEvent} {k : Nat} {t : TransportState}
    (held : HeldOnce w) (h : w.next (.deliver e k) = some w')
    (hentry : w.entryOf e.name = some (e.name, t)) : ExitHandled w' e.name := by
  obtain ⟨hlook, hname⟩ := World.entryOf_eq_some hentry
  have hdue : ∀ {op : Op},
      (op, t.target e.name) ∈ handleContainerExit (t.target e.name) →
        Due w' op (t.target e.name) := fun hop => due_deliver h hentry hop
  have hinst : e.name ∈ w.history.installed := hname ▸ held.entries e.name t hlook
  refine ⟨(next_history h).installed _ hinst, ?_, Or.inr ⟨t.target e.name, hname, hdue ?_⟩,
    Or.inr ⟨t.target e.name, hname, hdue ?_⟩, Or.inr ⟨t.target e.name, rfl, Or.inl (hdue ?_)⟩⟩
  · intro id t' ht' hname'
    rcases entry_cases held h ht' with hold | ⟨-, hnew, -⟩
    · have hid := held.unique e.name id t t' hlook hold (hname.trans hname'.symm)
      exact ⟨t.target e.name, hid, hdue (by simp [handleContainerExit])⟩
    · exact absurd (hname' ▸ hinst) hnew
  all_goals simp [handleContainerExit]

theorem ExitHandled.entry_step {c : String} (ordered : TasksOrdered w) (held : HeldOnce w)
    (inv : ExitHandled w c) (h : w.next a = some w') (id : String) (t : TransportState)
    (ht : w'.transportSessions.lookup id = some t) (hname : t.containerName = c) :
    ∃ tg : Target, tg.mcpSessionId = id ∧ Due w' .exitEntry tg := by
  rcases entry_cases held h ht with hold | ⟨-, hnew, -⟩
  · obtain ⟨tg, rfl, hdue⟩ := inv.entry id t hold hname
    rcases due_step ordered h hdue rfl with hdue | ⟨k, fork, rest, rfl, htask⟩
    · exact ⟨tg, rfl, hdue⟩
    · rw [lookup_exitEntry h htask] at ht
      cases ht
  · exact absurd (hname ▸ inv.installed) hnew

theorem ExitHandled.worker_step {c : String} (ordered : TasksOrdered w) (holds : HoldsReturned w)
    (inv : ExitHandled w c) (h : w.next a = some w') :
    (∀ row, w'.workers.lookup c = some row → row.reaped = true) ∨
      ∃ tg : Target, tg.containerName = c ∧ Due w' .recordReap tg := by
  rcases inv.worker with hreaped | ⟨tg, rfl, hdue⟩
  · refine Or.inl fun row' hrow' => ?_
    rcases next_worker h hrow' with ⟨row, hrow, hkeep⟩ | ⟨i, st, saga, rfl, hat⟩
    · exact hkeep (hreaped row hrow)
    · -- the spawn has returned, so its row has been written before
      obtain ⟨old, hold, hstage⟩ := holds.installed c inv.installed
      obtain ⟨-, -, hsaga, hrecording⟩ := World.atStage_eq_some hat
      rw [hsaga] at hold
      cases hold
      rw [hrecording] at hstage
      cases hstage
  · rcases due_step ordered h hdue rfl with hdue | ⟨k, fork, rest, rfl, htask⟩
    · exact Or.inr ⟨tg, rfl, hdue⟩
    · exact Or.inl fun row hrow => reaped_recordReap h htask hrow

theorem ExitHandled.issued_step {c : String} (ordered : TasksOrdered w) (inv : ExitHandled w c)
    (h : w.next a = some w') :
    c ∈ w'.history.issued ∨ ∃ tg : Target, tg.containerName = c ∧ Due w' .forkTeardown tg := by
  rcases inv.issued with hissued | ⟨tg, rfl, hdue⟩
  · exact Or.inl ((next_history h).issued c hissued)
  · rcases due_step ordered h hdue rfl with hdue | ⟨k, fork, rest, rfl, htask⟩
    · exact Or.inr ⟨tg, rfl, hdue⟩
    · exact Or.inl (issued_forkTeardown h htask)

-- ════════════════════════════════════════════════════════════════════════
-- The invariant
-- ════════════════════════════════════════════════════════════════════════

/-- The invariant of guarded runs. -/
structure CrashInv (w : World) : Prop where
  named : SagasNamed w
  announced : Announced w
  ordered : TasksOrdered w
  consistent : SagasConsistent w
  posted : RecordsPosted w
  holds : HoldsReturned w
  held : HeldOnce w
  pendingOpen : PendingOpen w
  spawningOpen : SpawningOpen w
  exits : ExitInv w
  seen : CrashSeen w
  refused : RefusedIssued w
  workers : WorkersRecorded w
  handled : ∀ c ∈ w.history.crashed, c ∈ w.history.handled → ExitHandled w c

theorem crashInv_init : CrashInv World.init where
  named c saga h := by simp [World.init] at h
  announced c saga h := by simp [World.init] at h
  ordered k program h := by simp [World.init] at h
  consistent c saga h := by simp [World.init] at h
  posted c h := by simp [World.init] at h
  holds := ⟨by simp [World.init], by simp [World.init]⟩
  held := heldOnce_init
  pendingOpen i p h := by simp [World.init] at h
  spawningOpen c saga h := by simp [World.init] at h
  exits := exitInv_init
  seen c h := by simp [World.init] at h
  refused c saga h := by simp [World.init] at h
  workers c row h := by simp [World.init] at h
  handled c h := by simp [World.init] at h

theorem exitHandled_step (inv : CrashInv w) (hguard : CrashGuard w a) (h : w.next a = some w')
    (c : String) (hc : c ∈ w'.history.crashed) (hhandled : c ∈ w'.history.handled) :
    ExitHandled w' c := by
  rcases next_handled h hhandled with hold | ⟨e, k, id, t, rfl, rfl, hentry⟩
  · rcases next_crashed h hc with hcrashed | ⟨⟨mounted, hrun⟩, -⟩
    · have hexit := inv.handled c hcrashed hold
      exact ⟨(next_history h).installed c hexit.installed,
        hexit.entry_step inv.ordered inv.held h, hexit.worker_step inv.ordered inv.holds h,
        hexit.issued_step inv.ordered h,
        deregistering_step inv.named inv.announced inv.ordered h
          (inv.holds.installed c hexit.installed) hexit.record⟩
    · -- a container that was found has exited before
      exact absurd hrun ((inv.exits.handled c hold).2 mounted)
  · rw [crashed_deliver h] at hc
    have hseen : ExitSeen w e (some (id, t)) := hentry ▸ hguard hc
    obtain rfl : id = e.name := hseen
    exact exitHandled_deliver inv.held h hentry

theorem crashInv_step (inv : CrashInv w) (hcalls : CallsSucceed a) (hguard : CrashGuard w a)
    (h : w.next a = some w') : CrashInv w' where
  named := sagasNamed_step inv.named h
  announced := announced_step inv.announced h
  ordered := tasksOrdered_step inv.ordered h
  consistent := sagasConsistent_step inv.consistent hcalls.refusal h
  posted := recordsPosted_step inv.named inv.consistent inv.posted h
  holds := holdsReturned_step inv.named inv.holds h
  held := heldOnce_step inv.named inv.holds inv.held h
  pendingOpen := pendingOpen_step inv.pendingOpen h
  spawningOpen := spawningOpen_step inv.spawningOpen h
  exits := exitInv_step inv.exits h
  seen := crashSeen_step inv.seen hcalls hguard h
  refused := refusedIssued_step inv.named inv.refused hcalls h
  workers := workersRecorded_step inv.workers h
  handled := exitHandled_step inv hguard h

/-- A refused spawn has no entry and no worker row. -/
theorem CrashInv.cleanedUp_of_refused (inv : CrashInv w) (hdone : Delivered w) {c : String}
    {saga : Saga} (hsaga : w.sagas.lookup c = some saga) (hrefused : saga.stage = .refused) :
    CleanedUp w c where
  entry id t ht hname := by
    obtain ⟨old, hold, hstage⟩ := inv.holds.installed _ (inv.held.entries id t ht)
    rw [hname, hsaga] at hold
    cases hold
    rw [hrefused] at hstage
    cases hstage
  pending i p hp := by
    have hopen := inv.pendingOpen i p hp
    rw [hdone.streams i] at hopen
    cases hopen
  worker row hrow := by
    obtain ⟨old, hold, hstage⟩ := inv.workers c row hrow
    rw [hsaga] at hold
    cases hold
    rw [hrefused] at hstage
    rcases hstage with hstage | hstage <;> cases hstage
  issued := inv.refused c saga hsaga hrefused
  record := record_eq_none_of_refused inv.consistent inv.posted hsaga hrefused

/-- Once everything is delivered, nothing the exit path does is due any more. -/
theorem CrashInv.cleanedUp_of_handled (inv : CrashInv w) (hdone : Delivered w) {c : String}
    (hexit : ExitHandled w c) : CleanedUp w c := by
  have hdue : ∀ {op : Op} {t : Target}, ¬ Due w op t := by
    rintro op t ⟨k, program, hprog, -⟩
    rw [hdone.tasks k] at hprog
    cases hprog
  refine ⟨?_, ?_, ?_, ?_, ?_⟩
  · intro id t ht hname
    obtain ⟨tg, -, hexitEntry⟩ := hexit.entry id t ht hname
    exact hdue hexitEntry
  · intro i p hp
    have hopen := inv.pendingOpen i p hp
    rw [hdone.streams i] at hopen
    cases hopen
  · rcases hexit.worker with hreaped | ⟨tg, -, hreap⟩
    · exact hreaped
    · exact absurd hreap hdue
  · rcases hexit.issued with hissued | ⟨tg, -, hfork⟩
    · exact hissued
    · exact absurd hfork hdue
  · rcases hexit.record with hnone | ⟨t, -, hfork | hcall | hmem⟩
    · exact hnone
    · exact absurd hfork hdue
    · exact absurd hcall hdue
    · rw [hdone.deletes] at hmem
      cases hmem

theorem CrashInv.cleanedUp (inv : CrashInv w) (hdone : Delivered w) {c : String}
    (hc : c ∈ w.history.crashed) : CleanedUp w c := by
  obtain ⟨⟨saga, hsaga, -⟩, hnotRunning⟩ := inv.exits.crashed c hc
  by_cases hrefused : saga.stage = .refused
  · exact inv.cleanedUp_of_refused hdone hsaga hrefused
  · by_cases hreturned : saga.stage = .returned
    · have hpassed : Passed w c := ⟨saga, hsaga, by rw [hreturned]; rfl⟩
      rcases inv.seen c hc hpassed with (⟨e, he, -⟩ | hdocker) | hhandled
      · rw [hdone.events] at he
        cases he
      · -- a crashed container does not run, and docker has removed it
        obtain ⟨⟨phase, mounted⟩, hk, hphase⟩ := (Option.any_eq_true _ _).mp hdocker
        cases phase with
        | running => exact absurd hk (hnotRunning mounted)
        | exited => exact absurd rfl (hdone.docker c _ hk)
        | removed => simp at hphase
      · exact inv.cleanedUp_of_handled hdone (inv.handled c hc hhandled)
    · obtain ⟨i, td, hst⟩ := inv.spawningOpen c saga hsaga hreturned hrefused
      rw [hdone.streams i] at hst
      cases hst

/-- The remote calls succeed and no crash is lost. -/
def CrashRunGuard (w : World) (a : Action) : Prop := CallsSucceed a ∧ CrashGuard w a

instance (w : World) (a : Action) : Decidable (CrashRunGuard w a) :=
  inferInstanceAs (Decidable (CallsSucceed a ∧ CrashGuard w a))

/-- **Crashed containers**: in every run in which the remote calls succeed and no
    crash is lost, every crashed container is cleaned up. -/
theorem crash_cleanup (hreach : broker.ReachableUnder CrashRunGuard w) : CrashesCleanedUp w := by
  have inv : CrashInv w := hreach.invariant (fun _ hstart => hstart ▸ crashInv_init)
    fun _ _ _ inv hguard hnext => crashInv_step inv hguard.1 hguard.2 hnext
  exact fun hdone _ hc => inv.cleanedUp hdone hc

-- ════════════════════════════════════════════════════════════════════════
-- Runs
-- ════════════════════════════════════════════════════════════════════════

/-- The sample container has crashed and everything is delivered. -/
private def crashDelivered (w : World) : Bool :=
  decide (sampleContainer ∈ w.history.crashed) && (w.streams.isEmpty && (w.tasks.isEmpty &&
    (w.teardowns.isEmpty && (w.deletes.isEmpty && (w.events.isEmpty &&
      w.docker.all fun _ k => k.phase ≠ .exited)))))

private theorem delivered_of_crashDelivered (h : crashDelivered w = true) :
    sampleContainer ∈ w.history.crashed ∧ Delivered w := by
  simp only [crashDelivered, Bool.and_eq_true, decide_eq_true_eq, List.isEmpty_iff] at h
  obtain ⟨hc, hstreams, htasks, hteardowns, hdeletes, hevents, hdocker⟩ := h
  refine ⟨hc, ⟨FiniteMap.lookup_of_isEmpty hstreams, FiniteMap.lookup_of_isEmpty htasks,
    hteardowns, hdeletes, hevents, fun c k hk => ?_⟩⟩
  exact of_decide_eq_true ((FiniteMap.all_eq_true_iff _ _).mp hdocker c k hk)

/-- The sample container crashes after its plugin has answered with its name. -/
private def installedCrashRun : List Action :=
  spawnRun ++ [.responseHeaders 0 0 (some sampleContainer), .observe 0, .backfill 0,
    .closeStream 0, .crash sampleContainer, .deliver ⟨sampleContainer, .die⟩ 0, .task 0 1,
    .task 0 1, .task 0 1, .task 0 1, .task 0 2, .task 1 3, .task 2 3,
    .runTeardown ⟨sampleContainer, sampleContainer, stagingPath "acme" "00000000000a"⟩,
    .runDelete ⟨sampleContainer, sampleContainer, stagingPath "acme" "00000000000a"⟩,
    .deliver ⟨sampleContainer, .destroy⟩ 3]

theorem crash_cleanup_installed_run :
    ∃ w, Delivered w ∧ sampleContainer ∈ w.history.crashed ∧ CleanedUp w sampleContainer := by
  have hexec : (broker.execUnder CrashRunGuard World.init installedCrashRun).any
      crashDelivered = true := by decide +kernel
  obtain ⟨w, hrun, hw⟩ := Machine.exists_run_of_execUnder _ hexec
  obtain ⟨hc, hdone⟩ := delivered_of_crashDelivered hw
  have hclean := crash_cleanup ⟨World.init, rfl, hrun⟩
  exact ⟨w, hdone, hc, hclean hdone _ hc⟩

/-- The sample container crashes before its plugin has answered: both exit
    events are unknown, and nothing cleans up after it. -/
private def pendingCrashRun : List Action :=
  spawnRun ++ [.crash sampleContainer, .deliver ⟨sampleContainer, .die⟩ 0,
    .autoRemove sampleContainer, .deliver ⟨sampleContainer, .destroy⟩ 0,
    .responseHeaders 0 0 none, .observe 0, .closeStream 0]

theorem crash_before_install_is_lost :
    ¬ ∀ w, broker.ReachableUnder (fun _ a => CallsSucceed a) w → CrashesCleanedUp w := by
  intro hclaim
  have hexec : (broker.execUnder (fun _ a => CallsSucceed a) World.init pendingCrashRun).any
      (fun w => crashDelivered w && (w.records.get sampleContainer).isSome) = true := by
    decide +kernel
  obtain ⟨w, hrun, hw⟩ := Machine.exists_run_of_execUnder _ hexec
  rw [Bool.and_eq_true] at hw
  obtain ⟨hc, hdone⟩ := delivered_of_crashDelivered hw.1
  have hnone := (hclaim w ⟨World.init, rfl, hrun⟩ hdone _ hc).record
  rw [hnone] at hw
  cases hw.2

end Botwork.SessionBroker
