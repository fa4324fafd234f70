import Botwork.SessionBroker.Parties

/-!
# Refused spawns

A spawn that returns `Err` should leave no container, no staging mount and no
record behind.  It compensates a failed probe and a failed gate with a launcher
teardown, but a failed launch with nothing and a failed POST with no DELETE, and
each call may still take effect after the broker has given up on it.
`refusal_leaves_nothing` proves the property of every run in which a call that
is given up on has failed at its callee and no compensating teardown is lost.

## Main definitions

- `Completed` — every call, event and DELETE of a spawn has been processed
- `RefusalsClean` — refused spawns leave nothing behind
- `RefusalGuard` — the steps that leave nothing behind
-/

namespace Botwork.SessionBroker

open Botwork.Foundations Botwork.ControlPlane

variable {w w' : World} {a : Action}

-- ════════════════════════════════════════════════════════════════════════
-- The property
-- ════════════════════════════════════════════════════════════════════════

/-- Every remote call for the container has been processed, and every exit event
    and DELETE that followed. -/
structure Completed (w : World) (c : String) : Prop where
  calls : ∀ saga, w.sagas.lookup c = some saga → saga.launch ≠ .inFlight ∧ saga.post ≠ .inFlight
  paths : ∀ op t, Due w op t → t.containerName ≠ c
  teardowns : ∀ t ∈ w.teardowns, t.containerName ≠ c
  deletes : ∀ t ∈ w.deletes, t.containerName ≠ c
  events : ∀ e ∈ w.events, e.name ≠ c

/-- The container does not run, its staging directory is not mounted and
    control-plane holds no record of it. -/
structure Clean (w : World) (c : String) : Prop where
  docker : ∀ k, w.docker.lookup c = some k → k.phase ≠ .running ∧ k.mounted = false
  record : w.records.get c = none

/-- A refused spawn leaves nothing behind. -/
def RefusalsClean (w : World) : Prop :=
  ∀ c saga, w.sagas.lookup c = some saga → saga.stage = .refused → Completed w c → Clean w c

-- ════════════════════════════════════════════════════════════════════════
-- The guard
-- ════════════════════════════════════════════════════════════════════════

/-- The launch has failed at the launcher and left nothing. -/
def LaunchFailed (w : World) : Option (String × Stream × Saga) → Prop
  | some (c, _, saga) => saga.launch = .failed ∧ w.docker.lookup c = none
  | none => True

/-- The POST has failed at control-plane. -/
def PostFailed : Option (String × Stream × Saga) → Prop
  | some (_, _, saga) => saga.post = .failed
  | none => True

/-- The steps that leave nothing behind. -/
def RefusalGuard (w : World) : Action → Prop
  | .launchErr i => LaunchFailed w (w.atStage i .launching)
  | .postErr i _ => PostFailed (w.atStage i .posting)
  | .dropTeardown t => ∀ saga ∈ w.sagas.lookup t.containerName, saga.stage ≠ .refused
  | _ => True

instance (w : World) : (at' : Option (String × Stream × Saga)) → Decidable (LaunchFailed w at')
  | some (c, _, saga) =>
    inferInstanceAs (Decidable (saga.launch = .failed ∧ w.docker.lookup c = none))
  | none => isTrue trivial

instance : (at' : Option (String × Stream × Saga)) → Decidable (PostFailed at')
  | some (_, _, saga) => inferInstanceAs (Decidable (saga.post = .failed))
  | none => isTrue trivial

instance (w : World) (a : Action) : Decidable (RefusalGuard w a) :=
  match a with
  | .launchErr i => inferInstanceAs (Decidable (LaunchFailed w (w.atStage i .launching)))
  | .postErr i _ => inferInstanceAs (Decidable (PostFailed (w.atStage i .posting)))
  | .dropTeardown t =>
    inferInstanceAs (Decidable (∀ saga ∈ w.sagas.lookup t.containerName, saga.stage ≠ .refused))
  | .openStream _ | .closeStream _ | .spawn _ _ | .launchOk _ | .probeOk _ | .probeErr _ _
  | .postOk _ | .recordSpawn _ | .spawnOk _ | .requestDelete _ _ | .responseHeaders _ _ _
  | .tornDown _ | .observe _ | .backfill _ | .evictDead _ _ | .evictTenant _ _ | .reap _ _
  | .task _ _ | .deliver _ _ | .runLaunch _ _ | .failLaunch _ _ | .runTeardown _ | .runPost _
  | .failPost _ | .runDelete _ | .crash _ | .autoRemove _ | .clock => isTrue trivial

-- ════════════════════════════════════════════════════════════════════════
-- What a stage says about the calls
-- ════════════════════════════════════════════════════════════════════════

/-- How far the two calls of a spawn are at each stage. -/
structure Saga.Consistent (saga : Saga) : Prop where
  launching : saga.stage = .launching → saga.post = .unsent
  probing : saga.stage = .probing → saga.launch = .succeeded ∧ saga.post = .unsent
  posting : saga.stage = .posting → saga.launch = .succeeded
  refused : saga.stage = .refused →
    saga.launch ≠ .inFlight ∧ (saga.post = .unsent ∨ saga.post = .failed)

/-- Every saga is consistent. -/
def SagasConsistent (w : World) : Prop :=
  ∀ c saga, w.sagas.lookup c = some saga → saga.Consistent

theorem SagaMove.consistent {c : String} {saga : Saga} (inv : SagasConsistent w)
    (hguard : RefusalGuard w a) (hmove : SagaMove w c a saga) : saga.Consistent := by
  have hold : ∀ {i : Nat} {stage : SagaStage} {st : Stream} {old : Saga},
      w.atStage i stage = some (c, st, old) → old.Consistent ∧ old.stage = stage := by
    intro i stage st old hat
    obtain ⟨-, -, hold, hstage⟩ := World.atStage_eq_some hat
    exact ⟨inv c old hold, hstage⟩
  cases hmove with
  | spawn => constructor <;> simp
  | launchOk hat hok =>
    obtain ⟨hcons, hstage⟩ := hold hat
    constructor <;> simp [hok, hcons.launching hstage]
  | @launchErr i st old hat =>
    obtain ⟨hcons, hstage⟩ := hold hat
    have hfailed : LaunchFailed w (some (c, st, old)) := hat ▸ hguard
    constructor <;> simp [hfailed.1, hcons.launching hstage]
  | probeOk hat =>
    obtain ⟨hcons, hstage⟩ := hold hat
    constructor <;> simp [hcons.probing hstage]
  | probeErr hat =>
    obtain ⟨hcons, hstage⟩ := hold hat
    constructor <;> simp [hcons.probing hstage]
  | @postErr i k st old hat =>
    obtain ⟨hcons, hstage⟩ := hold hat
    have hfailed : PostFailed (some (c, st, old)) := hat ▸ hguard
    have hpost : old.post = .failed := hfailed
    constructor <;> simp [hpost, hcons.posting hstage]
  | postOk | recordSpawn | spawnOk => constructor <;> simp
  | @runLaunch ip old hsaga hlaunch =>
    have hcons := inv c old hsaga
    refine ⟨hcons.launching, fun h => ⟨rfl, (hcons.probing h).2⟩, fun _ => rfl, fun h => ?_⟩
    exact absurd hlaunch (hcons.refused h).1
  | @failLaunch left old hsaga hlaunch =>
    have hcons := inv c old hsaga
    refine ⟨hcons.launching, fun h => ?_, fun h => ?_, fun h => ?_⟩
    · have hok := (hcons.probing h).1
      rw [hlaunch] at hok
      cases hok
    · have hok := hcons.posting h
      rw [hlaunch] at hok
      cases hok
    · exact absurd hlaunch (hcons.refused h).1
  | @runPost old hsaga hpost | @failPost old hsaga hpost =>
    have hcons := inv c old hsaga
    refine ⟨fun h => ?_, fun h => ?_, hcons.posting, fun h => ?_⟩
    · have hunsent := hcons.launching h
      rw [hpost] at hunsent
      cases hunsent
    · have hunsent := (hcons.probing h).2
      rw [hpost] at hunsent
      cases hunsent
    · have hunsent := (hcons.refused h).2
      rw [hpost] at hunsent
      rcases hunsent with hunsent | hunsent <;> cases hunsent

theorem sagasConsistent_step (inv : SagasConsistent w) (hguard : RefusalGuard w a)
    (h : w.next a = some w') : SagasConsistent w' := by
  intro c saga hsaga
  rcases next_saga h c with hsame | ⟨new, hnew, hmove⟩
  · exact inv c saga (hsame ▸ hsaga)
  · rw [hsaga] at hnew
    cases hnew
    exact hmove.consistent inv hguard

-- ════════════════════════════════════════════════════════════════════════
-- Records
-- ════════════════════════════════════════════════════════════════════════

/-- Control-plane has accepted the POST of the container. -/
def Posted (w : World) (c : String) : Prop :=
  ∃ saga, w.sagas.lookup c = some saga ∧ saga.post = .succeeded

theorem posted_step {c : String} (inv : SagasConsistent w) (hposted : Posted w c)
    (h : w.next a = some w') : Posted w' c := by
  obtain ⟨saga, hsaga, hpost⟩ := hposted
  have hsame : ∀ {old : Saga}, w.sagas.lookup c = some old → old = saga := by
    intro old hold
    rw [hsaga] at hold
    exact (Option.some.inj hold).symm
  rcases next_saga h c with hkeep | ⟨new, hnew, hmove⟩
  · exact ⟨saga, hkeep ▸ hsaga, hpost⟩
  · refine ⟨new, hnew, ?_⟩
    cases hmove with
    | spawn hfresh => rw [hsaga] at hfresh; cases hfresh
    | launchOk hat | launchErr hat | probeErr hat | postOk hat | postErr hat | recordSpawn hat
    | spawnOk hat => rwa [← hsame (World.atStage_eq_some hat).2.2.1] at hpost
    | probeOk hat =>
      obtain ⟨-, -, hold, hstage⟩ := World.atStage_eq_some hat
      rw [← hsame hold, ((inv c _ hold).probing hstage).2] at hpost
      cases hpost
    | runLaunch hold | failLaunch hold => rwa [← hsame hold] at hpost
    | runPost => rfl
    | failPost hold hflight =>
      rw [← hsame hold, hflight] at hpost
      cases hpost

theorem posted_runPost {c : String} (h : w.next (.runPost c) = some w') : Posted w' c := by
  simp only [World.next] at h
  split at h
  next saga hsaga =>
    split at h
    next => cases h; exact ⟨_, AList.lookup_insert _, rfl⟩
    next => cases h
  next => cases h

/-- The container of every record has been announced. -/
def RecordsPosted (w : World) : Prop := ∀ c, w.records.get c ≠ none → Posted w c

theorem recordsPosted_step (named : SagasNamed w) (consistent : SagasConsistent w)
    (inv : RecordsPosted w) (h : w.next a = some w') : RecordsPosted w' := by
  intro c hrec
  have hold : w.records.get c ≠ none → Posted w' c :=
    fun hrec => posted_step consistent (inv c hrec) h
  rcases next_records h with hsame | ⟨d, saga, rfl, hsaga, hpost, hset⟩ | ⟨t, -, -, hunset⟩
  · exact hold (hsame ▸ hrec)
  · rw [hset, SessionTable.get_set] at hrec
    split at hrec
    next heq =>
      have hname : saga.pending.record.sessionId = d := (named d saga hsaga).1
      rw [heq, hname]
      exact posted_runPost h
    next => exact hold hrec
  · apply hold
    rw [hunset] at hrec
    split at hrec
    next =>
      rw [SessionTable.get_unset] at hrec
      split at hrec
      next => exact absurd rfl hrec
      next => exact hrec
    next => exact hrec

-- ════════════════════════════════════════════════════════════════════════
-- Containers
-- ════════════════════════════════════════════════════════════════════════

/-- A teardown of the container is due or in flight. -/
def TeardownDue (w : World) (c : String) : Prop :=
  ∃ t : Target, t.containerName = c ∧ (Due w .callTeardown t ∨ t ∈ w.teardowns)

/-- A teardown that is due stops its container, unless its call is lost. -/
theorem teardownDue_step (ordered : TasksOrdered w) (h : w.next a = some w') {c : String}
    (hdue : TeardownDue w c) (hdrop : ∀ t : Target, t.containerName = c → a ≠ .dropTeardown t) :
    TeardownDue w' c ∨ Stopped w' c := by
  obtain ⟨t, rfl, hcall | hmem⟩ := hdue
  · rcases due_step ordered h hcall rfl with hdue | ⟨k, fork, rest, rfl, htask⟩
    · exact Or.inl ⟨t, rfl, Or.inl hdue⟩
    · exact Or.inl ⟨t, rfl, Or.inr (mem_teardowns_callTeardown h htask)⟩
  · rcases next_teardowns_keep h hmem with hmem | rfl | rfl
    · exact Or.inl ⟨t, rfl, Or.inr hmem⟩
    · exact Or.inr (stopped_runTeardown h)
    · exact absurd rfl (hdrop t rfl)

/-- A stopped container stays stopped once its launch is over. -/
theorem stopped_step {c : String} (h : w.next a = some w') (hstopped : Stopped w c)
    (hlaunch : ∀ saga, w.sagas.lookup c = some saga → saga.launch ≠ .inFlight) :
    Stopped w' c := by
  rcases next_docker h c with hsame | ⟨k, hk, hmove⟩
  · rw [Stopped, hsame]
    exact hstopped
  · cases hmove with
    | launch hsaga hflight | leave hsaga hflight => exact absurd hflight (hlaunch _ hsaga)
    | teardown => exact Or.inr hk
    | crash hrun => rcases hstopped with hnone | hgone <;> simp_all
    | autoRemove hexit => rcases hstopped with hnone | hgone <;> simp_all

/-- The container of a refused spawn is stopped, or its teardown is due. -/
def RefusedStopped (w : World) : Prop :=
  ∀ c saga, w.sagas.lookup c = some saga → saga.stage = .refused → Stopped w c ∨ TeardownDue w c

theorem due_teardownUnannounced {i k : Nat} {c : String} {st : Stream} {saga : Saga}
    (hprobe : w.next (.probeErr i k) = some w' ∧ w.atStage i .probing = some (c, st, saga) ∨
      w.next (.postErr i k) = some w' ∧ w.atStage i .posting = some (c, st, saga)) :
    Due w' .callTeardown saga.pending.target := by
  rcases hprobe with ⟨h, hat⟩ | ⟨h, hat⟩
  all_goals
    simp only [World.next, hat, Option.ite_none_right_eq_some, Option.some.injEq] at h
    obtain ⟨-, rfl⟩ := h
    exact ⟨k, _, AList.lookup_insert _, List.mem_singleton.mpr rfl⟩

theorem refusedStopped_step (named : SagasNamed w) (ordered : TasksOrdered w)
    (consistent : SagasConsistent w) (inv : RefusedStopped w) (hguard : RefusalGuard w a)
    (h : w.next a = some w') : RefusedStopped w' := by
  intro c saga hsaga hrefused
  rcases next_saga h c with hsame | ⟨new, hnew, hmove⟩
  · rw [hsame] at hsaga
    have hover : ∀ old, w.sagas.lookup c = some old → old.launch ≠ .inFlight := by
      intro old hold
      rw [hsaga] at hold
      cases hold
      exact ((consistent c saga hsaga).refused hrefused).1
    rcases inv c saga hsaga hrefused with hstopped | hdue
    · exact Or.inl (stopped_step h hstopped hover)
    · refine (teardownDue_step ordered h hdue ?_).symm
      rintro t rfl rfl
      exact hguard saga hsaga hrefused
  · rw [hsaga] at hnew
    cases hnew
    cases hmove with
    | spawn | launchOk | probeOk | postOk | recordSpawn | spawnOk => cases hrefused
    | @launchErr i st old hat =>
      have hfailed : LaunchFailed w (some (c, st, old)) := hat ▸ hguard
      rcases next_docker h c with hsame | ⟨k, -, hdocker⟩
      · exact Or.inl (Or.inl (hsame ▸ hfailed.2))
      · cases hdocker
    | @probeErr i k st old hat =>
      have hname := (named c old (World.atStage_eq_some hat).2.2.1).1
      exact Or.inr ⟨old.pending.target, hname,
        Or.inl (due_teardownUnannounced (Or.inl ⟨h, hat⟩))⟩
    | @postErr i k st old hat =>
      have hname := (named c old (World.atStage_eq_some hat).2.2.1).1
      exact Or.inr ⟨old.pending.target, hname,
        Or.inl (due_teardownUnannounced (Or.inr ⟨h, hat⟩))⟩
    | @runLaunch ip old hold hflight | @failLaunch left old hold hflight =>
      exact absurd hflight ((consistent c old hold).refused hrefused).1
    | @runPost old hold hflight | @failPost old hold hflight =>
      have hpost := ((consistent c old hold).refused hrefused).2
      rw [hflight] at hpost
      rcases hpost with hpost | hpost <;> cases hpost

-- ════════════════════════════════════════════════════════════════════════
-- The invariant
-- ════════════════════════════════════════════════════════════════════════

/-- The invariant of guarded runs. -/
structure RefusalInv (w : World) : Prop where
  named : SagasNamed w
  ordered : TasksOrdered w
  consistent : SagasConsistent w
  posted : RecordsPosted w
  stopped : RefusedStopped w

theorem refusalInv_init : RefusalInv World.init where
  named c saga h := by simp [World.init] at h
  ordered k program h := by simp [World.init] at h
  consistent c saga h := by simp [World.init] at h
  posted c h := by simp [World.init] at h
  stopped c saga h := by simp [World.init] at h

theorem refusalInv_step (inv : RefusalInv w) (hguard : RefusalGuard w a)
    (h : w.next a = some w') : RefusalInv w' where
  named := sagasNamed_step inv.named h
  ordered := tasksOrdered_step inv.ordered h
  consistent := sagasConsistent_step inv.consistent hguard h
  posted := recordsPosted_step inv.named inv.consistent inv.posted h
  stopped := refusedStopped_step inv.named inv.ordered inv.consistent inv.stopped hguard h

/-- A refused spawn has no record. -/
theorem record_eq_none_of_refused {c : String} {saga : Saga} (consistent : SagasConsistent w)
    (posted : RecordsPosted w) (hsaga : w.sagas.lookup c = some saga)
    (hrefused : saga.stage = .refused) : w.records.get c = none := by
  by_contra hrec
  obtain ⟨saga', hsaga', hpost⟩ := posted c hrec
  rw [hsaga] at hsaga'
  cases hsaga'
  rcases ((consistent c saga hsaga).refused hrefused).2 with hunsent | hfailed
  · rw [hunsent] at hpost
    cases hpost
  · rw [hfailed] at hpost
    cases hpost

theorem RefusalInv.clean (inv : RefusalInv w) {c : String} {saga : Saga}
    (hsaga : w.sagas.lookup c = some saga) (hrefused : saga.stage = .refused)
    (hdone : Completed w c) : Clean w c where
  docker k hk := by
    rcases inv.stopped c saga hsaga hrefused with (hnone | hgone) | ⟨t, hname, hcall | hmem⟩
    · rw [hnone] at hk
      cases hk
    · rw [hgone] at hk
      cases hk
      exact ⟨by simp, rfl⟩
    · exact absurd hname (hdone.paths _ t hcall)
    · exact absurd hname (hdone.teardowns t hmem)
  record := record_eq_none_of_refused inv.consistent inv.posted hsaga hrefused

/-- **Refused spawns**: in every run in which calls that are given up on have
    failed and no compensation is lost, a refused spawn leaves nothing behind. -/
theorem refusal_leaves_nothing (hreach : broker.ReachableUnder RefusalGuard w) :
    RefusalsClean w := by
  have inv : RefusalInv w := hreach.invariant (fun _ hstart => hstart ▸ refusalInv_init)
    fun _ _ _ inv hguard hnext => refusalInv_step inv hguard hnext
  exact fun _ _ hsaga hrefused hdone => inv.clean hsaga hrefused hdone

-- ════════════════════════════════════════════════════════════════════════
-- Runs
-- ════════════════════════════════════════════════════════════════════════

/-- The spawn of the sample container was refused, and nothing is in flight. -/
private def refusalDelivered (w : World) : Bool :=
  (w.sagas.lookup sampleContainer).any (fun saga =>
      saga.stage = .refused ∧ saga.launch ≠ .inFlight ∧ saga.post ≠ .inFlight) &&
    (w.tasks.isEmpty && (w.teardowns.isEmpty && (w.deletes.isEmpty && w.events.isEmpty)))

private theorem completed_of_refusalDelivered (h : refusalDelivered w = true) :
    ∃ saga, w.sagas.lookup sampleContainer = some saga ∧ saga.stage = .refused ∧
      Completed w sampleContainer := by
  simp only [refusalDelivered, Bool.and_eq_true, List.isEmpty_iff] at h
  obtain ⟨hsaga, htasks, hteardowns, hdeletes, hevents⟩ := h
  obtain ⟨saga, hsaga, hstage⟩ := (Option.any_eq_true _ _).mp hsaga
  obtain ⟨hrefused, hcalls⟩ := of_decide_eq_true hstage
  refine ⟨saga, hsaga, hrefused, ⟨?_, ?_, by simp [hteardowns], by simp [hdeletes],
    by simp [hevents]⟩⟩
  · intro saga' hsaga'
    rw [hsaga] at hsaga'
    cases hsaga'
    exact hcalls
  · rintro op t ⟨k, program, hprog, -⟩
    rw [FiniteMap.lookup_of_isEmpty htasks] at hprog
    cases hprog

/-- What a teardown of the unannounced sample container captures. -/
private def unannouncedTarget : Target :=
  ⟨"", sampleContainer, stagingPath "acme" "00000000000a"⟩

/-- The gate refuses the POST, and the container is torn down. -/
private def gateRun : List Action :=
  [.openStream 0, .spawn 0 sampleSpawn, .runLaunch sampleContainer ⟨10, 0, 0, 7⟩, .launchOk 0,
    .probeOk 0, .failPost sampleContainer, .postErr 0 0, .task 0 1,
    .runTeardown unannouncedTarget, .deliver ⟨sampleContainer, .die⟩ 0,
    .deliver ⟨sampleContainer, .destroy⟩ 0]

theorem refusal_gate_run :
    ∃ w saga, w.sagas.lookup sampleContainer = some saga ∧ saga.stage = .refused ∧
      Completed w sampleContainer ∧ Clean w sampleContainer := by
  have hexec : (broker.execUnder RefusalGuard World.init gateRun).any refusalDelivered = true := by
    decide +kernel
  obtain ⟨w, hrun, hw⟩ := Machine.exists_run_of_execUnder _ hexec
  obtain ⟨saga, hsaga, hrefused, hdone⟩ := completed_of_refusalDelivered hw
  have hclean := refusal_leaves_nothing ⟨World.init, rfl, hrun⟩
  exact ⟨w, saga, hsaga, hrefused, hdone, hclean _ saga hsaga hrefused hdone⟩

/-- The broker gives up on the launch; the launcher completes it afterwards. -/
private def lateLaunchRun : List Action :=
  [.openStream 0, .spawn 0 sampleSpawn, .launchErr 0, .runLaunch sampleContainer ⟨10, 0, 0, 7⟩]

theorem late_launch_keeps_running : ¬ ∀ w, broker.Reachable w → RefusalsClean w := by
  intro hclaim
  have hexec : (broker.execUnder (fun _ _ => True) World.init lateLaunchRun).any (fun w =>
      refusalDelivered w &&
        decide (w.docker.lookup sampleContainer = some ⟨.running, true⟩)) = true := by
    decide +kernel
  obtain ⟨w, hrun, hw⟩ := Machine.exists_run_of_execUnder _ hexec
  rw [Bool.and_eq_true, decide_eq_true_eq] at hw
  obtain ⟨saga, hsaga, hrefused, hdone⟩ := completed_of_refusalDelivered hw.1
  have hclean := hclaim w ⟨World.init, rfl, hrun⟩ _ saga hsaga hrefused hdone
  exact (hclean.docker _ hw.2).1 rfl

end Botwork.SessionBroker
