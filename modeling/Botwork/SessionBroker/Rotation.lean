import Botwork.SessionBroker.Isolation
import Botwork.SessionBroker.Parties

/-!
# Secret rotation

`evict_sessions_for_tenant` is what the api calls after it has changed a secret.
It takes down the sessions it finds in `transport_sessions`; a spawn fetches its
secrets long before its container enters that map.  The runs of the broker are
watched by a record of every eviction call: which secrets were already fetched
when it began, and whether it has returned.

The secrets of a spawn are fetched in its first step: no other party sees
anything of a spawn between its fetch and its launch.

## Main definitions

- `Eviction`, `Rotation` — the eviction calls of a run, beside the broker
- `rotating` — the broker, watched
- `RotationComplete` — no request reaches a container with older secrets

## Main results

- `rotation_complete` — when no spawn crosses an eviction
- `stale_spawn_survives_eviction` — one that does
-/

namespace Botwork.SessionBroker

open Botwork.Foundations

/-- A call of `evict_sessions_for_tenant`; `stale` are the containers whose
    secrets were fetched before it began. -/
structure Eviction where
  tenant : String
  stale : List String
  deriving DecidableEq

/-- The broker with its eviction calls: those that began, those that still run
    (by the task that runs them), and those that returned. -/
structure Rotation where
  world : World
  begun : List Eviction
  running : FiniteMap Nat Eviction
  returned : List Eviction

namespace Rotation

/-- The call that task `k` ran returns when the task is done. -/
def retire (r : Rotation) (k : Nat) : Rotation :=
  match r.running.lookup k with
  | some e =>
    if (r.world.tasks.lookup k).isNone then
      { r with running := r.running.erase k, returned := e :: r.returned }
    else r
  | none => r

/-- The record of one step of the broker into `w`. -/
def advance (r : Rotation) (w : World) : Action → Rotation
  | .evictTenant k tenant =>
    let e : Eviction := ⟨tenant, r.world.sagas.keys⟩
    { r with world := w, begun := e :: r.begun, running := r.running.insert k e }.retire k
  | .task k _ => { r with world := w }.retire k
  | _ => { r with world := w }

end Rotation

/-- The broker, watched for its eviction calls. -/
def rotating : Machine Rotation Action where
  Start r := r = ⟨World.init, [], ∅, []⟩
  next r a := (r.world.next a).map fun w => r.advance w a

variable {r r' : Rotation} {w w' : World} {a : Action}

/-- No entry of the evicted tenant has secrets older than the eviction. -/
def Cleared (w : World) (e : Eviction) : Prop :=
  ∀ id t, w.transportSessions.lookup id = some t → t.tenantName = e.tenant →
    t.containerName ∉ e.stale

/-- The entries of the evicted tenant with older secrets are still to be removed. -/
structure Clearing (w : World) (e : Eviction) (program : Program) : Prop where
  evicts : ∀ o ∈ program, o.1 ≠ .inspect
  ahead : ∀ id t, w.transportSessions.lookup id = some t → t.tenantName = e.tenant →
    t.containerName ∈ e.stale → ∃ tg, (.evictEntry, tg) ∈ program ∧ tg.mcpSessionId = id

theorem Clearing.cleared {e : Eviction} (h : Clearing w e []) : Cleared w e := by
  intro id t ht htenant hstale
  obtain ⟨tg, hmem, -⟩ := h.ahead id t ht htenant hstale
  cases hmem

/-- **Secret rotation is complete**: once an eviction has returned, a request
    that names a session is not routed to a container of its tenant whose secrets
    are older than the eviction, and no spawn that starts is such a container. -/
def RotationComplete (r : Rotation) : Prop :=
  ∀ e ∈ r.returned,
    (∀ (remote : Remote) (s : AppState) (stream : PerStreamState) (headers : List HeaderValue)
        (m : HeaderMutation) (clear : Bool), s.transportSessions = r.world.transportSessions →
      (stream.observe headers).mcpSessionId ≠ none →
      (handleRequestHeaders remote s stream headers).response = .requestHeaders ⟨some m, clear⟩ →
      ∃ id t, r.world.transportSessions.lookup id = some t ∧ RoutesTo m t ∧
        (t.tenantName = e.tenant → t.containerName ∉ e.stale)) ∧
    ∀ i s w', r.world.next (.spawn i s) = some w' → s.containerName ∉ e.stale

-- ════════════════════════════════════════════════════════════════════════
-- The condition
-- ════════════════════════════════════════════════════════════════════════

/-- Response headers install a container only when no eviction of its tenant has
    begun since its secrets were fetched. -/
def RotationGuard (r : Rotation) : Action → Prop
  | .observe i =>
    match r.world.streams.lookup i with
    | some ⟨.observing mcpSessionId, _⟩ =>
      ∀ p ∈ r.world.installation i mcpSessionId, ∀ e ∈ r.begun,
        p.2.tenantName = e.tenant → p.2.containerName ∉ e.stale
    | _ => True
  | _ => True

instance (r : Rotation) (a : Action) : Decidable (RotationGuard r a) := by
  unfold RotationGuard
  split
  · split <;> infer_instance
  · infer_instance

/-- An entry of the next world was there, or has just been installed. -/
theorem next_entry (h : w.next a = some w') {id : String} {t : TransportState}
    (ht : w'.transportSessions.lookup id = some t) :
    w.transportSessions.lookup id = some t ∨
      ∃ i td p, a = .observe i ∧ w.streams.lookup i = some ⟨.observing (some id), td⟩ ∧
        w.pendingInit.lookup i = some p ∧ t = p.transport := by
  rcases next_transport h with hsame | ⟨i, td, id', p, rfl, hst, hp, hins⟩ |
    ⟨k, fork, op, tg, rest, -, -, -, heras⟩
  · exact Or.inl (hsame ▸ ht)
  · rw [hins, FiniteMap.lookup_insert_ite] at ht
    split at ht
    next heq =>
      subst heq
      exact Or.inr ⟨i, td, p, rfl, hst, hp, (Option.some.inj ht).symm⟩
    next => exact Or.inl ht
  · rw [heras, FiniteMap.lookup_erase_ite] at ht
    split at ht
    next => cases ht
    next => exact Or.inl ht

/-- Under the condition, the stale entries of an eviction were there before. -/
theorem next_stale (hguard : RotationGuard r a) (h : r.world.next a = some w') {e : Eviction}
    (he : e ∈ r.begun) {id : String} {t : TransportState}
    (ht : w'.transportSessions.lookup id = some t) (htenant : t.tenantName = e.tenant)
    (hstale : t.containerName ∈ e.stale) : r.world.transportSessions.lookup id = some t := by
  rcases next_entry h ht with hold | ⟨i, td, p, rfl, hst, hp, rfl⟩
  · exact hold
  · simp only [RotationGuard, hst, World.installation, hp] at hguard
    exact absurd hstale (hguard (id, p) rfl e he htenant)

-- ════════════════════════════════════════════════════════════════════════
-- The invariant
-- ════════════════════════════════════════════════════════════════════════

structure RotationInv (r : Rotation) : Prop where
  begunRunning : ∀ k e, r.running.lookup k = some e → e ∈ r.begun
  begunReturned : ∀ e ∈ r.returned, e ∈ r.begun
  /-- what was fetched before an eviction is a spawn that has begun -/
  spawned : ∀ e ∈ r.begun, ∀ c ∈ e.stale, (r.world.sagas.lookup c).isSome = true
  clearing : ∀ k e, r.running.lookup k = some e →
    ∃ program, r.world.tasks.lookup k = some program ∧ Clearing r.world e program
  cleared : ∀ e ∈ r.returned, Cleared r.world e

theorem cleared_step (hguard : RotationGuard r a) (h : r.world.next a = some w') {e : Eviction}
    (he : e ∈ r.begun) (hcleared : Cleared r.world e) : Cleared w' e := by
  intro id t ht htenant hstale
  exact hcleared id t (next_stale hguard h he ht htenant hstale) htenant hstale

/-- Steps of others leave the program of an eviction as it is. -/
theorem Clearing.step {program : Program} (hguard : RotationGuard r a)
    (h : r.world.next a = some w') {e : Eviction} (he : e ∈ r.begun)
    (hclearing : Clearing r.world e program) : Clearing w' e program where
  evicts := hclearing.evicts
  ahead := by
    intro id t ht htenant hstale
    exact hclearing.ahead id t (next_stale hguard h he ht htenant hstale) htenant hstale

/-- One operation of the eviction itself: what is no longer ahead is removed. -/
theorem Clearing.run {k fork : Nat} {op : Op} {tg : Target} {rest : Program}
    (h : r.world.next (.task k fork) = some w') {e : Eviction} (he : e ∈ r.begun)
    (htask : r.world.tasks.lookup k = some ((op, tg) :: rest))
    (hclearing : Clearing r.world e ((op, tg) :: rest)) : Clearing w' e rest where
  evicts := fun o ho => hclearing.evicts o (List.mem_cons_of_mem _ ho)
  ahead := by
    intro id t ht htenant hstale
    have hguard : RotationGuard r (.task k fork) := trivial
    have hold := next_stale hguard h he ht htenant hstale
    obtain ⟨tg', hmem, hid⟩ := hclearing.ahead id t hold htenant hstale
    rcases List.mem_cons.mp hmem with heq | hrest
    · rw [Prod.mk.injEq] at heq
      obtain ⟨rfl, rfl⟩ := heq
      obtain ⟨-, -, rfl⟩ := next_task h htask
      have hgone : (r.world.transportSessions.erase tg'.mcpSessionId).lookup id = some t := ht
      rw [hid, AList.lookup_erase] at hgone
      cases hgone
    · exact ⟨tg', hrest, hid⟩

/-- A task whose last operation has run is gone. -/
theorem lookup_task_done {k fork : Nat} {op : Op} {t : Target} {rest : Program}
    (h : w.next (.task k fork) = some w') (htask : w.tasks.lookup k = some ((op, t) :: rest))
    (hdone : w.remaining op t rest = []) : w'.tasks.lookup k = none := by
  obtain ⟨-, hfork, rfl⟩ := next_task h htask
  have hkeep : (w.keepTask k (w.remaining op t rest)).tasks.lookup k = none := by
    simp only [World.keepTask, hdone, if_true, AList.lookup_erase]
  cases op
  case evictEntry | forkTeardown | forkDelete =>
    show AList.lookup k (AList.insert fork _ _) = _
    rw [FiniteMap.lookup_insert_ite, if_neg hfork.symm]
    exact hkeep
  all_goals exact hkeep

theorem World.remaining_of_ne {op : Op} (w : World) (t : Target) (rest : Program)
    (hop : op ≠ .inspect) : w.remaining op t rest = rest := if_neg fun h => hop h.1

/-- The snapshot of an eviction holds every entry of its tenant. -/
theorem clearing_evictTenant {k : Nat} {tenant : String}
    (h : w.next (.evictTenant k tenant) = some w') (stale : List String) :
    Clearing w' ⟨tenant, stale⟩ ((w.tenantTargets tenant).flatMap evictSession) where
  evicts := by
    intro o ho
    obtain ⟨tg, -, ho⟩ := List.mem_flatMap.mp ho
    simp only [evictSession, List.mem_cons, List.not_mem_nil, or_false] at ho
    rcases ho with rfl | rfl <;> simp
  ahead := by
    intro id t ht htenant _
    simp only [World.next] at h
    split at h
    next =>
      cases h
      refine ⟨t.target id, ?_, rfl⟩
      refine List.mem_flatMap.mpr ⟨t.target id, ?_, by simp [evictSession]⟩
      refine List.mem_map.mpr ⟨⟨id, t⟩, List.mem_filter.mpr ⟨?_, by simpa using htenant⟩, rfl⟩
      exact (FiniteMap.lookup_eq_some_iff _ _ _).mp ht
    next => cases h

/-- Spawns are never forgotten. -/
theorem next_saga_isSome (h : w.next a = some w') {c : String}
    (hc : (w.sagas.lookup c).isSome = true) : (w'.sagas.lookup c).isSome = true := by
  rcases next_saga h c with hsame | ⟨saga, hsaga, -⟩
  · rw [hsame]
    exact hc
  · rw [hsaga]
    rfl

/-- Returning a call keeps the invariant, when the call has nothing left to remove. -/
theorem retire_inv {k : Nat} (hrunning : ∀ j e, r.running.lookup j = some e → e ∈ r.begun)
    (hreturned : ∀ e ∈ r.returned, e ∈ r.begun)
    (hspawned : ∀ e ∈ r.begun, ∀ c ∈ e.stale, (r.world.sagas.lookup c).isSome = true)
    (hclearing : ∀ j e, r.running.lookup j = some e →
      (∃ program, r.world.tasks.lookup j = some program ∧ Clearing r.world e program) ∨
        (j = k ∧ r.world.tasks.lookup k = none ∧ Cleared r.world e))
    (hcleared : ∀ e ∈ r.returned, Cleared r.world e) : RotationInv (r.retire k) := by
  unfold Rotation.retire
  split
  next e hk =>
    split
    next hdone =>
      have hnone : r.world.tasks.lookup k = none := by simpa using hdone
      refine ⟨?_, ?_, hspawned, ?_, ?_⟩
      · intro j e' hj
        rw [FiniteMap.lookup_erase_ite] at hj
        split at hj
        next => cases hj
        next => exact hrunning j e' hj
      · intro e' he'
        rcases List.mem_cons.mp he' with rfl | he'
        · exact hrunning k _ hk
        · exact hreturned e' he'
      · intro j e' hj
        rw [FiniteMap.lookup_erase_ite] at hj
        split at hj
        next => cases hj
        next hne =>
          rcases hclearing j e' hj with hprog | ⟨heq, -⟩
          · exact hprog
          · exact absurd heq hne
      · intro e' he'
        rcases List.mem_cons.mp he' with rfl | he'
        · rcases hclearing k _ hk with ⟨program, htask, -⟩ | ⟨-, -, hclear⟩
          · rw [hnone] at htask
            cases htask
          · exact hclear
        · exact hcleared e' he'
    next hbusy =>
      refine ⟨hrunning, hreturned, hspawned, fun j e' hj => ?_, hcleared⟩
      rcases hclearing j e' hj with hprog | ⟨-, hnone, -⟩
      · exact hprog
      · rw [hnone] at hbusy
        exact absurd rfl hbusy
  next hnone =>
    refine ⟨hrunning, hreturned, hspawned, fun j e' hj => ?_, hcleared⟩
    rcases hclearing j e' hj with hprog | ⟨rfl, -⟩
    · exact hprog
    · rw [hnone] at hj
      cases hj

theorem rotationInv_init : RotationInv ⟨World.init, [], ∅, []⟩ where
  begunRunning := by intro k e hk; cases hk
  begunReturned := by intro e he; cases he
  spawned := by intro e he; cases he
  clearing := by intro k e hk; cases hk
  cleared := by intro e he; cases he

/-- A running eviction whose task does not run goes on as it was. -/
theorem RotationInv.clearing_of_idle (inv : RotationInv r) (hguard : RotationGuard r a)
    (h : r.world.next a = some w') {k : Nat} {e : Eviction} (hk : r.running.lookup k = some e)
    (hidle : ∀ fork, a ≠ .task k fork) :
    ∃ program, w'.tasks.lookup k = some program ∧ Clearing w' e program := by
  obtain ⟨program, htask, hclearing⟩ := inv.clearing k e hk
  exact ⟨program, next_tasks_keep h htask hidle, hclearing.step hguard h (inv.begunRunning k e hk)⟩

/-- A running eviction whose task runs has one operation less ahead of it. -/
theorem RotationInv.clearing_of_task (inv : RotationInv r) {k fork : Nat}
    (h : r.world.next (.task k fork) = some w') {e : Eviction} (hk : r.running.lookup k = some e) :
    (∃ program, w'.tasks.lookup k = some program ∧ Clearing w' e program) ∨
      (w'.tasks.lookup k = none ∧ Cleared w' e) := by
  have he := inv.begunRunning k e hk
  obtain ⟨program, htask, hclearing⟩ := inv.clearing k e hk
  obtain ⟨op, tg, rest, htask', -⟩ := World.runTask_eq_some h
  rw [htask] at htask'
  cases htask'
  have hrem := r.world.remaining_of_ne tg rest (hclearing.evicts _ List.mem_cons_self)
  have hrun := hclearing.run h he htask
  by_cases hdone : rest = []
  · subst hdone
    exact Or.inr ⟨lookup_task_done h htask hrem, hrun.cleared⟩
  · have hself := lookup_task_self h htask (by rw [hrem]; exact hdone)
    rw [hrem] at hself
    exact Or.inl ⟨rest, hself, hrun⟩

/-- The eviction that has just begun, with the others. -/
theorem RotationInv.clearing_of_evictTenant (inv : RotationInv r) {k : Nat} {tenant : String}
    (h : r.world.next (.evictTenant k tenant) = some w') {e : Eviction}
    (he : e = ⟨tenant, r.world.sagas.keys⟩) {j : Nat} {e' : Eviction}
    (hj : (r.running.insert k e).lookup j = some e') :
    (∃ program, w'.tasks.lookup j = some program ∧ Clearing w' e' program) ∨
      (j = k ∧ w'.tasks.lookup k = none ∧ Cleared w' e') := by
  rw [FiniteMap.lookup_insert_ite] at hj
  split at hj
  next heq =>
    subst heq
    cases hj
    subst he
    have hclearing := clearing_evictTenant h r.world.sagas.keys
    simp only [World.next] at h
    split at h
    next hfresh =>
      have htask : r.world.tasks.lookup j = none := by simpa [World.fresh] using hfresh
      cases h
      by_cases hnil : (r.world.tenantTargets tenant).flatMap evictSession = []
      · rw [hnil] at hclearing ⊢
        exact Or.inr ⟨rfl, by simp [World.keepTask], hclearing.cleared⟩
      · refine Or.inl ⟨_, ?_, hclearing⟩
        simp [World.keepTask, hnil]
    next => cases h
  next => exact Or.inl (inv.clearing_of_idle (a := .evictTenant k tenant) trivial h hj (by simp))

theorem rotationInv_step (inv : RotationInv r) (hguard : RotationGuard r a)
    (h : rotating.next r a = some r') : RotationInv r' := by
  obtain ⟨w', hnext, rfl⟩ := Option.map_eq_some_iff.mp h
  have hspawned : ∀ e ∈ r.begun, ∀ c ∈ e.stale, (w'.sagas.lookup c).isSome = true :=
    fun e he c hc => next_saga_isSome hnext (inv.spawned e he c hc)
  have hcleared : ∀ e ∈ r.returned, Cleared w' e :=
    fun e he => cleared_step hguard hnext (inv.begunReturned e he) (inv.cleared e he)
  cases a with
  | evictTenant k tenant =>
    refine retire_inv ?_ ?_ ?_ ?_ hcleared
    · intro j e hj
      rw [FiniteMap.lookup_insert_ite] at hj
      split at hj
      next => cases hj; exact List.mem_cons_self
      next => exact List.mem_cons_of_mem _ (inv.begunRunning j e hj)
    · exact fun e he => List.mem_cons_of_mem _ (inv.begunReturned e he)
    · intro e he c hc
      rcases List.mem_cons.mp he with rfl | he
      · exact next_saga_isSome hnext (AList.lookup_isSome.mpr hc)
      · exact hspawned e he c hc
    · exact fun j e hj => inv.clearing_of_evictTenant hnext rfl hj
  | task k fork =>
    refine retire_inv inv.begunRunning inv.begunReturned hspawned ?_ hcleared
    intro j e hj
    by_cases hjk : j = k
    · subst hjk
      rcases inv.clearing_of_task hnext hj with hprog | hdone
      · exact Or.inl hprog
      · exact Or.inr ⟨rfl, hdone⟩
    · refine Or.inl (inv.clearing_of_idle hguard hnext hj fun f heq => hjk ?_)
      exact (Action.task.inj heq).1.symm
  | _ =>
    exact ⟨inv.begunRunning, inv.begunReturned, hspawned,
      fun k e hk => inv.clearing_of_idle hguard hnext hk (by simp), hcleared⟩

/-- **Secret rotation**: in every run in which no container is installed whose
    secrets are older than an eviction of its tenant, evictions are complete. -/
theorem rotation_complete (hreach : rotating.ReachableUnder RotationGuard r) :
    RotationComplete r := by
  have inv : RotationInv r := hreach.invariant (fun _ hstart => hstart ▸ rotationInv_init)
    fun _ _ _ inv hguard hnext => rotationInv_step inv hguard hnext
  intro e he
  refine ⟨?_, ?_⟩
  · intro remote s stream headers m clear hsame hnamed hroute
    rcases handleRequestHeaders_response remote s stream headers with
      ⟨status, body, h⟩ | ⟨id, t, hadmitted, h⟩ | ⟨hnone, -⟩ | ⟨-, -, h⟩
    · rw [hroute] at h
      cases h
    · rw [hroute] at h
      have ht : r.world.transportSessions.lookup id = some t := hsame ▸ hadmitted.entry
      exact ⟨id, t, ht, routesTo_of_routeTransport h.symm, inv.cleared e he id t ht⟩
    · exact absurd hnone hnamed
    · rw [hroute] at h
      cases h
  · intro i sp w' hspawn hstale
    have hold := inv.spawned e (inv.begunReturned e he) _ hstale
    simp only [World.next] at hspawn
    split at hspawn
    next =>
      split at hspawn
      next => cases hspawn
      next hfree => exact hfree (Or.inl hold)
    next => cases hspawn

-- ════════════════════════════════════════════════════════════════════════
-- Runs
-- ════════════════════════════════════════════════════════════════════════

/-- The sample session is evicted, and its client initializes again. -/
private def rotateRun : List Action :=
  spawnRun ++ [.responseHeaders 0 0 (some "s-1"), .observe 0, .backfill 0, .evictTenant 0 "acme",
    .task 0 1, .task 0 1, .openStream 1, .spawn 1 { sampleSpawn with stagingToken := "00000000000b" },
    .runLaunch "mcp_session_00000000000b" ⟨10, 0, 0, 8⟩, .launchOk 1, .probeOk 1,
    .runPost "mcp_session_00000000000b", .postOk 1, .recordSpawn 1, .spawnOk 1,
    .responseHeaders 1 2 (some "s-2"), .observe 1]

theorem rotation_complete_run :
    ∃ r, (⟨"acme", [sampleContainer]⟩ : Eviction) ∈ r.returned ∧
      (r.world.transportSessions.lookup "s-2").isSome = true ∧ RotationComplete r := by
  have hexec : (rotating.execUnder RotationGuard ⟨World.init, [], ∅, []⟩ rotateRun).any (fun r =>
      decide ((⟨"acme", [sampleContainer]⟩ : Eviction) ∈ r.returned) &&
        (r.world.transportSessions.lookup "s-2").isSome) = true := by decide +kernel
  obtain ⟨r, hrun, hr⟩ := Machine.exists_run_of_execUnder _ hexec
  simp only [Bool.and_eq_true, decide_eq_true_eq] at hr
  exact ⟨r, hr.1, hr.2, rotation_complete ⟨_, rfl, hrun⟩⟩

/-- The sample container waits for its `initialize` answer while the eviction
    begins and returns. -/
private def crossingRun : List Action :=
  spawnRun ++ [.evictTenant 0 "acme", .responseHeaders 0 0 (some "s-1"), .observe 0]

/-- How the sample request is answered on the entries of the broker. -/
private def laterResponse (r : Rotation) : ProcessingResponse :=
  (handleRequestHeaders Sample.remote
    { Sample.state with transportSessions := r.world.transportSessions } Sample.stream
    (Sample.request "GET" [("mcp-session-id", "s-1")])).response

private def routed : ProcessingResponse → Bool
  | .requestHeaders ⟨some _, _⟩ => true
  | _ => false

/-- A container that is installed after the eviction has returned keeps serving
    the old secrets. -/
theorem stale_spawn_survives_eviction : ¬ ∀ r, rotating.Reachable r → RotationComplete r := by
  intro hclaim
  have hexec : (rotating.execUnder (fun _ _ => True) ⟨World.init, [], ∅, []⟩ crossingRun).any
      (fun r => decide ((⟨"acme", [sampleContainer]⟩ : Eviction) ∈ r.returned) &&
        (routed (laterResponse r) && r.world.transportSessions.all fun _ t =>
          t.tenantName = "acme" ∧ t.containerName = sampleContainer)) = true := by decide +kernel
  obtain ⟨r, hrun, hr⟩ := Machine.exists_run_of_execUnder _ hexec
  simp only [Bool.and_eq_true, decide_eq_true_eq] at hr
  obtain ⟨hreturned, hrouted, hentries⟩ := hr
  have hcomplete := hclaim r ⟨_, rfl, hrun⟩ _ hreturned
  have hroute : ∃ m clear, laterResponse r = .requestHeaders ⟨some m, clear⟩ := by
    unfold routed at hrouted
    split at hrouted
    next m clear h => exact ⟨m, clear, h⟩
    next => cases hrouted
  obtain ⟨m, clear, hroute⟩ := hroute
  obtain ⟨id, t, ht, -, hfresh⟩ := hcomplete.1 _ _ _ _ m clear rfl (by decide +kernel) hroute
  have hentry := (FiniteMap.all_eq_true_iff _ _).mp hentries id t ht
  rw [decide_eq_true_eq] at hentry
  refine hfresh hentry.1 ?_
  rw [hentry.2]
  exact List.mem_singleton_self _

end Botwork.SessionBroker
