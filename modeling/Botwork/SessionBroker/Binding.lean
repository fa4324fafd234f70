import Botwork.SessionBroker.Steps

/-!
# What a session id stands for

The key of `transport_sessions` is the `Mcp-Session-Id` that a plugin container
answers `initialize` with, and the install at `response_headers` overwrites
whatever stands under it.  While responses name free ids, an id keeps the
tenant, workspace and container it was installed with until a path removes it.

## Main definitions

- `World.bindAgent` — what `handle_request_body` writes into an entry
- `sessions` — the broker with its bind-agent writes
- `NamesFreeSession`, `Keeps` — the two conditions on a step

## Main results

- `session_ids_bound_once` — an entry keeps its binding
- `response_replaces_session` — a response of another tenant's container does not
-/

namespace Botwork.SessionBroker

open Botwork.Foundations

/-- After a successful bind-agent call, `handle_request_body` writes the agent
    into an entry that has none. -/
def World.bindAgent (w : World) (mcpSessionId agentId : String) : World :=
  match w.transportSessions.lookup mcpSessionId with
  | some t =>
    if t.agentId.isNone then
      { w with transportSessions :=
          w.transportSessions.insert mcpSessionId { t with agentId := some agentId } }
    else w
  | none => w

inductive SessionAction where
  | broker (a : Action)
  | bindAgent (mcpSessionId agentId : String)
  deriving DecidableEq

/-- Every step that touches `transport_sessions`. -/
def sessions : Machine World SessionAction where
  Start w := w = World.init
  next w
    | .broker a => w.next a
    | .bindAgent id agentId => some (w.bindAgent id agentId)

/-- Two entries for one container of one tenant and workspace. -/
structure SameBinding (t t' : TransportState) : Prop where
  tenantName : t'.tenantName = t.tenantName
  workspace : t'.workspace = t.workspace
  containerName : t'.containerName = t.containerName

theorem SameBinding.refl (t : TransportState) : SameBinding t t := ⟨rfl, rfl, rfl⟩

theorem SameBinding.trans {t t' t'' : TransportState} (h : SameBinding t t')
    (h' : SameBinding t' t'') : SameBinding t t'' :=
  ⟨h'.tenantName.trans h.tenantName, h'.workspace.trans h.workspace,
    h'.containerName.trans h.containerName⟩

/-- A response that installs a container names an id without an entry. -/
def NamesFreeSession (w : World) : SessionAction → Prop
  | .broker (.observe i) =>
    match w.streams.lookup i with
    | some ⟨.observing mcpSessionId, _⟩ =>
      ∀ e ∈ w.installation i mcpSessionId, w.transportSessions.lookup e.1 = none
    | _ => True
  | _ => True

instance (w : World) (a : SessionAction) : Decidable (NamesFreeSession w a) := by
  unfold NamesFreeSession
  split
  · split <;> infer_instance
  · infer_instance

/-- The step is not the removal of the entry of `id` by a path. -/
def Keeps (id : String) (w : World) : SessionAction → Prop
  | .broker (.task k _) =>
    match w.tasks.lookup k with
    | some ((op, t) :: _) => op.removes = true → t.mcpSessionId ≠ id
    | _ => True
  | _ => True

instance (id : String) (w : World) (a : SessionAction) : Decidable (Keeps id w a) := by
  unfold Keeps
  split
  · split <;> infer_instance
  · infer_instance

variable {w w' : World} {id : String} {t : TransportState}

/-- A bind changes the agent of one entry and nothing else of any. -/
theorem bindAgent_entry (ht : w.transportSessions.lookup id = some t) (other agentId : String) :
    ∃ t', (w.bindAgent other agentId).transportSessions.lookup id = some t' ∧ SameBinding t t' := by
  unfold World.bindAgent
  split
  next u hu =>
    split
    next =>
      by_cases hid : id = other
      · subst hid
        rw [ht] at hu
        cases hu
        exact ⟨_, AList.lookup_insert _, ⟨rfl, rfl, rfl⟩⟩
      · exact ⟨t, (AList.lookup_insert_ne hid).trans ht, .refl t⟩
    next => exact ⟨t, ht, .refl t⟩
  next => exact ⟨t, ht, .refl t⟩

/-- One step keeps the binding of an entry it does not remove. -/
theorem binding_step {a : SessionAction} (ht : w.transportSessions.lookup id = some t)
    (hfree : NamesFreeSession w a) (hkeep : Keeps id w a) (hnext : sessions.next w a = some w') :
    ∃ t', w'.transportSessions.lookup id = some t' ∧ SameBinding t t' := by
  cases a with
  | bindAgent other agentId =>
    cases hnext
    exact bindAgent_entry ht other agentId
  | broker a =>
    rcases next_transport hnext with hsame | ⟨i, td, new, p, rfl, hst, hp, heq⟩ |
      ⟨k, fork, op, tg, rest, rfl, htask, hop, heq⟩
    · exact ⟨t, hsame ▸ ht, .refl t⟩
    · -- the install goes under a free id
      have hnew : w.transportSessions.lookup new = none := by
        simp only [NamesFreeSession, hst, World.installation, hp] at hfree
        exact hfree _ rfl
      have hne : id ≠ new := by
        rintro rfl
        rw [ht] at hnew
        cases hnew
      exact ⟨t, by rw [heq, AList.lookup_insert_ne hne, ht], .refl t⟩
    · have hne : tg.mcpSessionId ≠ id := by
        simp only [Keeps, htask] at hkeep
        exact hkeep hop
      exact ⟨t, by rw [heq, AList.lookup_erase_ne hne.symm, ht], .refl t⟩

/-- **Session ids are bound once**: from any state, as long as responses name
    free ids, an entry keeps its tenant, workspace and container until a path
    removes it. -/
theorem session_ids_bound_once (ht : w.transportSessions.lookup id = some t)
    (hrun : sessions.RunUnder (fun w a => NamesFreeSession w a ∧ Keeps id w a) w w') :
    ∃ t', w'.transportSessions.lookup id = some t' ∧ SameBinding t t' := by
  refine hrun.preserves
    (P := fun v => ∃ t', v.transportSessions.lookup id = some t' ∧ SameBinding t t')
    (fun v a v' ⟨u, hu, hsame⟩ hguard hnext => ?_) ⟨t, ht, .refl t⟩
  obtain ⟨u', hu', hsame'⟩ := binding_step hu hguard.1 hguard.2 hnext
  exact ⟨u', hu', hsame.trans hsame'⟩

-- ════════════════════════════════════════════════════════════════════════
-- Runs
-- ════════════════════════════════════════════════════════════════════════

/-- The sample container, installed under `s-1`. -/
private def installRun : List SessionAction :=
  (spawnRun ++ [Action.responseHeaders 0 0 (some "s-1"), .observe 0, .backfill 0]).map .broker

/-- A spawn of another tenant. -/
private def otherSpawn : Spawn :=
  { sampleSpawn with stagingToken := "00000000000b", tenantName := "umbrella" }

/-- The other tenant's container answers `initialize` with session id `id`. -/
private def otherInstallRun (id : String) : List SessionAction :=
  [Action.openStream 1, .spawn 1 otherSpawn, .runLaunch otherSpawn.containerName ⟨10, 0, 0, 8⟩,
    .launchOk 1, .probeOk 1, .runPost otherSpawn.containerName, .postOk 1, .recordSpawn 1,
    .spawnOk 1, .responseHeaders 1 0 (some id), .observe 1].map .broker

/-- The entry of `s-1` is a session of `tenant`. -/
private def isSessionOf (tenant : String) (w : World) : Bool :=
  (w.transportSessions.lookup "s-1").any (·.tenantName = tenant)

private theorem exists_of_isSessionOf {tenant : String} {w : World}
    (h : isSessionOf tenant w = true) :
    ∃ t, w.transportSessions.lookup "s-1" = some t ∧ t.tenantName = tenant := by
  obtain ⟨t, ht, htenant⟩ := (Option.any_eq_true _ _).mp h
  exact ⟨t, ht, of_decide_eq_true htenant⟩

/-- The entry of `s-1` stays while another tenant installs `s-2` and an agent is
    bound to it. -/
theorem session_ids_bound_once_run :
    ∃ (w w' : World) (t : TransportState), sessions.Reachable w ∧
      w.transportSessions.lookup "s-1" = some t ∧
      (w'.transportSessions.lookup "s-2").isSome = true ∧
      ∃ t', w'.transportSessions.lookup "s-1" = some t' ∧ SameBinding t t' := by
  obtain ⟨w, w', hfirst, hw, hrun, hother⟩ := Machine.exists_runs_of_execUnder
    (M := sessions) (C := fun w a => NamesFreeSession w a ∧ Keeps "s-1" w a) (s := World.init)
    installRun (otherInstallRun "s-2" ++ [.bindAgent "s-1" "a-1"]) (isSessionOf "acme")
    (fun w => (w.transportSessions.lookup "s-2").isSome)
    (by decide +kernel) (by decide +kernel)
  obtain ⟨t, ht, -⟩ := exists_of_isSessionOf hw
  have hreach : sessions.Reachable w := ⟨World.init, rfl, hfirst.weaken fun _ _ _ => trivial⟩
  exact ⟨w, w', t, hreach, ht, hother, session_ids_bound_once ht hrun⟩

/-- A container of another tenant that answers with `s-1` takes the entry over. -/
theorem response_replaces_session :
    ¬ ∀ (w w' : World) (id : String) (t : TransportState), sessions.Reachable w →
      w.transportSessions.lookup id = some t → sessions.RunUnder (Keeps id) w w' →
      ∃ t', w'.transportSessions.lookup id = some t' ∧ SameBinding t t' := by
  intro hclaim
  obtain ⟨w, w', hfirst, hw, hrun, hw'⟩ := Machine.exists_runs_of_execUnder
    (M := sessions) (C := Keeps "s-1") (s := World.init) installRun
    (otherInstallRun "s-1") (isSessionOf "acme") (isSessionOf "umbrella")
    (by decide +kernel) (by decide +kernel)
  obtain ⟨t, ht, htenant⟩ := exists_of_isSessionOf hw
  obtain ⟨u, hu, hutenant⟩ := exists_of_isSessionOf hw'
  have hreach : sessions.Reachable w := ⟨World.init, rfl, hfirst.weaken fun _ _ _ => trivial⟩
  obtain ⟨t', ht', hsame⟩ := hclaim w w' "s-1" t hreach ht hrun
  rw [hu] at ht'
  cases ht'
  rw [hsame.tenantName, htenant] at hutenant
  revert hutenant
  decide

end Botwork.SessionBroker
