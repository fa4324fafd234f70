import Botwork.SessionBroker.Parties

/-!
# Deregistration

When a container is torn down, control-plane should lose its record, and only
its record.  The records are keyed by container name, while the only path that
sends a DELETE is the exit path, and it sends the `Mcp-Session-Id` the plugin
chose; the other three paths remove the entry, so that a later exit event is
unknown.  `deregistration` proves the property of every run in which plugins
choose their container's name and the other paths leave no record behind.

## Main definitions

- `Quiet` — everything under way for a container has been delivered
- `Deregisters` — no stale record, no foreign DELETE
- `DeregistrationGuard` — the steps that keep both
- `Keyed` — session ids are container names everywhere in the broker
-/

namespace Botwork.SessionBroker

open Botwork.Foundations Botwork.ControlPlane

variable {w w' : World} {a : Action}

-- ════════════════════════════════════════════════════════════════════════
-- The property
-- ════════════════════════════════════════════════════════════════════════

/-- No path works on the container, its exit events have been delivered and
    control-plane has processed the DELETEs sent for it. -/
structure Quiet (w : World) (c : String) : Prop where
  paths : ∀ op t, Due w op t → t.containerName ≠ c
  docker : (w.docker.lookup c).all (·.phase = .removed) = true
  events : ∀ e ∈ w.events, e.name ≠ c
  deletes : ∀ t ∈ w.deletes, t.containerName ≠ c

/-- A session of `c` was registered and installed, and has been torn down. -/
structure TornDown (w : World) (c : String) : Prop where
  installed : c ∈ w.history.installed
  issued : c ∈ w.history.issued
  gone : ∀ id t, w.transportSessions.lookup id = some t → t.containerName ≠ c

/-- Control-plane holds no record of a container that was torn down, and no
    DELETE has removed the record of another container. -/
structure Deregisters (w : World) : Prop where
  stale : ∀ c, TornDown w c → Quiet w c → w.records.get c = none
  foreign : ∀ c id, (c, id) ∈ w.history.deregistered → id = c

-- ════════════════════════════════════════════════════════════════════════
-- The guard
-- ════════════════════════════════════════════════════════════════════════

/-- Whether a DELETE for the record of `c` is on its way. -/
def World.deleteDue (w : World) (c : String) : Bool :=
  w.deletes.any (fun t => t.mcpSessionId = c) ||
    w.tasks.values.any fun program => program.any fun o =>
      decide (o.2.mcpSessionId = c) && decide (o.1 = .forkDelete ∨ o.1 = .callDelete)

/-- A response that installs a container names it as the session id. -/
def NamesContainer (w : World) (i : Nat) : Option Stream → Prop
  | some ⟨.observing (some id), _⟩ => ∀ p ∈ w.pendingInit.lookup i, p.containerName = id
  | _ => True

/-- The plugin behind stream `i` chose its container's name as session id. -/
def SessionIdGuard (w : World) : Action → Prop
  | .observe i => NamesContainer w i (w.streams.lookup i)
  | _ => True

/-- A path other than the exit path removes an entry only when the record is
    gone or a DELETE for it is on its way. -/
def LeavesNoRecord (w : World) : Option Program → Prop
  | some ((op, t) :: _) =>
    op = .removeEntry ∨ op = .evictEntry → ∀ e ∈ w.transportSessions.lookup t.mcpSessionId,
      w.records.get e.containerName = none ∨ w.deleteDue e.containerName = true
  | _ => True

/-- The steps after which deregistration still reaches every record. -/
def DeregistrationGuard (w : World) : Action → Prop
  | .observe i => SessionIdGuard w (.observe i)
  | .task k _ => LeavesNoRecord w (w.tasks.lookup k)
  | _ => True

instance (w : World) (i : Nat) : (st : Option Stream) → Decidable (NamesContainer w i st)
  | some ⟨.observing (some id), _⟩ =>
    inferInstanceAs (Decidable (∀ p ∈ w.pendingInit.lookup i, p.containerName = id))
  | none | some ⟨.idle, _⟩ | some ⟨.spawning _, _⟩ | some ⟨.tearingDown _ _, _⟩
  | some ⟨.observing none, _⟩ | some ⟨.backfilling _ _, _⟩ => isTrue trivial

instance (w : World) : (program : Option Program) → Decidable (LeavesNoRecord w program)
  | some ((op, t) :: _) =>
    inferInstanceAs (Decidable (op = .removeEntry ∨ op = .evictEntry →
      ∀ e ∈ w.transportSessions.lookup t.mcpSessionId,
        w.records.get e.containerName = none ∨ w.deleteDue e.containerName = true))
  | none | some [] => isTrue trivial

instance (w : World) (a : Action) : Decidable (DeregistrationGuard w a) :=
  match a with
  | .observe i => inferInstanceAs (Decidable (NamesContainer w i (w.streams.lookup i)))
  | .task k _ => inferInstanceAs (Decidable (LeavesNoRecord w (w.tasks.lookup k)))
  | .openStream _ | .closeStream _ | .spawn _ _ | .launchOk _ | .launchErr _ | .probeOk _
  | .probeErr _ _ | .postOk _ | .postErr _ _ | .recordSpawn _ | .spawnOk _ | .requestDelete _ _
  | .responseHeaders _ _ _ | .tornDown _ | .backfill _ | .evictDead _ _ | .evictTenant _ _
  | .reap _ _ | .deliver _ _ | .runLaunch _ _ | .failLaunch _ _ | .runTeardown _ | .dropTeardown _
  | .runPost _ | .failPost _ | .runDelete _ | .crash _ | .autoRemove _ | .clock => isTrue trivial

theorem DeregistrationGuard.sessionId (h : DeregistrationGuard w a) : SessionIdGuard w a := by
  cases a with
  | observe i => exact h
  | _ => trivial

-- ════════════════════════════════════════════════════════════════════════
-- Session ids are container names
-- ════════════════════════════════════════════════════════════════════════

/-- The target's session id is its container's name. -/
def Target.Keyed (t : Target) : Prop := t.mcpSessionId = t.containerName

/-- Session ids are container names everywhere in the broker.  The teardown of
    an unannounced container has no session id. -/
structure Keyed (w : World) : Prop where
  entries : ∀ id t, w.transportSessions.lookup id = some t → t.containerName = id
  requests : ∀ i st t, w.streams.lookup i = some st → st.teardownOnResponse = some t → t.Keyed
  paths : ∀ op t, Due w op t → op ≠ .callTeardown → t.Keyed
  deletes : ∀ t ∈ w.deletes, t.Keyed

theorem Keyed.target (inv : Keyed w) {id : String} {t : TransportState}
    (h : w.transportSessions.lookup id = some t) : (t.target id).Keyed :=
  (inv.entries id t h).symm

theorem keyed_entries_step (inv : Keyed w) (hguard : SessionIdGuard w a)
    (h : w.next a = some w') (id : String) (t : TransportState)
    (ht : w'.transportSessions.lookup id = some t) : t.containerName = id := by
  rcases next_transport h with hsame | ⟨i, td, m, p, rfl, hst, hp, hins⟩ | ⟨k, fork, op, t', rest,
    -, -, -, heras⟩
  · exact inv.entries id t (hsame ▸ ht)
  · rw [hins, FiniteMap.lookup_insert_ite] at ht
    split at ht
    next heq =>
      cases ht
      have hname : NamesContainer w i (some ⟨.observing (some m), td⟩) := hst ▸ hguard
      exact (hname p hp).trans heq.symm
    next => exact inv.entries id t ht
  · rw [heras, FiniteMap.lookup_erase_ite] at ht
    split at ht
    next => cases ht
    next => exact inv.entries id t ht

theorem keyed_step (inv : Keyed w) (hguard : SessionIdGuard w a) (h : w.next a = some w') :
    Keyed w' where
  entries := keyed_entries_step inv hguard h
  requests i st t hst ht := by
    rcases next_teardownOnResponse h hst ht with ⟨j, st₀, hst₀, ht₀⟩ | ⟨id, e, he, rfl⟩
    · exact inv.requests j st₀ t hst₀ ht₀
    · exact inv.target he
  paths op t hdue hop := by
    rcases due_next h hdue with hold | ⟨program, hstart, hmem⟩
    · exact inv.paths op t hold hop
    · rcases hstart.target hmem hop with ⟨id, e, he, rfl⟩ | ⟨i, st, hst, ht⟩ | ⟨k, op', rest, htask, hop'⟩
      · exact inv.target he
      · exact inv.requests i st t hst ht
      · exact inv.paths op' t ⟨k, _, htask, List.mem_cons_self⟩ hop'
  deletes t ht := by
    rcases next_deletes h ht with hold | ⟨k, rest, htask⟩
    · exact inv.deletes t hold
    · exact inv.paths .callDelete t ⟨k, _, htask, List.mem_cons_self⟩ (by simp)

-- ════════════════════════════════════════════════════════════════════════
-- DELETEs reach their record
-- ════════════════════════════════════════════════════════════════════════

/-- A DELETE for the record of `c` is in flight, or a path still has to send it. -/
def DeleteDue (w : World) (c : String) : Prop :=
  ∃ t : Target, t.mcpSessionId = c ∧
    (Due w .forkDelete t ∨ Due w .callDelete t ∨ t ∈ w.deletes)

theorem deleteDue_of_eq_true {c : String} (h : w.deleteDue c = true) : DeleteDue w c := by
  simp only [World.deleteDue, Bool.or_eq_true, List.any_eq_true, decide_eq_true_eq,
    Bool.and_eq_true] at h
  rcases h with ⟨t, hmem, hid⟩ | ⟨program, hprog, ⟨op, t⟩, hmem, hid, hop⟩
  · exact ⟨t, hid, Or.inr (Or.inr hmem)⟩
  · obtain ⟨k, htask⟩ := (FiniteMap.mem_values_iff _ _).mp hprog
    refine ⟨t, hid, ?_⟩
    rcases hop with rfl | rfl
    · exact Or.inl ⟨k, program, htask, hmem⟩
    · exact Or.inr (Or.inl ⟨k, program, htask, hmem⟩)

/-- A DELETE that is due stays due until it has removed its record. -/
theorem deleteDue_step (ordered : TasksOrdered w) (h : w.next a = some w') {c : String}
    (hid : isSessionId c = true) (hdue : DeleteDue w c) :
    DeleteDue w' c ∨ w'.records.get c = none := by
  obtain ⟨t, rfl, hfork | hcall | hmem⟩ := hdue
  · rcases due_step ordered h hfork rfl with hdue | ⟨k, fork, rest, rfl, htask⟩
    · exact Or.inl ⟨t, rfl, Or.inl hdue⟩
    · exact Or.inl ⟨t, rfl, Or.inr (Or.inl (due_forkDelete h htask))⟩
  · rcases due_step ordered h hcall rfl with hdue | ⟨k, fork, rest, rfl, htask⟩
    · exact Or.inl ⟨t, rfl, Or.inr (Or.inl hdue)⟩
    · exact Or.inl ⟨t, rfl, Or.inr (Or.inr (mem_deletes_callDelete h htask))⟩
  · rcases next_deletes_keep h hmem with hmem | rfl
    · exact Or.inl ⟨t, rfl, Or.inr (Or.inr hmem)⟩
    · exact Or.inr (records_runDelete h hid)

/-- Control-plane has no record of `c`, or will lose it. -/
def Deregistering (w : World) (c : String) : Prop := w.records.get c = none ∨ DeleteDue w c

/-- A returned container posts no further record. -/
theorem deregistering_step (named : SagasNamed w) (announced : Announced w)
    (ordered : TasksOrdered w) (h : w.next a = some w') {c : String} (hret : Returned w c)
    (hdereg : Deregistering w c) : Deregistering w' c := by
  obtain ⟨saga, hsaga, hstage⟩ := hret
  rcases hdereg with hnone | hdue
  · refine Or.inl (next_record_none named h hnone ?_)
    intro saga' hsaga' hpost
    rw [announced c saga' hsaga' ?_] at hpost
    · cases hpost
    · rw [hsaga] at hsaga'
      cases hsaga'
      exact Or.inr (Or.inr hstage)
  · exact (deleteDue_step ordered h (named.isSessionId hsaga) hdue).symm

-- ════════════════════════════════════════════════════════════════════════
-- The invariant
-- ════════════════════════════════════════════════════════════════════════

/-- The invariant of guarded runs. -/
structure DeregInv (w : World) : Prop where
  named : SagasNamed w
  announced : Announced w
  holds : HoldsReturned w
  ordered : TasksOrdered w
  keyed : Keyed w
  installed : ∀ c ∈ w.history.installed,
    (w.transportSessions.lookup c).isSome = true ∨ Deregistering w c
  foreign : ∀ c id, (c, id) ∈ w.history.deregistered → id = c

theorem deregInv_init : DeregInv World.init where
  named c saga h := by simp [World.init] at h
  announced c saga h := by simp [World.init] at h
  holds := ⟨by simp [World.init], by simp [World.init]⟩
  ordered k program h := by simp [World.init] at h
  keyed := ⟨by simp [World.init], by simp [World.init], by simp [World.init, Due],
    by simp [World.init]⟩
  installed c h := by simp [World.init] at h
  foreign c id h := by simp [World.init] at h

/-- A path that removes the entry of `c` has a DELETE due for it. -/
theorem deregistering_of_removed {k fork : Nat} {op : Op} {t : Target} {rest : Program}
    (inv : DeregInv w) (hguard : DeregistrationGuard w (.task k fork))
    (htask : w.tasks.lookup k = some ((op, t) :: rest)) (hop : op.removes = true)
    (hentry : (w.transportSessions.lookup t.mcpSessionId).isSome = true) :
    Deregistering w t.mcpSessionId := by
  obtain ⟨e, he⟩ := Option.isSome_iff_exists.mp hentry
  have hleaves : LeavesNoRecord w (some ((op, t) :: rest)) := htask ▸ hguard
  have hname := inv.keyed.entries _ e he
  cases op with
  | removeEntry =>
    rw [← hname]
    exact (hleaves (Or.inl rfl) e he).imp_right deleteDue_of_eq_true
  | evictEntry =>
    rw [← hname]
    exact (hleaves (Or.inr rfl) e he).imp_right deleteDue_of_eq_true
  | exitEntry =>
    have hdelete : (Op.forkDelete, t) ∈ rest := (inv.ordered k _ htask).2.1 rfl
    exact Or.inr ⟨t, rfl, Or.inl ⟨k, _, htask, List.mem_cons_of_mem _ hdelete⟩⟩
  | _ => cases hop

theorem installed_step (inv : DeregInv w) (hguard : DeregistrationGuard w a)
    (h : w.next a = some w') (c : String) (hc : c ∈ w'.history.installed) :
    (w'.transportSessions.lookup c).isSome = true ∨ Deregistering w' c := by
  rcases next_installed h hc with hold | ⟨i, td, id, p, rfl, hst, hp, rfl, hins⟩
  · have hdereg : Deregistering w c → Deregistering w' c :=
      deregistering_step inv.named inv.announced inv.ordered h (inv.holds.installed c hold)
    rcases inv.installed c hold with hentry | hdereg'
    · rcases next_transport h with hsame | ⟨i, td, m, p, rfl, hst, hp, hins⟩ |
        ⟨k, fork, op, t, rest, rfl, htask, hop, heras⟩
      · exact Or.inl (hsame ▸ hentry)
      · refine Or.inl ?_
        rw [hins, FiniteMap.lookup_insert_ite]
        split
        next => rfl
        next => exact hentry
      · by_cases hid : c = t.mcpSessionId
        · subst hid
          exact Or.inr (hdereg (deregistering_of_removed inv hguard htask hop hentry))
        · refine Or.inl ?_
          rw [heras, FiniteMap.lookup_erase_ite, if_neg hid]
          exact hentry
    · exact Or.inr (hdereg hdereg')
  · have hname : NamesContainer w i (some ⟨.observing (some id), td⟩) := hst ▸ hguard
    refine Or.inl ?_
    rw [hname p hp, hins, AList.lookup_insert]
    rfl

theorem deregInv_step (inv : DeregInv w) (hguard : DeregistrationGuard w a)
    (h : w.next a = some w') : DeregInv w' where
  named := sagasNamed_step inv.named h
  announced := announced_step inv.announced h
  holds := holdsReturned_step inv.named inv.holds h
  ordered := tasksOrdered_step inv.ordered h
  keyed := keyed_step inv.keyed hguard.sessionId h
  installed := installed_step inv hguard h
  foreign c id hmem := by
    rcases next_deregistered h hmem with hold | ⟨t, ht, heq⟩
    · exact inv.foreign c id hold
    · cases heq
      exact inv.keyed.deletes t ht

theorem DeregInv.stale (inv : DeregInv w) {c : String} (htorn : TornDown w c)
    (hquiet : Quiet w c) : w.records.get c = none := by
  rcases inv.installed c htorn.installed with hentry | hnone | ⟨t, rfl, hdue⟩
  · obtain ⟨e, he⟩ := Option.isSome_iff_exists.mp hentry
    exact absurd (inv.keyed.entries c e he) (htorn.gone c e he)
  · exact hnone
  · exfalso
    rcases hdue with hfork | hcall | hmem
    · exact hquiet.paths _ t hfork (inv.keyed.paths _ t hfork (by simp)).symm
    · exact hquiet.paths _ t hcall (inv.keyed.paths _ t hcall (by simp)).symm
    · exact hquiet.deletes t hmem (inv.keyed.deletes t hmem).symm

/-- **Deregistration**: in every run in which plugins choose their container's
    name and no path but the exit path leaves a record behind, torn-down
    containers lose their records and no other container does. -/
theorem deregistration (hreach : broker.ReachableUnder DeregistrationGuard w) :
    Deregisters w := by
  have inv : DeregInv w := hreach.invariant (fun _ hstart => hstart ▸ deregInv_init)
    fun _ _ _ inv hguard hnext => deregInv_step inv hguard hnext
  exact ⟨fun _ htorn hquiet => inv.stale htorn hquiet, inv.foreign⟩

-- ════════════════════════════════════════════════════════════════════════
-- Runs
-- ════════════════════════════════════════════════════════════════════════

/-- What a path captures of the sample container under a session id. -/
private def exitTarget (id : String) : Target :=
  ⟨id, sampleContainer, stagingPath "acme" "00000000000a"⟩

/-- The sample container is installed under the session id its plugin chose,
    exits, and everything that follows is delivered. -/
private def exitRun (id : String) : List Action :=
  spawnRun ++ [.responseHeaders 0 0 (some id), .observe 0, .backfill 0, .crash sampleContainer,
    .deliver ⟨sampleContainer, .die⟩ 0, .task 0 1, .task 0 1, .task 0 1, .task 0 1, .task 0 2,
    .task 1 3, .task 2 3, .runTeardown (exitTarget id), .runDelete (exitTarget id),
    .deliver ⟨sampleContainer, .destroy⟩ 3]

/-- The sample container was torn down and nothing is under way for it. -/
private def exitDelivered (w : World) : Bool :=
  decide (sampleContainer ∈ w.history.installed ∧ sampleContainer ∈ w.history.issued) &&
    (w.transportSessions.isEmpty && (w.tasks.isEmpty &&
      ((w.docker.lookup sampleContainer).all (·.phase = .removed) &&
        (w.events.isEmpty && w.deletes.isEmpty))))

private theorem tornDown_of_exitDelivered (h : exitDelivered w = true) :
    TornDown w sampleContainer ∧ Quiet w sampleContainer := by
  simp only [exitDelivered, Bool.and_eq_true, decide_eq_true_eq, List.isEmpty_iff] at h
  obtain ⟨⟨hinstalled, hissued⟩, htransport, htasks, hdocker, hevents, hdeletes⟩ := h
  refine ⟨⟨hinstalled, hissued, ?_⟩, ⟨?_, hdocker, by simp [hevents], by simp [hdeletes]⟩⟩
  · intro id t ht
    rw [FiniteMap.lookup_of_isEmpty htransport] at ht
    cases ht
  · rintro op t ⟨k, program, hprog, -⟩
    rw [FiniteMap.lookup_of_isEmpty htasks] at hprog
    cases hprog

theorem deregistration_exit_run :
    ∃ w, TornDown w sampleContainer ∧ Quiet w sampleContainer ∧
      w.records.get sampleContainer = none := by
  have hexec : (broker.execUnder DeregistrationGuard World.init
      (exitRun sampleContainer)).any exitDelivered = true := by decide +kernel
  obtain ⟨w, hrun, hw⟩ := Machine.exists_run_of_execUnder _ hexec
  obtain ⟨htorn, hquiet⟩ := tornDown_of_exitDelivered hw
  have hdereg := deregistration ⟨World.init, rfl, hrun⟩
  exact ⟨w, htorn, hquiet, hdereg.stale _ htorn hquiet⟩

/-- The plugin calls its session "abc": control-plane refuses the DELETE of
    `/sessions/abc`, and the record of the container stays. -/
theorem session_id_misses_record : ¬ ∀ w, broker.Reachable w → Deregisters w := by
  intro hclaim
  have hexec : (broker.execUnder (fun _ _ => True) World.init (exitRun "abc")).any (fun w =>
      exitDelivered w && (w.records.get sampleContainer).isSome) = true := by decide +kernel
  obtain ⟨w, hrun, hw⟩ := Machine.exists_run_of_execUnder _ hexec
  rw [Bool.and_eq_true] at hw
  obtain ⟨htorn, hquiet⟩ := tornDown_of_exitDelivered hw.1
  have hnone := (hclaim w ⟨World.init, rfl, hrun⟩).stale _ htorn hquiet
  rw [hnone] at hw
  cases hw.2

end Botwork.SessionBroker
