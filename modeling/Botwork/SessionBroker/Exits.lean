import Botwork.SessionBroker.Parties

/-!
# Exit events

Docker reports an exit only of a container that was launched, and a container
that has exited never runs again.

## Main definitions

- `Over` — the container was launched and does not run any more
- `ExitInv` — exit events are of containers that are over
- `ExitToCome` — an exit event of the container is still to be delivered
-/

namespace Botwork.SessionBroker

open Botwork.Foundations Botwork.ControlPlane

variable {w w' : World} {a : Action}

-- ════════════════════════════════════════════════════════════════════════
-- Inversion
-- ════════════════════════════════════════════════════════════════════════

theorem next_handled (h : w.next a = some w') {c : String} (hc : c ∈ w'.history.handled) :
    c ∈ w.history.handled ∨
      ∃ e k id t, a = .deliver e k ∧ e.name = c ∧ w.entryOf c = some (id, t) := by
  revert h
  fun_cases World.next w a <;> intro h
  all_goals try cases h
  all_goals try exact Or.inl hc
  · -- observe
    unfold World.observe at hc
    simp only at hc
    split at hc <;> exact Or.inl hc
  · -- task
    obtain ⟨op, t, rest, -, -, -, rfl⟩ := World.runTask_eq_some h
    cases op <;> exact Or.inl hc
  · -- deliver
    rename_i e k _
    simp only [World.exitEvent] at hc
    split at hc
    next hsome =>
      rcases List.mem_cons.mp hc with rfl | hc
      · obtain ⟨⟨id, t⟩, hentry⟩ := Option.isSome_iff_exists.mp hsome
        exact Or.inr ⟨e, k, id, t, rfl, rfl, hentry⟩
      · exact Or.inl hc
    next => exact Or.inl hc

theorem handled_deliver {e : ContainerEvent} {k : Nat} (h : w.next (.deliver e k) = some w')
    (hentry : (w.entryOf e.name).isSome = true) : e.name ∈ w'.history.handled := by
  obtain ⟨-, -, rfl⟩ := next_deliver h
  have hentry' : ({ w with events := w.events.erase e }.entryOf e.name).isSome = true := hentry
  simp only [World.exitEvent, hentry', if_true]
  exact List.mem_cons_self

/-- A container crashes while it runs, and docker reports it. -/
theorem next_crashed (h : w.next a = some w') {c : String} (hc : c ∈ w'.history.crashed) :
    c ∈ w.history.crashed ∨ (∃ mounted, w.docker.lookup c = some ⟨.running, mounted⟩) ∧
      (⟨c, .die⟩ : ContainerEvent) ∈ w'.events := by
  revert h
  fun_cases World.next w a <;> intro h
  all_goals try cases h
  all_goals try exact Or.inl hc
  · -- observe
    unfold World.observe at hc
    simp only at hc
    split at hc <;> exact Or.inl hc
  · -- task
    obtain ⟨op, t, rest, -, -, -, rfl⟩ := World.runTask_eq_some h
    cases op <;> exact Or.inl hc
  · -- crash
    rename_i hrun
    rcases List.mem_cons.mp hc with rfl | hc
    · exact Or.inr ⟨⟨_, hrun⟩, List.mem_append_right _ (List.mem_singleton.mpr rfl)⟩
    · exact Or.inl hc

theorem crashed_deliver {e : ContainerEvent} {k : Nat} (h : w.next (.deliver e k) = some w') :
    w'.history.crashed = w.history.crashed := by
  obtain ⟨-, -, rfl⟩ := next_deliver h
  rfl

theorem World.mem_removalEvents {c : String} {e : ContainerEvent} (h : e ∈ w.removalEvents c) :
    e.name = c ∧ (w.docker.lookup c).isSome = true := by
  unfold World.removalEvents at h
  split at h
  next hk =>
    simp only [List.mem_cons, List.not_mem_nil, or_false] at h
    rcases h with rfl | rfl <;> exact ⟨rfl, by rw [hk]; rfl⟩
  next hk =>
    simp only [List.mem_cons, List.not_mem_nil, or_false] at h
    subst h
    exact ⟨rfl, by rw [hk]; rfl⟩
  next => cases h
  next => cases h

/-- Docker reports a container that it holds, and that does not run any more. -/
theorem next_events (h : w.next a = some w') {e : ContainerEvent} (he : e ∈ w'.events) :
    e ∈ w.events ∨ (w.docker.lookup e.name).isSome = true ∧
      ∀ mounted, w'.docker.lookup e.name ≠ some ⟨.running, mounted⟩ := by
  have hset : ∀ {d : String} {k : Container}, k.phase ≠ .running → e.name = d →
      (w.docker.lookup d).isSome = true → (w.docker.lookup e.name).isSome = true ∧
        ∀ mounted, (w.docker.insert d k).lookup e.name ≠ some ⟨.running, mounted⟩ := by
    intro d k hphase hname hsome
    subst hname
    refine ⟨hsome, fun mounted hrun => ?_⟩
    rw [AList.lookup_insert] at hrun
    cases hrun
    exact hphase rfl
  revert h
  fun_cases World.next w a <;> intro h
  all_goals try cases h
  all_goals try exact Or.inl he
  · -- observe
    unfold World.observe at he
    simp only at he
    split at he <;> exact Or.inl he
  · -- task
    obtain ⟨op, t, rest, -, -, -, rfl⟩ := World.runTask_eq_some h
    cases op <;> exact Or.inl he
  · -- deliver
    exact Or.inl (List.mem_of_mem_erase he)
  · -- runTeardown
    rcases List.mem_append.mp he with he | he
    · exact Or.inl he
    · obtain ⟨hname, hsome⟩ := World.mem_removalEvents he
      refine Or.inr ?_
      simp only [World.launcherTeardown]
      rw [if_pos hsome]
      exact hset (by simp) hname hsome
  · -- crash
    rename_i hrun
    rcases List.mem_append.mp he with he | he
    · exact Or.inl he
    · obtain rfl := List.mem_singleton.mp he
      exact Or.inr (hset (by simp) rfl (by rw [hrun]; rfl))
  · -- autoRemove
    rename_i hexit
    rcases List.mem_append.mp he with he | he
    · exact Or.inl he
    · obtain rfl := List.mem_singleton.mp he
      exact Or.inr (hset (by simp) rfl (by rw [hexit]; rfl))

-- ════════════════════════════════════════════════════════════════════════
-- Containers that are over
-- ════════════════════════════════════════════════════════════════════════

/-- The launch of the container has been processed. -/
def Launched (w : World) (c : String) : Prop :=
  ∃ saga, w.sagas.lookup c = some saga ∧ saga.launch ≠ .inFlight

theorem launched_step {c : String} (hlaunched : Launched w c) (h : w.next a = some w') :
    Launched w' c := by
  obtain ⟨saga, hsaga, hlaunch⟩ := hlaunched
  have hsame : ∀ {old new : Saga}, w.sagas.lookup c = some old → new.launch = old.launch →
      new.launch ≠ .inFlight := by
    intro old new hold heq
    rw [hsaga] at hold
    cases hold
    rwa [heq]
  rcases next_saga h c with hkeep | ⟨new, hnew, hmove⟩
  · exact ⟨saga, hkeep ▸ hsaga, hlaunch⟩
  · refine ⟨new, hnew, ?_⟩
    cases hmove with
    | spawn hfresh => rw [hsaga] at hfresh; cases hfresh
    | launchOk hat | launchErr hat | probeOk hat | probeErr hat | postOk hat | postErr hat
    | recordSpawn hat | spawnOk hat => exact hsame (World.atStage_eq_some hat).2.2.1 rfl
    | runLaunch | failLaunch => simp
    | runPost hold | failPost hold => exact hsame hold rfl

/-- The container was launched and does not run any more. -/
def Over (w : World) (c : String) : Prop :=
  Launched w c ∧ ∀ mounted, w.docker.lookup c ≠ some ⟨.running, mounted⟩

theorem over_step {c : String} (hover : Over w c) (h : w.next a = some w') : Over w' c := by
  obtain ⟨hlaunched, hdocker⟩ := hover
  refine ⟨launched_step hlaunched h, fun mounted hrun => ?_⟩
  obtain ⟨saga, hsaga, hlaunch⟩ := hlaunched
  rcases next_docker h c with hsame | ⟨k, hk, hmove⟩
  · exact hdocker mounted (hsame ▸ hrun)
  · rw [hrun] at hk
    cases hk
    cases hmove with
    | launch hold hflight | leave hold hflight =>
      rw [hsaga] at hold
      cases hold
      exact hlaunch hflight

/-- Docker holds launched containers, and reports only those that are over. -/
structure ExitInv (w : World) : Prop where
  docker : ∀ c, (w.docker.lookup c).isSome = true → Launched w c
  events : ∀ e ∈ w.events, Over w e.name
  handled : ∀ c ∈ w.history.handled, Over w c
  crashed : ∀ c ∈ w.history.crashed, Over w c

theorem exitInv_init : ExitInv World.init := by
  constructor <;> simp [World.init]

theorem exitInv_docker_step (inv : ExitInv w) (h : w.next a = some w') (c : String)
    (hc : (w'.docker.lookup c).isSome = true) : Launched w' c := by
  rcases next_docker h c with hsame | ⟨k, -, hmove⟩
  · exact launched_step (inv.docker c (hsame ▸ hc)) h
  · cases hmove with
    | launch hsaga hflight | leave hsaga hflight =>
      simp only [World.next, hsaga, Option.ite_none_right_eq_some, Option.some.injEq] at h
      obtain ⟨-, rfl⟩ := h
      exact ⟨_, AList.lookup_insert _, by simp⟩
    | teardown ht hname hsome => exact launched_step (inv.docker c hsome) h
    | crash hrun => exact launched_step (inv.docker c (by rw [hrun]; rfl)) h
    | autoRemove hexit => exact launched_step (inv.docker c (by rw [hexit]; rfl)) h

theorem exitInv_events_step (inv : ExitInv w) (h : w.next a = some w') (e : ContainerEvent)
    (he : e ∈ w'.events) : Over w' e.name := by
  rcases next_events h he with hold | ⟨hsome, hdocker⟩
  · exact over_step (inv.events e hold) h
  · exact ⟨launched_step (inv.docker e.name hsome) h, hdocker⟩

theorem exitInv_step (inv : ExitInv w) (h : w.next a = some w') : ExitInv w' where
  docker := exitInv_docker_step inv h
  events := exitInv_events_step inv h
  handled c hc := by
    rcases next_handled h hc with hold | ⟨e, k, id, t, rfl, rfl, -⟩
    · exact over_step (inv.handled c hold) h
    · exact over_step (inv.events e (next_deliver h).1) h
  crashed c hc := by
    rcases next_crashed h hc with hold | ⟨-, hdie⟩
    · exact over_step (inv.crashed c hold) h
    · exact exitInv_events_step inv h _ hdie

-- ════════════════════════════════════════════════════════════════════════
-- Exit events to come
-- ════════════════════════════════════════════════════════════════════════

/-- An exit event of the container is in flight, or docker will still send one. -/
def ExitToCome (w : World) (events : List ContainerEvent) (c : String) : Prop :=
  (∃ e ∈ events, e.name = c) ∨ (w.docker.lookup c).any (·.phase ≠ .removed) = true

instance (w : World) (events : List ContainerEvent) (c : String) :
    Decidable (ExitToCome w events c) :=
  inferInstanceAs (Decidable ((∃ e ∈ events, e.name = c) ∨ _))

/-- Docker reports what the launcher removes. -/
theorem exitToCome_runTeardown {t : Target} (h : w.next (.runTeardown t) = some w')
    (hcome : (w.docker.lookup t.containerName).any (·.phase ≠ .removed) = true) :
    ∃ e ∈ w'.events, e.name = t.containerName := by
  simp only [World.next, Option.ite_none_right_eq_some, Option.some.injEq] at h
  obtain ⟨-, rfl⟩ := h
  obtain ⟨⟨phase, mounted⟩, hk, hphase⟩ := (Option.any_eq_true _ _).mp hcome
  refine ⟨⟨t.containerName, .destroy⟩, List.mem_append_right _ ?_, rfl⟩
  have hk' : { w with teardowns := w.teardowns.erase t }.docker.lookup t.containerName =
      some ⟨phase, mounted⟩ := hk
  unfold World.removalEvents
  rw [hk']
  cases phase with
  | running => simp
  | exited => simp
  | removed => simp at hphase

/-- **Exit events come**: an exit event is still to come until one is delivered. -/
theorem exitToCome_step (h : w.next a = some w') {c : String} (hleft : ∀ k, a ≠ .failLaunch c k)
    (hcome : ExitToCome w w.events c) :
    ExitToCome w' w'.events c ∨ ∃ e k, a = .deliver e k ∧ e.name = c := by
  rcases hcome with ⟨e, he, hname⟩ | hdocker
  · rcases next_events_keep h he with hkeep | ⟨k, rfl⟩
    · exact Or.inl (Or.inl ⟨e, hkeep, hname⟩)
    · exact Or.inr ⟨e, k, rfl, hname⟩
  · refine Or.inl ?_
    rcases next_docker h c with hsame | ⟨k, hk, hmove⟩
    · exact Or.inr (hsame ▸ hdocker)
    · cases hmove with
      | launch => exact Or.inr (by rw [hk]; rfl)
      | leave => exact absurd rfl (hleft _)
      | teardown ht hname => exact Or.inl (hname ▸ exitToCome_runTeardown h (hname.symm ▸ hdocker))
      | crash => exact Or.inr (by rw [hk]; rfl)
      | autoRemove hexit =>
        simp only [World.next, hexit, Option.some.injEq] at h
        subst h
        exact Or.inl ⟨⟨c, .destroy⟩, List.mem_append_right _ (List.mem_singleton.mpr rfl), rfl⟩

end Botwork.SessionBroker
