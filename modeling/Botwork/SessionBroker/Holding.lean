import Botwork.SessionBroker.Parties

/-!
# Who holds a container

A container is pending on at most one stream, installed at most once and under
one session id, and a spawn that has not returned yet has an open stream.

## Main definitions

- `HeldOnce` — no container is held twice
- `PendingOpen` — pending containers belong to open streams
- `SpawningOpen` — so do spawns that have not returned
-/

namespace Botwork.SessionBroker

open Botwork.Foundations Botwork.ControlPlane

variable {w w' : World} {a : Action}

-- ════════════════════════════════════════════════════════════════════════
-- Containers are held once
-- ════════════════════════════════════════════════════════════════════════

/-- No container is pending twice, installed twice, or pending after it was
    installed. -/
structure HeldOnce (w : World) : Prop where
  pending : ∀ i j p q, w.pendingInit.lookup i = some p → w.pendingInit.lookup j = some q →
    p.containerName = q.containerName → i = j
  notYet : ∀ i p, w.pendingInit.lookup i = some p → p.containerName ∉ w.history.installed
  entries : ∀ id t, w.transportSessions.lookup id = some t →
    t.containerName ∈ w.history.installed
  unique : ∀ id id' t t', w.transportSessions.lookup id = some t →
    w.transportSessions.lookup id' = some t' → t.containerName = t'.containerName → id = id'

theorem heldOnce_init : HeldOnce World.init := by
  constructor <;> simp [World.init]

theorem pending_observe {i : Nat} (h : w.next (.observe i) = some w') :
    w'.pendingInit = w.pendingInit.erase i := by
  obtain ⟨id, td, -, rfl⟩ := next_observe h
  unfold World.observe
  simp only
  split <;> rfl

theorem installed_observe {i : Nat} {id : String} {td : Option Target} {p : PendingInit}
    (h : w.next (.observe i) = some w')
    (hst : w.streams.lookup i = some ⟨.observing (some id), td⟩)
    (hp : w.pendingInit.lookup i = some p) : p.containerName ∈ w'.history.installed := by
  obtain ⟨id', td', hst', rfl⟩ := next_observe h
  rw [hst] at hst'
  cases hst'
  simp [World.observe, World.installation, hp, World.log]

/-- A spawn that has not returned is held by nobody. -/
theorem not_returned_of_atStage {i : Nat} {c : String} {st : Stream} {saga : Saga}
    (hat : w.atStage i .returning = some (c, st, saga)) : ¬ Returned w c := by
  rintro ⟨old, hold, hstage⟩
  obtain ⟨-, -, hsaga, hreturning⟩ := World.atStage_eq_some hat
  rw [hsaga] at hold
  cases hold
  rw [hreturning] at hstage
  cases hstage

/-- Where a pending container of the next world comes from. -/
theorem pending_cases (named : SagasNamed w) (h : w.next a = some w') {i : Nat} {p : PendingInit}
    (hp : w'.pendingInit.lookup i = some p) :
    w.pendingInit.lookup i = some p ∨ a = .spawnOk i ∧ ¬ Returned w p.containerName := by
  rcases next_pending h with hsame | ⟨j, c, st, saga, rfl, hat, hins⟩ | ⟨j, -, heras⟩
  · exact Or.inl (hsame ▸ hp)
  · rw [hins, FiniteMap.lookup_insert_ite] at hp
    split at hp
    next heq =>
      cases hp
      subst heq
      have hname : saga.pending.containerName = c :=
        (named c saga (World.atStage_eq_some hat).2.2.1).1
      exact Or.inr ⟨rfl, hname ▸ not_returned_of_atStage hat⟩
    next => exact Or.inl hp
  · rw [heras, FiniteMap.lookup_erase_ite] at hp
    split at hp
    next => cases hp
    next => exact Or.inl hp

theorem heldOnce_pending_step (named : SagasNamed w) (holds : HoldsReturned w)
    (inv : HeldOnce w) (h : w.next a = some w') (i j : Nat) (p q : PendingInit)
    (hp : w'.pendingInit.lookup i = some p) (hq : w'.pendingInit.lookup j = some q)
    (heq : p.containerName = q.containerName) : i = j := by
  rcases pending_cases named h hp with hp | ⟨ha, hret⟩ <;>
    rcases pending_cases named h hq with hq | ⟨ha', hret'⟩
  · exact inv.pending i j p q hp hq heq
  · exact absurd (heq ▸ holds.pending i p hp) hret'
  · exact absurd (heq ▸ holds.pending j q hq) hret
  · rw [ha] at ha'
    exact Action.spawnOk.inj ha'

theorem heldOnce_notYet_step (named : SagasNamed w) (holds : HoldsReturned w)
    (inv : HeldOnce w) (h : w.next a = some w') (i : Nat) (p : PendingInit)
    (hp : w'.pendingInit.lookup i = some p) : p.containerName ∉ w'.history.installed := by
  intro hinst
  rcases next_installed h hinst with hold | ⟨j, td, id, q, rfl, -, hq, heq, -⟩
  · rcases pending_cases named h hp with hp | ⟨-, hret⟩
    · exact inv.notYet i p hp hold
    · exact hret (holds.installed _ hold)
  · rcases pending_cases named h hp with hold | ⟨ha, -⟩
    · -- the container that has just been installed is no longer pending
      have hij : i = j := inv.pending i j p q hold hq heq.symm
      rw [pending_observe h, hij, AList.lookup_erase] at hp
      cases hp
    · cases ha

/-- Where an entry of the next world comes from. -/
theorem entry_cases (inv : HeldOnce w) (h : w.next a = some w') {id : String} {t : TransportState}
    (ht : w'.transportSessions.lookup id = some t) :
    w.transportSessions.lookup id = some t ∨
      t.containerName ∈ w'.history.installed ∧ t.containerName ∉ w.history.installed ∧
        ∀ id' t', w'.transportSessions.lookup id' = some t' → id' ≠ id →
          w.transportSessions.lookup id' = some t' := by
  rcases next_transport h with hsame | ⟨i, td, m, p, rfl, hst, hp, hins⟩ | ⟨k, fork, op, t', rest,
    -, -, -, heras⟩
  · exact Or.inl (hsame ▸ ht)
  · rw [hins, FiniteMap.lookup_insert_ite] at ht
    split at ht
    next heq =>
      cases ht
      subst heq
      refine Or.inr ⟨installed_observe h hst hp, inv.notYet i p hp, ?_⟩
      intro id' t' ht' hne
      rwa [hins, FiniteMap.lookup_insert_ite, if_neg hne] at ht'
    next => exact Or.inl ht
  · rw [heras, FiniteMap.lookup_erase_ite] at ht
    split at ht
    next => cases ht
    next => exact Or.inl ht

theorem heldOnce_step (named : SagasNamed w) (holds : HoldsReturned w) (inv : HeldOnce w)
    (h : w.next a = some w') : HeldOnce w' where
  pending := heldOnce_pending_step named holds inv h
  notYet := heldOnce_notYet_step named holds inv h
  entries id t ht := by
    rcases entry_cases inv h ht with hold | ⟨hinst, -⟩
    · exact (next_history h).installed _ (inv.entries id t hold)
    · exact hinst
  unique id id' t t' ht ht' heq := by
    by_contra hne
    rcases entry_cases inv h ht with hold | ⟨-, hnew, hrest⟩
    · rcases entry_cases inv h ht' with hold' | ⟨-, hnew', -⟩
      · exact hne (inv.unique id id' t t' hold hold' heq)
      · exact hnew' (heq ▸ inv.entries id t hold)
    · have hold' := hrest id' t' ht' (Ne.symm hne)
      exact hnew (heq.symm ▸ inv.entries id' t' hold')

-- ════════════════════════════════════════════════════════════════════════
-- Open streams
-- ════════════════════════════════════════════════════════════════════════

/-- Pending containers belong to open streams. -/
def PendingOpen (w : World) : Prop :=
  ∀ i p, w.pendingInit.lookup i = some p → (w.streams.lookup i).isSome = true

theorem pendingOpen_step (inv : PendingOpen w) (h : w.next a = some w') : PendingOpen w' := by
  intro i p hp
  have hclose : a ≠ .closeStream i := by
    rintro rfl
    simp only [World.next] at h
    split at h
    next => cases h; rw [AList.lookup_erase] at hp; cases hp
    next => cases h
  rcases next_pending h with hsame | ⟨j, c, st, saga, rfl, hat, hins⟩ | ⟨j, -, heras⟩
  · exact next_stream_isSome h (inv i p (hsame ▸ hp)) hclose
  · refine next_stream_isSome h ?_ hclose
    rw [hins, FiniteMap.lookup_insert_ite] at hp
    split at hp
    next heq => rw [heq, (World.atStage_eq_some hat).1]; rfl
    next => exact inv i p hp
  · rw [heras, FiniteMap.lookup_erase_ite] at hp
    split at hp
    next => cases hp
    next => exact next_stream_isSome h (inv i p hp) hclose

/-- The spawn of the container is over. -/
def SpawnOver (w : World) (c : String) : Prop :=
  ∃ saga, w.sagas.lookup c = some saga ∧ (saga.stage = .returned ∨ saga.stage = .refused)

/-- A stream leaves `spawn_new_container` when the spawn is over. -/
theorem next_spawning (h : w.next a = some w') {i : Nat} {c : String} {td : Option Target}
    (hst : w.streams.lookup i = some ⟨.spawning c, td⟩) :
    w'.streams.lookup i = some ⟨.spawning c, td⟩ ∨ SpawnOver w' c := by
  -- a step on another stream, or on none
  have hother : ∀ {j : Nat} {pc : StreamPc} {td' : Option Target} {new : Stream},
      w.streams.lookup j = some ⟨pc, td'⟩ → (∀ d, pc ≠ .spawning d) →
      (w.streams.insert j new).lookup i = some ⟨.spawning c, td⟩ := by
    intro j pc td' new hj hpc
    rw [FiniteMap.lookup_insert_ite, if_neg]
    · exact hst
    · rintro rfl
      rw [hst] at hj
      cases hj
      exact hpc c rfl
  -- a spawn that is over, on this stream or on another one
  have hover : ∀ {j : Nat} {stage : SagaStage} {d : String} {st : Stream} {old new : Saga}
      {pc : StreamPc}, w.atStage j stage = some (d, st, old) →
      new.stage = .returned ∨ new.stage = .refused →
      (w.streams.insert j { st with pc := pc }).lookup i = some ⟨.spawning c, td⟩ ∨
        ∃ saga, (w.sagas.insert d new).lookup c = some saga ∧
          (saga.stage = .returned ∨ saga.stage = .refused) := by
    intro j stage d st old new pc hat hnew
    obtain ⟨hj, hpc, -, -⟩ := World.atStage_eq_some hat
    by_cases hij : i = j
    · subst hij
      rw [hst] at hj
      cases hj
      cases hpc
      exact Or.inr ⟨new, AList.lookup_insert _, hnew⟩
    · exact Or.inl (by rw [FiniteMap.lookup_insert_ite, if_neg hij]; exact hst)
  revert h
  fun_cases World.next w a <;> intro h
  all_goals try cases h
  all_goals try exact Or.inl hst
  all_goals try exact Or.inl (hother ‹_› (by simp))
  · -- openStream
    rename_i j hfree
    refine Or.inl ?_
    simp only [FiniteMap.lookup_insert_ite]
    rw [if_neg]
    · exact hst
    · rintro rfl
      rw [hst] at hfree
      exact hfree rfl
  · -- closeStream
    rename_i j td' hj
    refine Or.inl ?_
    simp only [FiniteMap.lookup_erase_ite]
    rw [if_neg]
    · exact hst
    · rintro rfl
      rw [hst] at hj
      cases hj
  · -- launchErr
    rename_i hat
    exact hover hat (Or.inr rfl)
  · -- probeErr
    rename_i hat _
    exact hover hat (Or.inr rfl)
  · -- postErr
    rename_i hat _
    exact hover hat (Or.inr rfl)
  · -- spawnOk
    rename_i hat
    exact hover hat (Or.inl rfl)
  · -- observe
    rename_i hj
    refine Or.inl ?_
    unfold World.observe
    simp only
    split <;> exact hother hj (by simp)
  · -- task
    obtain ⟨op, t, rest, -, -, -, rfl⟩ := World.runTask_eq_some h
    cases op <;> exact Or.inl hst

theorem World.spawning_of_atStage {i : Nat} {stage : SagaStage} {c : String} {st : Stream}
    {saga : Saga} (hat : w.atStage i stage = some (c, st, saga)) :
    ∃ i td, w.streams.lookup i = some ⟨.spawning c, td⟩ := by
  obtain ⟨hst, hpc, -, -⟩ := World.atStage_eq_some hat
  obtain ⟨pc, td⟩ := st
  cases hpc
  exact ⟨i, td, hst⟩

/-- A spawn that is not over has an open stream. -/
def SpawningOpen (w : World) : Prop :=
  ∀ c saga, w.sagas.lookup c = some saga → saga.stage ≠ .returned → saga.stage ≠ .refused →
    ∃ i td, w.streams.lookup i = some ⟨.spawning c, td⟩

theorem spawningOpen_step (inv : SpawningOpen w) (h : w.next a = some w') : SpawningOpen w' := by
  intro c saga hsaga hreturned hrefused
  -- the spawn is not over, so its stream stays where it is
  have hkeep : (∃ i td, w.streams.lookup i = some ⟨.spawning c, td⟩) →
      ∃ i td, w'.streams.lookup i = some ⟨.spawning c, td⟩ := by
    rintro ⟨i, td, hst⟩
    rcases next_spawning h hst with hst' | ⟨saga', hsaga', hover⟩
    · exact ⟨i, td, hst'⟩
    · rw [hsaga] at hsaga'
      cases hsaga'
      rcases hover with hover | hover
      · exact absurd hover hreturned
      · exact absurd hover hrefused
  rcases next_saga h c with hsame | ⟨new, hnew, hmove⟩
  · exact hkeep (inv c saga (hsame ▸ hsaga) hreturned hrefused)
  · rw [hsaga] at hnew
    cases hnew
    cases hmove with
    | @spawn i s ip hfresh htoken hname =>
      subst hname
      simp only [World.next] at h
      split at h
      next td hst =>
        split at h
        next => cases h
        next =>
          cases h
          exact ⟨i, td, AList.lookup_insert _⟩
      next => cases h
    | launchOk hat | probeOk hat | postOk hat | recordSpawn hat =>
      exact hkeep (World.spawning_of_atStage hat)
    | launchErr | probeErr | postErr => exact absurd rfl hrefused
    | spawnOk => exact absurd rfl hreturned
    | @runLaunch ip old hold | @failLaunch left old hold | @runPost old hold
    | @failPost old hold => exact hkeep (inv c old hold hreturned hrefused)

end Botwork.SessionBroker
