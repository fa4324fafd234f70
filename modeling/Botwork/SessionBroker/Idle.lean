import Botwork.SessionBroker.Reaping

/-!
# An idle session has a reaper

The timer of a session is lost when a bump takes its handle after it has woken:
the abort stops the reap, and the entry the bump counts on is no longer in the
map, so that no drop ever sets another timer.  While handles are taken only from
timers that sleep or are done, an idle session has a timer, and a reap that has
started is not cancelled.

## Main definitions

- `Pc.ends`, `Pc.tends` — tasks that remove a session, or see to its timer
- `Reaped` — idle sessions have a timer, and a started reap goes on
- `IdleGuard` — the condition on a step
- `Covered` — what keeps a session from being forgotten

## Main results

- `idle_reaped` — the property holds under the condition
- `late_abort_loses_reaper` — and not without it
-/

namespace Botwork.SessionBroker.Liveness

open Botwork.Foundations

/-- The task still has to remove the transport entry of the session. -/
def Pc.ends (id : String) : Pc → Bool
  | .expired id' | .reaping id' => id' = id
  | .path p => p.removes id
  | _ => false

/-- The task still has to remove some transport entry. -/
def Pc.ending : Pc → Bool
  | .expired _ | .reaping _ => true
  | .path p => p.ops.contains .removeEntry || !p.rest.isEmpty
  | _ => false

/-- A stream that is about to count on the entry, or to set its timer. -/
def Pc.tends (id : String) (e : Nat) : Pc → Bool
  | .bumpCount id' e' | .dropIdentify id' e' | .dropRecord id' e' _ | .arm id' e' =>
    id' = id && e' = e
  | _ => false

/-- Between the launcher teardown and the removal of the transport entry. -/
def Pc.reapStarted : Pc → Bool
  | .path p => p.reaper && !p.ops.contains .callTeardown && p.ops.contains .removeEntry
  | _ => false

/-- Every stream is open, and every timer sleeps. -/
def Quiescent (s : State) : Prop :=
  ∀ k t, s.tasks.lookup k = some t → (∃ id e, t.pc = .streaming id e) ∨ ∃ id e, t.pc = .sleeping id e

/-- **An idle session has a reaper**: in a quiescent state, a session without an
    open stream has a timer that is not aborted; and no timer is aborted between
    the launcher teardown and the removal of the transport entry. -/
structure Reaped (s : State) : Prop where
  idle : Quiescent s → ∀ id, (s.shared.transportSessions.lookup id).isSome = true →
    (∃ k t e, s.tasks.lookup k = some t ∧ t.pc = .streaming id e) ∨
      ∃ k t e, s.tasks.lookup k = some t ∧ t.pc = .sleeping id e ∧ t.aborted = false
  started : ∀ k t, s.tasks.lookup k = some t → t.pc.reapStarted = true → t.aborted = false

-- ════════════════════════════════════════════════════════════════════════
-- The condition
-- ════════════════════════════════════════════════════════════════════════

/-- The handle of the entry is of no timer that has woken and is not done. -/
def Takable (s : State) (e : Nat) : Prop :=
  ((s.shared.entries e).graceHandle.all fun j =>
    (s.tasks.lookup j).all fun t => !t.pc.ending) = true

instance (s : State) (e : Nat) : Decidable (Takable s e) :=
  inferInstanceAs (Decidable (_ = true))

/-- The conditions on a turn, by where the task stands. -/
def IdleTurn (s : State) : Pc → Prop
  | .bumpTake _ e => Takable s e
  | .path p =>
    match p.ops, p.held with
    | .takeHandle :: _, some e => Takable s e
    -- the exit path unmaps last: the session has not been installed again
    | .unmap :: ops, _ => ops.contains .removeEntry = false →
        s.shared.transportSessions.lookup p.job.mcpSessionId = none
    | _, _ => True
  | _ => True

instance (s : State) (pc : Pc) : Decidable (IdleTurn s pc) := by
  induction pc using Pc.casesOn with
  | path p =>
    induction p using Path.casesOn with | mk reaper job held who ops rest =>
    induction ops using List.casesOn with
    | nil => exact .isTrue trivial
    | cons op ops =>
      induction op using PathOp.casesOn <;> induction held using Option.casesOn <;>
        (dsimp only [IdleTurn]; infer_instance)
  | _ => dsimp only [IdleTurn]; infer_instance

def IdleGuard (s : State) (a : Action) : Prop := FreshGuard s a ∧ OnTurn IdleTurn s a

instance (s : State) (a : Action) : Decidable (IdleGuard s a) :=
  inferInstanceAs (Decidable (FreshGuard s a ∧ OnTurn IdleTurn s a))

-- ════════════════════════════════════════════════════════════════════════
-- Turns
-- ════════════════════════════════════════════════════════════════════════

variable {m : Shared} {n : Nat} {pc pc' : Pc} {s s' : State} {a : Action}

theorem Path.ending_of_continue {p q : Path} {ops : List PathOp}
    (h : p.continue ops = some (.path q)) (hending : (Pc.path q).ending = true) :
    ops.contains .removeEntry = true ∨ p.rest ≠ [] := by
  revert h
  fun_cases Path.continue p ops with
  | case1 => intro h; cases h
  | case2 job rest hr =>
    intro h
    exact Or.inr (by simp [hr])
  | case3 =>
    intro h
    cases h
    simpa [Pc.ending] using hending

/-- A task that has a removal ahead had one before, or was a timer that slept. -/
theorem turn_ending (h : (turn m n pc).next = some pc') (hending : pc'.ending = true) :
    pc.ending = true ∨ pc.sleeps = true := by
  revert h
  fun_cases turn m n pc <;> intro h
  case case18 => exact Or.inr rfl
  case case20 => exact Or.inl rfl
  case case22 p op ops hops =>
    obtain ⟨q, rfl, -⟩ := Path.turn_next_eq_some h
    obtain ⟨r, hnext, -, -, hrest, -⟩ := p.turn_next m ops op
    rw [hnext] at h
    have hahead := Path.ending_of_continue h hending
    rw [hrest] at hahead
    refine Or.inl ?_
    simp only [Pc.ending, hops, List.contains_cons, Bool.or_eq_true]
    rcases hahead with hmem | hlater
    · exact Or.inl (Or.inr hmem)
    · exact Or.inr (by simpa using hlater)
  case case23 p hnil =>
    obtain ⟨q, rfl, -⟩ := Path.continue_eq_some h
    refine Or.inl ?_
    rcases Path.ending_of_continue h hending with hmem | hlater
    · cases hmem
    · simp [Pc.ending, hlater]
  case case12 =>
    simp only at h
    split at h <;> cases h
    cases hending
  all_goals cases h
  all_goals exact Or.inl hending

theorem Path.continue_removes {p : Path} {ops : List PathOp} {id : String}
    (h : (p.job.mcpSessionId = id ∧ ops.contains .removeEntry = true) ∨
      p.rest.any (·.mcpSessionId = id) = true) :
    ∃ pc, p.continue ops = some pc ∧ pc.ends id = true := by
  fun_cases Path.continue p ops with
  | case1 hr =>
    rcases h with ⟨-, hmem⟩ | hlater
    · cases hmem
    · rw [hr] at hlater
      cases hlater
  | case2 job rest hr =>
    refine ⟨_, rfl, ?_⟩
    rcases h with ⟨-, hmem⟩ | hlater
    · cases hmem
    · rw [hr] at hlater
      simp only [List.any_cons, Bool.or_eq_true, decide_eq_true_eq] at hlater
      simp only [Pc.ends, Path.removes, Bool.or_eq_true, Bool.and_eq_true, decide_eq_true_eq]
      rcases hlater with hid | hlater
      · exact Or.inl ⟨hid, by decide⟩
      · exact Or.inr hlater
  | case3 =>
    refine ⟨_, rfl, ?_⟩
    simp only [Pc.ends, Path.removes, Bool.or_eq_true, Bool.and_eq_true, decide_eq_true_eq]
    exact h

/-- A task that has to remove the session goes on to do so, or has just done it. -/
theorem turn_ends {id : String} (hends : pc.ends id = true)
    (hstays : ((turn m n pc).shared.transportSessions.lookup id).isSome = true) :
    ∃ pc', (turn m n pc).next = some pc' ∧ pc'.ends id = true := by
  revert hstays
  fun_cases turn m n pc <;> intro hstays
  case case19 => exact ⟨_, rfl, hends⟩
  case case20 id' t ht =>
    obtain rfl := of_decide_eq_true hends
    exact ⟨_, rfl, by simp [Pc.ends, Path.removes, teardownSession]⟩
  case case21 id' hnone =>
    obtain rfl := of_decide_eq_true hends
    rw [hnone] at hstays
    cases hstays
  case case22 p op ops hops =>
    obtain ⟨r, hnext, -, hjob, hrest, -⟩ := p.turn_next m ops op
    simp only [Pc.ends, Path.removes, Bool.or_eq_true, Bool.and_eq_true, decide_eq_true_eq, hops,
      List.contains_cons, beq_iff_eq] at hends
    rw [hnext]
    refine Path.continue_removes ?_
    rw [hjob, hrest]
    rcases hends with ⟨hid, rfl | hmem⟩ | hlater
    · refine absurd hstays ?_
      simp [Path.turn, hid]
    · exact Or.inl ⟨hid, hmem⟩
    · exact Or.inr hlater
  case case23 p hnil =>
    simp only [Pc.ends, Path.removes, hnil, Bool.or_eq_true, Bool.and_eq_true] at hends
    refine Path.continue_removes (Or.inr ?_)
    rcases hends with ⟨-, hmem⟩ | hlater
    · cases hmem
    · exact hlater
  all_goals cases hends

/-- A counter that reaches zero leaves a stream that sees to the timer. -/
theorem turn_open {e : Nat} (hopen : 0 < (m.entries e).openStreams)
    (hnew : ∀ id, pc = .bumpEntry id → m.streamLiveness.lookup id = none → e ≠ m.nextEntry) :
    0 < ((turn m n pc).shared.entries e).openStreams ∨
      ∃ id, pc = .dropCount id e ∧ (turn m n pc).next = some (.dropIdentify id e) := by
  fun_cases turn m n pc
  case case1 id m' e' hins =>
    rcases orInsert_cases m id with ⟨e'', -, heq⟩ | ⟨hnone, heq⟩
    · rw [hins] at heq
      cases heq
      exact Or.inl hopen
    · rw [hins] at heq
      cases heq
      exact Or.inl (by simpa [hnew id rfl hnone] using hopen)
  case case2 id e' =>
    refine Or.inl ?_
    by_cases heq : e = e'
    · subst heq
      simp [Shared.setEntry]
    · simpa [Shared.setEntry, heq] using hopen
  case case3 id e' timer htimer =>
    refine Or.inl ?_
    by_cases heq : e = e'
    · subst heq
      simpa [Shared.takeHandle, Shared.setEntry] using hopen
    · simpa [Shared.takeHandle, Shared.setEntry, heq] using hopen
  case case12 id e' k hk =>
    by_cases heq : e = e'
    · subst heq
      by_cases hzero : k = 0
      · exact Or.inr ⟨id, rfl, if_pos hzero⟩
      · exact Or.inl (by simpa [Shared.setEntry] using Nat.pos_of_ne_zero hzero)
    · exact Or.inl (by simpa [Shared.setEntry, heq] using hopen)
  case case15 =>
    rw [entries_transitionState]
    exact Or.inl hopen
  case case17 id e' hzero =>
    refine Or.inl ?_
    by_cases heq : e = e'
    · subst heq
      simpa [Shared.setEntry] using hopen
    · simpa [Shared.setEntry, heq] using hopen
  case case22 p op ops hops =>
    refine Or.inl ?_
    fun_cases Path.turn m p ops op
    case case2 e' he' =>
      by_cases heq : e = e'
      · subst heq
        simpa [Shared.takeHandle, Shared.setEntry] using hopen
      · simpa [Shared.takeHandle, Shared.setEntry, heq] using hopen
    case case8 =>
      rw [entries_transitionState]
      exact hopen
    all_goals exact hopen
  all_goals exact Or.inl hopen

/-- A turn adds no transport entry. -/
theorem turn_transports {id : String} {t : TransportState}
    (h : (turn m n pc).shared.transportSessions.lookup id = some t) :
    m.transportSessions.lookup id = some t := by
  have htransition : ∀ (who : Identity) (state : AgentState),
      (m.transitionState who state).transportSessions = m.transportSessions := by
    intro who state
    unfold Shared.transitionState
    split <;> rfl
  revert h
  fun_cases turn m n pc <;> intro h
  case case1 id' m' e' hins =>
    rcases orInsert_cases m id' with ⟨e'', -, heq⟩ | ⟨-, heq⟩
    · rw [hins] at heq
      cases heq
      exact h
    · rw [hins] at heq
      cases heq
      exact h
  case case15 =>
    rw [htransition] at h
    exact h
  case case22 p op ops hops =>
    revert h
    fun_cases Path.turn m p ops op <;> intro h
    case case7 =>
      simp only [FiniteMap.lookup_erase_ite] at h
      split at h
      next => cases h
      next => exact h
    case case8 =>
      rw [htransition] at h
      exact h
    all_goals exact h
  all_goals exact h

/-- A path holds an entry because it has just removed it from the map. -/
theorem turn_held {q : Path} {e : Nat} (h : (turn m n pc).next = some (.path q))
    (hheld : q.held = some e) :
    (∃ p, pc = .path p ∧ p.held = some e) ∨
      ∃ p ops, pc = .path p ∧ p.ops = .unmap :: ops ∧
        m.streamLiveness.lookup p.job.mcpSessionId = some e := by
  revert h
  fun_cases turn m n pc <;> intro h
  case case20 =>
    cases h
    cases hheld
  case case22 p op ops hops =>
    obtain ⟨r, hnext, -, -, -, hregister⟩ := p.turn_next m ops op
    rw [hnext] at h
    obtain ⟨q', heq, -, ⟨-, rfl⟩ | ⟨-, hnone, -⟩⟩ := Path.continue_eq_some h
    · cases heq
      change r.held = some e at hheld
      rcases hregister with hsame | hnone | ⟨rfl, hlook⟩
      · exact Or.inl ⟨p, rfl, hsame ▸ hheld⟩
      · rw [hnone] at hheld
        cases hheld
      · exact Or.inr ⟨p, ops, rfl, hops, hlook ▸ hheld⟩
    · cases heq
      rw [hnone] at hheld
      cases hheld
  case case23 p hnil =>
    obtain ⟨q', heq, -, ⟨hne, -⟩ | ⟨-, hnone, -⟩⟩ := Path.continue_eq_some h
    · exact absurd rfl hne
    · cases heq
      rw [hnone] at hheld
      cases hheld
  case case12 =>
    simp only at h
    split at h <;> cases h
  all_goals cases h

-- ════════════════════════════════════════════════════════════════════════
-- The invariant
-- ════════════════════════════════════════════════════════════════════════

/-- The entry is open, or a stream or a timer sees to it. -/
def Watched (s : State) (id : String) (e : Nat) : Prop :=
  0 < (s.shared.entries e).openStreams ∨
    (∃ k t, s.tasks.lookup k = some t ∧ t.pc.tends id e = true) ∨
    ∃ k t, (s.shared.entries e).graceHandle = some k ∧ s.tasks.lookup k = some t ∧
      t.pc = .sleeping id e

/-- A task is about to remove the session or to bump for it, or its entry is
    watched. -/
def Covered (s : State) (id : String) : Prop :=
  (∃ k t, s.tasks.lookup k = some t ∧ (t.pc.ends id = true ∨ t.pc = .bumpEntry id)) ∨
    ∃ e, s.shared.streamLiveness.lookup id = some e ∧ Watched s id e

structure IdleInv (s : State) : Prop where
  entries : EntriesInv s
  awake : ∀ k t, s.tasks.lookup k = some t → t.aborted = true → t.pc.sleeps = false
  firm : ∀ k t, s.tasks.lookup k = some t → t.pc.ending = true → t.aborted = false
  /-- an entry that a path has removed does not come back -/
  held : ∀ k t p e, s.tasks.lookup k = some t → t.pc = .path p → p.held = some e →
    e < s.shared.nextEntry ∧ ∀ id, s.shared.streamLiveness.lookup id ≠ some e
  covered : ∀ id, (s.shared.transportSessions.lookup id).isSome = true → Covered s id

theorem IdleGuard.turn {k : Nat} {t : TaskState Pc} (h : IdleGuard s (.run k))
    (hk : s.tasks.lookup k = some t) : IdleTurn s t.pc := h.2 t hk

/-- What a turn aborts has no removal ahead. -/
theorem abort_not_ending {k j : Nat} {t u : TaskState Pc} (h : IdleGuard s (.run k))
    (hk : s.tasks.lookup k = some t) (habort : (turn s.shared s.nextTask t.pc).abort = some j)
    (hj : s.tasks.lookup j = some u) : u.pc.ending = false := by
  obtain ⟨e, hhandle, -, hpc⟩ := turn_abort habort
  have htakable : Takable s e := by
    have hturn := h.turn hk
    rcases hpc with ⟨id, hpc⟩ | ⟨p, ops, hpc, hops, hheld⟩
    · rw [hpc] at hturn
      exact hturn
    · rw [hpc] at hturn
      simpa only [IdleTurn, hops, hheld] using hturn
  simpa [Takable, hhandle, hj] using htakable

theorem awake_step (inv : IdleInv s) (h : next s a = some s') {j : Nat} {u : TaskState Pc}
    (hu : s'.tasks.lookup j = some u) (haborted : u.aborted = true) : u.pc.sleeps = false := by
  obtain ⟨habort, hcases⟩ := task_step h hu
  rcases aborted_step h hu haborted with ⟨v, hv, hvaborted⟩ | ⟨k, t, hrun, hk, heq⟩
  · rcases hcases with ⟨w, hw, hpc, -⟩ | ⟨w, -, -, hnext⟩ | ⟨rfl, -⟩
    · rw [hv] at hw
      cases hw
      rw [← hpc]
      exact inv.awake j v hv hvaborted
    · exact turn_next_awake hnext
    · rw [inv.entries.numbered.free] at hv
      cases hv
  · exact habort k t hrun hk heq

theorem firm_step (inv : IdleInv s) (hguard : IdleGuard s a) (h : next s a = some s') {j : Nat}
    {u : TaskState Pc} (hu : s'.tasks.lookup j = some u) (hending : u.pc.ending = true) :
    u.aborted = false := by
  by_contra haborted
  rw [Bool.not_eq_false] at haborted
  have hwas := aborted_step h hu haborted
  obtain ⟨-, ⟨v, hv, hpc, -⟩ | ⟨v, rfl, hv, hnext⟩ | ⟨rfl, -⟩⟩ := task_step h hu
  · rcases hwas with ⟨w, hw, hwaborted⟩ | ⟨k, t, rfl, hk, habort⟩
    · rw [hv] at hw
      cases hw
      rw [inv.firm j v hv (hpc ▸ hending)] at hwaborted
      cases hwaborted
    · have hdone := abort_not_ending hguard hk habort hv
      rw [hpc, hending] at hdone
      cases hdone
  · rcases hwas with ⟨w, hw, hwaborted⟩ | ⟨k, t, hrun, hk, habort⟩
    · rw [hv] at hw
      cases hw
      rcases turn_ending hnext hending with hold | hsleeps
      · rw [inv.firm j v hv hold] at hwaborted
        cases hwaborted
      · rw [inv.awake j v hv hwaborted] at hsleeps
        cases hsleeps
    · -- a task that takes its own handle
      cases hrun
      rw [hv] at hk
      cases hk
      have hdone := abort_not_ending hguard hv habort hv
      rcases turn_ending hnext hending with hold | hsleeps
      · rw [hdone] at hold
        cases hold
      · obtain ⟨e, -, -, ⟨id, hpc⟩ | ⟨p, ops, hpc, -⟩⟩ := turn_abort habort
        · rw [hpc] at hsleeps
          cases hsleeps
        · rw [hpc] at hsleeps
          cases hsleeps
  · rcases hwas with ⟨w, hw, -⟩ | ⟨k, t, -, -, habort⟩
    · rw [inv.entries.numbered.free] at hw
      cases hw
    · obtain ⟨e, hhandle, -⟩ := turn_abort habort
      exact absurd (inv.entries.given e _ hhandle) (Nat.lt_irrefl _)

/-- The map gets no entry but a new one. -/
theorem map_step (h : next s a = some s') {id : String} {e : Nat}
    (hmap : s'.shared.streamLiveness.lookup id = some e) :
    s.shared.streamLiveness.lookup id = some e ∨ e = s.shared.nextEntry := by
  rcases next_cases h with ⟨rfl, -⟩ | ⟨m, pc, rfl, hbegins⟩ | ⟨id₀, t, -, -, -, -, rfl⟩ |
    ⟨k, t, -, -, rfl⟩ | ⟨k, t, -, -, -, rfl⟩
  · exact Or.inl hmap
  · exact Or.inl (hbegins.map ▸ hmap)
  · simp only [recovered, Pool.start, FiniteMap.lookup_insert_ite] at hmap
    split at hmap
    next => exact Or.inr (Option.some.inj hmap).symm
    next => exact Or.inl hmap
  · change (turn s.shared s.nextTask t.pc).shared.streamLiveness.lookup id = some e at hmap
    rcases turn_map s.shared s.nextTask t.pc with ⟨hsame, -⟩ | ⟨id₀, -, -, hins, -⟩ | ⟨id₀, heras, -⟩
    · exact Or.inl (hsame ▸ hmap)
    · rw [hins, FiniteMap.lookup_insert_ite] at hmap
      split at hmap
      next => exact Or.inr (Option.some.inj hmap).symm
      next => exact Or.inl hmap
    · rw [heras, FiniteMap.lookup_erase_ite] at hmap
      split at hmap
      next => cases hmap
      next => exact Or.inl hmap
  · exact Or.inl hmap

theorem held_step (inv : IdleInv s) (h : next s a = some s') {j : Nat} {u : TaskState Pc} {p : Path}
    {e : Nat} (hu : s'.tasks.lookup j = some u) (hpc : u.pc = .path p) (hheld : p.held = some e) :
    e < s'.shared.nextEntry ∧ ∀ id, s'.shared.streamLiveness.lookup id ≠ some e := by
  have hstays : (e < s.shared.nextEntry ∧ ∀ id, s.shared.streamLiveness.lookup id ≠ some e) →
      e < s'.shared.nextEntry ∧ ∀ id, s'.shared.streamLiveness.lookup id ≠ some e := by
    rintro ⟨hlt, hgone⟩
    refine ⟨Nat.lt_of_lt_of_le hlt (nextEntry_le h), fun id hmap => ?_⟩
    rcases map_step h hmap with hold | hnew
    · exact hgone id hold
    · omega
  obtain ⟨-, ⟨v, hv, hvpc, -⟩ | ⟨v, rfl, hv, hnext⟩ | ⟨-, hnew⟩⟩ := task_step h hu
  · exact hstays (inv.held j v p e hv (hvpc.trans hpc) hheld)
  · rw [hpc] at hnext
    rcases turn_held hnext hheld with ⟨q, hq, hqheld⟩ | ⟨q, ops, hq, hops, hmap⟩
    · exact hstays (inv.held j v q e hv hq hqheld)
    · -- the turn has removed the entry
      have hself : Uses s q.job.mcpSessionId e := Or.inl hmap
      have hlt := inv.entries.below _ e hself
      refine ⟨Nat.lt_of_lt_of_le hlt (nextEntry_le h), fun id hmap' => ?_⟩
      rcases map_step h hmap' with hold | hnew
      · have heq : id = q.job.mcpSessionId := (inv.entries.one _ _ e e (Or.inl hold) hself).mpr rfl
        simp only [next, hv] at h
        cases h
        rw [heq] at hmap'
        simp [Pool.resume, hq, turn, hops, Path.turn] at hmap'
      · omega
  · rcases hnew with hinit | ⟨id, tr, -, hpc'⟩ | ⟨k, t, -, -, hsp⟩
    · rw [hpc] at hinit
      simp [Pc.isInitial, hheld] at hinit
    · rw [hpc] at hpc'
      cases hpc'
    · rcases turn_spawned hsp with ⟨id, e', -, -, hpc'⟩ | ⟨q, hpc', -, hnone⟩
      · rw [hpc] at hpc'
        cases hpc'
      · rw [hpc] at hpc'
        cases hpc'
        rw [hnone] at hheld
        cases hheld

theorem Pc.ending_of_ends {id : String} (h : pc.ends id = true) : pc.ending = true := by
  cases pc with
  | expired id' | reaping id' => rfl
  | path p =>
    simp only [Pc.ends, Path.removes, Bool.or_eq_true, Bool.and_eq_true] at h
    simp only [Pc.ending, Bool.or_eq_true]
    rcases h with ⟨-, hmem⟩ | hlater
    · exact Or.inl hmem
    · refine Or.inr ?_
      cases hrest : p.rest with
      | nil =>
        rw [hrest] at hlater
        cases hlater
      | cons job rest => rfl
  | _ => cases h

theorem Pc.awake_of_ends {id : String} (h : pc.ends id = true) : pc.sleeps = false := by
  cases pc <;> first | rfl | cases h

theorem Pc.awake_of_tends {id : String} {e : Nat} (h : pc.tends id e = true) :
    pc.sleeps = false := by
  cases pc <;> first | rfl | cases h

theorem Pc.isTimer_of_tends {id : String} {e : Nat} (h : pc.tends id e = true) :
    pc.isTimer = false := by
  cases pc <;> first | rfl | cases h

-- ════════════════════════════════════════════════════════════════════════
-- Coverage across a turn
-- ════════════════════════════════════════════════════════════════════════

/-- The map keeps the entry of a session that stays, unless its timer expires. -/
theorem map_stays {k : Nat} {t : TaskState Pc} {id : String} {e : Nat}
    (hguard : IdleGuard s (.run k)) (hk : s.tasks.lookup k = some t)
    (hin : (s.shared.transportSessions.lookup id).isSome = true) (hends : t.pc.ends id = false)
    (hmap : s.shared.streamLiveness.lookup id = some e) :
    (turn s.shared s.nextTask t.pc).shared.streamLiveness.lookup id = some e := by
  rcases turn_map s.shared s.nextTask t.pc with ⟨hsame, -⟩ | ⟨id₀, -, hnone, hins, -⟩ |
    ⟨id₀, heras, -, hpc⟩
  · rw [hsame]
    exact hmap
  · rw [hins, FiniteMap.lookup_insert_ite]
    split
    next heq =>
      rw [heq, hnone] at hmap
      cases hmap
    next => exact hmap
  · rw [heras, FiniteMap.lookup_erase_ite]
    split
    next heq =>
      subst heq
      rcases hpc with hpc | ⟨p, ops, hpc, hops, hid⟩
      · rw [hpc] at hends
        simp [Pc.ends] at hends
      · -- a path that unmaps without a removal ahead is the exit path
        have hturn := hguard.turn hk
        rw [hpc] at hends hturn
        simp only [IdleTurn, hops] at hturn
        have hlast : ops.contains .removeEntry = false := by
          simp only [Pc.ends, Path.removes, hid, hops, decide_true, Bool.true_and,
            Bool.or_eq_false_iff, List.contains_cons] at hends
          exact hends.1.2
        rw [← hid, hturn hlast] at hin
        cases hin
    next => exact hmap

/-- A handle that a turn takes from the entry of a session is taken by a stream
    that is counted on the entry. -/
theorem open_of_abort {k j : Nat} {t u : TaskState Pc} {id : String} {e : Nat} (inv : IdleInv s)
    (hk : s.tasks.lookup k = some t) (habort : (turn s.shared s.nextTask t.pc).abort = some j)
    (hmap : s.shared.streamLiveness.lookup id = some e) (hj : s.tasks.lookup j = some u)
    (hpc : u.pc = .sleeping id e) : 0 < (s.shared.entries e).openStreams := by
  obtain ⟨e', hhandle, -, hwhere⟩ := turn_abort habort
  have htimer := inv.entries.handles e' j u hhandle hj
  rw [hpc] at htimer
  obtain rfl : e = e' := of_decide_eq_true htimer
  rcases hwhere with ⟨id', hbump⟩ | ⟨p, ops, hpath, -, hheld⟩
  · have hcounted : 0 < s.count (Pc.countedOn e) :=
      Pool.count_pos.mpr ⟨k, t, hk, by rw [hbump]; exact decide_eq_true rfl⟩
    exact Nat.lt_of_lt_of_le hcounted (inv.entries.counted e)
  · exact absurd hmap ((inv.held k t p e hk hpath hheld).2 id)

/-- Past its first section, a turn leaves the entry of a session watched, or makes
    its own task the one that removes the session. -/
theorem watched_turn {k : Nat} {t : TaskState Pc} {id : String} {e : Nat} (inv : IdleInv s)
    (hk : s.tasks.lookup k = some t) (hmap : s.shared.streamLiveness.lookup id = some e)
    (hwatched : Watched s id e) :
    Watched (s.resume Pc.sleeps k t (turn s.shared s.nextTask t.pc)) id e ∨
      (turn s.shared s.nextTask t.pc).next = some (.expired id) := by
  have hself : Uses s id e := Or.inl hmap
  have hbelow := inv.entries.below id e hself
  have hnumbered := inv.entries.numbered
  have hopens : 0 < (s.shared.entries e).openStreams →
      Watched (s.resume Pc.sleeps k t (turn s.shared s.nextTask t.pc)) id e := by
    intro hopen
    rcases @turn_open s.shared s.nextTask t.pc e hopen
      (fun _ _ _ heq => absurd heq (Nat.ne_of_lt hbelow)) with hopen' | ⟨id', hpc, hnext⟩
    · exact Or.inl hopen'
    · have heq : id' = id := (inv.entries.one id' id e e
        (Or.inr ⟨k, t, hk, by rw [hpc]; rfl⟩) hself).mpr rfl
      obtain ⟨u, hu, hupc⟩ := Pool.resume_moves Pc.sleeps hnumbered hk hnext rfl
      exact Or.inr (Or.inl ⟨k, u, hu, by simp [hupc, Pc.tends, heq]⟩)
  have hmoves : ∀ {pc}, (turn s.shared s.nextTask t.pc).next = some pc → pc.tends id e = true →
      Watched (s.resume Pc.sleeps k t (turn s.shared s.nextTask t.pc)) id e := by
    intro pc hnext htends
    obtain ⟨u, hu, hupc⟩ := Pool.resume_moves Pc.sleeps hnumbered hk hnext
      (Pc.awake_of_tends htends)
    exact Or.inr (Or.inl ⟨k, u, hu, hupc ▸ htends⟩)
  rcases hwatched with hopen | ⟨j, u, hu, htends⟩ | ⟨j, u, hhandle, hu, hpc⟩
  · exact Or.inl (hopens hopen)
  · refine Or.inl ?_
    by_cases hrun : j = k
    · -- the stream itself takes the turn
      subst hrun
      rw [hk] at hu
      cases hu
      cases hpc : t.pc with
      | bumpCount id' e' =>
        rw [hpc] at htends
        obtain ⟨-, rfl⟩ : id' = id ∧ e' = e := by simpa [Pc.tends] using htends
        refine Or.inl ?_
        simp [Pool.resume, turn, Shared.setEntry]
      | dropIdentify id' e' =>
        rw [hpc] at htends hmoves
        simp only [turn] at hmoves
        cases hwho : s.shared.identityOf id' with
        | some who =>
          simp only [hwho] at hmoves
          simpa only [turn, hwho] using hmoves rfl htends
        | none =>
          simp only [hwho] at hmoves
          simpa only [turn, hwho] using hmoves rfl htends
      | dropRecord id' e' who =>
        rw [hpc] at htends hmoves
        exact hmoves rfl htends
      | arm id' e' =>
        rw [hpc] at htends hopens
        obtain ⟨rfl, rfl⟩ : id' = id ∧ e' = e := by simpa [Pc.tends] using htends
        by_cases hopen : 0 < (s.shared.entries e').openStreams
        · exact hopens hopen
        · refine Or.inr (Or.inr ⟨s.nextTask, ⟨.sleeping id' e', false⟩, ?_, ?_, rfl⟩)
          · simp [Pool.resume, turn, hopen, Shared.setEntry]
          · exact Pool.resume_spawned (by simp [turn, hopen]) (by simp [turn, hopen])
      | _ =>
        rw [hpc] at htends
        cases htends
    · obtain ⟨v, hv, hvpc⟩ := Pool.resume_survives Pc.sleeps (k := k) (t := t)
        (o := turn s.shared s.nextTask t.pc) hnumbered hu hrun (Pc.awake_of_tends htends)
      exact Or.inr (Or.inl ⟨j, v, hv, hvpc ▸ htends⟩)
  · by_cases hrun : j = k
    · -- the timer expires
      subst hrun
      rw [hk] at hu
      cases hu
      refine Or.inr ?_
      rw [hpc]
      rfl
    · refine Or.inl ?_
      by_cases habort : (turn s.shared s.nextTask t.pc).abort = some j
      · exact hopens (open_of_abort inv hk habort hmap hu hpc)
      · have hstays := Pool.resume_keeps Pc.sleeps (t := t) hnumbered hu hrun habort
        rcases turn_handle s.shared s.nextTask t.pc e with hsame | ⟨-, htaken, -⟩ |
          ⟨hnew, -, id', harm, hsp⟩ | ⟨-, id', -, -, hfresh⟩
        · exact Or.inr (Or.inr ⟨j, u, hsame.trans hhandle, hstays, hpc⟩)
        · exact absurd (htaken.trans hhandle) habort
        · -- a second timer takes the place of the first
          have heq : id' = id := (inv.entries.one id' id e e
            (Or.inr ⟨k, t, hk, by rw [harm]; rfl⟩) hself).mpr rfl
          subst heq
          refine Or.inr (Or.inr ⟨s.nextTask, ⟨.sleeping id' e, false⟩, hnew, ?_, rfl⟩)
          refine Pool.resume_spawned hsp ?_
          intro hself
          obtain ⟨e', hhandle', -⟩ := turn_abort hself
          exact absurd (inv.entries.given e' _ hhandle') (Nat.lt_irrefl _)
        · exact absurd hfresh (Nat.ne_of_lt hbelow)

theorem covered_turn {k : Nat} {t : TaskState Pc} {id : String} (inv : IdleInv s)
    (hguard : IdleGuard s (.run k)) (hk : s.tasks.lookup k = some t)
    (hin : ((turn s.shared s.nextTask t.pc).shared.transportSessions.lookup id).isSome = true) :
    Covered (s.resume Pc.sleeps k t (turn s.shared s.nextTask t.pc)) id := by
  have hnumbered := inv.entries.numbered
  have hwas : (s.shared.transportSessions.lookup id).isSome = true := by
    obtain ⟨tr, htr⟩ := Option.isSome_iff_exists.mp hin
    rw [turn_transports htr]
    rfl
  by_cases hends : t.pc.ends id = true
  · obtain ⟨pc, hnext, hpc⟩ := turn_ends hends hin
    obtain ⟨u, hu, hupc⟩ := Pool.resume_moves Pc.sleeps hnumbered hk hnext
      (Pc.awake_of_ends hpc)
    exact Or.inl ⟨k, u, hu, Or.inl (hupc ▸ hpc)⟩
  rw [Bool.not_eq_true] at hends
  by_cases hbump : t.pc = .bumpEntry id
  · -- the bump has found or made an entry, and is about to count on it
    have hnext : (turn s.shared s.nextTask t.pc).next =
        some (.bumpCount id (s.shared.orInsert id).2) := by
      rw [hbump]
      rfl
    obtain ⟨u, hu, hupc⟩ := Pool.resume_moves Pc.sleeps hnumbered hk hnext rfl
    refine Or.inr ⟨(s.shared.orInsert id).2, ?_, Or.inr (Or.inl ⟨k, u, hu, by simp [hupc, Pc.tends]⟩)⟩
    show (turn s.shared s.nextTask t.pc).shared.streamLiveness.lookup id = _
    rcases orInsert_cases s.shared id with ⟨e, hmap, heq⟩ | ⟨-, heq⟩
    · simp only [hbump, turn, heq]
      exact hmap
    · simp [hbump, turn, heq]
  rcases inv.covered id hwas with ⟨j, u, hu, hwho⟩ | ⟨e, hmap, hwatched⟩
  · have hne : j ≠ k := by
      rintro rfl
      rw [hk] at hu
      cases hu
      rcases hwho with hu | hu
      · rw [hends] at hu
        cases hu
      · exact hbump hu
    have hawake : u.pc.sleeps = false := by
      rcases hwho with hu | hu
      · exact Pc.awake_of_ends hu
      · rw [hu]
        rfl
    obtain ⟨v, hv, hvpc⟩ := Pool.resume_survives Pc.sleeps (k := k) (t := t)
      (o := turn s.shared s.nextTask t.pc) hnumbered hu hne hawake
    exact Or.inl ⟨j, v, hv, hvpc ▸ hwho⟩
  · rcases watched_turn inv hk hmap hwatched with hwatched' | hnext
    · exact Or.inr ⟨e, map_stays hguard hk hwas hends hmap, hwatched'⟩
    · obtain ⟨u, hu, hupc⟩ := Pool.resume_moves Pc.sleeps hnumbered hk hnext rfl
      exact Or.inl ⟨k, u, hu, Or.inl (by simp [hupc, Pc.ends])⟩

-- ════════════════════════════════════════════════════════════════════════
-- Steps
-- ════════════════════════════════════════════════════════════════════════

/-- What covers a session before a task starts covers it after. -/
theorem covered_start {m : Shared} {pc : Pc} {id : String} (hnumbered : s.Numbered)
    (hmap : ∀ e, s.shared.streamLiveness.lookup id = some e → m.streamLiveness.lookup id = some e ∧
      m.entries e = s.shared.entries e)
    (hcovered : Covered s id) : Covered ({ s with shared := m }.start pc) id := by
  have hkeeps : ∀ {j u}, s.tasks.lookup j = some u →
      ({ s with shared := m }.start pc).tasks.lookup j = some u :=
    fun hu => Pool.start_keeps (p := { s with shared := m }) hnumbered hu pc
  rcases hcovered with ⟨j, u, hu, hwho⟩ | ⟨e, he, hwatched⟩
  · exact Or.inl ⟨j, u, hkeeps hu, hwho⟩
  · obtain ⟨he', hentry⟩ := hmap e he
    have hshared : ({ s with shared := m }.start pc).shared.entries e = s.shared.entries e := hentry
    refine Or.inr ⟨e, he', ?_⟩
    rcases hwatched with hopen | ⟨j, u, hu, htends⟩ | ⟨j, u, hhandle, hu, hpc⟩
    · exact Or.inl (hshared ▸ hopen)
    · exact Or.inr (Or.inl ⟨j, u, hkeeps hu, htends⟩)
    · exact Or.inr (Or.inr ⟨j, u, hshared ▸ hhandle, hkeeps hu, hpc⟩)

/-- An aborted task that ends covers nothing. -/
theorem covered_cancel {k : Nat} {t : TaskState Pc} {id : String} (inv : IdleInv s)
    (hk : s.tasks.lookup k = some t) (haborted : t.aborted = true) (hcovered : Covered s id) :
    Covered (s.cancel k) id := by
  have htimer := inv.entries.aborted k t hk haborted
  rcases hcovered with ⟨j, u, hu, hwho⟩ | ⟨e, he, hopen | ⟨j, u, hu, htends⟩ | ⟨j, u, hhandle, hu, hpc⟩⟩
  · refine Or.inl ⟨j, u, Pool.cancel_keeps hk hu ?_, hwho⟩
    rintro rfl
    rcases hwho with hends | hbump
    · rw [inv.firm k t hk (Pc.ending_of_ends hends)] at haborted
      cases haborted
    · rw [hbump] at htimer
      cases htimer
  · exact Or.inr ⟨e, he, Or.inl hopen⟩
  · refine Or.inr ⟨e, he, Or.inr (Or.inl ⟨j, u, Pool.cancel_keeps hk hu ?_, htends⟩)⟩
    rintro rfl
    rw [Pc.isTimer_of_tends htends] at htimer
    cases htimer
  · refine Or.inr ⟨e, he, Or.inr (Or.inr ⟨j, u, hhandle, Pool.cancel_keeps hk hu ?_, hpc⟩)⟩
    rintro rfl
    have hawake := inv.awake k t hk haborted
    rw [hpc] at hawake
    cases hawake

theorem covered_step (inv : IdleInv s) (hguard : IdleGuard s a) (h : next s a = some s') {id : String}
    (hin : (s'.shared.transportSessions.lookup id).isSome = true) : Covered s' id := by
  have hnumbered := inv.entries.numbered
  rcases next_cases h with ⟨rfl, -⟩ | ⟨m, pc, rfl, hbegins⟩ | ⟨id₀, t, rfl, -, hmap₀, -, rfl⟩ |
    ⟨k, t, rfl, hk, rfl⟩ | ⟨k, t, rfl, hk, haborted, rfl⟩
  · exact inv.covered id hin
  · rcases hbegins.kept id hin with hwas | rfl
    · refine covered_start hnumbered (fun e he => ?_) (inv.covered id hwas)
      rw [hbegins.map, hbegins.entries]
      exact ⟨he, rfl⟩
    · refine Or.inl ⟨s.nextTask, ⟨.bumpEntry id, false⟩, ?_, Or.inr rfl⟩
      rw [Pool.lookup_start, if_pos rfl]
  · by_cases heq : id = id₀
    · subst heq
      refine Or.inr ⟨s.shared.nextEntry, by simp [recovered, Pool.start],
        Or.inr (Or.inr ⟨s.nextTask, ⟨.sleeping id s.shared.nextEntry, false⟩, ?_, ?_, rfl⟩)⟩
      · simp [recovered, Pool.start]
      · rw [recovered, Pool.lookup_start, if_pos rfl]
    · have hwas : (s.shared.transportSessions.lookup id).isSome = true := by
        simpa [recovered, Pool.start, FiniteMap.lookup_insert_ite, heq] using hin
      refine covered_start hnumbered (fun e he => ⟨?_, ?_⟩) (inv.covered id hwas)
      · simpa [FiniteMap.lookup_insert_ite, heq] using he
      · exact Function.update_of_ne (Nat.ne_of_lt (inv.entries.below id e (Or.inl he))) _ _
  · exact covered_turn inv hguard hk hin
  · exact covered_cancel inv hk haborted (inv.covered id hin)

theorem idleInv_init : IdleInv init where
  entries := entriesInv_init
  awake := by intro k t hk; cases hk
  firm := by intro k t hk; cases hk
  held := by intro k t p e hk; cases hk
  covered := by intro id hin; cases hin

theorem idleInv_step (inv : IdleInv s) (hguard : IdleGuard s a) (h : next s a = some s') :
    IdleInv s' where
  entries := entriesInv_step inv.entries hguard.1 h
  awake := fun _ _ hk haborted => awake_step inv h hk haborted
  firm := fun _ _ hk hending => firm_step inv hguard h hk hending
  held := fun _ _ _ _ hk hpc hheld => held_step inv h hk hpc hheld
  covered := fun _ hin => covered_step inv hguard h hin

theorem Pc.ending_of_reapStarted (h : pc.reapStarted = true) : pc.ending = true := by
  cases pc with
  | path p =>
    simp only [Pc.reapStarted, Bool.and_eq_true] at h
    simp only [Pc.ending, h.2, Bool.true_or]
  | _ => cases h

/-- **Idle sessions are reaped** in every run whose steps meet the condition. -/
theorem idle_reaped (hreach : tasks.ReachableUnder IdleGuard s) : Reaped s := by
  have inv : IdleInv s := hreach.invariant (fun _ hstart => hstart ▸ idleInv_init)
    fun _ _ _ inv hguard hnext => idleInv_step inv hguard hnext
  refine ⟨fun hquiet id hin => ?_, fun k t hk hstarted =>
    inv.firm k t hk (Pc.ending_of_reapStarted hstarted)⟩
  have hnone : ∀ k t, s.tasks.lookup k = some t → t.pc.ends id = false ∧ t.pc ≠ .bumpEntry id ∧
      ∀ e, t.pc.tends id e = false := by
    intro k t hk
    rcases hquiet k t hk with ⟨id', e', hpc⟩ | ⟨id', e', hpc⟩ <;> rw [hpc] <;>
      exact ⟨rfl, by simp, fun _ => rfl⟩
  rcases inv.covered id hin with ⟨k, t, hk, hwho⟩ | ⟨e, hmap, hwatched⟩
  · obtain ⟨hends, hbump, -⟩ := hnone k t hk
    rcases hwho with hwho | hwho
    · rw [hends] at hwho
      cases hwho
    · exact absurd hwho hbump
  · rcases hwatched with hopen | ⟨k, t, hk, htends⟩ | ⟨k, t, -, hk, hpc⟩
    · -- the counter counts a stream, and every stream is open
      have hmapped := inv.entries.mapped id e hmap
      obtain ⟨k, t, hk, hcounted⟩ := Pool.count_pos.mp (Nat.lt_of_lt_of_le hopen hmapped)
      rcases hquiet k t hk with ⟨id', e', hpc⟩ | ⟨id', e', hpc⟩
      · rw [hpc] at hcounted
        obtain rfl := of_decide_eq_true hcounted
        obtain rfl := (inv.entries.one id' id e' e' (Or.inr ⟨k, t, hk, by rw [hpc]; rfl⟩)
          (Or.inl hmap)).mpr rfl
        exact Or.inl ⟨k, t, e', hk, hpc⟩
      · rw [hpc] at hcounted
        cases hcounted
    · rw [(hnone k t hk).2.2 e] at htends
      cases htends
    · refine Or.inr ⟨k, t, e, hk, hpc, ?_⟩
      cases haborted : t.aborted with
      | false => rfl
      | true =>
        have hawake := inv.awake k t hk haborted
        rw [hpc] at hawake
        cases hawake

-- ════════════════════════════════════════════════════════════════════════
-- Runs
-- ════════════════════════════════════════════════════════════════════════

/-- The session is there, and a timer of it sleeps; no other task is left. -/
private def idles (s : State) : Bool :=
  (s.shared.transportSessions.lookup "s-1").isSome && s.tasks.all fun _ t => t.pc.sleeps

/-- A second stream comes and goes, and leaves a timer of its own. -/
theorem idle_reaped_run : ∃ s, idles s = true ∧ Reaped s := by
  have hexec : (tasks.execUnder IdleGuard init
      (idleRun ++ .arrive "s-1" :: turns 9 9)).any idles = true := by
    decide +kernel
  obtain ⟨s, hrun, hs⟩ := Machine.exists_run_of_execUnder _ hexec
  exact ⟨s, hs, idle_reaped ⟨init, rfl, hrun⟩⟩

/-- The session is there, and no task is. -/
private def forgotten (s : State) : Bool :=
  (s.shared.transportSessions.lookup "s-1").isSome && s.tasks.all fun _ _ => false

/-- A stream finds the entry before the timer, task 8, expires and removes it from
    the map; it then takes the handle and stops the timer, and its own drop finds
    no entry. -/
theorem late_abort_loses_reaper : ¬ ∀ s, tasks.Reachable s → Reaped s := by
  intro hclaim
  have hexec : (tasks.execUnder (fun _ _ => True) init
      (idleRun ++ .arrive "s-1" :: turns 9 1 ++ turns 8 2 ++ turns 9 3 ++ .cancel 8 ::
        turns 9 2)).any forgotten = true := by
    decide +kernel
  obtain ⟨s, hrun, hs⟩ := Machine.exists_run_of_execUnder _ hexec
  rw [forgotten, Bool.and_eq_true] at hs
  have hgone : ∀ k t, s.tasks.lookup k ≠ some t := by
    intro k t hk
    have := (FiniteMap.all_eq_true_iff _ _).mp hs.2 k t hk
    cases this
  rcases (hclaim s ⟨init, rfl, hrun⟩).idle (fun k t hk => absurd hk (hgone k t)) "s-1" hs.1 with
    ⟨k, t, e, hk, -⟩ | ⟨k, t, e, hk, -⟩
  · exact absurd hk (hgone k t)
  · exact absurd hk (hgone k t)

end Botwork.SessionBroker.Liveness
