import Botwork.SessionBroker.Reaping

/-!
# The teardown paths end in one state

Whatever a path still has to do for a session is in the list of its operations, or
is forked from there; what it has done, no other path undoes.  So all paths leave a
session in the same state, with one exception: the exit path never writes the
agent's row, and `teardown_session` no longer finds the agent of a session that the
exit path has removed.

The runs here start from any state of the broker at rest, and consist of the four
paths, the grace timers and their turns.

## Main definitions

- `TornDown` — the end state of a session
- `teardowns` — the paths from any state at rest
- `TeardownGuard` — the condition on a step
- `Path.ahead`, `Done` — what a path still has to do, and what it has done

## Main results

- `teardown_paths_agree` — every path ends in the same state under the condition
- `exit_leaves_agent_active` — and the exit path does not without it
-/

namespace Botwork.SessionBroker.Liveness

open Botwork.Foundations

-- ════════════════════════════════════════════════════════════════════════
-- The paths on their own
-- ════════════════════════════════════════════════════════════════════════

/-- Only grace timers are there, and they sleep. -/
structure AtRest (s : State) : Prop where
  numbered : s.Numbered
  timers : ∀ k t, s.tasks.lookup k = some t → t.aborted = false ∧ t.pc.sleeps = true
  /-- the handles are of tasks that were spawned -/
  given : ∀ e j, (s.shared.entries e).graceHandle = some j → j < s.nextTask
  unissued : s.shared.issued = []

/-- The actions that start a path, and the turns of tasks. -/
def Action.tearsDown : Action → Bool
  | .run _ | .cancel _ | .delete _ | .evictDead _ | .evictTenant _ | .exit _ => true
  | _ => false

/-- The teardown paths and the timers, from any state at rest. -/
def teardowns : Machine State Action where
  Start := AtRest
  next s a := if a.tearsDown then next s a else none

/-- The action makes a path begin on the session: a DELETE, an eviction, an exit,
    or a grace timer that has expired. -/
def Begun (s : State) (job : Job) : Action → Prop
  | .delete id | .evictDead id =>
    id = job.mcpSessionId ∧ s.shared.transportSessions.lookup id = some job.transport
  | .evictTenant tenant => job ∈ tenantJobs s.shared tenant
  | .exit c => (s.shared.transportSessions.find? fun _ t => t.containerName = c) =
      some (job.mcpSessionId, job.transport)
  | .run k => ∃ t, s.tasks.lookup k = some t ∧ t.pc = .reaping job.mcpSessionId ∧
      s.shared.transportSessions.lookup job.mcpSessionId = some job.transport
  | _ => False

/-- All paths and what they have forked are through. -/
def Settled (s : State) : Prop := ∀ k t, s.tasks.lookup k = some t → t.pc.sleeps = true

/-- The end state of a session, for the state at which a path began on it. -/
structure TornDown (before after : Shared) (job : Job) : Prop where
  tombstoned : after.isTombstoned job.mcpSessionId = true
  unrouted : after.transportSessions.lookup job.mcpSessionId = none
  unmapped : after.streamLiveness.lookup job.mcpSessionId = none
  issued : job.target ∈ after.issued
  reaped : ∀ row, before.workers.lookup job.transport.containerName = some row →
    after.workers.lookup job.transport.containerName = some { row with reaped := true }
  /-- no session of the agent is left: its row is inactive -/
  inactive : ∀ who, identity job.transport = some who →
    (∀ id t, after.transportSessions.lookup id = some t → identity t ≠ some who) →
    (before.agentSessions.lookup who).isSome = true →
      after.agentSessions.lookup who = some .inactive

-- ════════════════════════════════════════════════════════════════════════
-- What is still to come
-- ════════════════════════════════════════════════════════════════════════

/-- What an operation stands for: a fork stands for what it forks. -/
def PathOp.expand : PathOp → List PathOp
  | .forkBackground => backgroundEvict
  | .forkTeardown => [.callTeardown]
  | op => [op]

/-- What a path still has to do for a session, itself or in the background. -/
def Path.ahead (p : Path) (job : Job) : List PathOp :=
  (if p.job = job then p.ops.flatMap PathOp.expand else []) ++
    if job ∈ p.rest then evictSession.flatMap PathOp.expand else []

def Pc.owes (job : Job) (op : PathOp) : Pc → Bool
  | .path p => (p.ahead job).contains op
  | _ => false

/-- The path has noted the agent, or will note it, and has yet to write its row. -/
def Path.owesInactive (p : Path) (who : Identity) : Bool :=
  (p.who = some who && !p.ops.contains .identify &&
      (p.ops.flatMap PathOp.expand).contains .recordInactive) ||
    p.rest.any fun job => identity job.transport = some who

def Pc.owesInactive (who : Identity) : Pc → Bool
  | .path p => p.owesInactive who
  | _ => false

/-- The operations that every path does. -/
def duties : List PathOp := [.unmap, .callTeardown, .tombstone, .removeEntry, .recordReap]

/-- What a duty leaves behind. -/
def Done (s : Shared) (job : Job) : PathOp → Prop
  | .unmap => s.streamLiveness.lookup job.mcpSessionId = none
  | .callTeardown => job.target ∈ s.issued
  | .tombstone => s.isTombstoned job.mcpSessionId = true
  | .removeEntry => s.transportSessions.lookup job.mcpSessionId = none
  | .recordReap => ∀ row, s.workers.lookup job.transport.containerName = some row →
      row.reaped = true
  | _ => True

-- ════════════════════════════════════════════════════════════════════════
-- The condition
-- ════════════════════════════════════════════════════════════════════════

/-- The row of the agent is taken care of without this path: another session of the
    agent is there, its row is inactive, or another path has yet to write it. -/
def Accounted (s : State) (id : String) (who : Identity) : Prop :=
  ¬ (s.shared.transportSessions.all fun id' t => id' = id || identity t ≠ some who) = true ∨
    ((s.shared.agentSessions.lookup who).all fun state => state = .inactive) = true ∨
    ¬ (s.tasks.all fun _ t => !t.pc.owesInactive who) = true

instance (s : State) (id : String) (who : Identity) : Decidable (Accounted s id who) :=
  inferInstanceAs (Decidable (_ ∨ _ ∨ _))

/-- The conditions on a turn, by where the task stands. -/
def TeardownTurn (s : State) : Pc → Prop
  | .path p =>
    match p.ops, p.held with
    -- the handle is of a timer that still sleeps
    | .takeHandle :: _, some e => ((s.shared.entries e).graceHandle.all fun j =>
        (s.tasks.lookup j).all fun t => t.pc.sleeps) = true
    -- a path that writes no row removes the last session of an agent
    | .removeEntry :: ops, _ =>
        (ops.flatMap PathOp.expand).contains .recordInactive = false →
          ∀ t ∈ s.shared.transportSessions.lookup p.job.mcpSessionId, ∀ who ∈ identity t,
            Accounted s p.job.mcpSessionId who
    | _, _ => True
  | _ => True

instance (s : State) (pc : Pc) : Decidable (TeardownTurn s pc) := by
  induction pc using Pc.casesOn with
  | path p =>
    induction p using Path.casesOn with | mk reaper job held who ops rest =>
    induction ops using List.casesOn with
    | nil => exact .isTrue trivial
    | cons op ops =>
      induction op using PathOp.casesOn <;> induction held using Option.casesOn <;>
        (dsimp only [TeardownTurn]; infer_instance)
  | _ => dsimp only [TeardownTurn]; infer_instance

def TeardownGuard : State → Action → Prop := OnTurn TeardownTurn

instance (s : State) (a : Action) : Decidable (TeardownGuard s a) :=
  inferInstanceAs (Decidable (OnTurn TeardownTurn s a))

-- ════════════════════════════════════════════════════════════════════════
-- Progress
-- ════════════════════════════════════════════════════════════════════════

/-- The points of timers and paths. -/
def Pc.tearing : Pc → Bool
  | .sleeping _ _ | .expired _ | .reaping _ | .path _ => true
  | _ => false

/-- What timers and paths do to the shared state: nothing that is done is undone,
    and no row is lost. -/
structure Progress (m m' : Shared) : Prop where
  unmapped : ∀ id, m.streamLiveness.lookup id = none → m'.streamLiveness.lookup id = none
  entries : ∀ id t, m'.transportSessions.lookup id = some t → m.transportSessions.lookup id = some t
  tombstoned : ∀ id, m.isTombstoned id = true → m'.isTombstoned id = true
  issued : ∀ x ∈ m.issued, x ∈ m'.issued
  workers : ∀ c, m'.workers.lookup c = m.workers.lookup c ∨
    m'.workers.lookup c = (m.workers.lookup c).map fun row => { row with reaped := true }
  rows : ∀ who, (m.agentSessions.lookup who).isSome = true →
    (m'.agentSessions.lookup who).isSome = true
  inactive : ∀ who, (∀ state, m.agentSessions.lookup who = some state → state = .inactive) →
    ∀ state, m'.agentSessions.lookup who = some state → state = .inactive

variable {m m' : Shared} {n : Nat} {pc pc' : Pc} {job : Job} {op : PathOp} {who : Identity}

theorem Progress.refl (m : Shared) : Progress m m where
  unmapped := fun _ h => h
  entries := fun _ _ h => h
  tombstoned := fun _ h => h
  issued := fun _ h => h
  workers := fun _ => Or.inl rfl
  rows := fun _ h => h
  inactive := fun _ h => h

theorem Progress.trans {m'' : Shared} (h : Progress m m') (h' : Progress m' m'') :
    Progress m m'' where
  unmapped := fun id hid => h'.unmapped id (h.unmapped id hid)
  entries := fun id t hid => h.entries id t (h'.entries id t hid)
  tombstoned := fun id hid => h'.tombstoned id (h.tombstoned id hid)
  issued := fun x hx => h'.issued x (h.issued x hx)
  workers := by
    intro c
    rcases h.workers c with hrow | hrow
    · rw [← hrow]
      exact h'.workers c
    · refine Or.inr ?_
      rcases h'.workers c with hrow' | hrow'
      · exact hrow'.trans hrow
      · rw [hrow', hrow, Option.map_map]
        rfl
  rows := fun who hrow => h'.rows who (h.rows who hrow)
  inactive := fun who hrow => h'.inactive who (h.inactive who hrow)

theorem progress_inactive (m : Shared) (who : Identity) :
    Progress m (m.transitionState who .inactive) := by
  have hshape : m.transitionState who .inactive =
      { m with agentSessions := (m.transitionState who .inactive).agentSessions } := by
    unfold Shared.transitionState
    split <;> rfl
  rw [hshape]
  refine { Progress.refl m with rows := fun who' hrow => ?_, inactive := fun who' hrow state => ?_ }
  · show ((m.transitionState who .inactive).agentSessions.lookup who').isSome = true
    rw [lookup_transitionState]
    split
    next heq =>
      rw [Option.isSome_map, ← heq]
      exact hrow
    next => exact hrow
  · show (m.transitionState who .inactive).agentSessions.lookup who' = some state → _
    rw [lookup_transitionState]
    split
    next =>
      intro hstate
      obtain ⟨_, -, rfl⟩ := Option.map_eq_some_iff.mp hstate
      rfl
    next => exact hrow state

theorem progress_reap (m : Shared) (c : String) :
    Progress m { m with workers := World.updateWorker m.workers c fun row =>
      { row with reaped := true } } := by
  refine { Progress.refl m with workers := fun c' => ?_ }
  unfold World.updateWorker
  split
  next => exact Or.inl rfl
  next old hold =>
    simp only [FiniteMap.lookup_insert_ite]
    split
    next heq => exact Or.inr (by rw [heq, hold]; rfl)
    next => exact Or.inl rfl

theorem isTombstoned_insert (m : Shared) (id id' : String) :
    ({ m with tombstones := m.tombstones.insert id (m.now + tombstoneTtl) }).isTombstoned id' =
      (decide (id' = id) || m.isTombstoned id') := by
  simp only [Shared.isTombstoned, FiniteMap.lookup_insert_ite]
  by_cases heq : id' = id
  · simp [heq, tombstoneTtl]
  · simp [heq]

/-- **Progress**: one turn of a timer or a path undoes nothing. -/
theorem turn_progress (h : pc.tearing = true) : Progress m (turn m n pc).shared := by
  have herase : ∀ id, Progress m { m with streamLiveness := m.streamLiveness.erase id } := by
    intro id
    refine { Progress.refl m with unmapped := fun id' hnone => ?_ }
    simp only [FiniteMap.lookup_erase_ite]
    split
    next => rfl
    next => exact hnone
  fun_cases turn m n pc
  case case19 id => exact herase id
  case case22 p op ops hops =>
    fun_cases Path.turn m p ops op
    case case1 => exact herase p.job.mcpSessionId
    case case2 => exact { Progress.refl m with }
    case case5 => exact { Progress.refl m with issued := fun x hx => List.mem_cons_of_mem _ hx }
    case case6 =>
      refine { Progress.refl m with tombstoned := fun id hid => ?_ }
      rw [isTombstoned_insert, hid, Bool.or_true]
    case case7 =>
      refine { Progress.refl m with entries := fun id t ht => ?_ }
      simp only [FiniteMap.lookup_erase_ite] at ht
      split at ht
      next => cases ht
      next => exact ht
    case case8 who _ => exact progress_inactive m who
    case case10 => exact progress_reap m p.job.transport.containerName
    all_goals exact Progress.refl m
  all_goals first
    | exact Progress.refl m
    | cases h

theorem Done.mono (h : Progress m m') (hdone : Done m job op) : Done m' job op := by
  cases op with
  | unmap => exact h.unmapped _ hdone
  | callTeardown => exact h.issued _ hdone
  | tombstone => exact h.tombstoned _ hdone
  | removeEntry =>
    show m'.transportSessions.lookup job.mcpSessionId = none
    cases ht : m'.transportSessions.lookup job.mcpSessionId with
    | none => rfl
    | some t => exact (h.entries _ t ht).symm.trans hdone
  | recordReap =>
    intro row hrow
    rcases h.workers job.transport.containerName with hsame | hreaped
    · exact hdone row (hsame ▸ hrow)
    · rw [hreaped] at hrow
      obtain ⟨old, -, rfl⟩ := Option.map_eq_some_iff.mp hrow
      rfl
  | _ => trivial

/-- An operation of a path leaves behind what it stands for. -/
theorem Path.turn_done (m : Shared) (p : Path) (ops : List PathOp) (op : PathOp) :
    Done (p.turn m ops op).shared p.job op := by
  cases op with
  | unmap => exact AList.lookup_erase _ _
  | callTeardown => exact List.mem_cons_self
  | tombstone =>
    show Shared.isTombstoned _ p.job.mcpSessionId = true
    simp only [Path.turn]
    rw [isTombstoned_insert]
    simp
  | removeEntry => exact AList.lookup_erase _ _
  | recordReap =>
    intro row hrow
    simp only [Path.turn, World.updateWorker] at hrow
    split at hrow
    next hnone =>
      rw [hnone] at hrow
      cases hrow
    next old hold =>
      rw [AList.lookup_insert] at hrow
      cases hrow
      rfl
  | _ => trivial

-- ════════════════════════════════════════════════════════════════════════
-- What a turn hands on
-- ════════════════════════════════════════════════════════════════════════

theorem Path.mem_ahead {p : Path} : op ∈ p.ahead job ↔
    (p.job = job ∧ op ∈ p.ops.flatMap PathOp.expand) ∨
      (job ∈ p.rest ∧ op ∈ evictSession.flatMap PathOp.expand) := by
  unfold Path.ahead
  rw [List.mem_append]
  constructor
  · rintro (h | h)
    · split at h
      next hjob => exact Or.inl ⟨hjob, h⟩
      next => cases h
    · split at h
      next hjob => exact Or.inr ⟨hjob, h⟩
      next => cases h
  · rintro (⟨hjob, h⟩ | ⟨hjob, h⟩)
    · exact Or.inl (by rw [if_pos hjob]; exact h)
    · exact Or.inr (by rw [if_pos hjob]; exact h)

/-- What is ahead of a path after its operation is ahead of what it goes on as. -/
theorem Path.continue_owes {p : Path} {ops : List PathOp}
    (h : (p.job = job ∧ op ∈ ops.flatMap PathOp.expand) ∨
      (job ∈ p.rest ∧ op ∈ evictSession.flatMap PathOp.expand)) :
    (p.continue ops).any (Pc.owes job op) = true := by
  fun_cases Path.continue p ops with
  | case1 hrest =>
    rw [hrest] at h
    simp at h
  | case2 next rest hrest =>
    rw [hrest] at h
    simp only [List.flatMap_nil, List.not_mem_nil, and_false, false_or, List.mem_cons] at h
    refine List.contains_iff_mem.mpr (Path.mem_ahead.mpr ?_)
    obtain ⟨hjob | hjob, hop⟩ := h
    · exact Or.inl ⟨hjob.symm, hop⟩
    · exact Or.inr ⟨hjob, hop⟩
  | case3 => exact List.contains_iff_mem.mpr (Path.mem_ahead.mpr h)

/-- **Handing on**: what a task owes is done by its turn, or what it goes on as
    owes it, or what it forks. -/
theorem turn_owes (howes : pc.owes job op = true) :
    Done (turn m n pc).shared job op ∨ (turn m n pc).next.any (Pc.owes job op) = true ∨
      (turn m n pc).spawned.any (Pc.owes job op) = true := by
  cases hpc : pc with
  | path p =>
    rw [hpc] at howes
    have hahead := Path.mem_ahead.mp (List.contains_iff_mem.mp howes)
    cases hops : p.ops with
    | nil =>
      refine Or.inr (Or.inl ?_)
      simp only [turn, hops]
      rw [hops] at hahead
      exact Path.continue_owes hahead
    | cons op' ops =>
      simp only [turn, hops]
      rw [hops, List.flatMap_cons, List.mem_append] at hahead
      obtain ⟨q, hnext, -, hjob, hrest, -⟩ := p.turn_next m ops op'
      have hon : (p.job = job ∧ op ∈ ops.flatMap PathOp.expand) ∨
          (job ∈ p.rest ∧ op ∈ evictSession.flatMap PathOp.expand) →
          (p.turn m ops op').next.any (Pc.owes job op) = true := by
        intro h
        rw [hnext]
        apply Path.continue_owes
        rw [hjob, hrest]
        exact h
      rcases hahead with ⟨rfl, hmem | hmem⟩ | hlater
      · -- the operation itself, or what it forks
        cases op' with
        | forkBackground =>
          refine Or.inr (Or.inr ?_)
          simpa [Path.turn, Path.background, Pc.owes, Path.ahead, PathOp.expand, backgroundEvict]
            using hmem
        | forkTeardown =>
          refine Or.inr (Or.inr ?_)
          simpa [Path.turn, Path.background, Pc.owes, Path.ahead, PathOp.expand] using hmem
        | _ =>
          obtain rfl := List.mem_singleton.mp hmem
          exact Or.inl (Path.turn_done m p ops _)
      · exact Or.inr (Or.inl (hon (Or.inl ⟨rfl, hmem⟩)))
      · exact Or.inr (Or.inl (hon (Or.inr hlater)))
  | _ =>
    rw [hpc] at howes
    cases howes

theorem Path.continue_owesInactive {p : Path} {ops : List PathOp}
    (h : (p.who = some who ∧ PathOp.identify ∉ ops ∧
        PathOp.recordInactive ∈ ops.flatMap PathOp.expand) ∨
      ∃ job ∈ p.rest, identity job.transport = some who) :
    (p.continue ops).any (Pc.owesInactive who) = true := by
  fun_cases Path.continue p ops with
  | case1 hrest =>
    rw [hrest] at h
    simp at h
  | case2 next rest hrest =>
    rw [hrest] at h
    show Path.owesInactive _ who = true
    simp only [Path.owesInactive, Bool.or_eq_true, Bool.and_eq_true, decide_eq_true_eq,
      List.any_eq_true]
    rcases h with ⟨-, -, hmem⟩ | ⟨job, hjob, hwho⟩
    · simp at hmem
    · rcases List.mem_cons.mp hjob with rfl | hlater
      · exact Or.inl ⟨⟨hwho, by decide⟩, by decide⟩
      · exact Or.inr ⟨job, hlater, hwho⟩
  | case3 =>
    show Path.owesInactive _ who = true
    simp only [Path.owesInactive, Bool.or_eq_true, Bool.and_eq_true, decide_eq_true_eq,
      List.any_eq_true, Bool.not_eq_true', List.contains_eq_mem, decide_eq_false_iff_not]
    rcases h with ⟨hwho, hnone, hmem⟩ | hlater
    · exact Or.inl ⟨⟨hwho, hnone⟩, hmem⟩
    · exact Or.inr hlater

/-- The inactive write of an agent is done by the turn, or handed on. -/
theorem turn_owesInactive (howes : pc.owesInactive who = true) :
    (∀ state, (turn m n pc).shared.agentSessions.lookup who = some state → state = .inactive) ∨
      (turn m n pc).next.any (Pc.owesInactive who) = true ∨
      (turn m n pc).spawned.any (Pc.owesInactive who) = true := by
  cases hpc : pc with
  | path p =>
    rw [hpc] at howes
    simp only [Pc.owesInactive, Path.owesInactive, Bool.or_eq_true, Bool.and_eq_true,
      decide_eq_true_eq, List.any_eq_true, Bool.not_eq_true', List.contains_eq_mem,
      decide_eq_false_iff_not] at howes
    cases hops : p.ops with
    | nil =>
      refine Or.inr (Or.inl ?_)
      simp only [turn, hops]
      apply Path.continue_owesInactive
      rw [hops] at howes
      rcases howes with ⟨⟨-, -⟩, hmem⟩ | hlater
      · simp at hmem
      · exact Or.inr hlater
    | cons op ops =>
      simp only [turn, hops]
      rw [hops] at howes
      obtain ⟨q, hnext, -, -, hrest, -⟩ := p.turn_next m ops op
      rcases howes with ⟨⟨hwho, hnone⟩, hmem⟩ | hlater
      · rw [List.mem_cons, not_or] at hnone
        rw [List.flatMap_cons, List.mem_append] at hmem
        cases op with
        | identify => exact absurd rfl hnone.1
        | recordInactive =>
          refine Or.inl fun state hstate => ?_
          simp only [Path.turn, hwho, lookup_transitionState, if_true] at hstate
          obtain ⟨_, -, rfl⟩ := Option.map_eq_some_iff.mp hstate
          rfl
        | forkBackground =>
          refine Or.inr (Or.inr ?_)
          simp [Path.turn, Path.background, Pc.owesInactive, Path.owesInactive, hwho,
            backgroundEvict, PathOp.expand]
        | takeHandle =>
          have hmem' : PathOp.recordInactive ∈ ops.flatMap PathOp.expand := by
            rcases hmem with hself | hmem
            · simp [PathOp.expand] at hself
            · exact hmem
          refine Or.inr (Or.inl ?_)
          cases hheld : p.held with
          | some e =>
            simp only [Path.turn, hheld]
            exact Path.continue_owesInactive (Or.inl ⟨hwho, hnone.2, hmem'⟩)
          | none =>
            simp only [Path.turn, hheld]
            exact Path.continue_owesInactive (Or.inl ⟨hwho, hnone.2, hmem'⟩)
        | _ =>
          have hmem' : PathOp.recordInactive ∈ ops.flatMap PathOp.expand := by
            rcases hmem with hself | hmem
            · simp [PathOp.expand] at hself
            · exact hmem
          exact Or.inr (Or.inl (Path.continue_owesInactive (Or.inl ⟨hwho, hnone.2, hmem'⟩)))
      · refine Or.inr (Or.inl ?_)
        rw [hnext]
        apply Path.continue_owesInactive
        rw [hrest]
        exact Or.inr hlater
  | _ =>
    rw [hpc] at howes
    cases howes

-- ════════════════════════════════════════════════════════════════════════
-- Paths know their sessions
-- ════════════════════════════════════════════════════════════════════════

/-- A path that notes the agent does so before it removes the session. -/
def Ordered (ops : List PathOp) : Prop := ops.Pairwise fun a b => a = .removeEntry → b ≠ .identify

instance (ops : List PathOp) : Decidable (Ordered ops) :=
  inferInstanceAs (Decidable (ops.Pairwise _))

theorem teardownSession_ordered : Ordered teardownSession := by decide

theorem evictSession_ordered : Ordered evictSession := by decide

theorem handleContainerExit_ordered : Ordered handleContainerExit := by decide

theorem teardownSession_duties : ∀ op ∈ duties, op ∈ teardownSession.flatMap PathOp.expand := by
  decide

theorem evictSession_duties : ∀ op ∈ duties, op ∈ evictSession.flatMap PathOp.expand := by decide

theorem handleContainerExit_duties :
    ∀ op ∈ duties, op ∈ handleContainerExit.flatMap PathOp.expand := by
  decide

/-- What a path has noted of its sessions is what the map has, as long as it has
    them. -/
structure Path.Sound (m : Shared) (p : Path) : Prop where
  ordered : Ordered p.ops
  current : ∀ t, m.transportSessions.lookup p.job.mcpSessionId = some t → t = p.job.transport
  later : ∀ job ∈ p.rest, ∀ t, m.transportSessions.lookup job.mcpSessionId = some t →
    t = job.transport
  /-- before it removes the session, the path has noted its agent -/
  noted : PathOp.removeEntry ∈ p.ops → PathOp.identify ∉ p.ops →
    PathOp.recordInactive ∈ p.ops.flatMap PathOp.expand →
    (m.transportSessions.lookup p.job.mcpSessionId).isSome = true →
    p.who = identity p.job.transport

theorem Path.Sound.mono {p : Path} (h : p.Sound m) (hprogress : Progress m m') : p.Sound m' where
  ordered := h.ordered
  current := fun t ht => h.current t (hprogress.entries _ t ht)
  later := fun job hjob t ht => h.later job hjob t (hprogress.entries _ t ht)
  noted := by
    intro hremove hidentify hinactive hin
    obtain ⟨t, ht⟩ := Option.isSome_iff_exists.mp hin
    exact h.noted hremove hidentify hinactive (by rw [hprogress.entries _ t ht]; rfl)

/-- The path goes on with what is left of its operations, or with its next session. -/
theorem Path.sound_of_continue (p : Path) {q : Path} {ops : List PathOp}
    (h : ({ p with ops := ops } : Path).Sound m) (hq : p.continue ops = some (.path q)) :
    q.Sound m := by
  revert hq
  fun_cases Path.continue p ops with
  | case1 => intro hq; cases hq
  | case2 job rest hrest =>
    intro hq
    cases hq
    refine ⟨evictSession_ordered, ?_, ?_, fun _ _ _ _ => rfl⟩
    · exact h.later job (hrest ▸ List.mem_cons_self)
    · exact fun job' hjob' => h.later job' (hrest ▸ List.mem_cons_of_mem _ hjob')
  | case3 =>
    intro hq
    cases hq
    exact h

/-- A path that has lost its first operation is as sound as it was. -/
theorem Path.Sound.tail {p : Path} {ops : List PathOp} (h : p.Sound m) (hops : p.ops = op :: ops)
    (hop : op ≠ .identify) : ({ p with ops := ops } : Path).Sound m where
  ordered := (List.pairwise_cons.mp (hops ▸ h.ordered)).2
  current := h.current
  later := h.later
  noted := by
    intro hremove hidentify hinactive
    apply h.noted
    · rw [hops]
      exact List.mem_cons_of_mem _ hremove
    · rw [hops, List.mem_cons, not_or]
      exact ⟨hop.symm, hidentify⟩
    · rw [hops, List.flatMap_cons]
      exact List.mem_append_right _ hinactive

theorem Path.Sound.turn {p q : Path} {ops : List PathOp} (h : p.Sound m) (hops : p.ops = op :: ops)
    (hq : (p.turn m ops op).next = some (.path q)) : q.Sound m := by
  have hother : ∀ {r : Path}, r.job = p.job → r.rest = p.rest → r.who = p.who → op ≠ .identify →
      r.continue ops = some (.path q) → q.Sound m := by
    intro r hjob hrest hwho hop hr
    have htail := h.tail hops hop
    refine Path.sound_of_continue r ⟨htail.ordered, ?_, ?_, ?_⟩ hr
    · show ∀ t, m.transportSessions.lookup r.job.mcpSessionId = some t → t = r.job.transport
      rw [hjob]
      exact htail.current
    · show ∀ job ∈ r.rest, _
      rw [hrest]
      exact htail.later
    · show _ → _ → _ → (m.transportSessions.lookup r.job.mcpSessionId).isSome = true →
        r.who = identity r.job.transport
      rw [hjob, hwho]
      exact htail.noted
  revert hq
  fun_cases Path.turn m p ops op <;> intro hq
  case case4 =>
    -- the path notes the agent of the session, as the map has it
    refine Path.sound_of_continue { p with who := m.identityOf p.job.mcpSessionId }
      ⟨?_, h.current, h.later, fun _ _ _ hin => ?_⟩ hq
    · exact (List.pairwise_cons.mp (hops ▸ h.ordered)).2
    · obtain ⟨t, ht⟩ := Option.isSome_iff_exists.mp hin
      show m.identityOf p.job.mcpSessionId = identity p.job.transport
      rw [Shared.identityOf, ht, h.current t ht]
      rfl
  all_goals
    refine hother ?_ ?_ ?_ (by simp) hq
    all_goals rfl

/-- What runs in the background removes no session. -/
theorem Path.Sound.background {p q : Path} {ops : List PathOp} (h : p.Sound m)
    (hq : (p.turn m ops op).spawned = some (.path q)) : q.Sound m := by
  revert hq
  fun_cases Path.turn m p ops op <;> intro hq <;> cases hq
  all_goals
    refine ⟨?_, h.current, fun job hjob => (by cases hjob), fun hremove => ?_⟩
    · simp [Ordered, backgroundEvict]
    · simp [backgroundEvict] at hremove

theorem turn_sound {q : Path} (h : ∀ p, pc = .path p → p.Sound m)
    (hq : (turn m n pc).next = some (.path q) ∨ (turn m n pc).spawned = some (.path q)) :
    q.Sound m := by
  revert hq
  fun_cases turn m n pc <;> intro hq
  case case20 id t ht =>
    rcases hq with hq | hq <;> cases hq
    have hidentify : PathOp.identify ∈ teardownSession := by decide
    refine ⟨teardownSession_ordered, fun t' ht' => ?_, fun job hjob => (by cases hjob), fun _ hnone =>
      absurd hidentify hnone⟩
    rw [ht] at ht'
    exact (Option.some.inj ht').symm
  case case22 p op ops hops =>
    rcases hq with hq | hq
    · exact (h p rfl).turn hops hq
    · exact (h p rfl).background hq
  case case23 p hnil =>
    rcases hq with hq | hq
    · refine Path.sound_of_continue p ?_ hq
      rw [← hnil]
      exact h p rfl
    · cases hq
  case case12 =>
    simp only at hq
    split at hq <;> rcases hq with hq | hq <;> cases hq
  all_goals rcases hq with hq | hq <;> cases hq

-- ════════════════════════════════════════════════════════════════════════
-- Steps
-- ════════════════════════════════════════════════════════════════════════

variable {s s' : State} {a : Action}

structure TeardownInv (s : State) : Prop where
  numbered : s.Numbered
  given : ∀ e j, (s.shared.entries e).graceHandle = some j → j < s.nextTask
  tasks : ∀ k t, s.tasks.lookup k = some t → t.aborted = false ∧ t.pc.tearing = true
  sound : ∀ k t p, s.tasks.lookup k = some t → t.pc = .path p → p.Sound s.shared

theorem next_of_teardowns (h : teardowns.next s a = some s') : next s a = some s' := by
  unfold teardowns at h
  simp only at h
  split at h
  next => exact h
  next => cases h

theorem mem_tenantJobs {tenant : String} : job ∈ tenantJobs m tenant ↔
    m.transportSessions.lookup job.mcpSessionId = some job.transport ∧
      job.transport.tenantName = tenant := by
  unfold tenantJobs
  rw [List.mem_map]
  constructor
  · rintro ⟨e, he, rfl⟩
    rw [List.mem_filter] at he
    exact ⟨AList.mem_lookup_iff.mpr he.1, of_decide_eq_true he.2⟩
  · rintro ⟨hlook, htenant⟩
    refine ⟨⟨job.mcpSessionId, job.transport⟩, ?_, rfl⟩
    rw [List.mem_filter]
    exact ⟨AList.mem_lookup_iff.mp hlook, decide_eq_true htenant⟩

/-- **Step inversion**: a path begins with all its duties ahead, a task takes its
    turn, an aborted task ends, or nothing is found to do. -/
theorem teardowns_cases (h : teardowns.next s a = some s') :
    (s' = s ∧ ∀ job, ¬ Begun s job a) ∨
      (∃ p, s' = s.start (.path p) ∧ p.Sound s.shared ∧
        ∀ job, Begun s job a → ∀ op ∈ duties, op ∈ p.ahead job) ∨
      (∃ k t, a = .run k ∧ s.tasks.lookup k = some t ∧
        s' = s.resume Pc.sleeps k t (turn s.shared s.nextTask t.pc)) ∨
      ∃ k t, a = .cancel k ∧ s.tasks.lookup k = some t ∧ t.aborted = true := by
  have hduties : ∀ {p : Path} {job : Job}, p.job = job →
      (∀ op ∈ duties, op ∈ p.ops.flatMap PathOp.expand) → ∀ op ∈ duties, op ∈ p.ahead job :=
    fun hjob hops op hop => Path.mem_ahead.mpr (Or.inl ⟨hjob, hops op hop⟩)
  have hcurrent : ∀ {id t}, s.shared.transportSessions.lookup id = some t → ∀ t',
      s.shared.transportSessions.lookup id = some t' → t' = t := by
    intro id t ht t' ht'
    rw [ht] at ht'
    exact (Option.some.inj ht').symm
  have hnext := next_of_teardowns h
  cases a with
  | delete id =>
    simp only [next] at hnext
    split at hnext
    next t ht =>
      cases hnext
      have hidentify : PathOp.identify ∈ teardownSession := by decide
      refine Or.inr (Or.inl ⟨_, rfl, ⟨teardownSession_ordered, hcurrent ht, fun _ hjob => (by cases hjob),
        fun _ hnone => absurd hidentify hnone⟩, ?_⟩)
      rintro job ⟨rfl, hjob⟩
      rw [ht] at hjob
      cases hjob
      exact hduties rfl teardownSession_duties
    next => cases hnext
  | evictDead id =>
    simp only [next] at hnext
    split at hnext
    next t ht =>
      cases hnext
      refine Or.inr (Or.inl ⟨_, rfl, ⟨evictSession_ordered, hcurrent ht, fun _ hjob => (by cases hjob),
        fun _ _ _ _ => rfl⟩, ?_⟩)
      rintro job ⟨rfl, hjob⟩
      rw [ht] at hjob
      cases hjob
      exact hduties rfl evictSession_duties
    next => cases hnext
  | evictTenant tenant =>
    simp only [next] at hnext
    split at hnext
    next job rest hjobs =>
      cases hnext
      have hfound : ∀ job' ∈ job :: rest, ∀ t,
          s.shared.transportSessions.lookup job'.mcpSessionId = some t → t = job'.transport :=
        fun job' hjob' => hcurrent (mem_tenantJobs.mp (hjobs ▸ hjob')).1
      refine Or.inr (Or.inl ⟨_, rfl, ⟨evictSession_ordered, hfound job List.mem_cons_self,
        fun job' hjob' => hfound job' (List.mem_cons_of_mem _ hjob'), fun _ _ _ _ => rfl⟩, ?_⟩)
      intro job' hjob' op hop
      have hmem : job' ∈ tenantJobs s.shared tenant := hjob'
      rw [hjobs] at hmem
      rcases List.mem_cons.mp hmem with rfl | hlater
      · exact Path.mem_ahead.mpr (Or.inl ⟨rfl, evictSession_duties op hop⟩)
      · exact Path.mem_ahead.mpr (Or.inr ⟨hlater, evictSession_duties op hop⟩)
    next hjobs =>
      cases hnext
      refine Or.inl ⟨rfl, fun job hjob => ?_⟩
      have hmem : job ∈ tenantJobs s.shared tenant := hjob
      rw [hjobs] at hmem
      cases hmem
  | exit c =>
    simp only [next] at hnext
    split at hnext
    next id t hfind =>
      cases hnext
      have hwrites : PathOp.recordInactive ∉ handleContainerExit.flatMap PathOp.expand := by decide
      refine Or.inr (Or.inl ⟨_, rfl, ⟨handleContainerExit_ordered, hcurrent (FiniteMap.find?_eq_some hfind).1,
        fun _ hjob => (by cases hjob), fun _ _ hmem => absurd hmem hwrites⟩, ?_⟩)
      intro job hjob
      have heq : some (id, t) = some (job.mcpSessionId, job.transport) := hfind.symm.trans hjob
      cases heq
      exact hduties rfl handleContainerExit_duties
    next hnone =>
      cases hnext
      refine Or.inl ⟨rfl, fun job hjob => ?_⟩
      have hfound : s.shared.transportSessions.find? _ = some _ := hjob
      rw [hnone] at hfound
      cases hfound
  | run k =>
    simp only [next] at hnext
    split at hnext
    next t ht =>
      cases hnext
      exact Or.inr (Or.inr (Or.inl ⟨k, t, rfl, ht, rfl⟩))
    next => cases hnext
  | cancel k =>
    simp only [next] at hnext
    split at hnext
    next t ht =>
      split at hnext
      next haborted => exact Or.inr (Or.inr (Or.inr ⟨k, t, rfl, ht, haborted⟩))
      next => cases hnext
    next => cases hnext
  | _ => cases h

theorem turn_tearing (h : pc.tearing = true)
    (hnext : (turn m n pc).next = some pc' ∨ (turn m n pc).spawned = some pc') :
    pc'.tearing = true := by
  cases hpc : pc with
  | path p =>
    subst hpc
    rcases hnext with hnext | hspawned
    · cases hops : p.ops with
      | nil =>
        simp only [turn, hops] at hnext
        obtain ⟨q, rfl, -⟩ := Path.continue_eq_some hnext
        rfl
      | cons op ops =>
        simp only [turn, hops] at hnext
        obtain ⟨q, rfl, -⟩ := Path.turn_next_eq_some hnext
        rfl
    · rcases turn_spawned hspawned with ⟨id, e, -, -, rfl⟩ | ⟨q, rfl, -⟩ <;> rfl
  | sleeping id e | expired id =>
    subst hpc
    rcases hnext with hnext | hnext <;> cases hnext
    rfl
  | reaping id =>
    subst hpc
    simp only [turn] at hnext
    split at hnext <;> rcases hnext with hnext | hnext <;> cases hnext
    rfl
  | _ =>
    subst hpc
    cases h

/-- What a turn aborts is a timer that sleeps, which is then gone. -/
theorem sleeps_of_abort {k j : Nat} {t u : TaskState Pc} (hguard : TeardownGuard s (.run k))
    (htearing : t.pc.tearing = true) (hk : s.tasks.lookup k = some t)
    (habort : (turn s.shared s.nextTask t.pc).abort = some j) (hj : s.tasks.lookup j = some u) :
    u.pc.sleeps = true := by
  obtain ⟨e, hhandle, -, ⟨id, hpc⟩ | ⟨p, ops, hpc, hops, hheld⟩⟩ := turn_abort habort
  · rw [hpc] at htearing
    cases htearing
  · have hturn := hguard t hk
    rw [hpc] at hturn
    simp only [TeardownTurn, hops, hheld] at hturn
    simpa [hhandle, hj] using hturn

theorem TeardownInv.turn {k : Nat} {t : TaskState Pc} (inv : TeardownInv s)
    (hguard : TeardownGuard s (.run k)) (hk : s.tasks.lookup k = some t) :
    TeardownInv (s.resume Pc.sleeps k t (turn s.shared s.nextTask t.pc)) := by
  have htearing := (inv.tasks k t hk).2
  have hprogress : Progress s.shared (Liveness.turn s.shared s.nextTask t.pc).shared :=
    turn_progress htearing
  have hnext : next s (.run k) = some (s.resume Pc.sleeps k t
      (Liveness.turn s.shared s.nextTask t.pc)) := by
    simp only [next, hk]
  refine ⟨Pool.numbered_resume inv.numbered hk, ?_, ?_, ?_⟩
  · intro e j hj
    rcases handle_step inv.numbered hnext hj with hold | ⟨-, hlt, -⟩
    · exact Nat.lt_of_lt_of_le (inv.given e j hold) (nextTask_le hnext)
    · exact hlt
  · intro j u hu
    obtain ⟨habort, hcases⟩ := Pool.resume_cases hu
    refine ⟨?_, ?_⟩
    · by_contra haborted
      rw [Bool.not_eq_false] at haborted
      rcases Pool.resume_aborted hk hu haborted with hnow | ⟨v, hv, hvaborted⟩
      · -- the task it aborts sleeps, and has not survived
        have hawake := habort hnow
        rcases hcases with ⟨rfl, hmoved⟩ | ⟨rfl, -⟩ | ⟨-, v, hv, hpc⟩
        · have hsleeps := sleeps_of_abort hguard htearing hk hnow hk
          obtain ⟨e, -, -, ⟨id, hpc⟩ | ⟨p, ops, hpc, -⟩⟩ := turn_abort hnow
          · rw [hpc] at hsleeps
            cases hsleeps
          · rw [hpc] at hsleeps
            cases hsleeps
        · obtain ⟨e, hhandle, -⟩ := turn_abort hnow
          exact absurd (inv.given e _ hhandle) (Nat.lt_irrefl _)
        · rw [← hpc, sleeps_of_abort hguard htearing hk hnow hv] at hawake
          cases hawake
      · rw [(inv.tasks j v hv).1] at hvaborted
        cases hvaborted
    · rcases hcases with ⟨rfl, hmoved⟩ | ⟨rfl, hspawned⟩ | ⟨-, v, hv, hpc⟩
      · exact turn_tearing htearing (Or.inl hmoved)
      · exact turn_tearing htearing (Or.inr hspawned)
      · exact hpc ▸ (inv.tasks j v hv).2
  · intro j u q hu hpc
    have hsound : ∀ p, t.pc = .path p → p.Sound s.shared := fun p hp => inv.sound k t p hk hp
    apply Path.Sound.mono _ hprogress
    rcases (Pool.resume_cases hu).2 with ⟨rfl, hmoved⟩ | ⟨rfl, hspawned⟩ | ⟨-, v, hv, hvpc⟩
    · exact turn_sound hsound (Or.inl (hpc ▸ hmoved))
    · exact turn_sound hsound (Or.inr (hpc ▸ hspawned))
    · exact inv.sound j v q hv (hvpc.trans hpc)

theorem teardownInv_step (inv : TeardownInv s) (hguard : TeardownGuard s a)
    (h : teardowns.next s a = some s') : TeardownInv s' := by
  rcases teardowns_cases h with ⟨rfl, -⟩ | ⟨p, rfl, hsound, -⟩ | ⟨k, t, rfl, hk, rfl⟩ |
    ⟨k, t, -, hk, haborted⟩
  · exact inv
  · refine ⟨Pool.numbered_start inv.numbered _, ?_, ?_, ?_⟩
    · exact fun e j hj => Nat.lt_succ_of_lt (inv.given e j hj)
    · intro j u hu
      rw [Pool.lookup_start] at hu
      split at hu
      next =>
        cases hu
        exact ⟨rfl, rfl⟩
      next => exact inv.tasks j u hu
    · intro j u q hu hpc
      rw [Pool.lookup_start] at hu
      split at hu
      next =>
        cases hu
        cases hpc
        exact hsound
      next => exact inv.sound j u q hu hpc
  · exact inv.turn hguard hk
  · rw [(inv.tasks k t hk).1] at haborted
    cases haborted

theorem teardownInv_of_atRest (h : AtRest s) : TeardownInv s where
  numbered := h.numbered
  given := h.given
  tasks := by
    intro k t hk
    obtain ⟨haborted, hsleeps⟩ := h.timers k t hk
    refine ⟨haborted, ?_⟩
    cases hpc : t.pc <;> rw [hpc] at hsleeps <;> first | rfl | cases hsleeps
  sound := by
    intro k t p hk hpc
    obtain ⟨-, hsleeps⟩ := h.timers k t hk
    rw [hpc] at hsleeps
    cases hsleeps

theorem progress_step (inv : TeardownInv s) (h : teardowns.next s a = some s') :
    Progress s.shared s'.shared := by
  rcases teardowns_cases h with ⟨rfl, -⟩ | ⟨p, rfl, -⟩ | ⟨k, t, rfl, hk, rfl⟩ |
    ⟨k, t, -, hk, haborted⟩
  · exact Progress.refl _
  · exact Progress.refl _
  · exact turn_progress (inv.tasks k t hk).2
  · rw [(inv.tasks k t hk).1] at haborted
    cases haborted

-- ════════════════════════════════════════════════════════════════════════
-- Duties
-- ════════════════════════════════════════════════════════════════════════

theorem Pc.awake_of_owes (h : pc.owes job op = true) : pc.sleeps = false := by
  cases pc <;> first | rfl | cases h

theorem Pc.awake_of_owesInactive (h : pc.owesInactive who = true) : pc.sleeps = false := by
  cases pc <;> first | rfl | cases h

/-- A duty that is done or still to come stays so. -/
theorem duty_step (inv : TeardownInv s) (h : teardowns.next s a = some s')
    (hduty : Done s.shared job op ∨ s.Has (Pc.owes job op)) :
    Done s'.shared job op ∨ s'.Has (Pc.owes job op) := by
  have hprogress := progress_step inv h
  rcases hduty with hdone | hdue
  · exact Or.inl (hdone.mono hprogress)
  · rcases teardowns_cases h with ⟨rfl, -⟩ | ⟨p, rfl, -⟩ | ⟨k, t, rfl, hk, rfl⟩ |
      ⟨k, t, -, hk, haborted⟩
    · exact Or.inr hdue
    · exact Or.inr (Pool.has_start inv.numbered _ hdue)
    · exact Pool.has_resume Pc.sleeps (fun _ => Pc.awake_of_owes) inv.numbered hk turn_owes hdue
    · rw [(inv.tasks k t hk).1] at haborted
      cases haborted

/-- The path that begins on a session has all duties. -/
theorem duty_of_begun (inv : TeardownInv s) (h : teardowns.next s a = some s')
    (hbegun : Begun s job a) (hop : op ∈ duties) : s'.Has (Pc.owes job op) := by
  rcases teardowns_cases h with ⟨-, hnone⟩ | ⟨p, rfl, -, hahead⟩ | ⟨k, t, rfl, hk, rfl⟩ |
    ⟨k, t, rfl, -⟩
  · exact absurd hbegun (hnone job)
  · exact Pool.has_start_self s (List.contains_iff_mem.mpr (hahead job hbegun op hop))
  · obtain ⟨u, hu, hpc, hjob⟩ := hbegun
    rw [hk] at hu
    cases hu
    refine Pool.has_of_turn Pc.sleeps (fun _ => Pc.awake_of_owes) inv.numbered hk (Or.inl ?_)
    simp only [hpc, turn, hjob, Option.any_some]
    refine List.contains_iff_mem.mpr (Path.mem_ahead.mpr (Or.inl ⟨rfl, ?_⟩))
    exact teardownSession_duties op hop
  · cases hbegun

/-- A session of the agent is there, its row is not live, or a path will write it. -/
def Settles (s : State) (who : Identity) : Prop :=
  (∃ id t, s.shared.transportSessions.lookup id = some t ∧ identity t = some who) ∨
    (∀ state, s.shared.agentSessions.lookup who = some state → state = .inactive) ∨
    s.Has (Pc.owesInactive who)

theorem turn_transportSessions (h : pc.tearing = true) (id : String) :
    (turn m n pc).shared.transportSessions.lookup id = m.transportSessions.lookup id ∨
      ∃ p ops, pc = .path p ∧ p.ops = .removeEntry :: ops ∧ p.job.mcpSessionId = id := by
  have htransition : ∀ who state,
      (m.transitionState who state).transportSessions = m.transportSessions := by
    intro who state
    unfold Shared.transitionState
    split <;> rfl
  fun_cases turn m n pc
  case case22 p op ops hops =>
    fun_cases Path.turn m p ops op
    case case7 =>
      by_cases heq : p.job.mcpSessionId = id
      · exact Or.inr ⟨p, ops, rfl, hops, heq⟩
      · exact Or.inl (AList.lookup_erase_ne fun hid => heq hid.symm)
    case case8 => exact Or.inl (by rw [htransition])
    all_goals exact Or.inl rfl
  all_goals first
    | exact Or.inl rfl
    | cases h

theorem settles_turn {k : Nat} {t : TaskState Pc} (inv : TeardownInv s)
    (hguard : TeardownGuard s (.run k)) (hk : s.tasks.lookup k = some t) (h : Settles s who) :
    Settles (s.resume Pc.sleeps k t (turn s.shared s.nextTask t.pc)) who := by
  have htearing := (inv.tasks k t hk).2
  have hprogress : Progress s.shared (turn s.shared s.nextTask t.pc).shared :=
    turn_progress htearing
  have hrow : (∀ state, s.shared.agentSessions.lookup who = some state → state = .inactive) →
      Settles (s.resume Pc.sleeps k t (turn s.shared s.nextTask t.pc)) who :=
    fun hrow => Or.inr (Or.inl (hprogress.inactive who hrow))
  have hdue : s.Has (Pc.owesInactive who) →
      Settles (s.resume Pc.sleeps k t (turn s.shared s.nextTask t.pc)) who :=
    fun hdue => Or.inr (Pool.has_resume Pc.sleeps (fun _ => Pc.awake_of_owesInactive) inv.numbered
      hk turn_owesInactive hdue)
  rcases h with ⟨id, tr, htr, hwho⟩ | hold | hold
  · rcases @turn_transportSessions s.shared s.nextTask t.pc htearing id with hsame |
      ⟨p, ops, hpc, hops, rfl⟩
    · exact Or.inl ⟨id, tr, hsame.trans htr, hwho⟩
    · -- the path removes a session of the agent
      have hsound := inv.sound k t p hk hpc
      obtain rfl := hsound.current tr htr
      by_cases hwrites : PathOp.recordInactive ∈ ops.flatMap PathOp.expand
      · apply hdue
        refine ⟨k, t, hk, ?_⟩
        have hordered := (List.pairwise_cons.mp (hops ▸ hsound.ordered)).1
        have hidentify : PathOp.identify ∉ p.ops := by
          rw [hops, List.mem_cons, not_or]
          exact ⟨by simp, fun hmem => hordered _ hmem rfl rfl⟩
        have hmem : PathOp.recordInactive ∈ p.ops.flatMap PathOp.expand := by
          rw [hops, List.flatMap_cons]
          exact List.mem_append_right _ hwrites
        have hnoted : p.who = some who := by
          rw [← hwho]
          exact hsound.noted (hops ▸ List.mem_cons_self) hidentify hmem (by rw [htr]; rfl)
        rw [hpc]
        simp [Pc.owesInactive, Path.owesInactive, hnoted, hidentify, hmem]
      · -- it writes no row: the row of the agent is accounted for
        have hturn := hguard t hk
        rw [hpc] at hturn
        simp only [TeardownTurn, hops] at hturn
        rcases hturn (by simpa using hwrites) _ htr who hwho with hother | hold | hold
        · rw [FiniteMap.all_eq_true_iff] at hother
          push Not at hother
          obtain ⟨id', tr', htr', hne⟩ := hother
          obtain ⟨hother, hwho'⟩ : id' ≠ p.job.mcpSessionId ∧ identity tr' = some who := by
            simpa using hne
          refine Or.inl ⟨id', tr', ?_, hwho'⟩
          rcases @turn_transportSessions s.shared s.nextTask t.pc htearing id' with hsame |
            ⟨p', ops', hpc', -, hid⟩
          · exact hsame.trans htr'
          · rw [hpc] at hpc'
            cases hpc'
            exact absurd hid.symm hother
        · refine hrow fun state hstate => ?_
          rw [hstate] at hold
          exact of_decide_eq_true hold
        · apply hdue
          rw [FiniteMap.all_eq_true_iff] at hold
          push Not at hold
          obtain ⟨j, u, hu, howes⟩ := hold
          exact ⟨j, u, hu, by simpa using howes⟩
  · exact hrow hold
  · exact hdue hold

theorem settles_step (inv : TeardownInv s) (hguard : TeardownGuard s a)
    (h : teardowns.next s a = some s') (hsettles : Settles s who) : Settles s' who := by
  rcases teardowns_cases h with ⟨rfl, -⟩ | ⟨p, rfl, -⟩ | ⟨k, t, rfl, hk, rfl⟩ |
    ⟨k, t, -, hk, haborted⟩
  · exact hsettles
  · rcases hsettles with hheld | hrow | hdue
    · exact Or.inl hheld
    · exact Or.inr (Or.inl hrow)
    · exact Or.inr (Or.inr (Pool.has_start inv.numbered _ hdue))
  · exact settles_turn inv hguard hk hsettles
  · rw [(inv.tasks k t hk).1] at haborted
    cases haborted

theorem entry_of_begun (h : Begun s job a) :
    s.shared.transportSessions.lookup job.mcpSessionId = some job.transport := by
  cases a with
  | delete id | evictDead id =>
    obtain ⟨rfl, htr⟩ := h
    exact htr
  | evictTenant tenant => exact (mem_tenantJobs.mp h).1
  | exit c => exact (FiniteMap.find?_eq_some h).1
  | run k =>
    obtain ⟨t, -, -, htr⟩ := h
    exact htr
  | _ => cases h

-- ════════════════════════════════════════════════════════════════════════
-- The end state
-- ════════════════════════════════════════════════════════════════════════

/-- What holds from the moment a path begins on the session. -/
structure Ending (before : Shared) (job : Job) (s : State) : Prop where
  inv : TeardownInv s
  progress : Progress before s.shared
  duties : ∀ op ∈ duties, Done s.shared job op ∨ s.Has (Pc.owes job op)
  rows : ∀ who, identity job.transport = some who → Settles s who

theorem ending_of_begun (inv : TeardownInv s) (hguard : TeardownGuard s a)
    (h : teardowns.next s a = some s') (hbegun : Begun s job a) : Ending s.shared job s' where
  inv := teardownInv_step inv hguard h
  progress := progress_step inv h
  duties := fun _ hop => Or.inr (duty_of_begun inv h hbegun hop)
  rows := fun _ hwho => settles_step inv hguard h
    (Or.inl ⟨job.mcpSessionId, job.transport, entry_of_begun hbegun, hwho⟩)

theorem ending_step {before : Shared} (hending : Ending before job s) (hguard : TeardownGuard s a)
    (h : teardowns.next s a = some s') : Ending before job s' where
  inv := teardownInv_step hending.inv hguard h
  progress := hending.progress.trans (progress_step hending.inv h)
  duties := fun op hop => duty_step hending.inv h (hending.duties op hop)
  rows := fun who hwho => settles_step hending.inv hguard h (hending.rows who hwho)

theorem Ending.tornDown {before : Shared} (h : Ending before job s) (hsettled : Settled s) :
    TornDown before s.shared job := by
  have hdone : ∀ op ∈ Liveness.duties, Done s.shared job op := by
    intro op hop
    rcases h.duties op hop with hdone | ⟨k, t, hk, howes⟩
    · exact hdone
    · have hawake := Pc.awake_of_owes howes
      rw [hsettled k t hk] at hawake
      cases hawake
  refine ⟨hdone .tombstone (by decide), hdone .removeEntry (by decide), hdone .unmap (by decide),
    hdone .callTeardown (by decide), fun row hrow => ?_, fun who hwho hlast hexists => ?_⟩
  · have hreaped : ∀ row, s.shared.workers.lookup job.transport.containerName = some row →
      row.reaped = true := hdone .recordReap (by decide)
    rcases h.progress.workers job.transport.containerName with hsame | hmap
    · have hrow' := hsame.trans hrow
      have := hreaped row hrow'
      rw [hrow', ← this]
    · rw [hmap, hrow]
      rfl
  · have hrow := h.progress.rows who hexists
    obtain ⟨state, hstate⟩ := Option.isSome_iff_exists.mp hrow
    rcases h.rows who hwho with ⟨id, t, ht, hid⟩ | hinactive | ⟨k, t, hk, howes⟩
    · exact absurd hid (hlast id t ht)
    · rw [hstate, hinactive state hstate]
    · have hawake := Pc.awake_of_owesInactive howes
      rw [hsettled k t hk] at hawake
      cases hawake

/-- The sample transport, bound to an agent. -/
def boundTransport : TransportState := { sampleTransport with agentId := some "goose-1" }

def boundAgent : Identity := ⟨boundTransport.tenantName, boundTransport.workspace, "goose-1"⟩

/-- An idle session with its grace timer, task 0, and an active row. -/
def boundState : State where
  shared := { init.shared with
    transportSessions := (∅ : FiniteMap _ _).insert "s-1" boundTransport
    streamLiveness := (∅ : FiniteMap _ _).insert "s-1" 0
    entries := fun _ => ⟨0, some 0⟩
    nextEntry := 1
    agentSessions := (∅ : FiniteMap _ _).insert boundAgent .active
    workers := (∅ : FiniteMap _ _).insert boundTransport.containerName
      ⟨boundTransport.containerIp, boundTransport.pluginName, "s-1", false⟩ }
  tasks := (∅ : FiniteMap _ _).insert 0 ⟨.sleeping "s-1" 0, false⟩
  nextTask := 1

theorem boundState_atRest : AtRest boundState where
  numbered := by
    intro j t hj
    rw [boundState, FiniteMap.lookup_insert_ite] at hj
    split at hj
    next heq => exact heq ▸ Nat.one_pos
    next => cases hj
  timers := by
    intro k t hk
    rw [boundState, FiniteMap.lookup_insert_ite] at hk
    split at hk
    next =>
      cases hk
      exact ⟨rfl, rfl⟩
    next => cases hk
  given := by
    intro e j hj
    cases hj
    exact Nat.one_pos
  unissued := rfl

private def settles (s : State) : Bool := s.tasks.all fun _ t => t.pc.sleeps

private theorem settled_of_settles {s : State} (h : settles s = true) : Settled s :=
  fun k t hk => (FiniteMap.all_eq_true_iff _ _).mp h k t hk

/-- The row of the agent is active, and no session is left. -/
private def leftActive (s : State) : Bool :=
  settles s && s.shared.transportSessions.isEmpty &&
    decide (s.shared.agentSessions.lookup boundAgent = some .active)

end Botwork.SessionBroker.Liveness
