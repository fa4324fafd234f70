import Botwork.SessionBroker.Liveness

/-!
# Liveness entries under concurrent streams

What one turn does to the map, the counters and the handles, and the invariant
that holds as long as no session gets a second entry while a stream still uses
the first: every session has one entry, its counter counts the streams that are
counted on it, and its handle points to a timer of that entry.

## Main definitions

- `Pc.uses`, `Pc.countedOn`, `Pc.timerOf` — what a task has to do with an entry
- `FreshGuard` — the condition on a bump that makes an entry
- `EntriesInv` — the invariant

## Main results

- `next_cases` — the kinds of steps
- `entriesInv_step` — the invariant is kept
-/

namespace Botwork.SessionBroker.Liveness

open Botwork.Foundations

-- ════════════════════════════════════════════════════════════════════════
-- What a task has to do with an entry
-- ════════════════════════════════════════════════════════════════════════

/-- The entry that a stream holds or is counted on, with its session. -/
def Pc.uses : Pc → Option (String × Nat)
  | .bumpCount id e | .bumpTake id e | .bumpIdentify id e | .bumpRecord id e _ | .streaming id e
  | .dropEntry id e | .dropCount id e | .dropIdentify id e | .dropRecord id e _ | .arm id e =>
    some (id, e)
  | _ => none

/-- Whether the stream is counted in `openStreams` of entry `e`. -/
def Pc.countedOn (e : Nat) : Pc → Bool
  | .bumpTake _ e' | .bumpIdentify _ e' | .bumpRecord _ e' _ | .streaming _ e' | .dropEntry _ e'
  | .dropCount _ e' => e' = e
  | _ => false

/-- Whether the task is a timer that may be the one of entry `e`. -/
def Pc.timerOf (e : Nat) : Pc → Bool
  | .sleeping _ e' => e' = e
  | .expired _ | .reaping _ => true
  | .path p => p.reaper
  | _ => false

def Pc.isTimer : Pc → Bool
  | .sleeping _ _ | .expired _ | .reaping _ => true
  | .path p => p.reaper
  | _ => false

/-- The points at which tasks of other than timers start. -/
def Pc.isInitial : Pc → Bool
  | .bumpEntry _ | .bindRecord _ => true
  | .path p => !p.reaper && p.held.isNone && p.ops.contains .removeEntry
  | _ => false

theorem Pc.isTimer_of_timerOf {pc : Pc} {e : Nat} (h : pc.timerOf e = true) : pc.isTimer = true := by
  cases pc <;> first | rfl | exact h

theorem Pc.uses_of_countedOn {pc : Pc} {e : Nat} (h : pc.countedOn e = true) :
    ∃ id, pc.uses = some (id, e) := by
  cases pc <;> simp only [Pc.countedOn, decide_eq_true_eq, Bool.false_eq_true] at h <;>
    exact ⟨_, by rw [← h]; rfl⟩

theorem Pc.not_countedOn_of_sleeps {pc : Pc} (e : Nat) (h : pc.sleeps = true) :
    pc.countedOn e = false := by
  cases pc <;> first | rfl | cases h

theorem Pc.uses_of_isInitial {pc : Pc} (h : pc.isInitial = true) : pc.uses = none := by
  cases pc <;> first | rfl | cases h

theorem Pc.isTimer_of_isInitial {pc : Pc} (h : pc.isInitial = true) : pc.isTimer = false := by
  cases pc <;> first | rfl | cases h | skip
  simp only [Pc.isInitial, Bool.and_eq_true, Bool.not_eq_true'] at h
  exact h.1.1

theorem Pc.not_countedOn_of_uses {pc : Pc} (e : Nat) (h : pc.uses = none) :
    pc.countedOn e = false := by
  cases hcounted : pc.countedOn e with
  | false => rfl
  | true =>
    obtain ⟨id, huses⟩ := Pc.uses_of_countedOn hcounted
    rw [h] at huses
    cases huses

-- ════════════════════════════════════════════════════════════════════════
-- Paths
-- ════════════════════════════════════════════════════════════════════════

variable {m : Shared} {n : Nat} {pc pc' : Pc}

/-- A path goes on as a path of the same kind. -/
theorem Path.continue_eq_some {p : Path} {ops : List PathOp} (h : p.continue ops = some pc) :
    ∃ q, pc = .path q ∧ q.reaper = p.reaper ∧
      ((ops ≠ [] ∧ q = { p with ops := ops }) ∨
        (ops = [] ∧ q.held = none ∧ q.ops = evictSession ∧ q.job ∈ p.rest)) := by
  revert h
  fun_cases Path.continue p ops with
  | case1 => intro h; cases h
  | case2 job rest hrest =>
    intro h
    cases h
    exact ⟨_, rfl, rfl, Or.inr ⟨rfl, rfl, rfl, hrest ▸ List.mem_cons_self⟩⟩
  | case3 ops hne hne' =>
    intro h
    cases h
    refine ⟨_, rfl, rfl, Or.inl ⟨?_, rfl⟩⟩
    rintro rfl
    cases hrest : p.rest with
    | nil => exact hne rfl hrest
    | cons job rest => exact hne' job rest rfl hrest

/-- An operation moves its path on, with other registers at most. -/
theorem Path.turn_next (s : Shared) (p : Path) (ops : List PathOp) (op : PathOp) :
    ∃ q : Path, (p.turn s ops op).next = q.continue ops ∧ q.reaper = p.reaper ∧ q.job = p.job ∧
      q.rest = p.rest ∧ (q.held = p.held ∨ q.held = none ∨
        op = .unmap ∧ q.held = s.streamLiveness.lookup p.job.mcpSessionId) := by
  fun_cases Path.turn s p ops op
  case case1 => exact ⟨_, rfl, rfl, rfl, rfl, Or.inr (Or.inr ⟨rfl, rfl⟩)⟩
  case case2 => exact ⟨_, rfl, rfl, rfl, rfl, Or.inr (Or.inl rfl)⟩
  all_goals exact ⟨_, rfl, rfl, rfl, rfl, Or.inl rfl⟩

theorem Path.turn_next_eq_some {s : Shared} {p : Path} {ops : List PathOp} {op : PathOp}
    (h : (p.turn s ops op).next = some pc) : ∃ q, pc = .path q ∧ q.reaper = p.reaper := by
  obtain ⟨q, hnext, hreaper, -⟩ := p.turn_next s ops op
  rw [hnext] at h
  obtain ⟨q', rfl, hreaper', -⟩ := Path.continue_eq_some h
  exact ⟨q', rfl, hreaper'.trans hreaper⟩

theorem Path.turn_spawned {s : Shared} {p : Path} {ops : List PathOp} {op : PathOp}
    (h : (p.turn s ops op).spawned = some pc) :
    ∃ q, pc = .path q ∧ q.reaper = false ∧ q.held = none := by
  revert h
  fun_cases Path.turn s p ops op <;> intro h <;> cases h <;> exact ⟨_, rfl, rfl, rfl⟩

-- ════════════════════════════════════════════════════════════════════════
-- Turns
-- ════════════════════════════════════════════════════════════════════════

/-- The bump of a session without an entry makes one; every other first section
    leaves the state as it is. -/
theorem orInsert_cases (m : Shared) (id : String) :
    (∃ e, m.streamLiveness.lookup id = some e ∧ m.orInsert id = (m, e)) ∨
      (m.streamLiveness.lookup id = none ∧ m.orInsert id =
        ({ m with
            streamLiveness := m.streamLiveness.insert id m.nextEntry
            entries := Function.update m.entries m.nextEntry ⟨0, none⟩
            nextEntry := m.nextEntry + 1 }, m.nextEntry)) := by
  fun_cases Shared.orInsert m id with
  | case1 e he => exact Or.inl ⟨e, he, rfl⟩
  | case2 hnone => exact Or.inr ⟨hnone, rfl⟩

/-- A task keeps the entry it uses, except for the lookups of a bump and a drop. -/
theorem turn_uses {id : String} {e : Nat} (h : (turn m n pc).next = some pc')
    (huses : pc'.uses = some (id, e)) :
    pc.uses = some (id, e) ∨ (pc = .bumpEntry id ∧ (m.orInsert id).2 = e) ∨
      ∃ e', pc = .dropEntry id e' ∧ m.streamLiveness.lookup id = some e := by
  revert h
  fun_cases turn m n pc <;> intro h
  case case1 hins =>
    cases h
    cases huses
    exact Or.inr (Or.inl ⟨rfl, by rw [hins]⟩)
  case case9 hfound =>
    cases h
    cases huses
    exact Or.inr (Or.inr ⟨_, rfl, hfound⟩)
  case case12 =>
    simp only at h
    split at h
    next =>
      cases h
      exact Or.inl huses
    next => cases h
  case case22 =>
    obtain ⟨q, rfl, -⟩ := Path.turn_next_eq_some h
    cases huses
  case case23 =>
    obtain ⟨q, rfl, -⟩ := Path.continue_eq_some h
    cases huses
  all_goals cases h
  all_goals exact Or.inl huses

theorem turn_spawned (h : (turn m n pc).spawned = some pc') :
    (∃ id e, pc = .arm id e ∧ (m.entries e).openStreams = 0 ∧ pc' = .sleeping id e) ∨
      ∃ q, pc' = .path q ∧ q.reaper = false ∧ q.held = none := by
  revert h
  fun_cases turn m n pc <;> intro h
  case case22 => exact Or.inr (Path.turn_spawned h)
  all_goals cases h
  exact Or.inl ⟨_, _, rfl, by omega, rfl⟩

/-- The task a turn aborts is the one in a handle that the turn takes. -/
theorem turn_abort {j : Nat} (h : (turn m n pc).abort = some j) :
    ∃ e, (m.entries e).graceHandle = some j ∧ (turn m n pc).shared = m.takeHandle e ∧
      ((∃ id, pc = .bumpTake id e) ∨
        ∃ p ops, pc = .path p ∧ p.ops = .takeHandle :: ops ∧ p.held = some e) := by
  revert h
  fun_cases turn m n pc <;> intro h
  case case3 hhandle =>
    cases h
    exact ⟨_, hhandle, rfl, Or.inl ⟨_, rfl⟩⟩
  case case22 p op ops hops =>
    revert h
    fun_cases Path.turn m p ops op <;> intro h
    case case2 e he => exact ⟨e, h, rfl, Or.inr ⟨p, ops, rfl, hops, he⟩⟩
    all_goals cases h
  all_goals cases h

/-- A timer of an entry goes on as one. -/
theorem turn_timerOf {e : Nat} (h : (turn m n pc).next = some pc') (htimer : pc.timerOf e = true) :
    pc'.timerOf e = true := by
  revert h
  fun_cases turn m n pc <;> intro h
  case case22 =>
    obtain ⟨q, rfl, hreaper⟩ := Path.turn_next_eq_some h
    exact hreaper.trans htimer
  case case23 =>
    obtain ⟨q, rfl, hreaper, -⟩ := Path.continue_eq_some h
    exact hreaper.trans htimer
  all_goals first
    | (cases h; rfl)
    | (cases h; done)
    | cases htimer

theorem turn_isTimer (h : (turn m n pc).next = some pc') (htimer : pc.isTimer = true) :
    pc'.isTimer = true := by
  revert h
  fun_cases turn m n pc <;> intro h
  case case22 =>
    obtain ⟨q, rfl, hreaper⟩ := Path.turn_next_eq_some h
    exact hreaper.trans htimer
  case case23 =>
    obtain ⟨q, rfl, hreaper, -⟩ := Path.continue_eq_some h
    exact hreaper.trans htimer
  all_goals first
    | (cases h; rfl)
    | (cases h; done)
    | cases htimer

/-- The map gets the new entry of a bump, and loses the entry of a session that
    expires or is taken down. -/
theorem turn_map (m : Shared) (n : Nat) (pc : Pc) :
    ((turn m n pc).shared.streamLiveness = m.streamLiveness ∧
        (turn m n pc).shared.nextEntry = m.nextEntry) ∨
      (∃ id, pc = .bumpEntry id ∧ m.streamLiveness.lookup id = none ∧
        (turn m n pc).shared.streamLiveness = m.streamLiveness.insert id m.nextEntry ∧
        (turn m n pc).shared.nextEntry = m.nextEntry + 1) ∨
      ∃ id, (turn m n pc).shared.streamLiveness = m.streamLiveness.erase id ∧
        (turn m n pc).shared.nextEntry = m.nextEntry ∧ (pc = .expired id ∨
          ∃ p ops, pc = .path p ∧ p.ops = .unmap :: ops ∧ p.job.mcpSessionId = id) := by
  fun_cases turn m n pc
  case case1 id m' e hins =>
    rcases orInsert_cases m id with ⟨e', -, heq⟩ | ⟨hnone, heq⟩
    · rw [hins] at heq
      cases heq
      exact Or.inl ⟨rfl, rfl⟩
    · rw [hins] at heq
      cases heq
      exact Or.inr (Or.inl ⟨id, rfl, hnone, rfl, rfl⟩)
  case case15 id e who =>
    refine Or.inl ?_
    simp only [Shared.transitionState]
    split <;> exact ⟨rfl, rfl⟩
  case case19 id => exact Or.inr (Or.inr ⟨id, rfl, rfl, Or.inl rfl⟩)
  case case22 p op ops hops =>
    fun_cases Path.turn m p ops op
    case case1 => exact Or.inr (Or.inr ⟨_, rfl, rfl, Or.inr ⟨p, ops, rfl, hops, rfl⟩⟩)
    case case8 who hwho =>
      refine Or.inl ?_
      simp only [Shared.transitionState]
      split <;> exact ⟨rfl, rfl⟩
    all_goals exact Or.inl ⟨rfl, rfl⟩
  all_goals exact Or.inl ⟨rfl, rfl⟩

theorem entries_transitionState (m : Shared) (who : Identity) (state : AgentState) :
    (m.transitionState who state).entries = m.entries := by
  unfold Shared.transitionState
  split <;> rfl

theorem lookup_transitionState (m : Shared) (who who' : Identity) (state : AgentState) :
    (m.transitionState who state).agentSessions.lookup who' =
      if who' = who then (m.agentSessions.lookup who).map fun _ => state
      else m.agentSessions.lookup who' := by
  unfold Shared.transitionState
  cases hrow : m.agentSessions.lookup who with
  | none =>
    simp only [Option.isSome_none, Bool.false_eq_true, if_false, Option.map_none]
    split
    next heq => rw [heq, hrow]
    next => rfl
  | some old =>
    simp only [Option.isSome_some, if_true, Option.map_some]
    exact FiniteMap.lookup_insert_ite _ who who' state

/-- A handle is taken by a bump or a path, or stored with a new timer. -/
theorem turn_handle (m : Shared) (n : Nat) (pc : Pc) (e : Nat) :
    ((turn m n pc).shared.entries e).graceHandle = (m.entries e).graceHandle ∨
      (((turn m n pc).shared.entries e).graceHandle = none ∧
        (turn m n pc).abort = (m.entries e).graceHandle ∧ ((∃ id, pc = .bumpTake id e) ∨
          ∃ p ops, pc = .path p ∧ p.ops = .takeHandle :: ops ∧ p.held = some e)) ∨
      (((turn m n pc).shared.entries e).graceHandle = some n ∧
        (turn m n pc).shared.streamLiveness = m.streamLiveness ∧
        ∃ id, pc = .arm id e ∧ (turn m n pc).spawned = some (.sleeping id e)) ∨
      (((turn m n pc).shared.entries e).graceHandle = none ∧
        ∃ id, pc = .bumpEntry id ∧ m.streamLiveness.lookup id = none ∧ e = m.nextEntry) := by
  have hset : ∀ {e' : Nat} {liveness : SessionLiveness},
      (e = e' → liveness.graceHandle = (m.entries e).graceHandle) →
      ((m.setEntry e' liveness).entries e).graceHandle = (m.entries e).graceHandle := by
    intro e' liveness hsame
    simp only [Shared.setEntry, Function.update_apply]
    split
    next heq => exact hsame heq
    next => rfl
  have htake : ∀ e' : Nat, ((m.takeHandle e').entries e).graceHandle = (m.entries e).graceHandle ∨
      (e = e' ∧ ((m.takeHandle e').entries e).graceHandle = none) := by
    intro e'
    by_cases heq : e = e'
    · subst heq
      exact Or.inr ⟨rfl, by simp [Shared.takeHandle, Shared.setEntry]⟩
    · exact Or.inl (hset fun h => absurd h heq)
  fun_cases turn m n pc
  case case1 id m' e' hins =>
    rcases orInsert_cases m id with ⟨e'', -, heq⟩ | ⟨hnone, heq⟩
    · rw [hins] at heq
      cases heq
      exact Or.inl rfl
    · rw [hins] at heq
      cases heq
      by_cases hnew : e = m.nextEntry
      · refine Or.inr (Or.inr (Or.inr ⟨?_, id, rfl, hnone, hnew⟩))
        simp [hnew]
      · refine Or.inl ?_
        simp [hnew]
  case case2 id e' => exact Or.inl (hset fun h => by rw [h])
  case case3 id e' timer htimer =>
    rcases htake e' with hsame | ⟨rfl, hnone⟩
    · exact Or.inl hsame
    · exact Or.inr (Or.inl ⟨hnone, htimer.symm, Or.inl ⟨id, rfl⟩⟩)
  case case12 id e' k hk => exact Or.inl (hset fun h => by rw [h])
  case case15 => exact Or.inl (by rw [entries_transitionState])
  case case17 id e' hzero =>
    by_cases heq : e = e'
    · subst heq
      refine Or.inr (Or.inr (Or.inl ⟨?_, rfl, id, rfl, rfl⟩))
      simp [Shared.setEntry]
    · exact Or.inl (hset fun h => absurd h heq)
  case case22 p op ops hops =>
    fun_cases Path.turn m p ops op
    case case2 e' he' =>
      rcases htake e' with hsame | ⟨rfl, hnone⟩
      · exact Or.inl hsame
      · exact Or.inr (Or.inl ⟨hnone, rfl, Or.inr ⟨p, ops, rfl, hops, he'⟩⟩)
    case case8 => exact Or.inl (by rw [entries_transitionState])
    all_goals exact Or.inl rfl
  all_goals exact Or.inl rfl

/-- **Counters**: apart from a new entry, from a drop that finds another entry
    than its own or none, and from a drop at zero, a turn changes the counter of
    an entry by as much as the number of streams counted on it. -/
theorem turn_balance (m : Shared) (n : Nat) (pc : Pc) (e : Nat)
    (hnew : ∀ id, pc = .bumpEntry id → m.streamLiveness.lookup id = none → e ≠ m.nextEntry)
    (hfound : ∀ id e' found, pc = .dropEntry id e' → m.streamLiveness.lookup id = some found →
      found = e')
    (hlost : ∀ id, pc = .dropEntry id e → m.streamLiveness.lookup id ≠ none)
    (hpos : ∀ id, pc = .dropCount id e → 0 < (m.entries e).openStreams) :
    ((turn m n pc).shared.entries e).openStreams + (pc.countedOn e).toNat =
        (m.entries e).openStreams + ((turn m n pc).next.any (Pc.countedOn e)).toNat ∧
      (turn m n pc).spawned.any (Pc.countedOn e) = false := by
  have hpath : ∀ {p : Path} {ops : List PathOp} {op : PathOp},
      (p.turn m ops op).next.any (Pc.countedOn e) = false := by
    intro p ops op
    cases hnext : (p.turn m ops op).next with
    | none => rfl
    | some pc' =>
      obtain ⟨q, rfl, -⟩ := Path.turn_next_eq_some hnext
      rfl
  fun_cases turn m n pc
  case case1 id m' e' hins =>
    rcases orInsert_cases m id with ⟨e'', -, heq⟩ | ⟨hnone, heq⟩
    · rw [hins] at heq
      cases heq
      exact ⟨rfl, rfl⟩
    · rw [hins] at heq
      cases heq
      have hne := hnew id rfl hnone
      simp [hne, Pc.countedOn]
  case case2 id e' =>
    by_cases heq : e = e'
    · subst heq
      simp [Shared.setEntry, Pc.countedOn]
    · have heq' : e' ≠ e := fun h => heq h.symm
      simp [Shared.setEntry, Pc.countedOn, heq, heq']
  case case3 id e' timer htimer =>
    by_cases heq : e = e'
    · subst heq
      simp [Shared.takeHandle, Shared.setEntry, Pc.countedOn]
    · simp [Shared.takeHandle, Shared.setEntry, Pc.countedOn, heq]
  case case9 id e' found hlook =>
    obtain rfl := hfound id e' found rfl hlook
    exact ⟨rfl, rfl⟩
  case case10 id e' hnone =>
    have hne : e' ≠ e := by
      rintro rfl
      exact hlost id rfl hnone
    simp [Pc.countedOn, hne]
  case case11 id e' hzero =>
    have hne : e' ≠ e := by
      rintro rfl
      have := hpos id rfl
      omega
    simp [Pc.countedOn, hne]
  case case12 id e' k hk =>
    have hnext : (if k = 0 then some (Pc.dropIdentify id e') else none).any (Pc.countedOn e) =
        false := by
      split <;> rfl
    by_cases heq : e = e'
    · subst heq
      simp [hnext, Shared.setEntry, Pc.countedOn, hk]
    · have heq' : e' ≠ e := fun h => heq h.symm
      simp [hnext, Shared.setEntry, Pc.countedOn, heq, heq']
  case case15 =>
    rw [entries_transitionState]
    exact ⟨rfl, rfl⟩
  case case17 id e' hzero =>
    by_cases heq : e = e'
    · subst heq
      simp [Shared.setEntry, Pc.countedOn]
    · simp [Shared.setEntry, Pc.countedOn, heq]
  case case22 p op ops hops =>
    rw [hpath]
    refine ⟨?_, ?_⟩
    · fun_cases Path.turn m p ops op
      case case2 e' he' =>
        by_cases heq : e = e'
        · subst heq
          simp [Shared.takeHandle, Shared.setEntry, Pc.countedOn]
        · simp [Shared.takeHandle, Shared.setEntry, Pc.countedOn, heq]
      case case8 =>
        rw [entries_transitionState]
        rfl
      all_goals rfl
    · cases hspawned : (p.turn m ops op).spawned with
      | none => rfl
      | some pc' =>
        obtain ⟨q, rfl, -⟩ := Path.turn_spawned hspawned
        rfl
  case case23 p hnil =>
    refine ⟨?_, rfl⟩
    show _ = _ + ((p.continue []).any (Pc.countedOn e)).toNat
    cases hnext : p.continue [] with
    | none => rfl
    | some pc' =>
      obtain ⟨q, rfl, -⟩ := Path.continue_eq_some hnext
      rfl
  all_goals exact ⟨rfl, rfl⟩

-- ════════════════════════════════════════════════════════════════════════
-- Steps
-- ════════════════════════════════════════════════════════════════════════

variable {s s' : State} {a : Action}

/-- A new task, of other than a timer; the state of the entries stays as it is, and
    a transport entry that appears has a stream that is about to bump. -/
structure Begins (s : State) (a : Action) (m : Shared) (pc : Pc) : Prop where
  label : ∀ k, a ≠ .run k
  initial : pc.isInitial = true
  map : m.streamLiveness = s.shared.streamLiveness
  entries : m.entries = s.shared.entries
  nextEntry : m.nextEntry = s.shared.nextEntry
  kept : ∀ id, (m.transportSessions.lookup id).isSome = true →
    (s.shared.transportSessions.lookup id).isSome = true ∨ pc = .bumpEntry id
  rows : m.agentSessions = s.shared.agentSessions
  /-- the entries are those of before, one that is installed, and one that gets an agent -/
  entry : ∀ id t, m.transportSessions.lookup id = some t →
    s.shared.transportSessions.lookup id = some t ∨ a = .install id t ∨
      ∃ t₀ t' agentId, a = .bindAgent id t' agentId ∧
        pc = .bindRecord ⟨t'.tenantName, t'.workspace, agentId⟩ ∧
        s.shared.transportSessions.lookup id = some t₀ ∧ t = { t₀ with agentId := some agentId }

/-- A recovered session with its timer. -/
def recovered (s : State) (id : String) (t : TransportState) : State :=
  { s with shared := { s.shared with
    transportSessions := s.shared.transportSessions.insert id t
    streamLiveness := s.shared.streamLiveness.insert id s.shared.nextEntry
    entries := Function.update s.shared.entries s.shared.nextEntry ⟨0, some s.nextTask⟩
    nextEntry := s.shared.nextEntry + 1 } }.start (.sleeping id s.shared.nextEntry)

theorem bindAgent_isSome (m : Shared) (id agentId id' : String) :
    ((m.bindAgent id agentId).transportSessions.lookup id').isSome =
      (m.transportSessions.lookup id').isSome := by
  unfold Shared.bindAgent
  split
  next t ht =>
    split
    next =>
      simp only [FiniteMap.lookup_insert_ite]
      split
      next heq => rw [heq, ht]; rfl
      next => rfl
    next => rfl
  next => rfl

theorem bindAgent_frame (m : Shared) (id agentId : String) :
    (m.bindAgent id agentId).streamLiveness = m.streamLiveness ∧
      (m.bindAgent id agentId).entries = m.entries ∧
      (m.bindAgent id agentId).nextEntry = m.nextEntry ∧
      (m.bindAgent id agentId).agentSessions = m.agentSessions := by
  unfold Shared.bindAgent
  split
  next => split <;> exact ⟨rfl, rfl, rfl, rfl⟩
  next => exact ⟨rfl, rfl, rfl, rfl⟩

theorem bindAgent_entry {m : Shared} {id agentId id' : String} {t : TransportState}
    (h : (m.bindAgent id agentId).transportSessions.lookup id' = some t) :
    m.transportSessions.lookup id' = some t ∨ (id' = id ∧
      ∃ t₀, m.transportSessions.lookup id = some t₀ ∧ t = { t₀ with agentId := some agentId }) := by
  unfold Shared.bindAgent at h
  split at h
  next t₀ ht₀ =>
    split at h
    next =>
      simp only [FiniteMap.lookup_insert_ite] at h
      split at h
      next heq =>
        cases h
        exact Or.inr ⟨heq, t₀, ht₀, rfl⟩
      next => exact Or.inl h
    next => exact Or.inl h
  next => exact Or.inl h

theorem next_recover {id : String} {t : TransportState} (h : next s (.recover id t) = some s') :
    s.shared.transportSessions.lookup id = none ∧ s.shared.streamLiveness.lookup id = none ∧
      (∀ k u, s.tasks.lookup k = some u → u.pc.session ≠ some id) ∧ s' = recovered s id t := by
  simp only [next] at h
  split at h
  next hfree =>
    cases h
    refine ⟨by simpa using hfree.1, by simpa using hfree.2.1, fun k u hu => ?_, rfl⟩
    exact of_decide_eq_true ((FiniteMap.all_eq_true_iff _ _).mp hfree.2.2 k u hu)
  next => cases h

/-- **Step inversion**: a step starts a task, recovers a session, takes a turn,
    ends an aborted task, or finds nothing to do. -/
theorem next_cases (h : next s a = some s') :
    (s' = s ∧ ∀ k, a ≠ .run k) ∨
      (∃ m pc, s' = { s with shared := m }.start pc ∧ Begins s a m pc) ∨
      (∃ id t, a = .recover id t ∧ s.shared.transportSessions.lookup id = none ∧
        s.shared.streamLiveness.lookup id = none ∧ (∀ k u, s.tasks.lookup k = some u → u.pc.session ≠ some id) ∧
        s' = recovered s id t) ∨
      (∃ k t, a = .run k ∧ s.tasks.lookup k = some t ∧
        s' = s.resume Pc.sleeps k t (turn s.shared s.nextTask t.pc)) ∨
      ∃ k t, a = .cancel k ∧ s.tasks.lookup k = some t ∧ t.aborted = true ∧ s' = s.cancel k := by
  have hpath : ∀ {pc : Pc}, pc.isInitial = true → (∀ k, a ≠ .run k) →
      Begins s a s.shared pc := fun hinit hlabel =>
    ⟨hlabel, hinit, rfl, rfl, rfl, fun _ => Or.inl, rfl, fun _ _ => Or.inl⟩
  cases a with
  | arrive id =>
    cases h
    exact Or.inr (Or.inl ⟨s.shared, _, rfl, hpath rfl (by simp)⟩)
  | install id t =>
    cases h
    refine Or.inr (Or.inl ⟨_, _, rfl, ⟨by simp, rfl, rfl, rfl, rfl, fun id' hid' => ?_, rfl,
      fun id' t' ht' => ?_⟩⟩)
    · simp only [FiniteMap.lookup_insert_ite] at hid'
      split at hid'
      next heq => exact Or.inr (by rw [heq])
      next => exact Or.inl hid'
    · simp only [FiniteMap.lookup_insert_ite] at ht'
      split at ht'
      next heq =>
        cases ht'
        exact Or.inr (Or.inl (by rw [heq]))
      next => exact Or.inl ht'
  | recover id t => exact Or.inr (Or.inr (Or.inl ⟨id, t, rfl, next_recover h⟩))
  | bindAgent id t agentId =>
    cases h
    obtain ⟨hmap, hentries, hnext, hrows⟩ := bindAgent_frame s.shared id agentId
    refine Or.inr (Or.inl ⟨_, _, rfl, ⟨by simp, rfl, hmap, hentries, hnext, fun id' hid' => ?_, hrows,
      fun id' t' ht' => ?_⟩⟩)
    · rw [bindAgent_isSome] at hid'
      exact Or.inl hid'
    · rcases bindAgent_entry ht' with hold | ⟨rfl, t₀, ht₀, rfl⟩
      · exact Or.inl hold
      · exact Or.inr (Or.inr ⟨t₀, t, agentId, rfl, rfl, ht₀, rfl⟩)
  | run k =>
    simp only [next] at h
    split at h
    next t ht =>
      cases h
      exact Or.inr (Or.inr (Or.inr (Or.inl ⟨k, t, rfl, ht, rfl⟩)))
    next => cases h
  | cancel k =>
    simp only [next] at h
    split at h
    next t ht =>
      split at h
      next haborted =>
        cases h
        exact Or.inr (Or.inr (Or.inr (Or.inr ⟨k, t, rfl, ht, haborted, rfl⟩)))
      next => cases h
    next => cases h
  | delete id | evictDead id =>
    simp only [next] at h
    split at h
    next =>
      cases h
      exact Or.inr (Or.inl ⟨s.shared, _, rfl, hpath rfl (by simp)⟩)
    next => cases h
  | evictTenant tenant | exit c =>
    simp only [next] at h
    split at h
    next =>
      cases h
      exact Or.inr (Or.inl ⟨s.shared, _, rfl, hpath rfl (by simp)⟩)
    next =>
      cases h
      exact Or.inl ⟨rfl, by simp⟩

-- ════════════════════════════════════════════════════════════════════════
-- The invariant
-- ════════════════════════════════════════════════════════════════════════

/-- Session `id` has entry `e`, in the map or by a stream. -/
def Uses (s : State) (id : String) (e : Nat) : Prop :=
  s.shared.streamLiveness.lookup id = some e ∨
    ∃ k t, s.tasks.lookup k = some t ∧ t.pc.uses = some (id, e)

structure EntriesInv (s : State) : Prop where
  numbered : s.Numbered
  below : ∀ id e, Uses s id e → e < s.shared.nextEntry
  /-- a session has one entry, and an entry one session -/
  one : ∀ id id' e e', Uses s id e → Uses s id' e' → (id = id' ↔ e = e')
  counted : ∀ e, s.count (Pc.countedOn e) ≤ (s.shared.entries e).openStreams
  mapped : ∀ id e, s.shared.streamLiveness.lookup id = some e →
    (s.shared.entries e).openStreams ≤ s.count (Pc.countedOn e)
  given : ∀ e j, (s.shared.entries e).graceHandle = some j → j < s.nextTask
  handles : ∀ e j t, (s.shared.entries e).graceHandle = some j → s.tasks.lookup j = some t →
    t.pc.timerOf e = true
  aborted : ∀ j t, s.tasks.lookup j = some t → t.aborted = true → t.pc.isTimer = true

/-- A bump makes an entry only when no other stream of the session uses an
    earlier one. -/
def FreshGuard (s : State) : Action → Prop
  | .run k =>
    match s.tasks.lookup k with
    | some ⟨.bumpEntry id, _⟩ =>
      s.shared.streamLiveness.lookup id = none →
        (s.tasks.all fun _ t => t.pc.uses.all (·.1 ≠ id)) = true
    | _ => True
  | _ => True

instance (s : State) (a : Action) : Decidable (FreshGuard s a) := by
  unfold FreshGuard
  split
  · split <;> infer_instance
  · infer_instance

theorem FreshGuard.unused {k : Nat} {t : TaskState Pc} {id : String} (h : FreshGuard s (.run k))
    (hk : s.tasks.lookup k = some t) (hpc : t.pc = .bumpEntry id)
    (hnone : s.shared.streamLiveness.lookup id = none) (e : Nat) : ¬ Uses s id e := by
  obtain ⟨pc, aborted⟩ := t
  subst hpc
  simp only [FreshGuard, hk] at h
  rintro (hmap | ⟨j, u, hu, huses⟩)
  · rw [hnone] at hmap
    cases hmap
  · have hother := (FiniteMap.all_eq_true_iff _ _).mp (h hnone) j u hu
    rw [huses] at hother
    simp at hother

/-- The step gives session `id` its first entry. -/
def Enters (s : State) (a : Action) (id : String) : Prop :=
  (∃ t, a = .recover id t) ∨ ∃ k t, a = .run k ∧ s.tasks.lookup k = some t ∧ t.pc = .bumpEntry id

theorem Enters.unique {id id' : String} (h : Enters s a id) (h' : Enters s a id') : id = id' := by
  rcases h with ⟨t, rfl⟩ | ⟨k, t, rfl, ht, hpc⟩
  · rcases h' with ⟨t', heq⟩ | ⟨k', t', heq, -⟩
    · exact (Action.recover.inj heq).1
    · cases heq
  · rcases h' with ⟨t', heq⟩ | ⟨k', t', heq, ht', hpc'⟩
    · cases heq
    · cases heq
      rw [ht] at ht'
      cases ht'
      rw [hpc] at hpc'
      exact Pc.bumpEntry.inj hpc'

theorem Pc.session_of_uses {id : String} {e : Nat} (h : pc.uses = some (id, e)) :
    pc.session = some id := by
  cases pc <;> cases h <;> rfl

/-- Where the entry of a session comes from. -/
theorem uses_step (hguard : FreshGuard s a) (h : next s a = some s') {id : String} {e : Nat}
    (huses : Uses s' id e) :
    Uses s id e ∨ (e = s.shared.nextEntry ∧ s'.shared.nextEntry = s.shared.nextEntry + 1 ∧
      Enters s a id ∧ ∀ e', ¬ Uses s id e') := by
  rcases next_cases h with ⟨rfl, -⟩ | ⟨m, pc, rfl, hbegins⟩ | ⟨id₀, t, rfl, -, hmap₀, hfree, rfl⟩ |
    ⟨k, t, rfl, hk, rfl⟩ | ⟨k, t, rfl, hk, -, rfl⟩
  · exact Or.inl huses
  · refine Or.inl ?_
    rcases huses with hmap | ⟨j, u, hu, huses⟩
    · exact Or.inl (hbegins.map ▸ hmap)
    · rw [Pool.lookup_start] at hu
      split at hu
      next =>
        cases hu
        rw [Pc.uses_of_isInitial hbegins.initial] at huses
        cases huses
      next => exact Or.inr ⟨j, u, hu, huses⟩
  · rcases huses with hmap | ⟨j, u, hu, huses⟩
    · simp only [recovered, Pool.start, FiniteMap.lookup_insert_ite] at hmap
      split at hmap
      next heq =>
        cases hmap
        subst heq
        refine Or.inr ⟨rfl, rfl, Or.inl ⟨t, rfl⟩, fun e' he' => ?_⟩
        rcases he' with he' | ⟨j, u, hu, huses⟩
        · rw [hmap₀] at he'
          cases he'
        · exact hfree j u hu (Pc.session_of_uses huses)
      next => exact Or.inl (Or.inl hmap)
    · rw [recovered, Pool.lookup_start] at hu
      split at hu
      next =>
        cases hu
        cases huses
      next => exact Or.inl (Or.inr ⟨j, u, hu, huses⟩)
  · have hmapped : s.shared.streamLiveness.lookup id = some e → Uses s id e := Or.inl
    rcases huses with hmap | ⟨j, u, hu, huses⟩
    · rcases turn_map s.shared s.nextTask t.pc with ⟨hsame, -⟩ | ⟨id₀, hpc, hnone, hins, hnext⟩ |
        ⟨id₀, heras, -⟩
      · exact Or.inl (Or.inl (hsame ▸ hmap))
      · rw [show (s.resume Pc.sleeps k t _).shared.streamLiveness = _ from hins,
          FiniteMap.lookup_insert_ite] at hmap
        split at hmap
        next heq =>
          cases hmap
          subst heq
          exact Or.inr ⟨rfl, hnext, Or.inr ⟨k, t, rfl, hk, hpc⟩, FreshGuard.unused hguard hk hpc hnone⟩
        next => exact Or.inl (Or.inl hmap)
      · rw [show (s.resume Pc.sleeps k t _).shared.streamLiveness = _ from heras,
          FiniteMap.lookup_erase_ite] at hmap
        split at hmap
        next => cases hmap
        next => exact Or.inl (Or.inl hmap)
    · rcases (Pool.resume_cases hu).2 with ⟨rfl, hnext⟩ | ⟨-, hsp⟩ | ⟨-, v, hv, hpc⟩
      · rcases turn_uses hnext huses with hold | ⟨hpc, he⟩ | ⟨e', -, hmap⟩
        · exact Or.inl (Or.inr ⟨j, t, hk, hold⟩)
        · rcases orInsert_cases s.shared id with ⟨e', hmap, heq⟩ | ⟨hnone, heq⟩
          · rw [heq] at he
            exact Or.inl (Or.inl (he ▸ hmap))
          · rw [heq] at he
            refine Or.inr ⟨he.symm, ?_, Or.inr ⟨j, t, rfl, hk, hpc⟩, FreshGuard.unused hguard hk hpc hnone⟩
            simp only [Pool.resume, hpc, turn, heq]
        · exact Or.inl (Or.inl hmap)
      · rcases turn_spawned hsp with ⟨id', e', -, -, hpc⟩ | ⟨q, hpc, -⟩
        · rw [hpc] at huses
          cases huses
        · rw [hpc] at huses
          cases huses
      · exact Or.inl (Or.inr ⟨j, v, hv, hpc ▸ huses⟩)
  · refine Or.inl ?_
    rcases huses with hmap | ⟨j, u, hu, huses⟩
    · exact Or.inl hmap
    · exact Or.inr ⟨j, u, Pool.of_lookup_cancel hu, huses⟩

theorem entriesInv_init : EntriesInv init where
  numbered := by intro j t ht; cases ht
  below := by rintro id e (hmap | ⟨k, t, ht, -⟩) <;> contradiction
  one := by rintro id id' e e' (hmap | ⟨k, t, ht, -⟩) <;> contradiction
  counted := by intro e; exact Nat.le_refl 0
  mapped := by intro id e hmap; cases hmap
  given := by intro e j hj; cases hj
  handles := by intro e j t hj; cases hj
  aborted := by intro j t ht; cases ht

theorem nextEntry_le (h : next s a = some s') : s.shared.nextEntry ≤ s'.shared.nextEntry := by
  rcases next_cases h with ⟨rfl, -⟩ | ⟨m, pc, rfl, hbegins⟩ | ⟨id, t, -, -, -, -, rfl⟩ |
    ⟨k, t, -, -, rfl⟩ | ⟨k, t, -, -, -, rfl⟩
  · exact Nat.le_refl _
  · exact Nat.le_of_eq hbegins.nextEntry.symm
  · exact Nat.le_succ _
  · show s.shared.nextEntry ≤ (turn s.shared s.nextTask t.pc).shared.nextEntry
    rcases turn_map s.shared s.nextTask t.pc with ⟨-, heq⟩ | ⟨id, -, -, -, heq⟩ | ⟨id, -, heq, -⟩
    · exact Nat.le_of_eq heq.symm
    · rw [heq]
      exact Nat.le_succ _
    · exact Nat.le_of_eq heq.symm
  · exact Nat.le_refl _

theorem numbered_step (inv : s.Numbered) (h : next s a = some s') : s'.Numbered := by
  rcases next_cases h with ⟨rfl, -⟩ | ⟨m, pc, rfl, -⟩ | ⟨id, t, -, -, -, -, rfl⟩ | ⟨k, t, -, hk, rfl⟩ |
    ⟨k, t, -, -, -, rfl⟩
  · exact inv
  · exact Pool.numbered_start inv pc
  · exact Pool.numbered_start inv _
  · exact Pool.numbered_resume inv hk
  · exact Pool.numbered_cancel inv k

theorem EntriesInv.count_new (inv : EntriesInv s) :
    s.count (Pc.countedOn s.shared.nextEntry) = 0 := by
  by_contra hne
  obtain ⟨j, t, ht, hcounted⟩ := Pool.count_pos.mp (Nat.pos_of_ne_zero hne)
  obtain ⟨id, huses⟩ := Pc.uses_of_countedOn hcounted
  exact absurd (inv.below id _ (Or.inr ⟨j, t, ht, huses⟩)) (Nat.lt_irrefl _)

/-- A turn keeps the counters in step with the streams. -/
theorem EntriesInv.count_turn (inv : EntriesInv s) {k : Nat} {t : TaskState Pc}
    (hk : s.tasks.lookup k = some t) (e : Nat) :
    let s' := s.resume Pc.sleeps k t (turn s.shared s.nextTask t.pc)
    s'.count (Pc.countedOn e) ≤ (s'.shared.entries e).openStreams ∧
      ∀ id, s'.shared.streamLiveness.lookup id = some e →
        (s'.shared.entries e).openStreams ≤ s'.count (Pc.countedOn e) := by
  intro s'
  have hcount := Pool.count_resume Pc.sleeps (o := turn s.shared s.nextTask t.pc)
    (Pc.countedOn e) (fun _ => Pc.not_countedOn_of_sleeps e) inv.numbered hk
  have hcounted := inv.counted e
  have huses : ∀ {id e'}, t.pc.uses = some (id, e') → Uses s id e' :=
    fun h => Or.inr ⟨k, t, hk, h⟩
  have hpos : t.pc.countedOn e = true → 0 < s.count (Pc.countedOn e) :=
    fun h => Pool.count_pos.mpr ⟨k, t, hk, h⟩
  by_cases hnew : ∃ id, t.pc = .bumpEntry id ∧ s.shared.streamLiveness.lookup id = none ∧
      e = s.shared.nextEntry
  · -- the counter of a new entry is zero, and no stream is counted on it
    obtain ⟨id, hpc, hnone, rfl⟩ := hnew
    have hzero := inv.count_new
    rcases orInsert_cases s.shared id with ⟨e', hmap, -⟩ | ⟨-, heq⟩
    · rw [hnone] at hmap
      cases hmap
    · have hopen : (s'.shared.entries s.shared.nextEntry).openStreams = 0 := by
        show ((turn s.shared s.nextTask t.pc).shared.entries _).openStreams = 0
        simp [hpc, turn, heq]
      have hnext : (turn s.shared s.nextTask t.pc).next.any
          (Pc.countedOn s.shared.nextEntry) = false := by simp [hpc, turn, heq, Pc.countedOn]
      have hspawned : (turn s.shared s.nextTask t.pc).spawned = none := by simp [hpc, turn, heq]
      have hself : t.pc.countedOn s.shared.nextEntry = false := by rw [hpc]; rfl
      rw [hnext, hspawned, hself, hzero] at hcount
      have hcount' : s'.count (Pc.countedOn s.shared.nextEntry) = 0 := hcount
      exact ⟨by omega, fun _ _ => by omega⟩
  by_cases hlost : ∃ id, t.pc = .dropEntry id e ∧ s.shared.streamLiveness.lookup id = none
  · -- a drop whose entry is gone leaves the counter of an entry that no map holds
    obtain ⟨id, hpc, hnone⟩ := hlost
    have hself : Uses s id e := huses (by rw [hpc]; rfl)
    have hturn : turn s.shared s.nextTask t.pc = ⟨s.shared, none, none, none⟩ := by
      simp [hpc, turn, hnone]
    have hcountedOn : t.pc.countedOn e = true := by rw [hpc]; exact decide_eq_true rfl
    have hnext : (turn s.shared s.nextTask t.pc).next = none := by rw [hturn]
    have hspawned : (turn s.shared s.nextTask t.pc).spawned = none := by rw [hturn]
    rw [hnext, hspawned, hcountedOn] at hcount
    have hcount' : s'.count (Pc.countedOn e) + 1 = s.count (Pc.countedOn e) := hcount
    have hshared : s'.shared = s.shared := by
      show (turn s.shared s.nextTask t.pc).shared = s.shared
      rw [hturn]
    rw [hshared]
    refine ⟨by omega, fun id' hmap => ?_⟩
    have heq : id' = id := (inv.one id' id e e (Or.inl hmap) hself).mpr rfl
    rw [heq, hnone] at hmap
    cases hmap
  obtain ⟨hbalance, hspawned⟩ := turn_balance s.shared s.nextTask t.pc e
    (fun id hpc hnone heq => hnew ⟨id, hpc, hnone, heq⟩)
    (fun id e' found hpc hmap =>
      (inv.one id id found e' (Or.inl hmap) (huses (by rw [hpc]; rfl))).mp rfl)
    (fun id hpc hnone => hlost ⟨id, hpc, hnone⟩)
    (fun id hpc => Nat.lt_of_lt_of_le (hpos (by simp [hpc, Pc.countedOn])) hcounted)
  rw [hspawned, Bool.toNat_false] at hcount
  have hle : (t.pc.countedOn e).toNat ≤ s.count (Pc.countedOn e) := by
    cases hc : t.pc.countedOn e with
    | false => exact Nat.zero_le _
    | true => exact hpos hc
  have hshared : s'.shared = (turn s.shared s.nextTask t.pc).shared := rfl
  have hcount' : s'.count (Pc.countedOn e) + (t.pc.countedOn e).toNat =
      s.count (Pc.countedOn e) +
        ((turn s.shared s.nextTask t.pc).next.any (Pc.countedOn e)).toNat := hcount
  rw [← hshared] at hbalance
  refine ⟨by omega, fun id hmap => ?_⟩
  have hmap' : s.shared.streamLiveness.lookup id = some e := by
    rcases turn_map s.shared s.nextTask t.pc with ⟨hsame, -⟩ | ⟨id₀, hpc, hnone, hins, -⟩ |
      ⟨id₀, heras, -⟩
    · rw [hshared, hsame] at hmap
      exact hmap
    · rw [hshared, hins, FiniteMap.lookup_insert_ite] at hmap
      split at hmap
      next => exact absurd ⟨id₀, hpc, hnone, (Option.some.inj hmap).symm⟩ hnew
      next => exact hmap
    · rw [hshared, heras, FiniteMap.lookup_erase_ite] at hmap
      split at hmap
      next => cases hmap
      next => exact hmap
  have hmapped := inv.mapped id e hmap'
  omega

theorem counters_step (inv : EntriesInv s) (h : next s a = some s') (e : Nat) :
    s'.count (Pc.countedOn e) ≤ (s'.shared.entries e).openStreams ∧
      ∀ id, s'.shared.streamLiveness.lookup id = some e →
        (s'.shared.entries e).openStreams ≤ s'.count (Pc.countedOn e) := by
  rcases next_cases h with ⟨rfl, -⟩ | ⟨m, pc, rfl, hbegins⟩ | ⟨id, t, -, -, -, -, rfl⟩ |
    ⟨k, t, -, hk, rfl⟩ | ⟨k, t, -, hk, haborted, rfl⟩
  · exact ⟨inv.counted e, fun id => inv.mapped id e⟩
  · have hcount := Pool.count_start (p := { s with shared := m }) (Pc.countedOn e) inv.numbered pc
    rw [Pc.not_countedOn_of_uses e (Pc.uses_of_isInitial hbegins.initial)] at hcount
    have hsame : ({ s with shared := m }.start pc).count (Pc.countedOn e) =
      s.count (Pc.countedOn e) := hcount
    rw [hsame]
    show s.count _ ≤ (m.entries e).openStreams ∧
      ∀ id, m.streamLiveness.lookup id = some e → (m.entries e).openStreams ≤ s.count _
    rw [hbegins.entries, hbegins.map]
    exact ⟨inv.counted e, fun id => inv.mapped id e⟩
  · have hcount := Pool.count_start (p := s) (Pc.countedOn e) inv.numbered (.sleeping id e)
    have hsame : (recovered s id t).count (Pc.countedOn e) = s.count (Pc.countedOn e) := hcount
    rw [hsame]
    by_cases hnew : e = s.shared.nextEntry
    · subst hnew
      rw [inv.count_new]
      have hopen : ((recovered s id t).shared.entries s.shared.nextEntry).openStreams = 0 := by
        simp [recovered, Pool.start]
      rw [hopen]
      exact ⟨Nat.le_refl 0, fun _ _ => Nat.le_refl 0⟩
    · have hentry : (recovered s id t).shared.entries e = s.shared.entries e := by
        simp [recovered, Pool.start, hnew]
      rw [hentry]
      refine ⟨inv.counted e, fun id' hmap => inv.mapped id' e ?_⟩
      simp only [recovered, Pool.start, FiniteMap.lookup_insert_ite] at hmap
      split at hmap
      next => exact absurd (Option.some.inj hmap).symm hnew
      next => exact hmap
  · exact inv.count_turn hk e
  · have hcount := Pool.count_cancel (Pc.countedOn e) hk
    have htimer := inv.aborted k t hk haborted
    have hcountedOn : t.pc.countedOn e = false := by
      cases hpc : t.pc <;> rw [hpc] at htimer <;> first | rfl | cases htimer
    rw [hcountedOn] at hcount
    have hsame : (s.cancel k).count (Pc.countedOn e) = s.count (Pc.countedOn e) := hcount
    rw [hsame]
    exact ⟨inv.counted e, fun id => inv.mapped id e⟩

/-- **Task inversion**: a task of the next state was there, has taken the turn, or
    is new; a timer that slept and was aborted is none of these. -/
theorem task_step (h : next s a = some s') {j : Nat} {u : TaskState Pc}
    (hu : s'.tasks.lookup j = some u) :
    (∀ k t, a = .run k → s.tasks.lookup k = some t →
        (turn s.shared s.nextTask t.pc).abort = some j → u.pc.sleeps = false) ∧
      ((∃ v, s.tasks.lookup j = some v ∧ v.pc = u.pc ∧ a ≠ .run j) ∨
        (∃ t, a = .run j ∧ s.tasks.lookup j = some t ∧
          (turn s.shared s.nextTask t.pc).next = some u.pc) ∨
        (j = s.nextTask ∧ (u.pc.isInitial = true ∨
          (∃ id t, a = .recover id t ∧ u.pc = .sleeping id s.shared.nextEntry) ∨
          ∃ k t, a = .run k ∧ s.tasks.lookup k = some t ∧
            (turn s.shared s.nextTask t.pc).spawned = some u.pc))) := by
  rcases next_cases h with ⟨rfl, hlabel⟩ | ⟨m, pc, rfl, hbegins⟩ | ⟨id, t, rfl, -, -, -, rfl⟩ |
    ⟨k, t, rfl, hk, rfl⟩ | ⟨k, t, rfl, hk, -, rfl⟩
  · exact ⟨fun k t hrun => absurd hrun (hlabel k), Or.inl ⟨u, hu, rfl, hlabel j⟩⟩
  · refine ⟨fun k t hrun => absurd hrun (hbegins.label k), ?_⟩
    rw [Pool.lookup_start] at hu
    split at hu
    next heq =>
      cases hu
      exact Or.inr (Or.inr ⟨heq, Or.inl hbegins.initial⟩)
    next => exact Or.inl ⟨u, hu, rfl, hbegins.label j⟩
  · refine ⟨fun k t hrun => (by cases hrun), ?_⟩
    rw [recovered, Pool.lookup_start] at hu
    split at hu
    next heq =>
      cases hu
      exact Or.inr (Or.inr ⟨heq, Or.inr (Or.inl ⟨id, t, rfl, rfl⟩)⟩)
    next => exact Or.inl ⟨u, hu, rfl, by simp⟩
  · obtain ⟨habort, hcases⟩ := Pool.resume_cases hu
    refine ⟨fun k' t' hrun hk' habort' => ?_, ?_⟩
    · cases hrun
      rw [hk] at hk'
      cases hk'
      exact habort habort'
    · rcases hcases with ⟨rfl, hnext⟩ | ⟨rfl, hsp⟩ | ⟨hne, v, hv, hpc⟩
      · exact Or.inr (Or.inl ⟨t, rfl, hk, hnext⟩)
      · exact Or.inr (Or.inr ⟨rfl, Or.inr (Or.inr ⟨k, t, rfl, hk, hsp⟩)⟩)
      · exact Or.inl ⟨v, hv, hpc, fun heq => hne (Action.run.inj heq).symm⟩
  · exact ⟨fun k' t' hrun => (by cases hrun), Or.inl ⟨u, Pool.of_lookup_cancel hu, rfl, by simp⟩⟩

/-- An aborted task was aborted before, or is what the turn has just aborted. -/
theorem aborted_step (h : next s a = some s') {j : Nat} {u : TaskState Pc}
    (hu : s'.tasks.lookup j = some u) (haborted : u.aborted = true) :
    (∃ v, s.tasks.lookup j = some v ∧ v.aborted = true) ∨
      ∃ k t, a = .run k ∧ s.tasks.lookup k = some t ∧
        (turn s.shared s.nextTask t.pc).abort = some j := by
  have hstart : ∀ {p : State} {pc : Pc}, p.tasks = s.tasks → (p.start pc).tasks.lookup j = some u →
      ∃ v, s.tasks.lookup j = some v ∧ v.aborted = true := by
    intro p pc hp hu
    rw [Pool.lookup_start] at hu
    split at hu
    next =>
      cases hu
      cases haborted
    next => exact ⟨u, hp ▸ hu, haborted⟩
  rcases next_cases h with ⟨rfl, -⟩ | ⟨m, pc, rfl, -⟩ | ⟨id, t, -, -, -, -, rfl⟩ |
    ⟨k, t, rfl, hk, rfl⟩ | ⟨k, t, -, -, -, rfl⟩
  · exact Or.inl ⟨u, hu, haborted⟩
  · exact Or.inl (hstart rfl hu)
  · exact Or.inl (hstart rfl hu)
  · rcases Pool.resume_aborted hk hu haborted with habort | hold
    · exact Or.inr ⟨k, t, rfl, hk, habort⟩
    · exact Or.inl hold
  · exact Or.inl ⟨u, Pool.of_lookup_cancel hu, haborted⟩

/-- Where the handle of an entry comes from. -/
theorem handle_step (inv : s.Numbered) (h : next s a = some s') {e j : Nat}
    (hj : (s'.shared.entries e).graceHandle = some j) :
    (s.shared.entries e).graceHandle = some j ∨
      (j = s.nextTask ∧ j < s'.nextTask ∧
        ∃ id, ∀ u, s'.tasks.lookup j = some u → u.pc = .sleeping id e) := by
  rcases next_cases h with ⟨rfl, -⟩ | ⟨m, pc, rfl, hbegins⟩ | ⟨id, t, rfl, -, -, -, rfl⟩ |
    ⟨k, t, rfl, hk, rfl⟩ | ⟨k, t, -, -, -, rfl⟩
  · exact Or.inl hj
  · exact Or.inl (hbegins.entries ▸ hj)
  · simp only [recovered, Pool.start, Function.update_apply] at hj
    split at hj
    next heq =>
      obtain rfl := Option.some.inj hj
      refine Or.inr ⟨rfl, Nat.lt_succ_self _, id, fun u hu => ?_⟩
      rw [recovered, Pool.lookup_start, if_pos rfl] at hu
      cases hu
      rw [heq]
    next => exact Or.inl hj
  · change ((turn s.shared s.nextTask t.pc).shared.entries e).graceHandle = some j at hj
    rcases turn_handle s.shared s.nextTask t.pc e with hsame | ⟨hnone, -⟩ |
      ⟨hnew, -, id, hpc, hsp⟩ | ⟨hnone, -⟩
    · exact Or.inl (hsame ▸ hj)
    · rw [hnone] at hj
      cases hj
    · rw [hnew] at hj
      obtain rfl := Option.some.inj hj
      refine Or.inr ⟨rfl, Nat.lt_succ_self _, id, fun u hu => ?_⟩
      rcases (Pool.resume_cases hu).2 with ⟨heq, -⟩ | ⟨-, hsp'⟩ | ⟨-, v, hv, -⟩
      · exact absurd (heq ▸ inv k t hk) (Nat.lt_irrefl _)
      · rw [hsp] at hsp'
        exact (Option.some.inj hsp').symm
      · rw [inv.free] at hv
        cases hv
    · rw [hnone] at hj
      cases hj
  · exact Or.inl hj

theorem nextTask_le (h : next s a = some s') : s.nextTask ≤ s'.nextTask := by
  rcases next_cases h with ⟨rfl, -⟩ | ⟨m, pc, rfl, -⟩ | ⟨id, t, -, -, -, -, rfl⟩ | ⟨k, t, -, -, rfl⟩ |
    ⟨k, t, -, -, -, rfl⟩
  · exact Nat.le_refl _
  · exact Nat.le_succ _
  · exact Nat.le_succ _
  · exact Nat.le_succ _
  · exact Nat.le_refl _

/-- **Entries**: the invariant is kept while no session gets a second entry. -/
theorem entriesInv_step (inv : EntriesInv s) (hguard : FreshGuard s a) (h : next s a = some s') :
    EntriesInv s' where
  numbered := numbered_step inv.numbered h
  below := by
    intro id e huses
    rcases uses_step hguard h huses with hold | ⟨rfl, hnext, -⟩
    · exact Nat.lt_of_lt_of_le (inv.below id e hold) (nextEntry_le h)
    · omega
  one := by
    intro id id' e e' huses huses'
    rcases uses_step hguard h huses with hold | ⟨rfl, -, henters, hnone⟩
    · rcases uses_step hguard h huses' with hold' | ⟨rfl, -, -, hnone'⟩
      · exact inv.one id id' e e' hold hold'
      · have hlt := inv.below id e hold
        refine ⟨fun heq => absurd (heq ▸ hold) (hnone' e), fun heq => ?_⟩
        omega
    · rcases uses_step hguard h huses' with hold' | ⟨rfl, -, henters', -⟩
      · have hlt := inv.below id' e' hold'
        refine ⟨fun heq => absurd (heq ▸ hold') (hnone e'), fun heq => ?_⟩
        omega
      · exact ⟨fun _ => rfl, fun _ => henters.unique henters'⟩
  counted := fun e => (counters_step inv h e).1
  mapped := fun id e => (counters_step inv h e).2 id
  given := by
    intro e j hj
    rcases handle_step inv.numbered h hj with hold | ⟨-, hlt, -⟩
    · exact Nat.lt_of_lt_of_le (inv.given e j hold) (nextTask_le h)
    · exact hlt
  handles := by
    intro e j u hj hu
    obtain ⟨-, hcases⟩ := task_step h hu
    rcases handle_step inv.numbered h hj with hold | ⟨-, -, hnew⟩
    · rcases hcases with ⟨v, hv, hpc, -⟩ | ⟨t, -, ht, hnext⟩ | ⟨rfl, -⟩
      · rw [← hpc]
        exact inv.handles e j v hold hv
      · exact turn_timerOf hnext (inv.handles e j t hold ht)
      · exact absurd (inv.given e _ hold) (Nat.lt_irrefl _)
    · obtain ⟨id, hsleeping⟩ := hnew
      rw [hsleeping u hu]
      exact decide_eq_true rfl
  aborted := by
    intro j u hu haborted
    have habort : ∀ {v}, s.tasks.lookup j = some v → ((∃ v, s.tasks.lookup j = some v ∧
        v.aborted = true) ∨ ∃ k t, a = .run k ∧ s.tasks.lookup k = some t ∧
          (turn s.shared s.nextTask t.pc).abort = some j) → v.pc.isTimer = true := by
      rintro v hv (⟨v', hv', haborted'⟩ | ⟨k, t, -, -, habort⟩)
      · exact inv.aborted j v hv (by rw [hv] at hv'; cases hv'; exact haborted')
      · obtain ⟨e, hhandle, -⟩ := turn_abort habort
        exact Pc.isTimer_of_timerOf (inv.handles e j v hhandle hv)
    have hwas := aborted_step h hu haborted
    obtain ⟨-, ⟨v, hv, hpc, -⟩ | ⟨t, -, ht, hnext⟩ | ⟨rfl, -⟩⟩ := task_step h hu
    · rw [← hpc]
      exact habort hv hwas
    · exact turn_isTimer hnext (habort ht hwas)
    · rcases hwas with ⟨v, hv, -⟩ | ⟨k, t, -, -, habort'⟩
      · rw [inv.numbered.free] at hv
        cases hv
      · obtain ⟨e, hhandle, -⟩ := turn_abort habort'
        exact absurd (inv.given e _ hhandle) (Nat.lt_irrefl _)

end Botwork.SessionBroker.Liveness
