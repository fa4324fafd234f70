import Botwork.SessionBroker.Idle

/-!
# The row of an agent follows its sessions

One `agent_session` row stands for all sessions of an agent, but each session
writes it by itself: its last drop writes `grace` and its teardown `inactive`,
whatever the other sessions do.  While these two writes are made only when no
other session of the agent has a stream, and none is left, the row is active
beside an open stream, and passes the filter of control-plane's recovery as long as
there is a session.

Within one session the row is right as long as a bump finds the timer that a drop
has set.  A session whose row says grace has no open stream; its timer sleeps, or
its last drop is about to set it, or a bump has taken it and is about to write
the row, or the session is about to be removed.

## Main definitions

- `RowFollows` — what the row says of the sessions
- `rowTasks` — the tasks, over the rows an earlier broker has left
- `RowGuard` — the condition on a step
- `InGrace` — a session whose row says grace

## Main results

- `row_follows` — the row follows the sessions under the condition
- `grace_beside_open_stream` — and not without it
-/

namespace Botwork.SessionBroker.Liveness

open Botwork.Foundations

-- ════════════════════════════════════════════════════════════════════════
-- The row
-- ════════════════════════════════════════════════════════════════════════

/-- The filter of `fetch_live_sessions` on the state of the row. -/
def AgentState.isLive : AgentState → Bool
  | .active | .grace => true
  | .inactive => false

/-- A bind of the agent that has its write of the row to come. -/
def Pc.binds (who : Identity) : Pc → Bool
  | .bindRecord who' => who' = who
  | _ => false

/-- The session is bound to the agent, and no bind of the agent is under way. -/
def Bound (s : State) (id : String) (who : Identity) : Prop :=
  s.shared.identityOf id = some who ∧ ¬ s.Has (Pc.binds who)

/-- **The row follows the sessions**: it is live while the agent has a session, and
    active while one of its sessions has an open stream. -/
structure RowFollows (s : State) : Prop where
  live : ∀ id who, Bound s id who →
    ∃ state, s.shared.agentSessions.lookup who = some state ∧ state.isLive = true
  active : ∀ id who, Bound s id who → s.Has (Pc.isOpen id) →
    s.shared.agentSessions.lookup who = some .active

/-- The broker from a cold start, over any rows. -/
def rowTasks : Machine State Action where
  Start s := ∃ rows, s = { init with shared := { init.shared with agentSessions := rows } }
  next := next

-- ════════════════════════════════════════════════════════════════════════
-- The condition
-- ════════════════════════════════════════════════════════════════════════

/-- A stream of the session, from its arrival to the decrement in its drop. -/
def Pc.present (id : String) : Pc → Bool
  | .bumpEntry id' => id' = id
  | pc => pc.opens id

/-- A drop that has reached zero, and has yet to set its timer. -/
def Pc.settling (id : String) (e : Nat) : Pc → Bool
  | .dropIdentify id' e' | .dropRecord id' e' _ | .arm id' e' => id' = id && e' = e
  | _ => false

/-- A bump that has taken the timer, and has yet to write the row. -/
def Pc.reactivates (id : String) : Pc → Bool
  | .bumpIdentify id' _ | .bumpRecord id' _ _ => id' = id
  | _ => false

/-- No task is at a point that satisfies `f`. -/
def clear (s : State) (f : Pc → Bool) : Bool := s.tasks.all fun _ t => !f t.pc

/-- The sessions bound to the agent satisfy `f`. -/
def ofAgent (s : State) (who : Identity) (f : String → Bool) : Bool :=
  s.shared.transportSessions.all fun id t => identity t ≠ some who || f id

/-- The conditions on a turn, by where the task stands. -/
def RowTurn (s : State) : Pc → Prop
  -- no session of the agent has a stream
  | .dropRecord _ _ who => ofAgent s who (fun id => clear s (Pc.present id)) = true
  -- no session of the agent is left
  | .path p =>
    match p.ops, p.who with
    | .recordInactive :: _, some who => ofAgent s who (fun _ => false) = true
    | _, _ => True
  -- no drop of the session is about to set its timer
  | .bumpCount id e => s.shared.identityOf id ≠ none → clear s (Pc.settling id e) = true
  -- a bump that finds no timer: no other has taken it, and the session is not being removed
  | .bumpTake id e => s.shared.identityOf id ≠ none → (s.shared.entries e).graceHandle = none →
      clear s (Pc.reactivates id) = true ∧ clear s (Pc.ends id) = true
  | _ => True

instance (s : State) (pc : Pc) : Decidable (RowTurn s pc) := by
  induction pc using Pc.casesOn with
  | path p =>
    induction p using Path.casesOn with | mk reaper job held who ops rest =>
    induction ops using List.casesOn with
    | nil => exact .isTrue trivial
    | cons op ops =>
      induction op using PathOp.casesOn <;> induction who using Option.casesOn <;>
        (dsimp only [RowTurn]; infer_instance)
  | _ => dsimp only [RowTurn]; infer_instance

/-- The conditions on what enters the transports: a new session has no agent, a
    bound one that is recovered finds its row live, as the filter of the recovery has
    it, and a bind finds the transport of the tenant it was called for. -/
def EntryGuard (s : State) : Action → Prop
  | .install _ t => t.agentId = none
  | .recover _ t => ∀ who ∈ identity t,
      (s.shared.agentSessions.lookup who).any AgentState.isLive = true
  | .bindAgent id t _ => ∀ t₀ ∈ s.shared.transportSessions.lookup id,
      t₀.tenantName = t.tenantName ∧ t₀.workspace = t.workspace
  | _ => True

instance (s : State) (a : Action) : Decidable (EntryGuard s a) := by
  induction a using Action.casesOn <;> (dsimp only [EntryGuard]; infer_instance)

def RowGuard (s : State) (a : Action) : Prop := IdleGuard s a ∧ EntryGuard s a ∧ OnTurn RowTurn s a

instance (s : State) (a : Action) : Decidable (RowGuard s a) :=
  inferInstanceAs (Decidable (_ ∧ _ ∧ _))

-- ════════════════════════════════════════════════════════════════════════
-- The invariant
-- ════════════════════════════════════════════════════════════════════════

/-- The session is about to be removed, its timer sleeps, or its last drop is about
    to set the timer. -/
def Waits (s : State) (id : String) : Prop :=
  s.Has (Pc.ends id) ∨ ∃ e, s.shared.streamLiveness.lookup id = some e ∧
    ((∃ j u, (s.shared.entries e).graceHandle = some j ∧ s.tasks.lookup j = some u ∧
        u.pc = .sleeping id e) ∨
      ((s.shared.entries e).openStreams = 0 ∧ s.Has (Pc.settling id e)))

/-- A session whose row says grace. -/
structure InGrace (s : State) (id : String) (who : Identity) : Prop where
  row : s.shared.agentSessions.lookup who = some .grace
  closed : ¬ s.Has (Pc.isOpen id)
  noted : ∀ k t e who', s.tasks.lookup k = some t → t.pc = .bumpRecord id e who' → who' = who
  waits : s.Has (Pc.reactivates id) ∨ Waits s id

/-- What the row says of a session of the agent. -/
def RowOk (s : State) (id : String) (who : Identity) : Prop :=
  s.Has (Pc.binds who) ∨ s.shared.agentSessions.lookup who = some .active ∨ InGrace s id who

structure RowInv (s : State) : Prop where
  idle : IdleInv s
  rows : ∀ id who, s.shared.identityOf id = some who → RowOk s id who

variable {m : Shared} {n : Nat} {pc pc' : Pc} {s s' : State} {a : Action} {who : Identity}
  {id : String} {k : Nat} {t : TaskState Pc}

theorem clear_iff {f : Pc → Bool} : clear s f = true ↔ ¬ s.Has f := by
  unfold clear
  rw [FiniteMap.all_eq_true_iff]
  constructor
  · rintro h ⟨j, u, hu, hpc⟩
    simpa [hpc] using h j u hu
  · intro h j u hu
    rw [Bool.not_eq_true', ← Bool.not_eq_true]
    exact fun hpc => h ⟨j, u, hu, hpc⟩

theorem identityOf_eq_some : m.identityOf id = some who ↔
    ∃ t, m.transportSessions.lookup id = some t ∧ identity t = some who :=
  Option.bind_eq_some_iff

theorem ofAgent_apply {f : String → Bool} (h : ofAgent s who f = true)
    (hid : s.shared.identityOf id = some who) : f id = true := by
  obtain ⟨t, ht, hwho⟩ := identityOf_eq_some.mp hid
  have hall := (FiniteMap.all_eq_true_iff _ _).mp h id t ht
  simpa [hwho] using hall

theorem RowGuard.turn (h : RowGuard s (.run k)) (hk : s.tasks.lookup k = some t) :
    RowTurn s t.pc := h.2.2 t hk

theorem Pc.present_of_countedOn {e : Nat} (hcounted : pc.countedOn e = true)
    (huses : ∀ id', pc.uses = some (id', e) → id' = id) : pc.present id = true := by
  cases pc <;> first
    | cases hcounted
    | (obtain rfl := of_decide_eq_true hcounted
       exact decide_eq_true (huses _ rfl))

theorem Pc.present_of_isOpen (h : pc.isOpen id = true) : pc.present id = true := by
  cases pc <;> first | cases h | exact h

theorem Pc.awake_of_settling {e : Nat} (h : pc.settling id e = true) : pc.sleeps = false := by
  cases pc <;> first | rfl | cases h

theorem Pc.awake_of_reactivates (h : pc.reactivates id = true) : pc.sleeps = false := by
  cases pc <;> first | rfl | cases h

theorem Pc.awake_of_binds (h : pc.binds who = true) : pc.sleeps = false := by
  cases pc <;> first | rfl | cases h

-- ════════════════════════════════════════════════════════════════════════
-- Turns
-- ════════════════════════════════════════════════════════════════════════

theorem turn_identityOf (h : (turn m n pc).shared.identityOf id = some who) :
    m.identityOf id = some who := by
  obtain ⟨t, ht, hwho⟩ := identityOf_eq_some.mp h
  exact identityOf_eq_some.mpr ⟨t, turn_transports ht, hwho⟩

/-- The row of an agent stays as it is, is written active by a bump or a bind, grace
    by a drop, or inactive by a path. -/
theorem turn_row (m : Shared) (n : Nat) (pc : Pc) (who : Identity) :
    (turn m n pc).shared.agentSessions.lookup who = m.agentSessions.lookup who ∨
      (turn m n pc).shared.agentSessions.lookup who = some .active ∨
      (∃ id e, pc = .dropRecord id e who ∧ (turn m n pc).shared.agentSessions.lookup who =
        (m.agentSessions.lookup who).map fun _ => .grace) ∨
      ∃ p ops, pc = .path p ∧ p.ops = .recordInactive :: ops ∧ p.who = some who := by
  have hbind : ∀ who', (m.recordBindAgent who').agentSessions.lookup who =
      m.agentSessions.lookup who ∨ (m.recordBindAgent who').agentSessions.lookup who =
        some .active := by
    intro who'
    simp only [Shared.recordBindAgent, FiniteMap.lookup_insert_ite]
    split
    next => exact Or.inr rfl
    next => exact Or.inl rfl
  fun_cases turn m n pc
  case case1 id m' e' hins =>
    rcases orInsert_cases m id with ⟨e'', -, heq⟩ | ⟨-, heq⟩
    · rw [hins] at heq
      cases heq
      exact Or.inl rfl
    · rw [hins] at heq
      cases heq
      exact Or.inl rfl
  case case7 id e who' =>
    rcases hbind who' with hsame | hactive
    · exact Or.inl hsame
    · exact Or.inr (Or.inl hactive)
  case case15 id e who' =>
    rw [lookup_transitionState]
    split
    next heq =>
      subst heq
      exact Or.inr (Or.inr (Or.inl ⟨id, e, rfl, rfl⟩))
    next => exact Or.inl rfl
  case case22 p op ops hops =>
    fun_cases Path.turn m p ops op
    case case8 who' hwho =>
      rw [lookup_transitionState]
      split
      next heq =>
        subst heq
        exact Or.inr (Or.inr (Or.inr ⟨p, ops, rfl, hops, hwho⟩))
      next => exact Or.inl rfl
    all_goals exact Or.inl rfl
  case case24 who' =>
    rcases hbind who' with hsame | hactive
    · exact Or.inl hsame
    · exact Or.inr (Or.inl hactive)
  all_goals exact Or.inl rfl

/-- A stream gets open at the end of its bump only. -/
theorem turn_isOpen (h : (turn m n pc).next = some pc') (hopen : pc'.isOpen id = true) :
    pc.isOpen id = true ∨ (∃ e, pc = .bumpTake id e ∧ (m.entries e).graceHandle = none) ∨
      (∃ e, pc = .bumpIdentify id e ∧ m.identityOf id = none) ∨
      ∃ e who, pc = .bumpRecord id e who := by
  revert h
  fun_cases turn m n pc <;> intro h
  case case4 id' e hnone =>
    cases h
    obtain rfl := of_decide_eq_true hopen
    exact Or.inr (Or.inl ⟨e, rfl, hnone⟩)
  case case6 id' e hnone =>
    cases h
    obtain rfl := of_decide_eq_true hopen
    exact Or.inr (Or.inr (Or.inl ⟨e, rfl, hnone⟩))
  case case7 id' e who =>
    cases h
    obtain rfl := of_decide_eq_true hopen
    exact Or.inr (Or.inr (Or.inr ⟨e, who, rfl⟩))
  case case22 =>
    obtain ⟨q, rfl, -⟩ := Path.turn_next_eq_some h
    cases hopen
  case case23 =>
    obtain ⟨q, rfl, -⟩ := Path.continue_eq_some h
    cases hopen
  case case12 =>
    simp only at h
    split at h <;> cases h
    cases hopen
  all_goals cases h
  all_goals exact Or.inl hopen

/-- A bump notes the agent the session has at that time. -/
theorem turn_notes {e : Nat} (h : (turn m n pc).next = some (.bumpRecord id e who)) :
    m.identityOf id = some who := by
  revert h
  fun_cases turn m n pc <;> intro h
  case case5 hwho =>
    cases h
    exact hwho
  case case22 =>
    obtain ⟨q, heq, -⟩ := Path.turn_next_eq_some h
    cases heq
  case case23 =>
    obtain ⟨q, heq, -⟩ := Path.continue_eq_some h
    cases heq
  case case12 =>
    simp only at h
    split at h <;> cases h
  all_goals cases h

/-- Only a stream that is counted raises a counter from zero. -/
theorem turn_zero {e : Nat} (hzero : (m.entries e).openStreams = 0)
    (hcount : ∀ id, pc ≠ .bumpCount id e) :
    ((turn m n pc).shared.entries e).openStreams = 0 := by
  have hset : ∀ {e' : Nat} {liveness : SessionLiveness}, (e = e' → liveness.openStreams = 0) →
      ((m.setEntry e' liveness).entries e).openStreams = 0 := by
    intro e' liveness hnew
    simp only [Shared.setEntry, Function.update_apply]
    split
    next heq => exact hnew heq
    next => exact hzero
  have htake : ∀ e' : Nat, ((m.takeHandle e').entries e).openStreams = 0 :=
    fun e' => hset fun heq => by rw [← heq]; exact hzero
  fun_cases turn m n pc
  case case1 id m' e' hins =>
    rcases orInsert_cases m id with ⟨e'', -, heq⟩ | ⟨-, heq⟩
    · rw [hins] at heq
      cases heq
      exact hzero
    · rw [hins] at heq
      cases heq
      simp only [Function.update_apply]
      split
      next => rfl
      next => exact hzero
  case case2 id e' => exact hset fun heq => absurd rfl (heq ▸ hcount id)
  case case3 id e' timer htimer => exact htake e'
  case case12 id e' k hk =>
    refine hset fun heq => ?_
    rw [← heq, hzero] at hk
    cases hk
  case case15 =>
    rw [entries_transitionState]
    exact hzero
  case case17 id e' hopen => exact hset fun heq => by rw [← heq]; exact hzero
  case case22 p op ops hops =>
    fun_cases Path.turn m p ops op
    case case2 e' he' => exact htake e'
    case case8 =>
      rw [entries_transitionState]
      exact hzero
    all_goals exact hzero
  all_goals exact hzero

-- ════════════════════════════════════════════════════════════════════════
-- The row across a turn
-- ════════════════════════════════════════════════════════════════════════

/-- The pool after a turn of task `k`. -/
abbrev after (s : State) (k : Nat) (t : TaskState Pc) : State :=
  s.resume Pc.sleeps k t (turn s.shared s.nextTask t.pc)

/-- A stream that uses the entry of a session is one of the session. -/
theorem IdleInv.same_session (inv : IdleInv s) {e : Nat}
    (hmap : s.shared.streamLiveness.lookup id = some e) {j : Nat} {u : TaskState Pc}
    (hu : s.tasks.lookup j = some u) {id' : String} (huses : u.pc.uses = some (id', e)) :
    id' = id :=
  (inv.entries.one id' id e e (Or.inr ⟨j, u, hu, huses⟩) (Or.inl hmap)).mpr rfl

/-- The counter of a session without a stream is zero. -/
theorem IdleInv.counter_zero (inv : IdleInv s) {e : Nat} (hpresent : ¬ s.Has (Pc.present id))
    (hmap : s.shared.streamLiveness.lookup id = some e) :
    (s.shared.entries e).openStreams = 0 := by
  by_contra hpos
  obtain ⟨j, u, hu, hcounted⟩ := Pool.count_pos.mp
    (Nat.lt_of_lt_of_le (Nat.pos_of_ne_zero hpos) (inv.entries.mapped id e hmap))
  exact hpresent ⟨j, u, hu, Pc.present_of_countedOn hcounted fun _ => inv.same_session hmap hu⟩

/-- A session without a stream is about to be removed, or its entry has a timer. -/
theorem IdleInv.waits (inv : IdleInv s) (hpresent : ¬ s.Has (Pc.present id))
    (hid : s.shared.identityOf id = some who) : Waits s id := by
  obtain ⟨tr, htr, -⟩ := identityOf_eq_some.mp hid
  rcases inv.covered id (by rw [htr]; rfl) with ⟨j, u, hu, hends | hbump⟩ | ⟨e, hmap, hwatched⟩
  · exact Or.inl ⟨j, u, hu, hends⟩
  · exact absurd ⟨j, u, hu, by rw [hbump]; exact decide_eq_true rfl⟩ hpresent
  have hzero := inv.counter_zero hpresent hmap
  refine Or.inr ⟨e, hmap, ?_⟩
  rcases hwatched with hopen | ⟨j, u, hu, htends⟩ | hsleeps
  · omega
  · refine Or.inr ⟨hzero, j, u, hu, ?_⟩
    cases hpc : u.pc with
    | bumpCount id' e' =>
      rw [hpc] at htends
      obtain ⟨rfl, rfl⟩ : id' = id ∧ e' = e := by simpa [Pc.tends] using htends
      exact absurd ⟨j, u, hu, by rw [hpc]; exact decide_eq_true rfl⟩ hpresent
    | dropIdentify id' e' | dropRecord id' e' who' | arm id' e' =>
      rw [hpc] at htends
      exact htends
    | _ =>
      rw [hpc] at htends
      cases htends
  · exact Or.inl hsleeps

/-- What a bump or a bind writes. -/
theorem turn_active (h : (∃ id e, pc = .bumpRecord id e who) ∨ pc = .bindRecord who) :
    (turn m n pc).shared.agentSessions.lookup who = some .active := by
  rcases h with ⟨id, e, rfl⟩ | rfl <;> exact AList.lookup_insert _

/-- A drop that is about to set the timer goes on to do so. -/
theorem settling_next {e : Nat} (hwas : m.identityOf id = some who) (harm : pc ≠ .arm id e)
    (h : pc.settling id e = true) : (turn m n pc).next.any (Pc.settling id e) = true := by
  cases pc with
  | dropIdentify id' e' =>
    obtain ⟨rfl, rfl⟩ : id' = id ∧ e' = e := by simpa [Pc.settling] using h
    simp [turn, hwas, Pc.settling]
  | dropRecord id' e' who' => exact h
  | arm id' e' =>
    obtain ⟨rfl, rfl⟩ : id' = id ∧ e' = e := by simpa [Pc.settling] using h
    exact absurd rfl harm
  | _ => cases h

/-- A timer that sleeps goes on to sleep, is replaced or expires, or a bump takes it. -/
theorem timer_turn (inv : IdleInv s) (hk : s.tasks.lookup k = some t) {e : Nat}
    (hmap : s.shared.streamLiveness.lookup id = some e)
    (hmap' : (after s k t).shared.streamLiveness.lookup id = some e) {j : Nat} {u : TaskState Pc}
    (hhandle : (s.shared.entries e).graceHandle = some j) (hu : s.tasks.lookup j = some u)
    (hupc : u.pc = .sleeping id e) :
    (after s k t).Has (Pc.reactivates id) ∨ Waits (after s k t) id := by
  have hnumbered := inv.entries.numbered
  by_cases hrun : j = k
  · -- the timer expires
    subst hrun
    rw [hk] at hu
    cases hu
    refine Or.inr (Or.inl (Pool.has_of_turn Pc.sleeps (fun _ => Pc.awake_of_ends) hnumbered hk
      (Or.inl ?_)))
    rw [hupc]
    exact decide_eq_true rfl
  by_cases habort : (turn s.shared s.nextTask t.pc).abort = some j
  · -- a bump takes the handle, and will write the row
    refine Or.inl (Pool.has_of_turn Pc.sleeps (fun _ => Pc.awake_of_reactivates) hnumbered hk
      (Or.inl ?_))
    obtain ⟨e', hhandle', -, hwhere⟩ := turn_abort habort
    have htimer := inv.entries.handles e' j u hhandle' hu
    rw [hupc] at htimer
    obtain rfl : e = e' := of_decide_eq_true htimer
    rcases hwhere with ⟨id', hbump⟩ | ⟨p, ops, hpath, -, hheld⟩
    · obtain rfl := inv.same_session hmap hk (show t.pc.uses = some (id', e) by rw [hbump]; rfl)
      simp [hbump, turn, hhandle, Pc.reactivates]
    · exact absurd hmap ((inv.held k t p e hk hpath hheld).2 id)
  · refine Or.inr (Or.inr ⟨e, hmap', Or.inl ?_⟩)
    have hstays := Pool.resume_keeps Pc.sleeps (t := t) hnumbered hu hrun habort
    rcases turn_handle s.shared s.nextTask t.pc e with hkept | ⟨-, htaken, -⟩ |
      ⟨hnew, -, id', harm, hsp⟩ | ⟨-, id', -, -, hfresh⟩
    · exact ⟨j, u, hkept.trans hhandle, hstays, hupc⟩
    · exact absurd (htaken.trans hhandle) habort
    · -- a second timer takes the place of the first
      obtain rfl := inv.same_session hmap hk (show t.pc.uses = some (id', e) by rw [harm]; rfl)
      refine ⟨s.nextTask, ⟨.sleeping id' e, false⟩, hnew, ?_, rfl⟩
      refine Pool.resume_spawned hsp ?_
      rw [harm]
      simp only [turn]
      split <;> simp
    · exact absurd hfresh (Nat.ne_of_lt (inv.entries.below id e (Or.inl hmap)))

/-- While a drop is about to set the timer no stream is counted, until it has set it. -/
theorem settling_turn (inv : IdleInv s) (hguard : RowGuard s (.run k))
    (hk : s.tasks.lookup k = some t) (hwas : s.shared.identityOf id = some who) {e : Nat}
    (hmap : s.shared.streamLiveness.lookup id = some e)
    (hmap' : (after s k t).shared.streamLiveness.lookup id = some e)
    (hzero : (s.shared.entries e).openStreams = 0) (hhas : s.Has (Pc.settling id e)) :
    Waits (after s k t) id := by
  have hzero' : ((after s k t).shared.entries e).openStreams = 0 := by
    refine turn_zero hzero fun id' hcount => ?_
    obtain rfl := inv.same_session hmap hk (show t.pc.uses = some (id', e) by rw [hcount]; rfl)
    have hturn := hguard.turn hk
    rw [hcount] at hturn
    exact clear_iff.mp (hturn (by rw [hwas]; simp)) hhas
  refine Or.inr ⟨e, hmap', ?_⟩
  by_cases harm : t.pc = .arm id e
  · refine Or.inl ⟨s.nextTask, ⟨.sleeping id e, false⟩, ?_, ?_, rfl⟩
    · show ((turn s.shared s.nextTask t.pc).shared.entries e).graceHandle = _
      simp [harm, turn, hzero, Shared.setEntry]
    · exact Pool.resume_spawned (by simp [harm, turn, hzero]) (by simp [harm, turn, hzero])
  rcases Pool.has_resume (R := False) Pc.sleeps (fun _ => Pc.awake_of_settling)
    inv.entries.numbered hk (fun h => Or.inr (Or.inl (settling_next hwas harm h))) hhas with
    hfalse | hhas'
  · exact hfalse.elim
  · exact Or.inr ⟨hzero', hhas'⟩

/-- A session that waits goes on to wait, or a bump takes its timer. -/
theorem waits_turn (inv : IdleInv s) (hguard : RowGuard s (.run k)) (hk : s.tasks.lookup k = some t)
    (hid : (turn s.shared s.nextTask t.pc).shared.identityOf id = some who) (hwaits : Waits s id) :
    (after s k t).Has (Pc.reactivates id) ∨ Waits (after s k t) id := by
  have hnumbered := inv.entries.numbered
  have hwas := turn_identityOf hid
  obtain ⟨tr, htr, -⟩ := identityOf_eq_some.mp hid
  obtain ⟨tr', htr', -⟩ := identityOf_eq_some.mp hwas
  by_cases hself : t.pc.ends id = true
  · obtain ⟨pc, hnext, hpc⟩ := turn_ends (n := s.nextTask) hself (by rw [htr]; rfl)
    exact Or.inr (Or.inl (Pool.has_of_turn Pc.sleeps (fun _ => Pc.awake_of_ends) hnumbered hk
      (Or.inl (by rw [hnext]; exact hpc))))
  rcases hwaits with hhas | ⟨e, hmap, hwaits⟩
  · rcases Pool.has_resume (R := False) Pc.sleeps (o := turn s.shared s.nextTask t.pc)
      (fun _ => Pc.awake_of_ends) hnumbered hk (fun h => absurd h hself) hhas with hfalse | hhas'
    · exact hfalse.elim
    · exact Or.inr (Or.inl hhas')
  rw [Bool.not_eq_true] at hself
  have hmap' : (after s k t).shared.streamLiveness.lookup id = some e :=
    map_stays hguard.1 hk (by rw [htr']; rfl) hself hmap
  rcases hwaits with ⟨j, u, hhandle, hu, hupc⟩ | ⟨hzero, hhas⟩
  · exact timer_turn inv hk hmap hmap' hhandle hu hupc
  · exact Or.inr (settling_turn inv hguard hk hwas hmap hmap' hzero hhas)

/-- A bump that has taken the timer goes on to write the row. -/
theorem reactivates_turn (inv : IdleInv s) (hk : s.tasks.lookup k = some t)
    (hwas : s.shared.identityOf id = some who) (hgrace : InGrace s id who)
    (hhas : s.Has (Pc.reactivates id)) :
    (after s k t).shared.agentSessions.lookup who = some .active ∨
      (after s k t).Has (Pc.reactivates id) := by
  refine Pool.has_resume Pc.sleeps (fun _ => Pc.awake_of_reactivates) inv.entries.numbered hk
    (fun hself => ?_) hhas
  cases htpc : t.pc with
  | bumpIdentify id' e =>
    rw [htpc] at hself
    obtain rfl := of_decide_eq_true hself
    exact Or.inr (Or.inl (by simp [turn, hwas, Pc.reactivates]))
  | bumpRecord id' e who' =>
    rw [htpc] at hself
    obtain rfl := of_decide_eq_true hself
    obtain rfl := hgrace.noted k t e who' hk htpc
    refine Or.inl (turn_active (Or.inl ⟨id', e, htpc⟩))
  | _ =>
    rw [htpc] at hself
    cases hself

/-- A session whose row says grace is opened by a bump that writes the row. -/
theorem closed_turn (inv : IdleInv s) (hguard : RowGuard s (.run k))
    (hk : s.tasks.lookup k = some t) (hwas : s.shared.identityOf id = some who)
    (hgrace : InGrace s id who) :
    (after s k t).shared.agentSessions.lookup who = some .active ∨
      ¬ (after s k t).Has (Pc.isOpen id) := by
  refine or_iff_not_imp_right.mpr fun hopens => ?_
  rw [not_not] at hopens
  obtain ⟨j, u, hu, hpc⟩ := hopens
  rcases (Pool.resume_cases hu).2 with ⟨rfl, hnext⟩ | ⟨-, hsp⟩ | ⟨-, v, hv, hvpc⟩
  · rcases turn_isOpen hnext hpc with hopen | ⟨e, hbump, hnone⟩ | ⟨e, -, hnone⟩ | ⟨e, who', hrecord⟩
    · exact absurd ⟨j, t, hk, hopen⟩ hgrace.closed
    · -- the bump would find the timer
      exfalso
      have hturn := hguard.turn hk
      rw [hbump] at hturn
      obtain ⟨hreactivates, hends⟩ := hturn (by rw [hwas]; simp) hnone
      rcases hgrace.waits with hhas | hhas | ⟨e', hmap, hwaits⟩
      · exact clear_iff.mp hreactivates hhas
      · exact clear_iff.mp hends hhas
      have heq : e' = e := (inv.entries.one id id e' e (Or.inl hmap)
        (Or.inr ⟨j, t, hk, by rw [hbump]; rfl⟩)).mp rfl
      subst heq
      rcases hwaits with ⟨i, v, hhandle, -⟩ | ⟨hzero, -⟩
      · rw [hnone] at hhandle
        cases hhandle
      · have hpos : 0 < s.count (Pc.countedOn e') :=
          Pool.count_pos.mpr ⟨j, t, hk, by rw [hbump]; exact decide_eq_true rfl⟩
        have hcounted := inv.entries.counted e'
        omega
    · rw [hwas] at hnone
      cases hnone
    · obtain rfl := hgrace.noted j t e who' hk hrecord
      exact turn_active (Or.inl ⟨id, e, hrecord⟩)
  · rcases turn_spawned hsp with ⟨id', e, -, -, heq⟩ | ⟨q, heq, -⟩ <;> rw [heq] at hpc <;> cases hpc
  · exact absurd ⟨j, v, hv, hvpc ▸ hpc⟩ hgrace.closed

theorem noted_turn (hk : s.tasks.lookup k = some t) (hwas : s.shared.identityOf id = some who)
    (hnoted : ∀ k t e who', s.tasks.lookup k = some t → t.pc = .bumpRecord id e who' → who' = who)
    {j e : Nat} {u : TaskState Pc} {who' : Identity} (hu : (after s k t).tasks.lookup j = some u)
    (hpc : u.pc = .bumpRecord id e who') : who' = who := by
  rcases (Pool.resume_cases hu).2 with ⟨rfl, hnext⟩ | ⟨-, hsp⟩ | ⟨-, v, hv, hvpc⟩
  · rw [hpc] at hnext
    have hnotes := turn_notes hnext
    rw [hwas] at hnotes
    cases hnotes
    rfl
  · rcases turn_spawned hsp with ⟨id', e, -, -, heq⟩ | ⟨q, heq, -⟩ <;> rw [heq] at hpc <;> cases hpc
  · exact hnoted j v e who' hv (hvpc.trans hpc)

/-- A turn that leaves the row at grace. -/
theorem inGrace_turn (inv : IdleInv s) (hguard : RowGuard s (.run k))
    (hk : s.tasks.lookup k = some t)
    (hid : (turn s.shared s.nextTask t.pc).shared.identityOf id = some who)
    (hrow : (after s k t).shared.agentSessions.lookup who = some .grace)
    (hgrace : InGrace s id who) : InGrace (after s k t) id who := by
  have hwas := turn_identityOf hid
  have hnot : (after s k t).shared.agentSessions.lookup who ≠ some .active := by
    rw [hrow]
    simp
  refine ⟨hrow, (closed_turn inv hguard hk hwas hgrace).resolve_left hnot,
    fun j u e who' => noted_turn hk hwas hgrace.noted, ?_⟩
  rcases hgrace.waits with hhas | hwaits
  · exact Or.inl ((reactivates_turn inv hk hwas hgrace hhas).resolve_left hnot)
  · exact waits_turn inv hguard hk hid hwaits

/-- A drop writes grace: no session of the agent has a stream, and all of them wait. -/
theorem inGrace_of_dropRecord {id₀ : String} {e₀ : Nat} (inv : IdleInv s)
    (hguard : RowGuard s (.run k)) (hk : s.tasks.lookup k = some t)
    (hpc : t.pc = .dropRecord id₀ e₀ who)
    (hid : (turn s.shared s.nextTask t.pc).shared.identityOf id = some who)
    (hrow : (after s k t).shared.agentSessions.lookup who = some .grace) :
    InGrace (after s k t) id who := by
  have hwas := turn_identityOf hid
  have hpresent : ¬ s.Has (Pc.present id) := by
    have hturn := hguard.turn hk
    rw [hpc] at hturn
    exact clear_iff.mp (ofAgent_apply hturn hwas)
  have hnext : (turn s.shared s.nextTask t.pc).next = some (.arm id₀ e₀) := by
    rw [hpc]
    rfl
  have habsent : ∀ {f : Pc → Bool}, (∀ pc, f pc = true → pc.present id = true) →
      f (.arm id₀ e₀) = false → ¬ (after s k t).Has f := by
    rintro f hf hfalse ⟨j, u, hu, hupc⟩
    rcases (Pool.resume_cases hu).2 with ⟨rfl, hmoved⟩ | ⟨-, hsp⟩ | ⟨-, v, hv, hvpc⟩
    · rw [hnext] at hmoved
      rw [← Option.some.inj hmoved, hfalse] at hupc
      cases hupc
    · rw [hpc] at hsp
      cases hsp
    · exact hpresent ⟨j, v, hv, hvpc ▸ hf _ hupc⟩
  refine ⟨hrow, habsent (fun _ => Pc.present_of_isOpen) rfl, fun j u e who' hu hupc => ?_, ?_⟩
  · refine absurd ⟨j, u, hu, ?_⟩ (habsent (fun _ => fun h => h) rfl)
    rw [hupc]
    exact decide_eq_true rfl
  · exact waits_turn inv hguard hk hid (inv.waits hpresent hwas)

/-- **The row across a turn**. -/
theorem rowOk_turn (inv : RowInv s) (hguard : RowGuard s (.run k))
    (hk : s.tasks.lookup k = some t)
    (hid : (turn s.shared s.nextTask t.pc).shared.identityOf id = some who) :
    RowOk (after s k t) id who := by
  have hwas := turn_identityOf hid
  have hrow := turn_row s.shared s.nextTask t.pc who
  have hlive : ∀ {p : Path} {ops}, t.pc = .path p → p.ops = .recordInactive :: ops →
      p.who ≠ some who := by
    intro p ops hpc hops hwho
    have hturn := hguard.turn hk
    rw [hpc] at hturn
    simp only [RowTurn, hops, hwho] at hturn
    simpa using ofAgent_apply hturn hwas
  rcases inv.rows id who hwas with hbinds | hactive | hgrace
  · -- the bind writes the row, or has the write to come
    have hself : t.pc.binds who = true →
        (after s k t).shared.agentSessions.lookup who = some .active := by
      intro hself
      cases htpc : t.pc with
      | bindRecord who' =>
        rw [htpc] at hself
        obtain rfl := of_decide_eq_true hself
        exact turn_active (Or.inr htpc)
      | _ =>
        rw [htpc] at hself
        cases hself
    rcases Pool.has_resume Pc.sleeps (fun _ => Pc.awake_of_binds) inv.idle.entries.numbered hk
      (fun h => Or.inl (hself h)) hbinds with hactive | hbinds'
    · exact Or.inr (Or.inl hactive)
    · exact Or.inl hbinds'
  · rcases hrow with hsame | hwritten | ⟨id₀, e₀, hpc, hwritten⟩ | ⟨p, ops, hpc, hops, hwho⟩
    · exact Or.inr (Or.inl (hsame.trans hactive))
    · exact Or.inr (Or.inl hwritten)
    · rw [hactive] at hwritten
      exact Or.inr (Or.inr (inGrace_of_dropRecord inv.idle hguard hk hpc hid hwritten))
    · exact absurd hwho (hlive hpc hops)
  · rcases hrow with hsame | hwritten | ⟨id₀, e₀, hpc, hwritten⟩ | ⟨p, ops, hpc, hops, hwho⟩
    · exact Or.inr (Or.inr (inGrace_turn inv.idle hguard hk hid (hsame.trans hgrace.row) hgrace))
    · exact Or.inr (Or.inl hwritten)
    · rw [hgrace.row] at hwritten
      exact Or.inr (Or.inr (inGrace_of_dropRecord inv.idle hguard hk hpc hid hwritten))
    · exact absurd hwho (hlive hpc hops)

-- ════════════════════════════════════════════════════════════════════════
-- The row across the other steps
-- ════════════════════════════════════════════════════════════════════════

/-- A new task leaves the agents of the sessions as they were, but for a bind, whose
    row it is about to write. -/
theorem identity_start (hguard : EntryGuard s a) (hbegins : Begins s a m pc)
    (hid : m.identityOf id = some who) :
    s.shared.identityOf id = some who ∨ pc.binds who = true := by
  obtain ⟨t, ht, hwho⟩ := identityOf_eq_some.mp hid
  rcases hbegins.entry id t ht with hold | rfl | ⟨t₀, t', agentId, rfl, rfl, ht₀, rfl⟩
  · exact Or.inl (identityOf_eq_some.mpr ⟨t, hold, hwho⟩)
  · -- an installed session has no agent
    have hnone : t.agentId = none := hguard
    simp [identity, hnone] at hwho
  · -- the bind was called for the tenant of the entry
    obtain ⟨htenant, hworkspace⟩ := hguard t₀ ht₀
    refine Or.inr (decide_eq_true ?_)
    rw [← htenant, ← hworkspace]
    exact Option.some.inj hwho

/-- What a session waits for before a task starts it waits for after. -/
theorem waits_start (hnumbered : s.Numbered)
    (hmap : ∀ e, s.shared.streamLiveness.lookup id = some e → m.streamLiveness.lookup id = some e ∧
      m.entries e = s.shared.entries e)
    (hwaits : Waits s id) : Waits ({ s with shared := m }.start pc) id := by
  have hcarry : ∀ {f : Pc → Bool}, s.Has f → ({ s with shared := m }.start pc).Has f :=
    fun h => Pool.has_start (p := { s with shared := m }) hnumbered pc h
  rcases hwaits with hhas | ⟨e, he, ⟨j, u, hhandle, hu, hpc⟩ | ⟨hzero, hhas⟩⟩
  · exact Or.inl (hcarry hhas)
  · obtain ⟨he', hentry⟩ := hmap e he
    refine Or.inr ⟨e, he', Or.inl ⟨j, u, ?_, ?_, hpc⟩⟩
    · show (m.entries e).graceHandle = some j
      rw [hentry]
      exact hhandle
    · exact Pool.start_keeps (p := { s with shared := m }) hnumbered hu pc
  · obtain ⟨he', hentry⟩ := hmap e he
    refine Or.inr ⟨e, he', Or.inr ⟨?_, hcarry hhas⟩⟩
    show (m.entries e).openStreams = 0
    rw [hentry]
    exact hzero

/-- A task that starts is no open stream and no bump that has noted an agent. -/
theorem inGrace_start (hnumbered : s.Numbered) (hrows : m.agentSessions = s.shared.agentSessions)
    (hmap : ∀ e, s.shared.streamLiveness.lookup id = some e → m.streamLiveness.lookup id = some e ∧
      m.entries e = s.shared.entries e)
    (hopen : pc.isOpen id = false) (hbump : ∀ e who', pc ≠ .bumpRecord id e who')
    (hgrace : InGrace s id who) : InGrace ({ s with shared := m }.start pc) id who where
  row := by
    show m.agentSessions.lookup who = some .grace
    rw [hrows]
    exact hgrace.row
  closed := by
    rintro ⟨j, u, hu, hpc⟩
    rw [Pool.lookup_start] at hu
    split at hu
    next =>
      cases hu
      rw [hopen] at hpc
      cases hpc
    next => exact hgrace.closed ⟨j, u, hu, hpc⟩
  noted := by
    intro j u e who' hu hpc
    rw [Pool.lookup_start] at hu
    split at hu
    next =>
      cases hu
      exact absurd hpc (hbump e who')
    next => exact hgrace.noted j u e who' hu hpc
  waits := by
    rcases hgrace.waits with hhas | hwaits
    · exact Or.inl (Pool.has_start (p := { s with shared := m }) hnumbered pc hhas)
    · exact Or.inr (waits_start hnumbered hmap hwaits)

theorem rowOk_start (hnumbered : s.Numbered) (hrows : m.agentSessions = s.shared.agentSessions)
    (hmap : ∀ e, s.shared.streamLiveness.lookup id = some e → m.streamLiveness.lookup id = some e ∧
      m.entries e = s.shared.entries e)
    (hopen : pc.isOpen id = false) (hbump : ∀ e who', pc ≠ .bumpRecord id e who')
    (hok : RowOk s id who) : RowOk ({ s with shared := m }.start pc) id who := by
  rcases hok with hbinds | hactive | hgrace
  · exact Or.inl (Pool.has_start (p := { s with shared := m }) hnumbered pc hbinds)
  · refine Or.inr (Or.inl ?_)
    show m.agentSessions.lookup who = some .active
    rw [hrows]
    exact hactive
  · exact Or.inr (Or.inr (inGrace_start hnumbered hrows hmap hopen hbump hgrace))

theorem rowOk_begins (inv : RowInv s) (hguard : EntryGuard s a) (hbegins : Begins s a m pc)
    (hid : m.identityOf id = some who) : RowOk ({ s with shared := m }.start pc) id who := by
  have hinitial := hbegins.initial
  rcases identity_start hguard hbegins hid with hwas | hbinds
  · refine rowOk_start inv.idle.entries.numbered hbegins.rows (fun e he => ?_) ?_ (fun e who' heq => ?_)
      (inv.rows id who hwas)
    · rw [hbegins.map, hbegins.entries]
      exact ⟨he, rfl⟩
    · cases pc <;> first | rfl | cases hinitial
    · rw [heq] at hinitial
      cases hinitial
  · exact Or.inl (Pool.has_start_self _ hbinds)

/-- A recovered session is closed, and its timer sleeps. -/
theorem inGrace_recovered {tr : TransportState} (hfree : ∀ k u, s.tasks.lookup k = some u →
      u.pc.session ≠ some id) (hrow : s.shared.agentSessions.lookup who = some .grace) :
    InGrace (recovered s id tr) id who where
  row := hrow
  closed := by
    rintro ⟨j, u, hu, hpc⟩
    rw [recovered, Pool.lookup_start] at hu
    split at hu
    next =>
      cases hu
      cases hpc
    next =>
      refine hfree j u hu ?_
      cases hupc : u.pc <;> rw [hupc] at hpc <;> first
        | cases hpc
        | rw [← of_decide_eq_true hpc]; rfl
  noted := by
    intro j u e who' hu hpc
    rw [recovered, Pool.lookup_start] at hu
    split at hu
    next =>
      cases hu
      cases hpc
    next => exact absurd (by rw [hpc]; rfl) (hfree j u hu)
  waits := by
    refine Or.inr (Or.inr ⟨s.shared.nextEntry, ?_, Or.inl ⟨s.nextTask,
      ⟨.sleeping id s.shared.nextEntry, false⟩, ?_, ?_, rfl⟩⟩)
    · simp [recovered, Pool.start]
    · simp [recovered, Pool.start]
    · rw [recovered, Pool.lookup_start, if_pos rfl]

theorem rowOk_recovered {id₀ : String} {tr : TransportState} (inv : RowInv s)
    (hguard : EntryGuard s (.recover id₀ tr)) (hfree : ∀ k u, s.tasks.lookup k = some u →
      u.pc.session ≠ some id₀) (hid : (recovered s id₀ tr).shared.identityOf id = some who) :
    RowOk (recovered s id₀ tr) id who := by
  have hnumbered := inv.idle.entries.numbered
  by_cases heq : id = id₀
  · subst heq
    have hwho : identity tr = some who := by
      simpa [recovered, Pool.start, Shared.identityOf] using hid
    obtain ⟨state, hstate, hlive⟩ := (Option.any_eq_true _ _).mp (hguard who hwho)
    cases state with
    | active => exact Or.inr (Or.inl hstate)
    | grace => exact Or.inr (Or.inr (inGrace_recovered hfree hstate))
    | inactive => cases hlive
  · have hwas : s.shared.identityOf id = some who := by
      simpa [recovered, Pool.start, Shared.identityOf, FiniteMap.lookup_insert_ite, heq] using hid
    refine rowOk_start hnumbered rfl (fun e he => ⟨?_, ?_⟩) rfl (fun e who' h => by cases h)
      (inv.rows id who hwas)
    · simpa [FiniteMap.lookup_insert_ite, heq] using he
    · exact Function.update_of_ne (Nat.ne_of_lt (inv.idle.entries.below id e (Or.inl he))) _ _

/-- An aborted task is a timer that has woken, and none of those a session waits for. -/
theorem rowOk_cancel (inv : RowInv s) (hk : s.tasks.lookup k = some t) (haborted : t.aborted = true)
    (hid : s.shared.identityOf id = some who) : RowOk (s.cancel k) id who := by
  have htimer := inv.idle.entries.aborted k t hk haborted
  have hnot : ∀ {f : Pc → Bool}, (∀ pc, f pc = true → pc.isTimer = false) → f t.pc = false := by
    intro f hf
    by_contra hpc
    rw [Bool.not_eq_false] at hpc
    rw [hf _ hpc] at htimer
    cases htimer
  rcases inv.rows id who hid with hbinds | hactive | hgrace
  · refine Or.inl (Pool.has_cancel hk (hnot fun pc h => ?_) hbinds)
    cases pc <;> first | rfl | cases h
  · exact Or.inr (Or.inl hactive)
  refine Or.inr (Or.inr ⟨hgrace.row, fun ⟨j, u, hu, hpc⟩ =>
    hgrace.closed ⟨j, u, Pool.of_lookup_cancel hu, hpc⟩,
    fun j u e who' hu hpc => hgrace.noted j u e who' (Pool.of_lookup_cancel hu) hpc, ?_⟩)
  rcases hgrace.waits with hhas | hhas | ⟨e, hmap, ⟨j, u, hhandle, hu, hpc⟩ | ⟨hzero, hhas⟩⟩
  · refine Or.inl (Pool.has_cancel hk (hnot fun pc h => ?_) hhas)
    cases pc <;> first | rfl | cases h
  · -- a timer that has a removal ahead is not aborted
    refine Or.inr (Or.inl (Pool.has_cancel hk ?_ hhas))
    by_contra hends
    rw [Bool.not_eq_false] at hends
    rw [inv.idle.firm k t hk (Pc.ending_of_ends hends)] at haborted
    cases haborted
  · refine Or.inr (Or.inr ⟨e, hmap, Or.inl ⟨j, u, hhandle, Pool.cancel_keeps hk hu ?_, hpc⟩⟩)
    rintro rfl
    have hawake := inv.idle.awake k t hk haborted
    rw [hpc] at hawake
    cases hawake
  · refine Or.inr (Or.inr ⟨e, hmap, Or.inr ⟨hzero,
      Pool.has_cancel hk (hnot fun pc h => ?_) hhas⟩⟩)
    cases pc <;> first | rfl | cases h

theorem rows_step (inv : RowInv s) (hguard : RowGuard s a) (h : next s a = some s')
    (hid : s'.shared.identityOf id = some who) : RowOk s' id who := by
  rcases next_cases h with ⟨rfl, -⟩ | ⟨m, pc, rfl, hbegins⟩ | ⟨id₀, t, rfl, -, -, hfree, rfl⟩ |
    ⟨k, t, rfl, hk, rfl⟩ | ⟨k, t, rfl, hk, haborted, rfl⟩
  · exact inv.rows id who hid
  · exact rowOk_begins inv hguard.2.1 hbegins hid
  · exact rowOk_recovered inv hguard.2.1 hfree hid
  · exact rowOk_turn inv hguard hk hid
  · exact rowOk_cancel inv hk haborted hid

theorem rowInv_start (h : rowTasks.Start s) : RowInv s := by
  obtain ⟨rows, rfl⟩ := h
  exact
    { idle := { idleInv_init with entries := { entriesInv_init with } }
      rows := by intro id who hid; cases hid }

theorem rowInv_step (inv : RowInv s) (hguard : RowGuard s a) (h : next s a = some s') :
    RowInv s' where
  idle := idleInv_step inv.idle hguard.1 h
  rows := fun _ _ hid => rows_step inv hguard h hid

/-- **The row follows the sessions** in every state of every run whose steps meet the
    condition. -/
theorem row_follows (hreach : rowTasks.ReachableUnder RowGuard s) : RowFollows s := by
  have inv : RowInv s := hreach.invariant (fun _ => rowInv_start)
    fun _ _ _ inv hguard hnext => rowInv_step inv hguard hnext
  refine ⟨fun id who hbound => ?_, fun id who hbound hopen => ?_⟩
  · rcases (inv.rows id who hbound.1).resolve_left hbound.2 with hactive | hgrace
    · exact ⟨.active, hactive, rfl⟩
    · exact ⟨.grace, hgrace.row, rfl⟩
  · rcases (inv.rows id who hbound.1).resolve_left hbound.2 with hactive | hgrace
    · exact hactive
    · exact absurd hopen hgrace.closed

-- ════════════════════════════════════════════════════════════════════════
-- Runs
-- ════════════════════════════════════════════════════════════════════════

/-- The transport of a second container for the same tenant and workspace. -/
def secondTransport : TransportState :=
  { sampleTransport with containerName := "mcp_session_00000000000b" }

def sampleAgent : Identity := ⟨sampleTransport.tenantName, sampleTransport.workspace, "goose-1"⟩

/-- A session is installed, its stream opens, and it is bound to the agent. -/
def boundRun : List Action :=
  .install "s-1" sampleTransport :: turns 0 3 ++ .bindAgent "s-1" sampleTransport "goose-1" ::
    turns 4 1

/-- The first session idles and comes back, while a second one is installed and bound
    to its agent; the streams, the timer and the bind take turns. -/
theorem row_follows_run : ∃ s, s.shared.agentSessions.lookup sampleAgent = some .active ∧
    RowFollows s := by
  have hexec : (rowTasks.execUnder RowGuard init
      (boundRun ++ turns 0 4 ++ .install "s-2" secondTransport :: turns 0 1 ++ turns 10 1 ++
        turns 0 1 ++ .arrive "s-1" :: turns 10 2 ++ turns 14 3 ++
        .bindAgent "s-2" secondTransport "goose-1" :: turns 14 2 ++ turns 20 1)).any
      (fun s => decide (s.shared.agentSessions.lookup sampleAgent = some .active)) = true := by
    decide +kernel
  obtain ⟨s, hrun, hs⟩ := Machine.exists_run_of_execUnder _ hexec
  exact ⟨s, of_decide_eq_true hs, row_follows ⟨init, ⟨∅, rfl⟩, hrun⟩⟩

/-- The stream of the second session, task 6, is open, no bind is under way, and the
    row says grace. -/
private def graceBesideOpen (s : State) : Bool :=
  decide (s.shared.agentSessions.lookup sampleAgent = some .grace) &&
    decide (s.shared.identityOf "s-2" = some sampleAgent) && clear s (Pc.binds sampleAgent) &&
    (s.tasks.lookup 6).any fun t => t.pc.isOpen "s-2"

/-- The last stream of one session closes while another session of the agent has an
    open stream. -/
theorem grace_beside_open_stream : ¬ ∀ s, rowTasks.Reachable s → RowFollows s := by
  intro hclaim
  have hexec : (rowTasks.execUnder (fun _ _ => True) init
      (boundRun ++ .install "s-2" secondTransport :: turns 6 3 ++
        .bindAgent "s-2" secondTransport "goose-1" :: turns 10 1 ++ turns 0 6)).any
      graceBesideOpen = true := by
    decide +kernel
  obtain ⟨s, hrun, hs⟩ := Machine.exists_run_of_execUnder _ hexec
  simp only [graceBesideOpen, Bool.and_eq_true, decide_eq_true_eq] at hs
  obtain ⟨⟨⟨hgrace, hid⟩, hclear⟩, hopen⟩ := hs
  obtain ⟨t, ht, hpc⟩ := (Option.any_eq_true _ _).mp hopen
  have hactive := (hclaim s ⟨init, ⟨∅, rfl⟩, hrun⟩).active "s-2" sampleAgent
    ⟨hid, clear_iff.mp hclear⟩ ⟨6, t, ht, hpc⟩
  rw [hgrace] at hactive
  cases hactive

end Botwork.SessionBroker.Liveness
