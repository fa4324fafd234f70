import Botwork.SessionBroker.Entries

/-!
# Reaping never hits an open stream

A grace timer removes the map entry of its session and only then tears the
session down; a bump that comes in between finds no entry, makes a new one, and
stops nothing.  While no bump falls between the expiry of a timer and the removal
of the transport entry, and no entry gets a second timer beside one that still
sleeps, a session that is torn down by its timer has no open stream.

## Main definitions

- `Pc.opens`, `Pc.isOpen`, `Pc.reaps`, `Pc.tearsDown`
- `ReapGuard` — the condition on a step
- `ReapSafe` — no timer tears down a session with an open stream

## Main results

- `reaping_safe` — reaping is safe under the condition
- `reap_hits_open_stream` — and not without it
-/

namespace Botwork.SessionBroker.Liveness

open Botwork.Foundations

/-- From the lookup of the entry in a bump to the decrement in the drop. -/
def Pc.opens (id : String) : Pc → Bool
  | .bumpCount id' _ | .bumpTake id' _ | .bumpIdentify id' _ | .bumpRecord id' _ _
  | .streaming id' _ | .dropEntry id' _ | .dropCount id' _ => id' = id
  | _ => false

/-- A stream whose bump has returned, and that has not been dropped yet. -/
def Pc.isOpen (id : String) : Pc → Bool
  | .streaming id' _ | .dropEntry id' _ | .dropCount id' _ => id' = id
  | _ => false

/-- Between the lookup of the entry and the take of its handle. -/
def Pc.bumping (id : String) : Pc → Bool
  | .bumpCount id' _ | .bumpTake id' _ => id' = id
  | _ => false

def Pc.sleepsFor (id : String) : Pc → Bool
  | .sleeping id' _ => id' = id
  | _ => false

/-- The path still has to remove the transport entry of the session. -/
def Path.removes (p : Path) (id : String) : Bool :=
  (p.job.mcpSessionId = id && p.ops.contains .removeEntry) || p.rest.any (·.mcpSessionId = id)

/-- A timer that is tearing the session down. -/
def Pc.tearsDown (id : String) : Pc → Bool
  | .path p => p.reaper && p.removes id
  | _ => false

/-- A timer past its sleep that has not removed the transport entry yet. -/
def Pc.reaps (id : String) : Pc → Bool
  | .expired id' | .reaping id' => id' = id
  | .path p => p.reaper && p.removes id
  | _ => false

/-- **Reaping is safe**: a session that a timer tears down has no open stream. -/
def ReapSafe (s : State) : Prop :=
  ∀ id k t j u, s.tasks.lookup k = some t → t.pc.tearsDown id = true →
    s.tasks.lookup j = some u → u.pc.isOpen id = false

-- ════════════════════════════════════════════════════════════════════════
-- The condition
-- ════════════════════════════════════════════════════════════════════════

/-- The conditions on a turn, by where the task stands. -/
def ReapTurn (s : State) : Pc → Prop
  -- no timer of the session is between its expiry and the removal, and none
  -- sleeps when the bump makes an entry
  | .bumpEntry id => (s.tasks.all fun _ t => !t.pc.reaps id) = true ∧
      (s.shared.streamLiveness.lookup id = none → (s.tasks.all fun _ t => !t.pc.sleepsFor id) = true)
  -- no stream of the session is about to take the handle
  | .sleeping id _ => (s.tasks.all fun _ t => !t.pc.bumping id) = true
  -- the entry has no handle of a timer that still sleeps
  | .arm _ e => (s.shared.entries e).openStreams = 0 →
      ((s.shared.entries e).graceHandle.all fun j =>
        (s.tasks.lookup j).all fun t => !t.pc.sleeps) = true
  | _ => True

instance (s : State) (pc : Pc) : Decidable (ReapTurn s pc) := by
  induction pc using Pc.casesOn <;> (dsimp only [ReapTurn]; infer_instance)

/-- The condition `P` on the turn of a task, as a condition on a step. -/
def OnTurn (P : State → Pc → Prop) (s : State) : Action → Prop
  | .run k => ∀ t ∈ s.tasks.lookup k, P s t.pc
  | _ => True

instance (P : State → Pc → Prop) [∀ s pc, Decidable (P s pc)] (s : State) (a : Action) :
    Decidable (OnTurn P s a) := by
  induction a using Action.casesOn <;> (dsimp only [OnTurn]; infer_instance)

def ReapGuard (s : State) (a : Action) : Prop := FreshGuard s a ∧ OnTurn ReapTurn s a

instance (s : State) (a : Action) : Decidable (ReapGuard s a) :=
  inferInstanceAs (Decidable (FreshGuard s a ∧ OnTurn ReapTurn s a))

-- ════════════════════════════════════════════════════════════════════════
-- Turns
-- ════════════════════════════════════════════════════════════════════════

variable {m : Shared} {n : Nat} {pc pc' : Pc}

theorem turn_next_awake (h : (turn m n pc).next = some pc') : pc'.sleeps = false := by
  revert h
  fun_cases turn m n pc <;> intro h
  case case22 =>
    obtain ⟨q, rfl, -⟩ := Path.turn_next_eq_some h
    rfl
  case case23 =>
    obtain ⟨q, rfl, -⟩ := Path.continue_eq_some h
    rfl
  case case12 =>
    simp only at h
    split at h <;> cases h
    rfl
  all_goals cases h
  all_goals rfl

theorem turn_opens {id : String} (h : (turn m n pc).next = some pc') (hopens : pc'.opens id = true) :
    pc.opens id = true ∨ pc = .bumpEntry id := by
  revert h
  fun_cases turn m n pc <;> intro h
  case case1 =>
    cases h
    exact Or.inr (by rw [of_decide_eq_true hopens])
  case case22 =>
    obtain ⟨q, rfl, -⟩ := Path.turn_next_eq_some h
    cases hopens
  case case23 =>
    obtain ⟨q, rfl, -⟩ := Path.continue_eq_some h
    cases hopens
  case case12 =>
    simp only at h
    split at h <;> cases h
    cases hopens
  all_goals cases h
  all_goals exact Or.inl hopens

/-- What a path that goes on still has to remove, it had to remove before. -/
theorem Path.removes_of_continue {p q : Path} {ops : List PathOp} {id : String}
    (h : p.continue ops = some (.path q)) (hremoves : q.removes id = true) :
    (p.job.mcpSessionId = id ∧ ops.contains .removeEntry = true) ∨
      p.rest.any (·.mcpSessionId = id) = true := by
  revert h
  fun_cases Path.continue p ops with
  | case1 => intro h; cases h
  | case2 job rest hr =>
    intro h
    cases h
    simp only [Path.removes, Bool.or_eq_true, Bool.and_eq_true, decide_eq_true_eq, hr,
      List.any_cons] at hremoves ⊢
    rcases hremoves with ⟨hid, -⟩ | hlater
    · exact Or.inr (Or.inl hid)
    · exact Or.inr (Or.inr hlater)
  | case3 =>
    intro h
    cases h
    simp only [Path.removes, Bool.or_eq_true, Bool.and_eq_true, decide_eq_true_eq] at hremoves
    exact hremoves

theorem Path.removes_of_turn {p q : Path} {op : PathOp} {ops : List PathOp} {id : String}
    (hops : p.ops = op :: ops) (h : (p.turn m ops op).next = some (.path q))
    (hremoves : q.removes id = true) : p.removes id = true := by
  obtain ⟨r, hnext, -, hjob, hrest, -⟩ := p.turn_next m ops op
  rw [hnext] at h
  have hahead := Path.removes_of_continue h hremoves
  rw [hjob, hrest] at hahead
  simp only [Path.removes, Bool.or_eq_true, Bool.and_eq_true, decide_eq_true_eq, hops,
    List.contains_cons]
  rcases hahead with ⟨hid, hmem⟩ | hlater
  · exact Or.inl ⟨hid, Or.inr hmem⟩
  · exact Or.inr hlater

theorem turn_reaps {id : String} (h : (turn m n pc).next = some pc') (hreaps : pc'.reaps id = true) :
    pc.reaps id = true ∨ ∃ e, pc = .sleeping id e := by
  revert h
  fun_cases turn m n pc <;> intro h
  case case18 =>
    cases h
    exact Or.inr ⟨_, by rw [of_decide_eq_true hreaps]⟩
  case case20 id' t ht =>
    cases h
    simp only [Pc.reaps, Path.removes, Bool.true_and, Bool.or_eq_true, Bool.and_eq_true,
      decide_eq_true_eq, List.any_nil, Bool.false_eq_true, or_false] at hreaps
    exact Or.inl (decide_eq_true hreaps.1)
  case case22 p op ops hops =>
    obtain ⟨q, rfl, hreaper⟩ := Path.turn_next_eq_some h
    simp only [Pc.reaps, Bool.and_eq_true] at hreaps ⊢
    exact Or.inl ⟨hreaper ▸ hreaps.1, Path.removes_of_turn hops h hreaps.2⟩
  case case23 p hnil =>
    obtain ⟨q, rfl, hreaper, -⟩ := Path.continue_eq_some h
    simp only [Pc.reaps, Bool.and_eq_true] at hreaps ⊢
    refine Or.inl ⟨hreaper ▸ hreaps.1, ?_⟩
    rcases Path.removes_of_continue h hreaps.2 with ⟨-, hmem⟩ | hlater
    · cases hmem
    · rw [Path.removes, hlater, Bool.or_true]
  case case12 =>
    simp only at h
    split at h <;> cases h
    cases hreaps
  all_goals cases h
  all_goals exact Or.inl hreaps

theorem turn_spawned_reaps (id : String) (h : (turn m n pc).spawned = some pc') :
    pc'.reaps id = false ∧ pc'.opens id = false := by
  rcases turn_spawned h with ⟨id', e, -, -, rfl⟩ | ⟨q, rfl, hreaper, -⟩
  · exact ⟨rfl, rfl⟩
  · exact ⟨by simp [Pc.reaps, hreaper], rfl⟩

theorem Pc.uses_of_opens {id : String} (h : pc.opens id = true) : ∃ e, pc.uses = some (id, e) := by
  cases pc <;> first
    | exact ⟨_, by rw [← of_decide_eq_true h]; rfl⟩
    | cases h

theorem Pc.opens_of_isInitial {id : String} (h : pc.isInitial = true) : pc.opens id = false := by
  cases pc <;> first | rfl | cases h

theorem Pc.reaps_of_isInitial {id : String} (h : pc.isInitial = true) : pc.reaps id = false := by
  cases pc <;> first | rfl | cases h | skip
  have hreaper : _ = false := Pc.isTimer_of_isInitial h
  simp only [Pc.isTimer] at hreaper
  simp [Pc.reaps, hreaper]

theorem Pc.sleeps_of_isInitial (h : pc.isInitial = true) : pc.sleeps = false := by
  cases pc <;> first | rfl | cases h

/-- A stream that is not counted yet is at its increment. -/
theorem Pc.countedOn_or_bumping {id : String} {e : Nat} (hopens : pc.opens id = true)
    (huses : pc.uses = some (id, e)) : pc.countedOn e = true ∨ pc.bumping id = true := by
  cases pc <;> first
    | cases hopens
    | exact Or.inr hopens
    | (cases huses; exact Or.inl (decide_eq_true rfl))

-- ════════════════════════════════════════════════════════════════════════
-- The invariant
-- ════════════════════════════════════════════════════════════════════════

variable {s s' : State} {a : Action}

structure ReapInv (s : State) : Prop where
  entries : EntriesInv s
  /-- a timer that sleeps is in the handle of the one entry of its session -/
  sleeper : ∀ k t id e, s.tasks.lookup k = some t → t.pc = .sleeping id e →
    (∀ e', Uses s id e' → e' = e) ∧ (s.shared.entries e).graceHandle = some k ∧
      e < s.shared.nextEntry
  /-- beside such a timer, a stream has yet to take the handle -/
  bumping : ∀ k t id e j u, s.tasks.lookup k = some t → t.pc = .sleeping id e →
    s.tasks.lookup j = some u → u.pc.opens id = true → u.pc.bumping id = true
  /-- beside a timer past its sleep there is no stream -/
  reaping : ∀ k t id j u, s.tasks.lookup k = some t → t.pc.reaps id = true →
    s.tasks.lookup j = some u → u.pc.opens id = false

theorem ReapGuard.turn {k : Nat} {t : TaskState Pc} (h : ReapGuard s (.run k))
    (hk : s.tasks.lookup k = some t) : ReapTurn s t.pc := h.2 t hk

/-- A timer that sleeps was asleep before, or has just been set. -/
theorem sleeping_step (h : next s a = some s') {k : Nat} {t : TaskState Pc} {id : String} {e : Nat}
    (hk : s'.tasks.lookup k = some t) (hpc : t.pc = .sleeping id e) :
    (∃ v, s.tasks.lookup k = some v ∧ v.pc = .sleeping id e ∧ a ≠ .run k ∧
        ∀ j u, a = .run j → s.tasks.lookup j = some u →
          (turn s.shared s.nextTask u.pc).abort ≠ some k) ∨
      (k = s.nextTask ∧ ((∃ tr, a = .recover id tr ∧ e = s.shared.nextEntry) ∨
        ∃ j u, a = .run j ∧ s.tasks.lookup j = some u ∧ u.pc = .arm id e ∧
          (s.shared.entries e).openStreams = 0)) := by
  obtain ⟨habort, ⟨v, hv, hvpc, hrun⟩ | ⟨v, -, -, hnext⟩ | ⟨rfl, hnew⟩⟩ := task_step h hk
  · refine Or.inl ⟨v, hv, hvpc.trans hpc, hrun, fun j u ha hu heq => ?_⟩
    have hawake := habort j u ha hu heq
    rw [hpc] at hawake
    cases hawake
  · have hawake := turn_next_awake hnext
    rw [hpc] at hawake
    cases hawake
  · refine Or.inr ⟨rfl, ?_⟩
    rcases hnew with hinit | ⟨id', tr, rfl, hpc'⟩ | ⟨j, u, rfl, hu, hsp⟩
    · have hawake := Pc.sleeps_of_isInitial hinit
      rw [hpc] at hawake
      cases hawake
    · rw [hpc] at hpc'
      cases hpc'
      exact Or.inl ⟨tr, rfl, rfl⟩
    · rcases turn_spawned hsp with ⟨id', e', hu', hzero, hpc'⟩ | ⟨q, hpc', -⟩
      · rw [hpc] at hpc'
        cases hpc'
        exact Or.inr ⟨j, u, rfl, hu, hu', hzero⟩
      · rw [hpc] at hpc'
        cases hpc'

/-- A stream in the open part of its life was there, or has just found its entry. -/
theorem opens_step (h : next s a = some s') {j : Nat} {u : TaskState Pc} {id : String}
    (hj : s'.tasks.lookup j = some u) (hopens : u.pc.opens id = true) :
    (∃ v, s.tasks.lookup j = some v ∧ v.pc.opens id = true ∧ (a ≠ .run j → v.pc = u.pc) ∧
        (a = .run j → (turn s.shared s.nextTask v.pc).next = some u.pc)) ∨
      ∃ v, a = .run j ∧ s.tasks.lookup j = some v ∧ v.pc = .bumpEntry id ∧
        u.pc.bumping id = true := by
  obtain ⟨-, ⟨v, hv, hpc, hrun⟩ | ⟨v, rfl, hv, hnext⟩ | ⟨rfl, hnew⟩⟩ := task_step h hj
  · exact Or.inl ⟨v, hv, hpc ▸ hopens, fun _ => hpc, fun heq => absurd heq hrun⟩
  · rcases turn_opens hnext hopens with hold | hbump
    · exact Or.inl ⟨v, hv, hold, fun hne => absurd rfl hne, fun _ => hnext⟩
    · refine Or.inr ⟨v, rfl, hv, hbump, ?_⟩
      rw [hbump] at hnext
      have heq : Pc.bumpCount id (s.shared.orInsert id).2 = u.pc := Option.some.inj hnext
      rw [← heq]
      exact decide_eq_true rfl
  · rcases hnew with hinit | ⟨id', tr, -, hpc⟩ | ⟨k, t, -, -, hsp⟩
    · rw [Pc.opens_of_isInitial hinit] at hopens
      cases hopens
    · rw [hpc] at hopens
      cases hopens
    · rw [(turn_spawned_reaps id hsp).2] at hopens
      cases hopens

theorem reaping_step (inv : ReapInv s) (hguard : ReapGuard s a) (h : next s a = some s')
    {k : Nat} {t : TaskState Pc} {id : String} {j : Nat} {u : TaskState Pc}
    (hk : s'.tasks.lookup k = some t) (hreaps : t.pc.reaps id = true)
    (hj : s'.tasks.lookup j = some u) : u.pc.opens id = false := by
  by_contra hopens
  rw [Bool.not_eq_false] at hopens
  have hreaper : (∃ v, s.tasks.lookup k = some v ∧ v.pc.reaps id = true) ∨
      ∃ v e, a = .run k ∧ s.tasks.lookup k = some v ∧ v.pc = .sleeping id e := by
    obtain ⟨-, ⟨v, hv, hpc, -⟩ | ⟨v, rfl, hv, hnext⟩ | ⟨-, hnew⟩⟩ := task_step h hk
    · exact Or.inl ⟨v, hv, hpc ▸ hreaps⟩
    · rcases turn_reaps hnext hreaps with hold | ⟨e, hsleep⟩
      · exact Or.inl ⟨v, hv, hold⟩
      · exact Or.inr ⟨v, e, rfl, hv, hsleep⟩
    · rcases hnew with hinit | ⟨id', tr, -, hpc⟩ | ⟨k', t', -, -, hsp⟩
      · rw [Pc.reaps_of_isInitial hinit] at hreaps
        cases hreaps
      · rw [hpc] at hreaps
        cases hreaps
      · rw [(turn_spawned_reaps id hsp).1] at hreaps
        cases hreaps
  rcases hreaper with ⟨v, hv, hvreaps⟩ | ⟨v, e, rfl, hv, hsleep⟩
  · rcases opens_step h hj hopens with ⟨w, hw, hwopens, -⟩ | ⟨w, rfl, hw, hbump, -⟩
    · rw [inv.reaping k v id j w hv hvreaps hw] at hwopens
      cases hwopens
    · -- a bump does not begin beside the timer
      have hturn := hguard.turn hw
      rw [hbump] at hturn
      have hnone := (FiniteMap.all_eq_true_iff _ _).mp hturn.1 k v hv
      simp [hvreaps] at hnone
  · -- the timer expires: no stream is about to take its handle
    have hturn := hguard.turn hv
    rw [hsleep] at hturn
    rcases opens_step h hj hopens with ⟨w, hw, hwopens, -⟩ | ⟨w, hrun, hw, hbump, -⟩
    · have hbumping := inv.bumping k v id e j w hv hsleep hw hwopens
      have hnone := (FiniteMap.all_eq_true_iff _ _).mp hturn j w hw
      simp [hbumping] at hnone
    · cases hrun
      rw [hv] at hw
      cases hw
      rw [hsleep] at hbump
      cases hbump

/-- While a timer sleeps, its session gets no other entry. -/
theorem not_enters (hguard : ReapGuard s a) (h : next s a = some s') {k : Nat}
    {t : TaskState Pc} {id : String} {e : Nat} (hk : s.tasks.lookup k = some t)
    (hpc : t.pc = .sleeping id e) (hnone : ∀ e', ¬ Uses s id e') : ¬ Enters s a id := by
  rintro (⟨tr, rfl⟩ | ⟨j, u, rfl, hu, hbump⟩)
  · obtain ⟨-, -, hfree, -⟩ := next_recover h
    exact hfree k t hk (by rw [hpc]; rfl)
  · have hturn := hguard.turn hu
    rw [hbump] at hturn
    have hmap : s.shared.streamLiveness.lookup id = none := by
      cases hlook : s.shared.streamLiveness.lookup id with
      | none => rfl
      | some e' => exact absurd (Or.inl hlook) (hnone e')
    have hall := (FiniteMap.all_eq_true_iff _ _).mp (hturn.2 hmap) k t hk
    simp [hpc, Pc.sleepsFor] at hall

theorem sleeper_step (inv : ReapInv s) (hguard : ReapGuard s a) (h : next s a = some s') {k : Nat}
    {t : TaskState Pc} {id : String} {e : Nat} (hk : s'.tasks.lookup k = some t)
    (hpc : t.pc = .sleeping id e) :
    (∀ e', Uses s' id e' → e' = e) ∧ (s'.shared.entries e).graceHandle = some k ∧
      e < s'.shared.nextEntry := by
  rcases sleeping_step h hk hpc with ⟨v, hv, hvpc, hrun, habort⟩ | ⟨rfl, ⟨tr, rfl, rfl⟩ |
    ⟨j, u, rfl, hu, hupc, hzero⟩⟩
  · obtain ⟨huses, hhandle, hbelow⟩ := inv.sleeper k v id e hv hvpc
    refine ⟨fun e' huses' => ?_, ?_, Nat.lt_of_lt_of_le hbelow (nextEntry_le h)⟩
    · rcases uses_step hguard.1 h huses' with hold | ⟨-, -, henters, hnone⟩
      · exact huses e' hold
      · exact absurd henters (not_enters hguard h hv hvpc hnone)
    · rcases next_cases h with ⟨rfl, -⟩ | ⟨m, pc, rfl, hbegins⟩ | ⟨id', tr, -, -, -, -, rfl⟩ |
        ⟨j, u, rfl, hu, rfl⟩ | ⟨j, u, -, -, -, rfl⟩
      · exact hhandle
      · exact hbegins.entries ▸ hhandle
      · simpa [recovered, Pool.start, Function.update_of_ne (Nat.ne_of_lt hbelow)] using hhandle
      · show ((turn s.shared s.nextTask u.pc).shared.entries e).graceHandle = some k
        rcases turn_handle s.shared s.nextTask u.pc e with hsame | ⟨-, htaken, -⟩ |
          ⟨-, -, id', hupc, hsp⟩ | ⟨-, id', -, -, hnew⟩
        · exact hsame.trans hhandle
        · exact absurd (htaken.trans hhandle) (habort j u rfl hu)
        · -- a second timer on the entry is only set when the first one is over
          have hturn := hguard.turn hu
          rcases turn_spawned hsp with ⟨id'', e'', hupc', hzero, -⟩ | ⟨q, hq, -⟩
          · rw [hupc] at hupc' hturn
            cases hupc'
            have hover := hturn hzero
            simp [hhandle, hv, hvpc, Pc.sleeps] at hover
          · cases hq
        · exact absurd hnew (Nat.ne_of_lt hbelow)
      · exact hhandle
  · -- a recovered session
    obtain ⟨-, hmap, hfree, rfl⟩ := next_recover h
    refine ⟨fun e' huses' => ?_, by simp [recovered, Pool.start], Nat.lt_succ_self _⟩
    rcases uses_step hguard.1 h huses' with (hold | ⟨j, u, hu, huses⟩) | ⟨rfl, -⟩
    · rw [hmap] at hold
      cases hold
    · exact absurd (Pc.session_of_uses huses) (hfree j u hu)
    · rfl
  · -- a timer that has just been set
    have hself : Uses s id e := Or.inr ⟨j, u, hu, by rw [hupc]; rfl⟩
    refine ⟨fun e' huses' => ?_, ?_, Nat.lt_of_lt_of_le (inv.entries.below id e hself)
      (nextEntry_le h)⟩
    · rcases uses_step hguard.1 h huses' with hold | ⟨-, -, -, hnone⟩
      · exact (inv.entries.one id id e' e hold hself).mp rfl
      · exact absurd hself (hnone e)
    · rcases next_cases h with ⟨-, hlabel⟩ | ⟨m, pc, -, hbegins⟩ | ⟨id', tr, heq, -⟩ |
        ⟨j', u', heq, hu', rfl⟩ | ⟨j', u', heq, -⟩
      · exact absurd rfl (hlabel j)
      · exact absurd rfl (hbegins.label j)
      · cases heq
      · cases heq
        rw [hu] at hu'
        cases hu'
        show ((turn s.shared s.nextTask u.pc).shared.entries e).graceHandle = _
        simp [hupc, turn, hzero, Shared.setEntry]
      · cases heq

theorem bumping_step (inv : ReapInv s) (hguard : ReapGuard s a) (h : next s a = some s') {k : Nat}
    {t : TaskState Pc} {id : String} {e j : Nat} {u : TaskState Pc}
    (hk : s'.tasks.lookup k = some t) (hpc : t.pc = .sleeping id e)
    (hj : s'.tasks.lookup j = some u) (hopens : u.pc.opens id = true) :
    u.pc.bumping id = true := by
  rcases opens_step h hj hopens with ⟨v, hv, hvopens, hstay, hmove⟩ | ⟨v, -, -, -, hbumping⟩
  swap
  · exact hbumping
  obtain ⟨e', hvuses⟩ := Pc.uses_of_opens hvopens
  rcases sleeping_step h hk hpc with ⟨w, hw, hwpc, -, habort⟩ | ⟨rfl, ⟨tr, rfl, rfl⟩ |
    ⟨i, w, rfl, hw, hwpc, hzero⟩⟩
  · have hbumping := inv.bumping k w id e j v hw hwpc hv hvopens
    by_cases hrun : a = .run j
    · -- a stream that takes the handle aborts the timer
      have hnext := hmove hrun
      obtain ⟨huses, hhandle, -⟩ := inv.sleeper k w id e hw hwpc
      have he : e' = e := huses e' (Or.inr ⟨j, v, hv, hvuses⟩)
      subst he
      cases hvpc : v.pc with
      | bumpCount id' e'' =>
        rw [hvpc] at hnext hbumping
        have heq : Pc.bumpTake id' e'' = u.pc := Option.some.inj hnext
        rw [← heq]
        exact hbumping
      | bumpTake id' e'' =>
        rw [hvpc] at hvuses
        cases hvuses
        refine absurd ?_ (habort j v hrun hv)
        simp [hvpc, turn, hhandle]
      | _ =>
        rw [hvpc] at hbumping
        cases hbumping
    · exact hstay hrun ▸ hbumping
  · obtain ⟨-, -, hfree, -⟩ := next_recover h
    exact absurd (Pc.session_of_uses hvuses) (hfree j v hv)
  · -- the timer is set at zero: no stream is counted
    by_cases hrun : (Action.run i) = .run j
    · cases hrun
      rw [hw] at hv
      cases hv
      rw [hwpc] at hvopens
      cases hvopens
    · rw [← hstay hrun]
      rcases Pc.countedOn_or_bumping hvopens hvuses with hcounted | hbumping
      · have he : e' = e := (inv.entries.one id id e' e (Or.inr ⟨j, v, hv, hvuses⟩)
          (Or.inr ⟨i, w, hw, by rw [hwpc]; rfl⟩)).mp rfl
        subst he
        have hpos : 0 < s.count (Pc.countedOn e') := Pool.count_pos.mpr ⟨j, v, hv, hcounted⟩
        have hle := inv.entries.counted e'
        omega
      · exact hbumping

theorem reapInv_init : ReapInv init where
  entries := entriesInv_init
  sleeper := by intro k t id e hk; cases hk
  bumping := by intro k t id e j u hk; cases hk
  reaping := by intro k t id j u hk; cases hk

theorem reapInv_step (inv : ReapInv s) (hguard : ReapGuard s a) (h : next s a = some s') :
    ReapInv s' where
  entries := entriesInv_step inv.entries hguard.1 h
  sleeper := fun _ _ _ _ hk hpc => sleeper_step inv hguard h hk hpc
  bumping := fun _ _ _ _ _ _ hk hpc hj => bumping_step inv hguard h hk hpc hj
  reaping := fun _ _ _ _ _ hk hreaps hj => reaping_step inv hguard h hk hreaps hj

/-- **Reaping is safe** in every run whose steps meet the condition. -/
theorem reaping_safe (hreach : tasks.ReachableUnder ReapGuard s) : ReapSafe s := by
  have inv : ReapInv s := hreach.invariant (fun _ hstart => hstart ▸ reapInv_init)
    fun _ _ _ inv hguard hnext => reapInv_step inv hguard hnext
  intro id k t j u hk htears hj
  have hreaps : t.pc.reaps id = true := by
    cases hpc : t.pc <;> rw [hpc] at htears <;> first | exact htears | cases htears
  have hclosed := inv.reaping k t id j u hk hreaps hj
  cases hopen : u.pc.isOpen id with
  | false => rfl
  | true =>
    have hopens : u.pc.opens id = true := by
      cases hpc : u.pc <;> rw [hpc] at hopen <;> first | exact hopen | cases hopen
    rw [hopens] at hclosed
    cases hclosed

-- ════════════════════════════════════════════════════════════════════════
-- Runs
-- ════════════════════════════════════════════════════════════════════════

/-- Task `k` tears the session down, and no task is a stream of it. -/
private def reapsAlone (k : Nat) (s : State) : Bool :=
  (s.tasks.lookup k).any (·.pc.tearsDown "s-1") && s.tasks.all fun _ t => !t.pc.isOpen "s-1"

/-- A second stream comes in time and stops the timer; when it has ended, its own
    timer, task 18, expires and tears the session down. -/
theorem reaping_safe_run : ∃ s, reapsAlone 18 s = true ∧ ReapSafe s := by
  have hexec : (tasks.execUnder ReapGuard init
      (idleRun ++ .arrive "s-1" :: turns 9 9 ++ turns 18 5)).any (reapsAlone 18) = true := by
    decide +kernel
  obtain ⟨s, hrun, hs⟩ := Machine.exists_run_of_execUnder _ hexec
  exact ⟨s, hs, reaping_safe ⟨init, rfl, hrun⟩⟩

/-- Task 8 tears the session down, and task 11 is a stream of it. -/
private def reapsOpen (s : State) : Bool :=
  (s.tasks.lookup 8).any (·.pc.tearsDown "s-1") && (s.tasks.lookup 11).any (·.pc.isOpen "s-1")

/-- A stream that bumps after the timer has removed the map entry does not stop it. -/
theorem reap_hits_open_stream : ¬ ∀ s, tasks.Reachable s → ReapSafe s := by
  intro hclaim
  have hexec : (tasks.execUnder (fun _ _ => True) init
      (idleRun ++ turns 8 2 ++ .arrive "s-1" :: turns 11 3 ++ turns 8 1)).any reapsOpen = true := by
    decide +kernel
  obtain ⟨s, hrun, hs⟩ := Machine.exists_run_of_execUnder _ hexec
  rw [reapsOpen, Bool.and_eq_true] at hs
  obtain ⟨t, ht, htears⟩ := (Option.any_eq_true _ _).mp hs.1
  obtain ⟨u, hu, hopen⟩ := (Option.any_eq_true _ _).mp hs.2
  have hclosed := hclaim s ⟨init, rfl, hrun⟩ "s-1" 8 t 11 u ht htears hu
  rw [hopen] at hclosed
  cases hclosed

end Botwork.SessionBroker.Liveness
