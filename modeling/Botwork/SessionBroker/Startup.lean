import Botwork.SessionBroker.Liveness
import Botwork.SessionBroker.Recovery

/-!
# Startup

The recovery is followed by a round over the rebuilt table that arms a grace
timer for every session, so that a client that does not come back is reaped.  A
running container whose row cannot be rehydrated gets no entry: it is skipped,
with a warning, and nothing of the new broker will reap it.

## Main definitions

- `seedStartupLiveness` — an entry and a grace timer for every session
- `startup` — what a restart leaves in docker, in the rows and in the broker
- `Recoverable` — the four lookups between a row and its entry succeed

## Main results

- `armed_seedStartupLiveness` — every session has a timer that sleeps
- `restart_accounts` — what becomes of every running container and of every row
- `restart_leaks_uninitialised` — a container without a session id is left alone
-/

namespace Botwork.SessionBroker.Liveness

open Botwork.Foundations

/-! ### The timers -/

/-- `schedule_grace_timer`, as a whole. -/
def scheduleGraceTimer (s : State) (mcpSessionId : String) (e : Nat) : State :=
  if 0 < (s.shared.entries e).openStreams then s
  else
    Pool.start
      { s with shared :=
          s.shared.setEntry e { s.shared.entries e with graceHandle := some s.nextTask } }
      (.sleeping mcpSessionId e)

/-- One round of `seed_startup_liveness`. -/
def seedSession (s : State) (mcpSessionId : String) : State :=
  let e := s.shared.nextEntry
  scheduleGraceTimer
    { s with shared := { s.shared with
        streamLiveness := s.shared.streamLiveness.insert mcpSessionId e
        entries := Function.update s.shared.entries e ⟨0, none⟩
        nextEntry := e + 1 } }
    mcpSessionId e

def seedStartupLiveness (s : State) : State :=
  s.shared.transportSessions.keys.foldl seedSession s

/-- The session has a timer that sleeps, and its entry holds the handle. -/
def Armed (s : State) (mcpSessionId : String) : Prop :=
  ∃ e k, s.shared.streamLiveness.lookup mcpSessionId = some e ∧
    s.shared.entries e = ⟨0, some k⟩ ∧
    s.tasks.lookup k = some ⟨.sleeping mcpSessionId e, false⟩

/-- Entries and tasks have numbers that were given out. -/
structure Given (s : State) : Prop where
  entries : ∀ id e, s.shared.streamLiveness.lookup id = some e → e < s.shared.nextEntry
  tasks : s.Numbered

variable {s : State} {id id' : String}

/-- A round on a fresh entry always sets the timer. -/
theorem seedSession_eq (s : State) (id : String) :
    seedSession s id = Pool.start
      { s with shared := { s.shared with
          streamLiveness := s.shared.streamLiveness.insert id s.shared.nextEntry
          entries := Function.update s.shared.entries s.shared.nextEntry ⟨0, some s.nextTask⟩
          nextEntry := s.shared.nextEntry + 1 } }
      (.sleeping id s.shared.nextEntry) := by
  simp [seedSession, scheduleGraceTimer, Shared.setEntry, Function.update_idem]

@[simp] theorem transportSessions_seedSession (s : State) (id : String) :
    (seedSession s id).shared.transportSessions = s.shared.transportSessions := by
  rw [seedSession_eq]
  rfl

theorem Given.seedSession (h : Given s) (id : String) : Given (seedSession s id) := by
  rw [seedSession_eq]
  constructor
  · intro id' e he
    show e < s.shared.nextEntry + 1
    change (s.shared.streamLiveness.insert id s.shared.nextEntry).lookup id' = some e at he
    rw [FiniteMap.lookup_insert_ite] at he
    split at he
    next =>
      cases he
      exact Nat.lt_succ_self _
    next => exact Nat.lt_succ_of_lt (h.entries id' e he)
  · exact Pool.numbered_start (p := { s with shared := _ }) h.tasks _

theorem armed_seedSession (s : State) (id : String) : Armed (seedSession s id) id := by
  rw [seedSession_eq]
  refine ⟨s.shared.nextEntry, s.nextTask, AList.lookup_insert _, Function.update_self .., ?_⟩
  rw [Pool.lookup_start, if_pos rfl]

/-- A round leaves the timers of the other sessions alone. -/
theorem Armed.seedSession (h : Given s) (harmed : Armed s id') (id : String) :
    Armed (seedSession s id) id' := by
  by_cases hid : id' = id
  · subst hid
    exact armed_seedSession s id'
  · obtain ⟨e, k, he, hentry, htask⟩ := harmed
    rw [seedSession_eq]
    refine ⟨e, k, (AList.lookup_insert_ne hid).trans he, ?_, ?_⟩
    · have hne : e ≠ s.shared.nextEntry := Nat.ne_of_lt (h.entries id' e he)
      exact (Function.update_of_ne hne _ _).trans hentry
    · exact Pool.start_keeps (p := { s with shared := _ }) h.tasks htask _

theorem foldl_seedSession (ids : List String) :
    ∀ s : State, Given s →
      (ids.foldl seedSession s).shared.transportSessions = s.shared.transportSessions ∧
      ∀ id, id ∈ ids ∨ Armed s id → Armed (ids.foldl seedSession s) id := by
  induction ids with
  | nil => exact fun s _ => ⟨rfl, fun id h => h.resolve_left List.not_mem_nil⟩
  | cons first ids ih =>
    intro s h
    obtain ⟨hsame, harmed⟩ := ih (seedSession s first) (h.seedSession first)
    refine ⟨hsame.trans (transportSessions_seedSession s first), fun id hid => harmed id ?_⟩
    rcases hid with hmem | hbefore
    · rcases List.mem_cons.mp hmem with rfl | hrest
      · exact Or.inr (armed_seedSession s id)
      · exact Or.inl hrest
    · exact Or.inr (hbefore.seedSession h first)

theorem transportSessions_seedStartupLiveness (h : Given s) :
    (seedStartupLiveness s).shared.transportSessions = s.shared.transportSessions :=
  (foldl_seedSession _ s h).1

/-- **Every session of the table has a timer** when the seeding is done. -/
theorem armed_seedStartupLiveness (h : Given s) {t : TransportState}
    (hid : s.shared.transportSessions.lookup id = some t) : Armed (seedStartupLiveness s) id := by
  apply (foldl_seedSession _ s h).2 id
  left
  exact AList.lookup_isSome.mp (hid ▸ rfl)

/-! ### The restart -/

/-- The broker after the recovery, before it serves. -/
def recoveredState (src : Sources) : State :=
  { init with shared := { init.shared with
      transportSessions := (recoverLiveWorkers src ∅).transportSessions } }

theorem given_recoveredState (src : Sources) : Given (recoveredState src) where
  entries id e h := by
    change (∅ : FiniteMap String Nat).lookup id = some e at h
    rw [AList.lookup_empty] at h
    cases h
  tasks j u h := by
    change (∅ : FiniteMap Nat (TaskState Pc)).lookup j = some u at h
    rw [AList.lookup_empty] at h
    cases h

/-- What a restart leaves. -/
structure Startup where
  running : List String
  liveRows : List LiveWorker
  broker : State

/-- `recover_live_workers_with` and then `seed_startup_liveness`; `recordReap` tells
    of which containers the row can be written. -/
def startup (src : Sources) (recordReap : String → Bool) : Startup :=
  let found := recoverLiveWorkers src ∅
  { running := (src.running.getD []).filter fun c => c ∉ found.orphans
    liveRows := (src.liveRows.getD []).filter fun row =>
      !(row.containerName ∈ found.reaped && recordReap row.containerName)
    broker := seedStartupLiveness (recoveredState src) }

/-- The container is that of a session with a timer. -/
def Owned (b : State) (container : String) : Prop :=
  ∃ id t, b.shared.transportSessions.lookup id = some t ∧ t.containerName = container ∧ Armed b id

/-- Every container is removed or owned, every row without a container is reaped,
    and no container is owned twice. -/
structure LosesNoContainer (src : Sources) (recordReap : String → Bool) : Prop where
  owned : ∀ c ∈ src.running.getD [], c ∉ (startup src recordReap).running ∨
    Owned (startup src recordReap).broker c
  reaped : ∀ row ∈ (startup src recordReap).liveRows, row.containerName ∈ src.running.getD []
  apart : ∀ id id' t t',
    (startup src recordReap).broker.shared.transportSessions.lookup id = some t →
    (startup src recordReap).broker.shared.transportSessions.lookup id' = some t' →
    t.containerName = t'.containerName → id = id'

/-- Every lookup that stands between the row of a container and its entry succeeds. -/
def Recoverable (src : Sources) (row : LiveWorker) (container : String) : Prop :=
  ∃ pluginName inspect descriptor, src.resolvePluginName row.pluginId = some pluginName ∧
    src.inspector container = some inspect ∧ row.mcpSessionId ≠ "" ∧
    src.resolver inspect.tenant inspect.workspace pluginName = .ok descriptor

/-- No other running container has a row with the session id of this row. -/
def Sole (src : Sources) (row : LiveWorker) : Prop :=
  ∀ c ∈ src.running.getD [], ∀ row', (rowByName (src.liveRows.getD [])).lookup c = some row' →
    row'.mcpSessionId = row.mcpSessionId → c = row.containerName

/-- What becomes of every running container and of every row. -/
structure RestartAccounted (src : Sources) (recordReap : String → Bool) : Prop where
  /-- a container is removed exactly when it has no row -/
  removed : ∀ c ∈ src.running.getD [], c ∉ (startup src recordReap).running ↔
    ∀ row ∈ src.liveRows.getD [], row.containerName ≠ c
  /-- one with a row of its own session id is owned exactly when the lookups succeed -/
  owned : ∀ c ∈ src.running.getD [], ∀ row,
    (rowByName (src.liveRows.getD [])).lookup c = some row → Sole src row →
      (Owned (startup src recordReap).broker c ↔ Recoverable src row c)
  /-- a row stays live when its container runs, or when it cannot be written -/
  reaped : ∀ row ∈ src.liveRows.getD [], row ∈ (startup src recordReap).liveRows ↔
    row.containerName ∈ src.running.getD [] ∨ recordReap row.containerName = false
  /-- an entry has a timer, and is of a running container whose row has its id -/
  entries : ∀ id t, (startup src recordReap).broker.shared.transportSessions.lookup id = some t →
    Armed (startup src recordReap).broker id ∧ t.containerName ∈ src.running.getD [] ∧
      ∃ row, (rowByName (src.liveRows.getD [])).lookup t.containerName = some row ∧
        row.mcpSessionId = id
  apart : ∀ id id' t t',
    (startup src recordReap).broker.shared.transportSessions.lookup id = some t →
    (startup src recordReap).broker.shared.transportSessions.lookup id' = some t' →
    t.containerName = t'.containerName → id = id'

/-! ### The rows -/

theorem containerName_of_rowByName {rows : List LiveWorker} {c : String} {row : LiveWorker}
    (h : (rowByName rows).lookup c = some row) : row ∈ rows ∧ row.containerName = c := by
  obtain ⟨row', hmem, heq⟩ := List.mem_map.mp (FiniteMap.mem_of_lookup_insertAll h)
  cases heq
  exact ⟨hmem, rfl⟩

theorem rowByName_eq_none {rows : List LiveWorker} {c : String} :
    (rowByName rows).lookup c = none ↔ ∀ row ∈ rows, row.containerName ≠ c := by
  constructor
  · rintro h row hrow rfl
    obtain ⟨w, -, hw⟩ := FiniteMap.exists_lookup_insertAll (m := ∅)
      (List.mem_map_of_mem (f := fun row : LiveWorker => (row.containerName, row)) hrow)
    rw [← rowByName, h] at hw
    cases hw
  · intro h
    cases hrow : (rowByName rows).lookup c with
    | none => rfl
    | some row =>
      obtain ⟨hmem, hname⟩ := containerName_of_rowByName hrow
      exact absurd hname (h row hmem)

variable {src : Sources} {running : List String} {rows : List LiveWorker} {c : String}
  {t t' : TransportState}

/-- The lookups succeed exactly when the container is rehydrated, under its row's id. -/
theorem exists_rehydrate_iff {row : LiveWorker} (hrow : (rowByName rows).lookup c = some row) :
    (∃ t, rehydrate src (rowByName rows) c = some (row.mcpSessionId, t)) ↔
      Recoverable src row c := by
  constructor
  · rintro ⟨t, h⟩
    simp only [rehydrate, Option.bind_eq_bind, Option.bind_eq_some_iff] at h
    obtain ⟨row', hrow', pluginName, hname, inspect, hinspect, h⟩ := h
    cases hrow.symm.trans hrow'
    split at h
    next => cases h
    next hid =>
      obtain ⟨descriptor, hresolve, -⟩ := Option.bind_eq_some_iff.mp h
      refine ⟨pluginName, inspect, descriptor, hname, hinspect, hid, ?_⟩
      cases hanswer : src.resolver inspect.tenant inspect.workspace pluginName with
      | error e => simp [hanswer, Except.toOption] at hresolve
      | ok answer =>
        rw [hanswer] at hresolve
        cases hresolve
        rfl
  · rintro ⟨pluginName, inspect, descriptor, hname, hinspect, hid, hresolve⟩
    simp [rehydrate, hrow, hname, hinspect, hid, hresolve, Except.toOption]

theorem row_of_rehydrate (h : rehydrate src (rowByName rows) c = some (id, t)) :
    ∃ row, (rowByName rows).lookup c = some row ∧ row.mcpSessionId = id := by
  simp only [rehydrate, Option.bind_eq_bind, Option.bind_eq_some_iff] at h
  obtain ⟨row, hrow, pluginName, -, inspect, -, h⟩ := h
  split at h
  next => cases h
  next =>
    obtain ⟨descriptor, -, heq⟩ := Option.bind_eq_some_iff.mp h
    cases heq
    exact ⟨row, hrow, rfl⟩

/-! ### The broker -/

section Answered

variable (hrunning : src.running = some running) (hrows : src.liveRows = some rows)
  (recordReap : String → Bool)

include hrunning hrows

theorem lookup_startup :
    (startup src recordReap).broker.shared.transportSessions =
      FiniteMap.insertAll ∅ (running.filterMap (rehydrate src (rowByName rows))) := by
  have hseeded : (startup src recordReap).broker.shared.transportSessions =
      (recoverLiveWorkers src ∅).transportSessions :=
    transportSessions_seedStartupLiveness (given_recoveredState src)
  rw [hseeded]
  simp [recoverLiveWorkers, hrunning, hrows]

/-- An entry comes from the container it names. -/
theorem rehydrate_of_entry
    (h : (startup src recordReap).broker.shared.transportSessions.lookup id = some t) :
    t.containerName ∈ running ∧
      rehydrate src (rowByName rows) t.containerName = some (id, t) := by
  rw [lookup_startup hrunning hrows] at h
  obtain ⟨c, hc, hmade⟩ := List.mem_filterMap.mp (FiniteMap.mem_of_lookup_insertAll h)
  obtain ⟨-, hname, -⟩ := rehydrate_eq_some hmade
  rw [hname]
  exact ⟨hc, hmade⟩

omit hrunning hrows in
theorem armed_of_entry
    (h : (startup src recordReap).broker.shared.transportSessions.lookup id = some t) :
    Armed (startup src recordReap).broker id := by
  have hseeded := transportSessions_seedStartupLiveness (given_recoveredState src)
  change (seedStartupLiveness (recoveredState src)).shared.transportSessions.lookup id = some t at h
  rw [hseeded] at h
  exact armed_seedStartupLiveness (given_recoveredState src) h

theorem apart_of_entries
    (h : (startup src recordReap).broker.shared.transportSessions.lookup id = some t)
    (h' : (startup src recordReap).broker.shared.transportSessions.lookup id' = some t')
    (hsame : t.containerName = t'.containerName) : id = id' := by
  obtain ⟨-, hmade⟩ := rehydrate_of_entry hrunning hrows recordReap h
  obtain ⟨-, hmade'⟩ := rehydrate_of_entry hrunning hrows recordReap h'
  rw [hsame, hmade'] at hmade
  cases hmade
  rfl

theorem owned_iff {row : LiveWorker} (hc : c ∈ running)
    (hrow : (rowByName rows).lookup c = some row) (hsole : Sole src row) :
    Owned (startup src recordReap).broker c ↔ Recoverable src row c := by
  rw [← exists_rehydrate_iff hrow]
  constructor
  · rintro ⟨id, t, hentry, rfl, -⟩
    obtain ⟨-, hmade⟩ := rehydrate_of_entry hrunning hrows recordReap hentry
    obtain ⟨row', hrow', rfl⟩ := row_of_rehydrate hmade
    cases hrow.symm.trans hrow'
    exact ⟨t, hmade⟩
  · rintro ⟨t, hmade⟩
    obtain ⟨w, hw, hentry⟩ :=
      FiniteMap.exists_lookup_insertAll (m := ∅) (List.mem_filterMap.mpr ⟨c, hc, hmade⟩)
    rw [← lookup_startup hrunning hrows recordReap] at hentry
    obtain ⟨hmem, hmade'⟩ := rehydrate_of_entry hrunning hrows recordReap hentry
    obtain ⟨row', hrow', hid⟩ := row_of_rehydrate hmade'
    refine ⟨row.mcpSessionId, w, hentry, ?_, armed_of_entry recordReap hentry⟩
    rw [← (containerName_of_rowByName hrow).2]
    refine hsole _ ?_ row' ?_ hid
    · rw [hrunning]
      exact hmem
    · rw [hrows]
      exact hrow'

theorem mem_running_startup :
    c ∈ (startup src recordReap).running ↔
      c ∈ running ∧ ¬∀ row ∈ rows, row.containerName ≠ c := by
  rw [← rowByName_eq_none]
  simp only [startup, recoverLiveWorkers, hrunning, hrows, Option.getD_some, List.mem_filter,
    decide_eq_true_eq, Option.isNone_iff_eq_none]
  tauto

theorem mem_liveRows_startup {row : LiveWorker} :
    row ∈ (startup src recordReap).liveRows ↔
      row ∈ rows ∧ (row.containerName ∈ running ∨ recordReap row.containerName = false) := by
  have hreaped : row ∈ rows → (row.containerName ∈ (recoverLiveWorkers src ∅).reaped ↔
      row.containerName ∉ running) := by
    intro hrow
    simp only [recoverLiveWorkers, hrunning, hrows, List.mem_filter, decide_eq_true_eq]
    exact and_iff_right (List.mem_map_of_mem hrow)
  simp only [startup, hrows, Option.getD_some, List.mem_filter, Bool.not_eq_true',
    Bool.and_eq_false_iff, decide_eq_false_iff_not]
  apply and_congr_right
  intro hrow
  rw [hreaped hrow, not_not]

/-- **Restart accounting**: after the recovery and the seeding every running
    container without a row is removed, and one with a row of its own session id
    is owned by a session with a timer exactly when its lookups succeed; rows
    without a container are reaped, and no two entries share a container. -/
theorem restart_accounts : RestartAccounted src recordReap where
  removed c hc := by
    rw [hrunning] at hc
    rw [mem_running_startup hrunning hrows, hrows]
    simp only [Option.getD_some] at hc ⊢
    tauto
  owned c hc row hrow hsole := by
    rw [hrunning] at hc
    rw [hrows] at hrow
    exact owned_iff hrunning hrows recordReap hc hrow hsole
  reaped row hrow := by
    rw [hrows] at hrow
    rw [mem_liveRows_startup hrunning hrows, hrunning]
    simp only [Option.getD_some] at hrow ⊢
    tauto
  entries id t h := by
    obtain ⟨hmem, hmade⟩ := rehydrate_of_entry hrunning hrows recordReap h
    rw [hrunning, hrows]
    exact ⟨armed_of_entry recordReap h, hmem, row_of_rehydrate hmade⟩
  apart id id' t t' h h' hsame := apart_of_entries hrunning hrows recordReap h h' hsame

end Answered

/-! ### Samples -/

/-- The sample session is owned again after a restart. -/
theorem restart_accounts_sample :
    Owned (startup (Sample.sources sampleSpawn) fun _ => true).broker sampleSpawn.containerName := by
  have hrow : (rowByName (Sample.rows sampleSpawn)).lookup sampleSpawn.containerName =
      some ⟨sampleSpawn.containerName, ⟨10, 0, 0, 7⟩, "s-1", 0⟩ := AList.lookup_insert _
  have hsole : Sole (Sample.sources sampleSpawn)
      ⟨sampleSpawn.containerName, ⟨10, 0, 0, 7⟩, "s-1", 0⟩ :=
    fun c hc _ _ _ => List.mem_singleton.mp hc
  have hrunning : (Sample.sources sampleSpawn).running = some [sampleSpawn.containerName] := rfl
  have hrows : (Sample.sources sampleSpawn).liveRows = some (Sample.rows sampleSpawn) := rfl
  apply ((restart_accounts hrunning hrows fun _ => true).owned _ List.mem_cons_self _ hrow
    hsole).mpr
  exact ⟨_, _, _, rfl, extractInspectResult_inspect (by decide) _, by decide, rfl⟩

/-- The sample container, from before its plugin has answered the first request. -/
def Sample.uninitialised : Sources :=
  { Sample.sources sampleSpawn with
    liveRows := some [⟨sampleSpawn.containerName, ⟨10, 0, 0, 7⟩, "", 0⟩] }

/-- Such a container runs on after a restart, and no session has it. -/
theorem restart_leaks_uninitialised :
    ¬ ∀ (src : Sources) (running : List String) (rows : List LiveWorker)
      (recordReap : String → Bool), src.running = some running → running.Nodup →
        src.liveRows = some rows → (∀ c, recordReap c = true) →
          LosesNoContainer src recordReap := by
  intro hclaim
  have hrunning : Sample.uninitialised.running = some [sampleSpawn.containerName] := rfl
  have hloses := hclaim Sample.uninitialised _ _ (fun _ => true) hrunning (List.nodup_singleton _)
    rfl fun _ => rfl
  rcases hloses.owned sampleSpawn.containerName List.mem_cons_self with hremoved | ⟨id, t, h, -⟩
  · rw [mem_running_startup hrunning rfl] at hremoved
    exact hremoved ⟨List.mem_cons_self, fun h => h _ List.mem_cons_self rfl⟩
  · obtain ⟨hmem, hmade⟩ := rehydrate_of_entry hrunning rfl _ h
    obtain ⟨row, hrow, rfl⟩ := row_of_rehydrate hmade
    obtain ⟨hrows, -⟩ := containerName_of_rowByName hrow
    obtain rfl := List.mem_singleton.mp hrows
    exact (rehydrate_eq_some hmade).1 rfl

end Botwork.SessionBroker.Liveness
