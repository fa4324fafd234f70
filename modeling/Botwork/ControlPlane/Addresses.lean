import Botwork.ControlPlane.Policy
import Botwork.ControlPlane.Rollback

/-!
# One policy per address

Docker hands an address to a new container once the old one has stopped, and
nothing ties the life of a record to that of its container: session-broker stops
containers without a `DELETE`, a failed `DELETE` re-inserts its record, and a
restarted control-plane is seeded from rows.  A `Fleet` is control-plane together
with the containers and the addresses they hold.  `one_policy_per_address`
proves for every run that meets `FleetGuard` that no two records share an
address; `address_reused_under_stale_record` is a run where two do.

## Main definitions

- `Fleet`, `fleet` — control-plane and the containers, as a machine
- `OnePolicyPerAddress` — the property
- `FleetGuard` — addresses handed on only after their record is gone
- `FleetInv` — the invariant of guarded runs
-/

namespace Botwork.ControlPlane

open Botwork.Foundations

-- ════════════════════════════════════════════════════════════════════════
-- Containers and their addresses
-- ════════════════════════════════════════════════════════════════════════

/-- Control-plane and the containers of session-broker.  `launched` is the
    address each container was started with, `holder` the container each address
    was handed to last, `registered` the record made of each container, by its
    `POST` or from its row. -/
structure Fleet where
  system : System
  launched : FiniteMap String Ipv4Addr
  running : FiniteMap String Ipv4Addr
  holder : FiniteMap Ipv4Addr String
  registered : FiniteMap String SessionRecord

inductive FleetAction where
  /-- docker starts a new container on an address that no running one holds -/
  | launch (container : String) (ip : Ipv4Addr)
  | stop (container : String)
  | control (a : Action)
  /-- control-plane restarts and seeds its store from the rows of containers,
      one by one or in bulk -/
  | restart (bulk : Bool) (rows : List (String × SessionRecord))

/-- A new process seeded with records. -/
def System.restarted (s : System) (bulk : Bool) (records : List SessionRecord) : System where
  store :=
    if bulk then (SessionStore.new.bulkSeed 0 records).1 else SessionStore.new.seedStore records
  handlers := ∅
  streams := ∅
  lastAccepted := s.lastAccepted
  acked := []

namespace Fleet

/-- Session-broker posts a container under its name and with its address. -/
def Drives (f : Fleet) : Action → Prop
  | .post _ body => ∀ record ∈ (validatePost body).toOption,
    f.launched.lookup record.sessionId = some record.containerIp
  | _ => True

instance (f : Fleet) : (a : Action) → Decidable (f.Drives a)
  | .post _ body => inferInstanceAs (Decidable (∀ record ∈ (validatePost body).toOption,
      f.launched.lookup record.sessionId = some record.containerIp))
  | .delete _ _ | .handler _ | .expire _ | .connect _ _ | .disconnect _ | .receive _ | .tick _
  | .stream _ | .subscribe _ _ | .accept _ | .reject _ _ => isTrue trivial

/-- The record a `POST` has inserted is that of its container. -/
def register (f : Fleet) : List (Nat × Mutation) → FiniteMap String SessionRecord
  | [(_, .post record)] => f.registered.insert record.sessionId record
  | _ => f.registered

def next (state : AppState) (f : Fleet) : FleetAction → Option Fleet
  | .launch container ip =>
    if (f.launched.lookup container).isSome ∨ ip ∈ f.running.values then none
    else some { f with launched := f.launched.insert container ip,
                       running := f.running.insert container ip,
                       holder := f.holder.insert ip container }
  | .stop container =>
    if (f.running.lookup container).isNone then none
    else some { f with running := f.running.erase container }
  | .control a =>
    if f.Drives a then
      (f.system.next state a).map fun s =>
        { f with system := s, registered := f.register (s.begun a) }
    else none
  | .restart bulk rows =>
    if ∀ row ∈ rows, f.launched.lookup row.1 = some row.2.containerIp then
      some { f with system := f.system.restarted bulk (rows.map Prod.snd),
                    registered := f.registered.insertAll rows }
    else none

def Start (f : Fleet) : Prop :=
  f.system.Start ∧ f.system.store = SessionStore.new ∧ f.launched = ∅ ∧ f.running = ∅ ∧
    f.holder = ∅ ∧ f.registered = ∅

/-- The record is in the store. -/
def Holds (f : Fleet) (record : SessionRecord) : Prop :=
  f.system.store.inner.get record.sessionId = some record

instance (f : Fleet) (record : SessionRecord) : Decidable (f.Holds record) :=
  inferInstanceAs (Decidable (_ = _))

end Fleet

def fleet (state : AppState) : Machine Fleet FleetAction where
  Start := Fleet.Start
  next := Fleet.next state

-- ════════════════════════════════════════════════════════════════════════
-- The property
-- ════════════════════════════════════════════════════════════════════════

/-- Two records never share an address, and the rules compiled from the store
    decide on a peer by the record of the container that runs there. -/
structure OnePolicyPerAddress (f : Fleet) : Prop where
  unique : ∀ r r', f.Holds r → f.Holds r' → r.containerIp = r'.containerIp → r = r'
  decision : ∀ container request, f.running.lookup container = some request.remoteIp →
    ((buildRbac f.system.store.list).allows request = true ↔
      ∃ record, f.registered.lookup container = some record ∧ f.Holds record ∧
        Declares record.egressPolicy request.authority)

-- ════════════════════════════════════════════════════════════════════════
-- The guard
-- ════════════════════════════════════════════════════════════════════════

namespace Fleet

/-- The address of a record has not been handed on since its container got it. -/
def Current (f : Fleet) (container : String) (record : SessionRecord) : Prop :=
  f.holder.lookup record.containerIp = some container

instance (f : Fleet) (container : String) (record : SessionRecord) :
    Decidable (f.Current container record) := inferInstanceAs (Decidable (_ = _))

/-- What a `POST` must meet when its id is free: the address has not been handed
    on, and the container has no other record. -/
def PostGuard (f : Fleet) (record : SessionRecord) : Prop :=
  f.system.store.inner.get record.sessionId = none →
    f.Current record.sessionId record ∧
      ∀ old ∈ f.registered.lookup record.sessionId, ¬ f.Holds old

/-- What the rollback of a `DELETE` must meet when its id is free: its record is
    the one of the container that holds its address. -/
def UndoGuard (f : Fleet) : Option HandlerPc → Prop
  | some (.rollback (.delete record) _) =>
    f.system.store.inner.get record.sessionId = none →
      ∃ container ∈ f.holder.lookup record.containerIp,
        f.registered.lookup container = some record
  | _ => True

end Fleet

/-- An address is handed on only when no record carries it, and a record enters
    the store only while its address has not been handed on. -/
def FleetGuard (f : Fleet) : FleetAction → Prop
  | .launch _ ip => ∀ record ∈ f.system.store.list, record.containerIp ≠ ip
  | .control (.post _ body) => ∀ record ∈ (validatePost body).toOption, f.PostGuard record
  | .control (.handler h) => f.UndoGuard (f.system.handlers.lookup h)
  | .restart _ rows => (rows.map Prod.fst).Nodup ∧ ∀ row ∈ rows, f.Current row.1 row.2
  | _ => True

instance (f : Fleet) (record : SessionRecord) : Decidable (f.PostGuard record) :=
  inferInstanceAs (Decidable (_ → _ ∧ ∀ old ∈ f.registered.lookup record.sessionId, ¬ f.Holds old))

instance (f : Fleet) : (pc : Option HandlerPc) → Decidable (f.UndoGuard pc)
  | some (.rollback (.delete record) _) =>
    inferInstanceAs (Decidable (f.system.store.inner.get record.sessionId = none →
      ∃ container ∈ f.holder.lookup record.containerIp,
        f.registered.lookup container = some record))
  | none | some (.rollback (.post _) _) | some (.bump _) | some (.target _)
  | some (.subscribers _ _) | some (.subscribe _ _) | some (.changed _ _ _)
  | some (.woken _ _ _) | some (.rollbackBump _ _) | some (.answered _ _) => isTrue trivial

instance (f : Fleet) : (a : FleetAction) → Decidable (FleetGuard f a)
  | .launch _ ip =>
    inferInstanceAs (Decidable (∀ record ∈ f.system.store.list, record.containerIp ≠ ip))
  | .control (.post _ body) =>
    inferInstanceAs (Decidable (∀ record ∈ (validatePost body).toOption, f.PostGuard record))
  | .control (.handler h) =>
    inferInstanceAs (Decidable (f.UndoGuard (f.system.handlers.lookup h)))
  | .restart _ rows =>
    inferInstanceAs (Decidable (_ ∧ ∀ row ∈ rows, f.Current row.1 row.2))
  | .stop _ | .control (.delete _ _) | .control (.expire _) | .control (.connect _ _)
  | .control (.disconnect _) | .control (.receive _) | .control (.tick _) | .control (.stream _)
  | .control (.subscribe _ _) | .control (.accept _) | .control (.reject _ _) => isTrue trivial

-- ════════════════════════════════════════════════════════════════════════
-- The invariant
-- ════════════════════════════════════════════════════════════════════════

variable {state : AppState} {f f' : Fleet} {s : System} {container : String} {ip : Ipv4Addr}
  {record : SessionRecord}

/-- Every record of the store is that of the container its address was handed to
    last. -/
structure FleetInv (f : Fleet) : Prop where
  running : ∀ container ip, f.running.lookup container = some ip →
    f.holder.lookup ip = some container ∧ f.launched.lookup container = some ip
  registered : ∀ container record, f.registered.lookup container = some record →
    f.launched.lookup container = some record.containerIp
  recorded : ∀ record, f.Holds record →
    ∃ container, f.Current container record ∧ f.registered.lookup container = some record

namespace FleetInv

theorem start (h : f.Start) : FleetInv f := by
  obtain ⟨-, hstore, -, hrunning, -, hregistered⟩ := h
  constructor
  · intro container ip hrun
    rw [hrunning] at hrun
    cases hrun
  · intro container record hreg
    rw [hregistered] at hreg
    cases hreg
  · intro record hold
    rw [Fleet.Holds, hstore] at hold
    cases hold

theorem launch (inv : FleetInv f) (hnew : f.launched.lookup container = none)
    (hfree : ip ∉ f.running.values)
    (hguard : ∀ record ∈ f.system.store.list, record.containerIp ≠ ip) :
    FleetInv { f with launched := f.launched.insert container ip,
                      running := f.running.insert container ip,
                      holder := f.holder.insert ip container } := by
  constructor
  · intro other ip' hrun
    rw [FiniteMap.lookup_insert_ite] at hrun
    split at hrun
    next heq =>
      subst heq
      cases hrun
      simp
    next hne =>
      obtain ⟨hholder, hlaunched⟩ := inv.running other ip' hrun
      have hip : ip' ≠ ip := by
        rintro rfl
        exact hfree ((FiniteMap.mem_values_iff _ _).mpr ⟨other, hrun⟩)
      simp only [AList.lookup_insert_ne hip, AList.lookup_insert_ne hne]
      exact ⟨hholder, hlaunched⟩
  · intro other record hreg
    have hlaunched := inv.registered other record hreg
    have hne : other ≠ container := by
      rintro rfl
      rw [hnew] at hlaunched
      cases hlaunched
    simpa only [AList.lookup_insert_ne hne] using hlaunched
  · intro record hold
    obtain ⟨owner, hcurrent, hreg⟩ := inv.recorded record hold
    have hip := hguard record ((SessionStore.mem_list_iff _ _).mpr hold)
    refine ⟨owner, ?_, hreg⟩
    rw [Fleet.Current, AList.lookup_insert_ne hip]
    exact hcurrent

theorem stop (inv : FleetInv f) : FleetInv { f with running := f.running.erase container } := by
  constructor
  · intro other ip hrun
    rw [FiniteMap.lookup_erase_ite] at hrun
    split at hrun
    next => cases hrun
    next => exact inv.running other ip hrun
  · exact inv.registered
  · exact inv.recorded

/-- A step that only drops records. -/
theorem shrink (inv : FleetInv f)
    (hshrink : ∀ record, Fleet.Holds { f with system := s } record → f.Holds record) :
    FleetInv { f with system := s } where
  running := inv.running
  registered := inv.registered
  recorded record hold := inv.recorded record (hshrink record hold)

/-- A step that adds the record of the container that holds its address. -/
theorem restore (inv : FleetInv f)
    (hgrow : ∀ r, Fleet.Holds { f with system := s } r → f.Holds r ∨ r = record)
    (hcurrent : ∃ container ∈ f.holder.lookup record.containerIp,
      f.registered.lookup container = some record) :
    FleetInv { f with system := s } where
  running := inv.running
  registered := inv.registered
  recorded r hold := by
    rcases hgrow r hold with hold | rfl
    · exact inv.recorded r hold
    · obtain ⟨container, hholder, hreg⟩ := hcurrent
      exact ⟨container, hholder, hreg⟩

/-- A `POST` of a container that still holds its address and has no record. -/
theorem post (inv : FleetInv f)
    (hgrow : ∀ r, Fleet.Holds { f with system := s } r → f.Holds r ∨ r = record)
    (hdrives : f.launched.lookup record.sessionId = some record.containerIp)
    (hcurrent : f.Current record.sessionId record)
    (hsole : ∀ old ∈ f.registered.lookup record.sessionId, ¬ f.Holds old) :
    FleetInv { f with system := s,
                      registered := f.registered.insert record.sessionId record } := by
  constructor
  · exact inv.running
  · intro container r hreg
    rw [FiniteMap.lookup_insert_ite] at hreg
    split at hreg
    next heq =>
      subst heq
      cases hreg
      exact hdrives
    next => exact inv.registered container r hreg
  · intro r hold
    rcases hgrow r hold with hold | rfl
    · obtain ⟨owner, howner, hreg⟩ := inv.recorded r hold
      have hne : owner ≠ record.sessionId := by
        rintro rfl
        exact hsole r hreg hold
      exact ⟨owner, howner, by rw [AList.lookup_insert_ne hne]; exact hreg⟩
    · exact ⟨r.sessionId, hcurrent, AList.lookup_insert f.registered⟩

theorem restart (inv : FleetInv f) {bulk : Bool} {rows : List (String × SessionRecord)}
    (henabled : ∀ row ∈ rows, f.launched.lookup row.1 = some row.2.containerIp)
    (hnodup : (rows.map Prod.fst).Nodup) (hcurrent : ∀ row ∈ rows, f.Current row.1 row.2) :
    FleetInv { f with system := f.system.restarted bulk (rows.map Prod.snd),
                      registered := f.registered.insertAll rows } := by
  have hlookup : ∀ container record, (container, record) ∈ rows →
      (f.registered.insertAll rows).lookup container = some record := by
    intro container record hmem
    obtain ⟨w, hw, hlook⟩ := FiniteMap.exists_lookup_insertAll (m := f.registered) hmem
    have heq := List.inj_on_of_nodup_map hnodup hmem hw rfl
    cases heq
    exact hlook
  constructor
  · exact inv.running
  · intro container record hreg
    by_cases hrow : ∃ r, (container, r) ∈ rows
    · obtain ⟨r, hmem⟩ := hrow
      have heq := (hlookup container r hmem).symm.trans hreg
      cases heq
      exact henabled _ hmem
    · have hold := FiniteMap.lookup_insertAll_of_ne (m := f.registered)
        fun r hmem => hrow ⟨r, hmem⟩
      exact inv.registered container record (hold.symm.trans hreg)
  · intro record hold
    have hmem : record ∈ rows.map Prod.snd := by
      have hnew : (SessionStore.new.inner.get record.sessionId) ≠ some record := by simp [SessionStore.new]
      rw [Fleet.Holds] at hold
      simp only [System.restarted] at hold
      split at hold
      next => exact (SessionStore.mem_of_get_bulkSeed hold).resolve_left hnew
      next => exact (SessionStore.mem_of_get_seedStore hold).resolve_left hnew
    obtain ⟨⟨container, r⟩, hrow, rfl⟩ := List.mem_map.mp hmem
    exact ⟨container, hcurrent _ hrow, hlookup container r hrow⟩

theorem control (inv : FleetInv f) {a : Action} (hdrives : f.Drives a)
    (hguard : FleetGuard f (.control a)) (hnext : f.system.next state a = some s) :
    FleetInv { f with system := s, registered := f.register (s.begun a) } := by
  rcases System.next_cases hnext with ⟨h, store, pc, rfl, hmove⟩ | ⟨-, -, hinner, hbegun⟩
  · have hself : (f.system.setHandler h store pc).handlers.lookup h = some pc := by
      simp [System.setHandler]
    rcases hmove with ⟨body, rfl, -, hpost⟩ | ⟨id, rfl, -, hdelete⟩ | ⟨old, rfl, hold, hadv⟩ |
      ⟨old, rfl, -, -, rfl⟩
    · cases hvalid : validatePost body with
      | error refusal =>
        obtain ⟨rfl, rfl⟩ := Prod.mk.inj (by simpa [HandlerPc.post, hvalid] using hpost)
        simp only [System.begun, hself]
        exact inv.shrink fun _ hold => hold
      | ok record =>
        have hmem : record ∈ (validatePost body).toOption := by rw [hvalid]; rfl
        cases hins : f.system.store.insertSection record with
        | error err =>
          obtain ⟨rfl, rfl⟩ := Prod.mk.inj (by simpa [HandlerPc.post, hvalid, hins] using hpost)
          simp only [System.begun, hself]
          exact inv.shrink fun _ hold => hold
        | ok store' =>
          obtain ⟨rfl, rfl⟩ := Prod.mk.inj (by simpa [HandlerPc.post, hvalid, hins] using hpost)
          obtain ⟨hfree, -⟩ := SessionStore.insertSection_eq_ok hins
          obtain ⟨hcurrent, hsole⟩ := hguard record hmem hfree
          simp only [System.begun, hself]
          exact inv.post (fun r hold => SessionStore.get_insertSection hins hold)
            (hdrives record hmem) hcurrent hsole
    · rcases HandlerPc.delete_cases hdelete with ⟨response, rfl, rfl⟩ | ⟨record, rfl, -, rfl⟩
      · simp only [System.begun, hself]
        exact inv.shrink fun _ hold => hold
      · simp only [System.begun, hself]
        refine inv.shrink fun r hold => ?_
        have hget := (f.system.store.inner.get_unset id r.sessionId).symm.trans hold
        split at hget
        next => cases hget
        next => exact hget
    · rcases HandlerPc.advance_cases hadv with ⟨-, -, ⟨hinner, -⟩ | ⟨m, err, rfl, -, hinner⟩⟩
      · exact inv.shrink fun r hold =>
        (congrArg (SessionTable.get · r.sessionId) hinner).symm.trans hold
      · have hget : ∀ r : SessionRecord, Fleet.Holds
            { f with system := f.system.setHandler h store pc } r →
            (if m.record.sessionId = r.sessionId
              then m.op.inverse.apply (f.system.store.inner.get r.sessionId)
              else f.system.store.inner.get r.sessionId) = some r := by
          intro r hr
          rw [← get_undo m f.system.store r.sessionId, ← hinner]
          exact hr
        have hguard : f.UndoGuard (some (.rollback m err)) := hold ▸ hguard
        cases m with
        | post record =>
          refine inv.shrink fun r hr => ?_
          have hget := hget r hr
          split at hget
          next => cases CellOp.apply_remove.symm.trans hget
          next => exact hget
        | delete record =>
          by_cases hfree : f.system.store.inner.get record.sessionId = none
          · refine inv.restore (fun r hr => ?_) (hguard hfree)
            have hget := hget r hr
            split at hget
            next heq =>
              have heq : record.sessionId = r.sessionId := heq
              rw [← heq, hfree] at hget
              exact .inr (Option.some.inj hget).symm
            next => exact .inl hget
          · refine inv.shrink fun r hr => ?_
            have hget := hget r hr
            split at hget
            next heq =>
              have heq : record.sessionId = r.sessionId := heq
              obtain ⟨other, hother⟩ := Option.ne_none_iff_exists'.mp hfree
              rw [← heq, hother] at hget
              cases hget
              exact (congrArg f.system.store.inner.get heq.symm).trans hother
            next => exact hget
    · exact inv.shrink fun _ hold => hold
  · rw [hbegun]
    exact inv.shrink fun r hold =>
      (congrArg (SessionTable.get · r.sessionId) hinner).symm.trans hold

theorem step (inv : FleetInv f) {a : FleetAction} (hguard : FleetGuard f a)
    (hnext : (fleet state).next f a = some f') : FleetInv f' := by
  cases a with
  | launch container ip =>
    simp only [fleet, Fleet.next] at hnext
    split at hnext
    next => cases hnext
    next henabled =>
      cases hnext
      rw [not_or] at henabled
      exact inv.launch (by simpa using henabled.1) henabled.2 hguard
  | stop container =>
    simp only [fleet, Fleet.next] at hnext
    split at hnext
    next => cases hnext
    next => cases hnext; exact inv.stop
  | control a =>
    simp only [fleet, Fleet.next] at hnext
    split at hnext
    next hdrives =>
      obtain ⟨s, hs, rfl⟩ := Option.map_eq_some_iff.mp hnext
      exact inv.control hdrives hguard hs
    next => cases hnext
  | restart bulk rows =>
    simp only [fleet, Fleet.next] at hnext
    split at hnext
    next henabled =>
      cases hnext
      exact inv.restart henabled hguard.1 hguard.2
    next => cases hnext

theorem decides (inv : FleetInv f) : OnePolicyPerAddress f := by
  constructor
  · intro r r' hr hr' hip
    obtain ⟨owner, hcurrent, hreg⟩ := inv.recorded r hr
    obtain ⟨owner', hcurrent', hreg'⟩ := inv.recorded r' hr'
    rw [Fleet.Current, hip, hcurrent'] at hcurrent
    cases hcurrent
    exact Option.some.inj (hreg.symm.trans hreg')
  · intro container request hrun
    obtain ⟨hholder, hlaunched⟩ := inv.running container _ hrun
    rw [buildRbac_allows f.system.store.nodup_list]
    constructor
    · rintro ⟨record, hmem, hip, hdeclares⟩
      have hold := (SessionStore.mem_list_iff _ _).mp hmem
      obtain ⟨owner, hcurrent, hreg⟩ := inv.recorded record hold
      rw [Fleet.Current, hip, hholder] at hcurrent
      cases hcurrent
      exact ⟨record, hreg, hold, hdeclares⟩
    · rintro ⟨record, hreg, hold, hdeclares⟩
      have hip := (inv.registered container record hreg).symm.trans hlaunched
      exact ⟨record, (SessionStore.mem_list_iff _ _).mpr hold, Option.some.inj hip, hdeclares⟩

end FleetInv

/-- **One policy per address**: in every run that hands an address on only when
    no record carries it, no two records share one. -/
theorem one_policy_per_address (hreach : (fleet state).ReachableUnder FleetGuard f) :
    OnePolicyPerAddress f := by
  have inv : FleetInv f := hreach.invariant (fun _ hstart => FleetInv.start hstart)
    fun _ _ _ inv hguard hnext => inv.step hguard hnext
  exact inv.decides

-- ════════════════════════════════════════════════════════════════════════
-- Runs
-- ════════════════════════════════════════════════════════════════════════

private def emptyFleet : Fleet := ⟨⟨SessionStore.new, ∅, ∅, fun _ => "", []⟩, ∅, ∅, ∅, ∅⟩

private theorem emptyFleet_start (state : AppState) : (fleet state).Start emptyFleet :=
  ⟨⟨⟨[], rfl⟩, rfl, rfl, rfl⟩, rfl, rfl, rfl, rfl, rfl⟩

private def sampleIp : Ipv4Addr := ⟨172, 20, 0, 5⟩

private def samplePost (sessionId plugin : String) (egressPolicy : Json) : PostBody where
  sessionId := some sessionId
  containerIp := some "172.20.0.5"
  tenant := some "acme"
  workspace := some "main"
  plugin := some plugin
  egressPolicy := some egressPolicy

/-- With the gate off: a container is posted, deleted and stopped, and its
    address goes to a second one. -/
private def handedOnRun : List FleetAction :=
  [.launch "mcp_session_d4" sampleIp, .control (.post 0 (some (samplePost "mcp_session_d4" "git"
      (.string "all")))), .control (.handler 0), .control (.handler 0),
    .control (.delete 1 "mcp_session_d4"), .control (.handler 1), .control (.handler 1),
    .stop "mcp_session_d4", .launch "mcp_session_e5" sampleIp,
    .control (.post 2 (some (samplePost "mcp_session_e5" "fetch" (.string "none"))))]

theorem one_policy_per_address_handed_on_run :
    ∃ f, f.running.lookup "mcp_session_e5" = some sampleIp ∧ f.system.store.list.length = 1 ∧
      OnePolicyPerAddress f := by
  have hexec : ((fleet ⟨"5s", true⟩).execUnder FleetGuard emptyFleet handedOnRun).any
      (fun f => decide (f.running.lookup "mcp_session_e5" = some sampleIp ∧
        f.system.store.list.length = 1)) = true := by decide +kernel
  obtain ⟨f, hrun, hf⟩ := Machine.exists_run_of_execUnder _ hexec
  obtain ⟨hip, hlength⟩ := of_decide_eq_true hf
  have hreach : (fleet ⟨"5s", true⟩).ReachableUnder FleetGuard f :=
    ⟨emptyFleet, emptyFleet_start _, hrun⟩
  exact ⟨f, hip, hlength, one_policy_per_address hreach⟩

/-- The first container is posted and envoy acknowledges; it stops without a
    `DELETE`, and its address goes to a second one. -/
private def staleRecordRun : List FleetAction :=
  [.launch "mcp_session_d4" sampleIp] ++
  [.post 0 (some (samplePost "mcp_session_d4" "git" (.string "all"))), .handler 0, .connect 0 0,
    .stream 0, .subscribe 0 .listener, .receive 0, .stream 0, .stream 0, .stream 0, .accept 0,
    .receive 0, .handler 0, .handler 0, .handler 0].map .control ++
  [.stop "mcp_session_d4", .launch "mcp_session_e5" sampleIp,
    .control (.post 1 (some (samplePost "mcp_session_e5" "fetch" (.string "none"))))]

private def Fleet.answered (f : Fleet) (h status : Nat) : Bool :=
  match f.system.handlers.lookup h with
  | some (.answered _ response) => decide (response.status = status)
  | _ => false

theorem address_reused_under_stale_record :
    ¬ ∀ state f, (fleet state).Reachable f → OnePolicyPerAddress f := by
  intro hclaim
  have hexec : ((fleet ⟨"5s", false⟩).execUnder (fun _ _ => True) emptyFleet staleRecordRun).any
      (fun f => f.answered 0 201 && f.system.store.list.any fun r => f.system.store.list.any
        fun r' => decide (f.Holds r ∧ f.Holds r' ∧ r.containerIp = r'.containerIp ∧ r ≠ r')) =
      true := by
    decide +kernel
  obtain ⟨f, hrun, hf⟩ := Machine.exists_run_of_execUnder _ hexec
  obtain ⟨-, hf⟩ := Bool.and_eq_true_iff.mp hf
  obtain ⟨r, -, hf⟩ := List.any_eq_true.mp hf
  obtain ⟨r', -, hf⟩ := List.any_eq_true.mp hf
  obtain ⟨hr, hr', hip, hne⟩ := of_decide_eq_true hf
  have hone := hclaim ⟨"5s", false⟩ f ⟨emptyFleet, emptyFleet_start _, hrun⟩
  exact hne (hone.unique r r' hr hr' hip)

end Botwork.ControlPlane
