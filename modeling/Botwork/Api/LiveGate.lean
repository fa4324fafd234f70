import Botwork.ControlPlane.Handler

/-!
# The live gate

The API's client of control-plane: it lists the live sessions of a (tenant,
workspace, plugin) triple and deletes them one by one, and gives up at the first
call that fails.  What it has deleted by then stays deleted.

## Main definitions

- `CallOutcome` — what becomes of one call
- `handleDelete` — `DELETE /sessions/<id>` from its start to its response
- `terminateLiveSessions` — the calls for one triple
- `Untouched` — the records are those of before
-/

namespace Botwork.Api

open Botwork.Foundations Botwork.ControlPlane

inductive GateError where
  | disabled
  | unavailable (msg : String)
  deriving DecidableEq

/-- What becomes of one call.  `wait` is the end of the wait for envoy's ack if the
    call is a DELETE that removes a record; a handler that goes away while it waits
    leaves what an acked one leaves. -/
inductive CallOutcome where
  | answered (wait : Except AckWaitError Unit)
  | undelivered (err : String)
  /-- control-plane has done its part, but the answer does not get back -/
  | unanswered (wait : Except AckWaitError Unit) (err : String)
  deriving DecidableEq

namespace CallOutcome

def isAnswered : CallOutcome → Bool
  | .answered _ => true
  | _ => false

/-- A DELETE with this outcome removes its record for good. -/
def removes : CallOutcome → Bool
  | .answered (.ok ()) | .unanswered (.ok ()) _ => true
  | _ => false

end CallOutcome

/-- The client, the settings of control-plane, and the outcomes of the calls in
    the order in which they are made. -/
structure ControlPlaneClient where
  endpoint : String
  disabled : Bool
  state : AppState
  outcomes : Nat → CallOutcome

/-- control-plane's store and the number of calls made. -/
structure Gate where
  store : SessionStore
  sent : Nat

/-- `DELETE /sessions/<id>`, with this end of its wait for the ack. -/
def handleDelete (state : AppState) (store : SessionStore) (id : String)
    (wait : Except AckWaitError Unit) : SessionStore × Response :=
  match HandlerPc.delete store id with
  | (removed, .bump m) =>
    match wait with
    | .ok () => (removed.bump, m.success)
    | .error err =>
      match m.undoSection removed.bump with
      | .ok undone => (undone.bump, m.refusal state err)
      | .error _ => (removed.bump, m.refusal state err)
  | (store', .answered _ response) => (store', response)
  | (store', _) => (store', errorResponse 500 "internal" "")

/-- The live sessions of a triple. -/
def liveFor (store : SessionStore) (tenant workspace plugin : String) : List SessionRecord :=
  store.list.filter fun record =>
    record.tenant = tenant ∧ record.workspace = workspace ∧ record.plugin = plugin

def statusLine : Nat → String
  | 400 => "400 Bad Request"
  | 503 => "503 Service Unavailable"
  | status => toString status

namespace ControlPlaneClient

variable (client : ControlPlaneClient)

/-- What the next call makes of the store, if it is a DELETE of this id. -/
def afterDelete (gate : Gate) (id : String) : SessionStore :=
  match client.outcomes gate.sent with
  | .answered wait | .unanswered wait _ => (handleDelete client.state gate.store id wait).1
  | .undelivered _ => gate.store

def listSessionsFor (tenant workspace plugin : String) (gate : Gate) :
    Except GateError (List SessionRecord) × Gate :=
  if client.disabled then (.error .disabled, gate)
  else
    let gate' := { gate with sent := gate.sent + 1 }
    match client.outcomes gate.sent with
    | .answered _ => (.ok (liveFor gate.store tenant workspace plugin), gate')
    | .undelivered err | .unanswered _ err => (.error (.unavailable s!"GET /sessions: {err}"), gate')

/-- A 404 counts as success: the session has ended since it was listed. -/
def deleteSession (sessionId : String) (gate : Gate) : Except GateError Unit × Gate :=
  if client.disabled then (.error .disabled, gate)
  else
    let gate' : Gate := ⟨client.afterDelete gate sessionId, gate.sent + 1⟩
    match client.outcomes gate.sent with
    | .answered wait =>
      let status := (handleDelete client.state gate.store sessionId wait).2.status
      if 200 ≤ status ∧ status < 300 ∨ status = 404 then (.ok (), gate')
      else (.error (.unavailable s!"DELETE /sessions/{sessionId} returned {statusLine status}"), gate')
    | .undelivered err | .unanswered _ err =>
      (.error (.unavailable s!"DELETE {client.endpoint}/sessions/{sessionId}: {err}"), gate')

def deleteEach : List SessionRecord → Nat → Gate → Except GateError Nat × Gate
  | [], count, gate => (.ok count, gate)
  | session :: live, count, gate =>
    match client.deleteSession session.sessionId gate with
    | (.ok (), gate') => deleteEach live (count + 1) gate'
    | (.error err, gate') => (.error err, gate')

def terminateLiveSessions (tenant workspace plugin : String) (gate : Gate) :
    Except GateError Nat × Gate :=
  match client.listSessionsFor tenant workspace plugin gate with
  | (.ok live, gate') => client.deleteEach live 0 gate'
  | (.error err, gate') => (.error err, gate')

/-- `terminateLiveSessions` for one triple after another, until control-plane is
    unavailable; a disabled gate lets all pass. -/
def terminateAll : List (String × String × String) → Gate → Option String × Gate
  | [], gate => (none, gate)
  | (tenant, workspace, plugin) :: triples, gate =>
    match client.terminateLiveSessions tenant workspace plugin gate with
    | (.error (.unavailable msg), gate') => (some msg, gate')
    | (_, gate') => terminateAll triples gate'

/-- Of the calls from number `n` on, the GETs up to the first triple with live
    sessions do not all succeed, or the first DELETE removes nothing. -/
def spares (store : SessionStore) (n : Nat) : List (String × String × String) → Bool
  | [] => true
  | (tenant, workspace, plugin) :: triples => !(client.outcomes n).isAnswered ||
    match liveFor store tenant workspace plugin with
    | [] => spares store (n + 1) triples
    | record :: _ => !(isSessionId record.sessionId && (client.outcomes (n + 1)).removes)

end ControlPlaneClient

-- ════════════════════════════════════════════════════════════════════════
-- Records
-- ════════════════════════════════════════════════════════════════════════

/-- The records are those of before. -/
def Untouched (store store' : SessionStore) : Prop := ∀ id, store'.inner.get id = store.inner.get id

/-- No record is new. -/
def Fewer (store store' : SessionStore) : Prop :=
  ∀ id, store'.inner.get id = none ∨ store'.inner.get id = store.inner.get id

theorem Untouched.fewer {store store' : SessionStore} (h : Untouched store store') :
    Fewer store store' := fun id => .inr (h id)

theorem Fewer.trans {store store' store'' : SessionStore} (h : Fewer store store')
    (h' : Fewer store' store'') : Fewer store store'' := by
  intro id
  obtain hnone | hsame := h' id
  · exact .inl hnone
  · exact (h id).imp hsame.trans hsame.trans

/-- **Spec of a DELETE**: an acked one removes its record, and no other one does. -/
theorem get_handleDelete {state : AppState} {store : SessionStore} {id : String}
    {wait : Except AckWaitError Unit} (id' : String) :
    (handleDelete state store id wait).1.inner.get id' =
      if isSessionId id = true ∧ wait = .ok () ∧ id' = id then none else store.inner.get id' := by
  unfold handleDelete HandlerPc.delete SessionStore.removeSection
  by_cases hid : isSessionId id = true
  · cases hget : store.inner.get id with
    | none =>
      simp only [hid, Bool.not_true, Bool.false_eq_true, if_false, true_and]
      split_ifs with heq
      · rw [heq.2, hget]
      · rfl
    | some record =>
      have hkey : record.sessionId = id := SessionTable.sessionId_of_get hget
      simp only [hid, Bool.not_true, Bool.false_eq_true, if_false, true_and]
      cases wait with
      | ok =>
        show (store.inner.unset id).get id' = _
        rw [SessionTable.get_unset]
        simp
      | error err =>
        have hfree : (store.inner.unset id).get record.sessionId = none := by
          rw [SessionTable.get_unset, if_pos hkey]
        simp only [Mutation.undoSection, SessionStore.insertSection, SessionStore.bump, hfree,
          Option.isSome_none, Bool.false_eq_true, if_false]
        have hkept : ¬ ((Except.error err : Except AckWaitError Unit) = .ok () ∧ id' = id) := by simp
        rw [SessionTable.get_set, SessionTable.get_unset, hkey, if_neg hkept]
        by_cases heq : id' = id
        · rw [if_pos heq, heq, hget]
        · rw [if_neg heq, if_neg heq]
  · simp [hid]

namespace ControlPlaneClient

variable {client : ControlPlaneClient} {gate gate' : Gate}

/-- **Spec of a DELETE from the client's side**. -/
theorem get_afterDelete {id : String} (id' : String) :
    (client.afterDelete gate id).inner.get id' =
      if isSessionId id = true ∧ (client.outcomes gate.sent).removes = true ∧ id' = id then none
      else gate.store.inner.get id' := by
  unfold afterDelete
  cases client.outcomes gate.sent with
  | answered wait | unanswered wait err =>
    rw [get_handleDelete]
    cases wait <;> simp [CallOutcome.removes]
  | undelivered err => simp [CallOutcome.removes]

theorem store_deleteSession {id : String} (henabled : client.disabled = false) :
    (client.deleteSession id gate).2.store = client.afterDelete gate id := by
  unfold deleteSession
  rw [henabled, if_neg Bool.false_ne_true]
  split
  next =>
    dsimp only
    split <;> rfl
  next => rfl
  next => rfl

theorem fewer_deleteSession {id : String} :
    Fewer gate.store (client.deleteSession id gate).2.store := by
  cases henabled : client.disabled with
  | true =>
    rw [deleteSession, henabled, if_pos rfl]
    exact Untouched.fewer fun _ => rfl
  | false =>
    rw [store_deleteSession henabled]
    intro id'
    rw [get_afterDelete]
    split_ifs
    · exact .inl rfl
    · exact .inr rfl

theorem fewer_deleteEach {live : List SessionRecord} {count : Nat} :
    Fewer gate.store (client.deleteEach live count gate).2.store := by
  induction live generalizing count gate with
  | nil => exact Untouched.fewer fun _ => rfl
  | cons session live ih =>
    have hone : Fewer gate.store (client.deleteSession session.sessionId gate).2.store :=
      fewer_deleteSession
    unfold deleteEach
    split
    next gate' hdelete =>
      rw [hdelete] at hone
      exact hone.trans ih
    next err gate' hdelete =>
      rw [hdelete] at hone
      exact hone

theorem store_listSessionsFor {tenant workspace plugin : String} :
    (client.listSessionsFor tenant workspace plugin gate).2.store = gate.store := by
  unfold listSessionsFor
  split
  next => rfl
  next => split <;> rfl

theorem fewer_terminateLiveSessions {tenant workspace plugin : String} :
    Fewer gate.store (client.terminateLiveSessions tenant workspace plugin gate).2.store := by
  have hlist : (client.listSessionsFor tenant workspace plugin gate).2.store = gate.store :=
    store_listSessionsFor
  unfold terminateLiveSessions
  split
  next live gate' hlisted =>
    rw [hlisted] at hlist
    exact hlist ▸ fewer_deleteEach
  next err gate' hlisted =>
    rw [hlisted] at hlist
    exact Untouched.fewer fun id => by rw [hlist]

theorem fewer_terminateAll {triples : List (String × String × String)} :
    Fewer gate.store (client.terminateAll triples gate).2.store := by
  induction triples generalizing gate with
  | nil => exact Untouched.fewer fun _ => rfl
  | cons triple triples ih =>
    obtain ⟨tenant, workspace, plugin⟩ := triple
    have hone : Fewer gate.store (client.terminateLiveSessions tenant workspace plugin gate).2.store :=
      fewer_terminateLiveSessions
    unfold terminateAll
    split
    next msg gate' hterminate =>
      rw [hterminate] at hone
      exact hone
    next result gate' _ hterminate =>
      rw [hterminate] at hone
      exact hone.trans ih

/-- A DELETE that removes nothing ends the loop. -/
theorem deleteSession_of_spared {id : String} {record : SessionRecord} (henabled : client.disabled = false)
    (hget : gate.store.inner.get id = some record)
    (hspared : ¬ (isSessionId id = true ∧ (client.outcomes gate.sent).removes = true)) :
    ∃ msg gate', client.deleteSession id gate = (.error (.unavailable msg), gate') ∧
      Untouched gate.store gate'.store := by
  have hsame : Untouched gate.store (client.afterDelete gate id) := by
    intro id'
    rw [get_afterDelete, if_neg fun h => hspared ⟨h.1, h.2.1⟩]
  unfold deleteSession
  rw [henabled, if_neg Bool.false_ne_true]
  split
  next wait houtcome =>
    -- a 400 or a 503
    have hstatus : (handleDelete client.state gate.store id wait).2.status = 400 ∨
        (handleDelete client.state gate.store id wait).2.status = 503 := by
      unfold handleDelete HandlerPc.delete SessionStore.removeSection
      by_cases hid : isSessionId id = true
      · cases wait with
        | ok => exact absurd ⟨hid, by rw [houtcome]; rfl⟩ hspared
        | error err =>
          right
          simp only [hid, hget, Bool.not_true, Bool.false_eq_true, if_false]
          split <;> exact Mutation.refusal_status _ _ _
      · left
        simp [hid, invalidRequest, errorResponse]
    rw [if_neg (by omega)]
    exact ⟨_, _, rfl, hsame⟩
  next => exact ⟨_, _, rfl, hsame⟩
  next => exact ⟨_, _, rfl, hsame⟩

theorem terminateAll_cons {triple : String × String × String} {triples : List (String × String × String)} :
    client.terminateAll (triple :: triples) gate = match client.terminateAll [triple] gate with
      | (some msg, gate') => (some msg, gate')
      | (none, gate') => client.terminateAll triples gate' := by
  obtain ⟨tenant, workspace, plugin⟩ := triple
  simp only [terminateAll]
  split <;> rfl

theorem terminateAll_disabled {triples : List (String × String × String)}
    (hdisabled : client.disabled = true) : client.terminateAll triples gate = (none, gate) := by
  induction triples with
  | nil => rfl
  | cons triple triples ih =>
    obtain ⟨tenant, workspace, plugin⟩ := triple
    simp only [terminateAll, terminateLiveSessions, listSessionsFor, hdisabled, if_true]
    exact ih

/-- A record that the loop has removed stays away. -/
theorem get_deleteEach_of_removed {record : SessionRecord} {live : List SessionRecord} {count : Nat}
    (henabled : client.disabled = false) (hid : isSessionId record.sessionId = true)
    (hremoves : (client.outcomes gate.sent).removes = true) :
    (client.deleteEach (record :: live) count gate).2.store.inner.get record.sessionId = none := by
  have hgone : (client.deleteSession record.sessionId gate).2.store.inner.get record.sessionId = none := by
    rw [store_deleteSession henabled, get_afterDelete, if_pos ⟨hid, hremoves, rfl⟩]
  unfold deleteEach
  split
  next gate' hdelete =>
    rw [hdelete] at hgone
    have hfewer : Fewer gate'.store (client.deleteEach live (count + 1) gate').2.store := fewer_deleteEach
    exact (hfewer record.sessionId).elim id fun hsame => hsame.trans hgone
  next err gate' hdelete =>
    rw [hdelete] at hgone
    exact hgone

/-- **What an unavailable control-plane leaves**. -/
theorem untouched_iff_spares {triples : List (String × String × String)} {msg : String}
    (h : client.terminateAll triples gate = (some msg, gate')) :
    Untouched gate.store gate'.store ↔ client.spares gate.store gate.sent triples = true := by
  have henabled : client.disabled = false := by
    apply eq_false_of_ne_true
    intro hdisabled
    rw [terminateAll_disabled hdisabled] at h
    cases h
  induction triples generalizing gate with
  | nil => cases h
  | cons triple triples ih =>
    obtain ⟨tenant, workspace, plugin⟩ := triple
    cases houtcome : client.outcomes gate.sent with
    | undelivered err | unanswered _ err =>
      simp only [terminateAll, terminateLiveSessions, listSessionsFor, henabled, houtcome,
        Bool.false_eq_true, if_false] at h
      cases h
      simp [Untouched, spares, houtcome, CallOutcome.isAnswered]
    | answered wait =>
      simp only [terminateAll, terminateLiveSessions, listSessionsFor, henabled, houtcome,
        Bool.false_eq_true, if_false] at h
      simp only [spares, houtcome, CallOutcome.isAnswered, Bool.not_true, Bool.false_or]
      cases hlive : liveFor gate.store tenant workspace plugin with
      | nil =>
        rw [hlive] at h
        have hrest : client.terminateAll triples ⟨gate.store, gate.sent + 1⟩ = (some msg, gate') := h
        exact ih hrest
      | cons record live =>
        rw [hlive] at h
        have hmem : record ∈ liveFor gate.store tenant workspace plugin := hlive ▸ List.mem_cons_self
        have hget : gate.store.inner.get record.sessionId = some record :=
          (SessionStore.mem_list_iff _ _).mp (List.mem_filter.mp hmem).1
        by_cases hremoves : isSessionId record.sessionId = true ∧
            (client.outcomes (gate.sent + 1)).removes = true
        · -- the first DELETE succeeds, or at least its record is gone
          have hgone : (client.deleteEach (record :: live) 0 ⟨gate.store, gate.sent + 1⟩).2.store.inner.get
              record.sessionId = none :=
            get_deleteEach_of_removed henabled hremoves.1 hremoves.2
          have hend : gate'.store.inner.get record.sessionId = none := by
            split at h
            next msg' gate₁ hdelete =>
              cases h
              rw [hdelete] at hgone
              exact hgone
            next result gate₁ _ hdelete =>
              rw [hdelete] at hgone
              have hfewer : Fewer gate₁.store (client.terminateAll triples gate₁).2.store :=
                fewer_terminateAll
              rw [h] at hfewer
              exact (hfewer record.sessionId).elim id fun hsame => hsame.trans hgone
          refine ⟨fun huntouched => ?_, fun hspares => ?_⟩
          · rw [huntouched, hget] at hend
            cases hend
          · simp [hremoves] at hspares
        · have hspared : ∃ msg gate₁, client.deleteSession record.sessionId
              ⟨gate.store, gate.sent + 1⟩ = (.error (.unavailable msg), gate₁) ∧
                Untouched gate.store gate₁.store :=
            deleteSession_of_spared henabled hget hremoves
          obtain ⟨msg', gate₁, hdelete, huntouched⟩ := hspared
          simp only [deleteEach, hdelete] at h
          cases h
          refine iff_of_true huntouched ?_
          rw [Bool.not_eq_true', Bool.and_eq_false_iff]
          exact (not_and_or.mp hremoves).imp eq_false_of_ne_true eq_false_of_ne_true

end ControlPlaneClient

end Botwork.Api
