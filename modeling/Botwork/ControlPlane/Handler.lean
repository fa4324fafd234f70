import Botwork.ControlPlane.Sessions

/-!
# HTTP handlers for `POST /sessions` and `DELETE /sessions/<id>`

A handler validates its request, mutates the store, waits until envoy has
acknowledged the resulting generation, and undoes the mutation when the wait
fails.  Between any two of its accesses to shared state other tasks can run, so
a handler is a program counter that `HandlerPc.advance` moves by one access.

## Main definitions

- `validatePost` — request validation, with its error responses
- `Mutation` — the store mutation a handler has performed
- `HandlerPc` — where a handler stands
- `HandlerPc.advance` — its next access to the store
-/

namespace Botwork.ControlPlane

open Botwork.Foundations

-- ════════════════════════════════════════════════════════════════════════
-- Responses
-- ════════════════════════════════════════════════════════════════════════

inductive Body where
  | ack (status sessionId : String)
  | error (code message : String)
  deriving DecidableEq, Repr

structure Response where
  status : Nat
  body : Body
  deriving DecidableEq, Repr

def errorResponse (status : Nat) (code message : String) : Response := ⟨status, .error code message⟩

/-- Every validation failure is a 400 with the same code. -/
def invalidRequest (message : String) : Response := errorResponse 400 "invalid_request" message

-- ════════════════════════════════════════════════════════════════════════
-- Validation
-- ════════════════════════════════════════════════════════════════════════

def sessionIdRe : String := "^mcp_session_[a-z0-9]+$"

def nameRe : String := "^[a-z][a-z0-9-]\x7b0,30\x7d$"

def isAsciiLower (c : Char) : Bool := decide ('a' ≤ c) && decide (c ≤ 'z')

def isAsciiDigit (c : Char) : Bool := decide ('0' ≤ c) && decide (c ≤ '9')

/-- Matching of `sessionIdRe`. -/
def isSessionId (s : String) : Bool :=
  let marker := "mcp_session_".toList
  let token := s.toList.drop marker.length
  marker.isPrefixOf s.toList && !token.isEmpty &&
    token.all fun c => isAsciiLower c || isAsciiDigit c

/-- Matching of `nameRe`. -/
def isName (s : String) : Bool :=
  match s.toList with
  | [] => false
  | c :: cs =>
    isAsciiLower c && decide (cs.length ≤ 30) &&
      cs.all fun c => isAsciiLower c || isAsciiDigit c || c == '-'

/-- The JSON body of `POST /sessions`; every field may be missing. -/
structure PostBody where
  sessionId : Option String
  containerIp : Option String
  tenant : Option String
  workspace : Option String
  plugin : Option String
  egressPolicy : Option Json
  deriving DecidableEq

private def require {α : Type} (field : String) : Option α → Except Response α
  | none => .error (invalidRequest s!"missing required field '{field}'")
  | some value => .ok value

private def requireMatch (field value re : String) (ok : Bool) : Except Response Unit :=
  if ok then .ok () else .error (invalidRequest s!"invalid {field} '{value}': must match {re}")

/-- The record a request body describes, or the response that refuses it.
    `none` stands for a body that is not a JSON object. -/
def validatePost (body : Option PostBody) : Except Response SessionRecord := do
  let some payload := body
    | .error (invalidRequest "request body must be a JSON object")
  let sessionId ← require "session_id" payload.sessionId
  let containerIpRaw ← require "container_ip" payload.containerIp
  let tenant ← require "tenant" payload.tenant
  let workspace ← require "workspace" payload.workspace
  let plugin ← require "plugin" payload.plugin
  requireMatch "session_id" sessionId sessionIdRe (isSessionId sessionId)
  requireMatch "tenant" tenant nameRe (isName tenant)
  requireMatch "workspace" workspace nameRe (isName workspace)
  requireMatch "plugin" plugin nameRe (isName plugin)
  let some containerIp := Ipv4Addr.parse containerIpRaw
    | .error (invalidRequest
        s!"invalid container_ip '{containerIpRaw}': must be IPv4 dotted-quad")
  return { sessionId, containerIp, tenant, workspace, plugin,
           egressPolicy := payload.egressPolicy.getD .null }

-- ════════════════════════════════════════════════════════════════════════
-- The ack gate
-- ════════════════════════════════════════════════════════════════════════

/-- The part of `AppState` that is fixed at startup.  `ackWait` is the wait
    budget as its `Debug` output; when the budget runs out is not modelled. -/
structure AppState where
  ackWait : String
  ackDisabled : Bool

inductive AckWaitError where
  | noSubscriber
  | timeout (targetVersion : Nat)
  deriving DecidableEq, Repr

/-- The mutation a handler has performed: `POST` inserted the record, `DELETE`
    removed it. -/
inductive Mutation where
  | post (record : SessionRecord)
  | delete (record : SessionRecord)
  deriving DecidableEq

namespace Mutation

def record : Mutation → SessionRecord
  | .post record => record
  | .delete record => record

/-- The response once envoy has acknowledged the mutation. -/
def success : Mutation → Response
  | .post record => ⟨201, .ack "stored" record.sessionId⟩
  | .delete record => ⟨200, .ack "removed" record.sessionId⟩

/-- The 503 of `wait_for_xds_ack`. -/
def refusal (state : AppState) (m : Mutation) : AckWaitError → Response
  | .noSubscriber => errorResponse 503 "no_xds_subscriber"
      s!"no egress envoy is currently subscribed to control-plane xDS; refusing to ack session_id '{m.record.sessionId}'"
  | .timeout version => errorResponse 503 "xds_ack_timeout"
      s!"egress envoy did not ACK xDS version {version} within {state.ackWait}; refusing to ack session_id '{m.record.sessionId}'"

@[simp] theorem refusal_status (state : AppState) (m : Mutation) (err : AckWaitError) :
    (m.refusal state err).status = 503 := by
  cases err <;> rfl

/-- The locked section of the rollback: a failed `POST` removes its id, a
    failed `DELETE` re-inserts its record.  Its own failure is only logged. -/
def undoSection (store : SessionStore) : Mutation → Except StoreError SessionStore
  | .post record => (store.removeSection record.sessionId).map Prod.snd
  | .delete record => store.insertSection record

theorem undoSection_post {store store' : SessionStore} {record : SessionRecord}
    (h : (Mutation.post record).undoSection store = .ok store') :
    store' = { store with inner := store.inner.unset record.sessionId } := by
  cases hrem : store.removeSection record.sessionId with
  | error err => simp [undoSection, hrem, Except.map] at h
  | ok out =>
    obtain ⟨removed, left⟩ := out
    obtain ⟨-, hstore⟩ := SessionStore.removeSection_eq_ok hrem
    simp only [undoSection, hrem, Except.map, Except.ok.injEq] at h
    rw [← h, hstore]

end Mutation

/-- Where a handler stands, named by its next access to the store. -/
inductive HandlerPc where
  /-- mutation done under the write lock, generation not bumped yet -/
  | bump (m : Mutation)
  /-- about to read `current_generation` as the version to wait for -/
  | target (m : Mutation)
  /-- `wait_for_ack`: about to look for a subscriber -/
  | subscribers (m : Mutation) (target : Nat)
  /-- about to subscribe to the gauge and take the fast path -/
  | subscribe (m : Mutation) (target : Nat)
  /-- blocked until the gauge differs from the value last seen -/
  | changed (m : Mutation) (target seen : Nat)
  /-- woken below the target: about to look for a subscriber again -/
  | woken (m : Mutation) (target seen : Nat)
  /-- the wait failed: about to undo the mutation -/
  | rollback (m : Mutation) (err : AckWaitError)
  /-- mutation undone, generation not bumped yet -/
  | rollbackBump (m : Mutation) (err : AckWaitError)
  | answered (m : Option Mutation) (response : Response)
  deriving DecidableEq

namespace HandlerPc

/-- The next access of a handler: `none` when it has answered or is blocked. -/
def advance (state : AppState) (store : SessionStore) :
    HandlerPc → Option (SessionStore × HandlerPc)
  | .bump m => some (store.bump, .target m)
  | .target m =>
    if state.ackDisabled then some (store, .answered (some m) m.success)
    else some (store, .subscribers m store.generation)
  | .subscribers m version =>
    if store.xdsSubscribers = 0 then some (store, .rollback m .noSubscriber)
    else some (store, .subscribe m version)
  | .subscribe m version =>
    if version ≤ store.ackedVersion then some (store, .answered (some m) m.success)
    else some (store, .changed m version store.ackedVersion)
  | .changed m version seen =>
    if store.ackedVersion = seen then none
    else if version ≤ store.ackedVersion then some (store, .answered (some m) m.success)
    else some (store, .woken m version store.ackedVersion)
  | .woken m version seen =>
    if store.xdsSubscribers = 0 then some (store, .rollback m .noSubscriber)
    else some (store, .changed m version seen)
  | .rollback m err =>
    match m.undoSection store with
    | .ok store' => some (store', .rollbackBump m err)
    | .error _ => some (store, .answered (some m) (m.refusal state err))
  | .rollbackBump m err => some (store.bump, .answered (some m) (m.refusal state err))
  | .answered _ _ => none

/-- The wait budget runs out while the handler is blocked on the gauge. -/
def expire : HandlerPc → Option HandlerPc
  | .changed m version _ => some (.rollback m (.timeout version))
  | _ => none

/-- The start of `POST /sessions`, up to the release of the write lock. -/
def post (store : SessionStore) (body : Option PostBody) : SessionStore × HandlerPc :=
  match validatePost body with
  | .error refusal => (store, .answered none refusal)
  | .ok record =>
    match store.insertSection record with
    | .ok store' => (store', .bump (.post record))
    | .error _ => (store, .answered none (errorResponse 409 "already_exists"
        s!"session_id '{record.sessionId}' already exists in control-plane store"))

/-- The start of `DELETE /sessions/<id>`, up to the release of the write lock. -/
def delete (store : SessionStore) (id : String) : SessionStore × HandlerPc :=
  if !isSessionId id then
    (store, .answered none (invalidRequest
      s!"invalid session_id '{id}': must match {sessionIdRe}"))
  else
    match store.removeSection id with
    | .ok (record, store') => (store', .bump (.delete record))
    | .error _ => (store, .answered none (errorResponse 404 "not_found"
        s!"session_id '{id}' not present in control-plane store"))

/-- The record of a `POST` that has mutated the store and may still answer 201. -/
def pendingPost : HandlerPc → Option SessionRecord
  | .bump (.post r) | .target (.post r) | .subscribers (.post r) _ | .subscribe (.post r) _
  | .changed (.post r) _ _ | .woken (.post r) _ _ => some r
  | _ => none

/-- The version a handler waits for, once it has read it. -/
def awaited : HandlerPc → Option Nat
  | .subscribers _ version | .subscribe _ version | .changed _ version _ | .woken _ version _ =>
    some version
  | _ => none

end HandlerPc

end Botwork.ControlPlane
