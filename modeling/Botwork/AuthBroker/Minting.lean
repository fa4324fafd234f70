import Botwork.AuthBroker.Handshakes
import Botwork.Foundations.Tickets

/-!
# One lease for a handshake

The number of a login start is a ticket: it lies with the call that holds the new
entry, then in the pending map, then with the finish that took the entry, and is
spent when the lease is inserted.

## Main definitions

- `Start.Sound`, `Mint.Earned` — what a start found, and what justifies a lease
- `Handshakes.lies` — where the tickets are
- `Handshakes.Inv` — the invariant
-/

namespace Botwork.AuthBroker

open Botwork.Foundations Botwork.Vault

variable {K : OpaqueKe}

-- ════════════════════════════════════════════════════════════════════════
-- What calls know
-- ════════════════════════════════════════════════════════════════════════

/-- The file was stored for the tenant. -/
def Stored (K : OpaqueKe) (registered : List (TenantId × Bytes)) (tenantId : Option TenantId)
    (file : PasswordFile) : Prop :=
  ∃ id bytes, tenantId = some id ∧ (id, bytes) ∈ registered ∧ K.passwordFile bytes = .ok file

structure Start.Sound (setup : Bytes) (registered : List (TenantId × Bytes)) (start : Start K) :
    Prop where
  began : ∃ coins request credential response,
    K.loginStart coins setup start.passwordFile request credential = .ok (start.state, response)
  stored : ∀ file, start.passwordFile = some file → Stored K registered start.tenantId file

/-- The finish came in time and completed the login of this start. -/
structure Mint.Earned (mint : Mint K) (start : Start K) : Prop where
  tenantId : start.tenantId = some mint.tenantId
  inTime : mint.arrivedAt ≤ start.createdAt + seconds pendingTtl
  finished : K.loginFinish start.state mint.finalization = .ok mint.sessionKey

/-- An entry of the pending map holds what its start began. -/
structure PendingEntry.Holds (entry : PendingEntry) (start : Start K) : Prop where
  tenantId : entry.tenantId = start.tenantId
  stateBytes : entry.stateBytes = K.serializeLogin start.state
  createdAt : entry.createdAt = start.createdAt

/-- OPAQUE refuses the payload as one for a wrong password. -/
def LoginFinishRequest.Refused (body : LoginFinishRequest) (state : K.ServerLogin) : Prop :=
  ∀ finalization, body.finalization K = .ok finalization →
    K.loginFinish state finalization = .error .invalidLogin

/-- The response to a finish whose password is wrong. -/
def LoginFinishRequest.WrongPassword (K : OpaqueKe) (body : LoginFinishRequest)
    (response : AuthResponse) : Prop :=
  ∀ taken : PendingTaken K, body.Refused taken.state → body.authenticate K taken = .error response

/-- A refused payload is answered alike, whoever the tenant is. -/
theorem LoginFinishRequest.authenticate_of_refused {body : LoginFinishRequest}
    {taken : PendingTaken K} (h : body.Refused taken.state) :
    body.authenticate K taken =
      (body.finalization K).bind fun _ => .error (.unauthorized .invalidBearer none) := by
  rw [authenticate]
  cases hfinal : body.finalization K with
  | error response => rfl
  | ok finalization =>
    show ((K.loginFinish taken.state finalization).mapError loginError >>= _) = _
    rw [h finalization hfinal]
    rfl

/-- A start without a password file is answered as a wrong password. -/
theorem Start.Sound.wrongPassword {setup : Bytes} {registered : List (TenantId × Bytes)}
    {start : Start K} (h : start.Sound setup registered) (ideal : K.Ideal)
    (hnone : start.passwordFile = none) {taken : PendingTaken K} (hstate : taken.state = start.state)
    {body : LoginFinishRequest} :
    ∃ response, body.authenticate K taken = .error response ∧ body.WrongPassword K response := by
  obtain ⟨coins, request, credential, response, hbegan⟩ := h.began
  rw [hnone] at hbegan
  have hrefused : body.Refused taken.state := by
    intro finalization _
    rw [hstate]
    exact ideal.loginFinish_of_none hbegan finalization
  rw [LoginFinishRequest.authenticate_of_refused hrefused]
  cases hfinal : body.finalization K with
  | error response =>
    refine ⟨response, rfl, fun other hother => ?_⟩
    rw [LoginFinishRequest.authenticate_of_refused hother, hfinal]
    rfl
  | ok finalization =>
    refine ⟨_, rfl, fun other hother => ?_⟩
    rw [LoginFinishRequest.authenticate_of_refused hother, hfinal]
    rfl

/-- A lease is only earned from a start that found a password file of its tenant. -/
theorem Mint.Earned.stored {mint : Mint K} {start : Start K} {setup : Bytes}
    {registered : List (TenantId × Bytes)} (h : mint.Earned start) (ideal : K.Ideal)
    (hsound : start.Sound setup registered) :
    ∃ file bytes, start.passwordFile = some file ∧ (mint.tenantId, bytes) ∈ registered ∧
      K.passwordFile bytes = .ok file := by
  cases hfile : start.passwordFile with
  | none =>
    obtain ⟨coins, request, credential, response, hbegan⟩ := hsound.began
    rw [hfile] at hbegan
    have hrefused := ideal.loginFinish_of_none hbegan mint.finalization
    rw [h.finished] at hrefused
    cases hrefused
  | some file =>
    obtain ⟨id, bytes, hid, hmem, hbytes⟩ := hsound.stored file hfile
    rw [h.tenantId] at hid
    cases hid
    exact ⟨file, bytes, rfl, hmem, hbytes⟩

theorem LoginFinishRequest.authenticate_eq_ok {body : LoginFinishRequest} {taken : PendingTaken K}
    {who : Authenticated K} (h : body.authenticate K taken = .ok who) :
    taken.tenantId = some who.tenantId ∧
      K.loginFinish taken.state who.finalization = .ok who.sessionKey := by
  obtain ⟨finalization, -, hrest⟩ := bind_eq_ok.mp h
  obtain ⟨sessionKey, hkey, hwho⟩ := bind_eq_ok.mp hrest
  split at hwho
  next => cases hwho
  next tenantId htenant =>
    cases hwho
    exact ⟨htenant, mapError_eq_ok.mp hkey⟩

/-- What `take` reads of an entry is what the start began. -/
theorem PendingEntry.Holds.taken {entry : PendingEntry} {start : Start K} {now : Nat}
    {taken : PendingTaken K} (h : entry.Holds start) (ideal : K.Ideal)
    (htaken : entry.taken K now = .ok taken) :
    taken.tenantId = start.tenantId ∧ taken.state = start.state ∧
      now ≤ start.createdAt + seconds pendingTtl := by
  rw [PendingEntry.taken] at htaken
  split at htaken
  next => cases htaken
  next hfresh =>
    rw [h.stateBytes, ideal.deserialize_serialize] at htaken
    cases htaken
    refine ⟨h.tenantId, rfl, ?_⟩
    rw [PendingEntry.expired, decide_eq_true_eq, h.createdAt] at hfresh
    omega

-- ════════════════════════════════════════════════════════════════════════
-- The invariant
-- ════════════════════════════════════════════════════════════════════════

inductive TicketPlace where
  | pending (id : HandshakeId)
  | call (call : Nat)
  deriving DecidableEq

def Stage.ticket : Stage K → Option Nat
  | .insertPending _ entry => some entry.start
  | .insertLease _ mint _ => some mint.start
  | _ => none

/-- A call has not begun its login before `begin`, and its entry or lease is that
    of a start. -/
def Stage.Sound (starts : FiniteMap Nat (Start K)) (registered : List (TenantId × Bytes))
    (call : Nat) : Stage K → Prop
  | .lookupTenant _ _ | .loadPasswordFile _ _ _ => starts.lookup call = none
  | .begin _ _ tenantId file =>
    starts.lookup call = none ∧ ∀ found, file = some found → Stored K registered tenantId found
  | .insertPending _ entry => ∃ start, starts.lookup entry.start = some start ∧ entry.Holds start
  | .insertLease _ mint _ => ∃ start, starts.lookup mint.start = some start ∧ mint.Earned start
  | _ => True

/-- The finish of a start without a password file is answered as a wrong password. -/
def Answered.Sound (starts : FiniteMap Nat (Start K)) (answer : Answered) : Prop :=
  ∀ n body, answer.took = some (n, body) → ∃ start, starts.lookup n = some start ∧
    (start.passwordFile = none → body.WrongPassword K answer.response)

/-- The row of a lease that was inserted. -/
structure Mint.Row (mint : Mint K) (row : LeaseRow) : Prop where
  tenantId : row.tenantId = mint.tenantId
  bearerHash : row.bearerHash = mint.bearer.hash

namespace Handshakes

def lies (s : Handshakes K) : TicketPlace → Option Nat
  | .pending id => (s.pending.lookup id).map PendingEntry.start
  | .call call => (s.inFlight.lookup call).bind fun c => c.stage.ticket

def spent (s : Handshakes K) : List Nat := s.minted.map fun m => m.2.start

structure Inv (setup : Bytes) (s : Handshakes K) : Prop where
  affine : Affine s.lies s.spent
  calls : ∀ call c, s.inFlight.lookup call = some c → call < s.calls
  stages : ∀ call c, s.inFlight.lookup call = some c → c.stage.Sound s.starts s.registered call
  pending : ∀ id entry, s.pending.lookup id = some entry →
    ∃ start, s.starts.lookup entry.start = some start ∧ entry.Holds start
  begun : ∀ n start, s.starts.lookup n = some start →
    n < s.calls ∧ start.Sound setup s.registered
  answers : ∀ call answer, s.answers.lookup call = some answer → answer.Sound s.starts
  minted : ∀ m ∈ s.minted, ∃ start, s.starts.lookup m.2.start = some start ∧ m.2.Earned start
  files : ∀ tenantId bytes, s.passwordFiles.lookup tenantId = some bytes →
    (tenantId, bytes) ∈ s.registered
  indexed : s.leases.Indexed
  rows : ∀ id row, s.leases.lookup id = some row → ∃ m ∈ s.minted, m.1 = id ∧ m.2.Row row

variable {setup : Bytes} {s : Handshakes K} {call : Nat} {c : AuthCall K}

theorem lies_call {stage : Stage K} (hlook : s.inFlight.lookup call = some c)
    (hstage : c.stage = stage) : s.lies (.call call) = stage.ticket := by
  rw [lies, hlook, ← hstage]
  rfl

theorem lies_advance (stage : Stage K) (place : TicketPlace) :
    (s.advance call c stage).lies place =
      if place = .call call then stage.ticket else s.lies place := by
  cases place with
  | pending id => rfl
  | call other =>
    simp only [lies, Handshakes.advance, FiniteMap.lookup_insert_ite, TicketPlace.call.injEq]
    split <;> rfl

theorem lies_answerFinish (took : Option (Nat × LoginFinishRequest)) (response : AuthResponse)
    (place : TicketPlace) :
    (s.answerFinish call took response).lies place =
      if place = .call call then none else s.lies place := by
  cases place with
  | pending id => rfl
  | call other =>
    simp only [lies, Handshakes.answerFinish, FiniteMap.lookup_erase_ite, TicketPlace.call.injEq]
    split <;> rfl

theorem inFlight_advance {stage : Stage K} {other : Nat} {c' : AuthCall K}
    (h : (s.advance call c stage).inFlight.lookup other = some c') :
    other = call ∧ c' = { c with stage := stage } ∨
      other ≠ call ∧ s.inFlight.lookup other = some c' := by
  simp only [Handshakes.advance, FiniteMap.lookup_insert_ite] at h
  split at h
  next heq => cases h; exact .inl ⟨heq, rfl⟩
  next hne => exact .inr ⟨hne, h⟩

-- ════════════════════════════════════════════════════════════════════════
-- Steps of calls
-- ════════════════════════════════════════════════════════════════════════

/-- A call goes on, and keeps its ticket or loses it. -/
theorem Inv.advance (inv : s.Inv setup) (hlt : call < s.calls) (stage : Stage K)
    (hticket : ∀ n, stage.ticket = some n → s.lies (.call call) = some n)
    (hsound : stage.Sound s.starts s.registered call) : (s.advance call c stage).Inv setup where
  affine := by
    apply inv.affine.shrink
    intro place n hlies
    rw [lies_advance] at hlies
    split at hlies
    next heq => exact heq ▸ hticket n hlies
    next => exact hlies
  calls other c' hother := by
    obtain ⟨rfl, -⟩ | ⟨-, hother'⟩ := inFlight_advance hother
    · exact hlt
    · exact inv.calls other c' hother'
  stages other c' hother := by
    obtain ⟨rfl, rfl⟩ | ⟨-, hother'⟩ := inFlight_advance hother
    · exact hsound
    · exact inv.stages other c' hother'
  pending := inv.pending
  begun := inv.begun
  answers := inv.answers
  minted := inv.minted
  files := inv.files
  indexed := inv.indexed
  rows := inv.rows

/-- A call is answered or dropped, and its ticket is lost. -/
theorem Inv.erase (inv : s.Inv setup) (call : Nat) :
    Inv setup { s with inFlight := s.inFlight.erase call } where
  affine := by
    apply inv.affine.shrink
    intro place n hlies
    cases place with
    | pending id => exact hlies
    | call other =>
      simp only [lies, FiniteMap.lookup_erase_ite] at hlies ⊢
      split at hlies
      next => cases hlies
      next => exact hlies
  calls other c' hother := by
    simp only [FiniteMap.lookup_erase_ite] at hother
    split at hother
    next => cases hother
    next => exact inv.calls other c' hother
  stages other c' hother := by
    simp only [FiniteMap.lookup_erase_ite] at hother
    split at hother
    next => cases hother
    next => exact inv.stages other c' hother
  pending := inv.pending
  begun := inv.begun
  answers := inv.answers
  minted := inv.minted
  files := inv.files
  indexed := inv.indexed
  rows := inv.rows

theorem Inv.answerFinish (inv : s.Inv setup) (call : Nat)
    {took : Option (Nat × LoginFinishRequest)} {response : AuthResponse}
    (hsound : (Answered.mk took response).Sound s.starts) :
    (s.answerFinish call took response).Inv setup :=
  { inv.erase call with
    answers := fun other answer hother => by
      have hother' : (s.answers.insert call ⟨took, response⟩).lookup other = some answer := hother
      rw [FiniteMap.lookup_insert_ite] at hother'
      split at hother'
      next => cases hother'; exact hsound
      next => exact inv.answers other answer hother' }

theorem Inv.answer (inv : s.Inv setup) (call : Nat) (response : AuthResponse) :
    (s.answer call response).Inv setup :=
  inv.answerFinish call fun _ _ h => nomatch h

/-- Entries that leave the pending map lose their tickets. -/
theorem Inv.removePending (inv : s.Inv setup) {pending : PendingMap}
    (hsub : ∀ id entry, pending.lookup id = some entry → s.pending.lookup id = some entry) :
    Inv setup { s with pending := pending } where
  affine := by
    apply inv.affine.shrink
    intro place n hlies
    cases place with
    | pending id =>
      obtain ⟨entry, hentry, rfl⟩ := Option.map_eq_some_iff.mp hlies
      exact Option.map_eq_some_iff.mpr ⟨entry, hsub id entry hentry, rfl⟩
    | call other => exact hlies
  calls := inv.calls
  stages := inv.stages
  pending id entry hentry := inv.pending id entry (hsub id entry hentry)
  begun := inv.begun
  answers := inv.answers
  minted := inv.minted
  files := inv.files
  indexed := inv.indexed
  rows := inv.rows

theorem enter_sound {request : AuthRequest} {stage : Stage K} (h : enter request = .ok stage)
    {starts : FiniteMap Nat (Start K)} (registered : List (TenantId × Bytes))
    (hfresh : starts.lookup call = none) :
    stage.ticket = none ∧ stage.Sound starts registered call := by
  have hstart : ∀ body : LoginStartRequest,
      (body.request K).map (Stage.lookupTenant body) = .ok stage →
        stage.ticket = none ∧ stage.Sound starts registered call := by
    intro body hbody
    cases hrequest : body.request K with
    | error response => rw [hrequest] at hbody; cases hbody
    | ok request =>
      rw [hrequest] at hbody
      cases hbody
      exact ⟨rfl, hfresh⟩
  cases request with
  | loginStart body => exact hstart body h
  | loginFinish body => cases h; exact ⟨rfl, trivial⟩
  | registerFinish body => cases h; exact ⟨rfl, trivial⟩
  | apiAuthLogin body =>
    obtain ⟨login, -, hlogin⟩ := bind_eq_ok.mp h
    cases login with
    | inl start => exact hstart start hlogin
    | inr finish => cases hlogin; exact ⟨rfl, trivial⟩

theorem Inv.arrive (inv : s.Inv setup) (request : AuthRequest) (handshakeId : HandshakeId) :
    (s.arrive request handshakeId).Inv setup := by
  have inv' : Inv setup { s with calls := s.calls + 1 } :=
    { inv with
      calls := fun call c hlook => Nat.lt_succ_of_lt (inv.calls call c hlook)
      begun := fun n start hstart =>
        ⟨Nat.lt_succ_of_lt (inv.begun n start hstart).1, (inv.begun n start hstart).2⟩ }
  have hfresh : s.starts.lookup s.calls = none := by
    cases hstart : s.starts.lookup s.calls with
    | none => rfl
    | some start => exact absurd (inv.begun _ start hstart).1 (lt_irrefl _)
  rw [Handshakes.arrive]
  split
  next response _ => exact inv'.answer s.calls response
  next stage henter =>
    obtain ⟨hticket, hsound⟩ := enter_sound henter s.registered hfresh
    refine inv'.advance (Nat.lt_succ_self _) stage (fun n h => ?_) hsound
    rw [hticket] at h
    cases h

/-- A ticket that lies somewhere is the number of a start. -/
theorem Inv.start_of_lies (inv : s.Inv setup) {place : TicketPlace} {n : Nat}
    (hlies : s.lies place = some n) : ∃ start, s.starts.lookup n = some start := by
  cases place with
  | pending id =>
    obtain ⟨entry, hentry, rfl⟩ := Option.map_eq_some_iff.mp hlies
    exact (inv.pending id entry hentry).imp fun start h => h.1
  | call other =>
    obtain ⟨c, hlook, hticket⟩ := Option.bind_eq_some_iff.mp hlies
    have hsound := inv.stages other c hlook
    cases hstage : c.stage <;> rw [hstage] at hticket hsound <;> cases hticket
    · exact hsound.imp fun start h => h.1
    · exact hsound.imp fun start h => h.1

/-- A login begins: its number is issued, with what it found. -/
theorem Inv.begin (inv : s.Inv setup) (hlt : call < s.calls)
    (hfresh : s.starts.lookup call = none) {start : Start K}
    (hstart : start.Sound setup s.registered) {entry : PendingEntry} (hholds : entry.Holds start)
    (hnumber : entry.start = call) (response : K.CredentialResponse) :
    ({ s with starts := s.starts.insert call start }.advance call c
      (.insertPending response entry)).Inv setup := by
  have hkeep : ∀ n old, s.starts.lookup n = some old →
      (s.starts.insert call start).lookup n = some old := by
    intro n old hold
    rw [FiniteMap.lookup_insert_ite, if_neg]
    · exact hold
    · rintro rfl
      rw [hfresh] at hold
      cases hold
  have hnew : (s.starts.insert call start).lookup entry.start = some start := by
    rw [hnumber]
    exact AList.lookup_insert s.starts
  have hkept : ∀ {n : Nat} {P : Start K → Prop}, (∃ old, s.starts.lookup n = some old ∧ P old) →
      ∃ old, (s.starts.insert call start).lookup n = some old ∧ P old := by
    rintro n P ⟨old, hold, h⟩
    exact ⟨old, hkeep n old hold, h⟩
  refine { inv with
    affine := ?_, calls := ?_, stages := ?_, pending := ?_, begun := ?_, answers := ?_, minted := ?_ }
  · refine inv.affine.issue (.call call) (t := call) (fun place hlies => ?_) (fun hspent => ?_) ?_
    · obtain ⟨old, hold⟩ := inv.start_of_lies hlies
      rw [hfresh] at hold
      cases hold
    · obtain ⟨m, hm, hnum⟩ := List.mem_map.mp hspent
      obtain ⟨old, hold, -⟩ := inv.minted m hm
      rw [hnum, hfresh] at hold
      cases hold
    · intro place n hlies
      rw [lies_advance] at hlies
      split at hlies
      next heq => cases hlies; exact .inl ⟨heq, hnumber⟩
      next => exact .inr hlies
  · intro other c' hother
    obtain ⟨rfl, -⟩ | ⟨-, hother'⟩ := inFlight_advance hother
    · exact hlt
    · exact inv.calls other c' hother'
  · intro other c' hother
    obtain ⟨rfl, rfl⟩ | ⟨hne, hother'⟩ := inFlight_advance hother
    · exact ⟨start, hnew, hholds⟩
    · have hnone : s.starts.lookup other = none →
          (s.starts.insert call start).lookup other = none := by
        intro h
        rw [FiniteMap.lookup_insert_ite, if_neg hne]
        exact h
      have hsound := inv.stages other c' hother'
      show c'.stage.Sound (s.starts.insert call start) s.registered other
      cases hstage : c'.stage <;> rw [hstage] at hsound
      case lookupTenant => exact hnone hsound
      case loadPasswordFile => exact hnone hsound
      case begin => exact ⟨hnone hsound.1, hsound.2⟩
      case insertPending => exact hkept hsound
      case insertLease => exact hkept hsound
      all_goals trivial
  · exact fun id entry hentry => hkept (inv.pending id entry hentry)
  · intro n old hold
    have hold' : (s.starts.insert call start).lookup n = some old := hold
    rw [FiniteMap.lookup_insert_ite] at hold'
    split at hold'
    next heq => cases hold'; exact ⟨heq ▸ hlt, hstart⟩
    next => exact inv.begun n old hold'
  · exact fun other answer hanswer n body htook => hkept (inv.answers other answer hanswer n body htook)
  · exact fun m hm => hkept (inv.minted m hm)

/-- The entry of a start enters the pending map, with its ticket. -/
theorem Inv.insertPending (inv : s.Inv setup) {response : K.CredentialResponse}
    {entry : PendingEntry} (hlook : s.inFlight.lookup call = some c)
    (hstage : c.stage = .insertPending response entry) {handshakeId : HandshakeId}
    {pending : PendingMap}
    (hinsert : AuthBroker.insertPending s.pending handshakeId entry = .ok pending)
    (answer : AuthResponse) : ({ s with pending := pending }.answer call answer).Inv setup := by
  rw [AuthBroker.insertPending] at hinsert
  split at hinsert
  next => cases hinsert
  next hfree =>
    cases hinsert
    have inv' := inv.answer call answer
    refine { inv' with affine := ?_, pending := ?_ }
    · have hticket : s.lies (.call call) = some entry.start := lies_call hlook hstage
      refine inv.affine.move (.call call) (.pending handshakeId) fun place n hlies => ?_
      rw [Handshakes.answer, lies_answerFinish] at hlies
      split at hlies
      next => cases hlies
      next hne =>
        cases place with
        | pending id =>
          simp only [lies, FiniteMap.lookup_insert_ite] at hlies
          split at hlies
          next heq => exact .inl ⟨heq ▸ rfl, hticket.trans hlies⟩
          next => exact .inr ⟨hne, hlies⟩
        | call other => exact .inr ⟨hne, hlies⟩
    · intro id found hfound
      have hfound' : (s.pending.insert handshakeId entry).lookup id = some found := hfound
      rw [FiniteMap.lookup_insert_ite] at hfound'
      split at hfound'
      next =>
        cases hfound'
        have hsound := inv.stages call c hlook
        rw [hstage] at hsound
        exact hsound
      next => exact inv.pending id found hfound'

/-- A finish takes an entry out of the pending map, with its ticket. -/
theorem Inv.takeEntry (inv : s.Inv setup) (hlook : s.inFlight.lookup call = some c)
    {id : HandshakeId} {entry : PendingEntry} (hentry : s.pending.lookup id = some entry)
    {body : LoginFinishRequest} {mint : Mint K} (hnumber : mint.start = entry.start)
    (hearned : ∃ start, s.starts.lookup mint.start = some start ∧ mint.Earned start)
    (issuedAt : Nat) :
    ({ s with pending := s.pending.erase id }.advance call c
      (.insertLease body mint issuedAt)).Inv setup := by
  have hrest : ∀ {k found}, (s.pending.erase id).lookup k = some found →
      k ≠ id ∧ s.pending.lookup k = some found := by
    intro k found hfound
    rw [FiniteMap.lookup_erase_ite] at hfound
    split at hfound
    next => cases hfound
    next hne => exact ⟨hne, hfound⟩
  refine { inv with affine := ?_, calls := ?_, stages := ?_, pending := ?_ }
  · have hticket : s.lies (.pending id) = some mint.start := by
      rw [lies, hentry, hnumber]
      rfl
    refine inv.affine.move (.pending id) (.call call) fun place n hlies => ?_
    rw [lies_advance] at hlies
    split at hlies
    next heq => exact .inl ⟨heq, hticket.trans hlies⟩
    next =>
      cases place with
      | pending k =>
        obtain ⟨found, hfound, rfl⟩ := Option.map_eq_some_iff.mp hlies
        obtain ⟨hne, hold⟩ := hrest hfound
        exact .inr ⟨fun h => hne (TicketPlace.pending.inj h),
          Option.map_eq_some_iff.mpr ⟨found, hold, rfl⟩⟩
      | call other => exact .inr ⟨nofun, hlies⟩
  · intro other c' hother
    obtain ⟨rfl, -⟩ | ⟨-, hother'⟩ := inFlight_advance hother
    · exact inv.calls other c hlook
    · exact inv.calls other c' hother'
  · intro other c' hother
    obtain ⟨rfl, rfl⟩ | ⟨-, hother'⟩ := inFlight_advance hother
    · exact hearned
    · exact inv.stages other c' hother'
  · exact fun k found hfound => inv.pending k found (hrest hfound).2

/-- A lease is inserted, and its ticket is spent. -/
theorem Inv.insertLease (inv : s.Inv setup) (hlook : s.inFlight.lookup call = some c)
    {body : LoginFinishRequest} {mint : Mint K} {issuedAt : Nat}
    (hstage : c.stage = .insertLease body mint issuedAt) {tenantExists : Bool} {id : LeaseId}
    {leases : LeaseStore}
    (hinsert : s.leases.insertLease tenantExists id mint.tenantId mint.bearer mint.sessionKey
      mint.leaseSecondsRequested issuedAt = some leases)
    {response : AuthResponse}
    (hanswer : (Answered.mk (some (mint.start, body)) response).Sound s.starts) :
    ({ s with leases := leases, minted := (id, mint) :: s.minted }.answerFinish call
      (some (mint.start, body)) response).Inv setup := by
  have inv' := inv.answerFinish call hanswer
  have hearned := inv.stages call c hlook
  rw [hstage] at hearned
  refine { inv' with affine := ?_, minted := ?_, indexed := ?_, rows := ?_ }
  · refine inv.affine.spend (.call call) (lies_call hlook hstage) fun place n hlies => ?_
    rw [lies_answerFinish] at hlies
    split at hlies
    next => cases hlies
    next hne => exact ⟨hne, hlies⟩
  · intro m hm
    obtain rfl | hm' := List.mem_cons.mp hm
    · exact hearned
    · exact inv.minted m hm'
  · exact (LeaseStore.insertLease_keeps inv.indexed hinsert).2
  · intro k row hrow
    obtain ⟨rfl, hrow'⟩ | hrow' := LeaseStore.lookup_insertLease hinsert hrow
    · exact ⟨_, List.mem_cons_self, rfl, hrow'.1, hrow'.2⟩
    · obtain ⟨m, hm, h⟩ := inv.rows k row hrow'
      exact ⟨m, List.mem_cons_of_mem _ hm, h⟩

theorem Inv.stored_of_load (inv : s.Inv setup) {tenantId : TenantId} {file : Option PasswordFile}
    (hload : s.loadPasswordFile K tenantId = .ok file) {found : PasswordFile}
    (hfound : file = some found) : Stored K s.registered (some tenantId) found := by
  rw [loadPasswordFile] at hload
  split at hload
  next =>
    cases hload
    cases hfound
  next bytes hbytes =>
    subst hfound
    refine ⟨tenantId, bytes, rfl, inv.files tenantId bytes hbytes, ?_⟩
    cases hfile : K.passwordFile bytes with
    | error err => rw [hfile] at hload; cases hload
    | ok other => rw [hfile] at hload; cases hload; rfl

theorem Inv.startStep (inv : s.Inv setup) (hlook : s.inFlight.lookup call = some c)
    {outcome : Outcome K} {stage : Stage K} (hstage : c.stage = stage) {s' : Handshakes K}
    (h : s.startStep setup call c outcome stage = some s') : s'.Inv setup := by
  have hlt := inv.calls call c hlook
  have hsound := inv.stages call c hlook
  rw [hstage] at hsound
  unfold Handshakes.startStep at h
  split at h
  next err _ _ => cases h; exact inv.answer call _
  next err _ _ _ => cases h; exact inv.answer call _
  next body request =>
    split at h
    next tenantId _ => cases h; exact inv.advance hlt _ nofun hsound
    next => cases h; exact inv.advance hlt _ nofun ⟨hsound, nofun⟩
  next body request tenantId =>
    split at h
    next file hload =>
      cases h
      exact inv.advance hlt _ nofun ⟨hsound, fun found hfound => inv.stored_of_load hload hfound⟩
    next err _ => cases h; exact inv.answer call _
  next coins body request tenantId file =>
    split at h
    next err _ => cases h; exact inv.answer call _
    next state response hstart =>
      cases h
      exact inv.begin hlt hsound.1 ⟨⟨coins, request, _, response, hstart⟩, hsound.2⟩
        ⟨rfl, rfl, rfl⟩ rfl response
  next response entry =>
    split at h
    next => cases h; exact inv.answer call _
    next pending hinsert => cases h; exact inv.insertPending hlook hstage hinsert _
  next => cases h

theorem takePending_sub {id found : HandshakeId} {now : Nat} {entry : PendingEntry}
    (h : (takePending K s.pending id now).2.lookup found = some entry) :
    s.pending.lookup found = some entry := by
  rw [takePending] at h
  split at h
  next => exact h
  next =>
    rw [FiniteMap.lookup_erase_ite] at h
    split at h
    next => cases h
    next => exact h

theorem Inv.finishStep (inv : s.Inv setup) (ideal : K.Ideal)
    (hlook : s.inFlight.lookup call = some c) {outcome : Outcome K} {stage : Stage K}
    (hstage : c.stage = stage) {s' : Handshakes K}
    (h : s.finishStep call c outcome stage = some s') : s'.Inv setup := by
  have hsound := inv.stages call c hlook
  rw [hstage] at hsound
  -- the start of a lease that is being inserted has a password file
  have hminting : ∀ {mint : Mint K} (body : LoginFinishRequest) (response : AuthResponse),
      (∃ start, s.starts.lookup mint.start = some start ∧ mint.Earned start) →
        (Answered.mk (some (mint.start, body)) response).Sound s.starts := by
    rintro mint body response ⟨start, hstart, hearned⟩ n body' htook
    cases htook
    obtain ⟨file, bytes, hfile, -⟩ := hearned.stored ideal (inv.begun _ start hstart).2
    refine ⟨start, hstart, fun hnone => ?_⟩
    rw [hfile] at hnone
    cases hnone
  unfold Handshakes.finishStep at h
  split at h
  next bearer issuedAt body =>
    simp only at h
    split at h
    next entry taken pending hentry htake =>
      rw [takePending, hentry] at htake
      obtain ⟨htaken, rfl⟩ := Prod.mk.inj htake
      obtain ⟨start, hstart, hholds⟩ := inv.pending _ entry hentry
      obtain ⟨htenant, hstate, htime⟩ := hholds.taken ideal htaken
      split at h
      next response hresponse =>
        cases h
        refine (inv.removePending fun k found hfound => ?_).answerFinish call ?_
        · rw [FiniteMap.lookup_erase_ite] at hfound
          split at hfound
          next => cases hfound
          next => exact hfound
        · intro n body' htook
          cases htook
          refine ⟨start, hstart, fun hnone => ?_⟩
          obtain ⟨other, hother, hwrong⟩ :=
            (inv.begun _ start hstart).2.wrongPassword ideal hnone hstate
          rw [hresponse] at hother
          cases hother
          exact hwrong
      next who hwho =>
        cases h
        obtain ⟨hid, hfinish⟩ := LoginFinishRequest.authenticate_eq_ok hwho
        refine inv.takeEntry hlook hentry rfl ⟨start, hstart, htenant ▸ hid, htime, ?_⟩ issuedAt
        rw [← hstate]
        exact hfinish
    next pending htake _ =>
      cases h
      refine (inv.removePending fun k found hfound => ?_).answer call _
      have hpending : pending = (takePending K s.pending body.handshakeId c.arrivedAt).2 := by
        rw [htake]
      rw [hpending] at hfound
      exact takePending_sub hfound
  next err body mint _ =>
    cases h
    exact inv.answerFinish call (hminting body _ hsound)
  next id body mint issuedAt =>
    split at h
    next => cases h
    next leases hinsert =>
      cases h
      exact inv.insertLease hlook hstage hinsert (hminting body _ hsound)
  next id err body mint issuedAt =>
    split at h
    next => cases h
    next leases hinsert =>
      cases h
      exact inv.insertLease hlook hstage hinsert (hminting body _ hsound)
  next => cases h

/-- A password file is stored, and what was stored before stays on record. -/
theorem Inv.register (inv : s.Inv setup) (tenantId : TenantId) (bytes : Bytes) :
    Inv setup { s with
      passwordFiles := s.passwordFiles.insert tenantId bytes
      registered := (tenantId, bytes) :: s.registered } := by
  have hstored : ∀ {id : Option TenantId} {file : PasswordFile}, Stored K s.registered id file →
      Stored K ((tenantId, bytes) :: s.registered) id file := by
    rintro id file ⟨tenant, old, hid, hmem, hfile⟩
    exact ⟨tenant, old, hid, List.mem_cons_of_mem _ hmem, hfile⟩
  refine { inv with stages := ?_, begun := ?_, files := ?_ }
  · intro call c hlook
    have hsound := inv.stages call c hlook
    show c.stage.Sound s.starts ((tenantId, bytes) :: s.registered) call
    cases hstage : c.stage <;> rw [hstage] at hsound
    case begin => exact ⟨hsound.1, fun file hfile => hstored (hsound.2 file hfile)⟩
    all_goals exact hsound
  · intro n start hstart
    obtain ⟨hlt, hbegan, hfile⟩ := inv.begun n start hstart
    exact ⟨hlt, hbegan, fun file h => hstored (hfile file h)⟩
  · intro id found hfound
    have hfound' : (s.passwordFiles.insert tenantId bytes).lookup id = some found := hfound
    rw [FiniteMap.lookup_insert_ite] at hfound'
    split at hfound'
    next heq => cases hfound'; rw [heq]; exact List.mem_cons_self
    next => exact List.mem_cons_of_mem _ (inv.files id found hfound')

theorem Inv.registerStep (inv : s.Inv setup) (hlook : s.inFlight.lookup call = some c)
    {outcome : Outcome K} {stage : Stage K} {s' : Handshakes K}
    (h : s.registerStep call c outcome stage = some s') : s'.Inv setup := by
  have hlt := inv.calls call c hlook
  unfold Handshakes.registerStep at h
  split at h
  next => cases h; exact inv.answer call _
  next => cases h; exact inv.answer call _
  next => cases h; exact inv.answer call _
  next =>
    split at h
    next => cases h; exact inv.answer call _
    next => cases h; exact inv.answer call _
    next => cases h; exact inv.advance hlt _ nofun trivial
  next => cases h; exact inv.answer call _
  next =>
    split at h
    next => cases h; exact inv.answer call _
    next => cases h; exact inv.advance hlt _ nofun trivial
  next body tenantId file =>
    split at h
    next => cases h
    next =>
      split at h
      next => cases h; exact inv.advance hlt _ nofun trivial
      next => cases h; exact (inv.register tenantId file.bytes).answer call _
  next =>
    split at h
    next => cases h; exact inv.answer call _
    next => cases h; exact inv.answer call _
  next => cases h

/-- The rows of leases that other handlers update keep what the login gave them. -/
theorem Inv.updateLeases (inv : s.Inv setup) {leases : LeaseStore} (hindexed : leases.Indexed)
    (hrows : ∀ id row, leases.lookup id = some row →
      ∃ old, s.leases.lookup id = some old ∧ old.Same row) :
    Inv setup { s with leases := leases } :=
  { inv with
    indexed := hindexed
    rows := fun id row hrow => by
      obtain ⟨old, hold, hsame⟩ := hrows id row hrow
      obtain ⟨m, hm, hid, htenant, hhash⟩ := inv.rows id old hold
      exact ⟨m, hm, hid, hsame.tenantId.trans htenant, hsame.bearerHash.trans hhash⟩ }

theorem Inv.runStep (inv : s.Inv setup) (ideal : K.Ideal)
    (hlook : s.inFlight.lookup call = some c) {outcome : Outcome K} {s' : Handshakes K}
    (h : s.runStep setup call c outcome = some s') : s'.Inv setup := by
  rw [Handshakes.runStep] at h
  cases hstage : c.stage <;> simp only [hstage] at h
  case lookupTenant => exact inv.startStep hlook hstage h
  case loadPasswordFile => exact inv.startStep hlook hstage h
  case begin => exact inv.startStep hlook hstage h
  case insertPending => exact inv.startStep hlook hstage h
  case take => exact inv.finishStep ideal hlook hstage h
  case insertLease => exact inv.finishStep ideal hlook hstage h
  all_goals exact inv.registerStep hlook h

/-- Every step keeps the invariant. -/
theorem Inv.next (inv : s.Inv setup) (ideal : K.Ideal) {event : HandshakeEvent K}
    {s' : Handshakes K} (h : s.next setup event = some s') : s'.Inv setup := by
  cases event with
  | tick elapsed => cases h; exact { inv with }
  | arrive request handshakeId => cases h; exact inv.arrive request handshakeId
  | run call outcome =>
    obtain ⟨c, hlook, hstep⟩ := Option.bind_eq_some_iff.mp h
    exact inv.runStep ideal hlook hstep
  | drop call => cases h; exact inv.erase call
  | sweep reading =>
    cases h
    exact inv.removePending fun id entry hentry =>
      ((FiniteMap.lookup_retain_eq_some _ s.pending id entry).mp hentry).1
  | restart =>
    cases h
    refine { inv with affine := ?_, calls := nofun, stages := nofun, pending := nofun }
    refine inv.affine.shrink fun place n hlies => ?_
    cases place <;> cases hlies
  | putTenant id name =>
    rw [Handshakes.next] at h
    split at h
    next => cases h; exact { inv with }
    next => cases h
  | deleteTenant id =>
    cases h
    have inv' := inv.updateLeases (inv.indexed.retain fun _ row => decide (row.tenantId ≠ id))
      fun k row hrow => ⟨row, ((FiniteMap.lookup_retain_eq_some _ s.leases k row).mp hrow).1, .refl row⟩
    refine { inv' with files := fun tenantId bytes hfile => ?_ }
    rw [FiniteMap.lookup_erase_ite] at hfile
    split at hfile
    next => cases hfile
    next => exact inv.files tenantId bytes hfile
  | validate bearer time =>
    cases h
    exact inv.updateLeases (LeaseStore.validateAndExtend_keeps inv.indexed).2
      fun id row hrow => LeaseStore.lookup_validateAndExtend inv.indexed hrow
  | revoke hash time =>
    cases h
    have hrow : ∀ found, s.leases.findByHash hash = some found →
        s.leases.lookup found.id = some found :=
      fun found hfound => (LeaseStore.findByHash_eq_some hfound inv.indexed).1
    exact inv.updateLeases (LeaseStore.revokeRow_keeps inv.indexed hrow).2
      fun id row hlook => LeaseStore.lookup_revokeRow hrow hlook
  | revokeById lease time =>
    cases h
    have hrow : ∀ found, s.leases.lookup lease = some found →
        s.leases.lookup found.id = some found := by
      intro found hfound
      rw [inv.indexed.id_eq lease found hfound]
      exact hfound
    exact inv.updateLeases (LeaseStore.revokeRow_keeps inv.indexed hrow).2
      fun id row hlook => LeaseStore.lookup_revokeRow hrow hlook

theorem Inv.init : (Handshakes.init : Handshakes K).Inv setup where
  affine := Affine.init fun place => by cases place <;> rfl
  calls := nofun
  stages := nofun
  pending := nofun
  begun := nofun
  answers := nofun
  minted := nofun
  files := nofun
  indexed := ⟨nofun, nofun, nofun⟩
  rows := nofun

theorem inv_of_reachable (ideal : K.Ideal) (h : (handshakes K setup).Reachable s) : s.Inv setup :=
  h.invariant (fun t ht => by cases ht; exact Inv.init) fun t event t' inv _ hnext =>
    inv.next ideal hnext

end Handshakes

-- ════════════════════════════════════════════════════════════════════════
-- Leases and their handshakes
-- ════════════════════════════════════════════════════════════════════════

/-- A lease is owed to its start: the start found a password file that was stored
    for the tenant of the lease, and the finish came in time and completed the
    login of this start. -/
structure Mint.Owed (K : OpaqueKe) (registered : List (TenantId × Bytes)) (mint : Mint K)
    (start : Start K) : Prop where
  earned : mint.Earned start
  stored : ∃ file bytes, start.passwordFile = some file ∧ (mint.tenantId, bytes) ∈ registered ∧
    K.passwordFile bytes = .ok file

/-- In every reachable state, no two inserted leases have one start; every row of
    the lease table, and every lease that was ever inserted, is owed to a start; and
    a start without a password file has no lease, and a finish that took its entry
    was answered as a wrong password is. -/
theorem handshake_mints_one_lease {K : OpaqueKe} (ideal : K.Ideal) {setup : Bytes}
    {s : Handshakes K} (h : (handshakes K setup).Reachable s) :
    s.spent.Nodup ∧
      (∀ id row, s.leases.lookup id = some row → ∃ m ∈ s.minted, m.1 = id ∧ m.2.Row row) ∧
      (∀ m ∈ s.minted, ∃ start, s.starts.lookup m.2.start = some start ∧
        m.2.Owed K s.registered start) ∧
      ∀ n start, s.starts.lookup n = some start → start.passwordFile = none →
        n ∉ s.spent ∧ ∀ call answer body, s.answers.lookup call = some answer →
          answer.took = some (n, body) → body.WrongPassword K answer.response := by
  have inv := Handshakes.inv_of_reachable ideal h
  have howed : ∀ m ∈ s.minted, ∃ start, s.starts.lookup m.2.start = some start ∧
      m.2.Owed K s.registered start := by
    intro m hm
    obtain ⟨start, hstart, hearned⟩ := inv.minted m hm
    exact ⟨start, hstart, hearned, hearned.stored ideal (inv.begun _ start hstart).2⟩
  refine ⟨inv.affine.spent_once, inv.rows, howed, fun n start hstart hnone => ⟨fun hspent => ?_, ?_⟩⟩
  · obtain ⟨m, hm, rfl⟩ := List.mem_map.mp hspent
    obtain ⟨other, hother, how⟩ := howed m hm
    obtain ⟨file, bytes, hfile, -⟩ := how.stored
    rw [hstart] at hother
    cases hother
    rw [hnone] at hfile
    cases hfile
  · intro call answer body hanswer htook
    obtain ⟨other, hother, hwrong⟩ := inv.answers call answer hanswer n body htook
    rw [hstart] at hother
    cases hother
    exact hwrong hnone

/-- A stand-in for the library: the registration is the password, and a
    finalisation must present it with the server's nonce. -/
def plainOpaque : OpaqueKe where
  ServerSetup := Bytes
  ServerRegistration := Bytes
  RegistrationUpload := Bytes
  CredentialRequest := Bytes
  CredentialResponse := Bytes
  CredentialFinalization := Bytes
  ServerLogin := Option Bytes
  Coins := Bytes
  deserializeSetup := .ok
  deserializeRegistration := .ok
  serializeRegistration := id
  deserializeUpload := .ok
  deserializeRequest := .ok
  serializeResponse := id
  deserializeFinalization := .ok
  serializeLogin
    | none => []
    | some expected => 1 :: expected
  deserializeLogin
    | [] => .ok none
    | _ :: expected => .ok (some expected)
  finishRegistration := id
  start coins _ registration _ _ := .ok (registration.map (· ++ coins), coins)
  finish login finalization :=
    if login = some finalization then .ok finalization else .error .invalidLoginError

theorem plainOpaque_ideal : plainOpaque.Ideal where
  deserialize_serialize login := by cases login <;> rfl
  dummy coins setup request credential login response h finalization := by
    cases h
    rfl

/-- The tenant "acme" registers and logs in; a login for "ghost", which is no
    tenant, presents the server's nonce alone. -/
private def handshakeRun : List (HandshakeEvent plainOpaque) :=
  let start (tenant : String) : AuthRequest := .loginStart ⟨tenant, tenant, .encoded [3], none⟩
  [.putTenant 1 "acme",
    .arrive (.registerFinish ⟨"acme", .encoded [7], some "otp"⟩) 0,
    .run 0 .ok, .run 0 (.otp (.ok ())), .run 0 .ok,
    .arrive (start "acme") 10, .run 1 .ok, .run 1 .ok, .run 1 (.coins ([5] : Bytes)), .run 1 .ok,
    .arrive (start "ghost") 11, .run 2 .ok, .run 2 (.coins ([6] : Bytes)), .run 2 .ok,
    .arrive (.loginFinish ⟨10, .encoded [7, 5]⟩) 0, .run 3 (.bearer (Sample.bearer 4) 0),
    .run 3 (.row 20),
    .arrive (.loginFinish ⟨11, .encoded [6]⟩) 0, .run 4 (.bearer (Sample.bearer 5) 0)]

theorem handshake_mints_one_lease_ghost :
    ∃ s : Handshakes plainOpaque, s.spent = [1] ∧
      (s.answers.lookup 4).map Answered.response = some (.unauthorized .invalidBearer none) ∧
      s.spent.Nodup ∧ ∀ m ∈ s.minted, ∃ start, s.starts.lookup m.2.start = some start ∧
        m.2.Owed plainOpaque s.registered start := by
  have hexec : ((handshakes plainOpaque []).execUnder (fun _ _ => True) Handshakes.init
      handshakeRun).any (fun s => s.spent = [1] && (s.answers.lookup 4).map Answered.response =
        some (.unauthorized .invalidBearer none)) = true := by
    decide +kernel
  obtain ⟨s, hrun, hs⟩ := Machine.exists_run_of_execUnder _ hexec
  simp only [Bool.and_eq_true, decide_eq_true_eq] at hs
  obtain ⟨hnodup, -, howed, -⟩ := handshake_mints_one_lease plainOpaque_ideal ⟨_, rfl, hrun⟩
  exact ⟨s, hs.1, hs.2, hnodup, howed⟩

end Botwork.AuthBroker
