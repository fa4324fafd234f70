import Botwork.AuthBroker.SecretRoutes
import Botwork.AuthBroker.Turns

/-!
# The lease of a secret write

A write picks the newest live lease of its tenant from the table and then asks
the process for the key of that one lease.  The table and the keys are filled and
expired by different events: a restart forgets every key, `/auth/check` brings
back the key of the lease it validates, and a key that no check renews is
forgotten after five minutes.  `write_finds_usable_lease` says when a tenant with
a usable lease is served.

## Main definitions

- `brokerProcess` — the auth-broker and its restarts
- `Broker.HasUsableLease` — a live lease of the tenant has its key remembered
- `Broker.Answers` — a request that runs alone is answered so
-/

namespace Botwork.AuthBroker

open Botwork.Foundations Botwork.Vault

/-! ### Restarts -/

/-- The broker is started anew: the tables and the files stay, what the process
    holds is gone. -/
def Broker.restart (s : Broker) : Broker :=
  { s with
    leaseExportKeys := ∅
    cache := ∅
    caps := ∅
    writeLocks := ∅
    inFlight := ∅
    vaults := s.vaults.mapValues fun root => { root with lockedBy := none, handles := ∅ } }

inductive ProcessEvent where
  | broker (event : Event)
  | restart

/-- The auth-broker, stopped and started any number of times. -/
def brokerProcess (hkdf : Bytes → Bytes → UInt8 → Bytes) : Machine Broker ProcessEvent where
  Start := (authBroker hkdf).Start
  next s
    | .broker event => s.next hkdf event
    | .restart => some s.restart

/-! ### The property -/

/-- What `no_active_lease` answers. -/
def noActiveLease : Reply := .error 503 "no_active_lease"

namespace Broker

/-- `lease_export_key` finds the key. -/
def remembers (s : Broker) (id : LeaseId) : Bool := (s.exportKey? id).1.isSome

def HasUsableLease (s : Broker) (tenantId : TenantId) : Prop :=
  ∃ id row, s.leases.lookup id = some row ∧ row.tenantId = tenantId ∧ row.dead s.now = false ∧
    s.remembers id = true

theorem remembers_eq (s : Broker) (id : LeaseId) : s.remembers id =
    (s.leaseExportKeys.lookup id).any fun entry => s.now - entry.1 ≤ leaseExportKeyTtl := by
  rw [remembers]
  fun_cases exportKey? s id
  next hlook => rw [hlook]; rfl
  next writtenAt key hlook hstale =>
    rw [hlook, Option.any_some, decide_eq_false (Nat.not_le.mpr hstale)]
    rfl
  next writtenAt key hlook hfresh =>
    rw [hlook, Option.any_some, decide_eq_true (Nat.not_lt.mp hfresh)]
    rfl

/-- The key of every lease that `find_active_lease_for_tenant` may return is there. -/
def RemembersNewest (s : Broker) (tenantId : TenantId) : Prop :=
  ∀ id row, s.leases.lookup id = some row → s.leases.isNewestActive tenantId s.now row = true →
    s.remembers id = true

variable (hkdf : Bytes → Bytes → UInt8 → Bytes)

/-- The request arrives, makes its own steps only, and is answered so. -/
def Answers (s : Broker) (request : Request) (reply : Reply) : Prop :=
  ∃ (choices : List Choice) (s' : Broker), (authBroker hkdf).exec (s.arrive request)
      (choices.map (Event.run s.arrivals)) = some s' ∧
    (s'.answers.lookup s.arrivals).map (·.reply) = some reply

end Broker

variable {hkdf : Bytes → Bytes → UInt8 → Bytes} {s s' : Broker} {r : Nat} {f : InFlight}
  {choice : Choice} {pc : Pc} {request : Request} {tenant : String} {tenantId : TenantId}

/-! ### Numbers of requests -/

/-- No request has a number that is still to come. -/
def Broker.Numbered (s : Broker) : Prop :=
  ∀ r, s.arrivals ≤ r → s.inFlight.lookup r = none ∧ s.answers.lookup r = none

theorem numbered_arrive (h : s.Numbered) : (s.arrive request).Numbered := by
  cases hentry : request.entry s.adminKey with
  | error reply =>
    simp only [Broker.arrive, hentry]
    intro r hle
    have hlt : s.arrivals + 1 ≤ r := hle
    have hne : r ≠ s.arrivals := by omega
    obtain ⟨hflight, hanswer⟩ := h r (Nat.le_of_succ_le hlt)
    refine ⟨?_, ?_⟩
    · show (s.inFlight.erase s.arrivals).lookup r = none
      rw [FiniteMap.lookup_erase_ite, if_neg hne, hflight]
    · show (s.answers.insert s.arrivals _).lookup r = none
      rw [FiniteMap.lookup_insert_ite, if_neg hne, hanswer]
  | ok pc =>
    simp only [Broker.arrive, hentry]
    intro r hle
    have hlt : s.arrivals + 1 ≤ r := hle
    have hne : r ≠ s.arrivals := by omega
    obtain ⟨hflight, hanswer⟩ := h r (Nat.le_of_succ_le hlt)
    refine ⟨?_, hanswer⟩
    show (s.inFlight.insert s.arrivals _).lookup r = none
    rw [FiniteMap.lookup_insert_ite, if_neg hne, hflight]

theorem numbered_next {event : ProcessEvent} (h : s.Numbered)
    (hnext : (brokerProcess hkdf).next s event = some s') : s'.Numbered := by
  cases event with
  | restart =>
    cases hnext
    exact fun r hle => ⟨rfl, (h r hle).2⟩
  | broker event =>
    cases event with
    | tick elapsed => cases hnext; exact h
    | arrive request => cases hnext; exact numbered_arrive h
    | drop r =>
      obtain ⟨f, -, hdrop⟩ := Option.bind_eq_some_iff.mp hnext
      split at hdrop
      next => cases hdrop
      next =>
        cases hdrop
        intro r' hle
        refine ⟨?_, (h r' hle).2⟩
        show (s.inFlight.erase r).lookup r' = none
        rw [FiniteMap.lookup_erase_ite]
        split
        next => rfl
        next => exact (h r' hle).1
    | run r choice =>
      obtain ⟨f, hlook, hstep⟩ := Option.bind_eq_some_iff.mp hnext
      have hturn := turn_of_step hstep
      intro r' hle
      rw [hturn.arrivals] at hle
      have hne : r' ≠ r := by
        rintro rfl
        rw [(h r' hle).1] at hlook
        cases hlook
      rw [(hturn.flights.others hne).1, (hturn.flights.others hne).2]
      exact h r' hle

theorem numbered_of_reachable (hreach : (brokerProcess hkdf).Reachable s) : s.Numbered := by
  refine hreach.invariant (fun t ht => ?_) fun t event t' h _ hnext => numbered_next h hnext
  obtain ⟨adminKey, ttl, tenants, rfl⟩ := ht
  exact fun r _ => ⟨rfl, rfl⟩

/-! ### Behind the lease -/

/-- The points of a write that has its lease. -/
def Pc.hasLease : Pc → Bool
  | .writeLock _ | .writeUnlock _ | .writeUnlocking _ | .writePut _ | .writePersisting _ _ => true
  | _ => false

/-- What a step of a write that has its lease does: it goes on or is answered, and
    not by `no_active_lease`. -/
inductive LeaseTurn (s : Broker) (r : Nat) (f : InFlight) (s' : Broker) : Prop
  | stays (hflights : s'.inFlight = s.inFlight) (hanswers : s'.answers = s.answers)
  | moves (pc : Pc) (hpc : pc.hasLease = true)
      (hflights : s'.inFlight = s.inFlight.insert r { f with pc := pc })
      (hanswers : s'.answers = s.answers)
  | replies (a : Answer) (hreply : a.reply ≠ noActiveLease)
      (hflights : s'.inFlight = s.inFlight.erase r)
      (hanswers : s'.answers = s.answers.insert r a)

theorem writeReply_ne (write : Write) (existed : Bool) (outcome : Except VaultError Unit) :
    Broker.writeReply write existed outcome ≠ noActiveLease := by
  fun_cases Broker.writeReply write existed outcome <;> simp [noActiveLease]

theorem secretWrite_ne {unixNow : Int} {reply : Reply}
    (h : request.secretWrite unixNow = .error reply) : reply ≠ noActiveLease := by
  revert h
  fun_cases Request.secretWrite unixNow request <;> intro h <;> cases h <;> simp [noActiveLease]

theorem leaseTurn_writeStep (hlease : pc.hasLease = true)
    (hstep : s.writeStep hkdf r f choice pc = some s') : LeaseTurn s r f s' := by
  revert hstep
  fun_cases Broker.writeStep hkdf s r f choice pc <;> intro hstep
  all_goals try cases hlease
  all_goals try cases hstep
  · -- writeLock
    exact .moves _ rfl rfl rfl
  · -- writeUnlock fails
    exact .replies _ (by simp [noActiveLease]) rfl rfl
  · -- writeUnlock
    obtain ⟨s₁, hstart, rfl⟩ := Option.map_eq_some_iff.mp hstep
    obtain ⟨root, rfl⟩ := startCall_eq hstart
    exact .moves _ rfl rfl rfl
  · obtain ⟨root, rfl⟩ := insideCall_eq hstep
    exact .stays rfl rfl
  · -- writeUnlocking
    obtain ⟨⟨hd, outcome⟩, -, rfl⟩ := Option.map_eq_some_iff.mp hstep
    cases outcome with
    | ok => exact .moves _ rfl rfl rfl
    | error err => exact .replies _ (by simp [noActiveLease]) rfl rfl
  · -- writePut
    obtain ⟨hd, -, hout⟩ := Option.bind_eq_some_iff.mp hstep
    obtain ⟨u, -, hout⟩ := Option.bind_eq_some_iff.mp hout
    simp only at hout
    split at hout
    next => cases hout; exact .replies _ (by simp [noActiveLease]) rfl rfl
    next =>
      obtain ⟨s₁, hstart, rfl⟩ := Option.map_eq_some_iff.mp hout
      obtain ⟨root, rfl⟩ := startCall_eq hstart
      exact .moves _ rfl rfl rfl
  · obtain ⟨root, rfl⟩ := insideCall_eq hstep
    exact .stays rfl rfl
  · -- writePersisting
    rename_i job existed
    obtain ⟨⟨hd, outcome⟩, -, rfl⟩ := Option.map_eq_some_iff.mp hstep
    cases outcome with
    | ok =>
      obtain ⟨stored, heq⟩ := keepWritten_eq s job
      simp only [heq]
      exact .replies _ (writeReply_ne job.write existed (.ok ())) rfl rfl
    | error err => exact .replies _ (writeReply_ne job.write existed (.error err)) rfl rfl

/-- Request `r` is past its lease, or answered, and not by `no_active_lease`. -/
structure Broker.PastLease (s : Broker) (r : Nat) : Prop where
  flight : ∀ f, s.inFlight.lookup r = some f → f.pc.hasLease = true
  answer : ∀ a, s.answers.lookup r = some a → a.reply ≠ noActiveLease

theorem pastLease_step (h : s.PastLease r)
    (hnext : s.next hkdf (.run r choice) = some s') : s'.PastLease r := by
  obtain ⟨f, hlook, hstep⟩ := Option.bind_eq_some_iff.mp hnext
  have hpc := h.flight f hlook
  have hturn : LeaseTurn s r f s' := by
    unfold Broker.step at hstep
    split at hstep
    all_goals try (rename_i heq; rw [heq] at hpc; cases hpc; done)
    all_goals exact leaseTurn_writeStep hpc hstep
  cases hturn with
  | stays hflights hanswers => exact ⟨hflights ▸ h.flight, hanswers ▸ h.answer⟩
  | moves pc hpc hflights hanswers =>
    refine ⟨fun f' hlook' => ?_, hanswers ▸ h.answer⟩
    rw [hflights, AList.lookup_insert] at hlook'
    cases hlook'
    exact hpc
  | replies a hreply hflights hanswers =>
    refine ⟨fun f' hlook' => ?_, fun a' ha' => ?_⟩
    · rw [hflights, AList.lookup_erase] at hlook'
      cases hlook'
    · rw [hanswers, AList.lookup_insert] at ha'
      cases ha'
      exact hreply

/-! ### Up to the lease -/

namespace Broker

/-- A write has arrived and is before `pc`; nothing else has happened. -/
def waiting (s : Broker) (request : Request) (pc : Pc) : Broker :=
  { s with
    arrivals := s.arrivals + 1
    inFlight := s.inFlight.insert s.arrivals ⟨request, s.now, s.closed, pc⟩ }

theorem arrive_write (hwrite : request.vaultTenant = some tenant) :
    s.arrive request = s.waiting request (.writeTenant tenant) := by
  cases request with
  | store body => cases hwrite; rfl
  | deleteSecret tenant key => cases hwrite; rfl
  | _ => cases hwrite

theorem next_waiting : (s.waiting request pc).next hkdf (.run s.arrivals choice) =
    (s.waiting request pc).step hkdf s.arrivals ⟨request, s.now, s.closed, pc⟩ choice := by
  show ((s.inFlight.insert s.arrivals _).lookup s.arrivals).bind _ = _
  rw [AList.lookup_insert]
  rfl

theorem advance_waiting (pc' : Pc) :
    (s.waiting request pc).advance s.arrivals ⟨request, s.now, s.closed, pc⟩ pc' =
      s.waiting request pc' := by
  simp only [advance, waiting, AList.insert_insert]

theorem pastLease_answer {t : Broker} {reply : Reply} (hreply : reply ≠ noActiveLease) :
    (t.answer r f reply).PastLease r := by
  refine ⟨fun f' hlook => ?_, fun a hlook => ?_⟩
  · have hlook' : (t.inFlight.erase r).lookup r = some f' := hlook
    rw [AList.lookup_erase] at hlook'
    cases hlook'
  · have hlook' : (t.answers.insert r _).lookup r = some a := hlook
    rw [AList.lookup_insert] at hlook'
    cases hlook'
    exact hreply

theorem remembers_waiting (id : LeaseId) : (s.waiting request pc).remembers id = s.remembers id := by
  rw [remembers_eq, remembers_eq]
  rfl

theorem noneActive_of_usable (h : s.HasUsableLease tenantId) :
    s.leases.noneActive tenantId s.now = false := by
  obtain ⟨id, row, hlook, htenant, hdead, -⟩ := h
  rw [Bool.eq_false_iff]
  intro hnone
  have hrow := (FiniteMap.all_eq_true_iff _ _).mp hnone id row hlook
  rw [hdead, Bool.or_false, decide_eq_true_eq] at hrow
  exact hrow htenant

end Broker

/-- Where a write of the tenant stands that arrived at `s` and runs alone. -/
inductive Alone (s : Broker) (request : Request) (tenant : String) (tenantId : TenantId) :
    Broker → Prop
  | tenant : Alone s request tenant tenantId (s.waiting request (.writeTenant tenant))
  | lease : Alone s request tenant tenantId (s.waiting request (.writeLease tenant tenantId))
  | key (id : LeaseId) (hremembers : s.remembers id = true) :
      Alone s request tenant tenantId (s.waiting request (.writeKey tenant tenantId id))
  | past {t : Broker} (hpast : t.PastLease s.arrivals) : Alone s request tenant tenantId t

theorem alone_step {t t' : Broker} (htenant : s.tenantId? tenant = some tenantId)
    (husable : s.HasUsableLease tenantId) (hnewest : s.RemembersNewest tenantId)
    (hanswers : s.answers.lookup s.arrivals = none) (h : Alone s request tenant tenantId t)
    (hnext : t.next hkdf (.run s.arrivals choice) = some t') :
    Alone s request tenant tenantId t' := by
  cases h with
  | past hpast => exact .past (pastLease_step hpast hnext)
  | tenant =>
    rw [Broker.next_waiting] at hnext
    cases choice with
    | ok =>
      have htenant' : (s.waiting request (.writeTenant tenant)).tenantId? tenant = some tenantId :=
        htenant
      simp only [Broker.step, Broker.writeStep, htenant', Option.some.injEq] at hnext
      rw [← hnext, Broker.advance_waiting]
      exact .lease
    | fail =>
      cases hnext
      exact .past (Broker.pastLease_answer (by simp [noActiveLease]))
    | _ => cases hnext
  | lease =>
    rw [Broker.next_waiting] at hnext
    cases choice with
    | ok =>
      have hnone : (s.waiting request (.writeLease tenant tenantId)).leases.noneActive tenantId
          (s.waiting request (.writeLease tenant tenantId)).now = false := by
        show s.leases.noneActive tenantId s.now = false
        exact Broker.noneActive_of_usable husable
      simp only [Broker.step, Broker.writeStep, hnone, Bool.false_eq_true, if_false,
        reduceCtorEq] at hnext
    | fail =>
      cases hnext
      exact .past (Broker.pastLease_answer (by simp [noActiveLease]))
    | row id =>
      obtain ⟨row, hlook, hrow⟩ := Option.bind_eq_some_iff.mp hnext
      split at hrow
      next hactive =>
        cases hrow
        rw [Broker.advance_waiting]
        exact .key id (hnewest id row hlook hactive)
      next => cases hrow
    | _ => cases hnext
  | key id hremembers =>
    rw [Broker.next_waiting] at hnext
    cases choice with
    | ok =>
      simp only [Broker.step, Broker.writeStep] at hnext
      split at hnext
      next t₁ hkey =>
        rw [← Broker.remembers_waiting, Broker.remembers, hkey] at hremembers
        cases hremembers
      next exportKey t₁ hkey =>
        split at hnext
        next reply hrefused =>
          cases hnext
          exact .past (Broker.pastLease_answer (secretWrite_ne hrefused))
        next write overwrite _ =>
          cases hnext
          obtain ⟨keys, rfl⟩ := exportKey?_eq hkey
          refine .past ⟨fun f' hlook => ?_, fun a hlook => ?_⟩
          · have hlook' : ((s.inFlight.insert s.arrivals _).insert s.arrivals _).lookup
                s.arrivals = some f' := hlook
            rw [AList.lookup_insert] at hlook'
            cases hlook'
            rfl
          · have hlook' : s.answers.lookup s.arrivals = some a := hlook
            rw [hanswers] at hlook'
            cases hlook'
    | _ => cases hnext

theorem alone_exec {choices : List Choice} {t t' : Broker}
    (htenant : s.tenantId? tenant = some tenantId) (husable : s.HasUsableLease tenantId)
    (hnewest : s.RemembersNewest tenantId) (hanswers : s.answers.lookup s.arrivals = none)
    (h : Alone s request tenant tenantId t)
    (hexec : (authBroker hkdf).exec t (choices.map (Event.run s.arrivals)) = some t') :
    Alone s request tenant tenantId t' := by
  induction choices generalizing t with
  | nil => cases hexec; exact h
  | cons choice choices ih =>
    obtain ⟨u, hnext, hrest⟩ := Option.bind_eq_some_iff.mp hexec
    exact ih (alone_step htenant husable hnewest hanswers h hnext) hrest

theorem alone_answer {t : Broker} {a : Answer} (hanswers : s.answers.lookup s.arrivals = none)
    (h : Alone s request tenant tenantId t) (hlook : t.answers.lookup s.arrivals = some a) :
    a.reply ≠ noActiveLease := by
  cases h with
  | past hpast => exact hpast.answer a hlook
  | _ =>
    have hlook' : s.answers.lookup s.arrivals = some a := hlook
    rw [hanswers] at hlook'
    cases hlook'

/-- A newest lease whose key is not there is answered for. -/
theorem answers_noActiveLease (hwrite : request.vaultTenant = some tenant)
    (htenant : s.tenantId? tenant = some tenantId) {id : LeaseId} {row : LeaseRow}
    (hlook : s.leases.lookup id = some row)
    (hactive : s.leases.isNewestActive tenantId s.now row = true)
    (hforgotten : s.remembers id = false) : s.Answers hkdf request noActiveLease := by
  have htenant' : (s.waiting request (.writeTenant tenant)).next hkdf (.run s.arrivals .ok) =
      some (s.waiting request (.writeLease tenant tenantId)) := by
    have h : (s.waiting request (.writeTenant tenant)).tenantId? tenant = some tenantId := htenant
    rw [Broker.next_waiting]
    simp only [Broker.step, Broker.writeStep, h, Broker.advance_waiting]
  have hlease : (s.waiting request (.writeLease tenant tenantId)).next hkdf
      (.run s.arrivals (.row id)) = some (s.waiting request (.writeKey tenant tenantId id)) := by
    have h : (s.waiting request (.writeLease tenant tenantId)).leases.lookup id = some row := hlook
    have hrow : (s.waiting request (.writeLease tenant tenantId)).leases.isNewestActive tenantId
        (s.waiting request (.writeLease tenant tenantId)).now row = true := hactive
    rw [Broker.next_waiting]
    simp only [Broker.step, Broker.writeStep, h, Option.bind_some, hrow, if_true,
      Broker.advance_waiting]
  have hkey : ∃ t, (s.waiting request (.writeKey tenant tenantId id)).next hkdf
      (.run s.arrivals .ok) = some t ∧
        (t.answers.lookup s.arrivals).map (·.reply) = some noActiveLease := by
    rw [Broker.next_waiting]
    simp only [Broker.step, Broker.writeStep]
    split
    next t₁ _ =>
      refine ⟨_, rfl, ?_⟩
      show ((t₁.answers.insert s.arrivals _).lookup s.arrivals).map _ = _
      rw [AList.lookup_insert]
      rfl
    next exportKey t₁ hkey =>
      rw [← Broker.remembers_waiting, Broker.remembers, hkey] at hforgotten
      cases hforgotten
  obtain ⟨t, hnext, hreply⟩ := hkey
  refine ⟨[.ok, .row id, .ok], t, ?_, hreply⟩
  rw [Broker.arrive_write hwrite]
  show ((s.waiting request (.writeTenant tenant)).next hkdf (.run s.arrivals .ok)).bind _ = _
  rw [htenant', Option.bind_some]
  show ((s.waiting request (.writeLease tenant tenantId)).next hkdf (.run s.arrivals (.row id))).bind _ = _
  rw [hlease, Option.bind_some]
  show ((s.waiting request (.writeKey tenant tenantId id)).next hkdf (.run s.arrivals .ok)).bind _ = _
  rw [hnext, Option.bind_some]
  rfl

/-- **A secret write finds a usable lease** exactly when no newest live lease of the
    tenant lacks its key. -/
theorem write_finds_usable_lease (hreach : (brokerProcess hkdf).Reachable s)
    (hwrite : request.vaultTenant = some tenant) (htenant : s.tenantId? tenant = some tenantId) :
    (s.HasUsableLease tenantId → ¬ s.Answers hkdf request noActiveLease) ↔
      (s.HasUsableLease tenantId → s.RemembersNewest tenantId) := by
  refine forall_congr' fun husable => ⟨fun hserved id row hlook hactive => ?_, ?_⟩
  · by_contra hforgotten
    exact hserved (answers_noActiveLease hwrite htenant hlook hactive
      (Bool.eq_false_iff.mpr hforgotten))
  · rintro hnewest ⟨choices, t, hexec, hreply⟩
    have hanswers := (numbered_of_reachable hreach s.arrivals (Nat.le_refl _)).2
    obtain ⟨a, hlook, hnone⟩ := Option.map_eq_some_iff.mp hreply
    rw [Broker.arrive_write hwrite] at hexec
    exact alone_answer hanswers (alone_exec htenant husable hnewest hanswers .tenant hexec) hlook
      hnone

/-- A deletion in the vault of the tenant "acme". -/
def sampleDeletion : Request := .deleteSecret "acme" ⟨"github", "token"⟩

/-- Lease 105 is usable and serves the deletion. -/
theorem write_finds_usable_lease_acme : ∃ s, (brokerProcess Sample.hkdf).Reachable s ∧
    s.HasUsableLease 1 ∧ ¬ s.Answers Sample.hkdf sampleDeletion noActiveLease := by
  have hexec : ((brokerProcess Sample.hkdf).execUnder (fun _ _ => True) Sample.start
      ((Sample.loginRun 0 5).map .broker)).any (fun s => s.tenantId? "acme" = some 1 &&
        ((s.leases.lookup 105).any fun row => row.tenantId = 1 && !row.dead s.now) &&
        s.remembers 105 && s.leases.all fun id row =>
          !s.leases.isNewestActive 1 s.now row || s.remembers id) = true := by decide +kernel
  obtain ⟨s, hrun, hs⟩ := Machine.exists_run_of_execUnder _ hexec
  simp only [Bool.and_eq_true, decide_eq_true_eq] at hs
  obtain ⟨⟨⟨htenant, hlive⟩, hremembers⟩, hnewest⟩ := hs
  have hreach : (brokerProcess Sample.hkdf).Reachable s := ⟨Sample.start, ⟨_, _, _, rfl⟩, hrun⟩
  obtain ⟨row, hlook, hrow⟩ := (Option.any_eq_true _ _).mp hlive
  simp only [Bool.and_eq_true, decide_eq_true_eq, Bool.not_eq_true'] at hrow
  have husable : s.HasUsableLease 1 := ⟨105, row, hlook, hrow.1, hrow.2, hremembers⟩
  refine ⟨s, hreach, husable, (write_finds_usable_lease hreach rfl htenant).mpr ?_ husable⟩
  intro _ id row' hlook' hactive
  have h := (FiniteMap.all_eq_true_iff _ _).mp hnewest id row' hlook'
  rw [hactive, Bool.not_true, Bool.false_or] at h
  exact h

/-- A second login that is then left idle: `/auth/check` goes on with the first one. -/
def idleSecondLogin : List Event :=
  Sample.loginRun 0 5 ++ [.tick (seconds 1)] ++ Sample.loginRun 1 6 ++ [.tick (seconds 240)] ++
    Sample.checkHead 2 5 ++ [.tick (seconds 120)]

/-- The write asks for the key of the idle lease and turns the tenant away, with the
    lease that is in use at hand. -/
theorem idle_login_hides_usable_lease : ¬ ∀ s request tenant tenantId,
    (brokerProcess Sample.hkdf).Reachable s → request.vaultTenant = some tenant →
    s.tenantId? tenant = some tenantId → s.HasUsableLease tenantId →
    ¬ s.Answers Sample.hkdf request noActiveLease := by
  intro h
  have hexec : ((brokerProcess Sample.hkdf).execUnder (fun _ _ => True) Sample.start
      (idleSecondLogin.map .broker)).any (fun s => s.tenantId? "acme" = some 1 &&
        ((s.leases.lookup 105).any fun row => row.tenantId = 1 && !row.dead s.now) &&
        s.remembers 105 && (s.leases.lookup 106).any (s.leases.isNewestActive 1 s.now) &&
        !s.remembers 106) = true := by decide +kernel
  obtain ⟨s, hrun, hs⟩ := Machine.exists_run_of_execUnder _ hexec
  simp only [Bool.and_eq_true, decide_eq_true_eq, Bool.not_eq_true'] at hs
  obtain ⟨⟨⟨⟨htenant, hlive⟩, hremembers⟩, hnewest⟩, hforgotten⟩ := hs
  obtain ⟨row, hlook, hrow⟩ := (Option.any_eq_true _ _).mp hlive
  simp only [Bool.and_eq_true, decide_eq_true_eq, Bool.not_eq_true'] at hrow
  obtain ⟨row', hlook', hactive⟩ := (Option.any_eq_true _ _).mp hnewest
  exact h s sampleDeletion "acme" 1 ⟨Sample.start, ⟨_, _, _, rfl⟩, hrun⟩ rfl htenant
    ⟨105, row, hlook, hrow.1, hrow.2, hremembers⟩
    (answers_noActiveLease rfl htenant hlook' hactive hforgotten)

end Botwork.AuthBroker
