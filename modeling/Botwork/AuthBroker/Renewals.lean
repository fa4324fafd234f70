import Botwork.AuthBroker.InvitationLaws

/-!
# Undisturbed invitations

The guard of `verify_and_consume` looks at `consumed_at` alone, so a revocation or
the expiry may come between its SELECT and its UPDATE; two renewals that run in
parallel do not see each other's INSERT; and `ttl_seconds` is cast to an `i64`.
Where nothing of this happens no invitation is consumed that may not be.

## Main definitions

- `Undisturbed`, `Representable` — nothing of this happens
- `InvitationDb.Sound`, `InvitationDb.Timely` — the invariants of such runs
-/

namespace Botwork.AuthBroker

open Botwork.Foundations

/-- The cast to `i64` keeps what it can hold. -/
theorem toInt_toInt64 (n : UInt64) :
    n.toInt64.toInt = if n.toNat < 2 ^ 63 then (n.toNat : Int) else n.toNat - 2 ^ 64 := by
  have h : n.toInt64.toInt = n.toBitVec.toInt := rfl
  rw [h, BitVec.toInt_eq_toNat_cond]
  show (if 2 * n.toNat < 2 ^ 64 then _ else _) = _
  by_cases hn : n.toNat < 2 ^ 63
  · rw [if_pos hn, if_pos (by omega)]
    rfl
  · rw [if_neg hn, if_neg (by omega)]
    rfl

/-- `ttl_seconds` in nanoseconds. -/
def ttlNanos (ttlSeconds : UInt64) : Int := ttlSeconds.toNat * (seconds 1 : Int)

/-- The expiry is `now + ttl_seconds` exactly when chrono can represent it. -/
theorem invitationExpiry_eq_iff {now : Int} {ttlSeconds : UInt64} (hnow : 0 ≤ now) :
    invitationExpiry now ttlSeconds = some (now + ttlNanos ttlSeconds) ↔
      now + ttlNanos ttlSeconds ≤ maxUtc := by
  have hsecond : (seconds 1 : Int) = 1000000000 := by
    unfold seconds
    rfl
  have hmax : maxUtc = 8210266876800 * 1000000000 - 1 := by
    unfold maxUtc seconds
    rfl
  have hmin : minUtc = -(8334601228800 * 1000000000) := by
    unfold minUtc seconds
    rfl
  have hlt := ttlSeconds.toNat_lt
  simp only [invitationExpiry, ttlNanos, toInt_toInt64, hsecond, hmax, hmin, maxDurationSeconds]
  constructor
  · intro h
    generalize (if ttlSeconds.toNat < 2 ^ 63 then (ttlSeconds.toNat : Int)
      else ttlSeconds.toNat - 2 ^ 64) = secs at h
    split at h
    next => cases h
    next =>
      split at h
      next => cases h
      next htime =>
        have heq := Option.some.inj h
        omega
  · intro h
    have hsmall : ttlSeconds.toNat < 2 ^ 63 := by omega
    rw [if_pos hsmall, if_neg (by omega), if_neg (by omega)]

/-- The call reads the row, and is to consume it. -/
def Statement.reads (id : InvitationId) : Statement → Bool
  | .consume id' _ => id' = id
  | _ => false

/-- The call is a renewal of the tenant. -/
def Statement.renews (tenantId : TenantId) : Statement → Bool
  | .sweep tenantId' _ fresh | .revoke tenantId' _ fresh _ _ | .commit tenantId' fresh _ =>
    tenantId' = tenantId && fresh.isSome
  | _ => false

/-- The call is a renewal of the tenant whose UPDATE has its snapshot. -/
def Statement.renewing (tenantId : TenantId) : Statement → Bool
  | .revoke tenantId' _ fresh _ _ | .commit tenantId' fresh _ => tenantId' = tenantId && fresh.isSome
  | _ => false

/-- The call is to INSERT a created invitation of the tenant. -/
def Statement.creates (tenantId : TenantId) : Statement → Bool
  | .insert row => row.tenantId = tenantId
  | _ => false

namespace InvitationDb

/-- No verification has read a row that the statement revokes, and the row that it
    reads lasts. -/
def undisturbed (s : InvitationDb) (call : CallId) : Statement → Bool
  | .revoke tenantId now _ _ (id :: _) =>
    (Table.view s.rows call id).all fun row => !row.outstanding tenantId now ||
      s.inFlight.all fun _ statement => !statement.reads id
  -- the row is not locked by a revocation, and has not expired since the handler read
  -- the clock
  | .select tenantId otpHash now =>
    (Table.find? s.rows call fun _ row => row.tenantId = tenantId && row.otpHash = otpHash).all
      fun found => (found.2.refusal now).isSome ||
        (Table.slot s.rows found.1).pending.isNone && decide (s.clock < found.2.expiresAt)
  | _ => true

/-- The row that a verification has read does not expire by then. -/
def outlasts (s : InvitationDb) (now : Int) : Statement → Bool
  | .consume id _ => (Table.committed s.rows id).all fun row =>
      row.consumedAt.isSome || decide (now < row.expiresAt)
  | _ => true

end InvitationDb

/-- Nothing comes between a verification's SELECT and its UPDATE. -/
def Undisturbed (s : InvitationDb) : InvitationEvent → Bool
  | .tick now => s.inFlight.all fun _ statement => s.outlasts now statement
  | .run call => (s.inFlight.lookup call).all (s.undisturbed call)
  | _ => true

/-- chrono can represent the expiry of an invitation that is issued. -/
def Representable (s : InvitationDb) : InvitationEvent → Bool
  | .createInvitation _ ttlSeconds _ | .renewInvitation _ ttlSeconds _ =>
    s.clock + ttlNanos (ttlSeconds.getD invitationDefaultTtlSeconds) ≤ maxUtc
  | _ => true

namespace InvitationDb

variable {s s' : InvitationDb} {call call' : CallId} {statement : Statement} {id : InvitationId}
  {row : Invitation} {tenantId : TenantId} {now : Int}

/-- The row may be consumed, if it has not been. -/
def Open (s : InvitationDb) (id : InvitationId) : Prop :=
  ∀ row, Table.committed s.rows id = some row → row.consumedAt = none →
    row.revokedAt = none ∧ s.clock < row.expiresAt ∧ (Table.slot s.rows id).pending = none

structure Sound (s : InvitationDb) : Prop where
  reads : ∀ call id now, s.inFlight.lookup call = some (.consume id now) → s.Open id
  consumptions : ∀ c ∈ s.consumptions, c.closed = false ∧ c.time < c.expiresAt

structure Timely (s : InvitationDb) : Prop where
  issued : ∀ call issue, s.issued.lookup call = some issue →
    issue.expiresAt = issue.now + ttlNanos issue.ttlSeconds
  answers : ∀ call, s.answers.lookup call ≠ some .panicked
  clock : 0 ≤ s.clock

/-- A row that a verification has read is not locked. -/
theorem Open.not_heldBy (hopen : s.Open id) (inv : s.Inv)
    (hrow : Table.committed s.rows id = some row) (call : CallId) :
    (Table.slot s.rows id).heldBy call = false := by
  apply eq_false_of_ne_true
  intro hheld
  obtain ⟨version, hpending⟩ := Slot.heldBy_iff.mp hheld
  obtain ⟨statement, new, hpend⟩ := inv.pending id call version hpending
  obtain ⟨-, -, hnone⟩ := hopen row hrow (hpend.carries row hrow).2
  rw [hnone] at hpending
  cases hpending

theorem Open.of_slot (hopen : s.Open id) (hclock : s'.clock = s.clock)
    (hslot : Table.slot s'.rows id = Table.slot s.rows id) : s'.Open id := by
  intro row hrow hnone
  have hcommitted : Table.committed s'.rows id = Table.committed s.rows id :=
    congrArg Slot.committed hslot
  rw [hslot, hclock]
  exact hopen row (hcommitted.symm.trans hrow) hnone

/-- A row that a verification has read stays as it is, unless another verification
    consumes it. -/
theorem Open.step (hopen : s.Open id) (inv : s.Inv) (hrow : Table.committed s.rows id = some row)
    (hlook : s.inFlight.lookup call = some statement)
    (hguard : s.undisturbed call statement = true)
    (hreader : ∃ call statement, s.inFlight.lookup call = some statement ∧ statement.reads id = true)
    (hstep : s.step call statement = some s') : s'.Open id := by
  have hown : ∀ new, statement.toInsert = some new → id ≠ call := by
    rintro new hnew rfl
    exact (inv.awaits _ _ hlook new hnew).2 row (.inl hrow)
  cases outcome_of_step hstep with
  | insert hwrite =>
    have hfree := inv.free_of_lookup hlook rfl
    exact hopen.of_slot rfl ((Table.slot_autocommit hwrite hfree id).trans (if_neg (hown _ rfl)))
  | sweep | skip | revoked | refuse | select | late => exact hopen.of_slot rfl rfl
  | revoke hview houtstanding hwrite =>
    refine hopen.of_slot rfl (((Table.write_eq_some hwrite).2 id).trans (if_neg ?_))
    rintro rfl
    obtain ⟨reader, statement, hreader, hreads⟩ := hreader
    simp only [undisturbed, hview, Option.all_some, houtstanding, Bool.not_true,
      Bool.false_or] at hguard
    have hnot := (FiniteMap.all_eq_true_iff _ _).mp hguard reader statement hreader
    rw [hreads] at hnot
    cases hnot
  | renew hwrite =>
    exact hopen.of_slot rfl (((Table.write_eq_some hwrite).2 id).trans (if_neg (hown _ rfl)))
  | commit =>
    refine hopen.of_slot rfl (Table.slot_commit.trans ?_)
    rw [Slot.commit, hopen.not_heldBy inv hrow call, if_neg Bool.false_ne_true]
  | @consume id' now row' rows hview hnone hwrite =>
    have hfree := inv.free_of_lookup hlook rfl
    by_cases heq : id = id'
    · intro row hrow' hnone'
      have hcommitted := (committed_consume hwrite hfree id).trans (if_pos heq)
      cases hcommitted.symm.trans hrow'
      cases hnone'
    · exact hopen.of_slot rfl ((Table.slot_autocommit hwrite hfree id).trans (if_neg heq))

/-- What a statement does to the rest of the state. -/
structure StepFrame (s s' : InvitationDb) (call : CallId) : Prop where
  clock : s'.clock = s.clock
  calls : s'.calls = s.calls
  issued : s'.issued = s.issued
  others : ∀ call', call' ≠ call → s'.inFlight.lookup call' = s.inFlight.lookup call'
  answers : ∀ call', s'.answers.lookup call' = some .panicked →
    s.answers.lookup call' = some .panicked

theorem stepFrame_finish {s₁ : InvitationDb} {answer : InvitationAnswer} (hbeside : s.Beside s₁)
    (hanswers : s₁.answers = s.answers) (hanswer : answer ≠ .panicked) :
    StepFrame s (s₁.finish call answer) call where
  clock := hbeside.clock
  calls := hbeside.calls
  issued := hbeside.issued
  others call' hne := by rw [lookup_finish, if_neg hne, hbeside.inFlight]
  answers call' h := by
    have hlook : (s₁.answers.insert call answer).lookup call' = some .panicked := h
    rw [FiniteMap.lookup_insert_ite, hanswers] at hlook
    split at hlook
    next => exact absurd (Option.some.inj hlook) hanswer
    next => exact hlook

theorem stepFrame_advance {s₁ : InvitationDb} (hbeside : s.Beside s₁)
    (hanswers : s₁.answers = s.answers) : StepFrame s (s₁.advance call statement) call where
  clock := hbeside.clock
  calls := hbeside.calls
  issued := hbeside.issued
  others call' hne := by rw [lookup_advance, if_neg hne, hbeside.inFlight]
  answers call' h := by
    rw [← hanswers]
    exact h

theorem invited_ne_panicked (s : InvitationDb) (call : CallId) : s.invited call ≠ .panicked := by
  unfold invited
  split <;> exact fun h => by cases h

theorem stepFrame_step (hstep : s.step call statement = some s') : StepFrame s s' call := by
  cases outcome_of_step hstep with
  | insert => exact stepFrame_finish ⟨rfl, rfl, rfl, rfl⟩ rfl (s.invited_ne_panicked call)
  | sweep | skip | revoke | revoked | renew | select =>
    exact stepFrame_advance ⟨rfl, rfl, rfl, rfl⟩ rfl
  | commit =>
    refine stepFrame_finish ⟨rfl, rfl, rfl, rfl⟩ rfl ?_
    split
    next => exact s.invited_ne_panicked call
    next => exact fun h => by cases h
  | refuse | late | consume => exact stepFrame_finish ⟨rfl, rfl, rfl, rfl⟩ rfl fun h => by cases h

/-- A verification is to consume the row that its SELECT found. -/
theorem select_of_step (hstep : s.step call statement = some s')
    (hlook : s'.inFlight.lookup call = some (.consume id now)) :
    ∃ tenantId otpHash row, statement = .select tenantId otpHash now ∧
      Table.find? s.rows call (fun _ row => row.tenantId = tenantId && row.otpHash = otpHash) =
        some (id, row) ∧ row.refusal now = none ∧ s' = s.advance call (.consume id now) := by
  cases outcome_of_step hstep with
  | insert | commit | refuse | late | consume =>
    have hnone := hlook
    first
      | rw [lookup_finish, if_pos rfl] at hnone
      | rw [commitRevocation, lookup_finish, if_pos rfl] at hnone
    cases hnone
  | sweep | skip | revoke | revoked | renew =>
    rw [lookup_advance, if_pos rfl] at hlook
    cases hlook
  | select hfound hnone =>
    rw [lookup_advance, if_pos rfl] at hlook
    cases hlook
    exact ⟨_, _, _, rfl, hfound, hnone, rfl⟩

/-- What a SELECT finds may be consumed. -/
theorem open_of_select {otpHash : OtpHash} (inv : s.Inv)
    (hlook : s.inFlight.lookup call = some (.select tenantId otpHash now))
    (hguard : s.undisturbed call (.select tenantId otpHash now) = true)
    (hfound : Table.find? s.rows call
      (fun _ row => row.tenantId = tenantId && row.otpHash = otpHash) = some (id, row))
    (hnone : row.refusal now = none) : s.Open id := by
  obtain ⟨hview, -⟩ := Table.find?_eq_some hfound
  rw [Table.view_of_not_heldBy (inv.free_of_lookup hlook rfl id)] at hview
  simp only [undisturbed, hfound, Option.all_some, hnone, Option.isSome_none, Bool.false_or,
    Bool.and_eq_true, decide_eq_true_eq, Option.isNone_iff_eq_none] at hguard
  intro row' hrow' _
  obtain rfl : row = row' := Option.some.inj (hview.symm.trans hrow')
  refine ⟨?_, hguard.2, hguard.1⟩
  simp only [Invitation.refusal] at hnone
  by_contra hrevoked
  have hsome := Option.isSome_iff_ne_none.mpr hrevoked
  rw [hsome] at hnone
  split at hnone <;> cases hnone

/-- A row that may be consumed when its UPDATE runs is not closed and has not expired. -/
theorem Sound.consume (sound : s.Sound) (inv : s.Inv)
    (hlook : s.inFlight.lookup call = some (.consume id now))
    (hview : Table.view s.rows call id = some row) (hnone : row.consumedAt = none) :
    decide (id ∈ s.closed) = false ∧ s.clock < row.expiresAt := by
  rw [Table.view_of_not_heldBy (inv.free_of_lookup hlook rfl id)] at hview
  obtain ⟨hrevoked, hexpires, -⟩ := sound.reads call id now hlook row hview hnone
  refine ⟨decide_eq_false fun hclosed => ?_, hexpires⟩
  obtain ⟨row', hrow', hclosed⟩ := inv.closed id hclosed
  obtain rfl : row = row' := Option.some.inj (hview.symm.trans hrow')
  obtain h | h := hclosed
  · rw [hrevoked] at h
    cases h
  · rw [hnone] at h
    cases h

theorem Sound.step (sound : s.Sound) (inv : s.Inv)
    (hlook : s.inFlight.lookup call = some statement)
    (hguard : s.undisturbed call statement = true) (hstep : s.step call statement = some s') :
    s'.Sound := by
  have hframe := stepFrame_step hstep
  constructor
  · intro call' id now hread
    by_cases heq : call' = call
    · subst heq
      obtain ⟨tenantId, otpHash, row, rfl, hfound, hnone, rfl⟩ := select_of_step hstep hread
      exact (open_of_select inv hlook hguard hfound hnone).of_slot rfl rfl
    · rw [hframe.others call' heq] at hread
      obtain ⟨row, hrow⟩ := inv.knows call' _ hread
      exact (sound.reads call' id now hread).step inv hrow hlook hguard
        ⟨call', _, hread, decide_eq_true rfl⟩ hstep
  · cases outcome_of_step hstep with
    | insert | sweep | skip | revoke | revoked | renew | commit | refuse | select | late =>
      exact sound.consumptions
    | consume hview hnone hwrite =>
      intro c hc
      obtain rfl | hc := List.mem_cons.mp hc
      · exact sound.consume inv hlook hview hnone
      · exact sound.consumptions c hc

theorem Sound.fail (sound : s.Sound) (inv : s.Inv) :
    ({ s with rows := Table.rollback s.rows call }.finish call .databaseError).Sound where
  reads call' id now hread := by
    rw [lookup_finish] at hread
    split at hread
    next => cases hread
    next hne =>
      have hopen := sound.reads call' id now hread
      obtain ⟨row, hrow⟩ := inv.knows call' _ hread
      refine hopen.of_slot rfl (Table.slot_rollback.trans ?_)
      rw [Slot.rollback, hopen.not_heldBy inv hrow call, if_neg Bool.false_ne_true]
  consumptions := sound.consumptions

/-- No row that a verification has read expires. -/
theorem Sound.tick (sound : s.Sound)
    (hguard : Undisturbed s (.tick now) = true) : Sound { s with clock := now } where
  reads call id time hread := by
    intro row hrow hnone
    obtain ⟨hrevoked, -, hfree⟩ := sound.reads call id time hread row hrow hnone
    have hall : s.inFlight.all (fun _ statement => s.outlasts now statement) = true := hguard
    have hlasts := (FiniteMap.all_eq_true_iff _ _).mp hall call _ hread
    have hcommitted : Table.committed s.rows id = some row := hrow
    simp only [outlasts, hcommitted, Option.all_some, hnone, Option.isSome_none, Bool.false_or,
      decide_eq_true_eq] at hlasts
    exact ⟨hrevoked, hlasts, hfree⟩
  consumptions := sound.consumptions

/-- A call arrives that is not to consume a row yet. -/
theorem Sound.arrive (sound : s.Sound) (hreads : ∀ id, statement.reads id = false)
    (call : CallId) (id : InvitationId)
    (hread : (s.begin statement).inFlight.lookup call = some (.consume id now)) : s.Open id := by
  rw [lookup_begin] at hread
  split at hread
  next =>
    obtain rfl := Option.some.inj hread
    have hnot := hreads id
    simp [Statement.reads] at hnot
  next => exact sound.reads call id now hread

theorem Sound.begin (sound : s.Sound) (hreads : ∀ id, statement.reads id = false) :
    (s.begin statement).Sound where
  reads call id _ hread := (sound.arrive hreads call id hread).of_slot rfl rfl
  consumptions := sound.consumptions

theorem Sound.issue {ttlSeconds : Option UInt64} {otpHash : OtpHash}
    {statement : Invitation → Statement} (sound : s.Sound)
    (hreads : ∀ row id, (statement row).reads id = false)
    (h : s.issue tenantId ttlSeconds otpHash statement = some s') : s'.Sound := by
  obtain ⟨-, ⟨-, rfl⟩ | ⟨time, row, -, -, -, -, rfl⟩⟩ := issue_eq_some h
  · exact ⟨fun call id now hread => (sound.reads call id now hread).of_slot rfl rfl,
      sound.consumptions⟩
  · exact ⟨fun call id _ hread => (sound.arrive (hreads row) call id hread).of_slot rfl rfl,
      sound.consumptions⟩

theorem Sound.next {e : InvitationEvent} (sound : s.Sound) (inv : s.Inv)
    (hguard : Undisturbed s e = true) (hnext : s.next e = some s') : s'.Sound := by
  cases e with
  | tick now =>
    simp only [InvitationDb.next] at hnext
    split at hnext
    next => cases hnext; exact sound.tick hguard
    next => cases hnext
  | createInvitation tenantId ttlSeconds otpHash =>
    have hissue : s.issue tenantId ttlSeconds otpHash .insert = some s' := hnext
    exact sound.issue (fun _ _ => rfl) hissue
  | renewInvitation tenantId ttlSeconds otpHash =>
    have hissue : s.issue tenantId ttlSeconds otpHash (fun row => .sweep tenantId s.clock (some row)) =
        some s' := hnext
    exact sound.issue (fun _ _ => rfl) hissue
  | revokeInvitations tenantId =>
    cases hnext
    exact sound.begin fun _ => rfl
  | verifyAndConsume tenantId otpHash =>
    cases hnext
    exact sound.begin fun _ => rfl
  | run call =>
    obtain ⟨statement, hlook, hstep⟩ := Option.bind_eq_some_iff.mp hnext
    have hundisturbed : (s.inFlight.lookup call).all (s.undisturbed call) = true := hguard
    rw [hlook] at hundisturbed
    exact sound.step inv hlook hundisturbed hstep
  | fail call =>
    obtain ⟨statement, -, rfl⟩ := Option.map_eq_some_iff.mp hnext
    exact sound.fail inv

theorem sound_of_reachable (hreach : invitations.ReachableUnder (fun s e => Undisturbed s e = true) s) :
    s.Inv ∧ s.Sound := by
  apply hreach.invariant
  · rintro t ⟨clock, -, rfl⟩
    exact ⟨inv_init clock, fun _ _ _ h => (by cases h), fun _ h => absurd h List.not_mem_nil⟩
  · exact fun t e t' ⟨inv, sound⟩ hguard hnext => ⟨inv.next hnext, sound.next inv hguard hnext⟩

theorem Timely.of_eq (timely : s.Timely) (hissued : s'.issued = s.issued)
    (hanswers : ∀ call, s'.answers.lookup call = some .panicked →
      s.answers.lookup call = some .panicked) (hclock : s.clock ≤ s'.clock) : s'.Timely where
  issued call issue h := by
    rw [hissued] at h
    exact timely.issued call issue h
  answers call h := timely.answers call (hanswers call h)
  clock := Int.le_trans timely.clock hclock

theorem Timely.issue {ttlSeconds : Option UInt64} {otpHash : OtpHash}
    {statement : Invitation → Statement} (timely : s.Timely)
    (hguard : s.clock + ttlNanos (ttlSeconds.getD invitationDefaultTtlSeconds) ≤ maxUtc)
    (h : s.issue tenantId ttlSeconds otpHash statement = some s') : s'.Timely := by
  have hexpiry := (invitationExpiry_eq_iff timely.clock).mpr hguard
  obtain ⟨-, ⟨hnone, -⟩ | ⟨time, row, htime, -, -, -, rfl⟩⟩ := issue_eq_some h
  · rw [hexpiry] at hnone
    cases hnone
  · refine ⟨fun call issue hissue => ?_, timely.answers, timely.clock⟩
    have hlook : (s.issued.insert s.calls _).lookup call = some issue := hissue
    rw [FiniteMap.lookup_insert_ite] at hlook
    split at hlook
    next =>
      cases hlook
      exact Option.some.inj (htime.symm.trans hexpiry)
    next => exact timely.issued call issue hlook

theorem Timely.next {e : InvitationEvent} (timely : s.Timely) (hguard : Representable s e = true)
    (hnext : s.next e = some s') : s'.Timely := by
  cases e with
  | tick now =>
    simp only [InvitationDb.next] at hnext
    split at hnext
    next htick => cases hnext; exact timely.of_eq rfl (fun _ h => h) htick
    next => cases hnext
  | createInvitation tenantId ttlSeconds otpHash =>
    have hissue : s.issue tenantId ttlSeconds otpHash .insert = some s' := hnext
    exact timely.issue (of_decide_eq_true hguard) hissue
  | renewInvitation tenantId ttlSeconds otpHash =>
    have hissue : s.issue tenantId ttlSeconds otpHash (fun row => .sweep tenantId s.clock (some row)) =
        some s' := hnext
    exact timely.issue (of_decide_eq_true hguard) hissue
  | revokeInvitations tenantId =>
    cases hnext
    exact timely.of_eq rfl (fun _ h => h) (Int.le_refl _)
  | verifyAndConsume tenantId otpHash =>
    cases hnext
    exact timely.of_eq rfl (fun _ h => h) (Int.le_refl _)
  | run call =>
    obtain ⟨statement, -, hstep⟩ := Option.bind_eq_some_iff.mp hnext
    have hframe := stepFrame_step hstep
    exact timely.of_eq hframe.issued hframe.answers (Int.le_of_eq hframe.clock.symm)
  | fail call =>
    obtain ⟨statement, -, rfl⟩ := Option.map_eq_some_iff.mp hnext
    refine timely.of_eq rfl (fun call' h => ?_) (Int.le_refl _)
    have hlook : (s.answers.insert call .databaseError).lookup call' = some .panicked := h
    rw [FiniteMap.lookup_insert_ite] at hlook
    split at hlook
    next => cases hlook
    next => exact hlook

theorem timely_of_reachable
    (hreach : invitations.ReachableUnder (fun s e => Representable s e = true) s) : s.Timely := by
  apply hreach.invariant
  · rintro t ⟨clock, hclock, rfl⟩
    exact ⟨fun _ _ h => (by cases h), fun _ h => (by cases h), hclock⟩
  · exact fun t e t' timely hguard hnext => timely.next hguard hnext

end InvitationDb

end Botwork.AuthBroker
