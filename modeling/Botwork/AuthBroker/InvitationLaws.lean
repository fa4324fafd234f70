import Botwork.AuthBroker.Invitations

/-!
# The rows of invitations

What a step of one call does to the rows, and to what the other calls know of
them.  In any run an OTP is consumed at most once, and what a revocation covers is
revoked or consumed when it returns.

## Main definitions

- `Moves` — what a step of a call does to the rows
- `InvitationDb.Knows` — what a call knows of the rows
- `InvitationDb.Inv` — the invariant
-/

namespace Botwork.AuthBroker

open Botwork.Foundations

/-- What no statement changes about a row: whose it is and when it expires, and that
    it was consumed or revoked. -/
structure Invitation.Lasts (row row' : Invitation) : Prop where
  tenantId : row'.tenantId = row.tenantId
  otpHash : row'.otpHash = row.otpHash
  expiresAt : row'.expiresAt = row.expiresAt
  consumedAt : row.consumedAt.isSome = true → row'.consumedAt.isSome = true
  revokedAt : row.revokedAt.isSome = true → row'.revokedAt.isSome = true

/-- The row cannot be consumed any more, or was. -/
def Invitation.Closed (row : Invitation) : Prop :=
  row.revokedAt.isSome = true ∨ row.consumedAt.isSome = true

variable {row row' row'' : Invitation} {tenantId : TenantId} {now : Int}

theorem Invitation.Lasts.refl (row : Invitation) : row.Lasts row := ⟨rfl, rfl, rfl, id, id⟩

theorem Invitation.Lasts.trans (h : row.Lasts row') (h' : row'.Lasts row'') : row.Lasts row'' where
  tenantId := h'.tenantId.trans h.tenantId
  otpHash := h'.otpHash.trans h.otpHash
  expiresAt := h'.expiresAt.trans h.expiresAt
  consumedAt := h'.consumedAt ∘ h.consumedAt
  revokedAt := h'.revokedAt ∘ h.revokedAt

theorem Invitation.Closed.lasts (h : row.Closed) (hlasts : row.Lasts row') : row'.Closed := by
  obtain h | h := h
  · exact .inl (hlasts.revokedAt h)
  · exact .inr (hlasts.consumedAt h)

theorem Invitation.Lasts.revoke (row : Invitation) (time : Int) :
    row.Lasts { row with revokedAt := some time } := ⟨rfl, rfl, rfl, id, fun _ => rfl⟩

theorem Invitation.Lasts.consume (row : Invitation) (time : Int) :
    row.Lasts { row with consumedAt := some time } := ⟨rfl, rfl, rfl, fun _ => rfl, id⟩

theorem outstanding_iff : row.outstanding tenantId now = true ↔
    row.tenantId = tenantId ∧ row.consumedAt = none ∧ now < row.expiresAt ∧
      row.revokedAt = none := by
  simp [Invitation.outstanding, and_assoc]

/-- A row that a revocation leaves out though it is its tenant's and has not expired. -/
theorem Invitation.closed_of_not_outstanding (h : row.outstanding tenantId now ≠ true)
    (htenant : row.tenantId = tenantId) (hexpires : now < row.expiresAt) : row.Closed := by
  by_contra hopen
  obtain ⟨hrevoked, hconsumed⟩ := not_or.mp hopen
  exact h (outstanding_iff.mpr ⟨htenant, by simpa using hconsumed, hexpires, by simpa using hrevoked⟩)

/-- The row a call is still to insert. -/
def Statement.toInsert : Statement → Option Invitation
  | .insert row => some row
  | .sweep _ _ fresh | .revoke _ _ fresh _ _ => fresh
  | .commit _ _ _ | .select _ _ _ | .consume _ _ => none

/-- The call has begun to write, and holds its locks until its COMMIT. -/
def Statement.locks : Statement → Bool
  | .revoke _ _ _ _ _ | .commit _ _ _ => true
  | _ => false

/-- What a step of a call does to the rows; `new` is the row it may insert. -/
structure Moves (call : CallId) (new : Option Invitation)
    (rows rows' : Table CallId InvitationId Invitation) : Prop where
  frame : Table.Frame call rows rows'
  lasts : ∀ id row, Table.committed rows id = some row →
    ∃ row', Table.committed rows' id = some row' ∧ row.Lasts row'
  versions : ∀ id row', (Table.slot rows' id).HasVersion row' →
    (∃ row, (Table.slot rows id).HasVersion row ∧ row.Lasts row') ∨
      id = call ∧ ∃ row, new = some row ∧ row.Lasts row'

/-- A pending version carries on the committed row, if there is one. -/
def Carries (rows : Table CallId InvitationId Invitation) (call : CallId) : Prop :=
  ∀ id version, (Table.slot rows id).pending = some (call, version) →
    ∃ row, version = some row ∧ ∀ old, Table.committed rows id = some old → old.Lasts row

section

variable {rows rows' rows'' : Table CallId InvitationId Invitation} {call call' : CallId}
  {new : Option Invitation} {id : InvitationId}

theorem Moves.refl (call : CallId) (new : Option Invitation)
    (rows : Table CallId InvitationId Invitation) : Moves call new rows rows where
  frame := .refl call rows
  lasts _ row hrow := ⟨row, hrow, .refl row⟩
  versions _ row hrow := .inl ⟨row, hrow, .refl row⟩

theorem Moves.trans (h : Moves call new rows rows') (h' : Moves call none rows' rows'') :
    Moves call new rows rows'' where
  frame := h.frame.trans h'.frame
  lasts id row hrow := by
    obtain ⟨row', hrow', hlasts⟩ := h.lasts id row hrow
    obtain ⟨row'', hrow'', hlasts'⟩ := h'.lasts id row' hrow'
    exact ⟨row'', hrow'', hlasts.trans hlasts'⟩
  versions id row'' hrow'' := by
    obtain ⟨row', hrow', hlasts'⟩ | ⟨-, row', hnew, -⟩ := h'.versions id row'' hrow''
    · obtain ⟨row, hrow, hlasts⟩ | ⟨hid, row, hnew, hlasts⟩ := h.versions id row' hrow'
      · exact .inl ⟨row, hrow, hlasts.trans hlasts'⟩
      · exact .inr ⟨hid, row, hnew, hlasts.trans hlasts'⟩
    · cases hnew

/-- A statement writes a row that it sees. -/
theorem Moves.write (hwrite : Table.write rows call id (some row') = some rows')
    (hview : Table.view rows call id = some row) (hlasts : row.Lasts row') :
    Moves call new rows rows' where
  frame := Table.frame_write hwrite
  lasts id row hrow := ⟨row, (Table.committed_write hwrite id).trans hrow, .refl row⟩
  versions id' row'' hversion := by
    obtain hbefore | ⟨rfl, hnew⟩ := Table.hasVersion_write hwrite hversion
    · exact .inl ⟨row'', hbefore, .refl row''⟩
    · cases hnew
      exact .inl ⟨row, Slot.HasVersion.of_view hview, hlasts⟩

/-- An INSERT of the row of the call. -/
theorem Moves.insert (hwrite : Table.write rows call call (some row) = some rows')
    (hnew : new = some row) : Moves call new rows rows' where
  frame := Table.frame_write hwrite
  lasts id row hrow := ⟨row, (Table.committed_write hwrite id).trans hrow, .refl row⟩
  versions id' row'' hversion := by
    obtain hbefore | ⟨rfl, hrow⟩ := Table.hasVersion_write hwrite hversion
    · exact .inl ⟨row'', hbefore, .refl row''⟩
    · cases hrow
      exact .inr ⟨rfl, row, hnew, .refl row⟩

theorem Moves.commit (hcarries : Carries rows call) :
    Moves call new rows (Table.commit rows call) where
  frame := Table.frame_commit
  lasts id old hold := by
    rw [Table.committed_commit]
    by_cases hheld : (Table.slot rows id).heldBy call = true
    · obtain ⟨version, hpending⟩ := Slot.heldBy_iff.mp hheld
      obtain ⟨row, rfl, hlasts⟩ := hcarries id version hpending
      refine ⟨row, ?_, hlasts old hold⟩
      rw [Table.view, Slot.view, hpending]
      exact if_pos rfl
    · rw [Table.view_of_not_heldBy (eq_false_of_ne_true hheld)]
      exact ⟨old, hold, .refl old⟩
  versions id row' hversion := by
    rw [Table.slot_commit] at hversion
    exact .inl ⟨row', hversion.of_commit, .refl row'⟩

theorem Moves.rollback : Moves call new rows (Table.rollback rows call) where
  frame := Table.frame_rollback
  lasts id row hrow := ⟨row, Table.committed_rollback.trans hrow, .refl row⟩
  versions id row' hversion := by
    rw [Table.slot_rollback] at hversion
    exact .inl ⟨row', hversion.of_rollback, .refl row'⟩

theorem Carries.write (h : Carries rows call)
    (hwrite : Table.write rows call id (some row) = some rows')
    (hold : ∀ old, Table.committed rows id = some old → old.Lasts row) : Carries rows' call := by
  intro id' version hpending
  rw [(Table.write_eq_some hwrite).2 id'] at hpending
  by_cases heq : id' = id
  · rw [if_pos heq] at hpending
    cases hpending
    refine ⟨row, rfl, fun old hrow => hold old ?_⟩
    rw [← heq, ← Table.committed_write hwrite id']
    exact hrow
  · rw [if_neg heq] at hpending
    obtain ⟨row', hversion, hlasts⟩ := h id' version hpending
    exact ⟨row', hversion, fun old hrow => hlasts old ((Table.committed_write hwrite id').symm.trans hrow)⟩

/-- What another call sees of a row lasts. -/
theorem Moves.view (h : Moves call new rows rows') (hne : call' ≠ call)
    (hrow : Table.view rows call' id = some row) :
    ∃ row', Table.view rows' call' id = some row' ∧ row.Lasts row' := by
  have hsame := h.frame.heldBy hne id
  by_cases hheld : (Table.slot rows id).heldBy call' = true
  · exact ⟨row, (h.frame.view hne hheld).trans hrow, .refl row⟩
  · have hfree := eq_false_of_ne_true hheld
    rw [Table.view_of_not_heldBy hfree] at hrow
    rw [Table.view_of_not_heldBy (hsame.trans hfree)]
    exact h.lasts id row hrow

end

namespace InvitationDb

/-- The row is the one that was issued to the call. -/
def Issued (s : InvitationDb) (call : CallId) (row : Invitation) : Prop :=
  ∃ issue, s.issued.lookup call = some issue ∧ issue.otpHash = row.otpHash ∧
    row.expiresAt = column issue.expiresAt

/-- The row a call is still to insert is not there yet. -/
def Awaits (s : InvitationDb) (call : CallId) (statement : Statement) : Prop :=
  ∀ row, statement.toInsert = some row → s.Issued call row ∧
    ∀ row', ¬ (Table.slot s.rows call).HasVersion row'

/-- What a call knows of the rows. -/
def Knows (s : InvitationDb) (call : CallId) : Statement → Prop
  | .insert _ | .select _ _ _ => True
  | .sweep tenantId now fresh =>
    now ≤ s.clock ∧ ∀ row, fresh = some row → row.tenantId = tenantId
  | .revoke tenantId now fresh covered rest =>
    (now ≤ s.clock ∧ ∀ row, fresh = some row → row.tenantId = tenantId) ∧
      (∀ id ∈ rest, id ∈ covered) ∧
      ∀ id ∈ covered, ∃ row, Table.view s.rows call id = some row ∧ row.tenantId = tenantId ∧
        now < row.expiresAt ∧ (id ∈ rest ∨ row.Closed)
  | .commit _ _ covered =>
    ∀ id ∈ covered, ∃ row, Table.view s.rows call id = some row ∧ row.Closed
  | .consume id _ => ∃ row, Table.committed s.rows id = some row

/-- A version that is not committed is the row of a renewal, or revokes a row that
    has not been consumed. -/
structure Pending (s : InvitationDb) (id : InvitationId) (call : CallId)
    (version : Option Invitation) (statement : Statement) (row : Invitation) : Prop where
  inFlight : s.inFlight.lookup call = some statement
  locks : statement.locks = true
  version : version = some row
  carries : ∀ old, Table.committed s.rows id = some old → old.Lasts row ∧ old.consumedAt = none
  what : row.revokedAt.isSome = true ∨
    ∃ tenantId covered, statement = .commit tenantId (some row) covered ∧
      id = call ∧ row.tenantId = tenantId

/-- No OTP is issued twice. -/
structure Issues (s : InvitationDb) : Prop where
  begun : ∀ call issue, s.issued.lookup call = some issue → call < s.calls
  distinct : ∀ call call' issue issue', s.issued.lookup call = some issue →
    s.issued.lookup call' = some issue' → issue.otpHash = issue'.otpHash → call = call'

structure Inv (s : InvitationDb) : Prop where
  begun : ∀ call statement, s.inFlight.lookup call = some statement → call < s.calls
  issues : s.Issues
  rows : ∀ id row, (Table.slot s.rows id).HasVersion row → s.Issued id row
  awaits : ∀ call statement, s.inFlight.lookup call = some statement → s.Awaits call statement
  knows : ∀ call statement, s.inFlight.lookup call = some statement → s.Knows call statement
  pending : ∀ id call version, (Table.slot s.rows id).pending = some (call, version) →
    ∃ statement row, s.Pending id call version statement row
  closed : ∀ id ∈ s.closed, ∃ row, Table.committed s.rows id = some row ∧ row.Closed
  consumed : ∀ c ∈ s.consumptions, ∃ id row, Table.committed s.rows id = some row ∧
    row.otpHash = c.otpHash ∧ row.consumedAt.isSome = true
  once : (s.consumptions.map (·.otpHash)).Nodup

variable {s s' : InvitationDb} {call call' : CallId} {statement : Statement} {id : InvitationId}

theorem Inv.committed (inv : s.Inv) (hrow : Table.committed s.rows id = some row) :
    s.Issued id row := inv.rows id row (.inl hrow)

/-- A call without locks writes nothing that is pending. -/
theorem Inv.not_heldBy (inv : s.Inv)
    (hlocks : ∀ statement, s.inFlight.lookup call = some statement → statement.locks = false)
    (id : InvitationId) : (Table.slot s.rows id).heldBy call = false := by
  apply eq_false_of_ne_true
  intro hheld
  obtain ⟨version, hpending⟩ := Slot.heldBy_iff.mp hheld
  obtain ⟨statement, row, hpend⟩ := inv.pending id call version hpending
  have hlocked := hpend.locks
  rw [hlocks statement hpend.inFlight] at hlocked
  cases hlocked

theorem Inv.carries (inv : s.Inv) (call : CallId) : Carries s.rows call := by
  intro id version hpending
  obtain ⟨statement, row, hpend⟩ := inv.pending id call version hpending
  exact ⟨row, hpend.version, fun old hold => (hpend.carries old hold).1⟩

/-- What a call knows carries over a step of another. -/
theorem Knows.moves {new : Option Invitation} (h : s.Knows call' statement)
    (hmoves : Moves call new s.rows s'.rows) (hclock : s.clock ≤ s'.clock) (hne : call' ≠ call) :
    s'.Knows call' statement := by
  cases statement with
  | insert | select => trivial
  | sweep tenantId now fresh => exact ⟨Int.le_trans h.1 hclock, h.2⟩
  | revoke tenantId now fresh covered rest =>
    obtain ⟨⟨hnow, hfresh⟩, hsub, hcovered⟩ := h
    refine ⟨⟨Int.le_trans hnow hclock, hfresh⟩, hsub, fun id hid => ?_⟩
    obtain ⟨row, hrow, htenant, hexpires, hdone⟩ := hcovered id hid
    obtain ⟨row', hrow', hlasts⟩ := hmoves.view hne hrow
    exact ⟨row', hrow', hlasts.tenantId.trans htenant, hlasts.expiresAt ▸ hexpires,
      hdone.imp_right fun hclosed => hclosed.lasts hlasts⟩
  | commit tenantId fresh covered =>
    intro id hid
    obtain ⟨row, hrow, hclosed⟩ := h id hid
    obtain ⟨row', hrow', hlasts⟩ := hmoves.view hne hrow
    exact ⟨row', hrow', hclosed.lasts hlasts⟩
  | consume id now =>
    obtain ⟨row, hrow⟩ := h
    obtain ⟨row', hrow', -⟩ := hmoves.lasts id row hrow
    exact ⟨row', hrow'⟩

/-- Nothing is consumed in the step, or one row that had not been. -/
def ConsumesOnce (s s' : InvitationDb) : Prop :=
  s'.consumptions = s.consumptions ∨ ∃ c id row row', s'.consumptions = c :: s.consumptions ∧
    Table.committed s.rows id = some row ∧ row.otpHash = c.otpHash ∧ row.consumedAt = none ∧
      Table.committed s'.rows id = some row' ∧ row.Lasts row' ∧ row'.consumedAt.isSome = true

/-- Two committed rows have two OTPs. -/
theorem Inv.eq_of_otpHash {id id' : InvitationId} (inv : s.Inv)
    (hrow : Table.committed s.rows id = some row) (hrow' : Table.committed s.rows id' = some row')
    (heq : row.otpHash = row'.otpHash) : id = id' := by
  obtain ⟨issue, hissue, hhash, -⟩ := inv.committed hrow
  obtain ⟨issue', hissue', hhash', -⟩ := inv.committed hrow'
  exact inv.issues.distinct id id' issue issue' hissue hissue' (hhash.trans (heq.trans hhash'.symm))

/-- **Frame of a step**: what is to be shown of a step of a call is what it makes of
    its own statement, its own locks and what it records. -/
theorem Inv.carry {new : Option Invitation} (inv : s.Inv) (hmoves : Moves call new s.rows s'.rows)
    (hnew : ∀ row, new = some row → s.Issued call row)
    (hclock : s.clock ≤ s'.clock) (hcalls : s.calls ≤ s'.calls) (hissues : s'.Issues)
    (hissued : ∀ call issue, s.issued.lookup call = some issue → s'.issued.lookup call = some issue)
    (hothers : ∀ call', call' ≠ call → s'.inFlight.lookup call' = s.inFlight.lookup call')
    (hown : ∀ statement, s'.inFlight.lookup call = some statement →
      call < s'.calls ∧ s'.Awaits call statement ∧ s'.Knows call statement)
    (hpending : ∀ id version, (Table.slot s'.rows id).pending = some (call, version) →
      ∃ statement row, s'.Pending id call version statement row)
    (hclosed : ∀ id ∈ s'.closed,
      id ∈ s.closed ∨ ∃ row, Table.committed s'.rows id = some row ∧ row.Closed)
    (honce : s.ConsumesOnce s') : s'.Inv := by
  have hlasting : ∀ call row row', s.Issued call row → row.Lasts row' → s'.Issued call row' := by
    rintro call row row' ⟨issue, hissue, hhash, hexpires⟩ hlasts
    exact ⟨issue, hissued call issue hissue, hhash.trans hlasts.otpHash.symm,
      hlasts.expiresAt.trans hexpires⟩
  refine ⟨fun call' statement hlook => ?_, hissues, fun id row' hversion => ?_,
    fun call' statement hlook => ?_, fun call' statement hlook => ?_,
    fun id call' version hpend => ?_, fun id hid => ?_, ?_, ?_⟩
  · by_cases heq : call' = call
    · rw [heq] at hlook ⊢
      exact (hown statement hlook).1
    · rw [hothers call' heq] at hlook
      exact Nat.lt_of_lt_of_le (inv.begun call' statement hlook) hcalls
  · obtain ⟨row, hrow, hlasts⟩ | ⟨rfl, row, hrow, hlasts⟩ := hmoves.versions id row' hversion
    · exact hlasting id row row' (inv.rows id row hrow) hlasts
    · exact hlasting id row row' (hnew row hrow) hlasts
  · by_cases heq : call' = call
    · rw [heq] at hlook ⊢
      exact (hown statement hlook).2.1
    · rw [hothers call' heq] at hlook
      intro row hinsert
      obtain ⟨hissue, hnone⟩ := inv.awaits call' statement hlook row hinsert
      refine ⟨hlasting call' row row hissue (.refl row), fun row' hversion => ?_⟩
      obtain ⟨old, hold, -⟩ | ⟨heq', -⟩ := hmoves.versions call' row' hversion
      · exact hnone old hold
      · exact heq heq'
  · by_cases heq : call' = call
    · rw [heq] at hlook ⊢
      exact (hown statement hlook).2.2
    · rw [hothers call' heq] at hlook
      exact (inv.knows call' statement hlook).moves hmoves hclock heq
  · by_cases heq : call' = call
    · rw [heq] at hpend ⊢
      exact hpending id version hpend
    · obtain ⟨hlock, hsame⟩ := hmoves.frame id (call', version) heq
      obtain ⟨statement, row, hbefore⟩ := inv.pending id call' version (hlock.mp hpend)
      refine ⟨statement, row, ?_⟩
      exact
        { inFlight := (hothers call' heq).trans hbefore.inFlight
          locks := hbefore.locks
          version := hbefore.version
          carries := fun old hold => hbefore.carries old ((hsame (hlock.mp hpend)).symm.trans hold)
          what := hbefore.what }
  · obtain hbefore | hnow := hclosed id hid
    · obtain ⟨row, hrow, hclosed⟩ := inv.closed id hbefore
      obtain ⟨row', hrow', hlasts⟩ := hmoves.lasts id row hrow
      exact ⟨row', hrow', hclosed.lasts hlasts⟩
    · exact hnow
  · have hbefore : ∀ c ∈ s.consumptions, ∃ id row, Table.committed s'.rows id = some row ∧
        row.otpHash = c.otpHash ∧ row.consumedAt.isSome = true := by
      intro c hc
      obtain ⟨id, row, hrow, hhash, hconsumed⟩ := inv.consumed c hc
      obtain ⟨row', hrow', hlasts⟩ := hmoves.lasts id row hrow
      exact ⟨id, row', hrow', hlasts.otpHash.trans hhash, hlasts.consumedAt hconsumed⟩
    obtain hsame | ⟨c, id, row, row', hcons, hrow, hhash, hnone, hrow', hlasts, hsome⟩ := honce
    · rw [hsame]
      exact hbefore
    · rw [hcons]
      intro c' hc'
      obtain rfl | hc' := List.mem_cons.mp hc'
      · exact ⟨id, row', hrow', hlasts.otpHash.trans hhash, hsome⟩
      · exact hbefore c' hc'
  · obtain hsame | ⟨c, id, row, row', hcons, hrow, hhash, hnone, hrow', hlasts, hsome⟩ := honce
    · rw [hsame]
      exact inv.once
    · rw [hcons, List.map_cons, List.nodup_cons]
      refine ⟨fun hmem => ?_, inv.once⟩
      -- an OTP that is consumed already is that of another row
      obtain ⟨c', hc', heq⟩ := List.mem_map.mp hmem
      obtain ⟨id', old, hold, hhash', hconsumed⟩ := inv.consumed c' hc'
      obtain rfl := inv.eq_of_otpHash hold hrow (hhash'.trans (heq.trans hhash.symm))
      obtain rfl : old = row := Option.some.inj (hold.symm.trans hrow)
      rw [hnone] at hconsumed
      cases hconsumed

theorem lookup_finish (s : InvitationDb) (call call' : CallId) (answer : InvitationAnswer) :
    (s.finish call answer).inFlight.lookup call' =
      if call' = call then none else s.inFlight.lookup call' := FiniteMap.lookup_erase_ite _ _ _

theorem lookup_advance (s : InvitationDb) (call call' : CallId) (statement : Statement) :
    (s.advance call statement).inFlight.lookup call' =
      if call' = call then some statement else s.inFlight.lookup call' :=
  FiniteMap.lookup_insert_ite _ _ _ _

theorem lookup_begin (s : InvitationDb) (call : CallId) (statement : Statement) :
    (s.begin statement).inFlight.lookup call =
      if call = s.calls then some statement else s.inFlight.lookup call :=
  FiniteMap.lookup_insert_ite _ _ _ _

theorem Issues.of_eq (h : s.Issues) (hissued : s'.issued = s.issued) (hcalls : s.calls ≤ s'.calls) :
    s'.Issues where
  begun call issue hlook := by
    rw [hissued] at hlook
    exact Nat.lt_of_lt_of_le (h.begun call issue hlook) hcalls
  distinct call call' issue issue' hlook hlook' := by
    rw [hissued] at hlook hlook'
    exact h.distinct call call' issue issue' hlook hlook'

/-- The states differ in the rows and in what is recorded of them. -/
structure Beside (s s₁ : InvitationDb) : Prop where
  clock : s₁.clock = s.clock
  calls : s₁.calls = s.calls
  issued : s₁.issued = s.issued
  inFlight : s₁.inFlight = s.inFlight

/-- A call is answered once it holds no lock. -/
theorem Inv.finish {s₁ : InvitationDb} {new : Option Invitation} {answer : InvitationAnswer}
    (inv : s.Inv) (hbeside : s.Beside s₁) (hmoves : Moves call new s.rows s₁.rows)
    (hnew : ∀ row, new = some row → s.Issued call row)
    (hfree : ∀ id, (Table.slot s₁.rows id).heldBy call = false)
    (hclosed : ∀ id ∈ s₁.closed,
      id ∈ s.closed ∨ ∃ row, Table.committed s₁.rows id = some row ∧ row.Closed)
    (honce : s.ConsumesOnce s₁) : (s₁.finish call answer).Inv := by
  have hlookup : ∀ call', (s₁.finish call answer).inFlight.lookup call' =
      if call' = call then none else s.inFlight.lookup call' := by
    intro call'
    rw [lookup_finish, hbeside.inFlight]
  refine inv.carry hmoves hnew (Int.le_of_eq hbeside.clock.symm) (Nat.le_of_eq hbeside.calls.symm)
    (inv.issues.of_eq hbeside.issued (Nat.le_of_eq hbeside.calls.symm)) ?_
    (fun call' hne => (hlookup call').trans (if_neg hne)) ?_ ?_ hclosed honce
  · intro call issue h
    exact (congrArg (AList.lookup call) hbeside.issued).trans h
  · intro statement h
    rw [hlookup, if_pos rfl] at h
    cases h
  · intro id version hpending
    have hheld : (Table.slot s₁.rows id).heldBy call = true := Slot.heldBy_iff.mpr ⟨version, hpending⟩
    rw [hfree id] at hheld
    cases hheld

/-- A call goes on to its next statement. -/
theorem Inv.advance {new : Option Invitation} (inv : s.Inv) (s₁ : InvitationDb) (next : Statement)
    (hlook : s.inFlight.lookup call = some statement) (hbeside : s.Beside s₁)
    (hclosed : s₁.closed = s.closed) (hconsumptions : s₁.consumptions = s.consumptions)
    (hmoves : Moves call new s.rows s₁.rows) (hnew : ∀ row, new = some row → s.Issued call row)
    (hawaits : (s₁.advance call next).Awaits call next)
    (hknows : (s₁.advance call next).Knows call next)
    (hpending : ∀ id version, (Table.slot s₁.rows id).pending = some (call, version) →
      ∃ statement row, (s₁.advance call next).Pending id call version statement row) :
    (s₁.advance call next).Inv := by
  have hlookup : ∀ call', (s₁.advance call next).inFlight.lookup call' =
      if call' = call then some next else s.inFlight.lookup call' := by
    intro call'
    rw [lookup_advance, hbeside.inFlight]
  refine inv.carry hmoves hnew (Int.le_of_eq hbeside.clock.symm) (Nat.le_of_eq hbeside.calls.symm)
    (inv.issues.of_eq hbeside.issued (Nat.le_of_eq hbeside.calls.symm)) ?_
    (fun call' hne => (hlookup call').trans (if_neg hne)) ?_ hpending ?_ (.inl hconsumptions)
  · intro call issue h
    exact (congrArg (AList.lookup call) hbeside.issued).trans h
  · intro statement' h
    rw [hlookup, if_pos rfl] at h
    cases h
    refine ⟨?_, hawaits, hknows⟩
    show call < s₁.calls
    rw [hbeside.calls]
    exact inv.begun call statement hlook
  · intro id hid
    exact .inl (hclosed ▸ hid)

/-- A call that holds a row sees what it is to commit. -/
theorem Inv.of_view (inv : s.Inv) (hview : Table.view s.rows call id = some row) (old : Invitation)
    (hold : Table.committed s.rows id = some old) :
    old.Lasts row ∧ (row.consumedAt = none → old.consumedAt = none) := by
  by_cases hheld : (Table.slot s.rows id).heldBy call = true
  · obtain ⟨version, hpending⟩ := Slot.heldBy_iff.mp hheld
    obtain ⟨statement, row', hpend⟩ := inv.pending id call version hpending
    rw [Table.view, Slot.view, hpending, hpend.version] at hview
    obtain rfl : row' = row := Option.some.inj ((if_pos rfl).symm.trans hview)
    exact ⟨(hpend.carries old hold).1, fun _ => (hpend.carries old hold).2⟩
  · rw [Table.view_of_not_heldBy (eq_false_of_ne_true hheld), hold] at hview
    cases hview
    exact ⟨.refl row, fun h => h⟩

/-- What was pending of a revocation before its COMMIT revokes a row. -/
theorem Inv.pending_revoke {version : Option Invitation} (inv : s.Inv)
    (hlook : s.inFlight.lookup call = some statement)
    (hcommit : ∀ tenantId fresh covered, statement ≠ .commit tenantId fresh covered)
    (hpending : (Table.slot s.rows id).pending = some (call, version)) :
    statement.locks = true ∧ ∃ row, version = some row ∧ row.revokedAt.isSome = true ∧
      ∀ old, Table.committed s.rows id = some old → old.Lasts row ∧ old.consumedAt = none := by
  obtain ⟨statement', row, hpend⟩ := inv.pending id call version hpending
  obtain rfl : statement = statement' := Option.some.inj (hlook.symm.trans hpend.inFlight)
  refine ⟨hpend.locks, row, hpend.version, ?_, hpend.carries⟩
  obtain hrevoked | ⟨tenantId, covered, hstatement, -⟩ := hpend.what
  · exact hrevoked
  · exact absurd hstatement (hcommit _ _ _)

theorem mem_outstanding : id ∈ s.outstanding call tenantId now ↔
    ∃ row, Table.view s.rows call id = some row ∧ row.outstanding tenantId now = true := by
  rw [outstanding, ← AList.mem_keys, ← AList.lookup_isSome, Option.isSome_iff_exists]
  simp only [FiniteMap.lookup_retain_eq_some, Table.lookup_snapshot]

/-- What a statement may do. -/
inductive Outcome (s : InvitationDb) (call : CallId) : Statement → InvitationDb → Prop
  | insert {row : Invitation} {rows : Table CallId InvitationId Invitation}
      (hwrite : Table.write s.rows call call (some row) = some rows) :
      Outcome s call (.insert row)
        ({ s with rows := Table.commit rows call }.finish call (s.invited call))
  | sweep {tenantId : TenantId} {now : Int} {fresh : Option Invitation} :
      Outcome s call (.sweep tenantId now fresh) (s.advance call (.revoke tenantId now fresh
        (s.outstanding call tenantId now) (s.outstanding call tenantId now)))
  | skip {tenantId : TenantId} {now : Int} {fresh : Option Invitation}
      {covered rest : List InvitationId} {id : InvitationId}
      (hclosed : ∀ row, Table.view s.rows call id = some row → row.outstanding tenantId now ≠ true) :
      Outcome s call (.revoke tenantId now fresh covered (id :: rest))
        (s.advance call (.revoke tenantId now fresh covered rest))
  | revoke {tenantId : TenantId} {now : Int} {fresh : Option Invitation}
      {covered rest : List InvitationId} {id : InvitationId} {row : Invitation}
      {rows : Table CallId InvitationId Invitation}
      (hview : Table.view s.rows call id = some row) (houtstanding : row.outstanding tenantId now = true)
      (hwrite : Table.write s.rows call id (some { row with revokedAt := some (column now) }) =
        some rows) :
      Outcome s call (.revoke tenantId now fresh covered (id :: rest))
        ({ s with rows := rows }.advance call (.revoke tenantId now fresh covered rest))
  | revoked {tenantId : TenantId} {now : Int} {covered : List InvitationId} :
      Outcome s call (.revoke tenantId now none covered [])
        (s.advance call (.commit tenantId none covered))
  | renew {tenantId : TenantId} {now : Int} {covered : List InvitationId} {row : Invitation}
      {rows : Table CallId InvitationId Invitation}
      (hwrite : Table.write s.rows call call (some row) = some rows) :
      Outcome s call (.revoke tenantId now (some row) covered [])
        ({ s with rows := rows }.advance call (.commit tenantId (some row) covered))
  | commit {tenantId : TenantId} {fresh : Option Invitation} {covered : List InvitationId} :
      Outcome s call (.commit tenantId fresh covered) (s.commitRevocation call tenantId fresh covered)
  | refuse {tenantId : TenantId} {otpHash : OtpHash} {now : Int} (err : OtpError) :
      Outcome s call (.select tenantId otpHash now) (s.finish call (.verified (.error err)))
  | select {tenantId : TenantId} {otpHash : OtpHash} {now : Int} {id : InvitationId} {row : Invitation}
      (hfound : Table.find? s.rows call
        (fun _ row => row.tenantId = tenantId && row.otpHash = otpHash) = some (id, row))
      (hnone : row.refusal now = none) :
      Outcome s call (.select tenantId otpHash now) (s.advance call (.consume id now))
  | late {id : InvitationId} {now : Int} :
      Outcome s call (.consume id now) (s.finish call (.verified (.error .alreadyConsumed)))
  | consume {id : InvitationId} {now : Int} {row : Invitation}
      {rows : Table CallId InvitationId Invitation}
      (hview : Table.view s.rows call id = some row) (hnone : row.consumedAt = none)
      (hwrite : Table.write s.rows call id (some { row with consumedAt := some (column now) }) =
        some rows) :
      Outcome s call (.consume id now)
        ({ s with
          rows := Table.commit rows call
          consumptions := ⟨row.otpHash, s.clock, row.expiresAt, decide (id ∈ s.closed)⟩ ::
            s.consumptions }.finish call (.verified (.ok ())))

/-- What a revocation may find at a row. -/
theorem revokeRow_eq_some {s₁ : InvitationDb} (h : s.revokeRow call tenantId now id = some s₁) :
    (s₁ = s ∧ ∀ row, Table.view s.rows call id = some row → row.outstanding tenantId now ≠ true) ∨
      ∃ row rows, Table.view s.rows call id = some row ∧ row.outstanding tenantId now = true ∧
        Table.write s.rows call id (some { row with revokedAt := some (column now) }) = some rows ∧
          s₁ = { s with rows := rows } := by
  rw [revokeRow] at h
  split at h
  next => cases h
  next =>
    split at h
    next hnone =>
      cases h
      refine .inl ⟨rfl, fun row hrow => ?_⟩
      rw [hnone] at hrow
      cases hrow
    next row hrow =>
      split at h
      next houtstanding =>
        obtain ⟨rows, hwrite, rfl⟩ := Option.map_eq_some_iff.mp h
        exact .inr ⟨row, rows, hrow, houtstanding, hwrite, rfl⟩
      next hclosed =>
        cases h
        refine .inl ⟨rfl, fun row' hrow' => ?_⟩
        rw [hrow] at hrow'
        cases hrow'
        exact hclosed

/-- **Inversion of a step**. -/
theorem outcome_of_step (hstep : s.step call statement = some s') : s.Outcome call statement s' := by
  cases statement with
  | insert row =>
    obtain ⟨rows, hwrite, rfl⟩ := Option.map_eq_some_iff.mp hstep
    exact .insert hwrite
  | sweep tenantId now fresh =>
    cases hstep
    exact .sweep
  | revoke tenantId now fresh covered rest =>
    cases rest with
    | nil =>
      cases fresh with
      | none =>
        cases hstep
        exact .revoked
      | some row =>
        obtain ⟨rows, hwrite, rfl⟩ := Option.map_eq_some_iff.mp hstep
        exact .renew hwrite
    | cons id rest =>
      obtain ⟨s₁, hfound, rfl⟩ := Option.map_eq_some_iff.mp hstep
      obtain ⟨rfl, hclosed⟩ | ⟨row, rows, hview, houtstanding, hwrite, rfl⟩ := revokeRow_eq_some hfound
      · exact .skip hclosed
      · exact .revoke hview houtstanding hwrite
  | commit tenantId fresh covered =>
    cases hstep
    exact .commit
  | select tenantId otpHash now =>
    simp only [InvitationDb.step] at hstep
    split at hstep
    next =>
      cases hstep
      exact .refuse _
    next id row hfound =>
      split at hstep
      next =>
        cases hstep
        exact .refuse _
      next hnone =>
        cases hstep
        exact .select hfound hnone
  | consume id now =>
    simp only [InvitationDb.step, consume] at hstep
    split at hstep
    next =>
      cases hstep
      exact .late
    next row hview =>
      split at hstep
      next =>
        cases hstep
        exact .late
      next hnone =>
        obtain ⟨rows, hwrite, rfl⟩ := Option.map_eq_some_iff.mp hstep
        exact .consume hview (by simpa using hnone) hwrite

/-- A statement that leaves the rows as they are and ends the call. -/
theorem Inv.answer {answer : InvitationAnswer} (inv : s.Inv)
    (hfree : ∀ id, (Table.slot s.rows id).heldBy call = false) : (s.finish call answer).Inv :=
  inv.finish ⟨rfl, rfl, rfl, rfl⟩ (.refl call none s.rows) (fun _ h => by cases h) hfree
    (fun _ => .inl) (.inl rfl)

variable {rows : Table CallId InvitationId Invitation} {fresh : Option Invitation}
  {covered rest : List InvitationId}

theorem Inv.insert (inv : s.Inv) (hlook : s.inFlight.lookup call = some (.insert row))
    (hwrite : Table.write s.rows call call (some row) = some rows) :
    ({ s with rows := Table.commit rows call }.finish call (s.invited call)).Inv := by
  obtain ⟨hissued, hnone⟩ := inv.awaits call _ hlook row rfl
  have hcarries : Carries rows call :=
    (inv.carries call).write hwrite fun old hold => absurd (.inl hold) (hnone old)
  refine inv.finish ⟨rfl, rfl, rfl, rfl⟩ ((Moves.insert hwrite rfl).trans (.commit hcarries))
    (fun row' h => ?_) (fun id => ?_) (fun _ => .inl) (.inl rfl)
  · cases h
    exact hissued
  · show (Table.slot (Table.commit rows call) id).heldBy call = false
    rw [Table.slot_commit, Slot.heldBy_commit_self]

/-- The UPDATE of a revocation takes its snapshot. -/
theorem Inv.sweep (inv : s.Inv)
    (hlook : s.inFlight.lookup call = some (.sweep tenantId now fresh)) :
    (s.advance call (.revoke tenantId now fresh (s.outstanding call tenantId now)
      (s.outstanding call tenantId now))).Inv := by
  have hknows := inv.knows call _ hlook
  have hawaits := inv.awaits call _ hlook
  refine inv.advance s _ hlook ⟨rfl, rfl, rfl, rfl⟩ rfl rfl (.refl call none s.rows)
    (fun _ h => by cases h) hawaits ⟨hknows, fun _ hid => hid, fun id hid => ?_⟩
    fun id version hpending => ?_
  · obtain ⟨row, hrow, houtstanding⟩ := mem_outstanding.mp hid
    obtain ⟨htenant, -, hexpires, -⟩ := outstanding_iff.mp houtstanding
    exact ⟨row, hrow, htenant, hexpires, .inl hid⟩
  · obtain ⟨hlocks, -⟩ := inv.pending_revoke hlook (fun _ _ _ h => by cases h) hpending
    cases hlocks

/-- The UPDATE leaves a row as it is. -/
theorem Inv.skip (inv : s.Inv)
    (hlook : s.inFlight.lookup call = some (.revoke tenantId now fresh covered (id :: rest)))
    (hclosed : ∀ row, Table.view s.rows call id = some row → row.outstanding tenantId now ≠ true) :
    (s.advance call (.revoke tenantId now fresh covered rest)).Inv := by
  obtain ⟨hnow, hsub, hcovered⟩ := inv.knows call _ hlook
  have hawaits := inv.awaits call _ hlook
  refine inv.advance s _ hlook ⟨rfl, rfl, rfl, rfl⟩ rfl rfl (.refl call none s.rows)
    (fun _ h => by cases h) hawaits
    ⟨hnow, fun id' hid => hsub id' (List.mem_cons_of_mem _ hid), fun id' hid => ?_⟩
    fun id' version hpending => ?_
  · obtain ⟨row, hrow, htenant, hexpires, hdone⟩ := hcovered id' hid
    refine ⟨row, hrow, htenant, hexpires, ?_⟩
    obtain hmem | hdone := hdone
    · obtain rfl | hmem := List.mem_cons.mp hmem
      · exact .inr (Invitation.closed_of_not_outstanding (hclosed row hrow) htenant hexpires)
      · exact .inl hmem
    · exact .inr hdone
  · obtain ⟨-, row, hversion, hrevoked, hcarries⟩ :=
      inv.pending_revoke hlook (fun _ _ _ h => by cases h) hpending
    exact ⟨_, row, AList.lookup_insert _, rfl, hversion, hcarries, .inl hrevoked⟩

/-- The UPDATE revokes a row. -/
theorem Inv.revoke (inv : s.Inv)
    (hlook : s.inFlight.lookup call = some (.revoke tenantId now fresh covered (id :: rest)))
    (hview : Table.view s.rows call id = some row) (houtstanding : row.outstanding tenantId now = true)
    (hwrite : Table.write s.rows call id (some { row with revokedAt := some (column now) }) =
      some rows) :
    ({ s with rows := rows }.advance call (.revoke tenantId now fresh covered rest)).Inv := by
  obtain ⟨hnow, hsub, hcovered⟩ := inv.knows call _ hlook
  have hcommitted := Table.committed_write hwrite
  have hseen := Table.view_write hwrite
  have hmoves : Moves call none s.rows rows := .write hwrite hview (.revoke row _)
  refine inv.advance { s with rows := rows } (.revoke tenantId now fresh covered rest) hlook
    ⟨rfl, rfl, rfl, rfl⟩ rfl rfl hmoves (fun _ h => by cases h) (fun new hnew => ?_)
    ⟨hnow, fun id' hid => hsub id' (List.mem_cons_of_mem _ hid), fun id' hid => ?_⟩
    fun id' version hpending => ?_
  · obtain ⟨hissued, hnone⟩ := inv.awaits call _ hlook new hnew
    refine ⟨hissued, fun row' hversion => ?_⟩
    obtain ⟨old, hold, -⟩ | ⟨-, _, hnew', -⟩ := hmoves.versions call row' hversion
    · exact hnone old hold
    · cases hnew'
  · obtain ⟨row', hrow', htenant, hexpires, hdone⟩ := hcovered id' hid
    by_cases heq : id' = id
    · subst heq
      obtain rfl : row = row' := Option.some.inj (hview.symm.trans hrow')
      exact ⟨_, (hseen id').trans (if_pos rfl), htenant, hexpires, .inr (.inl rfl)⟩
    · refine ⟨row', ((hseen id').trans (if_neg heq)).trans hrow', htenant, hexpires, ?_⟩
      exact hdone.imp_left fun hmem => (List.mem_cons.mp hmem).resolve_left heq
  · have hslot : (Table.slot rows id').pending = some (call, version) := hpending
    rw [(Table.write_eq_some hwrite).2 id'] at hslot
    refine ⟨.revoke tenantId now fresh covered rest, ?_⟩
    by_cases heq : id' = id
    · rw [if_pos heq] at hslot
      cases hslot
      refine ⟨_, AList.lookup_insert _, rfl, rfl, fun old hold => ?_, .inl rfl⟩
      rw [heq] at hold
      obtain ⟨hlasts, hconsumed⟩ := inv.of_view hview old ((hcommitted id).symm.trans hold)
      exact ⟨hlasts.trans (.revoke row _), hconsumed (outstanding_iff.mp houtstanding).2.1⟩
    · rw [if_neg heq] at hslot
      obtain ⟨-, row', hversion, hrevoked, hcarries⟩ :=
        inv.pending_revoke hlook (fun _ _ _ h => by cases h) hslot
      exact ⟨row', AList.lookup_insert _, rfl, hversion,
        fun old hold => hcarries old ((hcommitted id').symm.trans hold), .inl hrevoked⟩

/-- What an UPDATE knows at the end of its snapshot. -/
theorem Inv.closed_of_covered (inv : s.Inv)
    (hlook : s.inFlight.lookup call = some (.revoke tenantId now fresh covered [])) :
    ∀ id ∈ covered, ∃ row, Table.view s.rows call id = some row ∧ row.Closed := by
  intro id hid
  obtain ⟨row, hrow, -, -, hdone⟩ := (inv.knows call _ hlook).2.2 id hid
  exact ⟨row, hrow, hdone.resolve_left List.not_mem_nil⟩

theorem Inv.revoked (inv : s.Inv)
    (hlook : s.inFlight.lookup call = some (.revoke tenantId now none covered [])) :
    (s.advance call (.commit tenantId none covered)).Inv := by
  refine inv.advance s _ hlook ⟨rfl, rfl, rfl, rfl⟩ rfl rfl (.refl call none s.rows)
    (fun _ h => by cases h) (fun _ h => by cases h) (inv.closed_of_covered hlook)
    fun id version hpending => ?_
  obtain ⟨-, row, hversion, hrevoked, hcarries⟩ :=
    inv.pending_revoke hlook (fun _ _ _ h => by cases h) hpending
  exact ⟨_, row, AList.lookup_insert _, rfl, hversion, hcarries, .inl hrevoked⟩

/-- The INSERT of a renewal. -/
theorem Inv.renew (inv : s.Inv)
    (hlook : s.inFlight.lookup call = some (.revoke tenantId now (some row) covered []))
    (hwrite : Table.write s.rows call call (some row) = some rows) :
    ({ s with rows := rows }.advance call (.commit tenantId (some row) covered)).Inv := by
  obtain ⟨hissued, hnone⟩ := inv.awaits call _ hlook row rfl
  have hmoves : Moves call (some row) s.rows rows := .insert hwrite rfl
  refine inv.advance { s with rows := rows } (.commit tenantId (some row) covered) hlook
    ⟨rfl, rfl, rfl, rfl⟩ rfl rfl hmoves (fun new h => ?_) (fun _ h => by cases h)
    (fun id hid => ?_) fun id version hpending => ?_
  · cases h
    exact hissued
  · obtain ⟨row', hrow', hclosed⟩ := inv.closed_of_covered hlook id hid
    have hne : id ≠ call := by
      rintro rfl
      exact hnone row' (Slot.HasVersion.of_view hrow')
    exact ⟨row', ((Table.view_write hwrite id).trans (if_neg hne)).trans hrow', hclosed⟩
  · have hslot : (Table.slot rows id).pending = some (call, version) := hpending
    have hcommitted := Table.committed_write hwrite id
    rw [(Table.write_eq_some hwrite).2 id] at hslot
    refine ⟨.commit tenantId (some row) covered, ?_⟩
    by_cases heq : id = call
    · rw [if_pos heq] at hslot
      cases hslot
      refine ⟨row, AList.lookup_insert _, rfl, rfl, fun old hold => ?_,
        .inr ⟨tenantId, covered, rfl, heq, (inv.knows call _ hlook).1.2 row rfl⟩⟩
      rw [heq] at hold hcommitted
      exact absurd (.inl (hcommitted.symm.trans hold)) (hnone old)
    · rw [if_neg heq] at hslot
      obtain ⟨-, row', hversion, hrevoked, hcarries⟩ :=
        inv.pending_revoke hlook (fun _ _ _ h => by cases h) hslot
      exact ⟨row', AList.lookup_insert _, rfl, hversion,
        fun old hold => hcarries old (hcommitted.symm.trans hold), .inl hrevoked⟩

/-- The COMMIT of a revocation closes the rows it covers. -/
theorem Inv.commit (inv : s.Inv)
    (hlook : s.inFlight.lookup call = some (.commit tenantId fresh covered)) :
    (s.commitRevocation call tenantId fresh covered).Inv := by
  refine inv.finish ⟨rfl, rfl, rfl, rfl⟩ (.commit (inv.carries call))
    (fun (_ : Invitation) (h : none = some _) => by cases h) (fun id => ?_) (fun id hid => ?_)
    (.inl rfl)
  · show (Table.slot (Table.commit s.rows call) id).heldBy call = false
    rw [Table.slot_commit, Slot.heldBy_commit_self]
  · obtain hnow | hbefore := List.mem_append.mp hid
    · obtain ⟨row, hrow, hclosed⟩ := inv.knows call _ hlook id hnow
      exact .inr ⟨row, Table.committed_commit.trans hrow, hclosed⟩
    · exact .inl hbefore

/-- A verification holds no lock. -/
theorem Inv.free_of_lookup (inv : s.Inv) (hlook : s.inFlight.lookup call = some statement)
    (hlocks : statement.locks = false) (id : InvitationId) :
    (Table.slot s.rows id).heldBy call = false := by
  refine inv.not_heldBy (fun statement' hlook' => ?_) id
  rw [hlook] at hlook'
  cases hlook'
  exact hlocks

theorem Inv.select {otpHash : OtpHash} (inv : s.Inv)
    (hlook : s.inFlight.lookup call = some (.select tenantId otpHash now))
    (hfound : Table.find? s.rows call
      (fun _ row => row.tenantId = tenantId && row.otpHash = otpHash) = some (id, row)) :
    (s.advance call (.consume id now)).Inv := by
  have hfree := inv.free_of_lookup hlook rfl
  obtain ⟨hview, -⟩ := Table.find?_eq_some hfound
  rw [Table.view_of_not_heldBy (hfree id)] at hview
  refine inv.advance s _ hlook ⟨rfl, rfl, rfl, rfl⟩ rfl rfl (.refl call none s.rows)
    (fun _ h => by cases h) (fun _ h => by cases h) ⟨row, hview⟩ fun id' version hpending => ?_
  have hheld := hfree id'
  rw [Slot.heldBy_iff.mpr ⟨version, hpending⟩] at hheld
  cases hheld

/-- The rows behind an UPDATE of its own. -/
theorem committed_consume (hwrite : Table.write s.rows call id (some row') = some rows)
    (hfree : ∀ id, (Table.slot s.rows id).heldBy call = false) (id' : InvitationId) :
    Table.committed (Table.commit rows call) id' =
      if id' = id then some row' else Table.committed s.rows id' := by
  rw [Table.committed, Table.slot_autocommit hwrite hfree id']
  split <;> rfl

theorem Inv.consume (inv : s.Inv) (hlook : s.inFlight.lookup call = some (.consume id now))
    (hview : Table.view s.rows call id = some row) (hnone : row.consumedAt = none)
    (hwrite : Table.write s.rows call id (some { row with consumedAt := some (column now) }) =
      some rows) :
    ({ s with
      rows := Table.commit rows call
      consumptions := ⟨row.otpHash, s.clock, row.expiresAt, decide (id ∈ s.closed)⟩ ::
        s.consumptions }.finish call (.verified (.ok ()))).Inv := by
  have hfree := inv.free_of_lookup hlook rfl
  have hrow := hview
  rw [Table.view_of_not_heldBy (hfree id)] at hrow
  have hlasts : row.Lasts { row with consumedAt := some (column now) } := .consume row _
  have hcarries : Carries rows call := (inv.carries call).write hwrite fun old hold => by
    rw [hrow] at hold
    cases hold
    exact hlasts
  have hmoves : Moves call none s.rows rows := .write hwrite hview hlasts
  refine inv.finish ⟨rfl, rfl, rfl, rfl⟩ (hmoves.trans (.commit hcarries))
    (fun _ h => by cases h) (fun id' => ?_) (fun _ => .inl) (.inr ?_)
  · show (Table.slot (Table.commit rows call) id').heldBy call = false
    rw [Table.slot_commit, Slot.heldBy_commit_self]
  · exact ⟨_, id, row, _, rfl, hrow, rfl, hnone,
      (committed_consume hwrite hfree id).trans (if_pos rfl), hlasts, rfl⟩

theorem Inv.step (inv : s.Inv) (hlook : s.inFlight.lookup call = some statement)
    (hstep : s.step call statement = some s') : s'.Inv := by
  cases outcome_of_step hstep with
  | insert hwrite => exact inv.insert hlook hwrite
  | sweep => exact inv.sweep hlook
  | skip hclosed => exact inv.skip hlook hclosed
  | revoke hview houtstanding hwrite => exact inv.revoke hlook hview houtstanding hwrite
  | revoked => exact inv.revoked hlook
  | renew hwrite => exact inv.renew hlook hwrite
  | commit => exact inv.commit hlook
  | refuse err => exact inv.answer (inv.free_of_lookup hlook rfl)
  | select hfound hnone => exact inv.select hlook hfound
  | late => exact inv.answer (inv.free_of_lookup hlook rfl)
  | consume hview hnone hwrite => exact inv.consume hlook hview hnone hwrite

/-- The next call has not begun. -/
theorem Inv.lookup_calls (inv : s.Inv) : s.inFlight.lookup s.calls = none := by
  by_contra h
  obtain ⟨statement, hlook⟩ := Option.ne_none_iff_exists'.mp h
  exact Nat.lt_irrefl _ (inv.begun _ _ hlook)

theorem Inv.not_hasVersion (inv : s.Inv) (row : Invitation) :
    ¬ (Table.slot s.rows s.calls).HasVersion row := by
  intro h
  obtain ⟨issue, hissue, -⟩ := inv.rows _ row h
  exact Nat.lt_irrefl _ (inv.issues.begun _ _ hissue)

/-- A call arrives, at most. -/
theorem Inv.arrive (inv : s.Inv) (hrows : s'.rows = s.rows) (hclock : s'.clock = s.clock)
    (hcalls : s'.calls = s.calls + 1) (hclosed : s'.closed = s.closed)
    (hconsumptions : s'.consumptions = s.consumptions) (hissues : s'.Issues)
    (hissued : ∀ call issue, s.issued.lookup call = some issue → s'.issued.lookup call = some issue)
    (hothers : ∀ call', call' ≠ s.calls → s'.inFlight.lookup call' = s.inFlight.lookup call')
    (hown : ∀ statement, s'.inFlight.lookup s.calls = some statement →
      s'.Awaits s.calls statement ∧ s'.Knows s.calls statement) : s'.Inv := by
  have hmoves : Moves s.calls none s.rows s'.rows := by
    rw [hrows]
    exact .refl _ _ _
  refine inv.carry hmoves (fun _ h => by cases h) (Int.le_of_eq hclock.symm)
    (hcalls ▸ Nat.le_succ _) hissues hissued hothers (fun statement hlook => ?_)
    (fun id version hpending => ?_) (fun id hid => .inl (hclosed ▸ hid)) (.inl hconsumptions)
  · exact ⟨hcalls ▸ Nat.lt_succ_self _, hown statement hlook⟩
  · rw [hrows] at hpending
    obtain ⟨statement, row, hpend⟩ := inv.pending id s.calls version hpending
    exact absurd hpend.inFlight (by rw [inv.lookup_calls]; exact fun h => by cases h)

/-- What an endpoint that issues an invitation does before the store. -/
theorem issue_eq_some {ttlSeconds : Option UInt64} {otpHash : OtpHash}
    {statement : Invitation → Statement}
    (h : s.issue tenantId ttlSeconds otpHash statement = some s') :
    (∀ issue ∈ s.issued.values, issue.otpHash ≠ otpHash) ∧
      ((invitationExpiry s.clock (ttlSeconds.getD invitationDefaultTtlSeconds) = none ∧
        s' = { s with calls := s.calls + 1, answers := s.answers.insert s.calls .panicked }) ∨
      ∃ time row, invitationExpiry s.clock (ttlSeconds.getD invitationDefaultTtlSeconds) = some time ∧
        row.tenantId = tenantId ∧ row.otpHash = otpHash ∧ row.expiresAt = column time ∧
          s' = { s.begin (statement row) with
            issued := s.issued.insert s.calls
              ⟨s.clock, ttlSeconds.getD invitationDefaultTtlSeconds, otpHash, time⟩ }) := by
  simp only [issue] at h
  split at h
  next => cases h
  next hfresh =>
    refine ⟨fun issue hmem heq => hfresh ?_, ?_⟩
    · exact List.any_eq_true.mpr ⟨issue, hmem, decide_eq_true heq⟩
    · split at h
      next hnone =>
        cases h
        exact .inl ⟨hnone, rfl⟩
      next time hsome =>
        cases h
        exact .inr ⟨time, _, hsome, rfl, rfl, rfl, rfl⟩

theorem Inv.issue {ttlSeconds : Option UInt64} {otpHash : OtpHash}
    {statement : Invitation → Statement} (inv : s.Inv)
    (hinsert : ∀ row, (statement row).toInsert = some row)
    (hknows : ∀ row, row.tenantId = tenantId → ∀ s' : InvitationDb, s'.clock = s.clock →
      s'.Knows s.calls (statement row))
    (h : s.issue tenantId ttlSeconds otpHash statement = some s') : s'.Inv := by
  obtain ⟨hfresh, ⟨-, rfl⟩ | ⟨time, row, -, htenant, hhash, hexpires, rfl⟩⟩ := issue_eq_some h
  · refine inv.arrive rfl rfl rfl rfl rfl (inv.issues.of_eq rfl (Nat.le_succ _)) (fun _ _ h => h)
      (fun _ _ => rfl) fun statement hlook => ?_
    have hnone := inv.lookup_calls
    rw [show s.inFlight.lookup s.calls = some statement from hlook] at hnone
    cases hnone
  · set new : Issue := ⟨s.clock, ttlSeconds.getD invitationDefaultTtlSeconds, otpHash, time⟩
    have hlookup : ∀ call, (s.issued.insert s.calls new).lookup call =
        if call = s.calls then some new else s.issued.lookup call :=
      fun call => FiniteMap.lookup_insert_ite _ _ _ _
    have hold : ∀ call issue, s.issued.lookup call = some issue →
        (s.issued.insert s.calls new).lookup call = some issue := by
      intro call issue hissue
      rw [hlookup, if_neg (Nat.ne_of_lt (inv.issues.begun call issue hissue))]
      exact hissue
    have hnew : (s.issued.insert s.calls new).lookup s.calls = some new :=
      (hlookup s.calls).trans (if_pos rfl)
    refine inv.arrive rfl rfl rfl rfl rfl ?_ hold (fun call' hne => ?_) fun statement' hlook => ?_
    · constructor
      · intro call issue hissue
        have hissue' : (s.issued.insert s.calls new).lookup call = some issue := hissue
        rw [hlookup] at hissue'
        split at hissue'
        next heq => subst heq; exact Nat.lt_succ_self _
        next => exact Nat.lt_succ_of_lt (inv.issues.begun call issue hissue')
      · intro call call' issue issue' hissue hissue' heq
        have h₁ : (s.issued.insert s.calls new).lookup call = some issue := hissue
        have h₂ : (s.issued.insert s.calls new).lookup call' = some issue' := hissue'
        rw [hlookup] at h₁ h₂
        by_cases hc : call = s.calls <;> by_cases hc' : call' = s.calls
        · rw [hc, hc']
        · rw [if_pos hc] at h₁
          rw [if_neg hc'] at h₂
          cases h₁
          have hmem := (FiniteMap.mem_values_iff _ _).mpr ⟨call', h₂⟩
          exact absurd heq.symm (hfresh issue' hmem)
        · rw [if_neg hc] at h₁
          rw [if_pos hc'] at h₂
          cases h₂
          have hmem := (FiniteMap.mem_values_iff _ _).mpr ⟨call, h₁⟩
          exact absurd heq (hfresh issue hmem)
        · rw [if_neg hc] at h₁
          rw [if_neg hc'] at h₂
          exact inv.issues.distinct call call' issue issue' h₁ h₂ heq
    · exact (lookup_begin _ _ _).trans (if_neg hne)
    · have hstatement : (s.begin (statement row)).inFlight.lookup s.calls = some statement' := hlook
      rw [lookup_begin, if_pos rfl] at hstatement
      cases hstatement
      refine ⟨fun row' hrow' => ?_, hknows row htenant _ rfl⟩
      rw [hinsert] at hrow'
      cases hrow'
      exact ⟨⟨new, hnew, hhash.symm, hexpires⟩, inv.not_hasVersion⟩

/-- A call arrives that issues nothing. -/
theorem Inv.begin (inv : s.Inv) (hinsert : statement.toInsert = none)
    (hknows : ∀ s' : InvitationDb, s'.clock = s.clock → s'.Knows s.calls statement) :
    (s.begin statement).Inv := by
  refine inv.arrive rfl rfl rfl rfl rfl (inv.issues.of_eq rfl (Nat.le_succ _)) (fun _ _ h => h)
    (fun call' hne => (lookup_begin _ _ _).trans (if_neg hne)) fun statement' hlook => ?_
  rw [lookup_begin, if_pos rfl] at hlook
  cases hlook
  refine ⟨fun row hrow => ?_, hknows _ rfl⟩
  rw [hinsert] at hrow
  cases hrow

theorem Inv.fail (inv : s.Inv) :
    ({ s with rows := Table.rollback s.rows call }.finish call .databaseError).Inv := by
  have hmoves : Moves call none s.rows (Table.rollback s.rows call) := .rollback
  refine inv.finish ⟨rfl, rfl, rfl, rfl⟩ hmoves (fun _ h => by cases h) (fun id => ?_)
    (fun _ => .inl) (.inl rfl)
  show (Table.slot (Table.rollback s.rows call) id).heldBy call = false
  apply eq_false_of_ne_true
  intro hheld
  obtain ⟨version, hpending⟩ := Slot.heldBy_iff.mp hheld
  rw [Table.slot_rollback] at hpending
  exact (Slot.pending_rollback.mp hpending).2 rfl

/-- The clock moves on. -/
theorem Inv.tick (inv : s.Inv) (htick : s.clock ≤ now) : Inv { s with clock := now } where
  begun := inv.begun
  issues := inv.issues.of_eq rfl le_rfl
  rows := inv.rows
  awaits := inv.awaits
  knows call statement hlook := by
    have hknows := inv.knows call statement hlook
    cases statement with
    | insert | select | commit | consume => exact hknows
    | sweep => exact ⟨Int.le_trans hknows.1 htick, hknows.2⟩
    | revoke => exact ⟨⟨Int.le_trans hknows.1.1 htick, hknows.1.2⟩, hknows.2⟩
  pending id call version hpending := by
    obtain ⟨statement, row, hpend⟩ := inv.pending id call version hpending
    exact ⟨statement, row, hpend.inFlight, hpend.locks, hpend.version, hpend.carries, hpend.what⟩
  closed := inv.closed
  consumed := inv.consumed
  once := inv.once

/-- **Step lemma**: every event keeps the invariant. -/
theorem Inv.next {e : InvitationEvent} (inv : s.Inv) (hnext : s.next e = some s') : s'.Inv := by
  cases e with
  | tick now =>
    simp only [InvitationDb.next] at hnext
    split at hnext
    next htick => cases hnext; exact inv.tick htick
    next => cases hnext
  | createInvitation tenantId ttlSeconds otpHash =>
    have hissue : s.issue tenantId ttlSeconds otpHash .insert = some s' := hnext
    refine Inv.issue inv (fun _ => rfl) (fun _ _ _ _ => ?_) hissue
    trivial
  | renewInvitation tenantId ttlSeconds otpHash =>
    have hissue : s.issue tenantId ttlSeconds otpHash (fun row => .sweep tenantId s.clock (some row)) =
        some s' := hnext
    refine Inv.issue inv (fun _ => rfl) (fun row htenant s' hclock => ?_) hissue
    refine ⟨Int.le_of_eq hclock.symm, fun row' hrow' => ?_⟩
    cases hrow'
    exact htenant
  | revokeInvitations tenantId =>
    cases hnext
    exact inv.begin rfl fun s' hclock => ⟨Int.le_of_eq hclock.symm, fun _ h => by cases h⟩
  | verifyAndConsume tenantId otpHash =>
    cases hnext
    exact inv.begin rfl fun _ _ => trivial
  | run call =>
    obtain ⟨statement, hlook, hstep⟩ := Option.bind_eq_some_iff.mp hnext
    exact inv.step hlook hstep
  | fail call =>
    obtain ⟨statement, -, rfl⟩ := Option.map_eq_some_iff.mp hnext
    exact inv.fail

theorem inv_init (clock : Int) : (init clock).Inv := by
  have hrows : ∀ id row, ¬ (Table.slot (init clock).rows id).HasVersion row := by
    rintro id row (h | ⟨call, h⟩) <;> cases h
  exact ⟨fun _ _ h => (by cases h), ⟨fun _ _ h => (by cases h), fun _ _ _ _ h => by cases h⟩,
    fun id row h => absurd h (hrows id row), fun _ _ h => (by cases h), fun _ _ h => (by cases h),
    fun _ _ _ h => (by cases h), fun _ h => absurd h List.not_mem_nil,
    fun _ h => absurd h List.not_mem_nil, List.nodup_nil⟩

theorem inv_of_reachable {C : InvitationDb → InvitationEvent → Prop}
    (hreach : invitations.ReachableUnder C s) : s.Inv := by
  apply hreach.invariant
  · rintro t ⟨clock, -, rfl⟩
    exact inv_init clock
  · exact fun t e t' inv _ hnext => inv.next hnext

end InvitationDb

end Botwork.AuthBroker
