import Botwork.AuthBroker.Renewals

/-!
# The lifecycle of invitations

Of renewals that do not overlap between the snapshot and the COMMIT, the last one
leaves its own invitation and no other.

## Main definitions

- `InvitationDb.Covers` — what the UPDATE of a renewal has still to revoke
- `InvitationDb.Renewing` — the invariant of a tenant while it is renewed

## Main results

- `invitation_lifecycle` — what holds of the runs in which nothing is disturbed
-/

namespace Botwork.AuthBroker

open Botwork.Foundations

variable {row row' : Invitation} {tenantId : TenantId} {now now' : Int}

/-- An outstanding row was outstanding before. -/
theorem Invitation.Lasts.outstanding (hlasts : row.Lasts row') (hnow : now ≤ now')
    (h : row'.outstanding tenantId now' = true) : row.outstanding tenantId now = true := by
  obtain ⟨htenant, hconsumed, hexpires, hrevoked⟩ := outstanding_iff.mp h
  refine outstanding_iff.mpr ⟨hlasts.tenantId.symm.trans htenant, ?_, ?_, ?_⟩
  · by_contra hsome
    have hlater := hlasts.consumedAt (Option.isSome_iff_ne_none.mpr hsome)
    rw [hconsumed] at hlater
    cases hlater
  · have hexpiry := hlasts.expiresAt
    omega
  · by_contra hsome
    have hlater := hlasts.revokedAt (Option.isSome_iff_ne_none.mpr hsome)
    rw [hrevoked] at hlater
    cases hlater

/-- The event creates an invitation of the tenant. -/
def InvitationEvent.creates (tenantId : TenantId) : InvitationEvent → Bool
  | .createInvitation tenantId' _ _ => tenantId' = tenantId
  | _ => false

/-- The rows of its snapshot that the UPDATE has not come to. -/
def Statement.rest : Statement → List InvitationId
  | .revoke _ _ _ _ rest => rest
  | _ => []

namespace InvitationDb

variable {s s' : InvitationDb} {call call' : CallId} {statement : Statement} {id : InvitationId}
  {old : List (CallId × TenantId)}

/-- A renewal of the tenant has returned that had not then. -/
def Renewed (s : InvitationDb) (tenantId : TenantId) (old : List (CallId × TenantId)) : Prop :=
  ∃ call, (call, tenantId) ∈ s.renewed ∧ (call, tenantId) ∉ old

/-- The UPDATE of the call has revoked, or is to come to, every row that is
    outstanding. -/
def Covers (s : InvitationDb) (tenantId : TenantId) (call : CallId) (statement : Statement) : Prop :=
  ∀ id row, Table.committed s.rows id = some row → row.outstanding tenantId s.clock = true →
    id ∈ statement.rest ∨
      ∃ row', (Table.slot s.rows id).pending = some (call, some row') ∧ row'.revokedAt.isSome = true

/-- No renewal of the tenant takes its snapshot while another has its own. -/
def serial (s : InvitationDb) (tenantId : TenantId) : Statement → Bool
  | .sweep tenantId' _ (some _) =>
    tenantId' ≠ tenantId || s.inFlight.all fun _ statement => !statement.renewing tenantId
  | _ => true

structure Renewing (s : InvitationDb) (tenantId : TenantId) (old : List (CallId × TenantId)) :
    Prop where
  alone : ∀ call call' statement statement', s.inFlight.lookup call = some statement →
    s.inFlight.lookup call' = some statement' → statement.renewing tenantId = true →
      statement'.renewing tenantId = true → call = call'
  creates : ∀ call statement, s.inFlight.lookup call = some statement →
    statement.creates tenantId = false
  covers : ∀ call statement, s.inFlight.lookup call = some statement →
    statement.renewing tenantId = true → s.Covers tenantId call statement
  one : s.Renewed tenantId old → ∀ id id' row row', Table.committed s.rows id = some row →
    Table.committed s.rows id' = some row' → row.outstanding tenantId s.clock = true →
      row'.outstanding tenantId s.clock = true → id = id'

/-- A step leaves the others' locks. -/
theorem frame_of_step (hstep : s.step call statement = some s') :
    Table.Frame call s.rows s'.rows := by
  cases outcome_of_step hstep with
  | insert hwrite => exact (Table.frame_write hwrite).trans Table.frame_commit
  | sweep | skip | revoked | refuse | select | late => exact Table.Frame.refl call s.rows
  | revoke hview houtstanding hwrite => exact Table.frame_write hwrite
  | renew hwrite => exact Table.frame_write hwrite
  | commit => exact Table.frame_commit
  | consume hview hnone hwrite => exact (Table.frame_write hwrite).trans Table.frame_commit

/-- A row that is outstanding after a step was outstanding before, or is the row of a
    create or of a renewal. -/
theorem outstanding_of_step (inv : s.Inv) (hlook : s.inFlight.lookup call = some statement)
    (hstep : s.step call statement = some s') (hrow : Table.committed s'.rows id = some row)
    (hout : row.outstanding tenantId now = true) :
    (∃ row, Table.committed s.rows id = some row ∧ row.outstanding tenantId now = true) ∨
      id = call ∧ (statement.creates tenantId = true ∨
        ∃ covered, statement = .commit tenantId (some row) covered) := by
  cases outcome_of_step hstep with
  | sweep | skip | revoked | refuse | select | late => exact .inl ⟨row, hrow, hout⟩
  | revoke hview houtstanding hwrite =>
    exact .inl ⟨row, (Table.committed_write hwrite id).symm.trans hrow, hout⟩
  | renew hwrite => exact .inl ⟨row, (Table.committed_write hwrite id).symm.trans hrow, hout⟩
  | insert hwrite =>
    have hcommitted := (committed_consume hwrite (inv.free_of_lookup hlook rfl) id).symm.trans hrow
    by_cases heq : id = call
    · rw [if_pos heq] at hcommitted
      cases hcommitted
      exact .inr ⟨heq, .inl (decide_eq_true (outstanding_iff.mp hout).1)⟩
    · rw [if_neg heq] at hcommitted
      exact .inl ⟨row, hcommitted, hout⟩
  | commit =>
    have hview : Table.view s.rows call id = some row := Table.committed_commit.symm.trans hrow
    cases hbefore : Table.committed s.rows id with
    | some row' => exact .inl ⟨row', rfl, (inv.of_view hview row' hbefore).1.outstanding (Int.le_refl _) hout⟩
    | none =>
      have hpending := Slot.pending_of_view hview fun hcommitted => by
        cases hbefore.symm.trans hcommitted
      obtain ⟨statement, new, hpend⟩ := inv.pending id call (some row) hpending
      cases hpend.version
      cases hlook.symm.trans hpend.inFlight
      obtain hrevoked | ⟨tenantId', covered, hstatement, heq, htenant⟩ := hpend.what
      · rw [(outstanding_iff.mp hout).2.2.2] at hrevoked
        cases hrevoked
      · obtain rfl : tenantId' = tenantId := htenant.symm.trans (outstanding_iff.mp hout).1
        exact .inr ⟨heq, .inr ⟨covered, hstatement⟩⟩
  | consume hview hnone hwrite =>
    have hfree := inv.free_of_lookup hlook rfl
    have hcommitted := (committed_consume hwrite hfree id).symm.trans hrow
    split at hcommitted
    next heq =>
      cases hcommitted
      cases (outstanding_iff.mp hout).2.1
    next => exact .inl ⟨row, hcommitted, hout⟩

/-- What a call of the tenant covers is not touched by the others. -/
theorem Covers.carry (h : s.Covers tenantId call' statement) (hframe : Table.Frame call s.rows s'.rows)
    (hne : call' ≠ call)
    (hrows : ∀ id row, Table.committed s'.rows id = some row →
      row.outstanding tenantId s'.clock = true →
        ∃ row, Table.committed s.rows id = some row ∧ row.outstanding tenantId s.clock = true) :
    s'.Covers tenantId call' statement := by
  intro id row hrow hout
  obtain ⟨row₀, hrow₀, hout₀⟩ := hrows id row hrow hout
  obtain hrest | ⟨row', hpending, hrevoked⟩ := h id row₀ hrow₀ hout₀
  · exact .inl hrest
  · exact .inr ⟨row', (hframe id _ hne).1.mpr hpending, hrevoked⟩

/-- **Frame of a renewal**: a step that starts none keeps the invariant when no row
    becomes outstanding and its own call covers what it did. -/
theorem Renewing.carry (h : s.Renewing tenantId old) (hframe : Table.Frame call s.rows s'.rows)
    (hothers : ∀ call', call' ≠ call → s'.inFlight.lookup call' = s.inFlight.lookup call')
    (hrenewed : s'.Renewed tenantId old → s.Renewed tenantId old)
    (hrows : ∀ id row, Table.committed s'.rows id = some row →
      row.outstanding tenantId s'.clock = true →
        ∃ row, Table.committed s.rows id = some row ∧ row.outstanding tenantId s.clock = true)
    (hown : ∀ statement', s'.inFlight.lookup call = some statement' →
      statement'.creates tenantId = false ∧ (statement'.renewing tenantId = true →
        (∃ statement, s.inFlight.lookup call = some statement ∧
          statement.renewing tenantId = true) ∧ s'.Covers tenantId call statement')) :
    s'.Renewing tenantId old := by
  have hbefore : ∀ call' statement', s'.inFlight.lookup call' = some statement' →
      statement'.renewing tenantId = true → ∃ statement, s.inFlight.lookup call' = some statement ∧
        statement.renewing tenantId = true := by
    intro call' statement' hlook hrenewing
    by_cases heq : call' = call
    · subst heq
      exact ((hown statement' hlook).2 hrenewing).1
    · exact ⟨statement', (hothers call' heq).symm.trans hlook, hrenewing⟩
  constructor
  · intro call₁ call₂ statement₁ statement₂ hlook₁ hlook₂ hrenewing₁ hrenewing₂
    obtain ⟨_, hlook₁', hrenewing₁'⟩ := hbefore call₁ statement₁ hlook₁ hrenewing₁
    obtain ⟨_, hlook₂', hrenewing₂'⟩ := hbefore call₂ statement₂ hlook₂ hrenewing₂
    exact h.alone call₁ call₂ _ _ hlook₁' hlook₂' hrenewing₁' hrenewing₂'
  · intro call' statement' hlook
    by_cases heq : call' = call
    · subst heq
      exact (hown statement' hlook).1
    · exact h.creates call' statement' ((hothers call' heq).symm.trans hlook)
  · intro call' statement' hlook hrenewing
    by_cases heq : call' = call
    · subst heq
      exact ((hown statement' hlook).2 hrenewing).2
    · rw [hothers call' heq] at hlook
      exact (h.covers call' statement' hlook hrenewing).carry hframe heq hrows
  · intro hsome id id' row row' hrow hrow' hout hout'
    obtain ⟨row₀, hrow₀, hout₀⟩ := hrows id row hrow hout
    obtain ⟨row₁, hrow₁, hout₁⟩ := hrows id' row' hrow' hout'
    exact h.one (hrenewed hsome) id id' row₀ row₁ hrow₀ hrow₁ hout₀ hout₁

/-- A step that neither creates nor renews makes no row outstanding. -/
theorem rows_of_step (inv : s.Inv) (hlook : s.inFlight.lookup call = some statement)
    (hstep : s.step call statement = some s') (hcreates : statement.creates tenantId = false)
    (hcommit : ∀ row covered, statement ≠ .commit tenantId (some row) covered)
    (id : InvitationId) (row : Invitation) (hrow : Table.committed s'.rows id = some row)
    (hout : row.outstanding tenantId s'.clock = true) :
    ∃ row, Table.committed s.rows id = some row ∧ row.outstanding tenantId s.clock = true := by
  rw [(stepFrame_step hstep).clock] at hout
  obtain hbefore | ⟨-, hcreated | ⟨covered, hstatement⟩⟩ :=
    outstanding_of_step inv hlook hstep hrow hout
  · exact hbefore
  · rw [hcreates] at hcreated
    cases hcreated
  · exact absurd hstatement (hcommit row covered)

/-- A step that ends a call, or goes on to a statement of no renewal. -/
theorem Renewing.step_other (h : s.Renewing tenantId old) (inv : s.Inv)
    (hlook : s.inFlight.lookup call = some statement)
    (hstep : s.step call statement = some s') (hcreates : statement.creates tenantId = false)
    (hcommit : ∀ row covered, statement ≠ .commit tenantId (some row) covered)
    (hrenewed : s'.Renewed tenantId old → s.Renewed tenantId old)
    (hown : ∀ statement', s'.inFlight.lookup call = some statement' →
      statement'.creates tenantId = false ∧ (statement'.renewing tenantId = true →
        (∃ statement, s.inFlight.lookup call = some statement ∧
          statement.renewing tenantId = true) ∧ s'.Covers tenantId call statement')) :
    s'.Renewing tenantId old :=
  h.carry (frame_of_step hstep) (stepFrame_step hstep).others hrenewed
    (rows_of_step inv hlook hstep hcreates hcommit) hown

variable {fresh : Option Invitation} {covered rest : List InvitationId}
  {rows : Table CallId InvitationId Invitation}

/-- The UPDATE of a renewal takes its snapshot, while no other is under way. -/
theorem Renewing.sweep (h : s.Renewing tenantId old) (inv : s.Inv)
    (hlook : s.inFlight.lookup call = some (.sweep tenantId now (some row)))
    (hguard : s.serial tenantId (.sweep tenantId now (some row)) = true) :
    (s.advance call (.revoke tenantId now (some row) (s.outstanding call tenantId now)
      (s.outstanding call tenantId now))).Renewing tenantId old := by
  have hquiet : ∀ call statement, s.inFlight.lookup call = some statement →
      statement.renewing tenantId = false := by
    intro call' statement' hlook'
    simp only [serial, ne_eq, not_true_eq_false, decide_false, Bool.false_or] at hguard
    have hnot := (FiniteMap.all_eq_true_iff _ _).mp hguard call' statement' hlook'
    rwa [Bool.not_eq_true'] at hnot
  have honly : ∀ call' statement', (s.advance call (.revoke tenantId now (some row)
      (s.outstanding call tenantId now) (s.outstanding call tenantId now))).inFlight.lookup call' =
        some statement' → statement'.renewing tenantId = true → call' = call := by
    intro call' statement' hlook' hrenewing
    rw [lookup_advance] at hlook'
    split at hlook'
    next heq => exact heq
    next =>
      rw [hquiet call' statement' hlook'] at hrenewing
      cases hrenewing
  constructor
  · intro call₁ call₂ statement₁ statement₂ hlook₁ hlook₂ hrenewing₁ hrenewing₂
    exact (honly call₁ statement₁ hlook₁ hrenewing₁).trans
      (honly call₂ statement₂ hlook₂ hrenewing₂).symm
  · intro call' statement' hlook'
    rw [lookup_advance] at hlook'
    split at hlook'
    next => cases hlook'; rfl
    next => exact h.creates call' statement' hlook'
  · intro call' statement' hlook' hrenewing id row' hrow hout
    obtain rfl := honly call' statement' hlook' hrenewing
    rw [lookup_advance, if_pos rfl] at hlook'
    cases hlook'
    have hcommitted : Table.committed s.rows id = some row' := hrow
    have hview := Table.view_of_not_heldBy (inv.free_of_lookup hlook rfl id)
    refine .inl (mem_outstanding.mpr ⟨row', hview.trans hcommitted, ?_⟩)
    exact (Invitation.Lasts.refl row').outstanding (inv.knows call' _ hlook).1 hout
  · exact h.one

/-- The UPDATE has no more to do at a row that it leaves as it is. -/
theorem Covers.skip (h : s.Covers tenantId call (.revoke tenantId now fresh covered (id :: rest)))
    (inv : s.Inv)
    (hlook : s.inFlight.lookup call = some (.revoke tenantId now fresh covered (id :: rest)))
    (hclosed : ∀ row, Table.view s.rows call id = some row → row.outstanding tenantId now ≠ true) :
    (s.advance call (.revoke tenantId now fresh covered rest)).Covers tenantId call
      (.revoke tenantId now fresh covered rest) := by
  intro id' row hrow hout
  obtain hrest | hpending := h id' row hrow hout
  · obtain rfl | hrest := List.mem_cons.mp hrest
    · by_cases hheld : (Table.slot s.rows id').heldBy call = true
      · obtain ⟨version, hpending⟩ := Slot.heldBy_iff.mp hheld
        obtain ⟨-, row', rfl, hrevoked, -⟩ :=
          inv.pending_revoke hlook (fun _ _ _ heq => by cases heq) hpending
        exact .inr ⟨row', hpending, hrevoked⟩
      · have hview := Table.view_of_not_heldBy (eq_false_of_ne_true hheld)
        have hnow := (inv.knows call _ hlook).1.1
        exact absurd ((Invitation.Lasts.refl row).outstanding hnow hout)
          (hclosed row (hview.trans hrow))
    · exact .inl hrest
  · exact .inr hpending

/-- It holds the lock of a row that it revokes. -/
theorem Covers.revoke (h : s.Covers tenantId call (.revoke tenantId now fresh covered (id :: rest)))
    (hwrite : Table.write s.rows call id (some { row with revokedAt := some (column now) }) =
      some rows) :
    ({ s with rows := rows }.advance call (.revoke tenantId now fresh covered rest)).Covers tenantId
      call (.revoke tenantId now fresh covered rest) := by
  intro id' row' hrow hout
  have hslot := (Table.write_eq_some hwrite).2 id'
  by_cases heq : id' = id
  · rw [if_pos heq] at hslot
    exact .inr ⟨_, congrArg Slot.pending hslot, rfl⟩
  · rw [if_neg heq] at hslot
    have hbefore := (Table.committed_write hwrite id').symm.trans hrow
    obtain hrest | ⟨row₁, hpending, hrevoked⟩ := h id' row' hbefore hout
    · exact .inl ((List.mem_cons.mp hrest).resolve_left heq)
    · exact .inr ⟨row₁, (congrArg Slot.pending hslot).trans hpending, hrevoked⟩

/-- The row of the renewal is not committed yet. -/
theorem Covers.renew (h : s.Covers tenantId call (.revoke tenantId now fresh covered []))
    (inv : s.Inv) (hlook : s.inFlight.lookup call = some (.revoke tenantId now (some row) covered []))
    (hwrite : Table.write s.rows call call (some row) = some rows) :
    ({ s with rows := rows }.advance call (.commit tenantId (some row) covered)).Covers tenantId
      call (.commit tenantId (some row) covered) := by
  intro id row' hrow hout
  have hbefore := (Table.committed_write hwrite id).symm.trans hrow
  have hne : id ≠ call := by
    rintro rfl
    exact (inv.awaits id _ hlook row rfl).2 row' (.inl hbefore)
  have hslot := ((Table.write_eq_some hwrite).2 id).trans (if_neg hne)
  obtain hrest | ⟨row₁, hpending, hrevoked⟩ := h id row' hbefore hout
  · exact .inl hrest
  · exact .inr ⟨row₁, (congrArg Slot.pending hslot).trans hpending, hrevoked⟩

/-- The COMMIT of a renewal leaves its own row. -/
theorem Renewing.commit (h : s.Renewing tenantId old) (inv : s.Inv)
    (hlook : s.inFlight.lookup call = some (.commit tenantId (some row) covered)) :
    (s.commitRevocation call tenantId (some row) covered).Renewing tenantId old := by
  have hrenewing : (Statement.commit tenantId (some row) covered).renewing tenantId = true := by
    simp [Statement.renewing]
  have hothers : ∀ call' statement', (s.commitRevocation call tenantId (some row)
      covered).inFlight.lookup call' = some statement' →
        call' ≠ call ∧ s.inFlight.lookup call' = some statement' := by
    intro call' statement' hlook'
    rw [commitRevocation, lookup_finish] at hlook'
    split at hlook'
    next => cases hlook'
    next hne => exact ⟨hne, hlook'⟩
  have hnone : ∀ call' statement', (s.commitRevocation call tenantId (some row)
      covered).inFlight.lookup call' = some statement' → statement'.renewing tenantId = false := by
    intro call' statement' hlook'
    obtain ⟨hne, hbefore⟩ := hothers call' statement' hlook'
    apply eq_false_of_ne_true
    exact fun h' => hne (h.alone call' call statement' _ hbefore hlook h' hrenewing)
  have hown : ∀ id row', Table.committed (s.commitRevocation call tenantId (some row)
      covered).rows id = some row' → row'.outstanding tenantId s.clock = true → id = call := by
    intro id row' hrow hout
    obtain ⟨row₀, hrow₀, hout₀⟩ | ⟨heq, -⟩ := outstanding_of_step inv hlook rfl hrow hout
    · obtain hrest | ⟨row₁, hpending, hrevoked⟩ := h.covers call _ hlook hrenewing id row₀ hrow₀ hout₀
      · exact absurd hrest List.not_mem_nil
      · have hview : Table.view s.rows call id = some row' := Table.committed_commit.symm.trans hrow
        rw [Table.view, Slot.view, hpending] at hview
        obtain rfl : row₁ = row' := Option.some.inj ((if_pos rfl).symm.trans hview)
        rw [(outstanding_iff.mp hout).2.2.2] at hrevoked
        cases hrevoked
    · exact heq
  constructor
  · intro call₁ call₂ statement₁ statement₂ hlook₁ _ hrenewing₁
    rw [hnone call₁ statement₁ hlook₁] at hrenewing₁
    cases hrenewing₁
  · intro call' statement' hlook'
    exact h.creates call' statement' (hothers call' statement' hlook').2
  · intro call' statement' hlook' hrenewing'
    rw [hnone call' statement' hlook'] at hrenewing'
    cases hrenewing'
  · intro _ id id' row₁ row₂ hrow₁ hrow₂ hout₁ hout₂
    exact (hown id row₁ hrow₁ hout₁).trans (hown id' row₂ hrow₂ hout₂).symm

/-- A revocation, or the renewal of another tenant, renews nothing of the tenant. -/
theorem renewed_of_commit {tenantId' : TenantId}
    (hnot : ¬ (Statement.commit tenantId' fresh covered).renewing tenantId = true)
    (h : (s.commitRevocation call tenantId' fresh covered).Renewed tenantId old) :
    s.Renewed tenantId old := by
  obtain ⟨call', hmem, hold⟩ := h
  refine ⟨call', ?_, hold⟩
  have hcons : (call', tenantId) ∈
      if fresh.isSome then (call, tenantId') :: s.renewed else s.renewed := hmem
  split at hcons
  next hsome =>
    obtain heq | hmem := List.mem_cons.mp hcons
    · cases heq
      exact absurd (by simpa [Statement.renewing] using hsome) hnot
    · exact hmem
  next => exact hcons

/-- A call that goes on to `statement'` renews the tenant as it did. -/
theorem lookup_advance_self {statement' : Statement}
    (h : (s.advance call statement').inFlight.lookup call = some statement) :
    statement = statement' := by
  rw [lookup_advance, if_pos rfl] at h
  exact (Option.some.inj h).symm

theorem lookup_finish_self {answer : InvitationAnswer} :
    (s.finish call answer).inFlight.lookup call ≠ some statement := by
  rw [lookup_finish, if_pos rfl]
  exact fun h => by cases h

theorem renewing_iff_revoke {tenantId' : TenantId} :
    (Statement.revoke tenantId' now fresh covered rest).renewing tenantId = true ↔
      tenantId' = tenantId ∧ ∃ row, fresh = some row := by
  simp [Statement.renewing, Option.isSome_iff_exists]

theorem renewing_iff_commit {tenantId' : TenantId} :
    (Statement.commit tenantId' fresh covered).renewing tenantId = true ↔
      tenantId' = tenantId ∧ ∃ row, fresh = some row := by
  simp [Statement.renewing, Option.isSome_iff_exists]

/-- **Step lemma** of a statement. -/
theorem Renewing.step (h : s.Renewing tenantId old) (inv : s.Inv)
    (hlook : s.inFlight.lookup call = some statement)
    (hguard : s.serial tenantId statement = true) (hstep : s.step call statement = some s') :
    s'.Renewing tenantId old := by
  have hnot := h.creates call statement hlook
  cases outcome_of_step hstep with
  | insert | refuse | late | consume =>
    exact h.step_other inv hlook hstep hnot (fun _ _ heq => by cases heq) (fun hsome => hsome)
      fun statement' hlook' => absurd hlook' lookup_finish_self
  | select =>
    refine h.step_other inv hlook hstep hnot (fun _ _ heq => by cases heq) (fun hsome => hsome)
      fun statement' hlook' => ?_
    obtain rfl := lookup_advance_self hlook'
    exact ⟨rfl, fun hrenewing => by cases hrenewing⟩
  | @sweep tenantId' now fresh =>
    by_cases hrenews : tenantId' = tenantId ∧ ∃ row, fresh = some row
    · obtain ⟨rfl, row, rfl⟩ := hrenews
      exact h.sweep inv hlook hguard
    · refine h.step_other inv hlook hstep hnot (fun _ _ heq => by cases heq) (fun hsome => hsome)
        fun statement' hlook' => ?_
      obtain rfl := lookup_advance_self hlook'
      exact ⟨rfl, fun hrenewing => absurd (renewing_iff_revoke.mp hrenewing) hrenews⟩
  | skip hclosed =>
    refine h.step_other inv hlook hstep hnot (fun _ _ heq => by cases heq) (fun hsome => hsome)
      fun statement' hlook' => ?_
    obtain rfl := lookup_advance_self hlook'
    refine ⟨rfl, fun hrenewing => ⟨⟨_, hlook, hrenewing⟩, ?_⟩⟩
    obtain ⟨rfl, -⟩ := renewing_iff_revoke.mp hrenewing
    exact (h.covers call _ hlook hrenewing).skip inv hlook hclosed
  | revoke hview houtstanding hwrite =>
    refine h.step_other inv hlook hstep hnot (fun _ _ heq => by cases heq) (fun hsome => hsome)
      fun statement' hlook' => ?_
    obtain rfl := lookup_advance_self hlook'
    refine ⟨rfl, fun hrenewing => ⟨⟨_, hlook, hrenewing⟩, ?_⟩⟩
    obtain ⟨rfl, -⟩ := renewing_iff_revoke.mp hrenewing
    exact (h.covers call _ hlook hrenewing).revoke hwrite
  | revoked =>
    refine h.step_other inv hlook hstep hnot (fun _ _ heq => by cases heq) (fun hsome => hsome)
      fun statement' hlook' => ?_
    obtain rfl := lookup_advance_self hlook'
    refine ⟨rfl, fun hrenewing => ?_⟩
    obtain ⟨-, row, hfresh⟩ := renewing_iff_commit.mp hrenewing
    cases hfresh
  | renew hwrite =>
    refine h.step_other inv hlook hstep hnot (fun _ _ heq => by cases heq) (fun hsome => hsome)
      fun statement' hlook' => ?_
    obtain rfl := lookup_advance_self hlook'
    refine ⟨rfl, fun hrenewing => ⟨⟨_, hlook, hrenewing⟩, ?_⟩⟩
    obtain ⟨rfl, -⟩ := renewing_iff_commit.mp hrenewing
    exact (h.covers call _ hlook hrenewing).renew inv hlook hwrite
  | @commit tenantId' fresh covered =>
    by_cases hrenewing : (Statement.commit tenantId' fresh covered).renewing tenantId = true
    · obtain ⟨rfl, row, rfl⟩ := renewing_iff_commit.mp hrenewing
      exact h.commit inv hlook
    · refine h.step_other inv hlook hstep hnot (fun row covered' heq => hrenewing ?_)
        (renewed_of_commit hrenewing) fun statement' hlook' => absurd hlook' lookup_finish_self
      cases heq
      exact renewing_iff_commit.mpr ⟨rfl, row, rfl⟩

/-- A call arrives that neither creates nor renews an invitation of the tenant yet. -/
theorem Renewing.arrive (h : s.Renewing tenantId old) (hrows : s'.rows = s.rows)
    (hclock : s'.clock = s.clock) (hrenewed : s'.renewed = s.renewed)
    (hothers : ∀ call', call' ≠ s.calls → s'.inFlight.lookup call' = s.inFlight.lookup call')
    (hown : ∀ statement, s'.inFlight.lookup s.calls = some statement →
      statement.creates tenantId = false ∧ statement.renewing tenantId = false) :
    s'.Renewing tenantId old := by
  have hframe : Table.Frame s.calls s.rows s'.rows := by
    rw [hrows]
    exact .refl s.calls s.rows
  refine h.carry hframe hothers (fun hsome => ?_) (fun id row hrow hout => ?_)
    fun statement' hlook' => ⟨(hown statement' hlook').1, fun hrenewing => ?_⟩
  · obtain ⟨call', hmem, hold⟩ := hsome
    exact ⟨call', hrenewed ▸ hmem, hold⟩
  · rw [hrows] at hrow
    rw [hclock] at hout
    exact ⟨row, hrow, hout⟩
  · rw [(hown statement' hlook').2] at hrenewing
    cases hrenewing

theorem Renewing.begin (h : s.Renewing tenantId old) (hcreates : statement.creates tenantId = false)
    (hrenewing : statement.renewing tenantId = false) :
    (s.begin statement).Renewing tenantId old := by
  refine h.arrive rfl rfl rfl (fun call' hne => (lookup_begin _ _ _).trans (if_neg hne))
    fun statement' hlook' => ?_
  rw [lookup_begin, if_pos rfl] at hlook'
  cases hlook'
  exact ⟨hcreates, hrenewing⟩

theorem Renewing.issue {tenantId' : TenantId} {ttlSeconds : Option UInt64} {otpHash : OtpHash}
    {next : Invitation → Statement} (h : s.Renewing tenantId old) (inv : s.Inv)
    (hcreates : ∀ row, row.tenantId = tenantId' → (next row).creates tenantId = false)
    (hrenewing : ∀ row, (next row).renewing tenantId = false)
    (hissue : s.issue tenantId' ttlSeconds otpHash next = some s') :
    s'.Renewing tenantId old := by
  obtain ⟨-, ⟨-, rfl⟩ | ⟨time, row, -, htenant, -, -, rfl⟩⟩ := issue_eq_some hissue
  · refine h.arrive rfl rfl rfl (fun _ _ => rfl) fun statement hlook => ?_
    have hnone := inv.lookup_calls
    rw [show s.inFlight.lookup s.calls = some statement from hlook] at hnone
    cases hnone
  · have hbegin := h.begin (hcreates row htenant) (hrenewing row)
    exact ⟨hbegin.alone, hbegin.creates, hbegin.covers, hbegin.one⟩

theorem Renewing.fail (h : s.Renewing tenantId old) :
    ({ s with rows := Table.rollback s.rows call }.finish call .databaseError).Renewing tenantId
      old := by
  refine h.carry Table.frame_rollback (fun call' hne => ?_) (fun hsome => hsome)
    (fun id row hrow hout => ⟨row, Table.committed_rollback.symm.trans hrow, hout⟩)
    fun statement' hlook' => absurd hlook' lookup_finish_self
  exact (lookup_finish _ _ _ _).trans (if_neg hne)

/-- Rows expire. -/
theorem Renewing.tick (h : s.Renewing tenantId old) (htick : s.clock ≤ now) :
    Renewing { s with clock := now } tenantId old where
  alone := h.alone
  creates := h.creates
  covers call statement hlook hrenewing id row hrow hout :=
    h.covers call statement hlook hrenewing id row hrow ((Invitation.Lasts.refl row).outstanding htick hout)
  one hsome id id' row row' hrow hrow' hout hout' :=
    h.one hsome id id' row row' hrow hrow' ((Invitation.Lasts.refl row).outstanding htick hout)
      ((Invitation.Lasts.refl row').outstanding htick hout')

end InvitationDb

/-- Renewals of the tenant do not overlap between the snapshot and the COMMIT. -/
def Serial (tenantId : TenantId) (s : InvitationDb) : InvitationEvent → Bool
  | .run call => (s.inFlight.lookup call).all (s.serial tenantId)
  | _ => true

namespace InvitationDb

variable {s s' : InvitationDb} {call : CallId} {old : List (CallId × TenantId)} {id : InvitationId}

/-- **Step lemma** of the system. -/
theorem Renewing.next {e : InvitationEvent} (h : s.Renewing tenantId old) (inv : s.Inv)
    (hguard : Serial tenantId s e = true) (hcreates : e.creates tenantId = false)
    (hnext : s.next e = some s') : s'.Renewing tenantId old := by
  cases e with
  | tick now =>
    simp only [InvitationDb.next] at hnext
    split at hnext
    next htick => cases hnext; exact h.tick htick
    next => cases hnext
  | createInvitation tenantId' ttlSeconds otpHash =>
    have hissue : s.issue tenantId' ttlSeconds otpHash .insert = some s' := hnext
    refine h.issue inv (fun row htenant => ?_) (fun _ => rfl) hissue
    rw [Statement.creates, htenant]
    exact hcreates
  | renewInvitation tenantId' ttlSeconds otpHash =>
    have hissue : s.issue tenantId' ttlSeconds otpHash
        (fun row => .sweep tenantId' s.clock (some row)) = some s' := hnext
    exact h.issue inv (fun _ _ => rfl) (fun _ => rfl) hissue
  | revokeInvitations tenantId' =>
    cases hnext
    exact h.begin rfl rfl
  | verifyAndConsume tenantId' otpHash =>
    cases hnext
    exact h.begin rfl rfl
  | run call =>
    obtain ⟨statement, hlook, hstep⟩ := Option.bind_eq_some_iff.mp hnext
    have hserial : (s.inFlight.lookup call).all (s.serial tenantId) = true := hguard
    rw [hlook] at hserial
    exact h.step inv hlook hserial hstep
  | fail call =>
    obtain ⟨statement, -, rfl⟩ := Option.map_eq_some_iff.mp hnext
    exact h.fail

/-- No renewal of the tenant is under way, and no create. -/
def Settled (s : InvitationDb) (tenantId : TenantId) : Prop :=
  ∀ call statement, s.inFlight.lookup call = some statement →
    statement.renews tenantId = false ∧ statement.creates tenantId = false

theorem Settled.renewing (h : s.Settled tenantId) : s.Renewing tenantId s.renewed := by
  have hnone : ∀ call statement, s.inFlight.lookup call = some statement →
      statement.renewing tenantId ≠ true := by
    intro call statement hlook hrenewing
    obtain ⟨hnot, -⟩ := h call statement hlook
    cases statement with
    | insert | sweep | select | consume => cases hrenewing
    | revoke | commit => exact Bool.false_ne_true (hnot.symm.trans hrenewing)
  exact ⟨fun call _ statement _ hlook _ hrenewing => absurd hrenewing (hnone call statement hlook),
    fun call statement hlook => (h call statement hlook).2,
    fun call statement hlook hrenewing => absurd hrenewing (hnone call statement hlook),
    fun ⟨_, hmem, hnot⟩ => absurd hmem hnot⟩

/-- Renewals of a tenant of which one has returned, and behind which none was
    created, leave at most one invitation to consume. -/
theorem renewals_leave_one (hreach : invitations.Reachable s) (hsettled : s.Settled tenantId)
    (hrun : invitations.RunUnder
      (fun s e => Serial tenantId s e = true ∧ e.creates tenantId = false) s s')
    (hrenewed : s'.Renewed tenantId s.renewed) {id id' : InvitationId}
    (hrow : Table.committed s'.rows id = some row) (hrow' : Table.committed s'.rows id' = some row')
    (hout : row.outstanding tenantId s'.clock = true)
    (hout' : row'.outstanding tenantId s'.clock = true) : id = id' := by
  have hboth : s'.Inv ∧ s'.Renewing tenantId s.renewed :=
    hrun.preserves (P := fun t => t.Inv ∧ t.Renewing tenantId s.renewed)
      (fun t e t' ht hguard hnext =>
        ⟨ht.1.next hnext, ht.2.next ht.1 hguard.1 hguard.2 hnext⟩)
      ⟨inv_of_reachable hreach, hsettled.renewing⟩
  exact hboth.2.one hrenewed id id' row row' hrow hrow' hout hout'

/-- A row expires when its issue says. -/
theorem expiresAt_of_committed (inv : s.Inv) (timely : s.Timely)
    (hrow : Table.committed s.rows id = some row) :
    ∃ issue, s.issued.lookup id = some issue ∧ row.otpHash = issue.otpHash ∧
      row.expiresAt = column (issue.now + ttlNanos issue.ttlSeconds) := by
  obtain ⟨issue, hissue, hhash, hexpires⟩ := inv.committed hrow
  refine ⟨issue, hissue, hhash.symm, ?_⟩
  rw [hexpires, timely.issued id issue hissue]

end InvitationDb

/-- Every OTP is consumed at most once; not when a revocation that covers it has
    returned and not when it has expired, where nothing comes between the SELECT and the
    UPDATE; renewals that do not overlap leave at most one invitation of the tenant; and
    where chrono can represent the expiry no endpoint panics and every row expires when
    it is to. -/
theorem invitation_lifecycle (s : InvitationDb) (hreach : invitations.Reachable s) :
    (s.consumptions.map (·.otpHash)).Nodup ∧
    (invitations.ReachableUnder (fun s e => Undisturbed s e = true) s →
      ∀ c ∈ s.consumptions, c.closed = false ∧ c.time < c.expiresAt) ∧
    (∀ tenantId s', s.Settled tenantId → s'.Settled tenantId →
      invitations.RunUnder (fun s e => Serial tenantId s e = true ∧ e.creates tenantId = false) s s' →
      s'.Renewed tenantId s.renewed →
      ∀ id id' row row', Table.committed s'.rows id = some row →
        Table.committed s'.rows id' = some row' → row.outstanding tenantId s'.clock = true →
          row'.outstanding tenantId s'.clock = true → id = id') ∧
    (invitations.ReachableUnder (fun s e => Representable s e = true) s →
      (∀ call, s.answers.lookup call ≠ some .panicked) ∧
      ∀ id row, Table.committed s.rows id = some row →
        ∃ issue, s.issued.lookup id = some issue ∧ row.otpHash = issue.otpHash ∧
          row.expiresAt = column (issue.now + ttlNanos issue.ttlSeconds)) := by
  have inv := InvitationDb.inv_of_reachable hreach
  refine ⟨inv.once, fun hreach => (InvitationDb.sound_of_reachable hreach).2.consumptions,
    fun tenantId s' hsettled _ hrun hrenewed => ?_, fun hreach => ?_⟩
  · intro id id' row row' hrow hrow' hout hout'
    exact InvitationDb.renewals_leave_one hreach hsettled hrun hrenewed hrow hrow' hout hout'
  · have timely := InvitationDb.timely_of_reachable hreach
    exact ⟨timely.answers, fun id row hrow => InvitationDb.expiresAt_of_committed inv timely hrow⟩

/-- Tenant 1 has its invitation renewed, uses the OTP and has it renewed again. -/
private def renewalRun : List InvitationEvent :=
  [.renewInvitation 1 none "A1", .run 0, .run 0, .run 0, .verifyAndConsume 1 "A1", .run 1, .run 1,
    .tick 5, .renewInvitation 1 (some 60) "B2", .run 2, .run 2, .run 2]

/-- All three conditions. -/
private def Orderly (s : InvitationDb) (e : InvitationEvent) : Prop :=
  (Undisturbed s e = true ∧ Representable s e = true) ∧ Serial 1 s e = true ∧ e.creates 1 = false

private instance (s : InvitationDb) (e : InvitationEvent) : Decidable (Orderly s e) :=
  inferInstanceAs (Decidable (_ ∧ _))

/-- The first OTP is consumed, and the second invitation outstanding. -/
private def leavesSecond (s : InvitationDb) : Bool :=
  s.inFlight.keys = [] && s.renewed = [(2, 1), (0, 1)] &&
    s.consumptions.map (·.otpHash) = ["A1"] &&
      (Table.committed s.rows 2).any (·.outstanding 1 s.clock)

private theorem settled_of_idle {s : InvitationDb} (h : s.inFlight.keys = []) (tenantId : TenantId) :
    s.Settled tenantId := by
  intro call statement hlook
  have hsome : (s.inFlight.lookup call).isSome = true := by rw [hlook]; rfl
  have hmem : call ∈ s.inFlight.keys := AList.mem_keys.mp (AList.lookup_isSome.mp hsome)
  rw [h] at hmem
  cases hmem

theorem invitation_lifecycle_renewed :
    ∃ s : InvitationDb, s.consumptions.map (·.otpHash) = ["A1"] ∧
      (∀ c ∈ s.consumptions, c.closed = false ∧ c.time < c.expiresAt) ∧
      (∀ id row, Table.committed s.rows id = some row → row.outstanding 1 s.clock = true → id = 2) ∧
      ∃ row issue, Table.committed s.rows 2 = some row ∧ s.issued.lookup 2 = some issue ∧
        row.expiresAt = column (issue.now + ttlNanos issue.ttlSeconds) := by
  have hexec : (invitations.execUnder Orderly (.init 0) renewalRun).any leavesSecond = true := by
    decide +kernel
  obtain ⟨s, hrun, hs⟩ := Machine.exists_run_of_execUnder _ hexec
  simp only [leavesSecond, Bool.and_eq_true, decide_eq_true_eq, Option.any_eq_true] at hs
  obtain ⟨⟨⟨hidle, hrenewed⟩, hconsumptions⟩, row, hrow, hout⟩ := hs
  have hinit : ∀ C, invitations.ReachableUnder C (.init 0) := fun C => ⟨_, ⟨0, Int.le_refl 0, rfl⟩, .refl⟩
  have hreach := (hinit _).trans hrun
  obtain ⟨-, hsound, -, htimely⟩ := invitation_lifecycle s (hreach.weaken fun _ _ _ => trivial)
  obtain ⟨-, hexpires⟩ := htimely (hreach.weaken fun _ _ h => h.1.2)
  obtain ⟨-, -, hone, -⟩ := invitation_lifecycle (.init 0) (hinit _)
  obtain ⟨issue, hissue, -, htime⟩ := hexpires 2 row hrow
  refine ⟨s, hconsumptions, hsound (hreach.weaken fun _ _ h => h.1.1), fun id row' hrow' hout' => ?_,
    row, issue, hrow, hissue, htime⟩
  refine hone 1 s (fun _ _ h => by cases h) (settled_of_idle hidle 1) (hrun.weaken fun _ _ h => h.2)
    ⟨0, ?_, List.not_mem_nil⟩ id 2 row' row hrow' hrow hout' hout
  rw [hrenewed]
  decide

/-- A verification reads the row of an invitation. -/
private def selectRun : List InvitationEvent :=
  [.createInvitation 1 none "A1", .run 0, .verifyAndConsume 1 "A1", .run 1]

/-- A revocation returns before the UPDATE. -/
private def overtakenByRevokeRun : List InvitationEvent :=
  selectRun ++ [.revokeInvitations 1, .run 2, .run 2, .run 2, .run 2, .run 1]

/-- The invitation expires before the UPDATE. -/
private def expiredRun : List InvitationEvent := selectRun ++ [.tick (seconds 604800), .run 1]

/-- Two renewals take their snapshots before the other's COMMIT. -/
private def parallelRun : List InvitationEvent :=
  [.renewInvitation 1 none "A1", .renewInvitation 1 none "B2", .run 0, .run 1, .run 0, .run 0, .run 1,
    .run 1]

private theorem exists_of_exec (events : List InvitationEvent) (P : InvitationDb → Bool)
    (h : (invitations.execUnder (fun _ _ => True) (.init 0) events).any P = true) :
    ∃ s, invitations.Reachable s ∧ P s = true := by
  obtain ⟨s, hrun, hs⟩ := Machine.exists_run_of_execUnder P h
  exact ⟨s, ⟨_, ⟨0, Int.le_refl 0, rfl⟩, hrun⟩, hs⟩

private def panics : InvitationAnswer → Bool
  | .panicked => true
  | _ => false

/-- Both rows are there to be consumed, and nobody is at work. -/
private def leavesTwo (s : InvitationDb) : Bool :=
  s.inFlight.keys = [] && s.renewed = [(1, 1), (0, 1)] &&
    (Table.committed s.rows 0).any (·.outstanding 1 s.clock) &&
      (Table.committed s.rows 1).any (·.outstanding 1 s.clock)

theorem invitations_disturbed :
    (¬ ∀ s, invitations.Reachable s → ∀ c ∈ s.consumptions, c.closed = false) ∧
    (¬ ∀ s, invitations.Reachable s → ∀ c ∈ s.consumptions, c.time < c.expiresAt) ∧
    (¬ ∀ s s' tenantId, invitations.Reachable s → s.Settled tenantId → s'.Settled tenantId →
      invitations.RunUnder (fun _ e => e.creates tenantId = false) s s' →
      s'.Renewed tenantId s.renewed →
      ∀ id id' row row', Table.committed s'.rows id = some row →
        Table.committed s'.rows id' = some row' → row.outstanding tenantId s'.clock = true →
          row'.outstanding tenantId s'.clock = true → id = id') ∧
    ¬ ∀ s call, invitations.Reachable s → s.answers.lookup call ≠ some .panicked := by
  refine ⟨fun hclaim => ?_, fun hclaim => ?_, fun hclaim => ?_, fun hclaim => ?_⟩
  · obtain ⟨s, hreach, hs⟩ := exists_of_exec overtakenByRevokeRun
      (fun s => s.consumptions.any (·.closed)) (by decide +kernel)
    obtain ⟨c, hc, hclosed⟩ := List.any_eq_true.mp hs
    rw [hclaim s hreach c hc] at hclosed
    cases hclosed
  · obtain ⟨s, hreach, hs⟩ := exists_of_exec expiredRun
      (fun s => s.consumptions.any fun c => decide (c.expiresAt ≤ c.time)) (by decide +kernel)
    obtain ⟨c, hc, hlate⟩ := List.any_eq_true.mp hs
    have hearly := hclaim s hreach c hc
    have hexpired := of_decide_eq_true hlate
    omega
  · have hexec : (invitations.execUnder (fun _ e => e.creates 1 = false) (.init 0) parallelRun).any
        leavesTwo = true := by decide +kernel
    obtain ⟨s, hrun, hs⟩ := Machine.exists_run_of_execUnder _ hexec
    simp only [leavesTwo, Bool.and_eq_true, decide_eq_true_eq, Option.any_eq_true] at hs
    obtain ⟨⟨⟨hidle, hrenewed⟩, row, hrow, hout⟩, row', hrow', hout'⟩ := hs
    have heq := hclaim (.init 0) s 1 ⟨_, ⟨0, Int.le_refl 0, rfl⟩, .refl⟩ (fun _ _ h => by cases h)
      (settled_of_idle hidle 1) hrun ⟨0, by rw [hrenewed]; decide, List.not_mem_nil⟩ 0 1 row row' hrow hrow' hout hout'
    cases heq
  · obtain ⟨s, hreach, hs⟩ := exists_of_exec [.renewInvitation 1 (some (2 ^ 63)) "A1"]
      (fun s => (s.answers.lookup 0).any panics) (by decide +kernel)
    obtain ⟨answer, hanswer, hpanicked⟩ := (Option.any_eq_true _ _).mp hs
    cases answer with
    | panicked => exact hclaim s 0 hreach hanswer
    | invited | revoked | verified | databaseError => cases hpanicked

end Botwork.AuthBroker
