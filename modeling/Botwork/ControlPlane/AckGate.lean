import Botwork.ControlPlane.Pushes

/-!
# The synchronous ack gate

When `POST /sessions` answers 201, envoy should have acknowledged a push whose
snapshot contained the record.  The gauge that releases the handlers is fed by
every listener request, also by the first request of a fresh stream, which
names a version of an earlier process; `stale_version_opens_gate` is a run where
that answers 201 with no push acknowledged at all.  `ack_gate` proves the
property of every run whose steps meet `AckGuard`.

## Main definitions

- `Acknowledged` — some acknowledged push contains the record
- `GateHolds` — every 201 is backed by an acknowledged push
- `AckGuard` — the steps that keep the gauge honest
- `AckInv` — the invariant of guarded runs
-/

namespace Botwork.ControlPlane

open Botwork.Foundations

variable {state : AppState} {s s' : System} {a : Action}

-- ════════════════════════════════════════════════════════════════════════
-- The property
-- ════════════════════════════════════════════════════════════════════════

/-- Envoy has acknowledged a push of this process that contains the record. -/
def Acknowledged (s : System) (r : SessionRecord) : Prop := ∃ p ∈ s.acked, r ∈ p.snapshot

instance (s : System) (r : SessionRecord) : Decidable (Acknowledged s r) :=
  inferInstanceAs (Decidable (∃ p ∈ s.acked, r ∈ p.snapshot))

/-- Every `POST` that answered 201 is backed by an acknowledged push. -/
def GateHolds (s : System) : Prop :=
  ∀ h r response, s.handlers.lookup h = some (.answered (some (.post r)) response) →
    response.status = 201 → Acknowledged s r

-- ════════════════════════════════════════════════════════════════════════
-- The guard
-- ════════════════════════════════════════════════════════════════════════

/-- A version reported to the gauge is not above it, or an envoy acknowledged a
    push of that version in this process. -/
def HonestReport (s : System) (i : Nat) : Prop :=
  ∀ st ∈ s.streams.lookup i, ∀ v ∈ st.reports,
    v ≤ s.store.ackedVersion ∨ ∃ p ∈ s.acked, p.version = v

/-- No handler but `self` waits for a record of this id that no acknowledged
    push contains. -/
def NoWaiter (s : System) (self : Nat) (id : String) : Prop :=
  s.handlers.all (fun h pc =>
    decide (h = self) || decide (∀ r ∈ pc.pendingPost, r.sessionId = id → Acknowledged s r)) = true

/-- What the next access of a handler must meet: a bump does not wrap the
    counter, and a rollback removes no record another `POST` waits for. -/
def HandlerGuard (s : System) (h : Nat) : Option HandlerPc → Prop
  | some (.bump _) | some (.rollbackBump _ _) => s.store.generation + 1 < 2 ^ 64
  | some (.rollback (.post r) _) => NoWaiter s h r.sessionId
  | _ => True

/-- The steps that keep the gauge honest. -/
def AckGuard (s : System) : Action → Prop
  | .receive i => HonestReport s i
  | .delete h id => NoWaiter s h id
  | .handler h => HandlerGuard s h (s.handlers.lookup h)
  | _ => True

instance (s : System) (i : Nat) : Decidable (HonestReport s i) :=
  inferInstanceAs (Decidable (∀ st ∈ s.streams.lookup i, ∀ v ∈ st.reports,
    v ≤ s.store.ackedVersion ∨ ∃ p ∈ s.acked, p.version = v))

instance (s : System) (self : Nat) (id : String) : Decidable (NoWaiter s self id) :=
  inferInstanceAs (Decidable (_ = true))

instance (s : System) (h : Nat) : (pc : Option HandlerPc) → Decidable (HandlerGuard s h pc)
  | some (.bump _) | some (.rollbackBump _ _) =>
    inferInstanceAs (Decidable (s.store.generation + 1 < 2 ^ 64))
  | some (.rollback (.post r) _) => inferInstanceAs (Decidable (NoWaiter s h r.sessionId))
  | none | some (.rollback (.delete _) _) | some (.target _) | some (.subscribers _ _)
  | some (.subscribe _ _) | some (.changed _ _ _) | some (.woken _ _ _)
  | some (.answered _ _) => isTrue trivial

instance (s : System) : (a : Action) → Decidable (AckGuard s a)
  | .receive i => inferInstanceAs (Decidable (HonestReport s i))
  | .delete h id => inferInstanceAs (Decidable (NoWaiter s h id))
  | .handler h => inferInstanceAs (Decidable (HandlerGuard s h (s.handlers.lookup h)))
  | .post _ _ | .expire _ | .connect _ _ | .disconnect _ | .tick _ | .stream _ | .subscribe _ _
  | .accept _ | .reject _ _ => isTrue trivial

theorem NoWaiter.acknowledged {self h : Nat} {id : String} (hno : NoWaiter s self id)
    (hne : h ≠ self) {pc : HandlerPc} (hpc : s.handlers.lookup h = some pc) {r : SessionRecord}
    (hr : pc.pendingPost = some r) (hid : r.sessionId = id) : Acknowledged s r := by
  have hall := (FiniteMap.all_eq_true_iff _ _).mp hno h pc hpc
  simp only [hne, decide_false, Bool.false_or, decide_eq_true_eq] at hall
  exact hall r hr hid

/-- Every push from version `b` on contains the record. -/
def CoveredFrom (s : System) (b : Nat) (r : SessionRecord) : Prop :=
  ∀ p, Emitted s p → b ≤ p.version → r ∈ p.snapshot

/-- A waiting handler is covered: it has not bumped yet, or from some version
    at or below the one it waits for every push contains its record. -/
def Covered (s : System) (pc : HandlerPc) (r : SessionRecord) : Prop :=
  (∃ m, pc = .bump m) ∨
    ∃ b, 1 ≤ b ∧ b ≤ s.store.generation ∧ (∀ v, pc.awaited = some v → b ≤ v) ∧ CoveredFrom s b r

/-- The invariant of guarded runs. -/
structure AckInv (s : System) : Prop where
  gauge : s.store.ackedVersion = 0 ∨ ∃ p ∈ s.acked, p.version = s.store.ackedVersion
  emitted_le : ∀ p, Emitted s p → p.version ≤ s.store.generation
  snapshot_le : ∀ i st v, s.streams.lookup i = some st → st.pc = .snapshot v →
    v ≤ s.store.generation
  pending : ∀ h pc r, s.handlers.lookup h = some pc → pc.pendingPost = some r →
    Acknowledged s r ∨ s.store.inner.get r.sessionId = some r ∧ Covered s pc r
  answered : GateHolds s

theorem ackInv_start (hstart : System.Start s) : AckInv s := by
  obtain ⟨⟨records, hstore⟩, hhandlers, hstreams, hacked⟩ := hstart
  refine ⟨Or.inl ?_, ?_, ?_, ?_, ?_⟩
  · rw [hstore]
    exact (SessionStore.seedStore_counters _ _).1
  · rintro p (hp | ⟨i, st, hst, -⟩)
    · simp [hacked] at hp
    · simp [hstreams] at hst
  · intro i st v hst
    simp [hstreams] at hst
  · intro h pc r hpc
    simp [hhandlers] at hpc
  · intro h r response hpc
    simp [hhandlers] at hpc

-- ════════════════════════════════════════════════════════════════════════
-- Stream and envoy steps
-- ════════════════════════════════════════════════════════════════════════

theorem Acknowledged.mono {r : SessionRecord} (hframe : StreamFrame s s')
    (h : Acknowledged s r) : Acknowledged s' r := by
  obtain ⟨p, hp, hr⟩ := h
  exact ⟨p, hframe.acked p hp, hr⟩

/-- **Frame rule**: a stream or envoy step that keeps the gauge honest keeps
    the invariant. -/
theorem AckInv.stream (inv : AckInv s) (hframe : StreamFrame s s')
    (hgauge : s'.store.ackedVersion = s.store.ackedVersion ∨
      ∃ p ∈ s'.acked, p.version = s'.store.ackedVersion) : AckInv s' := by
  refine ⟨?_, ?_, ?_, ?_, ?_⟩
  · rcases hgauge with hsame | hnew
    · rw [hsame]
      rcases inv.gauge with hzero | ⟨p, hp, hv⟩
      · exact Or.inl hzero
      · exact Or.inr ⟨p, hframe.acked p hp, hv⟩
    · exact Or.inr hnew
  · intro p hp
    rw [hframe.generation]
    rcases hframe.emitted p hp with hold | ⟨-, hle⟩
    · exact inv.emitted_le p hold
    · exact hle
  · intro i st v hst hpc
    rw [hframe.generation]
    exact hframe.snapshot i st v hst hpc
  · intro h pc r hpc hr
    rw [hframe.handlers] at hpc
    rcases inv.pending h pc r hpc hr with hacked | ⟨hget, hcov⟩
    · exact Or.inl (hacked.mono hframe)
    · refine Or.inr ⟨by rw [hframe.inner]; exact hget, ?_⟩
      rcases hcov with hbump | ⟨b, hpos, hle, hawait, hfrom⟩
      · exact Or.inl hbump
      · refine Or.inr ⟨b, hpos, by rw [hframe.generation]; exact hle, hawait, ?_⟩
        intro p hp hb
        rcases hframe.emitted p hp with hold | ⟨hsnap, -⟩
        · exact hfrom p hold hb
        · rw [hsnap, SessionStore.mem_list_iff]
          exact hget
  · intro h r response hpc hstatus
    rw [hframe.handlers] at hpc
    exact (inv.answered h r response hpc hstatus).mono hframe

/-- A step of a stream or an envoy keeps the invariant when the version it puts
    on the gauge is honest. -/
theorem ackInv_stream (inv : AckInv s) (hguard : AckGuard s a) (ha : a.handler? = none)
    (hnext : s.next state a = some s') : AckInv s' := by
  obtain ⟨hframe, hgauge⟩ := System.stream_frame inv.snapshot_le ha hnext
  refine inv.stream hframe ?_
  rcases hgauge with hsame | ⟨i, st, v, rfl, hst, hv, hlift, hreport⟩
  · exact Or.inl hsame
  · -- the gauge moves only to a version an envoy has acknowledged
    rcases hguard st hst v hv with hle | ⟨p, hp, hversion⟩
    · omega
    · exact Or.inr ⟨p, hframe.acked p hp, hversion.trans hreport.symm⟩

-- ════════════════════════════════════════════════════════════════════════
-- Handler steps
-- ════════════════════════════════════════════════════════════════════════

/-- A handler step keeps the invariant when the counter does not fall, no other
    waiting record leaves the table, and the handler's own new position is
    justified. -/
theorem AckInv.setHandler (inv : AckInv s) {h : Nat} {store : SessionStore} {pc : HandlerPc}
    (hacked : store.ackedVersion = s.store.ackedVersion)
    (hgen : s.store.generation ≤ store.generation)
    (hothers : ∀ h' pc' r, h' ≠ h → s.handlers.lookup h' = some pc' → pc'.pendingPost = some r →
      s.store.inner.get r.sessionId = some r →
      Acknowledged s r ∨ store.inner.get r.sessionId = some r)
    (hown : ∀ r, pc.pendingPost = some r → Acknowledged s r ∨
      store.inner.get r.sessionId = some r ∧ Covered (s.setHandler h store pc) pc r)
    (hanswer : ∀ r response, pc = .answered (some (.post r)) response →
      response.status = 201 → Acknowledged s r) :
    AckInv (s.setHandler h store pc) := by
  refine ⟨?_, ?_, ?_, ?_, ?_⟩
  · simpa only [System.setHandler, hacked] using inv.gauge
  · intro p hp
    exact (inv.emitted_le p hp).trans hgen
  · intro i st v hst hpc
    exact (inv.snapshot_le i st v hst hpc).trans hgen
  · intro h' pc' r hpc' hr
    simp only [System.setHandler, FiniteMap.lookup_insert_ite] at hpc'
    split at hpc'
    next heq => cases hpc'; exact hown r hr
    next hne =>
      rcases inv.pending h' pc' r hpc' hr with hack | ⟨hget, hcov⟩
      · exact Or.inl hack
      · rcases hothers h' pc' r hne hpc' hr hget with hack | hget'
        · exact Or.inl hack
        · refine Or.inr ⟨hget', ?_⟩
          rcases hcov with hbump | ⟨b, hpos, hle, hrest⟩
          · exact Or.inl hbump
          · exact Or.inr ⟨b, hpos, hle.trans hgen, hrest⟩
  · intro h' r response hpc' hstatus
    simp only [System.setHandler, FiniteMap.lookup_insert_ite] at hpc'
    split at hpc'
    next => cases hpc'; exact hanswer r response rfl hstatus
    next => exact inv.answered h' r response hpc' hstatus

/-- An insertion under a free id leaves every other stored record in place. -/
theorem get_set_of_ne {t : SessionTable} {record r : SessionRecord}
    (hfree : t.get record.sessionId = none) (hget : t.get r.sessionId = some r) :
    (t.set record).get r.sessionId = some r := by
  rw [SessionTable.get_set]
  split
  next heq => rw [heq, hfree] at hget; cases hget
  next => exact hget

/-- A removal leaves every record in place that another handler waits for,
    unless a push with it has been acknowledged. -/
theorem get_unset_of_noWaiter {h h' : Nat} {id : String} {pc : HandlerPc} {r : SessionRecord}
    (hno : NoWaiter s h id) (hne : h' ≠ h) (hpc : s.handlers.lookup h' = some pc)
    (hr : pc.pendingPost = some r) (hget : s.store.inner.get r.sessionId = some r) :
    Acknowledged s r ∨ (s.store.inner.unset id).get r.sessionId = some r := by
  by_cases hid : r.sessionId = id
  · exact Or.inl (hno.acknowledged hne hpc hr hid)
  · right
    rw [SessionTable.get_unset, if_neg hid]
    exact hget

/-- A handler that moves on in the wait keeps what it is covered by. -/
theorem AckInv.keepWaiting (inv : AckInv s) {h : Nat} {pc pc' : HandlerPc}
    (hpc : s.handlers.lookup h = some pc) (hbump : ∀ m, pc ≠ .bump m)
    (hpend : pc'.pendingPost = pc.pendingPost)
    (hawait : ∀ v, pc'.awaited = some v → pc.awaited = some v ∨ v = s.store.generation)
    (hanswer : ∀ m response, pc' ≠ .answered m response) :
    AckInv (s.setHandler h s.store pc') := by
  refine inv.setHandler rfl le_rfl (fun _ _ _ _ _ _ hget => Or.inr hget) ?_
    fun r response heq => absurd heq (hanswer _ _)
  intro r hr
  rcases inv.pending h pc r hpc (hpend ▸ hr) with hack | ⟨hget, hcov⟩
  · exact Or.inl hack
  · refine Or.inr ⟨hget, Or.inr ?_⟩
    rcases hcov with ⟨m, hm⟩ | ⟨b, hpos, hle, hawaited, hfrom⟩
    · exact absurd hm (hbump m)
    · refine ⟨b, hpos, hle, ?_, hfrom⟩
      intro v hv
      rcases hawait v hv with hold | rfl
      · exact hawaited v hold
      · exact hle

/-- A handler that has finished waiting in failure: it is no longer pending. -/
theorem AckInv.stopWaiting (inv : AckInv s) {h : Nat} {pc : HandlerPc}
    (hpend : pc.pendingPost = none)
    (hanswer : ∀ r response, pc = .answered (some (.post r)) response → response.status ≠ 201) :
    AckInv (s.setHandler h s.store pc) := by
  refine inv.setHandler rfl le_rfl (fun _ _ _ _ _ _ hget => Or.inr hget) ?_
    fun r response heq hstatus => absurd hstatus (hanswer r response heq)
  intro r hr
  rw [hpend] at hr
  cases hr

/-- **Release**: when the gauge reaches the awaited version, some acknowledged
    push contains the record. -/
theorem AckInv.acknowledged_of_reached (inv : AckInv s) {h v : Nat} {pc : HandlerPc}
    {r : SessionRecord} (hpc : s.handlers.lookup h = some pc) (hr : pc.pendingPost = some r)
    (hawait : pc.awaited = some v) (hreached : v ≤ s.store.ackedVersion) : Acknowledged s r := by
  rcases inv.pending h pc r hpc hr with hack | ⟨-, ⟨m, rfl⟩ | ⟨b, hpos, -, hawaited, hfrom⟩⟩
  · exact hack
  · cases hawait
  · have hb : b ≤ s.store.ackedVersion := (hawaited v hawait).trans hreached
    rcases inv.gauge with hzero | ⟨p, hp, hversion⟩
    · omega
    · exact ⟨p, hp, hfrom p (Or.inl hp) (hversion ▸ hb)⟩

theorem AckInv.succeed (inv : AckInv s) {h v : Nat} {pc : HandlerPc} {m : Mutation}
    (hpc : s.handlers.lookup h = some pc) (hm : ∀ r, m = .post r → pc.pendingPost = some r)
    (hawait : pc.awaited = some v) (hreached : v ≤ s.store.ackedVersion) :
    AckInv (s.setHandler h s.store (.answered (some m) m.success)) := by
  refine inv.setHandler rfl le_rfl (fun _ _ _ _ _ _ hget => Or.inr hget) ?_ ?_
  · intro r hr
    cases hr
  · intro r response heq _
    cases heq
    exact inv.acknowledged_of_reached hpc (hm r rfl) hawait hreached

theorem ackInv_post (inv : AckInv s) {h : Nat} {body : Option PostBody} {store : SessionStore}
    {pc : HandlerPc} (hpost : HandlerPc.post s.store body = (store, pc)) :
    AckInv (s.setHandler h store pc) := by
  unfold HandlerPc.post at hpost
  split at hpost
  next => cases hpost; exact inv.stopWaiting rfl (by rintro r response heq; cases heq)
  next record =>
    split at hpost
    next store' hins =>
      obtain ⟨hfree, rfl⟩ := SessionStore.insertSection_eq_ok hins
      cases hpost
      refine inv.setHandler rfl le_rfl (fun h' pc' r _ _ _ hget =>
        Or.inr (get_set_of_ne hfree hget)) ?_ (by rintro r response heq; cases heq)
      intro r hr
      cases hr
      refine Or.inr ⟨?_, Or.inl ⟨_, rfl⟩⟩
      rw [SessionTable.get_set, if_pos rfl]
    next => cases hpost; exact inv.stopWaiting rfl (by rintro r response heq; cases heq)

theorem ackInv_delete (inv : AckInv s) {h : Nat} {id : String} {store : SessionStore}
    {pc : HandlerPc} (hguard : NoWaiter s h id)
    (hdelete : HandlerPc.delete s.store id = (store, pc)) : AckInv (s.setHandler h store pc) := by
  unfold HandlerPc.delete at hdelete
  split at hdelete
  next => cases hdelete; exact inv.stopWaiting rfl (by rintro r response heq; cases heq)
  next =>
    split at hdelete
    next record store' hrem =>
      obtain ⟨-, rfl⟩ := SessionStore.removeSection_eq_ok hrem
      cases hdelete
      exact inv.setHandler rfl le_rfl
        (fun h' pc' r hne hpc' hr hget => get_unset_of_noWaiter hguard hne hpc' hr hget)
        (by rintro r hr; cases hr) (by rintro r response heq; cases heq)
    next => cases hdelete; exact inv.stopWaiting rfl (by rintro r response heq; cases heq)

/-- The first bump of a handler: from the new version on every push will be
    compiled from a table with its record. -/
theorem ackInv_bump (inv : AckInv s) {h : Nat} {m : Mutation}
    (hgen : s.store.generation + 1 < 2 ^ 64) (hpc : s.handlers.lookup h = some (.bump m)) :
    AckInv (s.setHandler h s.store.bump (.target m)) := by
  have hbump := SessionStore.generation_bump hgen
  refine inv.setHandler rfl (by omega) (fun _ _ _ _ _ _ hget => Or.inr hget) ?_
    (by rintro r response heq; cases heq)
  intro r hr
  have hr' : (HandlerPc.bump m).pendingPost = some r := by cases m <;> exact hr
  rcases inv.pending h _ r hpc hr' with hack | ⟨hget, -⟩
  · exact Or.inl hack
  · refine Or.inr ⟨hget, Or.inr ⟨s.store.generation + 1, by omega, ?_, ?_, ?_⟩⟩
    · exact hbump.ge
    · intro v hv
      cases hv
    · intro p hp hle
      have := inv.emitted_le p hp
      omega

/-- The undo of a failed wait. -/
theorem ackInv_rollback (inv : AckInv s) {h : Nat} {m : Mutation} {err : AckWaitError}
    {store : SessionStore} (hguard : HandlerGuard s h (some (.rollback m err)))
    (hundo : m.undoSection s.store = .ok store) :
    AckInv (s.setHandler h store (.rollbackBump m err)) := by
  cases m with
  | post record =>
    obtain rfl := Mutation.undoSection_post hundo
    exact inv.setHandler rfl le_rfl
      (fun h' pc' r hne hpc' hr hget => get_unset_of_noWaiter hguard hne hpc' hr hget)
      (by rintro r hr; cases hr) (by rintro r response heq; cases heq)
  | delete record =>
    obtain ⟨hfree, rfl⟩ := SessionStore.insertSection_eq_ok hundo
    exact inv.setHandler rfl le_rfl
      (fun h' pc' r _ _ _ hget => Or.inr (get_set_of_ne hfree hget))
      (by rintro r hr; cases hr) (by rintro r response heq; cases heq)

theorem ackInv_rollbackBump (inv : AckInv s) {h : Nat} {m : Mutation} {err : AckWaitError}
    (hgen : s.store.generation + 1 < 2 ^ 64) :
    AckInv (s.setHandler h s.store.bump (.answered (some m) (m.refusal state err))) := by
  have hbump := SessionStore.generation_bump hgen
  refine inv.setHandler rfl (by omega) (fun _ _ _ _ _ _ hget => Or.inr hget)
    (by rintro r hr; cases hr) ?_
  rintro r response heq hstatus
  cases heq
  simp at hstatus

/-- Every access of a handler to the store keeps the invariant. -/
theorem ackInv_handler (hgate : state.ackDisabled = false) (inv : AckInv s) {h : Nat}
    {pc pc' : HandlerPc} {store : SessionStore}
    (hguard : HandlerGuard s h (s.handlers.lookup h)) (hpc : s.handlers.lookup h = some pc)
    (hadv : pc.advance state s.store = some (store, pc')) : AckInv (s.setHandler h store pc') := by
  rw [hpc] at hguard
  cases pc with
  | bump m => cases hadv; exact ackInv_bump inv hguard hpc
  | target m =>
    simp only [HandlerPc.advance, hgate, Bool.false_eq_true, if_false] at hadv
    cases hadv
    refine inv.keepWaiting hpc (by simp) (by cases m <;> rfl) ?_ (by simp)
    intro v hv
    cases hv
    exact Or.inr rfl
  | subscribers m v =>
    simp only [HandlerPc.advance] at hadv
    split at hadv
    next => cases hadv; exact inv.stopWaiting rfl (by simp)
    next =>
      cases hadv
      exact inv.keepWaiting hpc (by simp) (by cases m <;> rfl) (fun w hw => Or.inl hw) (by simp)
  | subscribe m v =>
    simp only [HandlerPc.advance] at hadv
    split at hadv
    next hle =>
      cases hadv
      exact inv.succeed hpc (by rintro r rfl; rfl) rfl hle
    next =>
      cases hadv
      exact inv.keepWaiting hpc (by simp) (by cases m <;> rfl) (fun w hw => Or.inl hw) (by simp)
  | changed m v seen =>
    simp only [HandlerPc.advance] at hadv
    split at hadv
    next => cases hadv
    next =>
      split at hadv
      next hle =>
        cases hadv
        exact inv.succeed hpc (by rintro r rfl; rfl) rfl hle
      next =>
        cases hadv
        exact inv.keepWaiting hpc (by simp) (by cases m <;> rfl) (fun w hw => Or.inl hw) (by simp)
  | woken m v seen =>
    simp only [HandlerPc.advance] at hadv
    split at hadv
    next => cases hadv; exact inv.stopWaiting rfl (by simp)
    next =>
      cases hadv
      exact inv.keepWaiting hpc (by simp) (by cases m <;> rfl) (fun w hw => Or.inl hw) (by simp)
  | rollback m err =>
    simp only [HandlerPc.advance] at hadv
    split at hadv
    next hundo => cases hadv; exact ackInv_rollback inv hguard hundo
    next =>
      cases hadv
      refine inv.stopWaiting rfl ?_
      rintro r response heq
      cases heq
      simp
  | rollbackBump m err => cases hadv; exact ackInv_rollbackBump inv hguard
  | answered m response => cases hadv

theorem ackInv_expire (inv : AckInv s) {h : Nat} {pc pc' : HandlerPc}
    (hexp : pc.expire = some pc') : AckInv (s.setHandler h s.store pc') := by
  cases pc with
  | changed m v seen => cases hexp; exact inv.stopWaiting rfl (by simp)
  | _ => cases hexp

-- ════════════════════════════════════════════════════════════════════════
-- The gate
-- ════════════════════════════════════════════════════════════════════════

/-- **Step lemma**: every guarded step keeps the invariant. -/
theorem ackInv_step (hgate : state.ackDisabled = false) (inv : AckInv s) (hguard : AckGuard s a)
    (hnext : System.next state s a = some s') : AckInv s' := by
  cases a with
  | post h body =>
    simp only [System.next, Option.ite_none_left_eq_some, Option.some.injEq] at hnext
    obtain ⟨-, rfl⟩ := hnext
    exact ackInv_post inv rfl
  | delete h id =>
    simp only [System.next, Option.ite_none_left_eq_some, Option.some.injEq] at hnext
    obtain ⟨-, rfl⟩ := hnext
    exact ackInv_delete inv hguard rfl
  | handler h =>
    obtain ⟨pc, hpc, hnext⟩ := Option.bind_eq_some_iff.mp hnext
    obtain ⟨⟨store, pc'⟩, hadv, heq⟩ := Option.bind_eq_some_iff.mp hnext
    cases heq
    exact ackInv_handler hgate inv hguard hpc hadv
  | expire h =>
    obtain ⟨pc, hpc, hnext⟩ := Option.bind_eq_some_iff.mp hnext
    obtain ⟨pc', hexp, heq⟩ := Option.bind_eq_some_iff.mp hnext
    cases heq
    exact ackInv_expire inv hexp
  | connect _ _ | disconnect _ | receive _ | tick _ | stream _ | subscribe _ _ | accept _
  | reject _ _ => exact ackInv_stream inv hguard rfl hnext

/-- **Ack gate**: in every run whose steps keep the gauge honest, a 201 means
    that envoy has acknowledged a push with the record. -/
theorem ack_gate (hgate : state.ackDisabled = false)
    (hreach : (controlPlane state).ReachableUnder AckGuard s) : GateHolds s := by
  have inv : AckInv s := hreach.invariant (fun _ hstart => ackInv_start hstart)
    fun _ _ _ inv hguard hnext => ackInv_step hgate inv hguard hnext
  exact inv.answered

-- ════════════════════════════════════════════════════════════════════════
-- Runs
-- ════════════════════════════════════════════════════════════════════════

private def echoPost : PostBody where
  sessionId := some "mcp_session_a1"
  containerIp := some "10.0.0.7"
  tenant := some "acme"
  workspace := some "main"
  plugin := some "echo"
  egressPolicy := none

/-- A fresh process whose envoys accepted `version` last. -/
private def freshSystem (version : String) : System :=
  ⟨SessionStore.new, ∅, ∅, fun _ => version, []⟩

private theorem freshSystem_start (version : String) : System.Start (freshSystem version) :=
  ⟨⟨[], rfl⟩, rfl, rfl, rfl⟩

/-- Handler 0 is a `POST` that has answered 201. -/
private def created (s : System) : Bool :=
  match s.handlers.lookup 0 with
  | some (.answered (some (.post _)) response) => decide (response.status = 201)
  | _ => false

private theorem exists_of_created (h : created s = true) :
    ∃ r response, s.handlers.lookup 0 = some (.answered (some (.post r)) response) ∧
      response.status = 201 := by
  unfold created at h
  split at h
  next r response hpc => exact ⟨r, response, hpc, of_decide_eq_true h⟩
  next => cases h

/-- An envoy subscribes, applies the empty listener, then the one with the
    record, and both acknowledgements arrive. -/
private def ackedRun : List Action :=
  [.connect 0 0, .stream 0, .subscribe 0 .listener, .receive 0, .stream 0, .stream 0, .stream 0,
    .accept 0, .receive 0, .stream 0, .post 0 (some echoPost), .handler 0, .handler 0, .tick 0,
    .stream 0, .stream 0, .handler 0, .handler 0, .accept 0, .receive 0, .handler 0]

theorem ack_gate_acked_run :
    ∃ s r response, s.handlers.lookup 0 = some (.answered (some (.post r)) response) ∧
      response.status = 201 ∧ Acknowledged s r := by
  have hrun : ((controlPlane ⟨"5s", false⟩).execUnder AckGuard (freshSystem "") ackedRun).any
      created = true := by decide +kernel
  obtain ⟨s, hreach, hcreated⟩ := Machine.exists_run_of_execUnder created hrun
  obtain ⟨r, response, hpc, hstatus⟩ := exists_of_created hcreated
  have hgate := ack_gate rfl ⟨freshSystem "", freshSystem_start "", hreach⟩
  exact ⟨s, r, response, hpc, hstatus, hgate 0 r response hpc hstatus⟩

/-- An envoy that accepted version 5 from an earlier process reconnects; its
    first request lifts the gauge to 5, and the `POST` that creates generation 1
    answers 201 before anything is pushed. -/
private def staleRun : List Action :=
  [.connect 0 0, .stream 0, .subscribe 0 .listener, .receive 0, .post 0 (some echoPost),
    .handler 0, .handler 0, .handler 0, .handler 0]

theorem stale_version_opens_gate :
    ¬ ∀ state s, state.ackDisabled = false → (controlPlane state).Reachable s → GateHolds s := by
  intro hclaim
  have hexec : ((controlPlane ⟨"5s", false⟩).execUnder (fun _ _ => True) (freshSystem "5")
      staleRun).any (fun s => created s && s.acked.isEmpty) = true := by decide +kernel
  obtain ⟨s, hrun, hs⟩ := Machine.exists_run_of_execUnder _ hexec
  rw [Bool.and_eq_true, List.isEmpty_iff] at hs
  obtain ⟨r, response, hpc, hstatus⟩ := exists_of_created hs.1
  have hgate := hclaim ⟨"5s", false⟩ s rfl ⟨freshSystem "5", freshSystem_start "5", hrun⟩
  obtain ⟨p, hp, -⟩ := hgate 0 r response hpc hstatus
  rw [hs.2] at hp
  cases hp

end Botwork.ControlPlane
