import Botwork.ControlPlane.Ledger

/-!
# What a pushed version stands for

A push of version `v` has every change whose bump brought the generation to `v` or
below, whatever else it has; that the changes, the bumps and the two reads interleave
with those of other handlers and streams, that rollbacks change the table again and
that a stream skips generations makes no difference.

## Main definitions

- `Reflects` — a snapshot shows a change
- `AckedInv` — the invariant of runs that keep the gauge honest

## Main results

- `pushes_truthful`, `versions_sorted` — the pushes of every reachable state
- `last_push_current` — a stream at rest has pushed the table as it is
- `success_acknowledged` — what stands behind a 200 or 201
-/

namespace Botwork.ControlPlane

open Botwork.Foundations Botwork.Foundations.PublishedLog

variable {state : AppState} {s s' : System} {c c' : Ledger} {a : Action} {i h count : Nat}
  {st : AdsStream} {pc : HandlerPc} {m : Mutation} {p : LdsPush}

-- ════════════════════════════════════════════════════════════════════════
-- Pushes
-- ════════════════════════════════════════════════════════════════════════

/-- **Versions tell the truth**: a push of version `v` is compiled from the table after
    some front part of all changes, in which every change is whose bump has brought the
    generation to `v` or below. -/
theorem pushes_truthful (hreach : (ledger state).ReachableUnder Ledger.NoWrap c) :
    c.system.store.list = (c.tableAfter c.changes.length).list ∧
      ∀ p, (Emitted c.system p ∨ ∃ i, p ∈ c.pushed i) → ∃ count, c.Truthful p count := by
  have inv := LedgerInv.of_reachable hreach
  refine ⟨?_, ?_⟩
  · rw [inv.tableAfter_length]
    exact (SessionStore.list_congr rfl).symm
  · rintro p (hp | ⟨i, hp⟩)
    · exact inv.emitted p hp
    · exact (inv.pushed i p hp).2

/-- **Versions never decrease** on a stream. -/
theorem versions_sorted (hreach : (ledger state).ReachableUnder Ledger.NoWrap c) (i : Nat) :
    (c.pushed i).Pairwise fun p q => p.version ≤ q.version :=
  (LedgerInv.of_reachable hreach).sorted i

/-- **A stream at rest** that has pushed at all has pushed the table as it is, under
    the current generation, once no bump is outstanding. -/
theorem last_push_current (hreach : (ledger state).ReachableUnder Ledger.NoWrap c)
    (hst : c.system.streams.lookup i = some st) (hpc : st.pc = .select)
    (hseen : st.seen = c.system.store.generation) (hbumped : c.system.Bumped)
    (hlast : (c.pushed i).getLast? = some p) :
    p = ⟨c.system.store.generation, c.system.store.list⟩ := by
  have inv := LedgerInv.of_reachable hreach
  obtain ⟨hle, count, hcount, hsnapshot, hcovered⟩ :=
    inv.pushed i p (List.mem_of_getLast? hlast)
  have hge := (inv.ordered i st hst).last (by rw [hpc]; rfl) p hlast
  have hversion : p.version = c.system.store.generation := by omega
  -- every change has been bumped, and no bump went beyond the generation
  have hall : count = c.changes.length := by
    by_contra hne
    have hlt : count < c.changes.length := by omega
    have hmem := List.getElem_mem hlt
    cases hpublished : c.changes[count].published with
    | none =>
      have hwaiting := inv.waiting _ hmem hpublished
      obtain ⟨pc, hlook, hunbumped⟩ := (Option.any_eq_true _ _).mp hwaiting
      rw [System.bumped_iff.mp hbumped _ pc hlook] at hunbumped
      cases hunbumped
    | some v =>
      have hv := (inv.published _ hmem v hpublished).2
      have := hcovered count _ v (List.getElem?_eq_getElem hlt) hpublished (hv.trans hversion.ge)
      omega
  obtain ⟨version, snapshot⟩ := p
  rw [hall, inv.tableAfter_length] at hsnapshot
  obtain rfl : version = c.system.store.generation := hversion
  obtain rfl : snapshot = _ := hsnapshot
  rfl

-- ════════════════════════════════════════════════════════════════════════
-- What stands behind an answer
-- ════════════════════════════════════════════════════════════════════════

/-- A snapshot shows a change. -/
def Reflects (snapshot : List SessionRecord) : Mutation → Prop
  | .post record => record ∈ snapshot
  | .delete record => ∀ r ∈ snapshot, r.sessionId ≠ record.sessionId

/-- Some push that an envoy has acknowledged has this change of the handler. -/
def Ledger.Acked (c : Ledger) (h : Nat) (m : Mutation) : Prop :=
  ∃ p ∈ c.system.acked, ∃ count, c.Truthful p count ∧ Holds c.changes h m count

/-- The invariant of runs that keep the gauge honest. -/
structure AckedInv (c : Ledger) : Prop where
  base : LedgerInv c
  gauge : c.system.store.ackedVersion = 0 ∨
    ∃ p ∈ c.system.acked, p.version = c.system.store.ackedVersion
  entry : ∀ h pc m, c.system.handlers.lookup h = some pc → pc.mutation = some m →
    ∃ e ∈ c.changes, e.owner = h ∧ e.edit = m ∧
      ∀ v b, pc.awaited = some v → e.published = some b → b ≤ v
  answered : ∀ h m, c.system.handlers.lookup h = some (.answered (some m) m.success) →
    c.Acked h m

namespace AckedInv

theorem start (hstart : (ledger state).Start c) : AckedInv c := by
  refine ⟨.start hstart, ?_, ?_, ?_⟩
  · obtain ⟨⟨⟨records, hstore⟩, -⟩, -⟩ := hstart
    left
    rw [hstore]
    exact (SessionStore.seedStore_counters _ _).1
  · intro h pc m hlook
    rw [hstart.1.2.1] at hlook
    cases hlook
  · intro h m hlook
    rw [hstart.1.2.1] at hlook
    cases hlook

/-- An entry stays what it is, until its owner bumps. -/
theorem entry_after (s' : System) (a : Action) {e : LogEntry Nat Mutation} (he : e ∈ c.changes) :
    ∃ e' ∈ (c.after s' a).changes, e'.owner = e.owner ∧ e'.edit = e.edit ∧
      (c.system.bumps a ≠ some e.owner → e'.published = e.published) := by
  simp only [Ledger.after, Ledger.changesAfter]
  cases hbumps : c.system.bumps a with
  | none => exact ⟨e, List.mem_append_left _ he, rfl, rfl, fun _ => rfl⟩
  | some h =>
    obtain ⟨hown, hedit, ⟨-, hsame⟩ | ⟨⟨hh, -⟩, -⟩⟩ := mark_cases h s'.store.generation e
    · exact ⟨_, List.mem_map_of_mem he, hown, hedit, fun _ => hsame⟩
    · exact ⟨_, List.mem_map_of_mem he, hown, hedit, fun hne => absurd (by rw [hh]) hne⟩

theorem acked_after (inv : LedgerInv c) (hwrap : c.NoWrap a)
    (hnext : c.system.next state a = some s') (hacked : c.Acked h m) :
    (c.after s' a).Acked h m := by
  obtain ⟨p, hp, count, htrue, hholds⟩ := hacked
  have hstep := System.next_ledger inv.label.read hnext
  refine ⟨p, System.acked_mono inv.label hnext hp, count, ?_, ?_⟩
  · exact LedgerInv.truthful_after htrue (inv.label.version p (.inl hp)) hwrap hstep
  · simp only [Ledger.after, Ledger.changesAfter]
    cases c.system.bumps a with
    | none => exact hholds.append
    | some h' => exact hholds.publish

/-- What a step keeps of the handlers that do not move. -/
theorem others_after (inv : AckedInv c) (hwrap : c.NoWrap a)
    (hnext : c.system.next state a = some s') (hbumps : c.system.bumps a ≠ some h)
    (hlook : s'.handlers.lookup h = c.system.handlers.lookup h) :
    (∀ pc m, s'.handlers.lookup h = some pc → pc.mutation = some m →
      ∃ e ∈ (c.after s' a).changes, e.owner = h ∧ e.edit = m ∧
        ∀ v b, pc.awaited = some v → e.published = some b → b ≤ v) ∧
    ∀ m, s'.handlers.lookup h = some (.answered (some m) m.success) →
      (c.after s' a).Acked h m := by
  rw [hlook]
  refine ⟨?_, fun m hm => acked_after inv.base hwrap hnext (inv.answered h m hm)⟩
  intro pc m hpc hm
  obtain ⟨e, he, rfl, rfl, hawait⟩ := inv.entry h pc m hpc hm
  obtain ⟨e', he', hown, hedit, hpublished⟩ := entry_after s' a he
  refine ⟨e', he', hown, hedit, ?_⟩
  rw [hpublished hbumps]
  exact hawait

/-- A handler that has reached the version it waits for. -/
theorem acked_of_reached (inv : AckedInv c) {v : Nat} (hlook : c.system.handlers.lookup h = some pc)
    (hbumped : pc.isUnbumped = false) (hm : pc.mutation = some m) (hv : pc.awaited = some v)
    (hreached : v ≤ c.system.store.ackedVersion) : c.Acked h m := by
  obtain ⟨e, he, rfl, rfl, hawait⟩ := inv.entry h pc m hlook hm
  cases hpublished : e.published with
  | none =>
    have hwaiting := inv.base.waiting e he hpublished
    rw [hlook, Option.any_some, hbumped] at hwaiting
    cases hwaiting
  | some b =>
    have hpos := (inv.base.published e he b hpublished).1
    have hle := hawait v b hv hpublished
    obtain hzero | ⟨p, hp, hversion⟩ := inv.gauge
    · omega
    · obtain ⟨count, htrue⟩ := inv.base.emitted p (.inl hp)
      exact ⟨p, hp, count, htrue, htrue.2.2.holds he hpublished (by omega)⟩

/-- **Step lemma** for handlers. -/
theorem handler_after (inv : AckedInv c) (hgate : state.ackDisabled = false) (hwrap : c.NoWrap a)
    {store : SessionStore} (hnext : c.system.next state a = some (c.system.setHandler h store pc))
    (hmove : (∃ body, a = .post h body ∧ c.system.handlers.lookup h = none ∧
        HandlerPc.post c.system.store body = (store, pc)) ∨
      (∃ id, a = .delete h id ∧ c.system.handlers.lookup h = none ∧
        HandlerPc.delete c.system.store id = (store, pc)) ∨
      (∃ old, a = .handler h ∧ c.system.handlers.lookup h = some old ∧
        old.advance state c.system.store = some (store, pc)) ∨
      ∃ old, a = .expire h ∧ c.system.handlers.lookup h = some old ∧ old.expire = some pc ∧
        store = c.system.store) :
    store.ackedVersion = c.system.store.ackedVersion ∧
      (∀ m, pc.mutation = some m →
        ∃ e ∈ (c.after (c.system.setHandler h store pc) a).changes, e.owner = h ∧ e.edit = m ∧
          ∀ v b, pc.awaited = some v → e.published = some b → b ≤ v) ∧
      ∀ m, pc = .answered (some m) m.success →
        (c.after (c.system.setHandler h store pc) a).Acked h m := by
  have hself : (c.system.setHandler h store pc).handlers.lookup h = some pc :=
    AList.lookup_insert _
  rcases hmove with ⟨body, rfl, hnew, hpost⟩ | ⟨id, rfl, hnew, hdelete⟩ |
    ⟨old, rfl, hold, hadv⟩ | ⟨old, rfl, hold, hexp, rfl⟩
  · rcases HandlerPc.post_cases hpost with ⟨response, rfl, rfl⟩ | ⟨record, rfl, -, rfl⟩
    · exact ⟨rfl, fun m hm => (by cases hm), fun m hm => by cases hm⟩
    · refine ⟨rfl, ?_, fun m hm => by cases hm⟩
      rintro _ ⟨⟩
      refine ⟨⟨h, .post record, none⟩, ?_, rfl, rfl, fun v b hv => by cases hv⟩
      simp [Ledger.after, Ledger.changesAfter, System.bumps, System.changed, hself]
  · rcases HandlerPc.delete_cases hdelete with ⟨response, rfl, rfl⟩ | ⟨record, rfl, -, rfl⟩
    · exact ⟨rfl, fun m hm => (by cases hm), fun m hm => by cases hm⟩
    · refine ⟨rfl, ?_, fun m hm => by cases hm⟩
      rintro _ ⟨⟩
      refine ⟨⟨h, .delete record, none⟩, ?_, rfl, rfl, fun v b hv => by cases hv⟩
      simp [Ledger.after, Ledger.changesAfter, System.bumps, System.changed, hself]
  · have hmutation := (HandlerPc.advance_cases hadv).1
    have hentry : ∀ m, pc.mutation = some m →
        ∃ e ∈ c.changes, e.owner = h ∧ e.edit = m ∧
          ∀ v b, old.awaited = some v → e.published = some b → b ≤ v := by
      intro m hm
      exact inv.entry h old m hold (hmutation ▸ hm)
    rcases HandlerPc.advance_ledger hadv with ⟨-, rfl, -, hawaited, hanswer⟩ |
      ⟨m, err, rfl, rfl, hundo⟩ | ⟨rfl, hwaits⟩
    · refine ⟨rfl, ?_, fun m hm => absurd hm (hanswer m)⟩
      intro m hm
      obtain ⟨e, he, hown, hedit, -⟩ := hentry m hm
      obtain ⟨e', he', hown', hedit', -⟩ := entry_after
        (c.system.setHandler h c.system.store.bump pc) (.handler h) he
      refine ⟨e', he', hown'.trans hown, hedit'.trans hedit, ?_⟩
      rw [hawaited]
      intro v b hv
      cases hv
    · refine ⟨(Mutation.undoSection_applyTo hundo).2.1, ?_, fun m hm => by cases hm⟩
      intro m hm
      obtain ⟨e, he, hown, hedit, -⟩ := hentry m hm
      obtain ⟨e', he', hown', hedit', -⟩ := entry_after
        (c.system.setHandler h store (.rollbackBump _ err)) (.handler h) he
      exact ⟨e', he', hown'.trans hown, hedit'.trans hedit, fun v b hv => by cases hv⟩
    · have hbumps : c.system.bumps (.handler h) = none := by
        rw [System.bumps, hold, Option.any_some, hwaits.before]
        rfl
      refine ⟨rfl, ?_, ?_⟩
      · intro m hm
        obtain ⟨e, he, hown, hedit, hawait⟩ := hentry m hm
        obtain ⟨e', he', hown', hedit', hpublished⟩ := entry_after
          (c.system.setHandler h c.system.store pc) (.handler h) he
        refine ⟨e', he', hown'.trans hown, hedit'.trans hedit, ?_⟩
        rw [hpublished (by rw [hbumps]; exact fun heq => by cases heq)]
        intro v b hv hb
        obtain hsame | rfl := hwaits.awaited v hv
        · exact hawait v b hsame hb
        · exact (inv.base.published e he b hb).2
      · rintro m rfl
        obtain ⟨v, hv, hreached⟩ := hwaits.success hgate m rfl
        refine acked_after inv.base hwrap hnext ?_
        exact inv.acked_of_reached hold hwaits.before hmutation.symm hv hreached
  · cases old with
    | changed m version seen =>
      cases hexp
      refine ⟨rfl, ?_, fun m hm => by cases hm⟩
      intro m' hm
      obtain ⟨e, he, hown, hedit, -⟩ := inv.entry h _ m' hold hm
      obtain ⟨e', he', hown', hedit', -⟩ := entry_after
        (c.system.setHandler h c.system.store (.rollback m (.timeout version))) (.expire h) he
      exact ⟨e', he', hown'.trans hown, hedit'.trans hedit, fun v b hv => by cases hv⟩
    | _ => cases hexp

/-- **Step lemma**. -/
theorem step (inv : AckedInv c) (hgate : state.ackDisabled = false) (hguard : c.Honest a)
    (hnext : c.system.next state a = some s') : AckedInv (c.after s' a) := by
  obtain ⟨hwrap, hhonest⟩ := hguard
  have hbase := inv.base.step hwrap hnext
  rcases System.next_cases hnext with ⟨h, store, pc, rfl, hmove⟩ | ⟨ha, hhandlers, -, -⟩
  · obtain ⟨hgauge, hentry, hanswered⟩ := inv.handler_after hgate hwrap hnext hmove
    have hbumps : ∀ h', h' ≠ h → c.system.bumps a ≠ some h' := by
      intro h' hne heq
      rcases hmove with ⟨_, rfl, -⟩ | ⟨_, rfl, -⟩ | ⟨_, rfl, -⟩ | ⟨_, rfl, -⟩
      · cases heq
      · cases heq
      · rw [System.bumps] at heq
        split at heq
        next => exact hne (Option.some.inj heq).symm
        next => cases heq
      · cases heq
    have hother : ∀ h', h' ≠ h → (c.system.setHandler h store pc).handlers.lookup h' =
        c.system.handlers.lookup h' := fun h' hne => AList.lookup_insert_ne hne
    have hself : (c.system.setHandler h store pc).handlers.lookup h = some pc :=
      AList.lookup_insert _
    refine ⟨hbase, ?_, ?_, ?_⟩
    · show store.ackedVersion = 0 ∨ ∃ p ∈ c.system.acked, p.version = store.ackedVersion
      rw [hgauge]
      exact inv.gauge
    · intro h' pc' m hlook hm
      by_cases hh : h' = h
      · subst hh
        obtain rfl : pc = pc' := Option.some.inj (hself.symm.trans hlook)
        exact hentry m hm
      · exact (inv.others_after hwrap hnext (hbumps h' hh) (hother h' hh)).1 pc' m hlook hm
    · intro h' m hlook
      by_cases hh : h' = h
      · subst hh
        exact hanswered m (Option.some.inj (hself.symm.trans hlook))
      · exact (inv.others_after hwrap hnext (hbumps h' hh) (hother h' hh)).2 m hlook
  · obtain ⟨hframe, hmoved⟩ := System.stream_frame inv.base.label.read ha hnext
    have hbumps : ∀ h, c.system.bumps a ≠ some h := by
      intro h heq
      cases a <;> first | cases heq | cases ha
    have hsame : ∀ h, s'.handlers.lookup h = c.system.handlers.lookup h := by
      intro h
      rw [hhandlers]
    refine ⟨hbase, ?_, ?_, ?_⟩
    · show s'.store.ackedVersion = 0 ∨ ∃ p ∈ s'.acked, p.version = s'.store.ackedVersion
      obtain hstill | ⟨i, st, v, rfl, hst, hv, hlift, hreport⟩ := hmoved
      · rw [hstill]
        obtain hzero | ⟨p, hp, hversion⟩ := inv.gauge
        · exact .inl hzero
        · exact .inr ⟨p, hframe.acked p hp, hversion⟩
      · obtain hle | ⟨p, hp, hversion⟩ := hhonest st hst v hv
        · omega
        · exact .inr ⟨p, hframe.acked p hp, hversion.trans hreport.symm⟩
    · intro h pc m hlook hm
      exact (inv.others_after hwrap hnext (hbumps h) (hsame h)).1 pc m hlook hm
    · intro h m hlook
      exact (inv.others_after hwrap hnext (hbumps h) (hsame h)).2 m hlook

end AckedInv

theorem Ledger.tableAfter_succ {j : Nat} {e : LogEntry Nat Mutation}
    (hlook : c.changes[j]? = some e) :
    c.tableAfter (j + 1) = e.edit.applyTo (c.tableAfter j) := by
  rw [Ledger.tableAfter, List.take_add_one, edits, List.getElem?_map, hlook, replay, List.foldl_append]
  rfl

/-- The cell of an id that no later change is about. -/
theorem Ledger.get_tableAfter {j : Nat} {id : String} (hle : j ≤ count)
    (hlength : count ≤ c.changes.length)
    (hno : ∀ k (e : LogEntry Nat Mutation), j ≤ k → k < count → c.changes[k]? = some e →
      e.edit.record.sessionId ≠ id) :
    (c.tableAfter count).get id = (c.tableAfter j).get id := by
  induction count, hle using Nat.le_induction with
  | base => rfl
  | succ k hk ih =>
    have hlook := List.getElem?_eq_getElem (show k < c.changes.length by omega)
    rw [Ledger.tableAfter_succ hlook, get_applyTo,
      if_neg (hno k _ hk (Nat.lt_succ_self k) hlook)]
    exact ih (by omega) fun k' e hle hlt => hno k' e hle (by omega)

/-- A change shows in the table until a later one is about its id. -/
theorem LedgerInv.reflects (inv : LedgerInv c) {j : Nat} {e : LogEntry Nat Mutation}
    (hlook : c.changes[j]? = some e) (hlt : j < count) (hlength : count ≤ c.changes.length) :
    Reflects (c.tableAfter count).list e.edit ∨
      ∃ k e', j < k ∧ k < count ∧ c.changes[k]? = some e' ∧
        e'.edit.record.sessionId = e.edit.record.sessionId := by
  by_cases hlater : ∃ k e', j < k ∧ k < count ∧ c.changes[k]? = some e' ∧
      e'.edit.record.sessionId = e.edit.record.sessionId
  · exact .inr hlater
  · left
    have hcell : (c.tableAfter count).get e.edit.record.sessionId =
        (e.edit.applyTo (c.tableAfter j)).get e.edit.record.sessionId := by
      rw [← Ledger.tableAfter_succ hlook]
      refine Ledger.get_tableAfter hlt hlength ?_
      intro k e' hle hk hlook' heq
      exact hlater ⟨k, e', hle, hk, hlook', heq⟩
    have hmem := SessionStore.mem_list_iff
      ({ SessionStore.new with inner := c.tableAfter count } : SessionStore)
    have hfits := inv.fits j e hlook
    cases hedit : e.edit with
    | post record =>
      rw [hedit] at hcell hfits
      rw [Mutation.applyTo_post (hfits record rfl)] at hcell
      have hget : ((c.tableAfter j).set record).get record.sessionId = some record := by
        rw [SessionTable.get_set, if_pos rfl]
      exact (hmem record).mpr (hcell.trans hget)
    | delete record =>
      rw [hedit] at hcell
      intro r hr heq
      have hget := (hmem r).mp hr
      rw [heq] at hget
      have hnone : ((c.tableAfter j).unset record.sessionId).get record.sessionId = none := by
        rw [SessionTable.get_unset, if_pos rfl]
      cases hget.symm.trans (hcell.trans hnone)

/-- **What an answer means**: when a `POST` has answered 201 or a `DELETE` 200, an envoy
    has acknowledged a push from the table as it was after that change; the push shows
    the change, unless another one of the same id was made in between. -/
theorem success_acknowledged (hgate : state.ackDisabled = false)
    (hreach : (ledger state).ReachableUnder Ledger.Honest c)
    (hanswer : c.system.handlers.lookup h = some (.answered (some m) m.success)) :
    ∃ p ∈ c.system.acked, ∃ count j e, c.Truthful p count ∧ c.changes[j]? = some e ∧
      e.owner = h ∧ e.edit = m ∧ j < count ∧
      (Reflects p.snapshot m ∨ ∃ k e', j < k ∧ k < count ∧ c.changes[k]? = some e' ∧
        e'.edit.record.sessionId = m.record.sessionId) := by
  have inv : AckedInv c := by
    apply hreach.invariant
    · exact fun _ hstart => .start hstart
    · intro t a t' inv hguard hnext
      obtain ⟨s', hs', rfl⟩ := Option.map_eq_some_iff.mp hnext
      exact inv.step hgate hguard hs'
  obtain ⟨p, hp, count, htrue, j, e, hlook, hown, rfl, hlt⟩ := inv.answered h m hanswer
  refine ⟨p, hp, count, j, e, htrue, hlook, hown, rfl, hlt, ?_⟩
  rw [htrue.2.1]
  exact inv.base.reflects hlook hlt htrue.1

-- ════════════════════════════════════════════════════════════════════════
-- A run
-- ════════════════════════════════════════════════════════════════════════

private def heldPost : PostBody where
  sessionId := some "mcp_session_b2"
  containerIp := some "10.0.0.9"
  tenant := some "acme"
  workspace := some "main"
  plugin := some "echo"
  egressPolicy := none

private def freshLedger : Ledger :=
  ⟨SessionTable.empty, ⟨SessionStore.new, ∅, ∅, fun _ => "", []⟩, [], fun _ => []⟩

private theorem freshLedger_start (state : AppState) : (ledger state).Start freshLedger :=
  ⟨⟨⟨[], rfl⟩, rfl, rfl, rfl⟩, rfl, rfl, fun _ => rfl⟩

/-- An envoy subscribes and applies the empty listener; a record is inserted, pushed and
    acknowledged, and then removed again by another handler. -/
private def removedRun : List Action :=
  [.connect 0 0, .stream 0, .subscribe 0 .listener, .receive 0, .stream 0, .stream 0, .stream 0,
    .accept 0, .receive 0, .stream 0, .post 0 (some heldPost), .handler 0, .handler 0, .tick 0,
    .stream 0, .stream 0, .handler 0, .handler 0, .accept 0, .receive 0, .stream 0, .handler 0,
    .delete 1 "mcp_session_b2", .handler 1, .handler 1, .tick 0, .stream 0, .stream 0, .handler 1,
    .handler 1, .accept 0, .receive 0, .stream 0, .handler 1]

/-- The `DELETE` has answered 200, and the stream rests. -/
private def removed (c : Ledger) : Bool :=
  (match c.system.handlers.lookup 1 with
    | some (.answered (some m) response) => decide (response = m.success)
    | _ => false) &&
  (c.system.streams.lookup 0).any fun st => decide (st.pc = .select ∧
    st.seen = c.system.store.generation ∧ c.system.Bumped ∧
    ((c.pushed 0).getLast?).isSome)

private theorem removed_run : ((ledger ⟨"5s", false⟩).execUnder Ledger.Honest freshLedger
    removedRun).any removed = true := by
  decide +kernel

theorem success_acknowledged_removed_run :
    ∃ (c : Ledger) (m : Mutation), c.system.handlers.lookup 1 = some (.answered (some m) m.success) ∧
      ∃ p ∈ c.system.acked, ∃ count j e, c.Truthful p count ∧ c.changes[j]? = some e ∧
        e.owner = 1 ∧ e.edit = m ∧ j < count ∧
        (Reflects p.snapshot m ∨ ∃ k e', j < k ∧ k < count ∧ c.changes[k]? = some e' ∧
          e'.edit.record.sessionId = m.record.sessionId) := by
  obtain ⟨c, hrun, hc⟩ := Machine.exists_run_of_execUnder removed removed_run
  rw [removed, Bool.and_eq_true] at hc
  obtain ⟨hanswer, -⟩ := hc
  split at hanswer
  next m response hlook =>
    rw [of_decide_eq_true hanswer] at hlook
    exact ⟨c, m, hlook, success_acknowledged rfl ⟨_, freshLedger_start _, hrun⟩ hlook⟩
  next => cases hanswer

private theorem exists_removed : ∃ c st p, (ledger ⟨"5s", false⟩).ReachableUnder Ledger.NoWrap c ∧
    c.system.streams.lookup 0 = some st ∧ st.pc = .select ∧
    st.seen = c.system.store.generation ∧ c.system.Bumped ∧ (c.pushed 0).getLast? = some p := by
  obtain ⟨c, hrun, hc⟩ := Machine.exists_run_of_execUnder removed removed_run
  rw [removed, Bool.and_eq_true] at hc
  obtain ⟨st, hst, hrest⟩ := (Option.any_eq_true _ _).mp hc.2
  obtain ⟨hpc, hseen, hbumped, hlast⟩ := of_decide_eq_true hrest
  obtain ⟨p, hp⟩ := Option.isSome_iff_exists.mp hlast
  exact ⟨c, st, p, ⟨_, freshLedger_start _, hrun.weaken fun _ _ h => h.1⟩, hst, hpc, hseen,
    hbumped, hp⟩

theorem pushes_truthful_removed_run : ∃ (c : Ledger) (p : LdsPush) (i : Nat), p ∈ c.pushed i ∧
    ∃ count, c.Truthful p count := by
  obtain ⟨c, st, p, hreach, -, -, -, -, hlast⟩ := exists_removed
  have hp := List.mem_of_getLast? hlast
  exact ⟨c, p, 0, hp, (pushes_truthful hreach).2 p (.inr ⟨0, hp⟩)⟩

theorem versions_sorted_removed_run : ∃ c : Ledger, c.pushed 0 ≠ [] ∧
    (c.pushed 0).Pairwise fun p q => p.version ≤ q.version := by
  obtain ⟨c, st, p, hreach, -, -, -, -, hlast⟩ := exists_removed
  refine ⟨c, ?_, versions_sorted hreach 0⟩
  intro hnil
  rw [hnil] at hlast
  cases hlast

theorem last_push_current_removed_run : ∃ (c : Ledger) (p : LdsPush),
    (c.pushed 0).getLast? = some p ∧
      p = ⟨c.system.store.generation, c.system.store.list⟩ := by
  obtain ⟨c, st, p, hreach, hst, hpc, hseen, hbumped, hlast⟩ := exists_removed
  exact ⟨c, p, hlast, last_push_current hreach hst hpc hseen hbumped hlast⟩

end Botwork.ControlPlane
