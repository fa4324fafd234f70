import Botwork.ControlPlane.Pushes
import Botwork.Foundations.Journal

/-!
# Handler rollback

A handler that fails its ack wait undoes its mutation in a section of its own,
by id alone: a failed `POST` removes whatever record the id has by then, a
failed `DELETE` re-inserts its record if the id is free.  A `Chronicle` is the
system together with the mutations in the order of their sections.
`rollback_exact` proves for every run whose rollbacks meet `RollbackGuard` that
the table is what the handlers that were not refused make of the seeded table.
`rollback_removes_other_record` is a run where a refused `POST` removes the
record of a later one that answered 201.

## Main definitions

- `Chronicle`, `chronicle` — the system with its mutations, as a machine
- `replay` — run mutations one after the other
- `RollbackExact` — the property
- `RollbackGuard` — the rollbacks that undo exactly their own mutation
- `ChronicleInv` — the invariant of guarded runs
-/

namespace Botwork.ControlPlane

open Botwork.Foundations

-- ════════════════════════════════════════════════════════════════════════
-- Chronicles
-- ════════════════════════════════════════════════════════════════════════

namespace HandlerPc

/-- The mutation of a handler that was not refused before it mutated the table. -/
def mutation : HandlerPc → Option Mutation
  | .bump m | .target m | .subscribers m _ | .subscribe m _ | .changed m _ _ | .woken m _ _
  | .rollback m _ | .rollbackBump m _ => some m
  | .answered m _ => m

/-- The handler has not answered yet, or it has answered 200. -/
def IsPendingOrOk : HandlerPc → Prop
  | .answered _ response => response.status = 200
  | _ => True

/-- The handler has answered 503, or only its second bump and the answer are left. -/
def isUndone : HandlerPc → Bool
  | .rollbackBump _ _ => true
  | .answered (some _) response => decide (response.status = 503)
  | _ => false

end HandlerPc

/-- The system, the table it started with and its mutations, each with its
    handler, in the order of their sections. -/
structure Chronicle where
  seeded : SessionTable
  system : System
  log : List (Nat × Mutation)

def chronicle (state : AppState) : Machine Chronicle Action where
  Start c := c.system.Start ∧ c.seeded = c.system.store.inner ∧ c.log = []
  next c a := (c.system.next state a).map fun s =>
    { c with system := s, log := c.log ++ s.begun a }

namespace Chronicle

/-- The mutations that have not been undone. -/
def standing (c : Chronicle) : List (Nat × Mutation) :=
  c.log.filter fun e => !(c.system.handlers.lookup e.1).any HandlerPc.isUndone

def standingOn (c : Chronicle) (id : String) : List (Nat × Mutation) :=
  c.standing.filter fun e => decide (e.2.record.sessionId = id)

end Chronicle

-- ════════════════════════════════════════════════════════════════════════
-- The property
-- ════════════════════════════════════════════════════════════════════════

/-- One mutation on a table; an insertion under a taken id is refused. -/
def Mutation.applyTo (t : SessionTable) : Mutation → SessionTable
  | .post record => if (t.get record.sessionId).isSome then t else t.set record
  | .delete record => t.unset record.sessionId

def replay (t : SessionTable) (ms : List Mutation) : SessionTable := ms.foldl Mutation.applyTo t

/-- A `DELETE` of the id that removed its record after the mutation of `h` and
    has answered 200 or has not answered yet. -/
def Chronicle.DeletedSince (c : Chronicle) (h : Nat) (id : String) : Prop :=
  ∃ front m back d removed pc, c.standing = front ++ (h, m) :: back ∧
    (d, Mutation.delete removed) ∈ back ∧ removed.sessionId = id ∧
      c.system.handlers.lookup d = some pc ∧ pc.IsPendingOrOk

/-- The handlers that answered 503 have left no trace, and what a 201 promised
    is in the table until a `DELETE` removes it. -/
structure RollbackExact (c : Chronicle) : Prop where
  undone : ∀ id, c.system.store.inner.get id =
    (replay c.seeded (c.standing.map Prod.snd)).get id
  kept : ∀ h record response,
    c.system.handlers.lookup h = some (.answered (some (.post record)) response) →
      response.status = 201 →
        c.system.store.inner.get record.sessionId = some record ∨
          c.DeletedSince h record.sessionId

-- ════════════════════════════════════════════════════════════════════════
-- The guard
-- ════════════════════════════════════════════════════════════════════════

namespace Chronicle

/-- The insertion that a `DELETE` took back still stands: the last mutation of
    the id before it is an insertion, or there is none and the id was seeded. -/
def insertedBefore (c : Chronicle) (h : Nat) (id : String) : Bool :=
  match (before h (c.standingOn id)).getLast? with
  | none => (c.seeded.get id).isSome
  | some (_, .post _) => true
  | some (_, .delete _) => false

/-- What the rollback of a handler must meet.  That of a `POST` finds the id
    free, or its own mutation the last one of the id.  That of a `DELETE` finds
    its own mutation the last one while the insertion it removed still stands,
    or the id taken after that insertion was undone. -/
def UndoGuard (c : Chronicle) (h : Nat) : Option HandlerPc → Prop
  | some (.rollback (.post record) _) =>
    c.system.store.inner.get record.sessionId = none ∨
      after h (c.standingOn record.sessionId) = []
  | some (.rollback (.delete record) _) =>
    if c.insertedBefore h record.sessionId then after h (c.standingOn record.sessionId) = []
    else c.system.store.inner.get record.sessionId ≠ none
  | _ => True

end Chronicle

/-- The rollbacks that undo exactly their own mutation. -/
def RollbackGuard (c : Chronicle) : Action → Prop
  | .handler h => c.UndoGuard h (c.system.handlers.lookup h)
  | _ => True

instance (c : Chronicle) (h : Nat) : (pc : Option HandlerPc) → Decidable (c.UndoGuard h pc)
  | some (.rollback (.post record) _) =>
    inferInstanceAs (Decidable (_ ∨ after h (c.standingOn record.sessionId) = []))
  | some (.rollback (.delete record) _) =>
    inferInstanceAs (Decidable (if c.insertedBefore h record.sessionId then
      after h (c.standingOn record.sessionId) = []
    else c.system.store.inner.get record.sessionId ≠ none))
  | none | some (.bump _) | some (.target _) | some (.subscribers _ _) | some (.subscribe _ _)
  | some (.changed _ _ _) | some (.woken _ _ _) | some (.rollbackBump _ _)
  | some (.answered _ _) => isTrue trivial

instance (c : Chronicle) : (a : Action) → Decidable (RollbackGuard c a)
  | .handler h => inferInstanceAs (Decidable (c.UndoGuard h (c.system.handlers.lookup h)))
  | .post _ _ | .delete _ _ | .expire _ | .connect _ _ | .disconnect _ | .receive _ | .tick _
  | .stream _ | .subscribe _ _ | .accept _ | .reject _ _ => isTrue trivial

-- ════════════════════════════════════════════════════════════════════════
-- Journals of an id
-- ════════════════════════════════════════════════════════════════════════

/-- What a mutation does to the cell of its id. -/
def Mutation.op : Mutation → CellOp SessionRecord
  | .post record => .insert record
  | .delete record => .remove record

def entryOp (e : Nat × Mutation) : CellOp SessionRecord := e.2.op

theorem get_applyTo (t : SessionTable) (m : Mutation) (id : String) :
    (m.applyTo t).get id =
      if m.record.sessionId = id then m.op.apply (t.get id) else t.get id := by
  by_cases hid : m.record.sessionId = id
  · rw [if_pos hid]
    subst hid
    cases m with
    | post record =>
      change (if (t.get record.sessionId).isSome then t else t.set record).get record.sessionId =
        (CellOp.insert record).apply (t.get record.sessionId)
      cases hget : t.get record.sessionId with
      | none => simp [SessionTable.get_set]
      | some old => simp [hget, CellOp.apply]
    | delete record =>
      change (t.unset record.sessionId).get record.sessionId = (CellOp.remove record).apply _
      simp [SessionTable.get_unset]
  · rw [if_neg hid]
    cases m with
    | post record =>
      change (if (t.get record.sessionId).isSome then t else t.set record).get id = t.get id
      split
      next => rfl
      next => exact (t.get_set record id).trans (if_neg (Ne.symm hid))
    | delete record =>
      exact (t.get_unset record.sessionId id).trans (if_neg (Ne.symm hid))

/-- The replay of mutations, seen at one id. -/
theorem get_replay (t : SessionTable) (entries : List (Nat × Mutation)) (id : String) :
    (replay t (entries.map Prod.snd)).get id =
      CellOp.run entryOp (t.get id)
        (entries.filter fun e => decide (e.2.record.sessionId = id)) := by
  induction entries generalizing t with
  | nil => rfl
  | cons e entries ih =>
    rw [List.map_cons, replay, List.foldl_cons, ← replay, ih, get_applyTo]
    by_cases hid : e.2.record.sessionId = id
    · rw [if_pos hid, List.filter_cons_of_pos (by simpa using hid)]
      rfl
    · rw [if_neg hid, List.filter_cons_of_neg (by simpa using hid)]

-- ════════════════════════════════════════════════════════════════════════
-- What a step does to the table
-- ════════════════════════════════════════════════════════════════════════

/-- A handler access outside its rollback leaves the table alone; an answer is the
    success of its mutation or a 503. -/
theorem HandlerPc.advance_cases {state : AppState} {store store' : SessionStore}
    {pc pc' : HandlerPc} (h : pc.advance state store = some (store', pc')) :
    pc'.mutation = pc.mutation ∧
      (∀ m response, pc' = .answered (some m) response →
        response = m.success ∨ response.status = 503) ∧
      ((store'.inner = store.inner ∧ pc'.isUndone = pc.isUndone) ∨
        ∃ m err, pc = .rollback m err ∧ pc'.isUndone = true ∧
          store'.inner = ((m.undoSection store).toOption.getD store).inner) := by
  cases pc with
  | bump m => cases h; exact ⟨rfl, nofun, .inl ⟨rfl, rfl⟩⟩
  | target m =>
    simp only [HandlerPc.advance] at h
    split at h
    next => cases h; exact ⟨rfl, by rintro _ _ ⟨⟩; exact .inl rfl, .inl ⟨rfl, by cases m <;> rfl⟩⟩
    next => cases h; exact ⟨rfl, nofun, .inl ⟨rfl, rfl⟩⟩
  | subscribers m version =>
    simp only [HandlerPc.advance] at h
    split at h
    next => cases h; exact ⟨rfl, nofun, .inl ⟨rfl, rfl⟩⟩
    next => cases h; exact ⟨rfl, nofun, .inl ⟨rfl, rfl⟩⟩
  | subscribe m version =>
    simp only [HandlerPc.advance] at h
    split at h
    next => cases h; exact ⟨rfl, by rintro _ _ ⟨⟩; exact .inl rfl, .inl ⟨rfl, by cases m <;> rfl⟩⟩
    next => cases h; exact ⟨rfl, nofun, .inl ⟨rfl, rfl⟩⟩
  | changed m version seen =>
    simp only [HandlerPc.advance] at h
    split at h
    next => cases h
    next =>
      split at h
      next =>
        cases h
        exact ⟨rfl, by rintro _ _ ⟨⟩; exact .inl rfl, .inl ⟨rfl, by cases m <;> rfl⟩⟩
      next => cases h; exact ⟨rfl, nofun, .inl ⟨rfl, rfl⟩⟩
  | woken m version seen =>
    simp only [HandlerPc.advance] at h
    split at h
    next => cases h; exact ⟨rfl, nofun, .inl ⟨rfl, rfl⟩⟩
    next => cases h; exact ⟨rfl, nofun, .inl ⟨rfl, rfl⟩⟩
  | rollback m err =>
    simp only [HandlerPc.advance] at h
    split at h
    next left hundo =>
      cases h
      exact ⟨rfl, nofun, .inr ⟨m, err, rfl, rfl, by rw [hundo]; rfl⟩⟩
    next e hundo =>
      cases h
      refine ⟨rfl, ?_, .inr ⟨m, err, rfl, by simp [HandlerPc.isUndone], by rw [hundo]; rfl⟩⟩
      rintro _ _ ⟨⟩
      exact .inr (m.refusal_status state err)
  | rollbackBump m err =>
    cases h
    refine ⟨rfl, ?_, .inl ⟨rfl, by simp [HandlerPc.isUndone]⟩⟩
    rintro _ _ ⟨⟩
    exact .inr (m.refusal_status state err)
  | answered m response => cases h

/-- The first section of a `POST`. -/
theorem HandlerPc.post_cases {store store' : SessionStore} {pc : HandlerPc}
    {body : Option PostBody} (h : HandlerPc.post store body = (store', pc)) :
    (∃ response, pc = .answered none response ∧ store' = store) ∨
      ∃ record, pc = .bump (.post record) ∧ store.inner.get record.sessionId = none ∧
        store' = { store with inner := store.inner.set record } := by
  unfold HandlerPc.post at h
  split at h
  next => cases h; exact .inl ⟨_, rfl, rfl⟩
  next record _ =>
    split at h
    next left hins =>
      cases h
      obtain ⟨hfree, rfl⟩ := SessionStore.insertSection_eq_ok hins
      exact .inr ⟨record, rfl, hfree, rfl⟩
    next => cases h; exact .inl ⟨_, rfl, rfl⟩

/-- The first section of a `DELETE`. -/
theorem HandlerPc.delete_cases {store store' : SessionStore} {pc : HandlerPc} {id : String}
    (h : HandlerPc.delete store id = (store', pc)) :
    (∃ response, pc = .answered none response ∧ store' = store) ∨
      ∃ record, pc = .bump (.delete record) ∧ store.inner.get id = some record ∧
        store' = { store with inner := store.inner.unset id } := by
  unfold HandlerPc.delete at h
  split at h
  next => cases h; exact .inl ⟨_, rfl, rfl⟩
  next =>
    split at h
    next record left hrem =>
      cases h
      obtain ⟨hget, rfl⟩ := SessionStore.removeSection_eq_ok hrem
      exact .inr ⟨record, rfl, hget, rfl⟩
    next => cases h; exact .inl ⟨_, rfl, rfl⟩

-- ════════════════════════════════════════════════════════════════════════
-- The invariant
-- ════════════════════════════════════════════════════════════════════════

variable {state : AppState} {c c' : Chronicle} {s : System} {a : Action}

/-- A handler that has mutated the table answers with the success or with 503. -/
def AnswersAsDone (c : Chronicle) : Prop :=
  ∀ h m response, c.system.handlers.lookup h = some (.answered (some m) response) →
    response = m.success ∨ response.status = 503

theorem AnswersAsDone.start (h : (chronicle state).Start c) : AnswersAsDone c := by
  obtain ⟨⟨-, hhandlers, -⟩, -, -⟩ := h
  intro h m response hpc
  rw [hhandlers] at hpc
  cases hpc

theorem AnswersAsDone.step (inv : AnswersAsDone c) (hnext : (chronicle state).next c a = some c') :
    AnswersAsDone c' := by
  obtain ⟨s, hs, rfl⟩ := Option.map_eq_some_iff.mp hnext
  intro h' m response hpc
  rcases System.next_cases hs with ⟨h, store, pc, rfl, hmove⟩ | ⟨-, hhandlers, -, -⟩
  · rw [System.setHandler, FiniteMap.lookup_insert_ite] at hpc
    split at hpc
    next =>
      cases hpc
      rcases hmove with ⟨body, rfl, -, hpost⟩ | ⟨id, rfl, -, hdelete⟩ |
        ⟨old, rfl, -, hadv⟩ | ⟨old, rfl, -, hexp, -⟩
      · rcases HandlerPc.post_cases hpost with ⟨_, hpc, -⟩ | ⟨_, hpc, -⟩ <;> cases hpc
      · rcases HandlerPc.delete_cases hdelete with ⟨_, hpc, -⟩ | ⟨_, hpc, -⟩ <;> cases hpc
      · exact (HandlerPc.advance_cases hadv).2.1 m response rfl
      · cases old <;> cases hexp
    next => exact inv h' m response hpc
  · rw [hhandlers] at hpc
    exact inv h' m response hpc

/-- Each mutated handler has one entry; at every id the standing mutations are
    sound and leave the record of the table. -/
structure ChronicleInv (c : Chronicle) : Prop where
  entry : ∀ h m, (h, m) ∈ c.log →
    ∃ pc, c.system.handlers.lookup h = some pc ∧ pc.mutation = some m
  logged : ∀ h pc m, c.system.handlers.lookup h = some pc → pc.mutation = some m → (h, m) ∈ c.log
  nodup : (c.log.map Prod.fst).Nodup
  sound : ∀ id, CellOp.Sound entryOp (c.seeded.get id) (c.standingOn id)
  table : ∀ id,
    c.system.store.inner.get id = CellOp.run entryOp (c.seeded.get id) (c.standingOn id)

namespace ChronicleInv

theorem start (h : (chronicle state).Start c) : ChronicleInv c := by
  obtain ⟨⟨-, hhandlers, -⟩, hseeded, hlog⟩ := h
  have hstanding : ∀ id, c.standingOn id = [] := by
    intro id
    rw [Chronicle.standingOn, Chronicle.standing, hlog]
    rfl
  constructor
  · intro h m hmem
    rw [hlog] at hmem
    cases hmem
  · intro h pc m hpc
    rw [hhandlers] at hpc
    cases hpc
  · rw [hlog]
    exact List.nodup_nil
  · intro id
    rw [hstanding]
    trivial
  · intro id
    rw [hstanding, hseeded]
    rfl

variable (inv : ChronicleInv c)
include inv

theorem mutation_unique {h : Nat} {m : Mutation} {pc : HandlerPc} (hmem : (h, m) ∈ c.log)
    (hpc : c.system.handlers.lookup h = some pc) : pc.mutation = some m := by
  obtain ⟨pc', hpc', hm⟩ := inv.entry h m hmem
  rw [hpc] at hpc'
  cases hpc'
  exact hm

theorem nodup_standingOn (id : String) : ((c.standingOn id).map Prod.fst).Nodup :=
  inv.nodup.sublist ((List.filter_sublist.trans List.filter_sublist).map Prod.fst)

/-- A handler that has not been undone is on the journal of its id. -/
theorem mem_standingOn {h : Nat} {pc : HandlerPc} {m : Mutation}
    (hpc : c.system.handlers.lookup h = some pc) (hm : pc.mutation = some m)
    (hup : pc.isUndone = false) : (h, m) ∈ c.standingOn m.record.sessionId := by
  have hlog := inv.logged h pc m hpc hm
  simp [Chronicle.standingOn, Chronicle.standing, hlog, hpc, hup]

/-- What the streams and envoys do concerns neither table nor handlers. -/
theorem frame (hhandlers : s.handlers = c.system.handlers)
    (hinner : s.store.inner = c.system.store.inner) :
    ChronicleInv { c with system := s } := by
  have hstanding : ∀ id, Chronicle.standingOn { c with system := s } id = c.standingOn id := by
    intro id
    simp only [Chronicle.standingOn, Chronicle.standing, hhandlers]
  constructor
  · intro h m hmem
    rw [hhandlers]
    exact inv.entry h m hmem
  · intro h pc m hpc
    rw [hhandlers] at hpc
    exact inv.logged h pc m hpc
  · exact inv.nodup
  · intro id
    rw [hstanding]
    exact inv.sound id
  · intro id
    rw [hstanding, hinner]
    exact inv.table id

end ChronicleInv

/-- Only the handler that moves can leave the standing mutations. -/
theorem standing_setHandler {h : Nat} {store : SessionStore} {pc : HandlerPc}
    (log : List (Nat × Mutation))
    (hsame : pc.isUndone = (c.system.handlers.lookup h).any HandlerPc.isUndone) :
    (log.filter fun e => !((c.system.setHandler h store pc).handlers.lookup e.1).any
      HandlerPc.isUndone) =
      log.filter fun e => !(c.system.handlers.lookup e.1).any HandlerPc.isUndone := by
  apply List.filter_congr
  intro e _
  rw [System.setHandler, FiniteMap.lookup_insert_ite]
  by_cases he : e.1 = h
  · rw [if_pos he, he, ← hsame]
    rfl
  · rw [if_neg he]

theorem standing_undo {h : Nat} {store : SessionStore} {pc : HandlerPc}
    (hundone : pc.isUndone = true) :
    Chronicle.standing { c with system := c.system.setHandler h store pc } =
      c.standing.filter fun e => e.1 ≠ h := by
  rw [Chronicle.standing, Chronicle.standing, List.filter_filter]
  apply List.filter_congr
  intro e _
  rw [System.setHandler, FiniteMap.lookup_insert_ite]
  by_cases he : e.1 = h
  · simp [he, hundone]
  · simp [he]

/-- The undo of a mutation is its inverse on the cell of its id. -/
theorem get_undo (m : Mutation) (store : SessionStore) (id : String) :
    ((m.undoSection store).toOption.getD store).inner.get id =
      if m.record.sessionId = id then m.op.inverse.apply (store.inner.get id)
      else store.inner.get id := by
  cases hundo : m.undoSection store with
  | error e =>
    change store.inner.get id = _
    split
    next hid =>
      subst hid
      cases m with
      | post record =>
        simp only [Mutation.undoSection, SessionStore.removeSection] at hundo
        split at hundo
        next hfree =>
          change store.inner.get record.sessionId = (CellOp.remove record).apply _
          rw [hfree, CellOp.apply_remove]
        next => cases hundo
      | delete record =>
        simp only [Mutation.undoSection, SessionStore.insertSection] at hundo
        split at hundo
        next htaken =>
          obtain ⟨other, hother⟩ := Option.isSome_iff_exists.mp htaken
          change _ = (CellOp.insert record).apply (store.inner.get record.sessionId)
          rw [hother]
          exact hother
        next => cases hundo
    next => rfl
  | ok left =>
    change left.inner.get id = _
    cases m with
    | post record =>
      rw [Mutation.undoSection_post hundo]
      refine (store.inner.get_unset record.sessionId id).trans ?_
      by_cases hid : record.sessionId = id
      · subst hid
        exact (if_pos rfl).trans (CellOp.apply_remove.symm.trans (if_pos rfl).symm)
      · exact (if_neg (Ne.symm hid)).trans (if_neg hid).symm
    | delete record =>
      obtain ⟨hfree, rfl⟩ := SessionStore.insertSection_eq_ok hundo
      refine (store.inner.get_set record id).trans ?_
      by_cases hid : record.sessionId = id
      · subst hid
        refine (if_pos rfl).trans (Eq.trans ?_ (if_pos rfl).symm)
        rw [hfree]
        rfl
      · exact (if_neg (Ne.symm hid)).trans (if_neg hid).symm

-- ════════════════════════════════════════════════════════════════════════
-- Steps
-- ════════════════════════════════════════════════════════════════════════

theorem Chronicle.isSome_before (c : Chronicle) {h : Nat} {id : String}
    {back : List (Nat × Mutation)}
    (hsound : CellOp.Sound entryOp (c.seeded.get id) (before h (c.standingOn id) ++ back)) :
    (CellOp.run entryOp (c.seeded.get id) (before h (c.standingOn id))).isSome =
      c.insertedBefore h id := by
  rw [(CellOp.sound_append.mp hsound).1.run_isSome, Chronicle.insertedBefore]
  cases (before h (c.standingOn id)).getLast? with
  | none => rfl
  | some e =>
    obtain ⟨owner, m⟩ := e
    cases m <;> rfl

namespace ChronicleInv

variable {h : Nat} {store : SessionStore} {pc : HandlerPc}

/-- The first section of a handler, on the cell of its id. -/
theorem begin (inv : ChronicleInv c) (hnew : c.system.handlers.lookup h = none) (m : Mutation)
    (hlegal : CellOp.Sound entryOp (c.system.store.inner.get m.record.sessionId) [(h, m)])
    (hinner : ∀ id, store.inner.get id = if m.record.sessionId = id
      then m.op.apply (c.system.store.inner.get id) else c.system.store.inner.get id) :
    ChronicleInv { c with
      system := c.system.setHandler h store (.bump m), log := c.log ++ [(h, m)] } := by
  have hkey : ∀ m', (h, m') ∉ c.log := by
    intro m' hmem
    obtain ⟨pc, hpc, -⟩ := inv.entry h m' hmem
    rw [hnew] at hpc
    cases hpc
  have hstanding : ∀ id,
      Chronicle.standingOn { c with
        system := c.system.setHandler h store (.bump m), log := c.log ++ [(h, m)] } id =
        c.standingOn id ++ if m.record.sessionId = id then [(h, m)] else [] := by
    intro id
    rw [Chronicle.standingOn, Chronicle.standing,
      standing_setHandler (c.log ++ [(h, m)]) (by rw [hnew]; rfl), List.filter_append,
      List.filter_append]
    by_cases hid : m.record.sessionId = id <;>
      simp [Chronicle.standingOn, Chronicle.standing, hnew, hid]
  constructor
  · intro h' m' hmem
    rcases List.mem_append.mp hmem with hmine | hmem
    · obtain ⟨pc', hpc', hm⟩ := inv.entry h' m' hmine
      have hh : h' ≠ h := by
        rintro rfl
        exact hkey m' hmine
      exact ⟨pc', by simp [System.setHandler, AList.lookup_insert_ne hh, hpc'], hm⟩
    · cases List.mem_singleton.mp hmem
      exact ⟨.bump m, by simp [System.setHandler], rfl⟩
  · intro h' pc' m' hpc' hm
    rw [System.setHandler, FiniteMap.lookup_insert_ite] at hpc'
    split at hpc'
    next heq =>
      subst heq
      cases hpc'
      cases hm
      exact List.mem_append_right _ (List.mem_singleton.mpr rfl)
    next => exact List.mem_append_left _ (inv.logged h' pc' m' hpc' hm)
  · rw [List.map_append, List.nodup_append]
    refine ⟨inv.nodup, List.nodup_singleton _, ?_⟩
    rintro _ hmem _ hh rfl
    obtain ⟨⟨h', m'⟩, hentry, rfl⟩ := List.mem_map.mp hmem
    cases List.mem_singleton.mp hh
    exact hkey m' hentry
  · intro id
    rw [hstanding]
    by_cases hid : m.record.sessionId = id
    · rw [if_pos hid, CellOp.sound_append, ← inv.table, ← hid]
      exact ⟨inv.sound _, hlegal⟩
    · rw [if_neg hid, List.append_nil]
      exact inv.sound id
  · intro id
    rw [hstanding]
    refine (hinner id).trans ?_
    by_cases hid : m.record.sessionId = id
    · rw [if_pos hid, if_pos hid, CellOp.run_append, ← inv.table]
      rfl
    · rw [if_neg hid, if_neg hid, List.append_nil]
      exact inv.table id

/-- A handler that moves on keeps its entry. -/
theorem same_entries (inv : ChronicleInv c) (store : SessionStore) {old : HandlerPc}
    (hold : c.system.handlers.lookup h = some old) (hmutation : pc.mutation = old.mutation) :
    (∀ h' m, (h', m) ∈ c.log → ∃ pc', (c.system.setHandler h store pc).handlers.lookup h' =
      some pc' ∧ pc'.mutation = some m) ∧
    ∀ h' pc' m, (c.system.setHandler h store pc).handlers.lookup h' = some pc' →
      pc'.mutation = some m → (h', m) ∈ c.log := by
  constructor
  · intro h' m hmem
    obtain ⟨pc', hpc', hm⟩ := inv.entry h' m hmem
    by_cases hh : h' = h
    · subst hh
      rw [hold] at hpc'
      cases hpc'
      exact ⟨pc, by simp [System.setHandler], hmutation.trans hm⟩
    · exact ⟨pc', by simp [System.setHandler, AList.lookup_insert_ne hh, hpc'], hm⟩
  · intro h' pc' m hpc' hm
    rw [System.setHandler, FiniteMap.lookup_insert_ite] at hpc'
    split at hpc'
    next heq =>
      subst heq
      cases hpc'
      exact inv.logged h' old m hold (hmutation ▸ hm)
    next => exact inv.logged h' pc' m hpc' hm

/-- A rollback that meets its guard takes exactly its own mutation back. -/
theorem rollback (inv : ChronicleInv c) {m : Mutation} {err : AckWaitError}
    (hold : c.system.handlers.lookup h = some (.rollback m err))
    (hguard : c.UndoGuard h (some (.rollback m err))) (hmutation : pc.mutation = some m)
    (hundone : pc.isUndone = true)
    (hinner : store.inner = ((m.undoSection c.system.store).toOption.getD c.system.store).inner) :
    ChronicleInv { c with system := c.system.setHandler h store pc } := by
  have hstanding : ∀ id,
      Chronicle.standingOn { c with system := c.system.setHandler h store pc } id =
        (c.standingOn id).filter fun e => e.1 ≠ h := by
    intro id
    rw [Chronicle.standingOn, standing_undo hundone, List.filter_comm]
    rfl
  have hmine := inv.mem_standingOn hold rfl rfl
  obtain ⟨hsplit, hothers⟩ := split_owner hmine (inv.nodup_standingOn _)
  have hsound := inv.sound m.record.sessionId
  have htable := inv.table m.record.sessionId
  rw [hsplit] at hsound htable
  have hcell := hsound.compensate (by
    rw [← htable]
    cases m with
    | post record => exact hguard
    | delete record =>
      rw [c.isSome_before hsound]
      exact hguard)
  obtain ⟨hentry, hlogged⟩ := inv.same_entries store hold hmutation
  have hids : ∀ id, m.record.sessionId ≠ id →
      (c.standingOn id).filter (fun e => e.1 ≠ h) = c.standingOn id := by
    intro id hid
    refine List.filter_eq_self.mpr fun e he => decide_eq_true ?_
    intro hmine
    obtain ⟨he, heid⟩ := List.mem_filter.mp he
    have hlog : (h, e.2) ∈ c.log := hmine ▸ (List.mem_filter.mp he).1
    cases inv.mutation_unique hlog hold
    exact hid (of_decide_eq_true heid)
  refine ⟨hentry, hlogged, inv.nodup, ?_, ?_⟩
  · intro id
    rw [hstanding]
    by_cases hid : m.record.sessionId = id
    · rw [← hid, hothers]
      exact hcell.1
    · rw [hids id hid]
      exact inv.sound id
  · intro id
    rw [hstanding]
    refine (congrArg (SessionTable.get · id) hinner).trans ((get_undo m _ id).trans ?_)
    by_cases hid : m.record.sessionId = id
    · rw [if_pos hid, ← hid, hothers, htable]
      exact hcell.2
    · rw [if_neg hid, hids id hid]
      exact inv.table id

/-- A handler that moves without touching the table. -/
theorem move (inv : ChronicleInv c) {old : HandlerPc}
    (hold : c.system.handlers.lookup h = some old) (hmutation : pc.mutation = old.mutation)
    (hundone : pc.isUndone = old.isUndone) (hinner : store.inner = c.system.store.inner) :
    ChronicleInv { c with system := c.system.setHandler h store pc } := by
  have hstanding : ∀ id,
      Chronicle.standingOn { c with system := c.system.setHandler h store pc } id =
        c.standingOn id := by
    intro id
    rw [Chronicle.standingOn, Chronicle.standing,
      standing_setHandler c.log (by rw [hold, hundone]; rfl)]
    rfl
  obtain ⟨hentry, hlogged⟩ := inv.same_entries store hold hmutation
  refine ⟨hentry, hlogged, inv.nodup, ?_, ?_⟩
  · intro id
    rw [hstanding]
    exact inv.sound id
  · intro id
    rw [hstanding]
    exact (congrArg (SessionTable.get · id) hinner).trans (inv.table id)

/-- A handler that is refused before it has mutated the table. -/
theorem refuse (inv : ChronicleInv c) (hnew : c.system.handlers.lookup h = none)
    (response : Response) :
    ChronicleInv { c with
      system := c.system.setHandler h c.system.store (.answered none response) } := by
  have hstanding : ∀ id,
      Chronicle.standingOn
        { c with system := c.system.setHandler h c.system.store (.answered none response) } id =
        c.standingOn id := by
    intro id
    rw [Chronicle.standingOn, Chronicle.standing, standing_setHandler c.log (by rw [hnew]; rfl)]
    rfl
  constructor
  · intro h' m hmem
    obtain ⟨pc', hpc', hm⟩ := inv.entry h' m hmem
    have hh : h' ≠ h := by
      rintro rfl
      rw [hnew] at hpc'
      cases hpc'
    exact ⟨pc', by simp [System.setHandler, AList.lookup_insert_ne hh, hpc'], hm⟩
  · intro h' pc' m hpc' hm
    rw [System.setHandler, FiniteMap.lookup_insert_ite] at hpc'
    split at hpc'
    next => cases hpc'; cases hm
    next => exact inv.logged h' pc' m hpc' hm
  · exact inv.nodup
  · intro id
    rw [hstanding]
    exact inv.sound id
  · intro id
    rw [hstanding]
    exact inv.table id

theorem step (inv : ChronicleInv c) (hguard : RollbackGuard c a)
    (hnext : (chronicle state).next c a = some c') : ChronicleInv c' := by
  obtain ⟨s, hs, rfl⟩ := Option.map_eq_some_iff.mp hnext
  rcases System.next_cases hs with ⟨h, store, pc, rfl, hmove⟩ | ⟨-, hhandlers, hinner, hbegun⟩
  · have hself : (c.system.setHandler h store pc).handlers.lookup h = some pc := by
      simp [System.setHandler]
    rcases hmove with ⟨body, rfl, hnew, hpost⟩ | ⟨id, rfl, hnew, hdelete⟩ |
      ⟨old, rfl, hold, hadv⟩ | ⟨old, rfl, hold, hexp, rfl⟩
    · rcases HandlerPc.post_cases hpost with ⟨response, rfl, rfl⟩ | ⟨record, rfl, hfree, rfl⟩
      · simp only [System.begun, hself, List.append_nil]
        exact inv.refuse hnew response
      · simp only [System.begun, hself]
        refine inv.begin hnew (.post record) ⟨hfree, trivial⟩ fun id => ?_
        refine (c.system.store.inner.get_set record id).trans ?_
        by_cases hid : record.sessionId = id
        · subst hid
          have happly := congrArg (CellOp.apply · (CellOp.insert record)) hfree
          exact (if_pos rfl).trans (happly.symm.trans (if_pos rfl).symm)
        · exact (if_neg (Ne.symm hid)).trans (if_neg hid).symm
    · rcases HandlerPc.delete_cases hdelete with ⟨response, rfl, rfl⟩ | ⟨record, rfl, hget, rfl⟩
      · simp only [System.begun, hself, List.append_nil]
        exact inv.refuse hnew response
      · simp only [System.begun, hself]
        cases c.system.store.inner.sessionId_of_get hget
        refine inv.begin hnew (.delete record) ⟨?_, trivial⟩ fun id => ?_
        · intro found hfound
          exact Option.some.inj (hfound.symm.trans hget)
        · refine (c.system.store.inner.get_unset record.sessionId id).trans ?_
          by_cases hid : record.sessionId = id
          · subst hid
            exact (if_pos rfl).trans (CellOp.apply_remove.symm.trans (if_pos rfl).symm)
          · exact (if_neg (Ne.symm hid)).trans (if_neg hid).symm
    · simp only [System.begun, List.append_nil]
      obtain ⟨hmutation, -, ⟨hinner, hundone⟩ | ⟨m, err, rfl, hundone, hinner⟩⟩ :=
        HandlerPc.advance_cases hadv
      · exact inv.move hold hmutation hundone hinner
      · have hguard : c.UndoGuard h (some (.rollback m err)) := hold ▸ hguard
        exact inv.rollback hold hguard hmutation hundone hinner
    · simp only [System.begun, List.append_nil]
      cases old <;> cases hexp
      exact inv.move hold rfl rfl rfl
  · rw [hbegun, List.append_nil]
    exact inv.frame hhandlers hinner

/-- A `DELETE` that stands has answered 200 or is still to answer. -/
theorem isPendingOrOk_of_standing (inv : ChronicleInv c) (hanswers : AnswersAsDone c) {d : Nat}
    {removed : SessionRecord} (hstands : (d, Mutation.delete removed) ∈ c.standing) :
    ∃ pc, c.system.handlers.lookup d = some pc ∧ pc.IsPendingOrOk := by
  obtain ⟨hlog, hup⟩ := List.mem_filter.mp hstands
  obtain ⟨pc, hpc, hm⟩ := inv.entry d _ hlog
  refine ⟨pc, hpc, ?_⟩
  cases pc with
  | answered m response =>
    cases hm
    rcases hanswers d _ response hpc with rfl | hrefused
    · rfl
    · simp [hpc, HandlerPc.isUndone, hrefused] at hup
  | bump | target | subscribers | subscribe | changed | woken | rollback | rollbackBump => trivial

/-- Whatever answered 201 holds its record until a `DELETE` takes it. -/
theorem exact (inv : ChronicleInv c) (hanswers : AnswersAsDone c) : RollbackExact c := by
  constructor
  · intro id
    rw [get_replay]
    exact inv.table id
  · intro h record response hpc hstatus
    have hup : (HandlerPc.answered (some (.post record)) response).isUndone = false := by
      simp [HandlerPc.isUndone, hstatus]
    have hmine := (List.mem_filter.mp (inv.mem_standingOn hpc rfl hup)).1
    obtain ⟨front, back, hsplit⟩ := List.append_of_mem hmine
    have hjournal : c.standingOn record.sessionId =
        (front.filter fun e => decide (e.2.record.sessionId = record.sessionId)) ++
          (h, .post record) ::
            back.filter fun e => decide (e.2.record.sessionId = record.sessionId) := by
      rw [Chronicle.standingOn, hsplit, List.filter_append,
        List.filter_cons_of_pos (by simp [Mutation.record])]
    have hsound := hjournal ▸ inv.sound record.sessionId
    have htable := hjournal ▸ inv.table record.sessionId
    obtain ⟨-, hlast⟩ := CellOp.sound_append.mp hsound
    have hinsert : entryOp (h, .post record) = .insert record := rfl
    obtain ⟨hfree, hafter⟩ := (CellOp.sound_insert hinsert).mp hlast
    rcases hafter.after_value with hback | ⟨⟨d, m⟩, removed, rest, hback, hop⟩
    · left
      rw [htable, hback, CellOp.run_append, hfree]
      rfl
    · right
      have hmem : (d, m) ∈ back.filter
          fun e => decide (e.2.record.sessionId = record.sessionId) := hback ▸ List.mem_cons_self
      obtain ⟨hmem, hid⟩ := List.mem_filter.mp hmem
      cases m with
      | post record => cases hop
      | delete removed =>
        have hstands : (d, Mutation.delete removed) ∈ c.standing := by
          rw [hsplit]
          exact List.mem_append_right _ (List.mem_cons_of_mem _ hmem)
        obtain ⟨pc, hlookup, hok⟩ := inv.isPendingOrOk_of_standing hanswers hstands
        exact ⟨front, _, back, d, removed, pc, hsplit, hmem, of_decide_eq_true hid, hlookup, hok⟩

end ChronicleInv

/-- **Rollback is exact**: in every run whose rollbacks meet their guard, the
    refused handlers have left no trace and every 201 is honoured. -/
theorem rollback_exact (hreach : (chronicle state).ReachableUnder RollbackGuard c) :
    RollbackExact c := by
  have inv : ChronicleInv c := hreach.invariant (fun _ hstart => ChronicleInv.start hstart)
    fun _ _ _ inv hguard hnext => inv.step hguard hnext
  have hanswers : AnswersAsDone c := hreach.invariant (fun _ hstart => AnswersAsDone.start hstart)
    fun _ _ _ inv _ hnext => inv.step hnext
  exact inv.exact hanswers

-- ════════════════════════════════════════════════════════════════════════
-- Runs
-- ════════════════════════════════════════════════════════════════════════

private def shellPost (containerIp : String) : PostBody where
  sessionId := some "mcp_session_b2"
  containerIp := some containerIp
  tenant := some "acme"
  workspace := some "main"
  plugin := some "shell"
  egressPolicy := none

private def emptyChronicle : Chronicle :=
  ⟨.empty, ⟨SessionStore.new, ∅, ∅, fun _ => "", []⟩, []⟩

private theorem emptyChronicle_start (state : AppState) :
    (chronicle state).Start emptyChronicle := ⟨⟨⟨[], rfl⟩, rfl, rfl, rfl⟩, rfl, rfl⟩

private def Chronicle.statusOf (c : Chronicle) (h : Nat) : Option Nat :=
  match c.system.handlers.lookup h with
  | some (.answered _ response) => some response.status
  | _ => none

/-- With no envoy subscribed, a `DELETE` overlaps the `POST` of its id; both are
    refused, the `DELETE` first. -/
private def refusedRun : List Action :=
  [.post 0 (some (shellPost "10.0.0.7")), .handler 0, .handler 0, .delete 1 "mcp_session_b2",
    .handler 1, .handler 1, .handler 1, .handler 1, .handler 1, .handler 0, .handler 0, .handler 0]

theorem rollback_exact_refused_run :
    ∃ c, c.statusOf 0 = some 503 ∧ c.statusOf 1 = some 503 ∧ RollbackExact c := by
  have hexec : ((chronicle ⟨"5s", false⟩).execUnder RollbackGuard emptyChronicle refusedRun).any
      (fun c => decide (c.statusOf 0 = some 503 ∧ c.statusOf 1 = some 503)) = true := by
    decide +kernel
  obtain ⟨c, hrun, hc⟩ := Machine.exists_run_of_execUnder _ hexec
  obtain ⟨hpost, hdelete⟩ := of_decide_eq_true hc
  have hreach : (chronicle ⟨"5s", false⟩).ReachableUnder RollbackGuard c :=
    ⟨emptyChronicle, emptyChronicle_start _, hrun⟩
  exact ⟨c, hpost, hdelete, rollback_exact hreach⟩

/-- A `POST` fails its wait before any envoy subscribes; a `DELETE` and a second
    `POST` of the id succeed; then the first `POST` rolls back. -/
private def overtakenRun : List Action :=
  [.post 0 (some (shellPost "10.0.0.7")), .handler 0, .handler 0, .handler 0,
    .delete 1 "mcp_session_b2", .handler 1, .post 2 (some (shellPost "10.0.0.8")), .handler 2,
    .connect 0 0, .stream 0, .subscribe 0 .listener, .receive 0, .stream 0, .stream 0, .stream 0,
    .accept 0, .receive 0, .handler 1, .handler 1, .handler 1, .handler 2, .handler 2, .handler 2,
    .handler 0, .handler 0]

theorem rollback_removes_other_record :
    ¬ ∀ state c, (chronicle state).Reachable c → RollbackExact c := by
  intro hclaim
  have hexec : ((chronicle ⟨"5s", false⟩).execUnder (fun _ _ => True) emptyChronicle
      overtakenRun).any (fun c => decide (c.statusOf 0 = some 503 ∧ c.statusOf 1 = some 200 ∧
        c.statusOf 2 = some 201 ∧ c.system.store.inner.get "mcp_session_b2" ≠
          (replay c.seeded (c.standing.map Prod.snd)).get "mcp_session_b2")) = true := by
    decide +kernel
  obtain ⟨c, hrun, hc⟩ := Machine.exists_run_of_execUnder _ hexec
  obtain ⟨-, -, -, hlost⟩ := of_decide_eq_true hc
  have hexact := hclaim ⟨"5s", false⟩ c ⟨emptyChronicle, emptyChronicle_start _, hrun⟩
  exact hlost (hexact.undone "mcp_session_b2")

end Botwork.ControlPlane
