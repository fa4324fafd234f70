import Botwork.ControlPlane.AckGate
import Botwork.ControlPlane.Convergence
import Botwork.ControlPlane.Rollback
import Botwork.Foundations.PublishedLog

/-!
# The ledger of the table's changes

A handler changes the table first and bumps the generation afterwards; a stream
reads the generation first and the table afterwards, on either of its two ways to a
push.  The ledger keeps the changes in their order, with the generation that each
bump has reached, and the pushes of every stream.

## Main definitions

- `Ledger` — the system with the changes of its table and the pushes of each stream
- `Ledger.Truthful` — a push has all that its version stands for
- `System.BumpStep`, `System.TableStep` — what a step does to table and generation
- `LedgerInv` — the invariant of runs in which the counter does not wrap
-/

namespace Botwork.ControlPlane

open Botwork.Foundations Botwork.Foundations.PublishedLog

-- ════════════════════════════════════════════════════════════════════════
-- Ledgers
-- ════════════════════════════════════════════════════════════════════════

/-- The records of a table, as `SessionStore.list` orders them. -/
def SessionTable.list (t : SessionTable) : List SessionRecord :=
  ({ SessionStore.new with inner := t } : SessionStore).list

/-- What a rollback does to the table. -/
def Mutation.inverse : Mutation → Mutation
  | .post record => .delete record
  | .delete record => .post record

/-- The change of the table that a step makes. -/
def System.changed (s s' : System) : Action → List (LogEntry Nat Mutation)
  | .post h _ | .delete h _ =>
    match s'.handlers.lookup h with
    | some (.bump m) => [⟨h, m, none⟩]
    | _ => []
  | .handler h =>
    match s.handlers.lookup h, s'.handlers.lookup h with
    | some (.rollback m _), some (.rollbackBump _ _) => [⟨h, m.inverse, none⟩]
    | _, _ => []
  | _ => []

/-- The handler whose bump a step is. -/
def System.bumps (s : System) : Action → Option Nat
  | .handler h => if (s.handlers.lookup h).any HandlerPc.isUnbumped then some h else none
  | _ => none

/-- What the next access of a stream task yields. -/
def StreamPc.yielded : StreamPc → List LdsPush
  | .yield push => [push]
  | _ => []

/-- The system, the table it started with, the changes made since and, once its
    handler has bumped, the generation of each, and the pushes of every stream. -/
structure Ledger where
  seeded : SessionTable
  system : System
  changes : List (LogEntry Nat Mutation)
  pushed : Nat → List LdsPush

namespace Ledger

/-- A stream that opens has pushed nothing. -/
def pushedAfter (c : Ledger) : Action → Nat → List LdsPush
  | .connect i _ => Function.update c.pushed i []
  | .stream i => Function.update c.pushed i
      (c.pushed i ++ (c.system.streams.lookup i).elim [] (·.pc.yielded))
  | _ => c.pushed

def changesAfter (c : Ledger) (s' : System) (a : Action) : List (LogEntry Nat Mutation) :=
  match c.system.bumps a with
  | some h => publish h s'.store.generation c.changes
  | none => c.changes ++ c.system.changed s' a

/-- The ledger behind a step to `s'`. -/
def after (c : Ledger) (s' : System) (a : Action) : Ledger :=
  { c with system := s', changes := c.changesAfter s' a, pushed := c.pushedAfter a }

/-- The table after the first `count` changes. -/
def tableAfter (c : Ledger) (count : Nat) : SessionTable :=
  replay c.seeded ((edits c.changes).take count)

/-- The push has the table as it was at some time, and all changes were made by then
    whose bump has brought the generation to its version or below. -/
def Truthful (c : Ledger) (p : LdsPush) (count : Nat) : Prop :=
  count ≤ c.changes.length ∧ p.snapshot = (c.tableAfter count).list ∧
    CoveredBy c.changes p.version count

/-- The counter does not wrap. -/
def NoWrap (c : Ledger) : Action → Prop
  | .handler h => (c.system.handlers.lookup h).any HandlerPc.isUnbumped = true →
    c.system.store.generation + 1 < 2 ^ 64
  | _ => True

/-- Besides, a version put on the gauge is one that an envoy has acknowledged. -/
def Honest (c : Ledger) (a : Action) : Prop :=
  c.NoWrap a ∧ match a with
    | .receive i => HonestReport c.system i
    | _ => True

instance (c : Ledger) : (a : Action) → Decidable (c.NoWrap a)
  | .handler _ => inferInstanceAs (Decidable (_ → _))
  | .post _ _ | .delete _ _ | .expire _ | .connect _ _ | .disconnect _ | .receive _ | .tick _
  | .stream _ | .subscribe _ _ | .accept _ | .reject _ _ => isTrue trivial

instance (c : Ledger) : (a : Action) → Decidable (c.Honest a)
  | .receive i => inferInstanceAs (Decidable (_ ∧ HonestReport c.system i))
  | .post _ _ | .delete _ _ | .handler _ | .expire _ | .connect _ _ | .disconnect _ | .tick _
  | .stream _ | .subscribe _ _ | .accept _ | .reject _ _ =>
    inferInstanceAs (Decidable (_ ∧ True))

end Ledger

def ledger (state : AppState) : Machine Ledger Action where
  Start c := c.system.Start ∧ c.seeded = c.system.store.inner ∧ c.changes = [] ∧
    ∀ i, c.pushed i = []
  next c a := (c.system.next state a).map fun s' => c.after s' a

-- ════════════════════════════════════════════════════════════════════════
-- One step of a handler
-- ════════════════════════════════════════════════════════════════════════

variable {state : AppState} {s s' : System} {c c' : Ledger} {a : Action} {i h count : Nat}
  {st st' : AdsStream} {store store' : SessionStore} {pc pc' : HandlerPc} {m : Mutation}
  {pushed : List LdsPush} {p : LdsPush}

theorem Mutation.refusal_ne_success (m : Mutation) (err : AckWaitError) :
    m.refusal state err ≠ m.success := by
  intro h
  have hstatus := congrArg Response.status h
  rw [Mutation.refusal_status] at hstatus
  cases m <;> cases hstatus

/-- The record that a change inserts has an id that is free. -/
def Mutation.Fits (m : Mutation) (t : SessionTable) : Prop :=
  ∀ record, m = .post record → t.get record.sessionId = none

theorem Mutation.applyTo_post {t : SessionTable} {record : SessionRecord}
    (hfree : t.get record.sessionId = none) :
    (Mutation.post record).applyTo t = t.set record := by
  show (if _ then _ else _) = _
  rw [hfree]
  rfl

theorem Mutation.undoSection_applyTo (h : m.undoSection store = .ok store') :
    store'.generation = store.generation ∧ store'.ackedVersion = store.ackedVersion ∧
      store'.inner = m.inverse.applyTo store.inner ∧ m.inverse.Fits store.inner := by
  cases m with
  | post record =>
    rw [Mutation.undoSection_post h]
    exact ⟨rfl, rfl, rfl, nofun⟩
  | delete record =>
    obtain ⟨hfree, rfl⟩ := SessionStore.insertSection_eq_ok h
    refine ⟨rfl, rfl, (Mutation.applyTo_post hfree).symm, ?_⟩
    rintro _ ⟨⟩
    exact hfree

/-- An access that is neither a bump nor the undoing of a change. -/
structure HandlerPc.Waits (state : AppState) (store : SessionStore) (pc pc' : HandlerPc) : Prop where
  before : pc.isUnbumped = false
  after : pc'.isUnbumped = false
  awaited : ∀ v, pc'.awaited = some v → pc.awaited = some v ∨ v = store.generation
  success : state.ackDisabled = false → ∀ m, pc' = .answered (some m) m.success →
    ∃ v, pc.awaited = some v ∧ v ≤ store.ackedVersion

/-- **Step inversion**: an access of a handler is its bump, the undoing of its change,
    or leaves the store as it is. -/
theorem HandlerPc.advance_ledger (hadv : pc.advance state store = some (store', pc')) :
    (pc.isUnbumped = true ∧ store' = store.bump ∧ pc'.isUnbumped = false ∧
        pc'.awaited = none ∧ ∀ m, pc' ≠ .answered (some m) m.success) ∨
      (∃ m err, pc = .rollback m err ∧ pc' = .rollbackBump m err ∧
        m.undoSection store = .ok store') ∨
      store' = store ∧ pc.Waits state store pc' := by
  cases pc with
  | bump m => cases hadv; exact .inl ⟨rfl, rfl, rfl, rfl, fun m' heq => by cases heq⟩
  | rollbackBump m err =>
    cases hadv
    refine .inl ⟨rfl, rfl, rfl, rfl, fun m' heq => ?_⟩
    obtain ⟨hm, hresponse⟩ := HandlerPc.answered.inj heq
    cases hm
    exact m.refusal_ne_success err hresponse
  | target m =>
    simp only [HandlerPc.advance] at hadv
    split at hadv
    next hoff =>
      cases hadv
      refine .inr (.inr ⟨rfl, rfl, rfl, fun v hv => (by cases hv), fun hon => ?_⟩)
      rw [hoff] at hon
      cases hon
    next =>
      cases hadv
      refine .inr (.inr ⟨rfl, rfl, rfl, fun v hv => ?_, fun _ m' heq => by cases heq⟩)
      cases hv
      exact .inr rfl
  | subscribers m version =>
    simp only [HandlerPc.advance] at hadv
    split at hadv
    next =>
      cases hadv
      exact .inr (.inr ⟨rfl, rfl, rfl, fun v hv => (by cases hv), fun _ m' heq => by cases heq⟩)
    next =>
      cases hadv
      exact .inr (.inr ⟨rfl, rfl, rfl, fun v hv => .inl hv, fun _ m' heq => by cases heq⟩)
  | subscribe m version =>
    simp only [HandlerPc.advance] at hadv
    split at hadv
    next hle =>
      cases hadv
      exact .inr (.inr ⟨rfl, rfl, rfl, fun v hv => (by cases hv), fun _ _ _ => ⟨_, rfl, hle⟩⟩)
    next =>
      cases hadv
      exact .inr (.inr ⟨rfl, rfl, rfl, fun v hv => .inl hv, fun _ m' heq => by cases heq⟩)
  | changed m version seen =>
    simp only [HandlerPc.advance] at hadv
    split at hadv
    next => cases hadv
    next =>
      split at hadv
      next hle =>
        cases hadv
        exact .inr (.inr ⟨rfl, rfl, rfl, fun v hv => (by cases hv), fun _ _ _ => ⟨_, rfl, hle⟩⟩)
      next =>
        cases hadv
        exact .inr (.inr ⟨rfl, rfl, rfl, fun v hv => .inl hv, fun _ m' heq => by cases heq⟩)
  | woken m version seen =>
    simp only [HandlerPc.advance] at hadv
    split at hadv
    next =>
      cases hadv
      exact .inr (.inr ⟨rfl, rfl, rfl, fun v hv => (by cases hv), fun _ m' heq => by cases heq⟩)
    next =>
      cases hadv
      exact .inr (.inr ⟨rfl, rfl, rfl, fun v hv => .inl hv, fun _ m' heq => by cases heq⟩)
  | rollback m err =>
    simp only [HandlerPc.advance] at hadv
    split at hadv
    next left hundo => cases hadv; exact .inr (.inl ⟨m, err, rfl, rfl, hundo⟩)
    next =>
      cases hadv
      refine .inr (.inr ⟨rfl, rfl, rfl, fun v hv => (by cases hv), fun _ m' heq => ?_⟩)
      obtain ⟨hm, hresponse⟩ := HandlerPc.answered.inj heq
      cases hm
      exact absurd hresponse (m.refusal_ne_success err)
  | answered m response => cases hadv

-- ════════════════════════════════════════════════════════════════════════
-- One step of a stream
-- ════════════════════════════════════════════════════════════════════════

/-- The version that a stream has read for its next push. -/
def StreamPc.pending : StreamPc → Option Nat
  | .snapshot version => some version
  | .yield push => some push.version
  | _ => none

/-- What a stream has pushed and is about to push, against the generation it has
    seen and the current one. -/
structure AdsStream.Ordered (st : AdsStream) (generation : Nat) (pushed : List LdsPush) : Prop where
  seen : st.seen ≤ generation
  fresh : st.pc = .opened → pushed = []
  pending : ∀ v, st.pc.pending = some v →
    st.seen ≤ v ∧ v ≤ generation ∧ ∀ p ∈ pushed, p.version ≤ v
  last : st.pc.pending = none → ∀ p, pushed.getLast? = some p → st.seen ≤ p.version

namespace AdsStream.Ordered

variable {generation : Nat}

theorem new (envoy : Nat) : (AdsStream.new envoy).Ordered generation [] := by
  refine ⟨Nat.zero_le _, fun _ => rfl, ?_, ?_⟩
  · intro v hv
    cases hv
  · intro _ p hp
    cases hp

theorem mono {later : Nat} (hord : st.Ordered generation pushed) (hle : generation ≤ later) :
    st.Ordered later pushed := by
  refine ⟨hord.seen.trans hle, hord.fresh, ?_, hord.last⟩
  intro v hv
  obtain ⟨hseen, hread, hall⟩ := hord.pending v hv
  exact ⟨hseen, hread.trans hle, hall⟩

/-- Messages that come and go. -/
theorem messages (hord : st.Ordered generation pushed) (hpc : st'.pc = st.pc)
    (hseen : st'.seen = st.seen) : st'.Ordered generation pushed := by
  refine ⟨?_, ?_, ?_, ?_⟩
  · rw [hseen]
    exact hord.seen
  · rw [hpc]
    exact hord.fresh
  · rw [hpc, hseen]
    exact hord.pending
  · rw [hpc, hseen]
    exact hord.last

theorem receive (hord : st.Ordered generation pushed)
    (hrecv : st.receive store = some (store', st')) : st'.Ordered generation pushed := by
  have hidle : st.pc = .select ∧ st'.pc.pending = none ∧ st'.pc ≠ .opened ∧ st'.seen = st.seen := by
    unfold AdsStream.receive at hrecv
    split at hrecv
    next req rest hpc hin =>
      simp only at hrecv
      refine ⟨hpc, ?_⟩
      split at hrecv
      next => cases hrecv; exact ⟨by rw [hpc]; rfl, by rw [hpc]; nofun, rfl⟩
      next =>
        split at hrecv
        next =>
          split at hrecv
          next => cases hrecv; exact ⟨rfl, nofun, rfl⟩
          next => cases hrecv; exact ⟨rfl, nofun, rfl⟩
        next =>
          split at hrecv
          next => cases hrecv; exact ⟨by rw [hpc]; rfl, by rw [hpc]; nofun, rfl⟩
          next =>
            cases hrecv
            exact ⟨by simp only [AdsStream.send]; rw [hpc]; rfl,
              by simp only [AdsStream.send]; rw [hpc]; nofun, rfl⟩
        next => cases hrecv; exact ⟨by rw [hpc]; rfl, by rw [hpc]; nofun, rfl⟩
    next => cases hrecv
  obtain ⟨hpc, hpending, hopened, hseen⟩ := hidle
  refine ⟨hseen ▸ hord.seen, fun h => absurd h hopened, ?_, ?_⟩
  · intro v hv
    rw [hpending] at hv
    cases hv
  · intro _
    rw [hseen]
    exact hord.last (by rw [hpc]; rfl)

theorem tick (hbound : ∀ p ∈ pushed, p.version ≤ store.generation)
    (htick : st.tick store = some st') : st'.Ordered store.generation pushed := by
  unfold AdsStream.tick at htick
  split at htick
  next =>
    cases htick
    refine ⟨le_rfl, nofun, ?_, nofun⟩
    intro v hv
    cases hv
    exact ⟨le_rfl, le_rfl, hbound⟩
  next => cases htick

/-- The task's own steps; the push that is yielded joins the others. -/
theorem advance (hord : st.Ordered store.generation pushed)
    (hbound : ∀ p ∈ pushed, p.version ≤ store.generation)
    (hadv : st.advance store = some st') :
    st'.Ordered store.generation (pushed ++ st.pc.yielded) := by
  unfold AdsStream.advance at hadv
  split at hadv
  next hpc =>
    cases hadv
    rw [hord.fresh hpc, hpc]
    exact ⟨le_rfl, nofun, nofun, fun _ p hp => by cases hp⟩
  next => cases hadv
  next has hpc =>
    simp only [hpc, StreamPc.yielded, List.append_nil]
    split at hadv
    next =>
      cases hadv
      exact ⟨hord.seen, nofun, nofun, fun _ => hord.last (by rw [hpc]; rfl)⟩
    next =>
      cases hadv
      refine ⟨hord.seen, nofun, ?_, nofun⟩
      intro v hv
      cases hv
      exact ⟨hord.seen, le_rfl, hbound⟩
  next version hpc =>
    simp only [hpc, StreamPc.yielded, List.append_nil]
    cases hadv
    refine ⟨hord.seen, nofun, ?_, nofun⟩
    intro v hv
    cases hv
    exact hord.pending version (by rw [hpc]; rfl)
  next push hpc =>
    rw [hpc, StreamPc.yielded]
    cases hadv
    refine ⟨hord.seen, nofun, nofun, ?_⟩
    intro _ p hp
    rw [List.getLast?_concat, Option.some.injEq] at hp
    rw [← hp]
    exact (hord.pending push.version (by rw [hpc]; rfl)).1

/-- A push joins those that the stream has pushed before it. -/
theorem sorted (hord : st.Ordered generation pushed)
    (hsorted : pushed.Pairwise fun p q => p.version ≤ q.version) :
    (pushed ++ st.pc.yielded).Pairwise fun p q => p.version ≤ q.version := by
  cases hpc : st.pc with
  | yield push =>
    rw [StreamPc.yielded, List.pairwise_append]
    refine ⟨hsorted, List.pairwise_singleton _ _, ?_⟩
    intro p hp q hq
    rw [List.mem_singleton] at hq
    rw [hq]
    exact (hord.pending push.version (by rw [hpc]; rfl)).2.2 p hp
  | _ => simpa only [StreamPc.yielded, List.append_nil] using hsorted

end AdsStream.Ordered

-- ════════════════════════════════════════════════════════════════════════
-- One step of the system
-- ════════════════════════════════════════════════════════════════════════

/-- The step is the bump of a handler. -/
structure System.BumpStep (s : System) (a : Action) (s' : System) (h : Nat) : Prop where
  bumps : s.bumps a = some h
  store : s'.store = s.store.bump
  own : (s'.handlers.lookup h).any HandlerPc.isUnbumped = false
  others : ∀ h', h' ≠ h → s'.handlers.lookup h' = s.handlers.lookup h'

/-- The step changes the table as it says, and its handler is still to bump. -/
structure System.TableStep (s : System) (a : Action) (s' : System) : Prop where
  bumps : s.bumps a = none
  generation : s'.store.generation = s.store.generation
  inner : s'.store.inner = replay s.store.inner (edits (s.changed s' a))
  single : (s.changed s' a).length ≤ 1
  changed : ∀ e ∈ s.changed s' a, e.published = none ∧ e.edit.Fits s.store.inner ∧
    (s'.handlers.lookup e.owner).any HandlerPc.isUnbumped = true
  unbumped : ∀ h, (s.handlers.lookup h).any HandlerPc.isUnbumped = true →
    (s'.handlers.lookup h).any HandlerPc.isUnbumped = true

/-- A handler whose step changes nothing. -/
theorem System.TableStep.still (hbumps : s.bumps a = none)
    (hgeneration : store.generation = s.store.generation) (hinner : store.inner = s.store.inner)
    (hchanged : s.changed (s.setHandler h store pc) a = [])
    (hold : (s.handlers.lookup h).any HandlerPc.isUnbumped = false) :
    s.TableStep a (s.setHandler h store pc) := by
  refine ⟨hbumps, hgeneration, ?_, ?_, ?_, ?_⟩
  · rw [hchanged]
    exact hinner
  · rw [hchanged]
    exact Nat.zero_le 1
  · rw [hchanged]
    nofun
  · intro h' hunbumped
    have hne : h' ≠ h := by
      rintro rfl
      rw [hold] at hunbumped
      cases hunbumped
    simp only [System.setHandler]
    rw [AList.lookup_insert_ne hne]
    exact hunbumped

/-- A handler that has changed the table. -/
theorem System.TableStep.change (hbumps : s.bumps a = none)
    (hgeneration : store.generation = s.store.generation) {m : Mutation}
    (hinner : store.inner = m.applyTo s.store.inner) (hfits : m.Fits s.store.inner)
    (hpc : pc.isUnbumped = true)
    (hchanged : s.changed (s.setHandler h store pc) a = [⟨h, m, none⟩]) :
    s.TableStep a (s.setHandler h store pc) := by
  have hlook : (s.setHandler h store pc).handlers.lookup h = some pc := AList.lookup_insert _
  refine ⟨hbumps, hgeneration, ?_, ?_, ?_, ?_⟩
  · rw [hchanged]
    exact hinner
  · rw [hchanged]
    exact le_rfl
  · intro e he
    rw [hchanged, List.mem_singleton] at he
    rw [he, hlook]
    exact ⟨rfl, hfits, hpc⟩
  · intro h' hunbumped
    by_cases hh : h' = h
    · rw [hh, hlook]
      exact hpc
    · simp only [System.setHandler]
      rw [AList.lookup_insert_ne hh]
      exact hunbumped

theorem System.next_ledger
    (hread : ∀ i st v, s.streams.lookup i = some st → st.pc = .snapshot v →
      v ≤ s.store.generation) (hnext : s.next state a = some s') :
    (∃ h, s.BumpStep a s' h) ∨ s.TableStep a s' := by
  rcases System.next_cases hnext with ⟨h, store, pc, rfl, hmove⟩ | ⟨ha, hhandlers, hinner, -⟩
  · have hlook : (s.setHandler h store pc).handlers.lookup h = some pc := AList.lookup_insert _
    rcases hmove with ⟨body, rfl, hnew, hpost⟩ | ⟨id, rfl, hnew, hdelete⟩ |
      ⟨old, rfl, hold, hadv⟩ | ⟨old, rfl, hold, hexp, rfl⟩
    · right
      rcases HandlerPc.post_cases hpost with ⟨response, rfl, rfl⟩ | ⟨record, rfl, hfree, rfl⟩
      · exact .still rfl rfl rfl (by simp only [System.changed, hlook]) (by rw [hnew]; rfl)
      · refine .change (m := .post record) rfl rfl (Mutation.applyTo_post hfree).symm ?_ rfl
          (by simp only [System.changed, hlook])
        rintro _ ⟨⟩
        exact hfree
    · right
      rcases HandlerPc.delete_cases hdelete with ⟨response, rfl, rfl⟩ | ⟨record, rfl, hget, rfl⟩
      · exact .still rfl rfl rfl (by simp only [System.changed, hlook]) (by rw [hnew]; rfl)
      · refine .change (m := .delete record) rfl rfl ?_ nofun rfl
          (by simp only [System.changed, hlook])
        show s.store.inner.unset id = s.store.inner.unset record.sessionId
        rw [SessionTable.sessionId_of_get hget]
    · rcases HandlerPc.advance_ledger hadv with ⟨hunbumped, rfl, hbumped, -, -⟩ |
        ⟨m, err, rfl, rfl, hundo⟩ | ⟨rfl, hwaits⟩
      · refine .inl ⟨h, ?_, rfl, ?_, ?_⟩
        · rw [System.bumps, hold]
          exact if_pos hunbumped
        · rw [hlook]
          exact hbumped
        · intro h' hne
          exact AList.lookup_insert_ne hne
      · right
        obtain ⟨hgeneration, -, hinner, hfits⟩ := Mutation.undoSection_applyTo hundo
        refine .change ?_ hgeneration hinner hfits rfl (by simp only [System.changed, hold, hlook])
        rw [System.bumps, hold]
        rfl
      · right
        have hbefore : (s.handlers.lookup h).any HandlerPc.isUnbumped = false := by
          rw [hold]
          exact hwaits.before
        refine .still (if_neg (by rw [hbefore]; exact Bool.false_ne_true)) rfl rfl ?_ hbefore
        simp only [System.changed, hold, hlook]
        split
        next m err err' heq hpc =>
          cases hpc
          cases hwaits.after
        next => rfl
    · right
      have hbefore : (s.handlers.lookup h).any HandlerPc.isUnbumped = false := by
        rw [hold]
        cases old with
        | changed m version seen => rfl
        | _ => cases hexp
      exact .still rfl rfl rfl rfl hbefore
  · right
    have hchanged : s.changed s' a = [] := by cases a <;> first | rfl | cases ha
    have hbumps : s.bumps a = none := by cases a <;> first | rfl | cases ha
    refine ⟨hbumps, (System.stream_frame hread ha hnext).1.generation, ?_, ?_, ?_, ?_⟩
    · rw [hchanged]
      exact hinner
    · rw [hchanged]
      exact Nat.zero_le 1
    · rw [hchanged]
      nofun
    · rw [hhandlers]
      exact fun h hunbumped => hunbumped

/-- What a step does to the streams: one opens or ends, a task moves, or messages are
    read or exchanged. -/
theorem System.next_streams (ha : a.handler? = none) (hnext : s.next state a = some s') :
    (∃ i envoy, a = .connect i envoy ∧ s'.streams = s.streams.insert i (.new envoy)) ∨
      (∃ i, a = .disconnect i ∧ s'.streams = s.streams.erase i) ∨
      ∃ i st st', s.streams.lookup i = some st ∧ s'.streams = s.streams.insert i st' ∧
        (a = .stream i ∧ st.advance s.store = some st' ∨
          (∀ c : Ledger, c.pushedAfter a = c.pushed) ∧
            (st'.pc = st.pc ∧ st'.seen = st.seen ∨
              (∃ store, st.receive s.store = some (store, st')) ∨
              st.tick s.store = some st')) := by
  cases a with
  | post h body => cases ha
  | delete h id => cases ha
  | handler h => cases ha
  | expire h => cases ha
  | connect i envoy =>
    simp only [System.next, Option.ite_none_left_eq_some, Option.some.injEq] at hnext
    obtain ⟨-, rfl⟩ := hnext
    exact .inl ⟨i, envoy, rfl, rfl⟩
  | disconnect i =>
    simp only [System.next, Option.ite_none_left_eq_some, Option.some.injEq] at hnext
    obtain ⟨-, rfl⟩ := hnext
    exact .inr (.inl ⟨i, rfl, rfl⟩)
  | receive i =>
    obtain ⟨st, hst, hnext⟩ := Option.bind_eq_some_iff.mp hnext
    obtain ⟨⟨store, st'⟩, hrecv, heq⟩ := Option.bind_eq_some_iff.mp hnext
    cases heq
    exact .inr (.inr ⟨i, st, st', hst, rfl, .inr ⟨fun _ => rfl, .inr (.inl ⟨store, hrecv⟩)⟩⟩)
  | tick i =>
    obtain ⟨st, hst, hnext⟩ := Option.bind_eq_some_iff.mp hnext
    obtain ⟨st', htick, heq⟩ := Option.bind_eq_some_iff.mp hnext
    cases heq
    exact .inr (.inr ⟨i, st, st', hst, rfl, .inr ⟨fun _ => rfl, .inr (.inr htick)⟩⟩)
  | stream i =>
    obtain ⟨st, hst, hnext⟩ := Option.bind_eq_some_iff.mp hnext
    obtain ⟨st', hadv, heq⟩ := Option.bind_eq_some_iff.mp hnext
    cases heq
    exact .inr (.inr ⟨i, st, st', hst, rfl, .inl ⟨rfl, hadv⟩⟩)
  | subscribe i typeUrl =>
    obtain ⟨st, hst, heq⟩ := Option.bind_eq_some_iff.mp hnext
    cases heq
    exact .inr (.inr ⟨i, st, _, hst, rfl, .inr ⟨fun _ => rfl, .inl ⟨rfl, rfl⟩⟩⟩)
  | accept i =>
    obtain ⟨st, hst, hnext⟩ := Option.bind_eq_some_iff.mp hnext
    split at hnext
    next response rest hout =>
      cases hnext
      refine .inr (.inr ⟨i, st, { st with
        outbound := rest
        inbound := st.inbound ++ [⟨response.typeUrl, response.versionInfo, none⟩] }, hst, ?_,
        .inr ⟨fun _ => rfl, .inl ⟨rfl, rfl⟩⟩⟩)
      cases response <;> rfl
    next => cases hnext
  | reject i message =>
    obtain ⟨st, hst, hnext⟩ := Option.bind_eq_some_iff.mp hnext
    split at hnext
    next =>
      cases hnext
      exact .inr (.inr ⟨i, st, _, hst, rfl, .inr ⟨fun _ => rfl, .inl ⟨rfl, rfl⟩⟩⟩)
    next => cases hnext

-- ════════════════════════════════════════════════════════════════════════
-- The invariant
-- ════════════════════════════════════════════════════════════════════════

/-- The invariant of runs in which the counter does not wrap. -/
structure LedgerInv (c : Ledger) : Prop where
  label : LabelInv c.system
  table : c.system.store.inner = replay c.seeded (edits c.changes)
  fits : ∀ j (e : LogEntry Nat Mutation), c.changes[j]? = some e → e.edit.Fits (c.tableAfter j)
  published : ∀ e ∈ c.changes, ∀ v, e.published = some v →
    1 ≤ v ∧ v ≤ c.system.store.generation
  waiting : ∀ e ∈ c.changes, e.published = none →
    (c.system.handlers.lookup e.owner).any HandlerPc.isUnbumped = true
  emitted : ∀ p, Emitted c.system p → ∃ count, c.Truthful p count
  pushed : ∀ i, ∀ p ∈ c.pushed i,
    p.version ≤ c.system.store.generation ∧ ∃ count, c.Truthful p count
  sorted : ∀ i, (c.pushed i).Pairwise fun p q => p.version ≤ q.version
  ordered : ∀ i st, c.system.streams.lookup i = some st →
    st.Ordered c.system.store.generation (c.pushed i)

namespace LedgerInv

theorem start (hstart : (ledger state).Start c) : LedgerInv c := by
  obtain ⟨hsystem, hseeded, hchanges, hpushed⟩ := hstart
  obtain ⟨-, -, hstreams, hacked⟩ := id hsystem
  refine ⟨.start hsystem, ?_, ?_, ?_, ?_, ?_, ?_, ?_, ?_⟩
  · rw [hchanges]
    exact hseeded.symm
  · rw [hchanges]
    nofun
  · rw [hchanges]
    nofun
  · rw [hchanges]
    nofun
  · rintro p (hp | ⟨i, st, hst, -⟩)
    · rw [hacked] at hp
      cases hp
    · rw [hstreams] at hst
      cases hst
  · intro i p hp
    rw [hpushed] at hp
    cases hp
  · intro i
    rw [hpushed]
    exact .nil
  · intro i st hst
    rw [hstreams] at hst
    cases hst

theorem noWrap_bump (hwrap : c.NoWrap a) (hbumps : c.system.bumps a = some h) :
    c.system.store.generation + 1 < 2 ^ 64 := by
  cases a with
  | handler h' =>
    refine hwrap ?_
    by_contra hnot
    rw [System.bumps, if_neg hnot] at hbumps
    cases hbumps
  | _ => cases hbumps

/-- The generation does not fall. -/
theorem generation_le (hwrap : c.NoWrap a)
    (hstep : (∃ h, c.system.BumpStep a s' h) ∨ c.system.TableStep a s') :
    c.system.store.generation ≤ s'.store.generation := by
  obtain ⟨h, hbump⟩ | htable := hstep
  · rw [hbump.store, SessionStore.generation_bump (noWrap_bump hwrap hbump.bumps)]
    omega
  · exact htable.generation.ge

/-- A push stays truthful: what is published later has a later version. -/
theorem truthful_after (htrue : c.Truthful p count) (hle : p.version ≤ c.system.store.generation)
    (hwrap : c.NoWrap a)
    (hstep : (∃ h, c.system.BumpStep a s' h) ∨ c.system.TableStep a s') :
    (c.after s' a).Truthful p count := by
  obtain ⟨hcount, hsnapshot, hcovered⟩ := htrue
  obtain ⟨h, hbump⟩ | htable := hstep
  · have hgen := SessionStore.generation_bump (noWrap_bump hwrap hbump.bumps)
    have hchanges : (c.after s' a).changes = publish h s'.store.generation c.changes := by
      simp only [Ledger.after, Ledger.changesAfter, hbump.bumps]
    refine ⟨?_, ?_, ?_⟩
    · rw [hchanges, length_publish]
      exact hcount
    · rw [Ledger.tableAfter, hchanges, edits_publish]
      exact hsnapshot
    · rw [hchanges]
      refine hcovered.publish ?_
      rw [hbump.store]
      omega
  · have hchanges : (c.after s' a).changes = c.changes ++ c.system.changed s' a := by
      simp only [Ledger.after, Ledger.changesAfter, htable.bumps]
    refine ⟨?_, ?_, ?_⟩
    · rw [hchanges, List.length_append]
      omega
    · rw [Ledger.tableAfter, hchanges, take_edits_append hcount]
      exact hsnapshot
    · rw [hchanges]
      exact hcovered.append fun e he => (htable.changed e he).1

theorem tableAfter_length (inv : LedgerInv c) :
    c.tableAfter c.changes.length = c.system.store.inner := by
  rw [Ledger.tableAfter, List.take_of_length_le (by rw [edits, List.length_map]), inv.table]

theorem fits_after (inv : LedgerInv c)
    (hstep : (∃ h, c.system.BumpStep a s' h) ∨ c.system.TableStep a s') (j : Nat)
    (e : LogEntry Nat Mutation) (hlook : (c.after s' a).changes[j]? = some e) :
    e.edit.Fits ((c.after s' a).tableAfter j) := by
  obtain ⟨h, hbump⟩ | htable := hstep
  · have hchanges : (c.after s' a).changes = publish h s'.store.generation c.changes := by
      simp only [Ledger.after, Ledger.changesAfter, hbump.bumps]
    rw [hchanges, publish, List.getElem?_map, Option.map_eq_some_iff] at hlook
    obtain ⟨e₀, hlook, rfl⟩ := hlook
    rw [(mark_cases h s'.store.generation e₀).2.1, Ledger.tableAfter, hchanges, edits_publish]
    exact inv.fits j e₀ hlook
  · have hchanges : (c.after s' a).changes = c.changes ++ c.system.changed s' a := by
      simp only [Ledger.after, Ledger.changesAfter, htable.bumps]
    rw [hchanges] at hlook
    rw [Ledger.tableAfter, hchanges]
    by_cases hj : j < c.changes.length
    · rw [List.getElem?_append_left hj] at hlook
      rw [take_edits_append hj.le]
      exact inv.fits j e hlook
    · rw [List.getElem?_append_right (Nat.not_lt.mp hj)] at hlook
      obtain ⟨hshort, -⟩ := List.getElem?_eq_some_iff.mp hlook
      have hsingle := htable.single
      obtain rfl : j = c.changes.length := by omega
      rw [take_edits_append le_rfl]
      have htake : replay c.seeded ((edits c.changes).take c.changes.length) =
          c.system.store.inner := inv.tableAfter_length
      show e.edit.Fits (replay c.seeded _)
      rw [htake]
      exact (htable.changed e (List.mem_of_getElem? hlook)).2.1

/-- The table and the entries of the ledger. -/
theorem entries_after (inv : LedgerInv c) (hwrap : c.NoWrap a)
    (hstep : (∃ h, c.system.BumpStep a s' h) ∨ c.system.TableStep a s') :
    s'.store.inner = replay c.seeded (edits (c.after s' a).changes) ∧
      (∀ e ∈ (c.after s' a).changes, ∀ v, e.published = some v →
        1 ≤ v ∧ v ≤ s'.store.generation) ∧
      ∀ e ∈ (c.after s' a).changes, e.published = none →
        (s'.handlers.lookup e.owner).any HandlerPc.isUnbumped = true := by
  obtain ⟨h, hbump⟩ | htable := hstep
  · have hgen := SessionStore.generation_bump (noWrap_bump hwrap hbump.bumps)
    have hchanges : (c.after s' a).changes = publish h s'.store.generation c.changes := by
      simp only [Ledger.after, Ledger.changesAfter, hbump.bumps]
    rw [hchanges, edits_publish, hbump.store]
    refine ⟨inv.table, ?_, ?_⟩
    · intro e he v hv
      obtain ⟨e₀, he₀, rfl⟩ := List.mem_map.mp he
      obtain ⟨-, -, ⟨-, hsame⟩ | ⟨-, hnow⟩⟩ := mark_cases h c.system.store.bump.generation e₀
      · obtain ⟨hpos, hle⟩ := inv.published e₀ he₀ v (hsame ▸ hv)
        omega
      · rw [hnow, Option.some.injEq] at hv
        omega
    · intro e he hnone
      obtain ⟨e₀, he₀, rfl⟩ := List.mem_map.mp he
      obtain ⟨hown, -, ⟨hother, hsame⟩ | ⟨-, hnow⟩⟩ :=
        mark_cases h c.system.store.bump.generation e₀
      · have hnone₀ : e₀.published = none := hsame ▸ hnone
        rw [hown, hbump.others e₀.owner fun heq => hother ⟨heq, hnone₀⟩]
        exact inv.waiting e₀ he₀ hnone₀
      · rw [hnow] at hnone
        cases hnone
  · have hchanges : (c.after s' a).changes = c.changes ++ c.system.changed s' a := by
      simp only [Ledger.after, Ledger.changesAfter, htable.bumps]
    rw [hchanges, edits_append, htable.inner, inv.table, htable.generation]
    refine ⟨(List.foldl_append ..).symm, ?_, ?_⟩
    · intro e he v hv
      rcases List.mem_append.mp he with he | he
      · exact inv.published e he v hv
      · rw [(htable.changed e he).1] at hv
        cases hv
    · intro e he hnone
      rcases List.mem_append.mp he with he | he
      · exact htable.unbumped _ (inv.waiting e he hnone)
      · exact (htable.changed e he).2.2

/-- The streams, and what they have pushed by now. -/
theorem streams_after (inv : LedgerInv c) (hwrap : c.NoWrap a)
    (hnext : c.system.next state a = some s')
    (hstep : (∃ h, c.system.BumpStep a s' h) ∨ c.system.TableStep a s') :
    (∀ i, ∀ p ∈ c.pushedAfter a i, p ∈ c.pushed i ∨ Emitted c.system p) ∧
      (∀ i, (c.pushedAfter a i).Pairwise fun p q => p.version ≤ q.version) ∧
      ∀ i st, s'.streams.lookup i = some st →
        st.Ordered s'.store.generation (c.pushedAfter a i) := by
  have hle := generation_le hwrap hstep
  have hbound : ∀ i, ∀ p ∈ c.pushed i, p.version ≤ c.system.store.generation :=
    fun i p hp => (inv.pushed i p hp).1
  rcases System.next_cases hnext with ⟨h, store, pc, rfl, hmove⟩ | ⟨ha, -, -, -⟩
  · have hsame : c.pushedAfter a = c.pushed := by
      rcases hmove with ⟨_, rfl, -⟩ | ⟨_, rfl, -⟩ | ⟨_, rfl, -⟩ | ⟨_, rfl, -⟩
      all_goals rfl
    rw [hsame]
    exact ⟨fun i p hp => .inl hp, inv.sorted, fun i st hst => (inv.ordered i st hst).mono hle⟩
  · have hgen := (System.stream_frame inv.label.read ha hnext).1.generation
    rw [hgen]
    obtain ⟨i, envoy, rfl, hstreams⟩ | ⟨i, rfl, hstreams⟩ |
      ⟨i, st, st', hst, hstreams, hmoves⟩ := System.next_streams ha hnext
    · simp only [Ledger.pushedAfter]
      refine ⟨?_, ?_, ?_⟩
      · intro j p hp
        by_cases hj : j = i
        · subst hj
          rw [Function.update_self] at hp
          cases hp
        · rw [Function.update_of_ne hj] at hp
          exact .inl hp
      · intro j
        by_cases hj : j = i
        · subst hj
          rw [Function.update_self]
          exact .nil
        · rw [Function.update_of_ne hj]
          exact inv.sorted j
      · intro j st hlook
        rw [hstreams, FiniteMap.lookup_insert_ite] at hlook
        by_cases hj : j = i
        · subst hj
          rw [if_pos rfl, Option.some.injEq] at hlook
          rw [Function.update_self, ← hlook]
          exact .new envoy
        · rw [if_neg hj] at hlook
          rw [Function.update_of_ne hj]
          exact inv.ordered j st hlook
    · refine ⟨fun j p hp => .inl hp, inv.sorted, ?_⟩
      intro j st hlook
      rw [hstreams, FiniteMap.lookup_erase_ite] at hlook
      split at hlook
      next => cases hlook
      next => exact inv.ordered j st hlook
    · have hord := inv.ordered i st hst
      obtain ⟨rfl, hadv⟩ | ⟨hsame, hidle⟩ := hmoves
      · have hpushed : c.pushedAfter (.stream i) =
            Function.update c.pushed i (c.pushed i ++ st.pc.yielded) := by
          rw [Ledger.pushedAfter, hst]
          rfl
        rw [hpushed]
        refine ⟨?_, ?_, ?_⟩
        · intro j p hp
          by_cases hj : j = i
          · subst hj
            rw [Function.update_self, List.mem_append] at hp
            refine hp.imp_right fun hp => .inr ⟨j, st, hst, .inl ?_⟩
            cases hpc : st.pc with
            | yield push =>
              rw [hpc, StreamPc.yielded, List.mem_singleton] at hp
              rw [hp]
            | _ => simp only [hpc, StreamPc.yielded, List.not_mem_nil] at hp
          · rw [Function.update_of_ne hj] at hp
            exact .inl hp
        · intro j
          by_cases hj : j = i
          · subst hj
            rw [Function.update_self]
            exact hord.sorted (inv.sorted j)
          · rw [Function.update_of_ne hj]
            exact inv.sorted j
        · intro j st₁ hlook
          rw [hstreams, FiniteMap.lookup_insert_ite] at hlook
          by_cases hj : j = i
          · subst hj
            rw [if_pos rfl, Option.some.injEq] at hlook
            rw [Function.update_self, ← hlook]
            exact hord.advance (hbound j) hadv
          · rw [if_neg hj] at hlook
            rw [Function.update_of_ne hj]
            exact inv.ordered j st₁ hlook
      · rw [hsame c]
        refine ⟨fun j p hp => .inl hp, inv.sorted, ?_⟩
        intro j st₁ hlook
        rw [hstreams, FiniteMap.lookup_insert_ite] at hlook
        by_cases hj : j = i
        · subst hj
          rw [if_pos rfl, Option.some.injEq] at hlook
          rw [← hlook]
          obtain ⟨hpc, hseen⟩ | ⟨store, hrecv⟩ | htick := hidle
          · exact hord.messages hpc hseen
          · exact hord.receive hrecv
          · exact .tick (hbound j) htick
        · rw [if_neg hj] at hlook
          exact inv.ordered j st₁ hlook

/-- The pushes in flight: a new one is compiled from the table as it is. -/
theorem emitted_after (inv : LedgerInv c) (hnext : c.system.next state a = some s')
    (hp : Emitted s' p) :
    Emitted c.system p ∨ c.Truthful p c.changes.length ∧
      p.version ≤ c.system.store.generation := by
  rcases System.next_cases hnext with ⟨h, store, pc, rfl, -⟩ | ⟨ha, -, -, -⟩
  · exact .inl hp
  · refine ((System.stream_frame inv.label.read ha hnext).1.emitted p hp).imp_right ?_
    rintro ⟨hsnapshot, hle⟩
    refine ⟨⟨le_rfl, ?_, coveredBy_length _ _⟩, hle⟩
    rw [hsnapshot, inv.tableAfter_length]
    exact SessionStore.list_congr rfl

/-- **Step lemma**. -/
theorem step (inv : LedgerInv c) (hwrap : c.NoWrap a)
    (hnext : c.system.next state a = some s') : LedgerInv (c.after s' a) := by
  have hstep := System.next_ledger inv.label.read hnext
  have hle := generation_le hwrap hstep
  obtain ⟨htable, hpublished, hwaiting⟩ := inv.entries_after hwrap hstep
  obtain ⟨hpushed, hsorted, hordered⟩ := inv.streams_after hwrap hnext hstep
  have hkept : ∀ p, p.version ≤ c.system.store.generation → (∃ count, c.Truthful p count) →
      ∃ count, (c.after s' a).Truthful p count := by
    rintro p hversion ⟨count, htrue⟩
    exact ⟨count, truthful_after htrue hversion hwrap hstep⟩
  refine ⟨inv.label.step ?_ hnext, htable, inv.fits_after hstep, hpublished, hwaiting, ?_, ?_,
    hsorted, hordered⟩
  · rintro h rfl hunbumped
    exact hwrap hunbumped
  · intro p hp
    obtain hold | ⟨htrue, hversion⟩ := inv.emitted_after hnext hp
    · exact hkept p (inv.label.version p hold) (inv.emitted p hold)
    · exact hkept p hversion ⟨_, htrue⟩
  · intro i p hp
    obtain hold | hemitted := hpushed i p hp
    · obtain ⟨hversion, htrue⟩ := inv.pushed i p hold
      exact ⟨hversion.trans hle, hkept p hversion htrue⟩
    · have hversion := inv.label.version p hemitted
      exact ⟨hversion.trans hle, hkept p hversion (inv.emitted p hemitted)⟩

theorem of_reachable (hreach : (ledger state).ReachableUnder Ledger.NoWrap c) : LedgerInv c := by
  apply hreach.invariant
  · exact fun _ hstart => .start hstart
  · intro t a t' inv hwrap hnext
    obtain ⟨s', hs', rfl⟩ := Option.map_eq_some_iff.mp hnext
    exact inv.step hwrap hs'

end LedgerInv

end Botwork.ControlPlane
