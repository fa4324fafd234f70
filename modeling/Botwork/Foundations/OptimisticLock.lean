import Botwork.Foundations.ClockStamps

/-!
# Optimistic locks

Requests that carry a token for a row: they select the row, compare its stamp with
the token and write the row, in separate statements.  When nothing is committed to
the row between the SELECT and the write, and no two requests read the same time
for the stamps they write, a token is spent once, whatever else runs.

## Main definitions

- `Tokens` — which request carries which token, and the stamps of rows
- `Tokens.lockProtocol` — a request writes its row once, after a SELECT has shown it
  under the token
- `Tokens.Timely` — the condition on a step
- `Tokens.LockInv` — the invariant
-/

namespace Botwork.Foundations

variable {δ κ ρ ω ε : Type} [DecidableEq κ]

-- ════════════════════════════════════════════════════════════════════════
-- Programs
-- ════════════════════════════════════════════════════════════════════════

/-- The statement updates or deletes the row with this key. -/
def Statement.targets (k : κ) : Statement κ ρ → Bool
  | .insert _ => false
  | .update k' _ => k' = k
  | .delete k' _ => k' = k

/-- The statement leaves the row with this key alone. -/
def Statement.Spares (k : κ) : Statement κ ρ → Prop
  | .insert new => ∀ id, (new id).1 ≠ k
  | .update k' _ => k' ≠ k
  | .delete k' cascades => k' ≠ k ∧ ∀ row, cascades k row = false

/-- How far a request has come with the row it has a token for. -/
inductive LockPhase where
  | unwritten
  | written
  | committed
  deriving DecidableEq

/-- What a request has been shown, and how far it has come with its row. -/
structure Locking (κ ρ : Type) where
  shown : List (FiniteMap κ ρ)
  phase : LockPhase

omit [DecidableEq κ] in
theorem Statement.Spares.not_writes {k : κ} {statement : Statement κ ρ} {id : Nat}
    {view : κ → Option ρ} {version : Option ρ} (h : statement.Spares k) :
    ¬ statement.Writes id view k version := by
  intro hwrites
  cases hwrites with
  | insert => exact h id rfl
  | update => exact h rfl
  | delete _ hk =>
    cases hk with
    | inl heq => exact h.1 heq.symm
    | inr hcascades => rw [h.2] at hcascades; cases hcascades

theorem Statement.Spares.not_targets {k : κ} {statement : Statement κ ρ} (h : statement.Spares k) :
    statement.targets k = false := by
  cases statement with
  | insert => rfl
  | update => exact decide_eq_false h
  | delete => exact decide_eq_false h.1

/-- A statement that meets the row it targets takes its lock. -/
theorem Table.held_of_exec {clash : ρ → ρ → Bool} {table table' : Table CallId κ ρ} {t : CallId}
    {id : Nat} {k : κ} {row : ρ} {statement : Statement κ ρ} (hview : view table t k = some row)
    (htargets : statement.targets k = true)
    (h : exec clash table t id statement = some (some table')) :
    (slot table' k).heldBy t = true := by
  cases statement with
  | insert => cases htargets
  | update k' set =>
    obtain rfl : k' = k := of_decide_eq_true htargets
    simp only [exec, hview] at h
    rw [(write_eq_some (writeRow_eq_some h)).2 k', if_pos rfl]
    exact Slot.heldBy_iff.mpr ⟨_, rfl⟩
  | delete k' cascades =>
    obtain rfl : k' = k := of_decide_eq_true htargets
    simp only [exec, hview] at h
    obtain ⟨table'', hdelete, heq⟩ := Option.map_eq_some_iff.mp h
    cases heq
    have hslot := deleteAll_eq_some hdelete k'
    rw [if_pos List.mem_cons_self] at hslot
    rw [hslot.2]
    exact Slot.heldBy_iff.mpr ⟨_, rfl⟩

-- ════════════════════════════════════════════════════════════════════════
-- Tokens
-- ════════════════════════════════════════════════════════════════════════

/-- The row and the stamp a request names as its token. -/
structure Tokens (δ κ ρ : Type) extends Stamps κ ρ where
  token : δ → Option (κ × Nat)

namespace Tokens

variable (tokens : Tokens δ κ ρ)

/-- A SELECT has shown the row under the stamp. -/
def Shown (k : κ) (stamp : Nat) (shown : List (FiniteMap κ ρ)) : Prop :=
  ∃ rows ∈ shown, ∃ row ∈ rows.values, tokens.key row = k ∧ tokens.stamp row = stamp

/-- A request writes its row at most once, after a SELECT that has shown it under the
    token, and counts the write as done when committed. -/
def lockProtocol (k : κ) (stamp : Nat) : Protocol κ ρ (Locking κ ρ) where
  select g rows := { g with shown := rows :: g.shown }
  clock g _ := g
  allowed g statement := statement.Spares k ∨
    statement.targets k = true ∧ g.phase = .unwritten ∧ tokens.Shown k stamp g.shown
  exec g statement := if statement.targets k then { g with phase := .written } else g
  commit g := if g.phase = .written then { g with phase := .committed } else g

/-- A program that ends well has committed its write. -/
abbrev Keeps {α : Type} (k : κ) (stamp : Nat) (g : Locking κ ρ) (program : Program κ ρ ω ε α) : Prop :=
  program.Follows (tokens.lockProtocol k stamp) (fun g _ => g.phase = .committed) g

/-- No version of the row has been committed with this stamp. -/
def unused (s : Server δ κ ρ ω ε) (k : κ) (stamp : Nat) : Bool :=
  s.history.all fun (_, k', version) => k' ≠ k || version.all fun row => tokens.stamp row ≠ stamp

/-- A version of the row has been committed after the first `since` writes. -/
def changedSince (s : Server δ κ ρ ω ε) (k : κ) (since : Nat) : Bool :=
  (s.history.drop since).any fun (_, k', _) => k' = k

/-- Nothing has been committed to the row that the statement writes since a SELECT of
    the request that showed it under the token. -/
def timely (s : Server δ κ ρ ω ε) (r : Running δ κ ρ ω ε) (statement : Statement κ ρ) : Bool :=
  (tokens.token r.request).all fun (k, stamp) => !statement.targets k ||
    r.selects.all fun reading => !changedSince s k reading.since ||
      !(reading.rows.lookup k).any fun row => tokens.stamp row = stamp

/-- A write comes before any other commit to its row, and a time is read by one
    request only. -/
def Timely (s : Server δ κ ρ ω ε) : ServerEvent δ → Bool
  | .run call .ok => (s.inFlight.lookup call).all fun r =>
    match r.program with
    | .exec statement _ => tokens.timely s r statement
    | _ => true
  | e => Stamps.apart s e

/-- The requests with a token keep to the protocol of their row, and all stamp rows
    with the time they have read. -/
structure Disciplined (schema : Schema δ κ ρ ω ε) : Prop where
  stamps : tokens.toStamps.Disciplined schema
  locks : ∀ request k stamp, tokens.token request = some (k, stamp) →
    tokens.Keeps k stamp ⟨[], .unwritten⟩ (schema.program request)

-- ════════════════════════════════════════════════════════════════════════
-- The invariant
-- ════════════════════════════════════════════════════════════════════════

/-- The call has made this request. -/
def Made (s : Server δ κ ρ ω ε) (call : CallId) (request : δ) : Prop :=
  (∃ r, s.inFlight.lookup call = some r ∧ r.request = request) ∨
    ∃ result, s.results.lookup call = some (request, result)

/-- The call has committed its write of the row it has a token for. -/
def Won (s : Server δ κ ρ ω ε) (call : CallId) (k : κ) (stamp : Nat) : Prop :=
  ∃ request version, Made s call request ∧ tokens.token request = some (k, stamp) ∧
    (call, k, version) ∈ s.history

/-- Some version of the row was committed with the stamp, and now it has another one. -/
structure Spent (s : Server δ κ ρ ω ε) (k : κ) (stamp : Nat) : Prop where
  used : tokens.unused s k stamp = false
  gone : ∀ row, Table.committed s.table k = some row → tokens.stamp row ≠ stamp

/-- The SELECT has shown the row as it is, unless it has been written since. -/
structure Current (s : Server δ κ ρ ω ε) (k : κ) (reading : Reading κ ρ) : Prop where
  since_le : reading.since ≤ s.history.length
  shows : changedSince s k reading.since = false →
    Table.committed s.table k = reading.rows.lookup k

/-- What a phase says about the row. -/
def Holds (s : Server δ κ ρ ω ε) (call : CallId) (selects : List (Reading κ ρ)) (k : κ) (stamp : Nat) :
    LockPhase → Prop
  | .unwritten => (Table.slot s.table k).heldBy call = false ∧
      ∀ reading ∈ selects, Current s k reading
  | .written => (Table.slot s.table k).heldBy call = true ∧
      ∃ row, Table.committed s.table k = some row ∧ tokens.stamp row = stamp
  | .committed => (Table.slot s.table k).heldBy call = false ∧
      ∃ version, (call, k, version) ∈ s.history

structure LockInv (s : Server δ κ ρ ω ε) : Prop extends Stamps.StampInv tokens.toStamps s where
  spent : ∀ call k stamp, tokens.Won s call k stamp → tokens.Spent s k stamp
  one : ∀ call call' k stamp, tokens.Won s call k stamp → tokens.Won s call' k stamp → call = call'
  locks : ∀ call r k stamp, s.inFlight.lookup call = some r →
    tokens.token r.request = some (k, stamp) → ∃ phase,
      tokens.Keeps k stamp ⟨r.reads, phase⟩ r.program ∧ tokens.Holds s call r.selects k stamp phase
  done : ∀ call request k stamp, s.results.lookup call = some (request, .ok ()) →
    tokens.token request = some (k, stamp) → ∃ version, (call, k, version) ∈ s.history

-- ════════════════════════════════════════════════════════════════════════
-- Steps
-- ════════════════════════════════════════════════════════════════════════

variable {tokens : Tokens δ κ ρ} {schema : Schema δ κ ρ ω ε} {s s' : Server δ κ ρ ω ε} {call : CallId}
  {r : Running δ κ ρ ω ε}

theorem unused_iff {k : κ} {stamp : Nat} : tokens.unused s k stamp = true ↔
    ∀ call row, (call, k, some row) ∈ s.history → tokens.stamp row ≠ stamp := by
  simp only [unused, List.all_eq_true, Bool.or_eq_true, decide_eq_true_eq]
  constructor
  · intro h call row hmem
    have hentry := (h (call, k, some row) hmem).resolve_left fun hne => hne rfl
    simpa using hentry
  · rintro h ⟨call, k', version⟩ hmem
    by_cases hk : k' = k
    · subst hk
      cases version with
      | none => exact .inr rfl
      | some row => exact .inr (by simpa using h call row hmem)
    · exact .inl hk

theorem used_iff {k : κ} {stamp : Nat} : tokens.unused s k stamp = false ↔
    ∃ call row, (call, k, some row) ∈ s.history ∧ tokens.stamp row = stamp := by
  rw [← Bool.not_eq_true, unused_iff]
  push Not
  rfl

theorem changedSince_commit {k : κ} {since : Nat} (hle : since ≤ s.history.length) :
    changedSince (Schema.commitCall s call) k since = false ↔
      changedSince s k since = false ∧ (Table.slot s.table k).heldBy call = false := by
  have hdrop : (Schema.commitCall s call).history.drop since =
      s.history.drop since ++ (Table.writes s.table call).map (call, ·) :=
    List.drop_append_of_le_length hle
  rw [changedSince, hdrop, List.any_append, Bool.or_eq_false_iff, ← changedSince]
  refine and_congr_right fun _ => ?_
  rw [← Bool.not_eq_true, ← Bool.not_eq_true, not_iff_not, List.any_eq_true, Slot.heldBy_iff]
  constructor
  · rintro ⟨⟨call', k', version⟩, hmem, heq⟩
    obtain ⟨write, hwrite, hpair⟩ := List.mem_map.mp hmem
    cases hpair
    obtain rfl : k' = k := of_decide_eq_true heq
    exact ⟨version, Table.mem_writes.mp hwrite⟩
  · rintro ⟨version, hpending⟩
    exact ⟨(call, k, version), List.mem_map.mpr ⟨_, Table.mem_writes.mpr hpending, rfl⟩,
      decide_eq_true rfl⟩

/-- A commit that changes the row makes the SELECT count no more. -/
theorem Current.commit {k : κ} {reading : Reading κ ρ} (h : Current s k reading) :
    Current (Schema.commitCall s call) k reading where
  since_le := by
    show reading.since ≤ (s.history ++ (Table.writes s.table call).map (call, ·)).length
    rw [List.length_append]
    exact Nat.le_add_right_of_le h.since_le
  shows hsame := by
    obtain ⟨hbefore, hfree⟩ := (changedSince_commit h.since_le).mp hsame
    show Table.committed (Table.commit s.table call) k = _
    rw [Table.committed_commit, Table.view_of_not_heldBy hfree]
    exact h.shows hbefore

/-- What a phase says is kept by a step that leaves the row and the history alone. -/
theorem Holds.kept {k : κ} {stamp : Nat} {selects : List (Reading κ ρ)} {phase : LockPhase}
    (h : tokens.Holds s call selects k stamp phase)
    (hheld : (Table.slot s'.table k).heldBy call = (Table.slot s.table k).heldBy call)
    (hcommitted : Table.committed s'.table k = Table.committed s.table k)
    (hhistory : s'.history = s.history) : tokens.Holds s' call selects k stamp phase := by
  cases phase with
  | unwritten =>
    refine ⟨hheld.trans h.1, fun reading hmem => ⟨?_, fun hsame => ?_⟩⟩
    · rw [hhistory]
      exact (h.2 reading hmem).since_le
    · rw [changedSince, hhistory] at hsame
      exact hcommitted.trans ((h.2 reading hmem).shows hsame)
  | written =>
    obtain ⟨hheld', row, hrow, hstamp⟩ := h
    exact ⟨hheld.trans hheld', row, hcommitted.trans hrow, hstamp⟩
  | committed => exact ⟨hheld.trans h.1, hhistory ▸ h.2⟩

/-- What a phase says of a call that commits. -/
theorem Holds.commit_self {k : κ} {stamp : Nat} {selects : List (Reading κ ρ)} {phase : LockPhase}
    (reads : List (FiniteMap κ ρ)) (h : tokens.Holds s call selects k stamp phase) :
    tokens.Holds (Schema.commitCall s call) call selects k stamp
      ((tokens.lockProtocol k stamp).commit ⟨reads, phase⟩).phase := by
  have hself : (Table.slot (Table.commit s.table call) k).heldBy call = false := by
    rw [Table.slot_commit]
    exact Slot.heldBy_commit_self
  cases phase with
  | unwritten => exact ⟨hself, fun reading hreading => (h.2 reading hreading).commit⟩
  | written =>
    obtain ⟨version, hpending⟩ := Slot.heldBy_iff.mp h.1
    exact ⟨hself, version, Schema.mem_history_commit.mpr (.inr ⟨rfl, hpending⟩)⟩
  | committed =>
    obtain ⟨-, version, hentry⟩ := h
    exact ⟨hself, version, Schema.mem_history_commit.mpr (.inl hentry)⟩

/-- What a phase says of another call. -/
theorem Holds.commit_of_ne {k : κ} {stamp : Nat} {selects : List (Reading κ ρ)} {phase : LockPhase}
    {call' : CallId} (hne : call' ≠ call) (h : tokens.Holds s call' selects k stamp phase) :
    tokens.Holds (Schema.commitCall s call) call' selects k stamp phase := by
  have hheld : (Table.slot (Table.commit s.table call) k).heldBy call' =
      (Table.slot s.table k).heldBy call' := by
    rw [Table.slot_commit, Slot.heldBy_commit_of_ne hne]
  cases phase with
  | unwritten => exact ⟨hheld.trans h.1, fun reading hreading => (h.2 reading hreading).commit⟩
  | written =>
    obtain ⟨hheld', row, hrow, hstamp⟩ := h
    refine ⟨hheld.trans hheld', row, ?_, hstamp⟩
    show Table.committed (Table.commit s.table call) k = some row
    rw [Table.committed_commit, Table.view_of_not_heldBy (Slot.heldBy_of_ne hheld' hne.symm)]
    exact hrow
  | committed =>
    obtain ⟨hfree, version, hentry⟩ := h
    exact ⟨hheld.trans hfree, version, Schema.mem_history_commit.mpr (.inl hentry)⟩

theorem apart_of_timely {e : ServerEvent δ} (h : tokens.Timely s e = true) :
    Stamps.apart s e = true := by
  unfold Timely at h
  split at h
  next => rfl
  next => exact h

omit [DecidableEq κ] in
/-- Nothing has been committed, and the requests made are known. -/
theorem Won.back {k : κ} {stamp : Nat} {call' : CallId} (h : tokens.Won s' call' k stamp)
    (hhistory : s'.history = s.history)
    (hmade : ∀ call request, (∃ version, (call, k, version) ∈ s.history) →
      Made s' call request → Made s call request) : tokens.Won s call' k stamp := by
  obtain ⟨request, version, hmade', htoken, hmem⟩ := h
  rw [hhistory] at hmem
  exact ⟨request, version, hmade call' request ⟨version, hmem⟩ hmade', htoken, hmem⟩

omit [DecidableEq κ] in
theorem made_advance {s₀ : Server δ κ ρ ω ε} {r' : Running δ κ ρ ω ε} {program : Program κ ρ ω ε Unit}
    {call' : CallId} {request : δ} (hlook : s.inFlight.lookup call = some r)
    (hrequest : r'.request = r.request) (hflights : s₀.inFlight = s.inFlight)
    (hresults : s₀.results = s.results) (h : Made (Schema.advance s₀ call r' program) call' request) :
    Made s call' request := by
  obtain ⟨r'', hlook', hsame⟩ | ⟨result, hresult⟩ := h
  · have hlook'' : (s₀.inFlight.insert call _).lookup call' = some r'' := hlook'
    rw [FiniteMap.lookup_insert_ite, hflights] at hlook''
    split_ifs at hlook'' with heq
    · cases hlook''
      exact .inl ⟨r, heq ▸ hlook, hrequest.symm.trans hsame⟩
    · exact .inl ⟨r'', hlook'', hsame⟩
  · exact .inr ⟨result, hresults ▸ hresult⟩

omit [DecidableEq κ] in
theorem made_finish {call' : CallId} {request : δ} {result : Except ε Unit}
    (hlook : s.inFlight.lookup call = some r)
    (h : Made (Schema.finish s call r.request result) call' request) : Made s call' request := by
  obtain ⟨r', hlook', hsame⟩ | ⟨result', hresult⟩ := h
  · have hlook'' : (s.inFlight.erase call).lookup call' = some r' := hlook'
    rw [FiniteMap.lookup_erase_ite] at hlook''
    split_ifs at hlook''
    exact .inl ⟨r', hlook'', hsame⟩
  · have hresult' : (s.results.insert call _).lookup call' = some (request, result') := hresult
    rw [FiniteMap.lookup_insert_ite] at hresult'
    split_ifs at hresult' with heq
    · cases hresult'
      exact .inl ⟨r, heq ▸ hlook, rfl⟩
    · exact .inr ⟨result', hresult'⟩

namespace LockInv

/-- A version that is to be committed has a stamp that is new to its row. -/
theorem unused_of_pending (inv : tokens.LockInv s) {k : κ} {row : ρ} {call' : CallId}
    (hpending : (Table.slot s.table k).pending = some (call', some row)) :
    tokens.unused s k (tokens.stamp row) = true :=
  unused_iff.mpr fun _ _ hmem => inv.stamp_ne hpending hmem

/-- A call goes on and nothing is written. -/
theorem advance {r' : Running δ κ ρ ω ε} {program : Program κ ρ ω ε Unit}
    {readings : List (CallId × Nat)} (inv : tokens.LockInv s)
    (hlook : s.inFlight.lookup call = some r) (hrequest : r'.request = r.request)
    (hstamps : Stamps.StampInv tokens.toStamps
      (Schema.advance { s with readings := readings } call r' program))
    (hgoes : ∀ k stamp phase, tokens.Keeps k stamp ⟨r.reads, phase⟩ r.program →
      tokens.Holds s call r.selects k stamp phase →
      tokens.Keeps k stamp ⟨r'.reads, phase⟩ program ∧ tokens.Holds s call r'.selects k stamp phase) :
    tokens.LockInv (Schema.advance { s with readings := readings } call r' program) := by
  have hback : ∀ call' k stamp,
      tokens.Won (Schema.advance { s with readings := readings } call r' program) call' k stamp →
      tokens.Won s call' k stamp := fun call' k stamp h =>
    h.back rfl fun _ _ _ => made_advance hlook hrequest rfl rfl
  refine { toStampInv := hstamps, spent := fun call' k stamp h => ?_,
           one := fun call₁ call₂ k stamp h₁ h₂ => ?_, locks := fun call' r'' k stamp hlook' htoken => ?_,
           done := inv.done }
  · have hspent := inv.spent call' k stamp (hback call' k stamp h)
    exact ⟨hspent.used, hspent.gone⟩
  · exact inv.one call₁ call₂ k stamp (hback _ _ _ h₁) (hback _ _ _ h₂)
  · have hlook'' : (s.inFlight.insert call _).lookup call' = some r'' := hlook'
    rw [FiniteMap.lookup_insert_ite] at hlook''
    split_ifs at hlook'' with heq
    · cases hlook''
      subst heq
      obtain ⟨phase, hfollow, hholds⟩ := inv.locks call' r k stamp hlook (hrequest ▸ htoken)
      obtain ⟨hfollow', hholds'⟩ := hgoes k stamp phase hfollow hholds
      exact ⟨phase, hfollow', hholds'.kept rfl rfl rfl⟩
    · obtain ⟨phase, hfollow, hholds⟩ := inv.locks call' r'' k stamp hlook'' htoken
      exact ⟨phase, hfollow, hholds.kept rfl rfl rfl⟩

/-- The row that a request is about to write still has the stamp of the token. -/
theorem stands {statement : Statement κ ρ} {k : κ} {stamp : Nat} (inv : tokens.LockInv s)
    (hlook : s.inFlight.lookup call = some r) (htoken : tokens.token r.request = some (k, stamp))
    (htargets : statement.targets k = true) (hshown : tokens.Shown k stamp r.reads)
    (hcurrent : ∀ reading ∈ r.selects, Current s k reading)
    (htimely : tokens.timely s r statement = true) :
    ∃ row, Table.committed s.table k = some row ∧ tokens.stamp row = stamp := by
  obtain ⟨rows, hread, row, hrow, hkey, hstamp⟩ := hshown
  obtain ⟨reading, hreading, rfl⟩ := List.mem_map.mp hread
  obtain ⟨k', hlook'⟩ := (FiniteMap.mem_values_iff _ _).mp hrow
  obtain rfl : k' = k := (inv.reads call r hlook _ hread k' row hlook').symm.trans hkey
  simp only [timely, htoken, Option.all_some, htargets, Bool.not_true, Bool.false_or] at htimely
  have hreading' := List.all_eq_true.mp htimely reading hreading
  simp only [hlook', Option.any_some, hstamp, decide_true, Bool.not_true, Bool.or_false,
    Bool.not_eq_true'] at hreading'
  exact ⟨row, ((hcurrent reading hreading).shows hreading').trans hlook', hstamp⟩

/-- A call executes a statement. -/
theorem exec {statement : Statement κ ρ} {next : Nat → Program κ ρ ω ε Unit} {table : Table CallId κ ρ}
    {clash : ρ → ρ → Bool} (inv : tokens.LockInv s) (hlook : s.inFlight.lookup call = some r)
    (hp : r.program = .exec statement next)
    (hexec : Table.exec clash s.table call s.ids statement = some (some table))
    (htimely : tokens.timely s r statement = true)
    (hstamps : Stamps.StampInv tokens.toStamps
      (Schema.advance { s with table := table, ids := s.ids + 1 } call r (next s.ids))) :
    tokens.LockInv (Schema.advance { s with table := table, ids := s.ids + 1 } call r (next s.ids)) := by
  have hslot := Table.exec_eq_some hexec
  have hcommitted := Table.committed_exec hexec
  have hback : ∀ call' k stamp,
      tokens.Won (Schema.advance { s with table := table, ids := s.ids + 1 } call r (next s.ids))
        call' k stamp → tokens.Won s call' k stamp := fun call' k stamp h =>
    h.back rfl fun _ _ _ => made_advance hlook rfl rfl rfl
  refine { toStampInv := hstamps, spent := fun call' k stamp h => ?_,
           one := fun call₁ call₂ k stamp h₁ h₂ => ?_,
           locks := fun call' r' k stamp hlook' htoken => ?_, done := inv.done }
  · have hspent := inv.spent call' k stamp (hback call' k stamp h)
    exact ⟨hspent.used, fun row hrow => hspent.gone row ((hcommitted k).symm.trans hrow)⟩
  · exact inv.one call₁ call₂ k stamp (hback _ _ _ h₁) (hback _ _ _ h₂)
  · have hlook'' : (s.inFlight.insert call _).lookup call' = some r' := hlook'
    rw [FiniteMap.lookup_insert_ite] at hlook''
    split_ifs at hlook'' with heq
    · cases hlook''
      subst heq
      obtain ⟨phase, hfollow, hholds⟩ := inv.locks call' r k stamp hlook htoken
      rw [hp] at hfollow
      obtain ⟨hallowed, hrest⟩ := hfollow
      have hnext := hrest s.ids
      obtain hspares | ⟨htargets, hphase, hshown⟩ := hallowed
      · -- the row is left alone
        have hsame : Table.slot table k = Table.slot s.table k :=
          (hslot k).resolve_right (by rintro ⟨version, hwrites, -⟩; exact hspares.not_writes hwrites)
        refine ⟨phase, ?_, hholds.kept (congrArg (Slot.heldBy · call') hsame) (hcommitted k) rfl⟩
        have hkept : (tokens.lockProtocol k stamp).exec ⟨r.reads, phase⟩ statement = ⟨r.reads, phase⟩ :=
          if_neg (by simp [hspares.not_targets])
        rw [hkept] at hnext
        exact hnext
      · -- the request writes its row, which still has the stamp of the token
        obtain rfl : phase = .unwritten := hphase
        obtain ⟨hfree, hreadings⟩ := hholds
        obtain ⟨row, hrow, hstamp⟩ := inv.stands hlook htoken htargets hshown hreadings htimely
        have hview : Table.view s.table call' k = some row := by
          rw [Table.view_of_not_heldBy hfree, hrow]
        refine ⟨.written, ?_, Table.held_of_exec hview htargets hexec, row, ?_, hstamp⟩
        · have hwritten : (tokens.lockProtocol k stamp).exec ⟨r.reads, .unwritten⟩ statement =
              ⟨r.reads, .written⟩ := if_pos htargets
          rw [hwritten] at hnext
          exact hnext
        · exact (hcommitted k).trans hrow
    · obtain ⟨phase, hfollow, hholds⟩ := inv.locks call' r' k stamp hlook'' htoken
      exact ⟨phase, hfollow, hholds.kept (Table.heldBy_exec hexec k heq) (hcommitted k) rfl⟩

/-- A commit puts no row under a used stamp, since what it writes has a new one. -/
theorem stamp_ne_of_commit (inv : tokens.LockInv s) {k : κ} {stamp : Nat} {row : ρ}
    (hused : tokens.unused s k stamp = false)
    (hother : ∀ row, (Table.slot s.table k).heldBy call = false →
      Table.committed s.table k = some row → tokens.stamp row ≠ stamp)
    (hrow : Table.committed (Table.commit s.table call) k = some row) :
    tokens.stamp row ≠ stamp := by
  rw [Table.committed_commit] at hrow
  by_cases hheld : (Table.slot s.table k).heldBy call = true
  · obtain ⟨version, hpending⟩ := Slot.heldBy_iff.mp hheld
    rw [Table.view, Slot.view, hpending] at hrow
    obtain rfl : version = some row := (if_pos rfl).symm.trans hrow
    have hnew := inv.unused_of_pending hpending
    rintro rfl
    rw [hnew] at hused
    cases hused
  · have hfree := eq_false_of_ne_true hheld
    rw [Table.view_of_not_heldBy hfree] at hrow
    exact hother row hfree hrow

/-- A win after a commit is an old one, or that of the call whose write is committed. -/
theorem won_commit {next : Program κ ρ ω ε Unit} (inv : tokens.LockInv s)
    (hlook : s.inFlight.lookup call = some r) {call' : CallId} {k : κ} {stamp : Nat}
    (h : tokens.Won (Schema.advance (Schema.commitCall s call) call r next) call' k stamp) :
    tokens.Won s call' k stamp ∨ call' = call ∧ (Table.slot s.table k).heldBy call = true ∧
      ∃ row, Table.committed s.table k = some row ∧ tokens.stamp row = stamp := by
  obtain ⟨request, version, hmade, htoken, hentry⟩ := h
  have hmade' : Made s call' request := made_advance hlook rfl rfl rfl hmade
  obtain hold | ⟨rfl, hpending⟩ := Schema.mem_history_commit.mp hentry
  · exact .inl ⟨request, version, hmade', htoken, hold⟩
  · have hheld := Slot.heldBy_iff.mpr ⟨version, hpending⟩
    obtain ⟨r', hlook', rfl⟩ | ⟨result, hresult⟩ := hmade'
    · obtain rfl : r = r' := Option.some.inj (hlook.symm.trans hlook')
      obtain ⟨phase, -, hholds⟩ := inv.locks call' r k stamp hlook htoken
      cases phase with
      | unwritten => cases hheld.symm.trans hholds.1
      | written => exact .inr ⟨rfl, hheld, hholds.2⟩
      | committed => cases hheld.symm.trans hholds.1
    · rw [(inv.flights call' r hlook).2] at hresult
      cases hresult

/-- A call commits. -/
theorem commit {next : Program κ ρ ω ε Unit} (inv : tokens.LockInv s)
    (hlook : s.inFlight.lookup call = some r) (hp : r.program = .commit next)
    (hstamps : Stamps.StampInv tokens.toStamps
      (Schema.advance (Schema.commitCall s call) call r next)) :
    tokens.LockInv (Schema.advance (Schema.commitCall s call) call r next) := by
  have hused : ∀ k stamp, tokens.unused s k stamp = false →
      tokens.unused (Schema.advance (Schema.commitCall s call) call r next) k stamp = false := by
    intro k stamp h
    obtain ⟨call', row, hrow, hstamp⟩ := used_iff.mp h
    exact used_iff.mpr ⟨call', row, Schema.mem_history_commit.mpr (.inl hrow), hstamp⟩
  refine { toStampInv := hstamps, spent := fun call' k stamp h => ?_,
           one := fun call₁ call₂ k stamp h₁ h₂ => ?_,
           locks := fun call' r' k stamp hlook' htoken => ?_,
           done := fun call' request k stamp hresult htoken => ?_ }
  · obtain hold | ⟨rfl, hheld, row, hrow, rfl⟩ := inv.won_commit hlook h
    · have hspent := inv.spent call' k stamp hold
      exact ⟨hused k stamp hspent.used,
        fun row => inv.stamp_ne_of_commit hspent.used fun row _ => hspent.gone row⟩
    · obtain ⟨call₁, hentry⟩ := inv.committed k row hrow
      have hbefore : tokens.unused s k (tokens.stamp row) = false :=
        used_iff.mpr ⟨call₁, row, hentry, rfl⟩
      refine ⟨hused k _ hbefore, fun row' => inv.stamp_ne_of_commit hbefore fun row' hfree => ?_⟩
      rw [hheld] at hfree
      cases hfree
  · obtain hold₁ | ⟨rfl, -, row, hrow, hstamp⟩ := inv.won_commit hlook h₁
    · obtain hold₂ | ⟨rfl, -, row, hrow, hstamp⟩ := inv.won_commit hlook h₂
      · exact inv.one call₁ call₂ k stamp hold₁ hold₂
      · exact absurd hstamp ((inv.spent call₁ k stamp hold₁).gone row hrow)
    · obtain hold₂ | ⟨rfl, -⟩ := inv.won_commit hlook h₂
      · exact absurd hstamp ((inv.spent call₂ k stamp hold₂).gone row hrow)
      · rfl
  · have hlook'' : (s.inFlight.insert call _).lookup call' = some r' := hlook'
    rw [FiniteMap.lookup_insert_ite] at hlook''
    split_ifs at hlook'' with heq
    · cases hlook''
      subst heq
      obtain ⟨phase, hfollow, hholds⟩ := inv.locks call' r k stamp hlook htoken
      rw [hp] at hfollow
      refine ⟨_, ?_, (hholds.commit_self r.reads).kept rfl rfl rfl⟩
      cases phase <;> exact hfollow
    · obtain ⟨phase, hfollow, hholds⟩ := inv.locks call' r' k stamp hlook'' htoken
      exact ⟨phase, hfollow, (hholds.commit_of_ne heq).kept rfl rfl rfl⟩
  · obtain ⟨version, hentry⟩ := inv.done call' request k stamp hresult htoken
    exact ⟨version, Schema.mem_history_commit.mpr (.inl hentry)⟩

/-- A call ends, and what it has not committed is rolled back. -/
theorem ends (inv : tokens.LockInv s) {s' : Server δ κ ρ ω ε}
    (hstamps : Stamps.StampInv tokens.toStamps s')
    (htable : s'.table = Table.rollback s.table call) (hhistory : s'.history = s.history)
    (hflights : s'.inFlight = s.inFlight.erase call)
    (hmade : ∀ call request, Made s' call request → Made s call request)
    (hresults : ∀ call' request k stamp, s'.results.lookup call' = some (request, .ok ()) →
      tokens.token request = some (k, stamp) → ∃ version, (call', k, version) ∈ s.history) :
    tokens.LockInv s' := by
  have hcommitted : ∀ k, Table.committed s'.table k = Table.committed s.table k := fun k => by
    rw [htable, Table.committed_rollback]
  have hunused : ∀ k stamp, tokens.unused s' k stamp = tokens.unused s k stamp := fun k stamp => by
    rw [unused, hhistory, unused]
  have hback : ∀ call' k stamp, tokens.Won s' call' k stamp → tokens.Won s call' k stamp :=
    fun call' k stamp h => h.back hhistory fun call request _ => hmade call request
  refine { toStampInv := hstamps, spent := fun call' k stamp h => ?_,
           one := fun call₁ call₂ k stamp h₁ h₂ => ?_,
           locks := fun call' r k stamp hlook htoken => ?_,
           done := fun call' request k stamp hresult htoken => ?_ }
  · have hspent := inv.spent call' k stamp (hback call' k stamp h)
    exact ⟨(hunused k stamp).trans hspent.used,
      fun row hrow => hspent.gone row ((hcommitted k).symm.trans hrow)⟩
  · exact inv.one call₁ call₂ k stamp (hback _ _ _ h₁) (hback _ _ _ h₂)
  · rw [hflights, FiniteMap.lookup_erase_ite] at hlook
    split_ifs at hlook with heq
    obtain ⟨phase, hfollow, hholds⟩ := inv.locks call' r k stamp hlook htoken
    refine ⟨phase, hfollow, hholds.kept ?_ (hcommitted k) hhistory⟩
    rw [htable, Table.slot_rollback, Slot.heldBy_rollback_of_ne heq]
  · rw [hhistory]
    exact hresults call' request k stamp hresult htoken

theorem finish {result : Except ε Unit} (inv : tokens.LockInv s)
    (hlook : s.inFlight.lookup call = some r)
    (hstamps : Stamps.StampInv tokens.toStamps (Schema.finish s call r.request result))
    (hdone : result = .ok () → r.program = .done result) :
    tokens.LockInv (Schema.finish s call r.request result) := by
  refine inv.ends hstamps rfl rfl rfl (fun _ _ => made_finish hlook)
    fun call' request k stamp hresult htoken => ?_
  have hresult' : (s.results.insert call (r.request, result)).lookup call' = some (request, .ok ()) :=
    hresult
  rw [FiniteMap.lookup_insert_ite] at hresult'
  split_ifs at hresult' with heq
  · cases hresult'
    obtain ⟨phase, hfollow, hholds⟩ := inv.locks call r k stamp hlook htoken
    rw [hdone rfl] at hfollow
    obtain rfl : phase = .committed := hfollow
    exact heq ▸ hholds.2
  · exact inv.done call' request k stamp hresult' htoken

theorem arrived (inv : tokens.LockInv s) (hdisciplined : tokens.Disciplined schema) {request : δ}
    (hstamps : Stamps.StampInv tokens.toStamps (Schema.arrived schema s request)) :
    tokens.LockInv (Schema.arrived schema s request) := by
  have hback : ∀ call' k stamp, tokens.Won (Schema.arrived schema s request) call' k stamp →
      tokens.Won s call' k stamp := by
    refine fun call' k stamp h => h.back rfl fun call'' request' ⟨version, hentry⟩ hmade => ?_
    obtain ⟨r, hlook, hsame⟩ | ⟨result, hresult⟩ := hmade
    · have hlook' : (s.inFlight.insert s.calls _).lookup call'' = some r := hlook
      rw [FiniteMap.lookup_insert_ite] at hlook'
      split_ifs at hlook' with heq
      · exact absurd (inv.logged _ hentry) (heq ▸ lt_irrefl _)
      · exact .inl ⟨r, hlook', hsame⟩
    · exact .inr ⟨result, hresult⟩
  refine { toStampInv := hstamps, spent := fun call' k stamp h => ?_,
           one := fun call₁ call₂ k stamp h₁ h₂ => ?_,
           locks := fun call' r k stamp hlook htoken => ?_, done := inv.done }
  · have hspent := inv.spent call' k stamp (hback call' k stamp h)
    exact ⟨hspent.used, hspent.gone⟩
  · exact inv.one call₁ call₂ k stamp (hback _ _ _ h₁) (hback _ _ _ h₂)
  · have hlook' : (s.inFlight.insert s.calls _).lookup call' = some r := hlook
    rw [FiniteMap.lookup_insert_ite] at hlook'
    split_ifs at hlook' with heq
    · cases hlook'
      refine ⟨.unwritten, hdisciplined.locks request k stamp htoken, ?_,
        fun reading hmem => absurd hmem List.not_mem_nil⟩
      -- a call that has just arrived holds no lock
      apply eq_false_of_ne_true
      intro hheld
      obtain ⟨version, hpending⟩ := Slot.heldBy_iff.mp hheld
      have hsome := inv.held k call' version hpending
      rw [heq, Option.isSome_iff_exists] at hsome
      obtain ⟨r', hr'⟩ := hsome
      exact absurd (inv.flights _ r' hr').1 (lt_irrefl _)
    · obtain ⟨phase, hfollow, hholds⟩ := inv.locks call' r k stamp hlook' htoken
      exact ⟨phase, hfollow, hholds.kept rfl rfl rfl⟩

/-- **Step lemma**. -/
theorem next {e : ServerEvent δ} (inv : tokens.LockInv s) (hdisciplined : tokens.Disciplined schema)
    (htimely : tokens.Timely s e = true) (hnext : schema.next s e = some s') :
    tokens.LockInv s' := by
  have hstamps := inv.toStampInv.next hdisciplined.stamps (apart_of_timely htimely) hnext
  obtain ⟨request, -, rfl⟩ | ⟨call, r, hlook, hturn⟩ := Schema.next_cases hnext
  · exact inv.arrived hdisciplined hstamps
  · cases hturn with
    | done hp => exact inv.finish hlook hstamps fun _ => hp
    | failed => exact inv.finish hlook hstamps fun h => nomatch h
    | select hp =>
      refine inv.advance hlook rfl hstamps fun k stamp phase hfollow hholds => ?_
      rw [hp] at hfollow
      refine ⟨hfollow _, ?_⟩
      cases phase with
      | unwritten =>
        refine ⟨hholds.1, fun reading hmem => ?_⟩
        obtain rfl | hold := List.mem_cons.mp hmem
        · refine ⟨le_rfl, fun _ => ?_⟩
          show _ = (Table.snapshot s.table call).lookup k
          rw [Table.lookup_snapshot, Table.view_of_not_heldBy hholds.1]
        · exact hholds.2 reading hold
      | written | committed => exact hholds
    | clock now hp =>
      refine inv.advance hlook rfl hstamps fun k stamp phase hfollow hholds => ?_
      rw [hp] at hfollow
      exact ⟨hfollow now, hholds⟩
    | ask reply hp =>
      refine inv.advance hlook rfl hstamps fun k stamp phase hfollow hholds => ?_
      rw [hp] at hfollow
      exact ⟨hfollow reply, hholds⟩
    | exec hp hexec =>
      simp only [Timely, hlook, Option.all_some, hp] at htimely
      exact inv.exec hlook hp hexec htimely hstamps
    | commit hp => exact inv.commit hlook hp hstamps
    | dropped =>
      refine inv.ends hstamps rfl rfl rfl (fun call' request hmade => ?_) inv.done
      obtain ⟨r', hlook', hsame⟩ | hresult := hmade
      · have hlook'' : (s.inFlight.erase call).lookup call' = some r' := hlook'
        rw [FiniteMap.lookup_erase_ite] at hlook''
        split_ifs at hlook''
        exact .inl ⟨r', hlook'', hsame⟩
      · exact .inr hresult

end LockInv

-- ════════════════════════════════════════════════════════════════════════
-- Runs
-- ════════════════════════════════════════════════════════════════════════

/-- The guard of the runs below. -/
abbrev Guard (tokens : Tokens δ κ ρ) (s : Server δ κ ρ ω ε) (e : ServerEvent δ) : Prop :=
  tokens.Timely s e = true

theorem lockInv_init : tokens.LockInv (Schema.init : Server δ κ ρ ω ε) := by
  refine { toStampInv := Stamps.stampInv_init, spent := fun call k stamp h => ?_,
           one := fun call₁ call₂ k stamp h => ?_, locks := fun call r k stamp hlook => ?_,
           done := fun call request k stamp hresult => ?_ }
  · obtain ⟨request, version, -, -, hmem⟩ := h
    cases hmem
  · obtain ⟨request, version, -, -, hmem⟩ := h
    cases hmem
  · cases hlook
  · cases hresult

theorem lockInv_of_reachable (hdisciplined : tokens.Disciplined schema)
    (hreach : schema.machine.ReachableUnder tokens.Guard s) : tokens.LockInv s :=
  hreach.invariant (fun _ hstart => hstart ▸ lockInv_init) fun _ _ _ inv htimely hnext =>
    inv.next hdisciplined htimely hnext

/-- **One success**: of the requests with one token at most one succeeds. -/
theorem one_success (hdisciplined : tokens.Disciplined schema)
    (hreach : schema.machine.ReachableUnder tokens.Guard s) {call call' : CallId}
    {request request' : δ} {k : κ} {stamp : Nat}
    (hresult : s.results.lookup call = some (request, .ok ()))
    (hresult' : s.results.lookup call' = some (request', .ok ()))
    (htoken : tokens.token request = some (k, stamp))
    (htoken' : tokens.token request' = some (k, stamp)) : call = call' := by
  have inv := lockInv_of_reachable hdisciplined hreach
  obtain ⟨version, hmem⟩ := inv.done call request k stamp hresult htoken
  obtain ⟨version', hmem'⟩ := inv.done call' request' k stamp hresult' htoken'
  exact inv.one call call' k stamp ⟨request, version, .inr ⟨_, hresult⟩, htoken, hmem⟩
    ⟨request', version', .inr ⟨_, hresult'⟩, htoken', hmem'⟩

/-- What has been committed stays in the history. -/
theorem history_of_run {C : Server δ κ ρ ω ε → ServerEvent δ → Prop}
    (hrun : schema.machine.RunUnder C s s') {entry : CallId × κ × Option ρ} (h : entry ∈ s.history) :
    entry ∈ s'.history := by
  refine hrun.preserves (P := fun t => entry ∈ t.history) (fun t e t' hmem _ hnext => ?_) h
  obtain ⟨request, -, rfl⟩ | ⟨call, r, -, hturn⟩ := Schema.next_cases hnext
  · exact hmem
  · cases hturn with
    | commit => exact List.mem_append_left _ hmem
    | _ => exact hmem

/-- **Fresh stamps**: a version that is to be committed has a stamp that no earlier
    version of its row had. -/
theorem fresh_stamp (hdisciplined : tokens.Disciplined schema) {s₀ : Server δ κ ρ ω ε}
    (hreach : schema.machine.ReachableUnder tokens.Guard s₀)
    (hrun : schema.machine.RunUnder tokens.Guard s₀ s) {k : κ} {row row' : ρ}
    (hrow : Table.committed s₀.table k = some row)
    (hpending : (Table.slot s.table k).pending = some (call, some row')) :
    tokens.stamp row' ≠ tokens.stamp row := by
  obtain ⟨call', hentry⟩ := (lockInv_of_reachable hdisciplined hreach).committed k row hrow
  have inv := lockInv_of_reachable hdisciplined (hreach.trans hrun)
  exact (inv.stamp_ne hpending (history_of_run hrun hentry)).symm

end Tokens

end Botwork.Foundations
