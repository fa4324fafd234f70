import Botwork.Foundations.ReadCommitted
import Botwork.Foundations.Transition

/-!
# Programs of statements

Request handlers as programs of SQL statements, any number of which run at once
on one table under READ COMMITTED.  A program reads what it needs and goes on
with what it has read; between any two of its statements other programs run.
What a program does with what it has read is stated by a `Protocol`, whose rule
for sequential composition carries it over from the parts of a handler.

## Main definitions

- `Statement`, `Program` — statements that write, and programs
- `Table.exec` — one statement, which may wait or be refused
- `Server`, `Schema.machine` — the programs under way, and one step
- `Protocol`, `Program.Follows` — a discipline of programs
-/

namespace Botwork.Foundations

-- ════════════════════════════════════════════════════════════════════════
-- Programs
-- ════════════════════════════════════════════════════════════════════════

/-- A statement that writes.  An insertion is given a fresh id; an update sets
    columns of the row as it stands; a deletion takes further rows with it. -/
inductive Statement (κ ρ : Type) where
  | insert (new : Nat → κ × ρ)
  | update (k : κ) (set : ρ → ρ)
  | delete (k : κ) (cascades : κ → ρ → Bool)

/-- A handler from here on, with the questions `ω` it asks of other services.  A
    program that ends without a commit is rolled back. -/
inductive Program (κ ρ ω ε α : Type) where
  | done (result : Except ε α)
  | select (next : FiniteMap κ ρ → Program κ ρ ω ε α)
  /-- the clock -/
  | clock (next : Nat → Program κ ρ ω ε α)
  /-- a call of another service, which answers with an error or nothing -/
  | ask (question : ω) (next : Option String → Program κ ρ ω ε α)
  | exec (statement : Statement κ ρ) (next : Nat → Program κ ρ ω ε α)
  | commit (next : Program κ ρ ω ε α)

namespace Program

variable {κ ρ ω ε α β : Type}

protected def bind (p : Program κ ρ ω ε α) (f : α → Program κ ρ ω ε β) : Program κ ρ ω ε β :=
  match p with
  | .done (.ok a) => f a
  | .done (.error err) => .done (.error err)
  | .select next => .select fun rows => (next rows).bind f
  | .clock next => .clock fun now => (next now).bind f
  | .ask question next => .ask question fun reply => (next reply).bind f
  | .exec statement next => .exec statement fun id => (next id).bind f
  | .commit next => .commit (next.bind f)

instance : Monad (Program κ ρ ω ε) where
  pure a := .done (.ok a)
  bind := Program.bind

/-- What a pure check returns. -/
def check (result : Except ε α) : Program κ ρ ω ε α := .done result

def rows : Program κ ρ ω ε (FiniteMap κ ρ) := .select fun rows => .done (.ok rows)

def now : Program κ ρ ω ε Nat := .clock fun now => .done (.ok now)

def reply (question : ω) : Program κ ρ ω ε (Option String) :=
  .ask question fun reply => .done (.ok reply)

/-- A statement, and the id it was given. -/
def run (statement : Statement κ ρ) : Program κ ρ ω ε Nat :=
  .exec statement fun id => .done (.ok id)

def commitWork : Program κ ρ ω ε Unit := .commit (.done (.ok ()))

end Program

-- ════════════════════════════════════════════════════════════════════════
-- Disciplines
-- ════════════════════════════════════════════════════════════════════════

/-- What a program may do, by a state `γ` of its past: which statements, and what
    each operation makes of the state. -/
structure Protocol (κ ρ γ : Type) where
  select : γ → FiniteMap κ ρ → γ
  clock : γ → Nat → γ
  allowed : γ → Statement κ ρ → Prop
  exec : γ → Statement κ ρ → γ
  commit : γ → γ

/-- The program keeps to the protocol from this state on, and returns values that
    satisfy `post`. -/
def Program.Follows {κ ρ ω ε α γ : Type} (π : Protocol κ ρ γ) (post : γ → α → Prop) (g : γ) :
    Program κ ρ ω ε α → Prop
  | .done (.ok a) => post g a
  | .done (.error _) => True
  | .select next => ∀ rows, (next rows).Follows π post (π.select g rows)
  | .clock next => ∀ now, (next now).Follows π post (π.clock g now)
  | .ask _ next => ∀ reply, (next reply).Follows π post g
  | .exec statement next => π.allowed g statement ∧
      ∀ id, (next id).Follows π post (π.exec g statement)
  | .commit next => next.Follows π post (π.commit g)

namespace Program

variable {κ ρ ω ε α β γ : Type} {π : Protocol κ ρ γ} {post : γ → α → Prop} {g : γ}

/-- **Rule of composition**. -/
@[simp]
theorem follows_bind {post : γ → β → Prop} {p : Program κ ρ ω ε α} {f : α → Program κ ρ ω ε β} :
    (p >>= f).Follows π post g ↔ p.Follows π (fun g a => (f a).Follows π post g) g := by
  show (p.bind f).Follows π post g ↔ _
  induction p generalizing g with
  | done result => cases result <;> exact Iff.rfl
  | select next ih => exact forall_congr' fun rows => ih rows
  | clock next ih => exact forall_congr' fun now => ih now
  | ask question next ih => exact forall_congr' fun reply => ih reply
  | exec statement next ih => exact and_congr_right fun _ => forall_congr' fun id => ih id
  | commit next ih => exact ih

@[simp]
theorem follows_pure {a : α} : (pure a : Program κ ρ ω ε α).Follows π post g ↔ post g a := Iff.rfl

@[simp]
theorem follows_error {err : ε} : (done (.error err) : Program κ ρ ω ε α).Follows π post g ↔ True :=
  Iff.rfl

@[simp]
theorem follows_check {result : Except ε α} :
    (check result : Program κ ρ ω ε α).Follows π post g ↔ ∀ a, result = .ok a → post g a := by
  cases result with
  | error err => simp [check]
  | ok a => simp [check, Follows]

@[simp]
theorem follows_rows {post : γ → FiniteMap κ ρ → Prop} :
    (rows : Program κ ρ ω ε _).Follows π post g ↔ ∀ seen, post (π.select g seen) seen := Iff.rfl

@[simp]
theorem follows_now {post : γ → Nat → Prop} :
    (now : Program κ ρ ω ε _).Follows π post g ↔ ∀ time, post (π.clock g time) time := Iff.rfl

@[simp]
theorem follows_reply {post : γ → Option String → Prop} {question : ω} :
    (reply question : Program κ ρ ω ε _).Follows π post g ↔ ∀ answer, post g answer := Iff.rfl

@[simp]
theorem follows_run {post : γ → Nat → Prop} {statement : Statement κ ρ} :
    (run statement : Program κ ρ ω ε _).Follows π post g ↔
      π.allowed g statement ∧ ∀ id, post (π.exec g statement) id := Iff.rfl

@[simp]
theorem follows_commitWork {post : γ → Unit → Prop} :
    (commitWork : Program κ ρ ω ε _).Follows π post g ↔ post (π.commit g) () := Iff.rfl

/-- A program that ends well has kept to weaker postconditions too. -/
theorem Follows.mono {post' : γ → α → Prop} {p : Program κ ρ ω ε α} (h : p.Follows π post g)
    (hpost : ∀ g a, post g a → post' g a) : p.Follows π post' g := by
  induction p generalizing g with
  | done result =>
    cases result with
    | error err => trivial
    | ok a => exact hpost g a h
  | select next ih => exact fun rows => ih rows (h rows)
  | clock next ih => exact fun now => ih now (h now)
  | ask question next ih => exact fun reply => ih reply (h reply)
  | exec statement next ih => exact ⟨h.1, fun id => ih id (h.2 id)⟩
  | commit next ih => exact ih h

end Program

-- ════════════════════════════════════════════════════════════════════════
-- Statements
-- ════════════════════════════════════════════════════════════════════════

/-- What a statement of a transaction that sees `view` writes under a key. -/
inductive Statement.Writes {κ ρ : Type} (id : Nat) (view : κ → Option ρ) :
    Statement κ ρ → κ → Option ρ → Prop
  | insert {new : Nat → κ × ρ} (h : view (new id).1 = none) :
    Writes id view (.insert new) (new id).1 (some (new id).2)
  | update {k : κ} {set : ρ → ρ} {row : ρ} (h : view k = some row) :
    Writes id view (.update k set) k (some (set row))
  | delete {k k' : κ} {cascades : κ → ρ → Bool} {row : ρ} (h : view k' = some row)
      (hk : k' = k ∨ cascades k' row = true) : Writes id view (.delete k cascades) k' none

/-- A statement writes one row, whatever it deletes. -/
theorem Statement.Writes.unique {κ ρ : Type} {id : Nat} {view : κ → Option ρ} {statement : Statement κ ρ}
    {k k' : κ} {row row' : ρ} (h : statement.Writes id view k (some row))
    (h' : statement.Writes id view k' (some row')) : k = k' ∧ row = row' := by
  cases h with
  | insert => cases h'; exact ⟨rfl, rfl⟩
  | update hview =>
    cases h' with
    | update hview' =>
      cases hview.symm.trans hview'
      exact ⟨rfl, rfl⟩

namespace Table

variable {κ ρ : Type} [DecidableEq κ]

/-- A row that another transaction is writing would clash with this one. -/
def contested (clash : ρ → ρ → Bool) (table : Table CallId κ ρ) (t : CallId) (k : κ) (row : ρ) :
    Bool :=
  table.entries.any fun e => e.1 ≠ k && e.2.lockedFor t &&
    (e.2.committed.any (clash row) || e.2.pending.any fun p => p.2.any (clash row))

/-- A row is written under the unique indexes: `none` while the statement waits,
    `some none` when it is refused. -/
def writeRow (clash : ρ → ρ → Bool) (table : Table CallId κ ρ) (t : CallId) (k : κ) (row : ρ) :
    Option (Option (Table CallId κ ρ)) :=
  match write table t k (some row) with
  | none => none
  | some table' =>
    if contested clash table t k row then none
    else if any table t (fun k' row' => k' ≠ k && clash row row') then some none
    else some (some table')

/-- The rows under the keys are deleted. -/
def deleteAll (table : Table CallId κ ρ) (t : CallId) : List κ → Option (Table CallId κ ρ)
  | [] => some table
  | k :: ks => (write table t k none).bind fun table' => deleteAll table' t ks

/-- One statement: `none` while it waits, `some none` when it is refused.  `clash`
    holds of rows that a unique index keeps apart, and `id` is fresh.  An update by
    key that finds no row is refused, a deletion is not. -/
def exec (clash : ρ → ρ → Bool) (table : Table CallId κ ρ) (t : CallId) (id : Nat) :
    Statement κ ρ → Option (Option (Table CallId κ ρ))
  | .insert new =>
    let (k, row) := new id
    if (view table t k).isSome then some none else writeRow clash table t k row
  | .update k set =>
    match view table t k with
    | none => some none
    | some row => writeRow clash table t k (set row)
  | .delete k cascades =>
    match view table t k with
    | none => some (some table)
    | some _ =>
      let taken := (snapshot table t).retain cascades
      (deleteAll table t (k :: taken.entries.map (·.1))).map some

/-- The versions that a transaction has written. -/
def writes (table : Table CallId κ ρ) (t : CallId) : List (κ × Option ρ) :=
  table.entries.filterMap fun e => if e.2.heldBy t then some (e.1, e.2.view t) else none

variable {clash : ρ → ρ → Bool} {table table' : Table CallId κ ρ} {t : CallId} {id : Nat} {k k' : κ}
  {row : ρ} {version : Option ρ} {statement : Statement κ ρ}

theorem mem_writes : (k, version) ∈ writes table t ↔ (slot table k).pending = some (t, version) := by
  simp only [writes, List.mem_filterMap]
  constructor
  · rintro ⟨⟨k', s⟩, hmem, heq⟩
    have hlook := (FiniteMap.lookup_eq_some_iff table k' s).mpr hmem
    split at heq
    next hheld =>
      cases heq
      obtain ⟨version, hpending⟩ := Slot.heldBy_iff.mp hheld
      rw [slot_of_lookup hlook, hpending, Slot.view, hpending]
      simp
    next => cases heq
  · intro hpending
    cases hlook : table.lookup k with
    | none =>
      rw [slot, hlook] at hpending
      cases hpending
    | some s =>
      rw [slot_of_lookup hlook] at hpending
      refine ⟨⟨k, s⟩, (FiniteMap.lookup_eq_some_iff table k s).mp hlook, ?_⟩
      rw [if_pos (Slot.heldBy_iff.mpr ⟨version, hpending⟩), Slot.view, hpending]
      simp

theorem writeRow_eq_some (h : writeRow clash table t k row = some (some table')) :
    write table t k (some row) = some table' := by
  unfold writeRow at h
  split at h
  next => cases h
  next hwrite =>
    split_ifs at h
    · cases h
    · rw [hwrite]
      exact Option.some.inj h

theorem deleteAll_eq_some {ks : List κ} (h : deleteAll table t ks = some table') (k : κ) :
    if k ∈ ks then (slot table k).lockedFor t = false ∧
      slot table' k = ⟨committed table k, some (t, none)⟩
    else slot table' k = slot table k := by
  induction ks generalizing table with
  | nil =>
    cases h
    simp
  | cons k' ks ih =>
    obtain ⟨table₁, hwrite, hrest⟩ := Option.bind_eq_some_iff.mp h
    obtain ⟨hfree, hslot⟩ := write_eq_some hwrite
    have hrest := ih hrest
    by_cases hk : k = k'
    · subst hk
      rw [if_pos List.mem_cons_self]
      refine ⟨hfree, ?_⟩
      split_ifs at hrest with hmem
      · rw [hrest.2, committed_write hwrite]
      · rw [hrest, hslot k, if_pos rfl]
    · have hsame : slot table₁ k = slot table k := (hslot k).trans (if_neg hk)
      rw [hsame, committed, hsame] at hrest
      by_cases hmem : k ∈ ks
      · rw [if_pos hmem] at hrest
        rw [if_pos (List.mem_cons_of_mem _ hmem)]
        exact hrest
      · rw [if_neg hmem] at hrest
        rw [if_neg (by simp [hk, hmem])]
        exact hrest

/-- **Spec of a statement**. -/
theorem exec_eq_some (h : exec clash table t id statement = some (some table')) (k : κ) :
    slot table' k = slot table k ∨ ∃ version, statement.Writes id (view table t) k version ∧
      (slot table k).lockedFor t = false ∧ slot table' k = ⟨committed table k, some (t, version)⟩ := by
  have hwritten : ∀ {k' : κ} {row : ρ}, writeRow clash table t k' row = some (some table') →
      statement.Writes id (view table t) k' (some row) →
      slot table' k = slot table k ∨ ∃ version, statement.Writes id (view table t) k version ∧
        (slot table k).lockedFor t = false ∧
          slot table' k = ⟨committed table k, some (t, version)⟩ := by
    intro k' row hwrite hwrites
    obtain ⟨hfree, hslot⟩ := write_eq_some (writeRow_eq_some hwrite)
    rw [hslot k]
    by_cases hk : k = k'
    · subst hk
      exact .inr ⟨some row, hwrites, hfree, if_pos rfl⟩
    · exact .inl (if_neg hk)
  cases statement with
  | insert new =>
    simp only [exec] at h
    split_ifs at h with hfree
    · cases h
    · exact hwritten h (.insert (Option.not_isSome_iff_eq_none.mp hfree))
  | update k' set =>
    simp only [exec] at h
    split at h
    next => cases h
    next row hview => exact hwritten h (.update hview)
  | delete k' cascades =>
    simp only [exec] at h
    split at h
    next => cases h; exact .inl rfl
    next row hview =>
      obtain ⟨table'', hdelete, heq⟩ := Option.map_eq_some_iff.mp h
      cases heq
      have hslot := deleteAll_eq_some hdelete k
      split_ifs at hslot with hmem
      · refine .inr ⟨none, ?_, hslot⟩
        obtain rfl | hmem := List.mem_cons.mp hmem
        · exact .delete hview (.inl rfl)
        · obtain ⟨⟨k₁, row₁⟩, hrow₁, rfl⟩ := List.mem_map.mp hmem
          obtain ⟨hlook, hcascades⟩ := (FiniteMap.lookup_retain_eq_some cascades _ k₁ row₁).mp
            ((FiniteMap.lookup_eq_some_iff _ k₁ row₁).mpr hrow₁)
          rw [lookup_snapshot] at hlook
          exact .delete hlook (.inr hcascades)
      · exact .inl hslot

/-- A statement commits nothing. -/
theorem committed_exec (h : exec clash table t id statement = some (some table')) (k : κ) :
    committed table' k = committed table k := by
  rw [committed]
  obtain hsame | ⟨version, -, -, hnew⟩ := exec_eq_some h k
  · rw [hsame, committed]
  · rw [hnew]

/-- A statement takes no lock from another call, and none for it. -/
theorem heldBy_exec (h : exec clash table t id statement = some (some table')) (k : κ)
    {t' : CallId} (hne : t' ≠ t) : (slot table' k).heldBy t' = (slot table k).heldBy t' := by
  obtain hsame | ⟨version, -, hfree, hnew⟩ := exec_eq_some h k
  · rw [hsame]
  · rw [hnew, Slot.not_heldBy_of_free hfree hne]
    exact Slot.heldBy_of_ne (Slot.heldBy_iff.mpr ⟨version, rfl⟩) hne

end Table

-- ════════════════════════════════════════════════════════════════════════
-- The server
-- ════════════════════════════════════════════════════════════════════════

/-- What a SELECT has read, and how many writes had been committed by then. -/
structure Reading (κ ρ : Type) where
  rows : FiniteMap κ ρ
  since : Nat

/-- A request under way, with its SELECTs, the last one first.  Nothing in a program
    reads `selects`. -/
structure Running (δ κ ρ ω ε : Type) where
  request : δ
  selects : List (Reading κ ρ)
  program : Program κ ρ ω ε Unit

/-- What the SELECTs of the request have read. -/
def Running.reads {δ κ ρ ω ε : Type} (r : Running δ κ ρ ω ε) : List (FiniteMap κ ρ) :=
  r.selects.map Reading.rows

/-- The table and the requests.  Nothing in a program reads the last two fields: the
    writes that have been committed, and the readings of the clock, each with the
    call that made it. -/
structure Server (δ κ ρ ω ε : Type) where
  table : Table CallId κ ρ
  ids : Nat
  calls : Nat
  inFlight : FiniteMap CallId (Running δ κ ρ ω ε)
  results : FiniteMap CallId (δ × Except ε Unit)
  history : List (CallId × κ × Option ρ)
  readings : List (CallId × Nat)

/-- What a step of a program depends on. -/
inductive Input where
  | ok
  | time (now : Nat)
  | reply (reply : Option String)
  deriving DecidableEq

inductive ServerEvent (δ : Type) where
  | arrive (request : δ)
  | run (call : CallId) (input : Input)
  /-- a statement of the call fails -/
  | fail (call : CallId)
  /-- the handler goes away -/
  | drop (call : CallId)

/-- The programs of the requests, the unique indexes, and the error for a failure
    of the database. -/
structure Schema (δ κ ρ ω ε : Type) where
  program : δ → Program κ ρ ω ε Unit
  clash : ρ → ρ → Bool
  failure : ε

namespace Schema

variable {δ κ ρ ω ε : Type} [DecidableEq κ] (schema : Schema δ κ ρ ω ε)

/-- The call ends, and what it has not committed is rolled back. -/
def finish (s : Server δ κ ρ ω ε) (call : CallId) (request : δ) (result : Except ε Unit) :
    Server δ κ ρ ω ε :=
  { s with
    table := Table.rollback s.table call
    inFlight := s.inFlight.erase call
    results := s.results.insert call (request, result) }

def advance (s : Server δ κ ρ ω ε) (call : CallId) (r : Running δ κ ρ ω ε)
    (program : Program κ ρ ω ε Unit) : Server δ κ ρ ω ε :=
  { s with inFlight := s.inFlight.insert call { r with program := program } }

def commitCall (s : Server δ κ ρ ω ε) (call : CallId) : Server δ κ ρ ω ε :=
  { s with
    table := Table.commit s.table call
    history := s.history ++ (Table.writes s.table call).map (call, ·) }

def step (s : Server δ κ ρ ω ε) (call : CallId) (r : Running δ κ ρ ω ε) (input : Input) :
    Option (Server δ κ ρ ω ε) :=
  match r.program, input with
  | .done result, .ok => some (finish s call r.request result)
  | .select next, .ok =>
    let seen := Table.snapshot s.table call
    some (advance s call { r with selects := ⟨seen, s.history.length⟩ :: r.selects } (next seen))
  | .clock next, .time now =>
    some (advance { s with readings := (call, now) :: s.readings } call r (next now))
  | .ask _ next, .reply reply => some (advance s call r (next reply))
  | .exec statement next, .ok =>
    (Table.exec schema.clash s.table call s.ids statement).map fun
      | none => finish s call r.request (.error schema.failure)
      | some table => advance { s with table := table, ids := s.ids + 1 } call r (next s.ids)
  | .commit next, .ok => some (advance (commitCall s call) call r next)
  | _, _ => none

def next (s : Server δ κ ρ ω ε) : ServerEvent δ → Option (Server δ κ ρ ω ε)
  | .arrive request => some { s with
      calls := s.calls + 1
      inFlight := s.inFlight.insert s.calls ⟨request, [], schema.program request⟩ }
  | .run call input => (s.inFlight.lookup call).bind fun r => schema.step s call r input
  | .fail call => (s.inFlight.lookup call).bind fun r =>
      match r.program with
      | .done _ => none
      | _ => some (finish s call r.request (.error schema.failure))
  | .drop call => (s.inFlight.lookup call).map fun _ =>
      { s with table := Table.rollback s.table call, inFlight := s.inFlight.erase call }

def init : Server δ κ ρ ω ε := ⟨∅, 0, 0, ∅, ∅, [], []⟩

def machine : Machine (Server δ κ ρ ω ε) (ServerEvent δ) where
  Start s := s = init
  next := schema.next

-- ════════════════════════════════════════════════════════════════════════
-- Steps
-- ════════════════════════════════════════════════════════════════════════

/-- Where an event of the call leaves the server. -/
inductive Turn (s : Server δ κ ρ ω ε) (call : CallId) (r : Running δ κ ρ ω ε) :
    ServerEvent δ → Server δ κ ρ ω ε → Prop
  | done {e : ServerEvent δ} {result : Except ε Unit} (hp : r.program = .done result) :
    Turn s call r e (finish s call r.request result)
  | select {e : ServerEvent δ} {next : FiniteMap κ ρ → Program κ ρ ω ε Unit}
    (hp : r.program = .select next) :
    Turn s call r e (advance s call
      { r with selects := ⟨Table.snapshot s.table call, s.history.length⟩ :: r.selects }
      (next (Table.snapshot s.table call)))
  | clock {next : Nat → Program κ ρ ω ε Unit} (now : Nat) (hp : r.program = .clock next) :
    Turn s call r (.run call (.time now))
      (advance { s with readings := (call, now) :: s.readings } call r (next now))
  | ask {e : ServerEvent δ} {question : ω} {next : Option String → Program κ ρ ω ε Unit}
    (reply : Option String) (hp : r.program = .ask question next) : Turn s call r e (advance s call r (next reply))
  | exec {statement : Statement κ ρ} {next : Nat → Program κ ρ ω ε Unit}
    {table : Table CallId κ ρ} (hp : r.program = .exec statement next)
    (hexec : Table.exec schema.clash s.table call s.ids statement = some (some table)) :
    Turn s call r (.run call .ok)
      (advance { s with table := table, ids := s.ids + 1 } call r (next s.ids))
  | commit {e : ServerEvent δ} {next : Program κ ρ ω ε Unit} (hp : r.program = .commit next) :
    Turn s call r e (advance (commitCall s call) call r next)
  | failed {e : ServerEvent δ} :
    Turn s call r e (finish s call r.request (.error schema.failure))
  | dropped {e : ServerEvent δ} : Turn s call r e
      { s with table := Table.rollback s.table call, inFlight := s.inFlight.erase call }

variable {schema} {s s' : Server δ κ ρ ω ε} {call : CallId} {r : Running δ κ ρ ω ε}

theorem mem_history_commit {call' : CallId} {k : κ} {version : Option ρ} :
    (call', k, version) ∈ (commitCall s call).history ↔ (call', k, version) ∈ s.history ∨
      call' = call ∧ (Table.slot s.table k).pending = some (call, version) := by
  show (call', k, version) ∈ s.history ++ (Table.writes s.table call).map (call, ·) ↔ _
  rw [List.mem_append, List.mem_map]
  refine or_congr_right ⟨?_, ?_⟩
  · rintro ⟨write, hmem, heq⟩
    cases heq
    exact ⟨rfl, Table.mem_writes.mp hmem⟩
  · rintro ⟨rfl, hpending⟩
    exact ⟨(k, version), Table.mem_writes.mpr hpending, rfl⟩

theorem turn_of_step {input : Input} (h : schema.step s call r input = some s') :
    schema.Turn s call r (.run call input) s' := by
  unfold step at h
  split at h
  next hp => cases h; exact .done hp
  next hp => cases h; exact .select hp
  next hp => cases h; exact .clock _ hp
  next hp => cases h; exact .ask _ hp
  next hp =>
    obtain ⟨outcome, hexec, rfl⟩ := Option.map_eq_some_iff.mp h
    cases outcome with
    | none => exact .failed
    | some table => exact .exec hp hexec
  next hp => cases h; exact .commit hp
  next => cases h

/-- The server after a request has arrived. -/
def arrived (schema : Schema δ κ ρ ω ε) (s : Server δ κ ρ ω ε) (request : δ) : Server δ κ ρ ω ε :=
  { s with
    calls := s.calls + 1
    inFlight := s.inFlight.insert s.calls ⟨request, [], schema.program request⟩ }

/-- **Inversion of a step**. -/
theorem next_cases {e : ServerEvent δ} (h : schema.next s e = some s') :
    (∃ request, e = .arrive request ∧ s' = arrived schema s request) ∨
      ∃ call r, s.inFlight.lookup call = some r ∧ schema.Turn s call r e s' := by
  cases e with
  | arrive request => cases h; exact .inl ⟨request, rfl, rfl⟩
  | run call input =>
    obtain ⟨r, hlook, hstep⟩ := Option.bind_eq_some_iff.mp h
    exact .inr ⟨call, r, hlook, turn_of_step hstep⟩
  | fail call =>
    obtain ⟨r, hlook, hfail⟩ := Option.bind_eq_some_iff.mp h
    split at hfail <;> cases hfail
    exact .inr ⟨call, r, hlook, .failed⟩
  | drop call =>
    obtain ⟨r, hlook, rfl⟩ := Option.map_eq_some_iff.mp h
    exact .inr ⟨call, r, hlook, .dropped⟩

/-- What holds of every server: locks belong to calls under way, a call ends once,
    and every committed row has been committed by some call. -/
structure Sane (s : Server δ κ ρ ω ε) : Prop where
  held : ∀ k call version, (Table.slot s.table k).pending = some (call, version) →
    (s.inFlight.lookup call).isSome = true
  flights : ∀ call r, s.inFlight.lookup call = some r →
    call < s.calls ∧ s.results.lookup call = none
  answered : ∀ call result, s.results.lookup call = some result → call < s.calls
  committed : ∀ k row, Table.committed s.table k = some row → ∃ call, (call, k, some row) ∈ s.history
  logged : ∀ entry ∈ s.history, entry.1 < s.calls

/-- Only the call itself changes the rows it holds, and only a commit makes a
    committed row. -/
theorem Sane.finish (h : Sane s) (hlook : s.inFlight.lookup call = some r) {request : δ}
    {result : Except ε Unit} : Sane (finish s call request result) := by
  refine ⟨fun k call' version hpending => ?_, fun call' r' hlook' => ?_,
    fun call' result' hlook' => ?_, fun k row hrow => ?_, h.logged⟩
  · have hpending' : (Table.slot (Table.rollback s.table call) k).pending = some (call', version) :=
      hpending
    rw [Table.slot_rollback] at hpending'
    obtain ⟨hbefore, hne⟩ := Slot.pending_rollback.mp hpending'
    show ((s.inFlight.erase call).lookup call').isSome = true
    rw [FiniteMap.lookup_erase_ite, if_neg hne]
    exact h.held k call' version hbefore
  · have hlook'' : (s.inFlight.erase call).lookup call' = some r' := hlook'
    rw [FiniteMap.lookup_erase_ite] at hlook''
    split at hlook''
    next => cases hlook''
    next hne =>
      obtain ⟨hlt, hnone⟩ := h.flights call' r' hlook''
      refine ⟨hlt, ?_⟩
      show (s.results.insert call (request, result)).lookup call' = none
      rw [FiniteMap.lookup_insert_ite, if_neg hne]
      exact hnone
  · have hlook'' : (s.results.insert call (request, result)).lookup call' = some result' := hlook'
    rw [FiniteMap.lookup_insert_ite] at hlook''
    split at hlook''
    next heq => exact heq ▸ (h.flights call r hlook).1
    next => exact h.answered call' result' hlook''
  · exact h.committed k row (Table.committed_rollback.symm.trans hrow)

/-- A call goes on, with a table in which it alone has taken locks. -/
theorem Sane.advance {table : Table CallId κ ρ} {ids : Nat} {history : List (CallId × κ × Option ρ)}
    {readings : List (CallId × Nat)} (h : Sane s) (hlook : s.inFlight.lookup call = some r) (r' : Running δ κ ρ ω ε)
    (program : Program κ ρ ω ε Unit)
    (hheld : ∀ k call' version, (Table.slot table k).pending = some (call', version) →
      call' = call ∨ (Table.slot s.table k).pending = some (call', version))
    (hcommitted : ∀ k row, Table.committed table k = some row →
      ∃ call, (call, k, some row) ∈ history)
    (hlogged : ∀ entry ∈ history, entry ∈ s.history ∨ entry.1 = call) :
    Sane (advance
      { s with table := table, ids := ids, history := history, readings := readings } call r' program) := by
  have hinsert : ∀ call', ((s.inFlight.insert call { r' with program := program }).lookup call') =
      if call' = call then some { r' with program := program } else s.inFlight.lookup call' :=
    fun call' => FiniteMap.lookup_insert_ite _ _ _ _
  refine ⟨fun k call' version hpending => ?_, fun call' r'' hlook' => ?_, h.answered, hcommitted,
    fun entry hmem => ?_⟩
  · show ((s.inFlight.insert call _).lookup call').isSome = true
    rw [hinsert call']
    split_ifs with heq
    · rfl
    · exact h.held k call' version ((hheld k call' version hpending).resolve_left heq)
  · have hlook'' : (s.inFlight.insert call _).lookup call' = some r'' := hlook'
    rw [hinsert call'] at hlook''
    split_ifs at hlook'' with heq
    · exact heq ▸ h.flights call r hlook
    · exact h.flights call' r'' hlook''
  · cases hlogged entry hmem with
    | inl hold => exact h.logged entry hold
    | inr hcall => exact hcall ▸ (h.flights call r hlook).1

theorem Sane.turn {e : ServerEvent δ} (h : Sane s) (hlook : s.inFlight.lookup call = some r)
    (hturn : schema.Turn s call r e s') : Sane s' := by
  have hgo : ∀ (readings : List (CallId × Nat)) (r' : Running δ κ ρ ω ε)
      (program : Program κ ρ ω ε Unit),
      Sane (Schema.advance { s with readings := readings } call r' program) := fun _ r' program =>
    h.advance hlook r' program (fun _ _ _ => .inr) h.committed fun _ => .inl
  cases hturn with
  | done | failed => exact h.finish hlook
  | select | ask => exact hgo s.readings _ _
  | clock => exact hgo _ _ _
  | exec hp hexec =>
    have hslot := Table.exec_eq_some hexec
    refine h.advance hlook r _ (fun k call' version hpending => ?_) (fun k row hrow => ?_) fun _ => .inl
    · obtain hsame | ⟨version', -, -, hnew⟩ := hslot k
      · exact .inr (hsame ▸ hpending)
      · rw [hnew] at hpending
        cases hpending
        exact .inl rfl
    · exact h.committed k row ((Table.committed_exec hexec k).symm.trans hrow)
  | commit hp =>
    refine h.advance hlook r _ (fun k call' version hpending => ?_) (fun k row hrow => ?_)
      fun entry hmem => ?_
    · exact .inr (Table.kept_commit k _ hpending).1
    · rw [Table.committed_commit] at hrow
      by_cases hheld : (Table.slot s.table k).heldBy call = true
      · obtain ⟨version, hpending⟩ := Slot.heldBy_iff.mp hheld
        rw [Table.view, Slot.view, hpending] at hrow
        obtain rfl : version = some row := (if_pos rfl).symm.trans hrow
        exact ⟨call, mem_history_commit.mpr (.inr ⟨rfl, hpending⟩)⟩
      · rw [Table.view_of_not_heldBy (eq_false_of_ne_true hheld)] at hrow
        obtain ⟨call', hmem⟩ := h.committed k row hrow
        exact ⟨call', List.mem_append_left _ hmem⟩
    · refine (List.mem_append.mp hmem).imp_right fun hnew => ?_
      obtain ⟨write, -, rfl⟩ := List.mem_map.mp hnew
      rfl
  | dropped =>
    refine ⟨fun k call' version hpending => ?_, fun call' r' hlook' => ?_, h.answered,
      fun k row hrow => ?_, h.logged⟩
    · have hpending' : (Table.slot (Table.rollback s.table call) k).pending = some (call', version) :=
        hpending
      rw [Table.slot_rollback] at hpending'
      obtain ⟨hbefore, hne⟩ := Slot.pending_rollback.mp hpending'
      show ((s.inFlight.erase call).lookup call').isSome = true
      rw [FiniteMap.lookup_erase_ite, if_neg hne]
      exact h.held k call' version hbefore
    · have hlook'' : (s.inFlight.erase call).lookup call' = some r' := hlook'
      rw [FiniteMap.lookup_erase_ite] at hlook''
      split at hlook''
      next => cases hlook''
      next => exact h.flights call' r' hlook''
    · exact h.committed k row (Table.committed_rollback.symm.trans hrow)

theorem Sane.arrived (h : Sane s) (request : δ) : Sane (arrived schema s request) := by
  refine ⟨fun k call version hpending => ?_, fun call r hlook => ?_,
    fun call result hlook => Nat.lt_succ_of_lt (h.answered call result hlook), h.committed,
    fun entry hmem => Nat.lt_succ_of_lt (h.logged entry hmem)⟩
  · show ((s.inFlight.insert s.calls _).lookup call).isSome = true
    rw [FiniteMap.lookup_insert_ite]
    split
    · rfl
    · exact h.held k call version hpending
  · have hlook' : (s.inFlight.insert s.calls _).lookup call = some r := hlook
    rw [FiniteMap.lookup_insert_ite] at hlook'
    split at hlook'
    next heq =>
      rw [heq]
      refine ⟨Nat.lt_succ_self _, Option.eq_none_iff_forall_ne_some.mpr fun result hresult => ?_⟩
      exact absurd (h.answered _ result hresult) (lt_irrefl _)
    next => exact ⟨Nat.lt_succ_of_lt (h.flights call r hlook').1, (h.flights call r hlook').2⟩

theorem sane_init : Sane (init : Server δ κ ρ ω ε) := by
  refine ⟨fun k call version hpending => ?_, fun call r hlook => ?_, fun call result hlook => ?_,
    fun k row hrow => ?_, fun entry hmem => ?_⟩
  · cases hpending
  · cases hlook
  · cases hlook
  · cases hrow
  · cases hmem

theorem Sane.next {e : ServerEvent δ} (h : Sane s) (hnext : schema.next s e = some s') : Sane s' := by
  obtain ⟨request, -, rfl⟩ | ⟨call, r, hlook, hturn⟩ := next_cases hnext
  · exact h.arrived request
  · exact h.turn hlook hturn

end Schema

end Botwork.Foundations
