import Botwork.Foundations.Transactions

/-!
# Programs that run alone

One program of statements from its beginning to its end, with the services it asks
as state of their own.  What it does alone is one of the things it can do among
others: a run of the machine ends with the same result and the same rows.

## Main definitions

- `Solo`, `SoloState` — what a program meets, and what it changes
- `Program.alone` — its run
- `Program.Ends` — a postcondition for each way to end
-/

namespace Botwork.Foundations

/-- The surroundings of a program: the unique indexes, the error for a failed
    statement, the services it asks, its transaction and the clock. -/
structure Solo (κ ρ ω ε σ : Type) where
  clash : ρ → ρ → Bool
  failure : ε
  answer : ω → σ → Option String × σ
  call : CallId
  clock : Nat

structure SoloState (κ ρ σ : Type) where
  table : Table CallId κ ρ
  ids : Nat
  service : σ

namespace Program

variable {κ ρ ω ε σ α β : Type} [DecidableEq κ]

/-- A statement that would have to wait is one that fails. -/
def alone (solo : Solo κ ρ ω ε σ) :
    Program κ ρ ω ε α → SoloState κ ρ σ → Except ε α × SoloState κ ρ σ
  | .done result, w => (result, w)
  | .select next, w => (next (Table.snapshot w.table solo.call)).alone solo w
  | .clock next, w => (next solo.clock).alone solo w
  | .ask question next, w =>
    let (reply, service) := solo.answer question w.service
    (next reply).alone solo { w with service }
  | .exec statement next, w =>
    match Table.exec solo.clash w.table solo.call w.ids statement with
    | some (some table) => (next w.ids).alone solo { w with table, ids := w.ids + 1 }
    | _ => (.error solo.failure, w)
  | .commit next, w => next.alone solo { w with table := Table.commit w.table solo.call }

/-- The program ends with a value and a state that satisfy `ok`, or with an error
    and a state that satisfy `err`. -/
def Ends (solo : Solo κ ρ ω ε σ) (err : ε → SoloState κ ρ σ → Prop)
    (ok : α → SoloState κ ρ σ → Prop) (w : SoloState κ ρ σ) (p : Program κ ρ ω ε α) : Prop :=
  match p.alone solo w with
  | (.ok a, w') => ok a w'
  | (.error e, w') => err e w'

variable {solo : Solo κ ρ ω ε σ} {err : ε → SoloState κ ρ σ → Prop} {ok : α → SoloState κ ρ σ → Prop}
  {w : SoloState κ ρ σ}

theorem alone_bind {p : Program κ ρ ω ε α} {f : α → Program κ ρ ω ε β} :
    (p >>= f).alone solo w = match p.alone solo w with
      | (.ok a, w') => (f a).alone solo w'
      | (.error e, w') => (.error e, w') := by
  show (p.bind f).alone solo w = _
  induction p generalizing w with
  | done result => cases result <;> rfl
  | select next ih => exact ih _
  | clock next ih => exact ih _
  | ask question next ih => exact ih _
  | exec statement next ih =>
    simp only [Program.bind, alone]
    split
    next => exact ih _
    next => rfl
  | commit next ih => exact ih

/-- **Rule of composition**. -/
theorem ends_bind {ok : β → SoloState κ ρ σ → Prop} {p : Program κ ρ ω ε α} {f : α → Program κ ρ ω ε β} :
    (p >>= f).Ends solo err ok w ↔ p.Ends solo err (fun a w' => (f a).Ends solo err ok w') w := by
  simp only [Ends, alone_bind]
  obtain ⟨result, w'⟩ := p.alone solo w
  cases result <;> exact Iff.rfl

theorem ends_now {ok : Nat → SoloState κ ρ σ → Prop} :
    (now : Program κ ρ ω ε _).Ends solo err ok w ↔ ok solo.clock w := Iff.rfl

theorem ends_reply {ok : Option String → SoloState κ ρ σ → Prop} {question : ω} :
    (reply question : Program κ ρ ω ε _).Ends solo err ok w ↔
      ok (solo.answer question w.service).1
        { w with service := (solo.answer question w.service).2 } := Iff.rfl

/-- A statement that succeeds, or not. -/
theorem ends_run {ok : Nat → SoloState κ ρ σ → Prop} {statement : Statement κ ρ}
    (herr : err solo.failure w)
    (hok : ∀ table, Table.exec solo.clash w.table solo.call w.ids statement = some (some table) →
      ok w.ids { w with table, ids := w.ids + 1 }) :
    (run statement : Program κ ρ ω ε _).Ends solo err ok w := by
  unfold Ends run alone
  cases hexec : Table.exec solo.clash w.table solo.call w.ids statement with
  | none => exact herr
  | some outcome =>
    cases outcome with
    | none => exact herr
    | some table => exact hok table hexec

theorem Ends.mono {err' : ε → SoloState κ ρ σ → Prop} {p : Program κ ρ ω ε α}
    (h : p.Ends solo err ok w) (herr : ∀ e w', err e w' → err' e w') : p.Ends solo err' ok w := by
  unfold Ends at h ⊢
  split at h
  next => exact h
  next e w' _ => exact herr e w' h

theorem Ends.result {p : Program κ ρ ω ε α} {e : ε} {w' : SoloState κ ρ σ} (h : p.Ends solo err ok w)
    (halone : p.alone solo w = (.error e, w')) : err e w' := by
  rw [Ends, halone] at h
  exact h

end Program

-- ════════════════════════════════════════════════════════════════════════
-- Among others
-- ════════════════════════════════════════════════════════════════════════

namespace Schema

variable {δ κ ρ ω ε σ : Type} [DecidableEq κ] {schema : Schema δ κ ρ ω ε} {solo : Solo κ ρ ω ε σ}

/-- A step of the call. -/
theorem run_head {s s₁ s' : Server δ κ ρ ω ε} {e : ServerEvent δ} (hnext : schema.next s e = some s₁)
    (hrun : schema.machine.Run s₁ s') : schema.machine.Run s s' :=
  Relation.ReflTransGen.head ⟨e, trivial, hnext⟩ hrun

theorem next_run {s : Server δ κ ρ ω ε} {r : Running δ κ ρ ω ε} {call : CallId} {input : Input}
    (hlook : s.inFlight.lookup call = some r) :
    schema.next s (.run call input) = schema.step s call r input := by
  rw [next, hlook, Option.bind_some]

omit [DecidableEq κ] in
theorem lookup_advance {s : Server δ κ ρ ω ε} {r : Running δ κ ρ ω ε} {call : CallId}
    {program : Program κ ρ ω ε Unit} : (advance s call r program).inFlight.lookup call =
      some { r with program := program } := by
  show (s.inFlight.insert call _).lookup call = _
  rw [FiniteMap.lookup_insert_ite, if_pos rfl]

omit [DecidableEq κ] in
theorem lookup_finish {s : Server δ κ ρ ω ε} {call : CallId} {request : δ} {result : Except ε Unit} :
    (finish s call request result).results.lookup call = some (request, result) := by
  show (s.results.insert call _).lookup call = _
  rw [FiniteMap.lookup_insert_ite, if_pos rfl]

/-- **Refinement**: what a program does alone, the machine can do with it. -/
theorem run_of_alone (hclash : solo.clash = schema.clash) (hfailure : solo.failure = schema.failure)
    {p : Program κ ρ ω ε Unit} {s : Server δ κ ρ ω ε} {r : Running δ κ ρ ω ε} {service : σ}
    {result : Except ε Unit} {w' : SoloState κ ρ σ}
    (hlook : s.inFlight.lookup solo.call = some r) (hp : r.program = p)
    (halone : p.alone solo ⟨s.table, s.ids, service⟩ = (result, w')) :
    ∃ s', schema.machine.Run s s' ∧ s'.results.lookup solo.call = some (r.request, result) ∧
      s'.table = Table.rollback w'.table solo.call := by
  induction p generalizing s r service with
  | done result' =>
    cases halone
    have hnext : schema.next s (.run solo.call .ok) = some (finish s solo.call r.request result) := by
      simp only [next_run hlook, step, hp]
    exact ⟨_, run_head hnext Relation.ReflTransGen.refl, lookup_finish, rfl⟩
  | select next ih =>
    have hnext : schema.next s (.run solo.call .ok) =
        some (advance s solo.call
          { r with selects := ⟨Table.snapshot s.table solo.call, s.history.length⟩ :: r.selects }
          (next (Table.snapshot s.table solo.call))) := by
      simp only [next_run hlook, step, hp]
    obtain ⟨s', hrest, hend⟩ := ih _ lookup_advance rfl halone
    exact ⟨s', run_head hnext hrest, hend⟩
  | clock next ih =>
    have hnext : schema.next s (.run solo.call (.time solo.clock)) =
        some (advance { s with readings := (solo.call, solo.clock) :: s.readings } solo.call r
          (next solo.clock)) := by
      simp only [next_run hlook, step, hp]
    obtain ⟨s', hrest, hend⟩ :=
      ih _ (s := advance { s with readings := (solo.call, solo.clock) :: s.readings } solo.call r
        (next solo.clock)) lookup_advance rfl halone
    exact ⟨s', run_head hnext hrest, hend⟩
  | ask question next ih =>
    have hnext : schema.next s (.run solo.call (.reply (solo.answer question service).1)) =
        some (advance s solo.call r (next (solo.answer question service).1)) := by
      simp only [next_run hlook, step, hp]
    obtain ⟨s', hrest, hend⟩ := ih _ lookup_advance rfl halone
    exact ⟨s', run_head hnext hrest, hend⟩
  | exec statement next ih =>
    rw [Program.alone, hclash] at halone
    split at halone
    next table hexec =>
      have hnext : schema.next s (.run solo.call .ok) =
          some (advance { s with table := table, ids := s.ids + 1 } solo.call r (next s.ids)) := by
        rw [next_run hlook]
        unfold step
        rw [hp]
        exact congrArg (Option.map _) hexec
      obtain ⟨s', hrest, hend⟩ :=
        ih _ (s := advance { s with table := table, ids := s.ids + 1 } solo.call r (next s.ids))
          lookup_advance rfl halone
      exact ⟨s', run_head hnext hrest, hend⟩
    next =>
      cases halone
      have hnext : schema.next s (.fail solo.call) =
          some (finish s solo.call r.request (.error schema.failure)) := by
        rw [Schema.next, hlook, Option.bind_some, hp]
      exact ⟨_, run_head hnext Relation.ReflTransGen.refl, hfailure ▸ lookup_finish, rfl⟩
  | commit next ih =>
    have hnext : schema.next s (.run solo.call .ok) =
        some (advance (commitCall s solo.call) solo.call r next) := by
      simp only [next_run hlook, step, hp]
    obtain ⟨s', hrest, hend⟩ :=
      ih (s := advance (commitCall s solo.call) solo.call r next) lookup_advance rfl halone
    exact ⟨s', run_head hnext hrest, hend⟩

end Schema

end Botwork.Foundations
