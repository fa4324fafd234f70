import Botwork.Foundations.Transactions

/-!
# Stamps from a clock

Rows that carry a stamp which their writer has read off the clock.  When no two
requests read the same time, a row is never committed under a stamp that one of
its versions has had before, whatever else runs.

## Main definitions

- `Stamps` — keys and stamps of rows
- `Stamps.protocol` — a row is written under a stamp its request has read
- `Stamps.apart` — the condition on a reading of the clock
- `Stamps.StampInv` — the invariant
-/

namespace Botwork.Foundations

variable {δ κ ρ ω ε : Type}

/-- The key and the stamp of a row. -/
structure Stamps (κ ρ : Type) where
  key : ρ → κ
  stamp : ρ → Nat

/-- What a request has done so far: the times it has read, and whether it has
    committed. -/
structure Writing where
  taken : List Nat
  committed : Bool

namespace Stamps

variable (stamps : Stamps κ ρ)

-- ════════════════════════════════════════════════════════════════════════
-- Programs
-- ════════════════════════════════════════════════════════════════════════

/-- Before its commit a request writes rows under their key, with a time it has read. -/
def protocol : Protocol κ ρ Writing where
  select g _ := g
  clock g now := { g with taken := now :: g.taken }
  allowed g statement := g.committed = false ∧
    match statement with
    | .insert new => ∀ id, stamps.key (new id).2 = (new id).1 ∧ stamps.stamp (new id).2 ∈ g.taken
    | .update k set => ∀ row, stamps.key row = k →
        stamps.key (set row) = k ∧ stamps.stamp (set row) ∈ g.taken
    | .delete _ _ => True
  exec g _ := g
  commit g := { g with committed := true }

/-- The requests keep to the protocol. -/
def Disciplined (schema : Schema δ κ ρ ω ε) : Prop :=
  ∀ request, (schema.program request).Follows stamps.protocol (fun _ _ => True) ⟨[], false⟩

/-- The time that the step reads was read by no other request. -/
def apart (s : Server δ κ ρ ω ε) : ServerEvent δ → Bool
  | .run call (.time now) => s.readings.all fun (call', time) => call' = call || time ≠ now
  | _ => true

-- ════════════════════════════════════════════════════════════════════════
-- The invariant
-- ════════════════════════════════════════════════════════════════════════

variable [DecidableEq κ]

/-- What a request that has come this far says about the server. -/
structure Backs (s : Server δ κ ρ ω ε) (call : CallId) (g : Writing) : Prop where
  taken : ∀ time ∈ g.taken, (call, time) ∈ s.readings
  unlogged : g.committed = false → ∀ entry ∈ s.history, entry.1 ≠ call

structure StampInv (s : Server δ κ ρ ω ε) : Prop extends Schema.Sane s where
  apart : ∀ call call' time, (call, time) ∈ s.readings → (call', time) ∈ s.readings → call = call'
  keyed : ∀ k row, (Table.slot s.table k).HasVersion row → stamps.key row = k
  pending : ∀ k call row, (Table.slot s.table k).pending = some (call, some row) →
    (call, stamps.stamp row) ∈ s.readings
  unlogged : ∀ k call version, (Table.slot s.table k).pending = some (call, version) →
    ∀ entry ∈ s.history, entry.1 ≠ call
  stamped : ∀ call k row, (call, k, some row) ∈ s.history → (call, stamps.stamp row) ∈ s.readings
  reads : ∀ call r, s.inFlight.lookup call = some r → ∀ read ∈ r.reads, ∀ k row,
    read.lookup k = some row → stamps.key row = k
  phases : ∀ call r, s.inFlight.lookup call = some r →
    ∃ g, r.program.Follows stamps.protocol (fun _ _ => True) g ∧ Backs s call g

variable {stamps : Stamps κ ρ} {schema : Schema δ κ ρ ω ε} {s s' : Server δ κ ρ ω ε} {call : CallId}
  {r : Running δ κ ρ ω ε}

/-- A version that waits for its commit has a stamp that none of its row's committed
    versions has. -/
theorem StampInv.stamp_ne (inv : stamps.StampInv s) {k : κ} {row row' : ρ} {call' : CallId}
    (hpending : (Table.slot s.table k).pending = some (call, some row))
    (hmem : (call', k, some row') ∈ s.history) : stamps.stamp row' ≠ stamps.stamp row := by
  intro heq
  have htaken := inv.pending k call row hpending
  have htaken' := inv.stamped call' k row' hmem
  rw [heq] at htaken'
  exact inv.unlogged k call _ hpending _ hmem (inv.apart call' call _ htaken' htaken)

/-- A call goes on, and has written nothing. -/
theorem StampInv.advance {r' : Running δ κ ρ ω ε} {program : Program κ ρ ω ε Unit}
    {readings : List (CallId × Nat)} (inv : stamps.StampInv s)
    (hsane : Schema.Sane (Schema.advance { s with readings := readings } call r' program))
    (hkept : ∀ entry ∈ s.readings, entry ∈ readings)
    (hapart : ∀ call call' time, (call, time) ∈ readings → (call', time) ∈ readings → call = call')
    (hreads : ∀ read ∈ r'.reads, ∀ k row, read.lookup k = some row → stamps.key row = k)
    (hphase : ∃ g, program.Follows stamps.protocol (fun _ _ => True) g ∧
      Backs { s with readings := readings } call g) :
    stamps.StampInv (Schema.advance { s with readings := readings } call r' program) := by
  have hlook : ∀ call' r'', (s.inFlight.insert call { r' with program := program }).lookup call' =
      some r'' → call' = call ∧ r'' = { r' with program := program } ∨
        s.inFlight.lookup call' = some r'' := by
    intro call' r'' hlook'
    rw [FiniteMap.lookup_insert_ite] at hlook'
    split_ifs at hlook' with heq
    · exact .inl ⟨heq, (Option.some.inj hlook').symm⟩
    · exact .inr hlook'
  refine { toSane := hsane, apart := hapart, keyed := inv.keyed,
           pending := fun k call' row hpending => hkept _ (inv.pending k call' row hpending),
           unlogged := inv.unlogged,
           stamped := fun call' k row hmem => hkept _ (inv.stamped call' k row hmem),
           reads := fun call' r'' hlook' => ?_, phases := fun call' r'' hlook' => ?_ }
  · obtain ⟨rfl, rfl⟩ | hold := hlook call' r'' hlook'
    · exact hreads
    · exact inv.reads call' r'' hold
  · obtain ⟨rfl, rfl⟩ | hold := hlook call' r'' hlook'
    · obtain ⟨g, hfollow, hbacks⟩ := hphase
      exact ⟨g, hfollow, hbacks.taken, hbacks.unlogged⟩
    · obtain ⟨g, hfollow, hbacks⟩ := inv.phases call' r'' hold
      exact ⟨g, hfollow, fun time hmem => hkept _ (hbacks.taken time hmem), hbacks.unlogged⟩

/-- A call ends, and what it has not committed is rolled back. -/
theorem StampInv.ends (inv : stamps.StampInv s) (hsane : Schema.Sane s')
    (htable : s'.table = Table.rollback s.table call) (hhistory : s'.history = s.history)
    (hreadings : s'.readings = s.readings) (hflights : s'.inFlight = s.inFlight.erase call) :
    stamps.StampInv s' := by
  have hlook : ∀ call' r', s'.inFlight.lookup call' = some r' →
      s.inFlight.lookup call' = some r' := by
    intro call' r' hlook'
    rw [hflights, FiniteMap.lookup_erase_ite] at hlook'
    split_ifs at hlook'
    exact hlook'
  have hpending : ∀ {k p}, (Table.slot s'.table k).pending = some p →
      (Table.slot s.table k).pending = some p := by
    intro k p hpending
    rw [htable, Table.slot_rollback] at hpending
    exact (Slot.pending_rollback.mp hpending).1
  refine { toSane := hsane, apart := by rw [hreadings]; exact inv.apart,
           keyed := fun k row hversion => ?_,
           pending := fun k call' row hp => by rw [hreadings]; exact inv.pending k call' row (hpending hp),
           unlogged := fun k call' version hp => by
             rw [hhistory]; exact inv.unlogged k call' version (hpending hp),
           stamped := by rw [hhistory, hreadings]; exact inv.stamped,
           reads := fun call' r' hlook' => inv.reads call' r' (hlook call' r' hlook'),
           phases := fun call' r' hlook' => ?_ }
  · rw [htable, Table.slot_rollback] at hversion
    exact inv.keyed k row hversion.of_rollback
  · obtain ⟨g, hfollow, hbacks⟩ := inv.phases call' r' (hlook call' r' hlook')
    refine ⟨g, hfollow, ?_, ?_⟩
    · rw [hreadings]
      exact hbacks.taken
    · rw [hhistory]
      exact hbacks.unlogged

/-- A call executes a statement. -/
theorem StampInv.exec {statement : Statement κ ρ} {next : Nat → Program κ ρ ω ε Unit}
    {table : Table CallId κ ρ} {clash : ρ → ρ → Bool} (inv : stamps.StampInv s)
    (hlook : s.inFlight.lookup call = some r) (hp : r.program = .exec statement next)
    (hexec : Table.exec clash s.table call s.ids statement = some (some table))
    (hsane : Schema.Sane
      (Schema.advance { s with table := table, ids := s.ids + 1 } call r (next s.ids))) :
    stamps.StampInv (Schema.advance { s with table := table, ids := s.ids + 1 } call r (next s.ids)) := by
  obtain ⟨g, hfollow, hbacks⟩ := inv.phases call r hlook
  rw [hp] at hfollow
  obtain ⟨⟨huncommitted, hallowed⟩, hrest⟩ := hfollow
  -- a row that is written has its key, and a time that the call has read
  have hwritten : ∀ {k row}, statement.Writes s.ids (Table.view s.table call) k (some row) →
      stamps.key row = k ∧ stamps.stamp row ∈ g.taken := by
    intro k row hwrites
    cases hwrites with
    | insert => exact hallowed s.ids
    | update hview => exact hallowed _ (inv.keyed k _ (.of_view hview))
  have hslot := Table.exec_eq_some hexec
  refine { toSane := hsane, apart := inv.apart, keyed := fun k row hversion => ?_,
           pending := fun k call' row hpending => ?_, unlogged := fun k call' version hpending => ?_,
           stamped := inv.stamped, reads := fun call' r' hlook' => ?_,
           phases := fun call' r' hlook' => ?_ }
  · have hversion' : (Table.slot table k).HasVersion row := hversion
    obtain hsame | ⟨version, hwrites, -, hnew⟩ := hslot k
    · exact inv.keyed k row (hsame ▸ hversion')
    · rw [hnew] at hversion'
      obtain hcommitted | ⟨t, hpending⟩ := hversion'
      · exact inv.keyed k row (.inl hcommitted)
      · cases hpending
        exact (hwritten hwrites).1
  · have hpending' : (Table.slot table k).pending = some (call', some row) := hpending
    obtain hsame | ⟨version, hwrites, -, hnew⟩ := hslot k
    · exact inv.pending k call' row (hsame ▸ hpending')
    · rw [hnew] at hpending'
      cases hpending'
      exact hbacks.taken _ (hwritten hwrites).2
  · have hpending' : (Table.slot table k).pending = some (call', version) := hpending
    obtain hsame | ⟨version', hwrites, -, hnew⟩ := hslot k
    · exact inv.unlogged k call' version (hsame ▸ hpending')
    · rw [hnew] at hpending'
      cases hpending'
      exact hbacks.unlogged huncommitted
  · have hlook'' : (s.inFlight.insert call _).lookup call' = some r' := hlook'
    rw [FiniteMap.lookup_insert_ite] at hlook''
    split_ifs at hlook''
    · cases hlook''
      exact inv.reads call r hlook
    · exact inv.reads call' r' hlook''
  · have hlook'' : (s.inFlight.insert call _).lookup call' = some r' := hlook'
    rw [FiniteMap.lookup_insert_ite] at hlook''
    split_ifs at hlook'' with heq
    · cases hlook''
      subst heq
      exact ⟨g, hrest s.ids, hbacks.taken, hbacks.unlogged⟩
    · obtain ⟨g', hfollow', hbacks'⟩ := inv.phases call' r' hlook''
      exact ⟨g', hfollow', hbacks'.taken, hbacks'.unlogged⟩

/-- A call commits. -/
theorem StampInv.commit {next : Program κ ρ ω ε Unit} (inv : stamps.StampInv s)
    (hlook : s.inFlight.lookup call = some r) (hp : r.program = .commit next)
    (hsane : Schema.Sane (Schema.advance (Schema.commitCall s call) call r next)) :
    stamps.StampInv (Schema.advance (Schema.commitCall s call) call r next) := by
  have hpending : ∀ {k p}, (Table.slot (Table.commit s.table call) k).pending = some p →
      (Table.slot s.table k).pending = some p ∧ p.1 ≠ call := by
    intro k p hpending
    rw [Table.slot_commit] at hpending
    exact Slot.pending_commit.mp hpending
  -- only entries of this call are new in the history
  have hlogged : ∀ {call'}, (∀ entry ∈ s.history, entry.1 ≠ call') → call' ≠ call →
      ∀ entry ∈ (Schema.commitCall s call).history, entry.1 ≠ call' := by
    rintro call' hold hne ⟨call'', k, version⟩ hmem
    obtain hmem | ⟨rfl, -⟩ := Schema.mem_history_commit.mp hmem
    · exact hold _ hmem
    · exact Ne.symm hne
  refine { toSane := hsane, apart := inv.apart, keyed := fun k row hversion => ?_,
           pending := fun k call' row hp' => inv.pending k call' row (hpending hp').1,
           unlogged := fun k call' version hp' =>
             hlogged (inv.unlogged k call' version (hpending hp').1) (hpending hp').2,
           stamped := fun call' k row hmem => ?_, reads := fun call' r' hlook' => ?_,
           phases := fun call' r' hlook' => ?_ }
  · have hversion' : (Table.slot (Table.commit s.table call) k).HasVersion row := hversion
    rw [Table.slot_commit] at hversion'
    exact inv.keyed k row hversion'.of_commit
  · obtain hold | ⟨rfl, hnew⟩ := Schema.mem_history_commit.mp hmem
    · exact inv.stamped call' k row hold
    · exact inv.pending k call' row hnew
  · have hlook'' : (s.inFlight.insert call _).lookup call' = some r' := hlook'
    rw [FiniteMap.lookup_insert_ite] at hlook''
    split_ifs at hlook''
    · cases hlook''
      exact inv.reads call r hlook
    · exact inv.reads call' r' hlook''
  · have hlook'' : (s.inFlight.insert call _).lookup call' = some r' := hlook'
    rw [FiniteMap.lookup_insert_ite] at hlook''
    split_ifs at hlook'' with heq
    · cases hlook''
      subst heq
      obtain ⟨g, hfollow, hbacks⟩ := inv.phases call' r hlook
      rw [hp] at hfollow
      exact ⟨_, hfollow, hbacks.taken, fun h => by cases h⟩
    · obtain ⟨g, hfollow, hbacks⟩ := inv.phases call' r' hlook''
      exact ⟨g, hfollow, hbacks.taken, fun h => hlogged (hbacks.unlogged h) heq⟩

/-- **Step lemma**. -/
theorem StampInv.next {e : ServerEvent δ} (inv : stamps.StampInv s)
    (hdisciplined : stamps.Disciplined schema) (hapart : Stamps.apart s e = true)
    (hnext : schema.next s e = some s') : stamps.StampInv s' := by
  obtain ⟨request, -, rfl⟩ | ⟨call, r, hlook, hturn⟩ := Schema.next_cases hnext
  · have hlook : ∀ call r, (s.inFlight.insert s.calls ⟨request, [], schema.program request⟩).lookup
        call = some r → call = s.calls ∧ r = ⟨request, [], schema.program request⟩ ∨
          s.inFlight.lookup call = some r := by
      intro call r hlook
      rw [FiniteMap.lookup_insert_ite] at hlook
      split_ifs at hlook with heq
      · exact .inl ⟨heq, (Option.some.inj hlook).symm⟩
      · exact .inr hlook
    refine { toSane := inv.toSane.arrived request, apart := inv.apart, keyed := inv.keyed,
             pending := inv.pending, unlogged := inv.unlogged, stamped := inv.stamped,
             reads := fun call r hlook' => ?_, phases := fun call r hlook' => ?_ }
    · obtain ⟨rfl, rfl⟩ | hold := hlook call r hlook'
      · exact fun read hread => absurd hread List.not_mem_nil
      · exact inv.reads call r hold
    · obtain ⟨rfl, rfl⟩ | hold := hlook call r hlook'
      · refine ⟨⟨[], false⟩, hdisciplined request, fun time hmem => absurd hmem List.not_mem_nil,
          fun _ entry hmem => ?_⟩
        exact Nat.ne_of_lt (inv.logged entry hmem)
      · obtain ⟨g, hfollow, hbacks⟩ := inv.phases call r hold
        exact ⟨g, hfollow, hbacks.taken, hbacks.unlogged⟩
  · have hsane := inv.toSane.turn hlook hturn
    obtain ⟨g, hfollow, hbacks⟩ := inv.phases call r hlook
    have hreads := inv.reads call r hlook
    cases hturn with
    | done | failed | dropped => exact inv.ends hsane rfl rfl rfl rfl
    | select hp =>
      rw [hp] at hfollow
      refine inv.advance hsane (fun _ => id) inv.apart (fun read hread k row hrow => ?_)
        ⟨g, hfollow _, hbacks⟩
      obtain rfl | hread := List.mem_cons.mp hread
      · have hview : (Table.snapshot s.table call).lookup k = some row := hrow
        rw [Table.lookup_snapshot] at hview
        exact inv.keyed k row (.of_view hview)
      · exact hreads read hread k row hrow
    | clock now hp =>
      rw [hp] at hfollow
      have hnew : ∀ call', (call', now) ∈ s.readings → call' = call := by
        intro call' hmem
        have hother := List.all_eq_true.mp hapart _ hmem
        simpa using hother
      refine inv.advance hsane (fun _ => List.mem_cons_of_mem _)
        (fun call₁ call₂ time h₁ h₂ => ?_) hreads ⟨_, hfollow now, ?_, hbacks.unlogged⟩
      · obtain heq₁ | hold₁ := List.mem_cons.mp h₁
        · cases heq₁
          obtain heq₂ | hold₂ := List.mem_cons.mp h₂
          · cases heq₂
            rfl
          · exact (hnew call₂ hold₂).symm
        · obtain heq₂ | hold₂ := List.mem_cons.mp h₂
          · cases heq₂
            exact hnew call₁ hold₁
          · exact inv.apart call₁ call₂ time hold₁ hold₂
      · intro time hmem
        obtain rfl | hold := List.mem_cons.mp hmem
        · exact List.mem_cons_self
        · exact List.mem_cons_of_mem _ (hbacks.taken time hold)
    | ask reply hp =>
      rw [hp] at hfollow
      exact inv.advance hsane (fun _ => id) inv.apart hreads ⟨g, hfollow reply, hbacks⟩
    | exec hp hexec => exact inv.exec hlook hp hexec hsane
    | commit hp => exact inv.commit hlook hp hsane

theorem stampInv_init : stamps.StampInv (Schema.init : Server δ κ ρ ω ε) := by
  refine { toSane := Schema.sane_init, apart := fun _ _ _ h => absurd h List.not_mem_nil,
           keyed := fun k row hversion => ?_, pending := fun k call row h => (nomatch h),
           unlogged := fun k call version h => (nomatch h),
           stamped := fun _ _ _ h => absurd h List.not_mem_nil,
           reads := fun call r h => (nomatch h), phases := fun call r h => (nomatch h) }
  obtain h | ⟨t, h⟩ := hversion <;> cases h

end Stamps

end Botwork.Foundations
