import Botwork.Foundations.Transactions

/-!
# Names that a SELECT checks

Rows that carry a name besides their key, on a database whose unique indexes do
not compare names the way the requests do.  A request selects the rows there are,
and writes a name it has not found in a later statement.  When every other row
with the name was there to be found, no two rows share a name, whatever else runs.

## Main definitions

- `Naming` — keys, names and spellings of rows
- `Naming.protocol` — a name is written only after a SELECT that has not found it
- `Naming.Looked` — the condition on a step
- `Naming.NamesInv` — the invariant
-/

namespace Botwork.Foundations

/-- What names a row.  Names that are equal may be spelled differently; an owner
    is what no update changes, and `id?` is the part of a key that is given out
    fresh. -/
structure Naming (κ ρ ν ξ σ : Type) where
  key : ρ → κ
  name : ρ → Option ν
  spelling : ρ → ξ
  owner : ρ → σ
  id? : κ → Option Nat
  owner_eq : ∀ row row', key row = key row' → id? (key row) = none → owner row = owner row'

namespace Naming

variable {δ κ ρ ω ε ν ξ σ : Type} (naming : Naming κ ρ ν ξ σ)

-- ════════════════════════════════════════════════════════════════════════
-- Programs
-- ════════════════════════════════════════════════════════════════════════

/-- The last SELECT has found no other row with the name, or with the spelling for
    a request that compares names `exactly`. -/
def Clear (exactly : Bool) (reads : List (FiniteMap κ ρ)) (row : ρ) : Prop :=
  ∃ last ∈ reads.head?, ∀ seen ∈ last.values, naming.key seen ≠ naming.key row →
    if exactly then naming.spelling seen ≠ naming.spelling row else naming.name seen ≠ naming.name row

/-- A new row is clear, and an update keeps the name or is. -/
def protocol (exactly : Bool) : Protocol κ ρ (List (FiniteMap κ ρ)) where
  select reads rows := rows :: reads
  clock reads _ := reads
  allowed reads
    | .insert new => ∀ id, naming.key (new id).2 = (new id).1 ∧
        (naming.id? (new id).1 = some id ∧ naming.Clear exactly reads (new id).2 ∨
          naming.id? (new id).1 = none ∧ naming.name (new id).2 = none)
    | .update k set => ∀ row, naming.key row = k →
        (∀ read ∈ reads, ∀ seen ∈ read.values, naming.key seen = k →
          naming.owner seen = naming.owner row) →
        naming.key (set row) = k ∧ naming.owner (set row) = naming.owner row ∧
          (naming.name (set row) = naming.name row ∨ naming.Clear exactly reads (set row))
    | .delete _ _ => True
  exec reads _ := reads
  commit reads := reads

/-- The requests keep to the protocol; `exactly` says which of them compare names
    as they are spelled. -/
def Disciplined (exactly : δ → Bool) (schema : Schema δ κ ρ ω ε) : Prop :=
  ∀ request, (schema.program request).Follows (naming.protocol (exactly request))
    (fun _ _ => True) []

-- ════════════════════════════════════════════════════════════════════════
-- The condition
-- ════════════════════════════════════════════════════════════════════════

section

variable [DecidableEq κ] [DecidableEq ν] [DecidableEq ξ]

/-- Every other version with the name of the row was found by the last SELECT, and
    spelled alike where the request compares names `exactly`. -/
def found (exactly : Bool) (table : Table CallId κ ρ) (reads : List (FiniteMap κ ρ)) (row : ρ) : Bool :=
  (naming.name row).all fun name => table.entries.all fun ⟨k, slot⟩ => k = naming.key row ||
    slot.versions.all fun version => naming.name version ≠ some name ||
      reads.head?.any fun last => (last.lookup k).any fun seen => naming.name seen = some name &&
        (!exactly || naming.spelling seen = naming.spelling row)

/-- The name that the statement writes was looked for where it is. -/
def looked (exactly : Bool) (s : Server δ κ ρ ω ε) (call : CallId) (reads : List (FiniteMap κ ρ)) :
    Statement κ ρ → Bool
  | .insert new => naming.found exactly s.table reads (new s.ids).2
  | .update k set => (Table.view s.table call k).all fun row =>
    naming.name (set row) = naming.name row || naming.found exactly s.table reads (set row)
  | .delete _ _ => true

def Looked (exactly : δ → Bool) (s : Server δ κ ρ ω ε) : ServerEvent δ → Bool
  | .run call .ok => (s.inFlight.lookup call).all fun r =>
    match r.program with
    | .exec statement _ => naming.looked (exactly r.request) s call r.reads statement
    | _ => true
  | _ => true

end

-- ════════════════════════════════════════════════════════════════════════
-- The invariant
-- ════════════════════════════════════════════════════════════════════════

variable [DecidableEq κ]

/-- The row has this key, its id has been given out, and its owner is that of the
    versions there are. -/
structure Known (s : Server δ κ ρ ω ε) (k : κ) (row : ρ) : Prop where
  key : naming.key row = k
  id_lt : ∀ id, naming.id? k = some id → id < s.ids
  owner : ∀ version, (Table.slot s.table k).HasVersion version →
    naming.owner row = naming.owner version

structure NamesInv (exactly : δ → Bool) (s : Server δ κ ρ ω ε) : Prop where
  rows : ∀ k row, (Table.slot s.table k).HasVersion row → naming.Known s k row
  reads : ∀ call r, s.inFlight.lookup call = some r → ∀ read ∈ r.reads, ∀ k seen,
    read.lookup k = some seen → naming.Known s k seen
  follows : ∀ call r, s.inFlight.lookup call = some r →
    r.program.Follows (naming.protocol (exactly r.request)) (fun _ _ => True) r.reads
  unique : ∀ k k' row row' name, (Table.slot s.table k).HasVersion row →
    (Table.slot s.table k').HasVersion row' → naming.name row = some name →
    naming.name row' = some name → k = k'

variable {naming} {exactly : δ → Bool} {schema : Schema δ κ ρ ω ε} {s s' : Server δ κ ρ ω ε}
  {call : CallId} {r : Running δ κ ρ ω ε}

/-- A step after which there is no version that there was not before. -/
theorem NamesInv.mono (inv : naming.NamesInv exactly s)
    (hversions : ∀ k row, (Table.slot s'.table k).HasVersion row → (Table.slot s.table k).HasVersion row)
    (hids : s.ids ≤ s'.ids)
    (hflights : ∀ call r, s'.inFlight.lookup call = some r →
      (∀ read ∈ r.reads, ∀ k seen, read.lookup k = some seen → naming.Known s k seen) ∧
      r.program.Follows (naming.protocol (exactly r.request)) (fun _ _ => True) r.reads) :
    naming.NamesInv exactly s' := by
  have hknown : ∀ k row, naming.Known s k row → naming.Known s' k row := fun k row h =>
    ⟨h.key, fun id hid => Nat.lt_of_lt_of_le (h.id_lt id hid) hids,
      fun version hversion => h.owner version (hversions k version hversion)⟩
  exact ⟨fun k row h => hknown k row (inv.rows k row (hversions k row h)),
    fun call r hlook read hread k seen hseen =>
      hknown k seen ((hflights call r hlook).1 read hread k seen hseen),
    fun call r hlook => (hflights call r hlook).2,
    fun k k' row row' name h h' => inv.unique k k' row row' name (hversions k row h) (hversions k' row' h')⟩

section

variable [DecidableEq ν] [DecidableEq ξ]

/-- A name that was looked for where it is, and not found, is nowhere. -/
theorem clear_of_found {row version : ρ} {name : ν} {k : κ} (inv : naming.NamesInv exactly s)
    (hlook : s.inFlight.lookup call = some r)
    (hclear : naming.Clear (exactly r.request) r.reads row)
    (hfound : naming.found (exactly r.request) s.table r.reads row = true)
    (hname : naming.name row = some name) (hversion : (Table.slot s.table k).HasVersion version)
    (hsame : naming.name version = some name) : k = naming.key row := by
  by_contra hne
  obtain ⟨last, hlast, hnone⟩ := hclear
  -- the version was seen by the last SELECT
  have hmem : ⟨k, Table.slot s.table k⟩ ∈ s.table.entries := by
    apply (FiniteMap.lookup_eq_some_iff _ _ _).mp
    cases hentry : s.table.lookup k with
    | none =>
      rw [Table.slot, hentry] at hversion
      obtain hversion | ⟨_, hversion⟩ := hversion <;> cases hversion
    | some slot => rw [Table.slot_of_lookup hentry]
  rw [found, hname, Option.all_some, List.all_eq_true] at hfound
  have hseen := hfound _ hmem
  simp only [hne, decide_false, Bool.false_or, List.all_eq_true, Bool.or_eq_true, decide_eq_true_eq]
    at hseen
  have hseen := (hseen version (Slot.mem_versions.mpr hversion)).resolve_left fun h => h hsame
  rw [Option.mem_def.mp hlast, Option.any_some, Option.any_eq_true] at hseen
  obtain ⟨seen, hread, hspelled⟩ := hseen
  obtain ⟨hname', hspelling⟩ := Bool.and_eq_true _ _ |>.mp hspelled
  have hkey : naming.key seen ≠ naming.key row := by
    rw [(inv.reads call r hlook last (List.mem_of_mem_head? hlast) k seen hread).key]
    exact hne
  have hclear := hnone seen ((FiniteMap.mem_values_iff _ _).mpr ⟨k, hread⟩) hkey
  split_ifs at hclear with hexactly
  · rw [hexactly] at hspelling
    exact hclear (by simpa using hspelling)
  · exact hclear ((of_decide_eq_true hname').trans hname.symm)

/-- What a statement that keeps to the protocol writes. -/
theorem NamesInv.written {statement : Statement κ ρ} {next : Nat → Program κ ρ ω ε Unit} {k : κ} {row : ρ}
    (inv : naming.NamesInv exactly s) (hlook : s.inFlight.lookup call = some r)
    (hp : r.program = .exec statement next)
    (hlooked : naming.looked (exactly r.request) s call r.reads statement = true)
    (hwrites : statement.Writes s.ids (Table.view s.table call) k (some row)) :
    naming.key row = k ∧ (∀ id, naming.id? k = some id → id < s.ids + 1) ∧
      (∀ seen, naming.Known s k seen → naming.owner seen = naming.owner row) ∧
      ∀ k' version name, (Table.slot s.table k').HasVersion version → naming.name row = some name →
        naming.name version = some name → k' = k := by
  have hfollow := inv.follows call r hlook
  rw [hp] at hfollow
  have hallowed := hfollow.1
  cases hwrites with
  | @insert new =>
    obtain ⟨hkey, hrest⟩ := hallowed s.ids
    refine ⟨hkey, fun id hid => ?_, fun seen hseen => ?_,
      fun k' version name hversion hname hsame => ?_⟩
    · obtain ⟨hid', -⟩ | ⟨hnone, -⟩ := hrest
      · rw [hid'] at hid
        cases hid
        exact Nat.lt_succ_self _
      · rw [hnone] at hid
        cases hid
    · obtain ⟨hid, -⟩ | ⟨hnone, -⟩ := hrest
      · exact absurd (hseen.id_lt _ hid) (lt_irrefl _)
      · exact naming.owner_eq _ _ (hseen.key.trans hkey.symm) (by rw [hseen.key, hnone])
    · obtain ⟨-, hclear⟩ | ⟨-, hunnamed⟩ := hrest
      · exact (clear_of_found inv hlook hclear hlooked hname hversion hsame).trans hkey
      · rw [hunnamed] at hname
        cases hname
  | @update _ set old hview =>
    have hold := Slot.HasVersion.of_view hview
    have hknown := inv.rows k old hold
    obtain ⟨hkey, howner, hnames⟩ := hallowed old hknown.key fun read hread seen hseen hsame => by
      obtain ⟨k', hlook'⟩ := (FiniteMap.mem_values_iff _ _).mp hseen
      have hseen' := inv.reads call r hlook read hread k' seen hlook'
      obtain rfl : k' = k := hseen'.key.symm.trans hsame
      exact hseen'.owner old hold
    refine ⟨hkey, fun id hid => Nat.lt_succ_of_lt (hknown.id_lt id hid),
      fun seen hseen => (hseen.owner old hold).trans howner.symm,
      fun k' version name hversion hname hsame => ?_⟩
    have hlooked' : naming.name (set old) = naming.name old ∨
        naming.found (exactly r.request) s.table r.reads (set old) = true := by
      simpa [looked, hview] using hlooked
    by_cases hkept : naming.name (set old) = naming.name old
    · exact inv.unique k' k version old name hversion hold hsame (hkept.symm.trans hname)
    · exact (clear_of_found inv hlook (hnames.resolve_left hkept) (hlooked'.resolve_left hkept) hname
        hversion hsame).trans hkey

/-- A call executes a statement. -/
theorem NamesInv.exec {statement : Statement κ ρ} {next : Nat → Program κ ρ ω ε Unit}
    {table : Table CallId κ ρ} {clash : ρ → ρ → Bool} (inv : naming.NamesInv exactly s)
    (hlook : s.inFlight.lookup call = some r) (hp : r.program = .exec statement next)
    (hexec : Table.exec clash s.table call s.ids statement = some (some table))
    (hlooked : naming.looked (exactly r.request) s call r.reads statement = true) :
    naming.NamesInv exactly
      (Schema.advance { s with table := table, ids := s.ids + 1 } call r (next s.ids)) := by
  -- a version is an old one or the one that the statement writes
  have hversions : ∀ k row, (Table.slot table k).HasVersion row →
      (Table.slot s.table k).HasVersion row ∨
        statement.Writes s.ids (Table.view s.table call) k (some row) := by
    intro k row hversion
    obtain hsame | ⟨version, hwrites, -, hnew⟩ := Table.exec_eq_some hexec k
    · exact .inl (hsame ▸ hversion)
    · rw [hnew] at hversion
      obtain hcommitted | ⟨t, hpending⟩ := hversion
      · exact .inl (.inl hcommitted)
      · cases hpending
        exact .inr hwrites
  have hwritten : ∀ {k row}, statement.Writes s.ids (Table.view s.table call) k (some row) → _ :=
    fun {_ _} h => inv.written hlook hp hlooked h
  have hknown : ∀ k row, naming.Known s k row →
      naming.Known (Schema.advance { s with table := table, ids := s.ids + 1 } call r (next s.ids))
        k row := by
    refine fun k row h => ⟨h.key, fun id hid => Nat.lt_succ_of_lt (h.id_lt id hid),
      fun version hversion => ?_⟩
    obtain hold | hwrites := hversions k version hversion
    · exact h.owner version hold
    · exact (hwritten hwrites).2.2.1 row h
  refine ⟨fun k row hversion => ?_, fun call' r' hlook' read hread k seen hseen => ?_,
    fun call' r' hlook' => ?_, fun k k' row row' name hversion hversion' hname hname' => ?_⟩
  · obtain hold | hwrites := hversions k row hversion
    · exact hknown k row (inv.rows k row hold)
    · obtain ⟨hkey, hid, howner, -⟩ := hwritten hwrites
      refine ⟨hkey, hid, fun version hversion' => ?_⟩
      obtain hold' | hwrites' := hversions k version hversion'
      · exact (howner version (inv.rows k version hold')).symm
      · rw [(hwrites.unique hwrites').2]
  · have hlook'' : (s.inFlight.insert call _).lookup call' = some r' := hlook'
    rw [FiniteMap.lookup_insert_ite] at hlook''
    refine hknown k seen ?_
    split_ifs at hlook''
    · cases hlook''
      exact inv.reads call r hlook read hread k seen hseen
    · exact inv.reads call' r' hlook'' read hread k seen hseen
  · have hlook'' : (s.inFlight.insert call _).lookup call' = some r' := hlook'
    rw [FiniteMap.lookup_insert_ite] at hlook''
    split_ifs at hlook''
    · cases hlook''
      have hfollow := inv.follows call r hlook
      rw [hp] at hfollow
      exact hfollow.2 s.ids
    · exact inv.follows call' r' hlook''
  · obtain hold | hwrites := hversions k row hversion
    · obtain hold' | hwrites' := hversions k' row' hversion'
      · exact inv.unique k k' row row' name hold hold' hname hname'
      · exact (hwritten hwrites').2.2.2 k row name hold hname' hname
    · obtain hold' | hwrites' := hversions k' row' hversion'
      · exact ((hwritten hwrites).2.2.2 k' row' name hold' hname hname').symm
      · exact (hwrites.unique hwrites').1

omit [DecidableEq ν] [DecidableEq ξ] in
/-- A call goes on. -/
theorem NamesInv.advance {r' : Running δ κ ρ ω ε} {program : Program κ ρ ω ε Unit}
    (inv : naming.NamesInv exactly s)
    (hversions : ∀ k row, (Table.slot s'.table k).HasVersion row → (Table.slot s.table k).HasVersion row)
    (hids : s.ids ≤ s'.ids) (hflights : s'.inFlight = s.inFlight)
    (hreads : ∀ read ∈ r'.reads, ∀ k seen, read.lookup k = some seen → naming.Known s k seen)
    (hfollows : program.Follows (naming.protocol (exactly r'.request)) (fun _ _ => True) r'.reads) :
    naming.NamesInv exactly (Schema.advance s' call r' program) := by
  refine inv.mono hversions hids fun call' r'' hlook' => ?_
  have hlook'' : (s'.inFlight.insert call _).lookup call' = some r'' := hlook'
  rw [FiniteMap.lookup_insert_ite, hflights] at hlook''
  split_ifs at hlook''
  · cases hlook''
    exact ⟨hreads, hfollows⟩
  · exact ⟨inv.reads call' r'' hlook'', inv.follows call' r'' hlook''⟩

omit [DecidableEq ν] [DecidableEq ξ] in
/-- A call ends, and what it has not committed is rolled back. -/
theorem NamesInv.ends (inv : naming.NamesInv exactly s)
    (htable : s'.table = Table.rollback s.table call) (hids : s'.ids = s.ids)
    (hflights : s'.inFlight = s.inFlight.erase call) : naming.NamesInv exactly s' := by
  refine inv.mono (fun k row hversion => ?_) (le_of_eq hids.symm) fun call' r' hlook' => ?_
  · rw [htable, Table.slot_rollback] at hversion
    exact hversion.of_rollback
  · rw [hflights, FiniteMap.lookup_erase_ite] at hlook'
    split_ifs at hlook'
    exact ⟨inv.reads call' r' hlook', inv.follows call' r' hlook'⟩

/-- **Step lemma**. -/
theorem NamesInv.next {e : ServerEvent δ} (inv : naming.NamesInv exactly s)
    (hdisciplined : naming.Disciplined exactly schema) (hlooked : naming.Looked exactly s e = true)
    (hnext : schema.next s e = some s') : naming.NamesInv exactly s' := by
  obtain ⟨request, -, rfl⟩ | ⟨call, r, hlook, hturn⟩ := Schema.next_cases hnext
  · refine inv.mono (fun _ _ h => h) le_rfl fun call' r' hlook' => ?_
    have hlook'' : (s.inFlight.insert s.calls _).lookup call' = some r' := hlook'
    rw [FiniteMap.lookup_insert_ite] at hlook''
    split_ifs at hlook''
    · cases hlook''
      exact ⟨fun read hread => absurd hread List.not_mem_nil, hdisciplined request⟩
    · exact ⟨inv.reads call' r' hlook'', inv.follows call' r' hlook''⟩
  · have hfollow := inv.follows call r hlook
    have hreads := inv.reads call r hlook
    cases hturn with
    | done | failed | dropped => exact inv.ends rfl rfl rfl
    | select hp =>
      rw [hp] at hfollow
      refine inv.advance (fun _ _ h => h) le_rfl rfl (fun read hread k seen hseen => ?_) (hfollow _)
      obtain rfl | hread := List.mem_cons.mp hread
      · rw [Table.lookup_snapshot] at hseen
        exact inv.rows k seen (.of_view hseen)
      · exact hreads read hread k seen hseen
    | clock now hp =>
      rw [hp] at hfollow
      exact inv.advance (fun _ _ h => h) le_rfl rfl hreads (hfollow now)
    | ask reply hp =>
      rw [hp] at hfollow
      exact inv.advance (fun _ _ h => h) le_rfl rfl hreads (hfollow reply)
    | exec hp hexec =>
      simp only [Looked, hlook, Option.all_some, hp] at hlooked
      exact inv.exec hlook hp hexec hlooked
    | commit hp =>
      rw [hp] at hfollow
      refine inv.advance (fun k row hversion => ?_) le_rfl rfl hreads hfollow
      have hversion' : (Table.slot (Table.commit s.table call) k).HasVersion row := hversion
      rw [Table.slot_commit] at hversion'
      exact hversion'.of_commit

-- ════════════════════════════════════════════════════════════════════════
-- Runs
-- ════════════════════════════════════════════════════════════════════════

/-- The guard of the runs below. -/
abbrev Guard (naming : Naming κ ρ ν ξ σ) (exactly : δ → Bool) (s : Server δ κ ρ ω ε)
    (e : ServerEvent δ) : Prop :=
  naming.Looked exactly s e = true

omit [DecidableEq ν] [DecidableEq ξ] in
theorem namesInv_init : naming.NamesInv exactly (Schema.init : Server δ κ ρ ω ε) := by
  have hempty : ∀ k row, ¬ (Table.slot (Schema.init : Server δ κ ρ ω ε).table k).HasVersion row := by
    rintro k row (h | ⟨t, h⟩) <;> cases h
  exact ⟨fun k row h => absurd h (hempty k row), fun call r hlook => (nomatch hlook),
    fun call r hlook => (nomatch hlook), fun k k' row row' name h => absurd h (hempty k row)⟩

/-- **Unique names**: no two committed rows share a name. -/
theorem unique_names (hdisciplined : naming.Disciplined exactly schema)
    (hreach : schema.machine.ReachableUnder (naming.Guard exactly) s) {k k' : κ} {row row' : ρ} {name : ν}
    (hrow : Table.committed s.table k = some row) (hrow' : Table.committed s.table k' = some row')
    (hname : naming.name row = some name) (hname' : naming.name row' = some name) : k = k' := by
  have inv : naming.NamesInv exactly s :=
    hreach.invariant (fun _ hstart => hstart ▸ namesInv_init) fun _ _ _ inv hlooked hnext =>
      inv.next hdisciplined hlooked hnext
  exact inv.unique k k' row row' name (.inl hrow) (.inl hrow') hname hname'

end

end Naming

end Botwork.Foundations
