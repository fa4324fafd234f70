import Botwork.Foundations.JsonText

/-!
# YAML values

YAML documents as a syntax tree, and their reading as JSON.  Accessors look
through tags; the entries of a mapping are kept in document order.

## Main definitions

- `Yaml` — YAML values
- `Yaml.asStr`, `Yaml.asU64`, `Yaml.asMapping`, `Yaml.asSequence` — accessors
- `Yaml.toJson` — the JSON value of a document
- `Yaml.ofJson` — the document of a JSON value
-/

namespace Botwork.Foundations

inductive Yaml where
  | null
  | bool (b : Bool)
  | number (n : JsonNumber)
  | string (s : String)
  | sequence (items : List Yaml)
  | mapping (entries : List (Yaml × Yaml))
  | tagged (tag : String) (value : Yaml)
  deriving Repr

namespace Yaml

/-- The value under its tags. -/
def untag : Yaml → Yaml
  | .tagged _ value => value.untag
  | v => v

def isNull (v : Yaml) : Bool :=
  match v.untag with
  | .null => true
  | _ => false

def asStr (v : Yaml) : Option String :=
  match v.untag with
  | .string s => some s
  | _ => none

def asU64 (v : Yaml) : Option Nat :=
  match v.untag with
  | .number (.int n) => if 0 ≤ n ∧ n < 2 ^ 64 then some n.toNat else none
  | _ => none

def asMapping (v : Yaml) : Option (List (Yaml × Yaml)) :=
  match v.untag with
  | .mapping entries => some entries
  | _ => none

def asSequence (v : Yaml) : Option (List Yaml) :=
  match v.untag with
  | .sequence items => some items
  | _ => none

/-- The entry of a mapping under a plain string. -/
def entry? (key : String) : List (Yaml × Yaml) → Option Yaml
  | [] => none
  | (.string k, value) :: entries => if k = key then some value else entry? key entries
  | _ :: entries => entry? key entries

def typeName : Yaml → String
  | .null => "null"
  | .bool _ => "bool"
  | .number _ => "number"
  | .string _ => "string"
  | .sequence _ => "sequence"
  | .mapping _ => "mapping"
  | .tagged _ _ => "tagged"

-- ════════════════════════════════════════════════════════════════════════
-- Reading as JSON
-- ════════════════════════════════════════════════════════════════════════

/-- Whether the bit pattern of a double is a number. -/
def isFinite (bits : UInt64) : Bool := (bits >>> 52) &&& 0x7FF != 0x7FF

/-- Insert a member into an object whose keys ascend; a key that stands there
    keeps its place. -/
def insertMember (key : String) (value : Json) : List (String × Json) → List (String × Json)
  | [] => [(key, value)]
  | (k, v) :: members =>
    if key = k then (key, value) :: members
    else if key < k then (key, value) :: (k, v) :: members
    else (k, v) :: insertMember key value members

section

variable (double : UInt64 → List Char)

/-- The text of a mapping's key; only scalars have one. -/
def keyText : Yaml → Option String
  | .string s => some s
  | .bool b => some (toString b)
  | .number (.int n) => some (toString n)
  | .number (.double bits) => if isFinite bits then some (String.ofList (double bits)) else none
  | _ => none

mutual

/-- The JSON value of a document: infinities become `null`, a tag becomes an
    object with one member. -/
def toJson : Yaml → Option Json
  | .null => some .null
  | .bool b => some (.bool b)
  | .number (.int n) => some (.number (.int n))
  | .number (.double bits) =>
    some (if isFinite bits then .number (.double bits) else .null)
  | .string s => some (.string s)
  | .sequence items => (itemsToJson items).map Json.array
  | .mapping entries => (membersToJson entries []).map Json.object
  | .tagged tag value => (toJson value).map fun v => .object [("!" ++ tag, v)]

def itemsToJson : List Yaml → Option (List Json)
  | [] => some []
  | item :: items =>
    match toJson item, itemsToJson items with
    | some v, some vs => some (v :: vs)
    | _, _ => none

/-- Insert the entries of a mapping one after the other. -/
def membersToJson : List (Yaml × Yaml) → List (String × Json) → Option (List (String × Json))
  | [], members => some members
  | (key, value) :: entries, members =>
    match keyText double key, toJson value with
    | some k, some v => membersToJson entries (insertMember k v members)
    | _, _ => none

end

end

/-- `Debug` of a scalar that is no string. -/
def debugScalar (double : UInt64 → List Char) : Yaml → String
  | .bool b => "Bool(" ++ toString b ++ ")"
  | .number n => "Number(" ++ String.ofList (Json.numberText double n) ++ ")"
  | _ => ""

end Yaml

-- ════════════════════════════════════════════════════════════════════════
-- The document of a JSON value
-- ════════════════════════════════════════════════════════════════════════

namespace Json

mutual

/-- The value is one that a parser builds: the keys of an object ascend, and a
    double is a number. -/
def isOrdered : Json → Bool
  | .null | .bool _ | .string _ | .number (.int _) => true
  | .number (.double bits) => Yaml.isFinite bits
  | .array items => itemsOrdered items
  | .object members => (members.map Prod.fst).Pairwise (· < ·) && membersOrdered members

def itemsOrdered : List Json → Bool
  | [] => true
  | item :: items => item.isOrdered && itemsOrdered items

def membersOrdered : List (String × Json) → Bool
  | [] => true
  | (_, value) :: members => value.isOrdered && membersOrdered members

end

theorem membersOrdered_of_forall {members : List (String × Json)}
    (h : ∀ m ∈ members, m.2.isOrdered = true) : membersOrdered members = true := by
  induction members with
  | nil => rfl
  | cons m members ih =>
    obtain ⟨key, value⟩ := m
    have hvalue : value.isOrdered = true := h _ List.mem_cons_self
    rw [membersOrdered, hvalue, ih fun m hm => h m (List.mem_cons_of_mem _ hm)]
    rfl

theorem isOrdered_of_mem {members : List (String × Json)} (h : membersOrdered members = true)
    {m : String × Json} (hm : m ∈ members) : m.2.isOrdered = true := by
  induction members with
  | nil => exact absurd hm List.not_mem_nil
  | cons m' members ih =>
    obtain ⟨key, value⟩ := m'
    rw [membersOrdered, Bool.and_eq_true] at h
    obtain rfl | hm := List.mem_cons.mp hm
    · exact h.1
    · exact ih h.2 hm

theorem isOrdered_of_member? {members : List (String × Json)} (h : membersOrdered members = true)
    {key : String} {v : Json} (hv : member? members key = some v) : v.isOrdered = true := by
  obtain ⟨before, after, hsplit, -⟩ := List.lookup_eq_some_iff.mp hv
  have hmem : (key, v) ∈ members := List.mem_reverse.mp (by rw [hsplit]; simp)
  exact isOrdered_of_mem h hmem

end Json

namespace Yaml

mutual

/-- The document of a JSON value, without tags. -/
def ofJson : Json → Yaml
  | .null => .null
  | .bool b => .bool b
  | .number n => .number n
  | .string s => .string s
  | .array items => .sequence (ofItems items)
  | .object members => .mapping (ofMembers members)

def ofItems : List Json → List Yaml
  | [] => []
  | item :: items => ofJson item :: ofItems items

def ofMembers : List (String × Json) → List (Yaml × Yaml)
  | [] => []
  | (key, value) :: members => (.string key, ofJson value) :: ofMembers members

end

theorem isNull_ofJson {v : Json} : (ofJson v).isNull = true ↔ v = .null := by
  cases v <;> simp [ofJson, isNull, untag]

/-- A key behind all others goes to the end. -/
theorem insertMember_of_forall_lt {key : String} {value : Json} {members : List (String × Json)}
    (h : ∀ m ∈ members, m.1 < key) : insertMember key value members = members ++ [(key, value)] := by
  induction members with
  | nil => rfl
  | cons m members ih =>
    have hm : m.1 < key := h m List.mem_cons_self
    rw [insertMember, if_neg (String.ne_of_lt hm).symm, if_neg (String.lt_asymm hm),
      ih fun m' hm' => h m' (List.mem_cons_of_mem m hm'), List.cons_append]

theorem mem_insertMember {key : String} {value : Json} {members : List (String × Json)}
    {m : String × Json} (h : m ∈ insertMember key value members) :
    m = (key, value) ∨ m ∈ members := by
  induction members with
  | nil => exact .inl (List.mem_singleton.mp h)
  | cons m' members ih =>
    rw [insertMember] at h
    split_ifs at h
    · obtain h | h := List.mem_cons.mp h
      · exact .inl h
      · exact .inr (List.mem_cons_of_mem _ h)
    · exact List.mem_cons.mp h
    · obtain h | h := List.mem_cons.mp h
      · exact .inr (h ▸ List.mem_cons_self)
      · exact (ih h).imp_right (List.mem_cons_of_mem _)

/-- Keys that ascend go on ascending. -/
theorem insertMember_ascend {key : String} {value : Json} {members : List (String × Json)}
    (h : (members.map Prod.fst).Pairwise (· < ·)) :
    ((insertMember key value members).map Prod.fst).Pairwise (· < ·) := by
  induction members with
  | nil => exact List.pairwise_singleton _ _
  | cons m members ih =>
    obtain ⟨k, v⟩ := m
    obtain ⟨hk, hrest⟩ := List.pairwise_cons.mp h
    rw [insertMember]
    split_ifs with heq hlt
    · rw [List.map_cons, List.pairwise_cons, heq]
      exact ⟨hk, hrest⟩
    · rw [List.map_cons, List.pairwise_cons]
      refine ⟨fun k' hk' => ?_, h⟩
      obtain rfl | hk' := List.mem_cons.mp hk'
      · exact hlt
      · exact String.lt_trans hlt (hk k' hk')
    · rw [List.map_cons, List.pairwise_cons]
      refine ⟨fun k' hk' => ?_, ih hrest⟩
      obtain ⟨m', hm', rfl⟩ := List.mem_map.mp hk'
      obtain rfl | hm' := mem_insertMember hm'
      · exact String.not_le.mp fun hle => heq (String.le_antisymm hle (String.not_lt.mp hlt))
      · exact hk _ (List.mem_map_of_mem hm')

theorem membersOrdered_insertMember {key : String} {value : Json} {members : List (String × Json)}
    (hvalue : value.isOrdered = true) (h : Json.membersOrdered members = true) :
    Json.membersOrdered (insertMember key value members) = true := by
  induction members with
  | nil => simpa [insertMember, Json.membersOrdered] using hvalue
  | cons m members ih =>
    obtain ⟨k, v⟩ := m
    rw [Json.membersOrdered, Bool.and_eq_true] at h
    rw [insertMember]
    split_ifs
    · rw [Json.membersOrdered, hvalue, h.2]
      rfl
    · rw [Json.membersOrdered, Json.membersOrdered, hvalue, h.1, h.2]
      rfl
    · rw [Json.membersOrdered, h.1, ih h.2]
      rfl

mutual

/-- A JSON value is read back from its document. -/
theorem toJson_ofJson {double : UInt64 → List Char} :
    ∀ {v : Json}, v.isOrdered = true → (ofJson v).toJson double = some v
  | .null, _ | .bool _, _ | .string _, _ | .number (.int _), _ => rfl
  | .number (.double bits), h => by
    have hfinite : isFinite bits = true := h
    rw [ofJson, toJson, if_pos hfinite]
  | .array items, h => by
    rw [ofJson, toJson, itemsToJson_ofItems h, Option.map_some]
  | .object members, h => by
    rw [Json.isOrdered, Bool.and_eq_true, decide_eq_true_eq] at h
    have hnone : ∀ m ∈ ([] : List (String × Json)), ∀ m' ∈ members, m.1 < m'.1 :=
      fun _ hmem => absurd hmem List.not_mem_nil
    rw [ofJson, toJson, membersToJson_ofMembers h.2 h.1 hnone, Option.map_some, List.nil_append]

theorem itemsToJson_ofItems {double : UInt64 → List Char} :
    ∀ {items : List Json}, Json.itemsOrdered items = true →
      itemsToJson double (ofItems items) = some items
  | [], _ => rfl
  | item :: items, h => by
    rw [Json.itemsOrdered, Bool.and_eq_true] at h
    simp only [ofItems, itemsToJson, toJson_ofJson h.1, itemsToJson_ofItems h.2]

/-- The members are put behind those that are there, whose keys are before theirs. -/
theorem membersToJson_ofMembers {double : UInt64 → List Char} :
    ∀ {members before : List (String × Json)}, Json.membersOrdered members = true →
      (members.map Prod.fst).Pairwise (· < ·) →
      (∀ m ∈ before, ∀ m' ∈ members, m.1 < m'.1) →
      membersToJson double (ofMembers members) before = some (before ++ members)
  | [], before, _, _, _ => by rw [ofMembers, membersToJson, List.append_nil]
  | (key, value) :: members, before, h, hascend, hbefore => by
    rw [Json.membersOrdered, Bool.and_eq_true] at h
    rw [List.map_cons, List.pairwise_cons] at hascend
    have hinsert : insertMember key value before = before ++ [(key, value)] :=
      insertMember_of_forall_lt fun m hm => hbefore m hm _ List.mem_cons_self
    have hrest : ∀ m ∈ before ++ [(key, value)], ∀ m' ∈ members, m.1 < m'.1 := by
      intro m hm m' hm'
      rcases List.mem_append.mp hm with hm | hm
      · exact hbefore m hm m' (List.mem_cons_of_mem _ hm')
      · rw [List.mem_singleton.mp hm]
        exact hascend.1 m'.1 (List.mem_map_of_mem hm')
    simp only [ofMembers, membersToJson, keyText, toJson_ofJson h.1, hinsert,
      membersToJson_ofMembers h.2 hascend.2 hrest, List.append_assoc, List.singleton_append]

end

mutual

/-- The JSON value of a document is one that a parser builds. -/
theorem isOrdered_of_toJson {double : UInt64 → List Char} :
    ∀ {y : Yaml} {v : Json}, y.toJson double = some v → v.isOrdered = true
  | .null, _, h | .bool _, _, h | .number (.int _), _, h | .string _, _, h => by
    cases h
    rfl
  | .number (.double bits), _, h => by
    rw [toJson] at h
    split_ifs at h with hfinite
    · cases h
      exact hfinite
    · cases h
      rfl
  | .sequence items, _, h => by
    obtain ⟨vs, hvs, rfl⟩ := Option.map_eq_some_iff.mp h
    exact itemsOrdered_of_toJson hvs
  | .mapping entries, _, h => by
    obtain ⟨members, hmembers, rfl⟩ := Option.map_eq_some_iff.mp h
    have hordered : (members.map Prod.fst).Pairwise (· < ·) ∧ Json.membersOrdered members = true :=
      membersOrdered_of_toJson .nil rfl hmembers
    rw [Json.isOrdered, hordered.2, Bool.and_true, decide_eq_true_eq]
    exact hordered.1
  | .tagged tag value, _, h => by
    obtain ⟨v, hv, rfl⟩ := Option.map_eq_some_iff.mp h
    rw [Json.isOrdered, Json.membersOrdered, isOrdered_of_toJson hv]
    rfl

theorem itemsOrdered_of_toJson {double : UInt64 → List Char} :
    ∀ {items : List Yaml} {vs : List Json}, itemsToJson double items = some vs →
      Json.itemsOrdered vs = true
  | [], _, h => by
    cases h
    rfl
  | item :: items, _, h => by
    rw [itemsToJson] at h
    split at h
    · next v vs hv hvs =>
      cases h
      rw [Json.itemsOrdered, isOrdered_of_toJson hv, itemsOrdered_of_toJson hvs]
      rfl
    · cases h

theorem membersOrdered_of_toJson {double : UInt64 → List Char} :
    ∀ {entries : List (Yaml × Yaml)} {before members : List (String × Json)},
      (before.map Prod.fst).Pairwise (· < ·) → Json.membersOrdered before = true →
      membersToJson double entries before = some members →
      (members.map Prod.fst).Pairwise (· < ·) ∧ Json.membersOrdered members = true
  | [], _, _, hascend, hordered, h => by
    cases h
    exact ⟨hascend, hordered⟩
  | (key, value) :: entries, before, members, hascend, hordered, h => by
    rw [membersToJson] at h
    split at h
    · next k v hk hv =>
      exact membersOrdered_of_toJson (insertMember_ascend hascend)
        (membersOrdered_insertMember (isOrdered_of_toJson hv) hordered) h
    · cases h

end

end Yaml

end Botwork.Foundations
