import Botwork.Cli.Labels

/-!
# What the labels tell

The labels of an image as a list of keys and values, every key of which says what it
stands for: the fields of the package and of the server, and for every number the
contents of one entry of a catalog.  Two inputs whose catalogs hold no entry twice with
different contents have the same labels exactly if the labels record the same of them.

## Main definitions

- `Contents`, `Family.contents` — what is recorded of an entry
- `SameRecord` — two inputs of which the same is recorded

## Main results

- `compose_eq_ok` — when there are labels, and which
- `compose_same_iff` — when two inputs have the same labels
-/

namespace Botwork.Cli

open Botwork.Foundations Botwork.ApiCore

-- ════════════════════════════════════════════════════════════════════════
-- Keys
-- ════════════════════════════════════════════════════════════════════════

theorem label_injective : Function.Injective label := fun s s' h => by
  rw [label, label, ← String.toList_inj, String.toList_append, String.toList_append] at h
  exact String.toList_inj.mp (List.append_cancel_left h)

def NoDigit (s : String) : Prop := ∀ c ∈ s.toList, c.isDigit = false

instance (s : String) : Decidable (NoDigit s) :=
  decidable_of_iff (s.toList.all (!Char.isDigit ·) = true) (by simp [NoDigit])

/-- The characters of an entry's key behind the namespace. -/
def entryChars (family : String) (i : Nat) (field : String) : List Char :=
  (family.toList ++ ['.']) ++ (Nat.toDigits 10 i ++ '.' :: field.toList)

theorem entryLabel_eq (family : String) (i : Nat) (field : String) :
    entryLabel family i field = label (String.ofList (entryChars family i field)) := by
  rw [entryLabel, entryChars, ← String.toList_inj]
  simp [label, Nat.toString_eq_repr, Nat.toList_repr]

theorem takeWhile_digits (i : Nat) (rest : List Char) :
    (Nat.toDigits 10 i ++ '.' :: rest).takeWhile Char.isDigit = Nat.toDigits 10 i := by
  rw [List.takeWhile_append_of_pos fun _ hc => Yaml.isDigit_of_mem_toDigits hc,
    List.takeWhile_cons_of_neg (by decide), List.append_nil]

theorem takeWhile_family {family : String} (hfamily : NoDigit family) (i : Nat) (field : String) :
    (entryChars family i field).takeWhile (!Char.isDigit ·) = family.toList ++ ['.'] := by
  have hpos : ∀ c ∈ family.toList ++ ['.'], (!Char.isDigit c) = true := by
    intro c hc
    obtain hc | hc := List.mem_append.mp hc
    · rw [hfamily c hc]
      rfl
    · rw [List.mem_singleton.mp hc]
      rfl
  rw [entryChars, List.takeWhile_append_of_pos hpos]
  obtain ⟨d, ds, hds⟩ := List.exists_cons_of_ne_nil (Nat.toDigits_ne_nil (b := 10) (n := i))
  have hdigit : d.isDigit = true :=
    Yaml.isDigit_of_mem_toDigits (n := i) (by rw [hds]; exact List.mem_cons_self)
  rw [hds, List.cons_append, List.takeWhile_cons_of_neg (by rw [hdigit]; exact nofun),
    List.append_nil]

/-- The key of an entry tells its family, its number and its field. -/
theorem entryLabel_injective {family family' : String} (hfamily : NoDigit family)
    (hfamily' : NoDigit family') {i i' : Nat} {field field' : String}
    (h : entryLabel family i field = entryLabel family' i' field') :
    family = family' ∧ i = i' ∧ field = field' := by
  rw [entryLabel_eq, entryLabel_eq] at h
  have hchars : entryChars family i field = entryChars family' i' field' :=
    String.ofList_inj.mp (label_injective h)
  have hstem : family.toList ++ ['.'] = family'.toList ++ ['.'] := by
    rw [← takeWhile_family hfamily i field, hchars, takeWhile_family hfamily']
  have hrest : Nat.toDigits 10 i ++ '.' :: field.toList =
      Nat.toDigits 10 i' ++ '.' :: field'.toList := by
    rw [entryChars, entryChars, hstem] at hchars
    exact List.append_cancel_left hchars
  have hdigits : Nat.toDigits 10 i = Nat.toDigits 10 i' := by
    rw [← takeWhile_digits i field.toList, hrest, takeWhile_digits]
  refine ⟨String.toList_inj.mp (List.append_cancel_right hstem), ?_, ?_⟩
  · rw [← Nat.ofDigitChars_ten_toDigits (n := i), hdigits, Nat.ofDigitChars_ten_toDigits]
  · rw [hdigits] at hrest
    exact String.toList_inj.mp (List.cons.inj (List.append_cancel_left hrest)).2

/-- A key without digits is no entry's. -/
theorem entryLabel_ne_label {family s : String} (hs : NoDigit s) {i : Nat} {field : String} :
    entryLabel family i field ≠ label s := by
  intro h
  rw [entryLabel_eq] at h
  have hchars : entryChars family i field = s.toList := by
    rw [← label_injective h, String.toList_ofList]
  obtain ⟨d, ds, hds⟩ := List.exists_cons_of_ne_nil (Nat.toDigits_ne_nil (b := 10) (n := i))
  have hmem : d ∈ s.toList := by
    rw [← hchars, entryChars, hds]
    simp
  have hdigit : d.isDigit = true :=
    Yaml.isDigit_of_mem_toDigits (n := i) (by rw [hds]; exact List.mem_cons_self)
  rw [hs d hmem] at hdigit
  cases hdigit

-- ════════════════════════════════════════════════════════════════════════
-- Contents
-- ════════════════════════════════════════════════════════════════════════

/-- What is recorded of an entry: its name or uri, its text and its input schema. -/
structure Contents where
  key : Option String
  text : Option String
  schema : Option Json
  deriving DecidableEq

def Family.contents (family : Family) (entry : Json) : Contents where
  key := (entry.get family.keyField).bind Json.asStr
  text := (entry.get family.textField).bind Json.asStr
  schema := if family.schema then entry.get "inputSchema" else none

/-- The family's key has no digits, and its fields have different names. -/
structure Family.Proper (family : Family) : Prop where
  name : NoDigit family.name
  text : family.textField ≠ family.keyField
  schema_key : "input-schema" ≠ family.keyField
  schema_text : "input-schema" ≠ family.textField

theorem toolFamily_proper : toolFamily.Proper := ⟨by decide, by decide, by decide, by decide⟩

theorem resourceFamily_proper : resourceFamily.Proper :=
  ⟨by decide, by decide, by decide, by decide⟩

theorem promptFamily_proper : promptFamily.Proper := ⟨by decide, by decide, by decide, by decide⟩

/-- An input schema is an object. -/
def Contents.Valid (c : Contents) : Prop := ∀ schema ∈ c.schema, ∃ members, schema = .object members

section

variable (double : UInt64 → List Char)

/-- The fields of the labels of one entry. -/
def Contents.fields (family : Family) (c : Contents) : List (String × String) :=
  [(family.keyField, c.key.getD "")] ++ c.text.toList.map (family.textField, ·) ++
    c.schema.toList.map fun schema => ("input-schema", jsonCompact double schema)

def Contents.labels (family : Family) (i : Nat) (c : Contents) : List (String × String) :=
  (c.fields double family).map fun f => (entryLabel family.name i f.1, f.2)

/-- The labels of entries that are numbered from `i` on. -/
def entryLabels (family : Family) : Nat → List Contents → List (String × String)
  | _, [] => []
  | i, c :: cs => c.labels double family i ++ entryLabels family (i + 1) cs

end

section

variable {double : UInt64 → List Char} {family : Family}

theorem insertSome_eq (out : Labels) (key : String) (value : Option String) :
    insertSome out key value = out.insertAll (value.toList.map (key, ·)) := by
  cases value with
  | none => rfl
  | some v => rfl

theorem addSchema_eq_ok {key : String} {entry : Json} {out out' : Labels} :
    addSchema double key entry out = .ok out' ↔
      (∀ schema ∈ entry.get "inputSchema", ∃ members, schema = .object members) ∧
        out' = out.insertAll ((entry.get "inputSchema").toList.map
          fun schema => (key, jsonCompact double schema)) := by
  rw [addSchema]
  cases entry.get "inputSchema" with
  | none =>
    constructor
    · intro h
      cases h
      exact ⟨nofun, rfl⟩
    · rintro ⟨-, rfl⟩
      rfl
  | some schema =>
    cases schema with
    | object members =>
      constructor
      · intro h
        cases h
        exact ⟨fun schema hschema => ⟨members, (Option.some.inj hschema).symm⟩, rfl⟩
      · rintro ⟨-, rfl⟩
        rfl
    | _ =>
      refine ⟨nofun, fun h => ?_⟩
      obtain ⟨members, hmembers⟩ := h.1 _ rfl
      cases hmembers

theorem addEntry_eq_ok {i : Nat} {entry : Json} {out out' : Labels} :
    addEntry double family i entry out = .ok out' ↔ (family.contents entry).Valid ∧
      out' = out.insertAll ((family.contents entry).labels double family i) := by
  rw [addEntry, insertSome_eq, Contents.labels, Contents.fields, Family.contents, Contents.Valid]
  dsimp only
  split_ifs with hschema
  · rw [addSchema_eq_ok]
    simp only [List.map_append, List.map_map, SortedMap.insertAll_append, List.map_cons,
      List.map_nil]
    rfl
  · simp only [List.map_append, List.map_map, SortedMap.insertAll_append, List.map_cons,
      List.map_nil, Option.toList_none]
    constructor
    · intro h
      cases h
      exact ⟨nofun, rfl⟩
    · rintro ⟨-, rfl⟩
      rfl

theorem addEntries_eq_ok {i : Nat} {entries : List Json} {out out' : Labels} :
    addEntries double family i out entries = .ok out' ↔
      (∀ c ∈ entries.map family.contents, c.Valid) ∧
        out' = out.insertAll (entryLabels double family i (entries.map family.contents)) := by
  induction entries generalizing i out with
  | nil =>
    constructor
    · intro h
      cases h
      exact ⟨fun _ hc => absurd hc List.not_mem_nil, rfl⟩
    · rintro ⟨-, rfl⟩
      rfl
  | cons entry entries ih =>
    rw [addEntries, bind_eq_ok, List.map_cons, entryLabels, SortedMap.insertAll_append,
      List.forall_mem_cons]
    simp only [addEntry_eq_ok, ih]
    constructor
    · rintro ⟨_, ⟨hvalid, rfl⟩, hrest, rfl⟩
      exact ⟨⟨hvalid, hrest⟩, rfl⟩
    · rintro ⟨⟨hvalid, hrest⟩, rfl⟩
      exact ⟨_, ⟨hvalid, rfl⟩, hrest, rfl⟩

-- ════════════════════════════════════════════════════════════════════════
-- Catalogs
-- ════════════════════════════════════════════════════════════════════════

/-- The entries that have a key, under it. -/
def Family.keyed (family : Family) (items : List Json) : List (String × Contents) :=
  items.filterMap fun item => (family.contents item).key.map fun k => (k, family.contents item)

/-- The contents that are recorded of a catalog, by key. -/
def Family.recorded (family : Family) (items : List Json) : SortedMap String Contents :=
  .ofList (family.keyed items)

theorem collect_eq_ok {ε : Type} {key : Json → Except ε String}
    {catalog catalog' : SortedMap String Json} {items : List Json}
    (hkey : ∀ item k, key item = .ok k → (family.contents item).key = some k) :
    collect key catalog items = .ok catalog' ↔ (∀ item ∈ items, ∃ k, key item = .ok k) ∧
      catalog' = catalog.insertAll (items.filterMap fun item =>
        (family.contents item).key.map fun k => (k, item)) := by
  induction items generalizing catalog with
  | nil =>
    constructor
    · intro h
      cases h
      exact ⟨fun _ hitem => absurd hitem List.not_mem_nil, rfl⟩
    · rintro ⟨-, rfl⟩
      rfl
  | cons item items ih =>
    rw [collect, bind_eq_ok, List.forall_mem_cons]
    constructor
    · rintro ⟨k, hk, h⟩
      obtain ⟨hrest, rfl⟩ := ih.mp h
      refine ⟨⟨⟨k, hk⟩, hrest⟩, ?_⟩
      rw [List.filterMap_cons, hkey item k hk]
      rfl
    · rintro ⟨⟨⟨k, hk⟩, hrest⟩, rfl⟩
      refine ⟨k, hk, ih.mpr ⟨hrest, ?_⟩⟩
      rw [List.filterMap_cons, hkey item k hk]
      rfl

/-- A catalog for which there are labels. -/
structure Acceptable {ε : Type} (family : Family) (key : Json → Except ε String)
    (items : List Json) : Prop where
  keys : ∀ item ∈ items, ∃ k, key item = .ok k
  valid : ∀ c ∈ (family.recorded items).entries.map Prod.snd, c.Valid

/-- The labels of a catalog. -/
def catalogLabels (double : UInt64 → List Char) (family : Family) (items : List Json) :
    List (String × String) :=
  (label (family.name ++ ".count"), toString (family.recorded items).size) ::
    entryLabels double family 0 ((family.recorded items).entries.map Prod.snd)

theorem mapValues_catalog (items : List Json) :
    (SortedMap.ofList (items.filterMap fun item =>
      (family.contents item).key.map fun k => (k, item))).mapValues family.contents =
        family.recorded items := by
  rw [SortedMap.mapValues_ofList, Family.recorded, Family.keyed, List.map_filterMap]
  simp only [Option.map_map]
  rfl

theorem addCatalog_eq_ok {ε : Type} {key : Json → Except ε String}
    (hkey : ∀ item k, key item = .ok k → (family.contents item).key = some k) {items : List Json}
    {out out' : Labels} :
    (∃ catalog, collect key .empty items = .ok catalog ∧
      addCatalog double family out catalog = .ok out') ↔
    Acceptable family key items ∧ out' = out.insertAll (catalogLabels double family items) := by
  have hentries : ∀ catalog : SortedMap String Json, catalog.mapValues family.contents =
      family.recorded items →
      (catalog.entries.map Prod.snd).map family.contents =
        (family.recorded items).entries.map Prod.snd ∧
      catalog.size = (family.recorded items).size := by
    intro catalog h
    rw [← h, SortedMap.mapValues, SortedMap.size, SortedMap.size, List.length_map, List.map_map,
      List.map_map]
    exact ⟨rfl, rfl⟩
  constructor
  · rintro ⟨catalog, hcatalog, h⟩
    obtain ⟨hkeys, rfl⟩ := (collect_eq_ok hkey).mp hcatalog
    obtain ⟨hsame, hsize⟩ := hentries _ (mapValues_catalog items)
    rw [SortedMap.ofList] at hsame hsize
    obtain ⟨hvalid, rfl⟩ := addEntries_eq_ok.mp h
    rw [hsame] at hvalid
    refine ⟨⟨hkeys, hvalid⟩, ?_⟩
    rw [hsame, hsize]
    rfl
  · rintro ⟨⟨hkeys, hvalid⟩, rfl⟩
    obtain ⟨hsame, hsize⟩ := hentries _ (mapValues_catalog items)
    refine ⟨_, (collect_eq_ok hkey).mpr ⟨hkeys, rfl⟩, addEntries_eq_ok.mpr ?_⟩
    rw [SortedMap.ofList] at hsame hsize
    rw [hsame, hsize]
    exact ⟨hvalid, rfl⟩

theorem toolName_key {item : Json} {k : String} (h : toolName item = .ok k) :
    (item.get "name").bind Json.asStr = some k ∧ isToolName k = true := by
  rw [toolName] at h
  split at h
  · cases h
  · next name hname =>
    split_ifs at h with hshape
    cases h
    exact ⟨hname, by simpa using hshape⟩

theorem resourceUri_key {item : Json} {k : String} (h : resourceUri item = .ok k) :
    (item.get "uri").bind Json.asStr = some k := by
  rw [resourceUri] at h
  split at h
  · cases h
  · next uri huri =>
    cases h
    exact huri

theorem addTools_eq_ok {items : List Json} {out out' : Labels} :
    addTools double out items = .ok out' ↔ Acceptable toolFamily toolName items ∧
      out' = out.insertAll (catalogLabels double toolFamily items) := by
  have hkey : ∀ item k, toolName item = .ok k → (toolFamily.contents item).key = some k :=
    fun _ _ h => (toolName_key h).1
  rw [← addCatalog_eq_ok hkey, addTools, bind_eq_ok]
  simp only [mapError_eq_ok]
  rfl

theorem addResources_eq_ok {items : List Json} {out out' : Labels} :
    addResources double out items = .ok out' ↔ Acceptable resourceFamily resourceUri items ∧
      out' = out.insertAll (catalogLabels double resourceFamily items) := by
  have hkey : ∀ item k, resourceUri item = .ok k → (resourceFamily.contents item).key = some k :=
    fun _ _ h => resourceUri_key h
  rw [← addCatalog_eq_ok hkey, addResources, bind_eq_ok]

theorem addPrompts_eq_ok {items : List Json} {out out' : Labels} :
    addPrompts double out items = .ok out' ↔ Acceptable promptFamily toolName items ∧
      out' = out.insertAll (catalogLabels double promptFamily items) := by
  have hkey : ∀ item k, toolName item = .ok k → (promptFamily.contents item).key = some k :=
    fun _ _ h => (toolName_key h).1
  rw [← addCatalog_eq_ok hkey, addPrompts, bind_eq_ok]
  simp only [mapError_eq_ok]
  rfl

end

-- ════════════════════════════════════════════════════════════════════════
-- The label set
-- ════════════════════════════════════════════════════════════════════════

section

variable (double : UInt64 → List Char)

/-- The labels that do not stand for entries, behind the namespace. -/
def fixedFields (package : ValidatedPackage) (probe : ProbeResult) : List (String × String) :=
  [("schema-version", labelSchemaVersion), ("name", package.name),
    ("port", toString package.port), ("path", package.path),
    ("upstream-auth", package.upstreamAuth), ("isolation", package.isolation.asWireStr),
    ("egress", jsonCompact double package.egress)] ++
  (package.resources.map (jsonCompact double)).toList.map ("resources", ·) ++
  [("env", jsonCompact double package.env), ("spill.mode", package.spill.mode.asWireStr)] ++
  (package.spill.thresholdBytes.map toString).toList.map ("spill.threshold-bytes", ·) ++
  (package.spill.includeMethods.map commaList).toList.map ("spill.include-methods", ·) ++
  (package.spill.includeTools.map commaList).toList.map ("spill.include-tools", ·) ++
  [("server-info.name", probe.serverInfo.name)] ++
  probe.serverInfo.version.toList.map ("server-info.version", ·) ++
  [("protocol-version", probe.protocolVersion),
    ("capabilities", jsonCompact double probe.capabilities)]

def allLabels (package : ValidatedPackage) (probe : ProbeResult) : List (String × String) :=
  (fixedFields double package probe).map (fun f => (label f.1, f.2)) ++
    catalogLabels double toolFamily probe.tools ++
    catalogLabels double resourceFamily probe.resources ++
    catalogLabels double promptFamily probe.prompts

end

/-- The catalogs of a probe for which there are labels. -/
structure AcceptableProbe (probe : ProbeResult) : Prop where
  tools : Acceptable toolFamily toolName probe.tools
  resources : Acceptable resourceFamily resourceUri probe.resources
  prompts : Acceptable promptFamily toolName probe.prompts

section

variable {double : UInt64 → List Char} {package package' : ValidatedPackage}
  {probe probe' : ProbeResult} {m : Labels}

/-- When there are labels, and which. -/
theorem compose_eq_ok : compose double package probe = .ok m ↔
    AcceptableProbe probe ∧ m = .ofList (allLabels double package probe) := by
  have hfixed : (insertSome ((packageLabels double package).insert (label "server-info.name")
      probe.serverInfo.name) (label "server-info.version") probe.serverInfo.version).insertAll
        [(label "protocol-version", probe.protocolVersion),
          (label "capabilities", jsonCompact double probe.capabilities)] =
      .ofList ((fixedFields double package probe).map fun f => (label f.1, f.2)) := by
    simp only [packageLabels, insertSome_eq, fixedFields, List.map_append, List.map_map,
      SortedMap.ofList, SortedMap.insertAll_append]
    rfl
  have hall : SortedMap.ofList (allLabels double package probe) = (((SortedMap.ofList
      ((fixedFields double package probe).map fun f => (label f.1, f.2))).insertAll
        (catalogLabels double toolFamily probe.tools)).insertAll
        (catalogLabels double resourceFamily probe.resources)).insertAll
        (catalogLabels double promptFamily probe.prompts) := by
    rw [allLabels, SortedMap.ofList, SortedMap.insertAll_append, SortedMap.insertAll_append,
      SortedMap.insertAll_append]
    rfl
  rw [hall, ← hfixed, compose]
  simp only [bind_eq_ok, addTools_eq_ok, addResources_eq_ok, addPrompts_eq_ok]
  constructor
  · rintro ⟨_, ⟨htools, rfl⟩, _, ⟨hresources, rfl⟩, hprompts, rfl⟩
    exact ⟨⟨htools, hresources, hprompts⟩, rfl⟩
  · rintro ⟨⟨htools, hresources, hprompts⟩, rfl⟩
    exact ⟨_, ⟨htools, rfl⟩, _, ⟨hresources, rfl⟩, hprompts, rfl⟩

end

-- ════════════════════════════════════════════════════════════════════════
-- No key stands for two things
-- ════════════════════════════════════════════════════════════════════════

def catalogs (probe : ProbeResult) : List (Family × List Json) :=
  [(toolFamily, probe.tools), (resourceFamily, probe.resources), (promptFamily, probe.prompts)]

def headKeys : List String :=
  ["schema-version", "name", "port", "path", "upstream-auth", "isolation", "egress", "resources",
    "env", "spill.mode", "spill.threshold-bytes", "spill.include-methods", "spill.include-tools",
    "server-info.name", "server-info.version", "protocol-version", "capabilities", "tools.count",
    "resources.count", "prompts.count"]

section

variable (double : UInt64 → List Char)

/-- The labels that do not stand for entries, with the sizes of the catalogs. -/
def headFields (package : ValidatedPackage) (probe : ProbeResult) : List (String × String) :=
  fixedFields double package probe ++ (catalogs probe).map fun catalog =>
    (catalog.1.name ++ ".count", toString (catalog.1.recorded catalog.2).size)

/-- A label of the entry with number `i` in a catalog. -/
def IsEntryLabel (family : Family) (items : List Json) (i : Nat) (field : String × String) : Prop :=
  ∃ c, ((family.recorded items).entries.map Prod.snd)[i]? = some c ∧ field ∈ c.fields double family

end

section

variable {double : UInt64 → List Char} {readDouble : List Char → Option UInt64} {family : Family}
  {package package' : ValidatedPackage} {probe probe' : ProbeResult} {m : Labels}

theorem catalogs_proper {catalog : Family × List Json} (h : catalog ∈ catalogs probe) :
    catalog.1.Proper := by
  simp only [catalogs, List.mem_cons, List.not_mem_nil, or_false] at h
  obtain rfl | rfl | rfl := h
  · exact toolFamily_proper
  · exact resourceFamily_proper
  · exact promptFamily_proper

/-- A catalog is known by the name of its family. -/
theorem catalogs_inj {catalog catalog' : Family × List Json} (h : catalog ∈ catalogs probe)
    (h' : catalog' ∈ catalogs probe) (hname : catalog.1.name = catalog'.1.name) :
    catalog = catalog' := by
  have hnodup : ((catalogs probe).map fun catalog => catalog.1.name).Nodup := by
    show ["tools", "resources", "prompts"].Nodup
    decide
  exact List.inj_on_of_nodup_map hnodup h h' hname

theorem headFields_keys :
    ((headFields double package probe).map Prod.fst).Sublist headKeys := by
  have hopt : ∀ (value : Option String) (key : String),
      ((value.toList.map (key, ·)).map Prod.fst).Sublist [key] := by
    intro value key
    cases value with
    | none => exact List.nil_sublist _
    | some v => exact List.Sublist.refl _
  simp only [headFields, fixedFields, List.map_append]
  exact (((((((((List.Sublist.refl _).append (hopt _ _)).append (.refl _)).append
    (hopt _ _)).append (hopt _ _)).append (hopt _ _)).append (.refl _)).append
    (hopt _ _)).append (.refl _)).append (.refl _)

theorem headFields_consistent : Consistent (headFields double package probe) := by
  have hnodup : headKeys.Nodup := by decide +kernel
  exact consistent_of_nodup (hnodup.sublist headFields_keys)

theorem headFields_noDigit {field : String × String}
    (h : field ∈ headFields double package probe) : NoDigit field.1 := by
  have hall : ∀ key ∈ headKeys, NoDigit key := by decide +kernel
  exact hall _ (headFields_keys.subset (List.mem_map_of_mem h))

theorem mem_fields {c : Contents} {field : String × String} :
    field ∈ c.fields double family ↔ field = (family.keyField, c.key.getD "") ∨
      (∃ text ∈ c.text, field = (family.textField, text)) ∨
      ∃ schema ∈ c.schema, field = ("input-schema", jsonCompact double schema) := by
  simp only [Contents.fields, List.mem_append, List.mem_singleton, List.mem_map, Option.mem_toList,
    or_assoc, eq_comm (b := field), Option.mem_def]

theorem mem_entryLabels {i : Nat} {cs : List Contents} {e : String × String} :
    e ∈ entryLabels double family i cs ↔
      ∃ (j : Nat) (c : Contents), cs[j]? = some c ∧ e ∈ c.labels double family (i + j) := by
  induction cs generalizing i with
  | nil => simp [entryLabels]
  | cons c cs ih =>
    rw [entryLabels, List.mem_append, ih]
    constructor
    · rintro (h | ⟨j, c', hc', h⟩)
      · exact ⟨0, c, rfl, h⟩
      · refine ⟨j + 1, c', hc', ?_⟩
        rwa [Nat.add_right_comm, Nat.add_assoc] at h
    · rintro ⟨j, c', hc', h⟩
      cases j with
      | zero =>
        cases hc'
        exact .inl h
      | succ j =>
        refine .inr ⟨j, c', hc', ?_⟩
        rwa [Nat.add_right_comm, Nat.add_assoc]

theorem mem_allLabels {e : String × String} : e ∈ allLabels double package probe ↔
    (∃ field ∈ headFields double package probe, e = (label field.1, field.2)) ∨
      ∃ catalog ∈ catalogs probe, ∃ i field, IsEntryLabel double catalog.1 catalog.2 i field ∧
        e = (entryLabel catalog.1.name i field.1, field.2) := by
  have hcatalog : ∀ catalog : Family × List Json,
      e ∈ catalogLabels double catalog.1 catalog.2 ↔
        e = (label (catalog.1.name ++ ".count"),
          toString (catalog.1.recorded catalog.2).size) ∨
        ∃ i field, IsEntryLabel double catalog.1 catalog.2 i field ∧
          e = (entryLabel catalog.1.name i field.1, field.2) := by
    intro catalog
    rw [catalogLabels, List.mem_cons, mem_entryLabels]
    simp only [Contents.labels, List.mem_map, Nat.zero_add]
    refine or_congr_right ⟨?_, ?_⟩
    · rintro ⟨i, c, hc, field, hfield, rfl⟩
      exact ⟨i, field, ⟨c, hc, hfield⟩, rfl⟩
    · rintro ⟨i, field, ⟨c, hc, hfield⟩, rfl⟩
      exact ⟨i, c, hc, field, hfield, rfl⟩
  have hhead : (∃ field ∈ headFields double package probe, e = (label field.1, field.2)) ↔
      e ∈ (fixedFields double package probe).map (fun f => (label f.1, f.2)) ∨
        ∃ catalog ∈ catalogs probe, e = (label (catalog.1.name ++ ".count"),
          toString (catalog.1.recorded catalog.2).size) := by
    simp only [headFields, List.mem_append, or_and_right, exists_or, List.mem_map]
    refine or_congr ?_ ?_
    · exact exists_congr fun f => and_congr_right fun _ => eq_comm
    · constructor
      · rintro ⟨field, ⟨catalog, hmem, rfl⟩, rfl⟩
        exact ⟨catalog, hmem, rfl⟩
      · rintro ⟨catalog, hmem, rfl⟩
        exact ⟨_, ⟨catalog, hmem, rfl⟩, rfl⟩
  have hunion : e ∈ allLabels double package probe ↔
      e ∈ (fixedFields double package probe).map (fun f => (label f.1, f.2)) ∨
        ∃ catalog ∈ catalogs probe, e ∈ catalogLabels double catalog.1 catalog.2 := by
    simp only [allLabels, catalogs, List.mem_append, List.mem_cons, List.not_mem_nil, or_false,
      exists_eq_or_imp, exists_eq_left, or_assoc]
  rw [hunion, hhead, or_assoc]
  refine or_congr_right ?_
  simp only [hcatalog, and_or_left, exists_or]

theorem fields_consistent (hproper : family.Proper) (c : Contents) :
    Consistent (c.fields double family) := by
  intro e he e' he' heq
  rw [mem_fields] at he he'
  obtain rfl | ⟨text, htext, rfl⟩ | ⟨schema, hschema, rfl⟩ := he
  · obtain rfl | ⟨text', htext', rfl⟩ | ⟨schema', hschema', rfl⟩ := he'
    · rfl
    · exact absurd heq.symm hproper.text
    · exact absurd heq.symm hproper.schema_key
  · obtain rfl | ⟨text', htext', rfl⟩ | ⟨schema', hschema', rfl⟩ := he'
    · exact absurd heq hproper.text
    · exact Option.mem_unique htext htext'
    · exact absurd heq.symm hproper.schema_text
  · obtain rfl | ⟨text', htext', rfl⟩ | ⟨schema', hschema', rfl⟩ := he'
    · exact absurd heq hproper.schema_key
    · exact absurd heq hproper.schema_text
    · exact congrArg (jsonCompact double) (Option.mem_unique hschema hschema')

theorem allLabels_consistent : Consistent (allLabels double package probe) := by
  intro e he e' he' hkey
  rw [mem_allLabels] at he he'
  obtain ⟨field, hfield, rfl⟩ | ⟨catalog, hcatalog, i, field, hfield, rfl⟩ := he
  · obtain ⟨field', hfield', rfl⟩ | ⟨catalog', hcatalog', i', field', hfield', rfl⟩ := he'
    · show field.2 = field'.2
      exact headFields_consistent _ hfield _ hfield' (label_injective hkey)
    · exact absurd hkey.symm (entryLabel_ne_label (headFields_noDigit hfield))
  · obtain ⟨field', hfield', rfl⟩ | ⟨catalog', hcatalog', i', field', hfield', rfl⟩ := he'
    · exact absurd hkey (entryLabel_ne_label (headFields_noDigit hfield'))
    · obtain ⟨hname, rfl, hfst⟩ := entryLabel_injective (catalogs_proper hcatalog).name
        (catalogs_proper hcatalog').name hkey
      obtain rfl := catalogs_inj hcatalog hcatalog' hname
      obtain ⟨c, hc, hfield⟩ := hfield
      obtain ⟨c', hc', hfield'⟩ := hfield'
      rw [hc] at hc'
      cases hc'
      show field.2 = field'.2
      exact fields_consistent (catalogs_proper hcatalog) c _ hfield _ hfield' hfst

/-- What is found under a key without digits, and under the key of an entry. -/
theorem get?_label {s v : String} (hs : NoDigit s) :
    (SortedMap.ofList (allLabels double package probe)).get? (label s) = some v ↔
      (s, v) ∈ headFields double package probe := by
  rw [SortedMap.get?_ofList allLabels_consistent, mem_allLabels]
  constructor
  · rintro (⟨field, hfield, heq⟩ | ⟨catalog, -, i, field, -, heq⟩)
    · obtain ⟨hkey, rfl⟩ := Prod.mk.inj heq
      obtain rfl := label_injective hkey
      exact hfield
    · exact absurd (Prod.mk.inj heq).1.symm (entryLabel_ne_label hs)
  · exact fun h => .inl ⟨(s, v), h, rfl⟩

theorem get?_entryLabel {catalog : Family × List Json} (hcatalog : catalog ∈ catalogs probe)
    {i : Nat} {field : String × String} :
    (SortedMap.ofList (allLabels double package probe)).get?
        (entryLabel catalog.1.name i field.1) = some field.2 ↔
      IsEntryLabel double catalog.1 catalog.2 i field := by
  rw [SortedMap.get?_ofList allLabels_consistent, mem_allLabels]
  constructor
  · rintro (⟨field', hfield', heq⟩ | ⟨catalog', hcatalog', i', field', hfield', heq⟩)
    · exact absurd (Prod.mk.inj heq).1 (entryLabel_ne_label (headFields_noDigit hfield'))
    · obtain ⟨hkey, hvalue⟩ := Prod.mk.inj heq
      obtain ⟨hname, rfl, hfst⟩ := entryLabel_injective (catalogs_proper hcatalog).name
        (catalogs_proper hcatalog').name hkey
      obtain rfl := catalogs_inj hcatalog hcatalog' hname
      rw [Prod.ext hfst hvalue]
      exact hfield'
  · exact fun h => .inr ⟨catalog, hcatalog, i, field, h, rfl⟩

-- ════════════════════════════════════════════════════════════════════════
-- Entries from their labels
-- ════════════════════════════════════════════════════════════════════════

/-- Contents of entries of a catalog: they have a key, and a schema that a parser built. -/
structure Recordable (c : Contents) : Prop where
  key : c.key.isSome = true
  schema : ∀ schema ∈ c.schema, schema.isOrdered = true

theorem mem_fields_key (hproper : family.Proper) {c : Contents} {v : String} :
    (family.keyField, v) ∈ c.fields double family ↔ v = c.key.getD "" := by
  rw [mem_fields]
  constructor
  · rintro (heq | ⟨_, -, heq⟩ | ⟨_, -, heq⟩)
    · exact (Prod.mk.inj heq).2
    · exact absurd (Prod.mk.inj heq).1.symm hproper.text
    · exact absurd (Prod.mk.inj heq).1.symm hproper.schema_key
  · rintro rfl
    exact .inl rfl

theorem mem_fields_text (hproper : family.Proper) {c : Contents} {v : String} :
    (family.textField, v) ∈ c.fields double family ↔ v ∈ c.text := by
  rw [mem_fields]
  constructor
  · rintro (heq | ⟨text, htext, heq⟩ | ⟨_, -, heq⟩)
    · exact absurd (Prod.mk.inj heq).1 hproper.text
    · rw [(Prod.mk.inj heq).2]
      exact htext
    · exact absurd (Prod.mk.inj heq).1.symm hproper.schema_text
  · exact fun h => .inr (.inl ⟨v, h, rfl⟩)

theorem mem_fields_schema (hproper : family.Proper) {c : Contents} {v : String} :
    ("input-schema", v) ∈ c.fields double family ↔
      ∃ schema ∈ c.schema, v = jsonCompact double schema := by
  rw [mem_fields]
  constructor
  · rintro (heq | ⟨_, -, heq⟩ | ⟨schema, hschema, heq⟩)
    · exact absurd (Prod.mk.inj heq).1 hproper.schema_key
    · exact absurd (Prod.mk.inj heq).1 hproper.schema_text
    · exact ⟨schema, hschema, (Prod.mk.inj heq).2⟩
  · rintro ⟨schema, hschema, rfl⟩
    exact .inr (.inr ⟨schema, hschema, rfl⟩)

theorem jsonCompact_injective (hdouble : Yaml.DoubleText double readDouble) {v w : Json}
    (hv : v.isOrdered = true) (hw : w.isOrdered = true)
    (h : jsonCompact double v = jsonCompact double w) : v = w :=
  Json.text_injective hdouble hv hw (String.ofList_inj.mp h)

/-- A schema of the one is a schema of the other, if its label is. -/
theorem schema_mem (hdouble : Yaml.DoubleText double readDouble) (hproper : family.Proper)
    {c c' : Contents} (hc : Recordable c) (hc' : Recordable c')
    (h : ∀ field, field ∈ c.fields double family → field ∈ c'.fields double family)
    {schema : Json} (hschema : schema ∈ c.schema) : schema ∈ c'.schema := by
  obtain ⟨schema', hschema', heq⟩ := (mem_fields_schema hproper).mp
    (h _ ((mem_fields_schema hproper).mpr ⟨schema, hschema, rfl⟩))
  rw [jsonCompact_injective hdouble (hc.schema _ hschema) (hc'.schema _ hschema') heq]
  exact hschema'

/-- The contents are known by their fields. -/
theorem contents_eq (hdouble : Yaml.DoubleText double readDouble) (hproper : family.Proper)
    {c c' : Contents} (hc : Recordable c) (hc' : Recordable c')
    (h : ∀ field, field ∈ c.fields double family ↔ field ∈ c'.fields double family) : c = c' := by
  have hkey : c.key = c'.key := by
    obtain ⟨key, hkey⟩ := Option.isSome_iff_exists.mp hc.key
    obtain ⟨key', hkey'⟩ := Option.isSome_iff_exists.mp hc'.key
    have heq := (mem_fields_key hproper).mp ((h _).mp ((mem_fields_key hproper).mpr rfl))
    rw [hkey, hkey'] at heq
    rw [hkey, hkey']
    exact congrArg some heq
  have htext : c.text = c'.text := Option.ext fun text => by
    have hfield := h (family.textField, text)
    rwa [mem_fields_text hproper, mem_fields_text hproper] at hfield
  have hschema : c.schema = c'.schema := Option.ext fun schema =>
    ⟨schema_mem hdouble hproper hc hc' fun field => (h field).mp,
      schema_mem hdouble hproper hc' hc fun field => (h field).mpr⟩
  cases c
  cases c'
  cases hkey
  cases htext
  cases hschema
  rfl

-- ════════════════════════════════════════════════════════════════════════
-- Catalogs from their labels
-- ════════════════════════════════════════════════════════════════════════

/-- The items of a catalog are values that a parser builds. -/
def ItemsParsed (items : List Json) : Prop := ∀ item ∈ items, item.isOrdered = true

instance (items : List Json) : Decidable (ItemsParsed items) :=
  inferInstanceAs (Decidable (∀ item ∈ items, item.isOrdered = true))

/-- No key stands in a catalog with two contents. -/
def Family.NoConflicts (family : Family) (items : List Json) : Prop :=
  ∀ c ∈ items.map family.contents, ∀ c' ∈ items.map family.contents, c.key = c'.key → c = c'

instance (family : Family) (items : List Json) : Decidable (family.NoConflicts items) :=
  inferInstanceAs (Decidable (∀ c ∈ items.map family.contents,
    ∀ c' ∈ items.map family.contents, c.key = c'.key → c = c'))

/-- Two catalogs list the same contents, in whatever order and however often. -/
def Family.SameContents (family : Family) (items items' : List Json) : Prop :=
  ∀ c, c ∈ items.map family.contents ↔ c ∈ items'.map family.contents

variable {items items' : List Json}

theorem mem_keyed {k : String} {c : Contents} :
    (k, c) ∈ family.keyed items ↔ c ∈ items.map family.contents ∧ c.key = some k := by
  simp only [Family.keyed, List.mem_filterMap, Option.map_eq_some_iff, List.mem_map]
  constructor
  · rintro ⟨item, hitem, key, hkey, heq⟩
    cases heq
    exact ⟨⟨item, hitem, rfl⟩, hkey⟩
  · rintro ⟨⟨item, hitem, rfl⟩, hkey⟩
    exact ⟨item, hitem, k, hkey, rfl⟩

theorem keyed_consistent (h : family.NoConflicts items) : Consistent (family.keyed items) := by
  rintro ⟨k, c⟩ he ⟨k', c'⟩ he' rfl
  obtain ⟨hc, hkey⟩ := mem_keyed.mp he
  obtain ⟨hc', hkey'⟩ := mem_keyed.mp he'
  exact h c hc c' hc' (hkey.trans hkey'.symm)

theorem recorded_congr (h : family.NoConflicts items) (hsame : family.SameContents items items') :
    family.recorded items = family.recorded items' :=
  SortedMap.ofList_congr (keyed_consistent h) fun e => by
    obtain ⟨k, c⟩ := e
    rw [mem_keyed, mem_keyed, hsame c]

theorem recorded_sound {c : Contents}
    (h : c ∈ (family.recorded items).entries.map Prod.snd) :
    c ∈ items.map family.contents ∧ c.key.isSome = true := by
  obtain ⟨⟨k, c⟩, he, rfl⟩ := List.mem_map.mp h
  have hmem := (SortedMap.mem_of_get?_insertAll (SortedMap.get?_eq_some.mpr he)).resolve_right nofun
  obtain ⟨hc, hkey⟩ := mem_keyed.mp hmem
  exact ⟨hc, by rw [hkey]; rfl⟩

/-- Where nothing conflicts, everything with a key is recorded. -/
theorem mem_recorded (h : family.NoConflicts items)
    (hkeys : ∀ c ∈ items.map family.contents, c.key.isSome = true) {c : Contents} :
    c ∈ (family.recorded items).entries.map Prod.snd ↔ c ∈ items.map family.contents := by
  constructor
  · exact fun hc => (recorded_sound hc).1
  · intro hc
    obtain ⟨k, hk⟩ := Option.isSome_iff_exists.mp (hkeys c hc)
    have hget := (SortedMap.get?_ofList (keyed_consistent h)).mpr (mem_keyed.mpr ⟨hc, hk⟩)
    exact List.mem_map_of_mem (f := Prod.snd) (SortedMap.get?_eq_some.mp hget)

theorem recorded_recordable (hparsed : ItemsParsed items) {c : Contents}
    (h : c ∈ (family.recorded items).entries.map Prod.snd) : Recordable c := by
  obtain ⟨hc, hkey⟩ := recorded_sound h
  obtain ⟨item, hitem, rfl⟩ := List.mem_map.mp hc
  refine ⟨hkey, fun schema hschema => ?_⟩
  have hget : item.get "inputSchema" = some schema := by
    simp only [Family.contents, Option.mem_def] at hschema
    split_ifs at hschema
    exact hschema
  obtain ⟨members, rfl, hmember⟩ := Json.get_eq_some.mp hget
  have hordered := hparsed _ hitem
  rw [Json.isOrdered, Bool.and_eq_true] at hordered
  exact Json.isOrdered_of_member? hordered.2 hmember

/-- Catalogs with the same labels record the same. -/
theorem recorded_eq (hdouble : Yaml.DoubleText double readDouble) (hproper : family.Proper)
    (hparsed : ItemsParsed items) (hparsed' : ItemsParsed items')
    (h : ∀ i field, IsEntryLabel double family items i field ↔
      IsEntryLabel double family items' i field) :
    (family.recorded items).entries.map Prod.snd =
      (family.recorded items').entries.map Prod.snd := by
  have hstep : ∀ {items items' : List Json}, ItemsParsed items → ItemsParsed items' →
      (∀ i field, IsEntryLabel double family items i field ↔
        IsEntryLabel double family items' i field) → ∀ {i : Nat} {c : Contents},
      ((family.recorded items).entries.map Prod.snd)[i]? = some c →
      ((family.recorded items').entries.map Prod.snd)[i]? = some c := by
    intro items items' hparsed hparsed' h i c hc
    obtain ⟨c', hc', -⟩ := (h i (family.keyField, c.key.getD "")).mp
      ⟨c, hc, (mem_fields_key hproper).mpr rfl⟩
    have hfields : ∀ field, field ∈ c.fields double family ↔ field ∈ c'.fields double family := by
      intro field
      have hfield := h i field
      simp only [IsEntryLabel, hc, hc', Option.some.injEq, exists_eq_left'] at hfield
      exact hfield
    rw [contents_eq hdouble hproper (recorded_recordable hparsed (List.mem_of_getElem? hc))
      (recorded_recordable hparsed' (List.mem_of_getElem? hc')) hfields]
    exact hc'
  refine List.ext_getElem? fun i => Option.ext fun c => ?_
  exact ⟨hstep hparsed hparsed' h, hstep hparsed' hparsed fun i field => (h i field).symm⟩

end

-- ════════════════════════════════════════════════════════════════════════
-- Equal label sets
-- ════════════════════════════════════════════════════════════════════════

/-- The values of a probe are values that a parser builds. -/
structure ProbeResult.Parsed (probe : ProbeResult) : Prop where
  capabilities : probe.capabilities.isOrdered = true
  tools : ItemsParsed probe.tools
  resources : ItemsParsed probe.resources
  prompts : ItemsParsed probe.prompts

/-- No catalog lists an entry twice with different contents. -/
structure ProbeResult.NoConflicts (probe : ProbeResult) : Prop where
  tools : toolFamily.NoConflicts probe.tools
  resources : resourceFamily.NoConflicts probe.resources
  prompts : promptFamily.NoConflicts probe.prompts

/-- What the labels record of two packages and what was probed of their images is the
    same; of an allowlist that is its entries with commas between them. -/
structure SameRecord (package package' : ValidatedPackage) (probe probe' : ProbeResult) :
    Prop where
  name : package.name = package'.name
  port : package.port = package'.port
  path : package.path = package'.path
  upstreamAuth : package.upstreamAuth = package'.upstreamAuth
  env : package.env = package'.env
  resources : package.resources = package'.resources
  egress : package.egress = package'.egress
  isolation : package.isolation = package'.isolation
  spillMode : package.spill.mode = package'.spill.mode
  thresholdBytes : package.spill.thresholdBytes = package'.spill.thresholdBytes
  includeMethods :
    package.spill.includeMethods.map commaList = package'.spill.includeMethods.map commaList
  includeTools :
    package.spill.includeTools.map commaList = package'.spill.includeTools.map commaList
  serverInfo : probe.serverInfo = probe'.serverInfo
  protocolVersion : probe.protocolVersion = probe'.protocolVersion
  capabilities : probe.capabilities = probe'.capabilities
  toolList : toolFamily.SameContents probe.tools probe'.tools
  resourceList : resourceFamily.SameContents probe.resources probe'.resources
  promptList : promptFamily.SameContents probe.prompts probe'.prompts

section

variable {double : UInt64 → List Char} {readDouble : List Char → Option UInt64}
  {package package' : ValidatedPackage} {probe probe' : ProbeResult} {m : Labels}

theorem Isolation.asWireStr_injective : Function.Injective Isolation.asWireStr := by
  intro a b h
  cases a <;> cases b <;> first | rfl | exact absurd h (by decide)

theorem SpillMode.asWireStr_injective : Function.Injective SpillMode.asWireStr := by
  intro a b h
  cases a <;> cases b <;> first | rfl | exact absurd h (by decide)

theorem toString_nat_injective : Function.Injective (toString : Nat → String) := by
  intro m n h
  have hdigits : Nat.toDigits 10 m = Nat.toDigits 10 n := by
    rw [← Nat.toList_repr, ← Nat.toList_repr]
    exact congrArg String.toList h
  rw [← Nat.ofDigitChars_ten_toDigits (n := m), hdigits, Nat.ofDigitChars_ten_toDigits]

theorem optionCompact_injective (hdouble : Yaml.DoubleText double readDouble)
    {value value' : Option Json} (hvalue : ∀ v ∈ value, v.isOrdered = true)
    (hvalue' : ∀ v ∈ value', v.isOrdered = true)
    (h : value.map (jsonCompact double) = value'.map (jsonCompact double)) : value = value' := by
  cases value with
  | none =>
    cases value' with
    | none => rfl
    | some v' => cases h
  | some v =>
    cases value' with
    | none => cases h
    | some v' =>
      exact congrArg some (jsonCompact_injective hdouble (hvalue v rfl) (hvalue' v' rfl)
        (Option.some.inj h))

/-- What the labels without numbers tell. -/
structure SameHead (double : UInt64 → List Char) (package package' : ValidatedPackage)
    (probe probe' : ProbeResult) : Prop where
  fields : ∀ s v, NoDigit s →
    ((s, v) ∈ headFields double package probe ↔ (s, v) ∈ headFields double package' probe')

theorem SameHead.value (h : SameHead double package package' probe probe') {s v v' : String}
    (hv : (s, v) ∈ headFields double package probe)
    (hv' : (s, v') ∈ headFields double package' probe') : v = v' :=
  headFields_consistent _ ((h.fields s v (headFields_noDigit hv)).mp hv) _ hv' rfl

theorem SameHead.option (h : SameHead double package package' probe probe') {s : String}
    {value value' : Option String}
    (hvalue : ∀ v, (s, v) ∈ headFields double package probe ↔ v ∈ value)
    (hvalue' : ∀ v, (s, v) ∈ headFields double package' probe' ↔ v ∈ value') : value = value' := by
  ext v
  constructor
  · intro hv
    have hmem := (hvalue v).mpr hv
    exact (hvalue' v).mp ((h.fields s v (headFields_noDigit hmem)).mp hmem)
  · intro hv
    have hmem := (hvalue' v).mpr hv
    exact (hvalue v).mp ((h.fields s v (headFields_noDigit hmem)).mpr hmem)

/-- Equal fields of packages and servers, if the labels without numbers are equal. -/
theorem SameHead.record (hdouble : Yaml.DoubleText double readDouble)
    (hpackage : WellFormedPackage package) (hpackage' : WellFormedPackage package')
    (hprobe : probe.Parsed) (hprobe' : probe'.Parsed)
    (h : SameHead double package package' probe probe')
    (htools : toolFamily.SameContents probe.tools probe'.tools)
    (hresources : resourceFamily.SameContents probe.resources probe'.resources)
    (hprompts : promptFamily.SameContents probe.prompts probe'.prompts) :
    SameRecord package package' probe probe' where
  name := by
    refine h.value (s := "name") ?_ ?_ <;> simp [headFields, fixedFields]
  port := by
    refine toString_nat_injective (h.value (s := "port") ?_ ?_) <;>
      simp [headFields, fixedFields]
  path := by
    refine h.value (s := "path") ?_ ?_ <;> simp [headFields, fixedFields]
  upstreamAuth := by
    refine h.value (s := "upstream-auth") ?_ ?_ <;> simp [headFields, fixedFields]
  env := by
    refine jsonCompact_injective hdouble hpackage.env hpackage'.env
      (h.value (s := "env") ?_ ?_) <;> simp [headFields, fixedFields]
  resources := by
    have hlabels : package.resources.map (jsonCompact double) =
        package'.resources.map (jsonCompact double) := by
      refine h.option (s := "resources") ?_ ?_ <;>
        simp [headFields, fixedFields, catalogs, toolFamily, resourceFamily, promptFamily]
    exact optionCompact_injective hdouble hpackage.resources hpackage'.resources hlabels
  egress := by
    refine jsonCompact_injective hdouble hpackage.egress hpackage'.egress
      (h.value (s := "egress") ?_ ?_) <;> simp [headFields, fixedFields]
  isolation := by
    refine Isolation.asWireStr_injective (h.value (s := "isolation") ?_ ?_) <;>
      simp [headFields, fixedFields]
  spillMode := by
    refine SpillMode.asWireStr_injective (h.value (s := "spill.mode") ?_ ?_) <;>
      simp [headFields, fixedFields]
  thresholdBytes := by
    refine Option.map_injective toString_nat_injective
      (h.option (s := "spill.threshold-bytes") ?_ ?_) <;>
      simp [headFields, fixedFields, catalogs, toolFamily, resourceFamily, promptFamily]
  includeMethods := by
    refine h.option (s := "spill.include-methods") ?_ ?_ <;>
      simp [headFields, fixedFields, catalogs, toolFamily, resourceFamily, promptFamily]
  includeTools := by
    refine h.option (s := "spill.include-tools") ?_ ?_ <;>
      simp [headFields, fixedFields, catalogs, toolFamily, resourceFamily, promptFamily]
  serverInfo := by
    have hname : probe.serverInfo.name = probe'.serverInfo.name := by
      refine h.value (s := "server-info.name") ?_ ?_ <;> simp [headFields, fixedFields]
    have hversion : probe.serverInfo.version = probe'.serverInfo.version := by
      refine h.option (s := "server-info.version") ?_ ?_ <;>
        simp [headFields, fixedFields, catalogs, toolFamily, resourceFamily, promptFamily]
    exact ServerInfo.ext hname hversion
  protocolVersion := by
    refine h.value (s := "protocol-version") ?_ ?_ <;> simp [headFields, fixedFields]
  capabilities := by
    refine jsonCompact_injective hdouble hprobe.capabilities hprobe'.capabilities
      (h.value (s := "capabilities") ?_ ?_) <;> simp [headFields, fixedFields]
  toolList := htools
  resourceList := hresources
  promptList := hprompts

/-- Catalogs with the same labels list the same contents. -/
theorem sameContents_of_labels {ε : Type} (hdouble : Yaml.DoubleText double readDouble)
    {family : Family} (hproper : family.Proper) {key : Json → Except ε String}
    (hkey : ∀ item k, key item = .ok k → (family.contents item).key = some k)
    {items items' : List Json} (hparsed : ItemsParsed items) (hparsed' : ItemsParsed items')
    (hconflicts : family.NoConflicts items) (hconflicts' : family.NoConflicts items')
    (haccept : Acceptable family key items) (haccept' : Acceptable family key items')
    (h : ∀ i field, IsEntryLabel double family items i field ↔
      IsEntryLabel double family items' i field) : family.SameContents items items' := by
  have hkeys : ∀ {items : List Json}, Acceptable family key items →
      ∀ c ∈ items.map family.contents, c.key.isSome = true := by
    intro items haccept c hc
    obtain ⟨item, hitem, rfl⟩ := List.mem_map.mp hc
    obtain ⟨k, hk⟩ := haccept.keys item hitem
    rw [hkey item k hk]
    rfl
  intro c
  rw [← mem_recorded hconflicts (hkeys haccept), ← mem_recorded hconflicts' (hkeys haccept'),
    recorded_eq hdouble hproper hparsed hparsed' h]

/-- A catalog with the contents of an acceptable one is acceptable. -/
theorem Acceptable.congr {ε : Type} {family : Family} {key : Json → Except ε String}
    (hkey : ∀ item item', family.contents item = family.contents item' →
      (∃ k, key item = .ok k) → ∃ k, key item' = .ok k)
    {items items' : List Json} (hconflicts : family.NoConflicts items)
    (hsame : family.SameContents items items') (h : Acceptable family key items) :
    Acceptable family key items' := by
  constructor
  · intro item' hitem'
    obtain ⟨item, hitem, heq⟩ := List.mem_map.mp
      ((hsame (family.contents item')).mpr (List.mem_map_of_mem hitem'))
    exact hkey item item' heq (h.keys item hitem)
  · rw [← recorded_congr hconflicts hsame]
    exact h.valid

theorem toolName_congr {family : Family} (hfamily : family.keyField = "name") {item item' : Json}
    (h : family.contents item = family.contents item') (hk : ∃ k, toolName item = .ok k) :
    ∃ k, toolName item' = .ok k := by
  have hname : (item.get "name").bind Json.asStr = (item'.get "name").bind Json.asStr := by
    rw [← hfamily]
    exact congrArg Contents.key h
  rwa [toolName, ← hname, ← toolName]

theorem resourceUri_congr {item item' : Json}
    (h : resourceFamily.contents item = resourceFamily.contents item')
    (hk : ∃ k, resourceUri item = .ok k) : ∃ k, resourceUri item' = .ok k := by
  have huri : (item.get "uri").bind Json.asStr = (item'.get "uri").bind Json.asStr :=
    congrArg Contents.key h
  rwa [resourceUri, ← huri, ← resourceUri]

theorem AcceptableProbe.congr (h : AcceptableProbe probe) (hconflicts : probe.NoConflicts)
    (hsame : SameRecord package package' probe probe') : AcceptableProbe probe' where
  tools := h.tools.congr (fun _ _ => toolName_congr rfl) hconflicts.tools hsame.toolList
  resources := h.resources.congr (fun _ _ => resourceUri_congr) hconflicts.resources
    hsame.resourceList
  prompts := h.prompts.congr (fun _ _ => toolName_congr rfl) hconflicts.prompts hsame.promptList

theorem allLabels_congr (hconflicts : probe.NoConflicts)
    (hsame : SameRecord package package' probe probe') :
    allLabels double package probe = allLabels double package' probe' := by
  rw [allLabels, allLabels, catalogLabels, catalogLabels, catalogLabels, catalogLabels,
    catalogLabels, catalogLabels, recorded_congr hconflicts.tools hsame.toolList,
    recorded_congr hconflicts.resources hsame.resourceList,
    recorded_congr hconflicts.prompts hsame.promptList, fixedFields, fixedFields, hsame.name,
    hsame.port, hsame.path, hsame.upstreamAuth, hsame.env, hsame.resources, hsame.egress,
    hsame.isolation, hsame.spillMode, hsame.thresholdBytes, hsame.includeMethods,
    hsame.includeTools, hsame.serverInfo, hsame.protocolVersion, hsame.capabilities]

/-- Two inputs have the same labels exactly if the same is recorded of them. -/
theorem compose_same_iff (hdouble : Yaml.DoubleText double readDouble)
    (hpackage : WellFormedPackage package) (hpackage' : WellFormedPackage package')
    (hprobe : probe.Parsed) (hprobe' : probe'.Parsed) (hconflicts : probe.NoConflicts)
    (hconflicts' : probe'.NoConflicts) (h : compose double package probe = .ok m) :
    compose double package' probe' = .ok m ↔ SameRecord package package' probe probe' := by
  obtain ⟨haccept, hlabels⟩ := compose_eq_ok.mp h
  rw [compose_eq_ok, hlabels]
  constructor
  · rintro ⟨haccept', hm⟩
    have hhead : SameHead double package package' probe probe' := ⟨fun s v hs => by
      rw [← get?_label hs, ← get?_label hs, hm]⟩
    have hentry : ∀ catalog ∈ catalogs probe, ∀ catalog' ∈ catalogs probe',
        catalog.1 = catalog'.1 → ∀ i field, IsEntryLabel double catalog.1 catalog.2 i field ↔
          IsEntryLabel double catalog'.1 catalog'.2 i field := by
      intro catalog hcatalog catalog' hcatalog' heq i field
      rw [← get?_entryLabel hcatalog, ← get?_entryLabel hcatalog', hm, heq]
    refine hhead.record hdouble hpackage hpackage' hprobe hprobe' ?_ ?_ ?_
    · exact sameContents_of_labels hdouble toolFamily_proper (fun _ _ h => (toolName_key h).1)
        hprobe.tools hprobe'.tools hconflicts.tools hconflicts'.tools haccept.tools haccept'.tools
        (hentry (toolFamily, probe.tools) (by simp [catalogs]) (toolFamily, probe'.tools)
          (by simp [catalogs]) rfl)
    · exact sameContents_of_labels hdouble resourceFamily_proper (fun _ _ h => resourceUri_key h)
        hprobe.resources hprobe'.resources hconflicts.resources hconflicts'.resources
        haccept.resources haccept'.resources
        (hentry (resourceFamily, probe.resources) (by simp [catalogs])
          (resourceFamily, probe'.resources) (by simp [catalogs]) rfl)
    · exact sameContents_of_labels hdouble promptFamily_proper (fun _ _ h => (toolName_key h).1)
        hprobe.prompts hprobe'.prompts hconflicts.prompts hconflicts'.prompts haccept.prompts
        haccept'.prompts
        (hentry (promptFamily, probe.prompts) (by simp [catalogs])
          (promptFamily, probe'.prompts) (by simp [catalogs]) rfl)
  · intro hsame
    exact ⟨haccept.congr hconflicts hsame, congrArg SortedMap.ofList
      (allLabels_congr hconflicts hsame)⟩

/-- Every key is one of the namespace. -/
theorem compose_keys (h : compose double package probe = .ok m) {k : String} (hk : k ∈ m.keys) :
    ∃ suffix, k = label suffix := by
  obtain ⟨-, hlabels⟩ := compose_eq_ok.mp h
  rw [hlabels] at hk
  obtain ⟨v, hv⟩ := Option.isSome_iff_exists.mp (SortedMap.mem_keys.mp hk)
  rw [SortedMap.get?_ofList allLabels_consistent, mem_allLabels] at hv
  obtain ⟨field, -, heq⟩ | ⟨catalog, -, i, field, -, heq⟩ := hv
  · exact ⟨field.1, (Prod.mk.inj heq).1⟩
  · exact ⟨_, (Prod.mk.inj heq).1⟩

end

-- ════════════════════════════════════════════════════════════════════════
-- Allowlists
-- ════════════════════════════════════════════════════════════════════════

/-- No entry of an allowlist holds a comma. -/
def CommaFree (entries : Option (List String)) : Prop :=
  ∀ list ∈ entries, ∀ entry ∈ list, ',' ∉ entry.toList

theorem commaList_injective {list list' : List String} (hne : list ≠ []) (hne' : list' ≠ [])
    (hfree : ∀ entry ∈ list, ',' ∉ entry.toList) (hfree' : ∀ entry ∈ list', ',' ∉ entry.toList)
    (h : commaList list = commaList list') : list = list' := by
  have hsplit : ∀ {list : List String}, list ≠ [] → (∀ entry ∈ list, ',' ∉ entry.toList) →
      (commaList list).toList.splitOn ',' = list.map String.toList := by
    intro list hne hfree
    rw [commaList, String.toList_intercalate]
    refine List.splitOn_intercalate ',' (fun piece hpiece => ?_) (by simpa using hne)
    obtain ⟨entry, hentry, rfl⟩ := List.mem_map.mp hpiece
    exact hfree entry hentry
  have hpieces : list.map String.toList = list'.map String.toList := by
    rw [← hsplit hne hfree, h, hsplit hne' hfree']
  exact (List.map_injective_iff.mpr fun _ _ => String.toList_inj.mp) hpieces

end Botwork.Cli
