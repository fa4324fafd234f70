import Botwork.ApiCore.Package
import Botwork.Foundations.JsonInjective
import Botwork.Foundations.SortedMap

/-!
# Image labels

The labels that describe a probed plugin image: the fields of its package, what the
server said of itself, and the catalogs of its tools, resources and prompts, whose
entries are numbered in the order of their names.

## Main definitions

- `ProbeResult` — what a probe found
- `orderedCatalog` — the entries of a catalog by name
- `compose` — the labels
-/

namespace Botwork.Cli

open Botwork.Foundations Botwork.ApiCore

@[ext]
structure ServerInfo where
  name : String
  version : Option String
  deriving DecidableEq

structure ProbeResult where
  serverInfo : ServerInfo
  protocolVersion : String
  capabilities : Json
  tools : List Json
  resources : List Json
  prompts : List Json

/-- What is wrong with an entry's name; the other errors of a probe come before it. -/
inductive ProbeError where
  | handshakeShape (detail : Text.Message)
  deriving DecidableEq

inductive ComposeError where
  | catalogShape (detail : String)
  | invalidInputSchema (tool : String)
  | probe (err : ProbeError)
  deriving DecidableEq

abbrev Labels := SortedMap String String

def labelSchemaVersion : String := "1"

def labelNamespace : String := "org.botwork.mcp."

def label (suffix : String) : String := labelNamespace ++ suffix

-- ════════════════════════════════════════════════════════════════════════
-- Catalogs
-- ════════════════════════════════════════════════════════════════════════

/-- Matching of `^[a-z0-9][a-z0-9_-]*$`. -/
def isToolName (s : String) : Bool :=
  match s.toList with
  | [] => false
  | c :: rest =>
    (c.isLower || c.isDigit) && rest.all fun c => c.isLower || c.isDigit || c == '_' || c == '-'

def toolNameRe : String := "^[a-z0-9][a-z0-9_-]*$"

def toolName (tool : Json) : Except ProbeError String :=
  match (tool.get "name").bind Json.asStr with
  | none => .error (.handshakeShape "tools/list entry missing 'name'")
  | some name =>
    if isToolName name = false then
      .error (.handshakeShape ("tool name " ++ Text.debug name ++ " does not match " ++ toolNameRe))
    else .ok name

def resourceUri (entry : Json) : Except ComposeError String :=
  match (entry.get "uri").bind Json.asStr with
  | none => .error (.catalogShape "resources/list entry missing 'uri'")
  | some uri => .ok uri

/-- The entries by key; of two with one key the later one stays. -/
def collect {ε : Type} (key : Json → Except ε String) (catalog : SortedMap String Json) :
    List Json → Except ε (SortedMap String Json)
  | [] => .ok catalog
  | item :: items => do
    let k ← key item
    collect key (catalog.insert k item) items

def orderedCatalog (items : List Json) : Except ProbeError (SortedMap String Json) :=
  collect toolName .empty items

-- ════════════════════════════════════════════════════════════════════════
-- Families of labels
-- ════════════════════════════════════════════════════════════════════════

/-- A kind of catalog entries: its name, the fields that become labels under their own
    names, and whether an entry has an input schema. -/
structure Family where
  name : String
  keyField : String
  textField : String
  schema : Bool

def toolFamily : Family := ⟨"tools", "name", "description", true⟩

def resourceFamily : Family := ⟨"resources", "uri", "name", false⟩

def promptFamily : Family := ⟨"prompts", "name", "description", false⟩

def entryLabel (family : String) (i : Nat) (field : String) : String :=
  label (family ++ "." ++ toString i ++ "." ++ field)

def insertSome (out : Labels) (key : String) : Option String → Labels
  | none => out
  | some value => out.insert key value

section

-- `double` stands for the decimal text of a double.
variable (double : UInt64 → List Char)

def jsonCompact (v : Json) : String := String.ofList (v.text double)

/-- The label of an input schema, which has to be an object. -/
def addSchema (key : String) (entry : Json) (out : Labels) : Except ComposeError Labels :=
  match entry.get "inputSchema" with
  | none => .ok out
  | some (.object members) => .ok (out.insert key (jsonCompact double (.object members)))
  | some _ => .error (.invalidInputSchema (((entry.get "name").bind Json.asStr).getD "?"))

/-- The labels of the entry with number `i`; that it has a key is known of the catalog. -/
def addEntry (family : Family) (i : Nat) (entry : Json) (out : Labels) :
    Except ComposeError Labels :=
  let out := out.insert (entryLabel family.name i family.keyField)
    (((entry.get family.keyField).bind Json.asStr).getD "")
  let out := insertSome out (entryLabel family.name i family.textField)
    ((entry.get family.textField).bind Json.asStr)
  if family.schema then addSchema double (entryLabel family.name i "input-schema") entry out
  else .ok out

def addEntries (family : Family) (i : Nat) (out : Labels) :
    List Json → Except ComposeError Labels
  | [] => .ok out
  | entry :: entries => do
    let out ← addEntry double family i entry out
    addEntries family (i + 1) out entries

def addCatalog (family : Family) (out : Labels) (catalog : SortedMap String Json) :
    Except ComposeError Labels :=
  addEntries double family 0
    (out.insert (label (family.name ++ ".count")) (toString catalog.size))
    (catalog.entries.map Prod.snd)

def addTools (out : Labels) (tools : List Json) : Except ComposeError Labels := do
  let catalog ← (orderedCatalog tools).mapError .probe
  addCatalog double toolFamily out catalog

def addResources (out : Labels) (resources : List Json) : Except ComposeError Labels := do
  let catalog ← collect resourceUri .empty resources
  addCatalog double resourceFamily out catalog

def addPrompts (out : Labels) (prompts : List Json) : Except ComposeError Labels := do
  let catalog ← (orderedCatalog prompts).mapError .probe
  addCatalog double promptFamily out catalog

-- ════════════════════════════════════════════════════════════════════════
-- The label set
-- ════════════════════════════════════════════════════════════════════════

/-- `join(",")`. -/
def commaList (entries : List String) : String := String.intercalate "," entries

/-- The labels of the package's fields. -/
def packageLabels (package : ValidatedPackage) : Labels :=
  let out := SortedMap.empty.insert (label "schema-version") labelSchemaVersion
  let out := out.insert (label "name") package.name
  let out := out.insert (label "port") (toString package.port)
  let out := out.insert (label "path") package.path
  let out := out.insert (label "upstream-auth") package.upstreamAuth
  let out := out.insert (label "isolation") package.isolation.asWireStr
  let out := out.insert (label "egress") (jsonCompact double package.egress)
  let out := insertSome out (label "resources") (package.resources.map (jsonCompact double))
  let out := out.insert (label "env") (jsonCompact double package.env)
  let out := out.insert (label "spill.mode") package.spill.mode.asWireStr
  let out := insertSome out (label "spill.threshold-bytes")
    (package.spill.thresholdBytes.map toString)
  let out := insertSome out (label "spill.include-methods")
    (package.spill.includeMethods.map commaList)
  insertSome out (label "spill.include-tools") (package.spill.includeTools.map commaList)

def compose (package : ValidatedPackage) (probe : ProbeResult) : Except ComposeError Labels := do
  let out := packageLabels double package
  let out := out.insert (label "server-info.name") probe.serverInfo.name
  let out := insertSome out (label "server-info.version") probe.serverInfo.version
  let out := out.insert (label "protocol-version") probe.protocolVersion
  let out := out.insert (label "capabilities") (jsonCompact double probe.capabilities)
  let out ← addTools double out probe.tools
  let out ← addResources double out probe.resources
  addPrompts double out probe.prompts

end

end Botwork.Cli
