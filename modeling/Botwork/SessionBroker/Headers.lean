import Botwork.SessionBroker.Secrets

/-!
# Headers and paths

The ext_proc messages the broker reads and writes: header lists, the path shape
`/<tenant>/<workspace>/<plugin>`, and the header mutation of a routed request.

## Main definitions

- `HeaderValue`, `extractHeaders` — headers as the broker reads them
- `isSlug`, `parseTenantWorkspacePlugin`, `forwardPath` — paths
- `HeaderMutation`, `upstreamHeaderMutation` — what a routed request carries
- `HeaderMutation.forward` — the headers envoy forwards under a mutation
-/

namespace Botwork.SessionBroker

open Botwork.Foundations Botwork.ControlPlane

-- ════════════════════════════════════════════════════════════════════════
-- Headers
-- ════════════════════════════════════════════════════════════════════════

structure HeaderValue where
  key : String
  value : String
  rawValue : List UInt8
  deriving DecidableEq

/-- The text of a header; `raw_value` counts only when `value` is empty. -/
def HeaderValue.text (header : HeaderValue) : String :=
  if header.value = "" then Text.fromUtf8Lossy header.rawValue else header.value

/-- Headers by lowercase name; the last of several wins. -/
def extractHeaders (headers : List HeaderValue) : FiniteMap String String :=
  headers.foldl (fun extracted header => extracted.insert (Text.toLowercase header.key) header.text) ∅

def contentTypeIsJson (method contentType : String) : Bool :=
  method == "GET" ||
    "application/json".toList.isPrefixOf (Text.toAsciiLowercase (Text.trim contentType)).toList

-- ════════════════════════════════════════════════════════════════════════
-- Paths
-- ════════════════════════════════════════════════════════════════════════

/-- Matching of `[a-z][a-z0-9-]{0,30}`: `TENANT_RE`, `WORKSPACE_RE` and the path segments. -/
def isSlug (s : String) : Bool :=
  match s.toList with
  | [] => false
  | c :: rest =>
    isAsciiLower c && decide (rest.length ≤ 30) &&
      rest.all fun c => isAsciiLower c || isAsciiDigit c || c == '-'

/-- The path up to the first `?`, and the rest with it. -/
def splitPathAndQuery (path : String) : String × String :=
  let parts := path.toList.span (· != '?')
  (String.ofList parts.1, String.ofList parts.2)

/-- The segment after a leading `/`, and what follows it. -/
def takeSegment : List Char → Option (String × List Char)
  | '/' :: rest => some (String.ofList (rest.takeWhile (· != '/')), rest.dropWhile (· != '/'))
  | _ => none

structure PathCaptures where
  tenant : String
  workspace : String
  plugin : String
  remainder : String
  deriving DecidableEq

/-- Matching of `TENANT_WORKSPACE_PLUGIN_PATH_RE`; `.` does not match a line feed. -/
def pathCaptures (basePath : String) : Option PathCaptures := do
  let (tenant, rest) ← takeSegment basePath.toList
  let (workspace, rest) ← takeSegment rest
  let (plugin, rest) ← takeSegment rest
  if isSlug tenant && isSlug workspace && isSlug plugin && !rest.contains '\n' then
    return ⟨tenant, workspace, plugin, String.ofList rest⟩
  else none

def parseTenantWorkspacePlugin (path : String) : Option PathCaptures :=
  pathCaptures (splitPathAndQuery path).1

/-- The path and query that `parse_full_path` rewrites to. -/
def parseFullPath (path pluginPath : String) : Option String :=
  (pathCaptures (splitPathAndQuery path).1).map fun captures =>
    let bodyRaw := (if pluginPath = "/" then "" else pluginPath) ++ captures.remainder
    (if bodyRaw = "" then "/" else bodyRaw) ++ (splitPathAndQuery path).2

def forwardPath (path pluginPath : String) : String :=
  match parseFullPath path pluginPath with
  | some rewritten => rewritten
  | none => if path = "" then "/" else path

/-- The segments of a path that parses are slugs. -/
theorem isSlug_of_pathCaptures {basePath : String} {captures : PathCaptures}
    (h : pathCaptures basePath = some captures) :
    isSlug captures.tenant = true ∧ isSlug captures.workspace = true ∧
      isSlug captures.plugin = true := by
  simp only [pathCaptures, Option.bind_eq_bind, Option.bind_eq_some_iff] at h
  obtain ⟨⟨tenant, rest₁⟩, -, ⟨workspace, rest₂⟩, -, ⟨plugin, rest₃⟩, -, h⟩ := h
  split at h
  next hslugs =>
    cases h
    simp only [Bool.and_eq_true] at hslugs
    exact ⟨hslugs.1.1.1, hslugs.1.1.2, hslugs.1.2⟩
  next => cases h

-- ════════════════════════════════════════════════════════════════════════
-- Mutations
-- ════════════════════════════════════════════════════════════════════════

inductive HeaderAppendAction where
  | appendIfExistsOrAdd
  | addIfAbsent
  | overwriteIfExistsOrAdd
  | overwriteIfExists
  deriving DecidableEq, Repr

structure HeaderValueOption where
  header : HeaderValue
  appendAction : HeaderAppendAction
  deriving DecidableEq

structure HeaderMutation where
  setHeaders : List HeaderValueOption
  removeHeaders : List String
  deriving DecidableEq

/-- Set `key` to `text`, whatever the client sent. -/
def overwriteHeader (key text : String) : HeaderValueOption :=
  ⟨⟨key, "", Text.utf8 text⟩, .overwriteIfExistsOrAdd⟩

def upstream (containerName : String) (port : Nat) : String := s!"{containerName}:{port}"

def upstreamHeaderMutation (upstreamName : String) (rewrittenPath : Option String)
    (upstreamAuthorization : Option String) (stripAuthorization : Bool) : HeaderMutation where
  setHeaders :=
    overwriteHeader "x-session-upstream" upstreamName ::
      ((rewrittenPath.map (overwriteHeader ":path")).toList ++
        (upstreamAuthorization.map fun token =>
          overwriteHeader "authorization" ("Bearer " ++ token)).toList)
  removeHeaders := "x-botwork-cap" :: (if stripAuthorization then ["authorization"] else [])

namespace HeaderMutation

/-- The mutation sets `key` once, and to `text` whatever the client sent. -/
def Overwrites (m : HeaderMutation) (key text : String) : Prop :=
  (m.setHeaders.filter fun h => h.header.key = key) = [overwriteHeader key text]

/-- The mutation removes the client's `key`. -/
def Removes (m : HeaderMutation) (key : String) : Prop := key ∈ m.removeHeaders

instance (m : HeaderMutation) (key text : String) : Decidable (m.Overwrites key text) :=
  inferInstanceAs (Decidable (_ = _))

instance (m : HeaderMutation) (key : String) : Decidable (m.Removes key) :=
  inferInstanceAs (Decidable (_ ∈ _))

/-- A forwarded header list after one entry of `set_headers`. -/
def setHeader (headers : List (String × List UInt8)) (h : HeaderValueOption) :
    List (String × List UInt8) :=
  let present := headers.any fun e => e.1 = h.header.key
  let others := headers.filter fun e => e.1 ≠ h.header.key
  let entry := (h.header.key, h.header.rawValue)
  match h.appendAction with
  | .appendIfExistsOrAdd => headers ++ [entry]
  | .addIfAbsent => if present then headers else headers ++ [entry]
  | .overwriteIfExistsOrAdd => others ++ [entry]
  | .overwriteIfExists => if present then others ++ [entry] else headers

/-- The headers envoy forwards for a client's headers: removals, then settings. -/
def forward (m : HeaderMutation) (client : List (String × List UInt8)) :
    List (String × List UInt8) :=
  m.setHeaders.foldl setHeader (client.filter fun e => e.1 ∉ m.removeHeaders)

end HeaderMutation

end Botwork.SessionBroker
