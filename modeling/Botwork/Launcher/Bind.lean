import Botwork.Foundations.UnixPath
import Botwork.Launcher.Payload

/-!
# Binding an agent directory

What the launcher accepts as the body of `POST /bind-agent`, and the two paths
it then mounts: both are matched against their pattern and normalised before any
file system call.

## Main definitions

- `validAgentDir` — the pattern of an agent directory
- `normalizePath`, `safeStagingPath`, `safeAgentDir` — the paths that are used
- `bindAgentPaths` — both paths of a request
-/

namespace Botwork.Launcher

open Botwork.Foundations Botwork.Foundations.UnixPath

def agentsBase : String := "/var/lib/botwork/tenants"

/-- `[A-Za-z0-9_-]{1,64}`. -/
def isAgentId (id : List Char) : Bool :=
  decide (1 ≤ id.length) && decide (id.length ≤ 64) &&
    id.all fun c => c.isUpper || c.isLower || c.isDigit || c == '_' || c == '-'

/-- `^/var/lib/botwork/tenants/<tenant>/workspaces/<workspace>/agents/<id>$`; the
    workspace has the characters of a tenant. -/
def validAgentDir (path : String) : Bool :=
  startsWith path (agentsBase ++ "/") &&
    match (path.toList.drop (agentsBase.length + 1)).splitOn '/' with
    | [tenant, workspaces, workspace, agents, id] =>
      isTenantSegment tenant && workspaces == "workspaces".toList && isTenantSegment workspace &&
        agents == "agents".toList && isAgentId id
    | _ => false

/-- The path component by component: dots go, a parent pops, and the root starts
    afresh. -/
def normalizePath (path : String) : String :=
  String.ofList ((components path.toList).foldl PathBuf.apply .empty).render

def safePath (valid : String → Bool) (base message value : String) : Except LauncherError String :=
  if valid value then
    let safe := normalizePath value
    if startsWith safe (base ++ "/") then .ok safe else .error (.badRequest message)
  else .error (.badRequest message)

def safeStagingPath (value : String) : Except LauncherError String :=
  safePath validStagingPath stagingBase "invalid staging_path" value

def safeAgentDir (value : String) : Except LauncherError String :=
  safePath validAgentDir agentsBase "invalid agent_dir" value

structure BindAgentRequest where
  stagingPath : String
  agentDir : String
  deriving DecidableEq

def parseBindAgentPayload (payload : List (String × Json)) :
    Except LauncherError BindAgentRequest := do
  let stagingPath ← parseChecked payload "staging_path" validStagingPath "invalid staging_path"
  let agentDir ← parseChecked payload "agent_dir" validAgentDir "invalid agent_dir"
  return ⟨stagingPath, agentDir⟩

/-- The paths `bind_agent_impl` works with: the staging path and the agent
    directory of an accepted request. -/
def bindAgentPaths (payload : List (String × Json)) : Except LauncherError (String × String) := do
  let request ← parseBindAgentPayload payload
  let safeStaging ← safeStagingPath request.stagingPath
  let safeAgent ← safeAgentDir request.agentDir
  return (safeStaging, safeAgent)

-- ════════════════════════════════════════════════════════════════════════
-- Segments
-- ════════════════════════════════════════════════════════════════════════

theorem plain_of_all {p : Char → Bool} {part : List Char} (hne : part ≠ [])
    (hall : ∀ c ∈ part, p c = true) (hslash : p '/' = false) (hdot : p '.' = false) :
    Plain part where
  noSlash hmem := by rw [hall _ hmem] at hslash; cases hslash
  ne_nil := hne
  ne_dot heq := by
    subst heq
    rw [hall '.' List.mem_cons_self] at hdot
    cases hdot
  ne_dotdot heq := by
    subst heq
    rw [hall '.' List.mem_cons_self] at hdot
    cases hdot

theorem plain_of_isTenantSegment {tenant : List Char} (h : isTenantSegment tenant = true) :
    Plain tenant := by
  unfold isTenantSegment at h
  split at h
  next => cases h
  next first rest =>
    simp only [Bool.and_eq_true, List.all_eq_true] at h
    obtain ⟨⟨hfirst, -⟩, hrest⟩ := h
    refine plain_of_all (p := fun c => c.isLower || c.isDigit || c == '-') (by simp) ?_
      (by decide) (by decide)
    intro c hc
    rcases List.mem_cons.mp hc with rfl | hc
    · simp [hfirst]
    · exact hrest c hc

theorem plain_of_isAgentId {id : List Char} (h : isAgentId id = true) : Plain id := by
  simp only [isAgentId, Bool.and_eq_true, decide_eq_true_eq, List.all_eq_true] at h
  refine plain_of_all ?_ h.2 (by decide) (by decide)
  rintro rfl
  exact absurd h.1.1 (by decide)

theorem plain_of_isToken {token : List Char} (h : isToken token = true) : Plain token := by
  simp only [isToken, Bool.and_eq_true, beq_iff_eq, List.all_eq_true] at h
  refine plain_of_all ?_ h.2 (by decide) (by decide)
  rintro rfl
  exact absurd h.1 (by decide)

/-- The parts of the directory that holds all tenants. -/
def baseParts : List (List Char) :=
  ["var".toList, "lib".toList, "botwork".toList, "tenants".toList]

theorem plain_of_mem_baseParts {part : List Char} (h : part ∈ baseParts) : Plain part := by
  have hall : baseParts.all (fun part => !part.isEmpty && part.all Char.isLower) = true := by decide
  have hpart := List.all_eq_true.mp hall part h
  simp only [Bool.and_eq_true, Bool.not_eq_true', List.isEmpty_eq_false_iff,
    List.all_eq_true] at hpart
  exact plain_of_all hpart.1 hpart.2 (by decide) (by decide)

/-- A path of plain parts is normal. -/
theorem normalizePath_absolute {path : String} {parts : List (List Char)}
    (hpath : path.toList = absolute parts) (h : ∀ part ∈ parts, Plain part) :
    normalizePath path = path := by
  rw [normalizePath, hpath, render_components_absolute h, ← hpath, String.ofList_toList]

theorem safePath_eq_ok {valid : String → Bool} {base message value safe : String}
    (h : safePath valid base message value = .ok safe) :
    valid value = true ∧ safe = normalizePath value := by
  unfold safePath at h
  split at h
  next hvalid =>
    dsimp only at h
    split at h
    next => exact ⟨hvalid, (Except.ok.inj h).symm⟩
    next => cases h
  next => cases h

end Botwork.Launcher
