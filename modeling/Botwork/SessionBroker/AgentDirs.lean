import Botwork.Launcher.Bind
import Botwork.SessionBroker.Headers
import Botwork.SessionBroker.State

/-!
# Agent directories

The paths session-broker puts into `POST /bind-agent`: the staging path of a
container and the directory of the agent a client names.  The agent's id is any
string of the client; the launcher's pattern is what keeps it to one segment.

## Main definitions

- `agentDir`, `bindAgentPayload` — the request
- `tenantDir`, `agentsDir` — the directories of a tenant and of its agents
-/

namespace Botwork.SessionBroker

open Botwork.ControlPlane (isAsciiLower isAsciiDigit)
open Botwork.Foundations Botwork.Foundations.UnixPath
open Botwork.Launcher (LauncherError bindAgentPaths isAgentId baseParts)

def agentDir (tenantName workspace agentId : String) : String :=
  s!"/var/lib/botwork/tenants/{tenantName}/workspaces/{workspace}/agents/{agentId}"

/-- The body of `call_bind_agent`. -/
def bindAgentPayload (stagingPath agentDir : String) : List (String × Json) :=
  [("staging_path", .string stagingPath), ("agent_dir", .string agentDir)]

def tenantDir (tenantName : String) : String := s!"/var/lib/botwork/tenants/{tenantName}"

def agentsDir (tenantName workspace : String) : String :=
  s!"/var/lib/botwork/tenants/{tenantName}/workspaces/{workspace}/agents"

-- ════════════════════════════════════════════════════════════════════════
-- Parts
-- ════════════════════════════════════════════════════════════════════════

theorem isAsciiLower_eq : isAsciiLower = Char.isLower := by
  funext c
  simp [isAsciiLower, Text.isLower_eq, Char.le_def]

theorem isAsciiDigit_eq : isAsciiDigit = Char.isDigit := by
  funext c
  simp [isAsciiDigit, Char.isDigit, Char.le_def]

/-- Both services read a tenant or workspace name the same way. -/
theorem isTenantSegment_of_isSlug {s : String} (h : isSlug s = true) :
    Launcher.isTenantSegment s.toList = true := by
  unfold isSlug at h
  unfold Launcher.isTenantSegment
  rw [isAsciiLower_eq, isAsciiDigit_eq] at h
  exact h

def tenantParts (tenantName : String) : List (List Char) := baseParts ++ [tenantName.toList]

def agentsParts (tenantName workspace : String) : List (List Char) :=
  tenantParts tenantName ++ ["workspaces".toList] ++ [workspace.toList] ++ ["agents".toList]

def agentParts (tenantName workspace agentId : String) : List (List Char) :=
  agentsParts tenantName workspace ++ [agentId.toList]

def stagingParts (tenantName token : String) : List (List Char) :=
  tenantParts tenantName ++ ["staging".toList] ++ [token.toList]

theorem toList_tenantDir (tenantName : String) :
    (tenantDir tenantName).toList = absolute (tenantParts tenantName) := by
  have hbase : "/var/lib/botwork/tenants/".toList = absolute baseParts ++ ['/'] := by decide
  have hdir : tenantDir tenantName = "/var/lib/botwork/tenants/" ++ tenantName := rfl
  rw [tenantParts, absolute_snoc (by decide), hdir, String.toList_append, hbase, List.append_assoc]
  rfl

theorem toList_agentsDir (tenantName workspace : String) :
    (agentsDir tenantName workspace).toList = absolute (agentsParts tenantName workspace) := by
  have hdir : agentsDir tenantName workspace =
      tenantDir tenantName ++ "/workspaces/" ++ workspace ++ "/agents" := rfl
  have hworkspaces : "/workspaces/".toList = '/' :: "workspaces".toList ++ ['/'] := by decide
  have hagents : "/agents".toList = '/' :: "agents".toList := by decide
  rw [agentsParts, absolute_snoc (by simp), absolute_snoc (by simp),
    absolute_snoc (by simp [tenantParts]), ← toList_tenantDir, hdir, String.toList_append,
    String.toList_append, String.toList_append, hworkspaces, hagents]
  simp

theorem toList_agentDir (tenantName workspace agentId : String) :
    (agentDir tenantName workspace agentId).toList =
      absolute (agentParts tenantName workspace agentId) := by
  have hdir : agentDir tenantName workspace agentId =
      agentsDir tenantName workspace ++ "/" ++ agentId := by
    apply String.toList_injective
    have hagents : "/agents/".toList = "/agents".toList ++ "/".toList := by decide
    have hsplit : agentDir tenantName workspace agentId =
        tenantDir tenantName ++ "/workspaces/" ++ workspace ++ "/agents/" ++ agentId := rfl
    have hparent : agentsDir tenantName workspace =
        tenantDir tenantName ++ "/workspaces/" ++ workspace ++ "/agents" := rfl
    rw [hsplit, hparent]
    simp only [String.toList_append, hagents, List.append_assoc]
  rw [agentParts, absolute_snoc (by simp [agentsParts]), ← toList_agentsDir, hdir,
    String.toList_append, String.toList_append, List.append_assoc]
  rfl

theorem toList_stagingPath (tenantName token : String) :
    (stagingPath tenantName token).toList = absolute (stagingParts tenantName token) := by
  have hpath : stagingPath tenantName token = tenantDir tenantName ++ "/staging/" ++ token := rfl
  have hstaging : "/staging/".toList = '/' :: "staging".toList ++ ['/'] := by decide
  rw [stagingParts, absolute_snoc (by simp), absolute_snoc (by simp [tenantParts]),
    ← toList_tenantDir, hpath, String.toList_append, String.toList_append, hstaging]
  simp

section

variable {tenantName workspace token agentId : String}

theorem plain_of_isSlug {s : String} (h : isSlug s = true) : Plain s.toList :=
  Launcher.plain_of_isTenantSegment (isTenantSegment_of_isSlug h)

theorem plain_word {word : List Char} (hne : word ≠ []) (h : word.all Char.isLower = true) :
    Plain word := Launcher.plain_of_all hne (List.all_eq_true.mp h) (by decide) (by decide)

theorem plain_of_mem_tenantParts (htenant : isSlug tenantName = true) {part : List Char}
    (h : part ∈ tenantParts tenantName) : Plain part := by
  rcases List.mem_append.mp h with h | h
  · exact Launcher.plain_of_mem_baseParts h
  · rw [List.mem_singleton.mp h]
    exact plain_of_isSlug htenant

theorem plain_of_mem_agentsParts (htenant : isSlug tenantName = true)
    (hworkspace : isSlug workspace = true) {part : List Char}
    (h : part ∈ agentsParts tenantName workspace) : Plain part := by
  simp only [agentsParts, List.mem_append, List.mem_singleton] at h
  rcases h with ((h | rfl) | rfl) | rfl
  · exact plain_of_mem_tenantParts htenant h
  · exact plain_word (by decide) (by decide)
  · exact plain_of_isSlug hworkspace
  · exact plain_word (by decide) (by decide)

theorem plain_of_mem_agentParts (htenant : isSlug tenantName = true)
    (hworkspace : isSlug workspace = true) (hid : isAgentId agentId.toList = true)
    {part : List Char} (h : part ∈ agentParts tenantName workspace agentId) : Plain part := by
  rcases List.mem_append.mp h with h | h
  · exact plain_of_mem_agentsParts htenant hworkspace h
  · rw [List.mem_singleton.mp h]
    exact Launcher.plain_of_isAgentId hid

theorem plain_of_mem_stagingParts (htenant : isSlug tenantName = true)
    (htoken : Launcher.isToken token.toList = true) {part : List Char}
    (h : part ∈ stagingParts tenantName token) : Plain part := by
  simp only [stagingParts, List.mem_append, List.mem_singleton] at h
  rcases h with (h | rfl) | rfl
  · exact plain_of_mem_tenantParts htenant h
  · exact plain_word (by decide) (by decide)
  · exact Launcher.plain_of_isToken htoken

-- ════════════════════════════════════════════════════════════════════════
-- The launcher's patterns
-- ════════════════════════════════════════════════════════════════════════

theorem startsWith_agentDir : Launcher.startsWith (agentDir tenantName workspace agentId)
    (Launcher.agentsBase ++ "/") = true := by
  have hdir : agentDir tenantName workspace agentId = (Launcher.agentsBase ++ "/") ++
      (tenantName ++ "/workspaces/" ++ workspace ++ "/agents/" ++ agentId) := by
    have hflat : agentDir tenantName workspace agentId = Launcher.agentsBase ++ "/" ++ tenantName ++
      "/workspaces/" ++ workspace ++ "/agents/" ++ agentId := rfl
    rw [hflat]
    simp only [String.append_assoc]
  rw [Launcher.startsWith, List.isPrefixOf_iff_prefix, hdir,
    String.toList_append (s := Launcher.agentsBase ++ "/")]
  exact List.prefix_append _ _

theorem stagingPath_eq : stagingPath tenantName token =
    (Launcher.stagingBase ++ "/") ++ (tenantName ++ ("/staging/" ++ token)) := by
  have hflat : stagingPath tenantName token =
    Launcher.stagingBase ++ "/" ++ tenantName ++ "/staging/" ++ token := rfl
  rw [hflat]
  simp only [String.append_assoc]

theorem startsWith_stagingPath :
    Launcher.startsWith (stagingPath tenantName token) (Launcher.stagingBase ++ "/") = true := by
  rw [Launcher.startsWith, List.isPrefixOf_iff_prefix, stagingPath_eq,
    String.toList_append (s := Launcher.stagingBase ++ "/")]
  exact List.prefix_append _ _

/-- The launcher splits an agent directory into the parts it was made of, and
    the id into more where it has a slash. -/
theorem splitOn_agentDir (htenant : isSlug tenantName = true)
    (hworkspace : isSlug workspace = true) :
    ((agentDir tenantName workspace agentId).toList.drop
        (Launcher.agentsBase.length + 1)).splitOn '/' =
      tenantName.toList :: "workspaces".toList :: workspace.toList :: "agents".toList ::
        agentId.toList.splitOn '/' := by
  have hdir : agentDir tenantName workspace agentId = "/var/lib/botwork/tenants/" ++
      (tenantName ++ ("/workspaces/" ++ (workspace ++ ("/agents/" ++ agentId)))) := by
    have hflat : agentDir tenantName workspace agentId = "/var/lib/botwork/tenants/" ++ tenantName ++
      "/workspaces/" ++ workspace ++ "/agents/" ++ agentId := rfl
    rw [hflat]
    simp only [String.append_assoc]
  have hworkspaces : "/workspaces/".toList = '/' :: ("workspaces".toList ++ ['/']) := by decide
  have hagents : "/agents/".toList = '/' :: ("agents".toList ++ ['/']) := by decide
  have hlength : Launcher.agentsBase.length + 1 = "/var/lib/botwork/tenants/".toList.length := by
    decide
  rw [hdir, String.toList_append, hlength, List.drop_left]
  simp only [String.toList_append, hworkspaces, hagents, List.cons_append, List.append_assoc,
    List.nil_append]
  rw [List.splitOn_append_cons_self_of_not_mem (plain_of_isSlug htenant).noSlash,
    List.splitOn_append_cons_self_of_not_mem (by decide),
    List.splitOn_append_cons_self_of_not_mem (plain_of_isSlug hworkspace).noSlash,
    List.splitOn_append_cons_self_of_not_mem (by decide)]

/-- The launcher accepts an agent directory for its id alone. -/
theorem validAgentDir_agentDir (htenant : isSlug tenantName = true)
    (hworkspace : isSlug workspace = true) :
    Launcher.validAgentDir (agentDir tenantName workspace agentId) = isAgentId agentId.toList := by
  rw [Launcher.validAgentDir, startsWith_agentDir, Bool.true_and,
    splitOn_agentDir htenant hworkspace]
  by_cases hslash : '/' ∈ agentId.toList
  · have hid : isAgentId agentId.toList = false := by
      rw [← Bool.not_eq_true]
      exact fun hid => (Launcher.plain_of_isAgentId hid).noSlash hslash
    obtain ⟨first, rest, hsplit, hfirst⟩ := List.eq_append_cons_of_mem hslash
    rw [hid, hsplit, List.splitOn_append_cons_self_of_not_mem hfirst]
    cases hrest : rest.splitOn '/' with
    | nil => exact absurd hrest (List.splitOn_ne_nil _ _)
    | cons second others => rfl
  · rw [List.splitOn_eq_singleton hslash]
    simp [isTenantSegment_of_isSlug htenant, isTenantSegment_of_isSlug hworkspace]

theorem isToken_toList (h : isToken token = true) : Launcher.isToken token.toList = true := by
  have hhex (c : Char) : ((decide ('0' ≤ c) && decide (c ≤ '9')) ||
      (decide ('a' ≤ c) && decide (c ≤ 'f'))) = Launcher.isHexLower c := by
    simp [Launcher.isHexLower, Char.isDigit, Char.le_def]
  simp only [isToken, hhex] at h
  rw [Launcher.isToken, beq_eq_decide]
  exact h

theorem validStagingPath_stagingPath (htenant : isSlug tenantName = true)
    (htoken : Launcher.isToken token.toList = true) :
    Launcher.validStagingPath (stagingPath tenantName token) = true := by
  have hstaging : "/staging/".toList = '/' :: ("staging".toList ++ ['/']) := by decide
  have hlength : Launcher.stagingBase.length + 1 = (Launcher.stagingBase ++ "/").toList.length := by
    decide
  have hsplit : ((stagingPath tenantName token).toList.drop
      (Launcher.stagingBase.length + 1)).splitOn '/' =
        [tenantName.toList, "staging".toList, token.toList] := by
    rw [stagingPath_eq, hlength, String.toList_append (s := Launcher.stagingBase ++ "/"), List.drop_left]
    simp only [String.toList_append, hstaging, List.cons_append, List.append_assoc,
      List.nil_append]
    rw [List.splitOn_append_cons_self_of_not_mem (plain_of_isSlug htenant).noSlash,
      List.splitOn_append_cons_self_of_not_mem (by decide),
      List.splitOn_eq_singleton (Launcher.plain_of_isToken htoken).noSlash]
  rw [Launcher.validStagingPath, startsWith_stagingPath, Bool.true_and, hsplit]
  simp [isTenantSegment_of_isSlug htenant, htoken]

end

-- ════════════════════════════════════════════════════════════════════════
-- The request
-- ════════════════════════════════════════════════════════════════════════

section

variable {tenantName workspace token agentId : String}

theorem member?_bindAgentPayload {stagingValue dirValue : String} :
    Json.member? (bindAgentPayload stagingValue dirValue) "staging_path" =
        some (.string stagingValue) ∧
      Json.member? (bindAgentPayload stagingValue dirValue) "agent_dir" =
        some (.string dirValue) := by
  constructor
  · simp [Json.member?, bindAgentPayload, List.lookup_cons]
  · simp [Json.member?, bindAgentPayload]

/-- The paths of a request, where the launcher accepts it. -/
theorem bindAgentPaths_eq_ok {staging dir stagingValue dirValue : String}
    (h : bindAgentPaths (bindAgentPayload stagingValue dirValue) = .ok (staging, dir)) :
    Launcher.validAgentDir dirValue = true ∧ staging = Launcher.normalizePath stagingValue ∧
      dir = Launcher.normalizePath dirValue := by
  obtain ⟨hstagingMember, hdirMember⟩ := @member?_bindAgentPayload stagingValue dirValue
  rw [bindAgentPaths] at h
  obtain ⟨request, hrequest, h⟩ := bind_eq_ok.mp h
  obtain ⟨safeStaging, hsafeStaging, h⟩ := bind_eq_ok.mp h
  obtain ⟨safeAgent, hsafeAgent, h⟩ := bind_eq_ok.mp h
  cases h
  rw [Launcher.parseBindAgentPayload] at hrequest
  obtain ⟨stagingPath, hstaging, hrequest⟩ := bind_eq_ok.mp hrequest
  obtain ⟨agentDir, hagent, hrequest⟩ := bind_eq_ok.mp hrequest
  cases hrequest
  obtain ⟨hmember, -⟩ := Launcher.parseChecked_eq_ok hstaging
  obtain ⟨hmember', hvalid⟩ := Launcher.parseChecked_eq_ok hagent
  rw [hstagingMember] at hmember
  rw [hdirMember] at hmember'
  cases hmember
  cases hmember'
  exact ⟨hvalid, (Launcher.safePath_eq_ok hsafeStaging).2, (Launcher.safePath_eq_ok hsafeAgent).2⟩

/-- A request of session-broker with an id of the launcher's pattern passes. -/
theorem bindAgentPaths_of_isAgentId (htenant : isSlug tenantName = true)
    (hworkspace : isSlug workspace = true) (htoken : isToken token = true)
    (hid : isAgentId agentId.toList = true) :
    bindAgentPaths (bindAgentPayload (stagingPath tenantName token)
      (agentDir tenantName workspace agentId)) =
        .ok (stagingPath tenantName token, agentDir tenantName workspace agentId) := by
  obtain ⟨hstagingMember, hdirMember⟩ := @member?_bindAgentPayload (stagingPath tenantName token)
    (agentDir tenantName workspace agentId)
  have hstaging := validStagingPath_stagingPath htenant (isToken_toList htoken)
  have hdir : Launcher.validAgentDir (agentDir tenantName workspace agentId) = true := by
    rw [validAgentDir_agentDir htenant hworkspace, hid]
  have hparse : Launcher.parseBindAgentPayload (bindAgentPayload (stagingPath tenantName token)
      (agentDir tenantName workspace agentId)) =
        .ok ⟨stagingPath tenantName token, agentDir tenantName workspace agentId⟩ := by
    simp only [Launcher.parseBindAgentPayload, Launcher.parseChecked, hstagingMember, hdirMember,
      hstaging, hdir, if_true]
    rfl
  have hsafeStaging : Launcher.safeStagingPath (stagingPath tenantName token) =
      .ok (stagingPath tenantName token) := by
    rw [Launcher.safeStagingPath, Launcher.safePath, if_pos hstaging,
      Launcher.normalizePath_absolute (toList_stagingPath _ _)
        (fun part => plain_of_mem_stagingParts htenant (isToken_toList htoken))]
    exact if_pos startsWith_stagingPath
  have hsafeDir : Launcher.safeAgentDir (agentDir tenantName workspace agentId) =
      .ok (agentDir tenantName workspace agentId) := by
    rw [Launcher.safeAgentDir, Launcher.safePath, if_pos hdir,
      Launcher.normalizePath_absolute (toList_agentDir _ _ _)
        (fun part => plain_of_mem_agentParts htenant hworkspace hid)]
    exact if_pos startsWith_agentDir
  rw [bindAgentPaths]
  refine bind_eq_ok.mpr ⟨_, hparse, bind_eq_ok.mpr ⟨_, hsafeStaging, ?_⟩⟩
  exact bind_eq_ok.mpr ⟨_, hsafeDir, rfl⟩

/-- **Agent directories are not redirected**: whatever id a client sends, the
    launcher accepts session-broker's request only for an id of one segment, and
    then uses the very paths that were sent, below the agents of this tenant and
    workspace and below no other tenant. -/
theorem agent_dir_confined (htenant : isSlug tenantName = true)
    (hworkspace : isSlug workspace = true) (htoken : isToken token = true) (agentId : String)
    {staging dir : String}
    (hok : bindAgentPaths (bindAgentPayload (stagingPath tenantName token)
      (agentDir tenantName workspace agentId)) = .ok (staging, dir)) :
    isAgentId agentId.toList = true ∧ dir = agentDir tenantName workspace agentId ∧
      Under (agentsDir tenantName workspace).toList dir.toList ∧
      (∀ other, isSlug other = true → other ≠ tenantName →
        ¬ Under (tenantDir other).toList dir.toList) ∧
      staging = stagingPath tenantName token ∧
      Under (tenantDir tenantName).toList staging.toList := by
  obtain ⟨hvalid, hstaging, hdir⟩ := bindAgentPaths_eq_ok hok
  rw [validAgentDir_agentDir htenant hworkspace] at hvalid
  have hparts := fun part => @plain_of_mem_agentParts tenantName workspace agentId htenant hworkspace
    hvalid part
  have hstagingParts := fun part => @plain_of_mem_stagingParts tenantName token htenant
    (isToken_toList htoken) part
  rw [Launcher.normalizePath_absolute (toList_agentDir _ _ _) hparts] at hdir
  rw [Launcher.normalizePath_absolute (toList_stagingPath _ _) hstagingParts] at hstaging
  subst hdir hstaging
  refine ⟨hvalid, rfl, ?_, ?_, rfl, ?_⟩
  · rw [toList_agentsDir, toList_agentDir, under_absolute_iff
      (fun part => plain_of_mem_agentsParts htenant hworkspace) hparts]
    exact ⟨List.prefix_append _ _, fun h => by simp [agentParts] at h⟩
  · intro other hother hne hunder
    rw [toList_tenantDir, toList_agentDir, under_absolute_iff
      (fun part => plain_of_mem_tenantParts hother) hparts] at hunder
    have hflat : agentParts tenantName workspace agentId = baseParts ++ (tenantName.toList ::
        ["workspaces".toList, workspace.toList, "agents".toList, agentId.toList]) := by
      simp [agentParts, agentsParts, tenantParts]
    rw [hflat, tenantParts, List.prefix_append_right_inj, List.cons_prefix_cons] at hunder
    exact hne (String.toList_injective hunder.1.1)
  · rw [toList_tenantDir, toList_stagingPath, under_absolute_iff
      (fun part => plain_of_mem_tenantParts htenant) hstagingParts, stagingParts, List.append_assoc]
    exact ⟨List.prefix_append _ _, fun h => by simp at h⟩

theorem agent_dir_confined_agent :
    isSlug "acme" = true ∧ isSlug "main" = true ∧ isToken "0123456789ab" = true ∧
      Under (agentsDir "acme" "main").toList (agentDir "acme" "main" "Agent_7").toList := by
  have htenant : isSlug "acme" = true := by decide
  have hworkspace : isSlug "main" = true := by decide
  have htoken : isToken "0123456789ab" = true := by decide
  have hok := bindAgentPaths_of_isAgentId htenant hworkspace htoken
    (show isAgentId "Agent_7".toList = true by decide)
  exact ⟨htenant, hworkspace, htoken,
    (agent_dir_confined htenant hworkspace htoken "Agent_7" hok).2.2.1⟩

end

end Botwork.SessionBroker
