import Botwork.Foundations.Effects
import Botwork.Launcher.Bind
import Botwork.Launcher.Container

/-!
# What a failed launch leaves

A launch with its effects: the containers of the daemon and the bind mounts on
staging paths.  A call that fails has changed nothing, but for a container that
does not start: the daemon may remove it.

## Main definitions

- `Answers` — what the daemon and the host answer during one launch
- `setupStagingDirImpl`, `ensureContainerImpl` — a launch
- `NothingLeft` — neither a container nor a mount is left of it
- `Compensated` — the failures that leave nothing
-/

namespace Botwork.Launcher

open Botwork.Foundations Botwork.Foundations.Effectful

inductive ContainerStatus where
  | stopped
  | created
  | running
  deriving DecidableEq, Repr

structure Host where
  containers : FiniteMap String ContainerStatus
  /-- one entry for each bind mount, by its path -/
  mounts : List String

abbrev Launching := Effectful LauncherError Host

structure CommandOutput where
  returncode : Int
  stderr : String

/-- The answers of one launch; an error is the text of the failed call.  The
    daemon's are those of `docker`, which is asked to remove a container once more
    after a failed upload. -/
structure Answers where
  docker : Docker
  createDirAll : Except String Unit
  setPermissions : Except String Unit
  chown : Except String Unit
  mountBind : Except String CommandOutput
  makeRshared : Except String CommandOutput
  cleanup : Except String Unit
  /-- the daemon removes a container that does not start -/
  removesUnstarted : Bool
  /-- the container exits, and is removed, before it is inspected -/
  exits : Bool

def Host.put (name : String) (status : ContainerStatus) (host : Host) : Host :=
  { host with containers := host.containers.insert name status }

def Host.remove (name : String) (host : Host) : Host :=
  { host with containers := host.containers.erase name }

def Host.mount (path : String) (host : Host) : Host := { host with mounts := path :: host.mounts }

def fallbackMessage (stderr fallback : String) : String :=
  let trimmed := Text.trim stderr
  if trimmed = "" then fallback else trimmed

/-- A command ran and exited with 0. -/
def succeeded : Except String CommandOutput → Bool
  | .error _ => false
  | .ok output => output.returncode = 0

/-- What the launcher makes of the exit of a command. -/
def commandResult (fallback : String) : Except String CommandOutput → Except LauncherError Unit
  | .error e => .error (.internal e)
  | .ok output =>
    if output.returncode = 0 then .ok ()
    else .error (.internal (fallbackMessage output.stderr fallback))

section

variable (answers : Answers) (config : Config) (launch : LaunchRequest)

def setupStagingDirImpl : Launching Unit := do
  let safeStaging ← check (safeStagingPath launch.stagingPath)
  check (answered ("failed to create staging dir " ++ safeStaging) answers.createDirAll)
  check (answered ("failed to set permissions on " ++ safeStaging) answers.setPermissions)
  check (answered ("failed to chown " ++ safeStaging ++ " to " ++ toString config.pluginUid ++ ":" ++
    toString config.pluginGid) answers.chown)
  act (commandResult ("failed to bind-mount staging dir " ++ safeStaging) answers.mountBind)
    (Host.mount safeStaging) id
  check (commandResult ("failed to make staging dir rshared: " ++ safeStaging) answers.makeRshared)

/-- The upload, and the removal of a container that did not get its secrets. -/
def uploadSecretsImpl : Launching Files :=
  act (uploadSecrets answers.docker config launch) id
    (if answers.cleanup.toBool then Host.remove launch.name else id)

/-- `ensure_container_impl` behind the staging directory. -/
def createAndStartImpl : Launching Container := do
  let body ← check (buildContainerConfig config launch)
  act (answered ("failed to start " ++ launch.name)
    (answers.docker.createContainer launch.name body)) (Host.put launch.name .created) id
  let files ← uploadSecretsImpl answers config launch
  act (answered ("failed to start " ++ launch.name) (answers.docker.startContainer launch.name))
    (Host.put launch.name .running)
    (if answers.removesUnstarted then Host.remove launch.name else id)
  act (.ok ()) (if answers.exits then Host.remove launch.name else id) id
  let address ← check (answered ("failed to inspect " ++ launch.name)
    (answers.docker.address launch.name))
  let ip ← check (parseContainerIp address launch.name launch.network)
  return ⟨"started", ip, files⟩

def startFreshImpl : Launching Container := do
  if launch.withWorkspace then setupStagingDirImpl answers config launch else pure ()
  createAndStartImpl answers config launch

def ensureContainerImpl : Launching Container := do
  let inspected ← check (answered ("failed to inspect " ++ launch.name)
    (answers.docker.inspect launch.name))
  match inspected with
  | .running files address =>
    let ip ← check (parseContainerIp address launch.name launch.network)
    return ⟨"already_running", ip, files⟩
  | .stopped =>
    act (answered ("failed to remove " ++ launch.name)
      (answers.docker.removeContainerForce launch.name)) (Host.remove launch.name) id
    startFreshImpl answers config launch
  | .notFound => startFreshImpl answers config launch

/-- The result of `setup_staging_dir_impl`. -/
def setupStagingDirResult (stagingPath : String) : Except LauncherError Unit := do
  let safeStaging ← safeStagingPath stagingPath
  answered ("failed to create staging dir " ++ safeStaging) answers.createDirAll
  answered ("failed to set permissions on " ++ safeStaging) answers.setPermissions
  answered ("failed to chown " ++ safeStaging ++ " to " ++ toString config.pluginUid ++ ":" ++
    toString config.pluginGid) answers.chown
  commandResult ("failed to bind-mount staging dir " ++ safeStaging) answers.mountBind
  commandResult ("failed to make staging dir rshared: " ++ safeStaging) answers.makeRshared

/-- The daemon, and the host that sets the staging directory up. -/
def Answers.withStaging : Docker :=
  { answers.docker with setupStagingDir := setupStagingDirResult answers config }

theorem createAndStartImpl_returns :
    (createAndStartImpl answers config launch).Returns (do
      let body ← buildContainerConfig config launch
      answered ("failed to start " ++ launch.name)
        (answers.docker.createContainer launch.name body)
      let files ← uploadSecrets answers.docker config launch
      answered ("failed to start " ++ launch.name) (answers.docker.startContainer launch.name)
      let address ← answered ("failed to inspect " ++ launch.name)
        (answers.docker.address launch.name)
      let ip ← parseContainerIp address launch.name launch.network
      return ⟨"started", ip, files⟩) := by
  refine (returns_act _ _ _).bind fun body => (returns_act _ _ _).bind fun _ =>
    (returns_act _ _ _).bind fun files => (returns_act _ _ _).bind fun _ => ?_
  exact (returns_act _ _ _).bind fun _ => (returns_act _ _ _).bind fun address =>
    (returns_act _ _ _).bind fun ip => returns_pure _

theorem startFreshImpl_returns :
    (startFreshImpl answers config launch).Returns
      (startFresh (answers.withStaging config) config launch) := by
  rw [startFreshImpl, startFresh, prepareStaging]
  by_cases hworkspace : launch.withWorkspace = true
  · rw [if_pos hworkspace, if_pos hworkspace]
    refine Returns.bind ?_ fun _ => createAndStartImpl_returns answers config launch
    refine (returns_act _ _ _).bind fun path => (returns_act _ _ _).bind fun _ => ?_
    exact (returns_act _ _ _).bind fun _ => (returns_act _ _ _).bind fun _ =>
      (returns_act _ _ _).bind fun _ => returns_act _ _ _
  · rw [if_neg hworkspace, if_neg hworkspace]
    exact createAndStartImpl_returns answers config launch

/-- The effects do not change the result. -/
theorem ensureContainerImpl_returns :
    (ensureContainerImpl answers config launch).Returns
      (ensureContainer (answers.withStaging config) config launch) := by
  refine (returns_act _ _ _).bind fun inspected => ?_
  cases inspected with
  | running files address => exact (returns_act _ _ _).bind fun ip => returns_pure _
  | stopped =>
    exact (returns_act _ _ _).bind fun _ => startFreshImpl_returns answers config launch
  | notFound => exact startFreshImpl_returns answers config launch

-- ════════════════════════════════════════════════════════════════════════
-- Failures
-- ════════════════════════════════════════════════════════════════════════

/-- The bind mount on the staging path is set up. -/
def bindsStaging : Bool :=
  (safeStagingPath launch.stagingPath).toBool && answers.createDirAll.toBool &&
    answers.setPermissions.toBool && answers.chown.toBool && succeeded answers.mountBind

/-- A failure behind the staging directory leaves no container: nothing was
    created, what was created is removed, or it has exited. -/
def removesContainer : Bool :=
  match buildContainerConfig config launch with
  | .error _ => true
  | .ok body =>
    if (answers.docker.createContainer launch.name body).toBool = false then true
    else if (uploadSecrets answers.docker config launch).toBool = false then answers.cleanup.toBool
    else if (answers.docker.startContainer launch.name).toBool = false then answers.removesUnstarted
    else answers.exits

/-- The failures that leave nothing. -/
def Compensated : Prop :=
  if launch.withWorkspace then bindsStaging answers launch = false
  else removesContainer answers config launch = true

/-- The name was absent, or its stopped container is removed. -/
def Cleared (host : Host) : Prop :=
  answers.docker.inspect launch.name = .ok .notFound ∧ host.containers.lookup launch.name = none ∨
    answers.docker.inspect launch.name = .ok .stopped ∧
      answers.docker.removeContainerForce launch.name = .ok ()

end

/-- No container of the name, and no mount that was not there before. -/
structure NothingLeft (name : String) (before after : Host) : Prop where
  container : after.containers.lookup name = none
  mounts : after.mounts = before.mounts

section

variable {answers : Answers} {config : Config} {launch : LaunchRequest} {host host' : Host}

theorem toBool_answered {α : Type} {attempt : String} {x : Except String α} :
    (answered attempt x).toBool = x.toBool := by
  cases x <;> rfl

theorem toBool_commandResult {fallback : String} {x : Except String CommandOutput} :
    (commandResult fallback x).toBool = succeeded x := by
  cases x with
  | error e => rfl
  | ok output =>
    rw [commandResult, succeeded]
    split
    next hzero => simp [hzero, Except.toBool]
    next hne => simp [hne, Except.toBool]

theorem toBool_of_eq_ok {α β : Type} {x : Except β α} {a : α} (h : x = .ok a) : x.toBool = true := by
  rw [h]
  rfl

/-- A directory that is not set up leaves a mount exactly when it was bound. -/
theorem setupStagingDirImpl_fails
    (h : (setupStagingDirImpl answers config launch).Fails host host') :
    host'.containers = host.containers ∧
      (host'.mounts = host.mounts ↔ bindsStaging answers launch = false) := by
  simp only [setupStagingDirImpl, fails_bind, fails_check, yields_check, fails_act, yields_act,
    toBool_answered, toBool_commandResult] at h
  rw [bindsStaging]
  obtain ⟨hpath, rfl⟩ | ⟨path, _, ⟨hpath, rfl⟩, h⟩ := h
  · simp [hpath]
  obtain ⟨hcreate, rfl⟩ | ⟨_, _, ⟨hcreate, rfl⟩, h⟩ := h
  · simp [hcreate]
  obtain ⟨hmode, rfl⟩ | ⟨_, _, ⟨hmode, rfl⟩, h⟩ := h
  · simp [hmode]
  obtain ⟨howner, rfl⟩ | ⟨_, _, ⟨howner, rfl⟩, h⟩ := h
  · simp [howner]
  obtain ⟨hbind, rfl⟩ | ⟨_, _, ⟨hbind, rfl⟩, -, rfl⟩ := h
  · simp [hbind]
  · have hbound := toBool_of_eq_ok hbind
    rw [toBool_commandResult] at hbound
    simp [toBool_of_eq_ok hpath, toBool_of_eq_ok (answered_eq_ok hcreate),
      toBool_of_eq_ok (answered_eq_ok hmode), toBool_of_eq_ok (answered_eq_ok howner), hbound,
      Host.mount]

theorem setupStagingDirImpl_yields
    (h : (setupStagingDirImpl answers config launch).Yields host () host') :
    ∃ path, bindsStaging answers launch = true ∧ host' = host.mount path := by
  simp only [setupStagingDirImpl, yields_bind, yields_check, yields_act] at h
  obtain ⟨path, _, ⟨hpath, rfl⟩, _, _, ⟨hcreate, rfl⟩, _, _, ⟨hmode, rfl⟩, _, _, ⟨howner, rfl⟩,
    _, _, ⟨hbind, rfl⟩, -, rfl⟩ := h
  refine ⟨path, ?_, rfl⟩
  rw [bindsStaging, ← toBool_commandResult, toBool_of_eq_ok hpath,
    toBool_of_eq_ok (answered_eq_ok hcreate), toBool_of_eq_ok (answered_eq_ok hmode),
    toBool_of_eq_ok (answered_eq_ok howner), toBool_of_eq_ok hbind]
  rfl

theorem lookup_remove (name : String) (host : Host) :
    (host.remove name).containers.lookup name = none := AList.lookup_erase name host.containers

theorem lookup_put_ne_none (name : String) (status : ContainerStatus) (host : Host) :
    (host.put name status).containers.lookup name ≠ none := by
  have hsome : (host.put name status).containers.lookup name = some status :=
    AList.lookup_insert host.containers
  rw [hsome]
  exact nofun

/-- A failure behind the staging directory touches no mount. -/
theorem createAndStartImpl_fails (hnone : host.containers.lookup launch.name = none)
    (h : (createAndStartImpl answers config launch).Fails host host') :
    host'.mounts = host.mounts ∧
      (host'.containers.lookup launch.name = none ↔
        removesContainer answers config launch = true) := by
  simp only [createAndStartImpl, uploadSecretsImpl, fails_bind, fails_check, yields_check,
    fails_act, yields_act, toBool_answered, not_fails_pure, and_false, exists_false, or_false] at h
  rw [removesContainer]
  obtain ⟨hbody, rfl⟩ | ⟨body, host, ⟨hbody, rfl⟩, h⟩ := h
  · cases hconfig : buildContainerConfig config launch with
    | error err => exact ⟨rfl, iff_of_true hnone rfl⟩
    | ok body =>
      rw [hconfig] at hbody
      cases hbody
  rw [hbody]
  obtain ⟨hcreate, rfl⟩ | ⟨_, _, ⟨hcreate, rfl⟩, h⟩ := h
  · exact ⟨rfl, iff_of_true hnone (if_pos hcreate)⟩
  have hcreate := toBool_of_eq_ok (answered_eq_ok hcreate)
  simp only [hcreate, Bool.true_eq_false, if_false]
  obtain ⟨hupload, rfl⟩ | ⟨files, _, ⟨hupload, rfl⟩, h⟩ := h
  · rw [if_pos hupload]
    split
    next hcleanup => exact ⟨rfl, iff_of_true (lookup_remove _ _) hcleanup⟩
    next hcleanup => exact ⟨rfl, iff_of_false (lookup_put_ne_none _ _ _) hcleanup⟩
  have hupload := toBool_of_eq_ok hupload
  simp only [hupload, Bool.true_eq_false, if_false]
  obtain ⟨hstart, rfl⟩ | ⟨_, _, ⟨hstart, rfl⟩, h⟩ := h
  · rw [if_pos hstart]
    split
    next hremoves => exact ⟨rfl, iff_of_true (lookup_remove _ _) hremoves⟩
    next hremoves => exact ⟨rfl, iff_of_false (lookup_put_ne_none _ _ _) hremoves⟩
  have hstart := toBool_of_eq_ok (answered_eq_ok hstart)
  simp only [hstart, Bool.true_eq_false, if_false]
  obtain ⟨hnever, -⟩ | ⟨_, _, ⟨-, rfl⟩, h⟩ := h
  · cases hnever
  -- whichever of the last checks fails, the container is as it was left before
  have hend : host' = (if answers.exits then Host.remove launch.name else id)
      (Host.put launch.name .running (Host.put launch.name .created host)) := by
    obtain ⟨-, rfl⟩ | ⟨_, _, ⟨-, rfl⟩, -, rfl⟩ := h
    · rfl
    · rfl
  rw [hend]
  split
  next hexits => exact ⟨rfl, iff_of_true (lookup_remove _ _) hexits⟩
  next hexits => exact ⟨rfl, iff_of_false (lookup_put_ne_none _ _ _) hexits⟩

theorem startFreshImpl_fails (hnone : host.containers.lookup launch.name = none)
    (h : (startFreshImpl answers config launch).Fails host host') :
    NothingLeft launch.name host host' ↔ Compensated answers config launch := by
  rw [startFreshImpl] at h
  rw [Compensated]
  by_cases hworkspace : launch.withWorkspace = true
  · rw [if_pos hworkspace] at h ⊢
    rw [fails_bind] at h
    obtain h | ⟨_, host₁, hyields, h⟩ := h
    · obtain ⟨hcontainers, hmounts⟩ := setupStagingDirImpl_fails h
      rw [← hmounts]
      exact ⟨fun hnothing => hnothing.mounts, fun hsame => ⟨hcontainers ▸ hnone, hsame⟩⟩
    · obtain ⟨path, hbound, rfl⟩ := setupStagingDirImpl_yields hyields
      have hnone' : (host.mount path).containers.lookup launch.name = none := hnone
      obtain ⟨hmounts, -⟩ := createAndStartImpl_fails hnone' h
      refine iff_of_false (fun hnothing => ?_) (by simp [hbound])
      have hlength := congrArg List.length (hmounts.symm.trans hnothing.mounts)
      rw [Host.mount, List.length_cons] at hlength
      omega
  · rw [if_neg hworkspace] at h ⊢
    obtain ⟨hmounts, hcontainer⟩ := createAndStartImpl_fails hnone h
    exact ⟨fun hnothing => hcontainer.mp hnothing.container,
      fun hremoves => ⟨hcontainer.mpr hremoves, hmounts⟩⟩

/-- **What is left of a failed launch**: nothing, exactly when the failure is one
    that is compensated for. -/
theorem nothingLeft_iff_compensated (hcleared : Cleared answers launch host)
    (h : (ensureContainerImpl answers config launch).Fails host host') :
    NothingLeft launch.name host host' ↔ Compensated answers config launch := by
  rw [ensureContainerImpl, fails_bind] at h
  obtain h | ⟨inspected, host₁, hinspected, h⟩ := h
  · rw [fails_check, toBool_answered] at h
    obtain ⟨hinspect, -⟩ | ⟨hinspect, -⟩ := hcleared
    · rw [hinspect] at h
      cases h.1
    · rw [hinspect] at h
      cases h.1
  obtain ⟨hanswer, rfl⟩ := yields_check.mp hinspected
  have hinspected := answered_eq_ok hanswer
  obtain ⟨hinspect, hnone⟩ | ⟨hinspect, hremove⟩ := hcleared
  · rw [hinspect] at hinspected
    cases hinspected
    exact startFreshImpl_fails hnone h
  · rw [hinspect] at hinspected
    cases hinspected
    rw [fails_bind, fails_act, toBool_answered, hremove] at h
    obtain ⟨hnever, -⟩ | ⟨_, _, hyields, h⟩ := h
    · cases hnever
    · obtain ⟨-, rfl⟩ := yields_act.mp hyields
      have hsame : NothingLeft launch.name host₁ host' ↔
          NothingLeft launch.name (host₁.remove launch.name) host' :=
        ⟨fun hnothing => ⟨hnothing.container, hnothing.mounts⟩,
          fun hnothing => ⟨hnothing.container, hnothing.mounts⟩⟩
      rw [hsame]
      exact startFreshImpl_fails (lookup_remove _ _) h

end

-- ════════════════════════════════════════════════════════════════════════
-- Two failures
-- ════════════════════════════════════════════════════════════════════════

/-- A daemon on which everything goes well but the call `create` or the start. -/
def failingDocker (create start : Except String Unit) : Docker where
  inspect _ := .ok .notFound
  removeContainerForce _ := .ok ()
  setupStagingDir _ := .ok ()
  createContainer _ _ := create
  putArchive _ := .ok ∅
  startContainer _ := start
  address _ := .ok "172.18.0.2"

def failingAnswers (create start : Except String Unit) : Answers where
  docker := failingDocker create start
  createDirAll := .ok ()
  setPermissions := .ok ()
  chown := .ok ()
  mountBind := .ok ⟨0, ""⟩
  makeRshared := .ok ⟨0, ""⟩
  cleanup := .ok ()
  removesUnstarted := false
  exits := false

def probeConfig : Config where
  validImage _ := true
  defaultNetwork := "botwork"
  egressProxy := none
  pluginUid := 1000
  pluginGid := 1000
  containerPidsLimit := 256
  containerCpuLimit := "1.0"
  containerMemoryLimit := "512m"
  containerReadOnlyRootfs := true

def probeLaunch : LaunchRequest where
  name := "mcp_session_a"
  image := "plugin:1"
  network := "botwork"
  stagingPath := "/var/lib/botwork/tenants/acme/staging/aabbccddeeff"
  withWorkspace := false
  pidsLimit := none
  cpuLimit := none
  memoryLimit := none
  env := []
  labels := []
  secrets := []

/-- Of a container that could not be created nothing is left. -/
theorem nothingLeft_of_create :
    ∃ host', (ensureContainerImpl (failingAnswers (.error "no such image") (.ok ())) probeConfig
        probeLaunch).Fails ⟨∅, []⟩ host' ∧
      (NothingLeft "mcp_session_a" ⟨∅, []⟩ host' ↔
        Compensated (failingAnswers (.error "no such image") (.ok ())) probeConfig probeLaunch) := by
  have hfails := fails_of_exec (m := ensureContainerImpl
    (failingAnswers (.error "no such image") (.ok ())) probeConfig probeLaunch) (s := ⟨∅, []⟩)
    (by decide +kernel)
  exact ⟨_, hfails, nothingLeft_iff_compensated (.inl ⟨rfl, rfl⟩) hfails⟩

/-- A container that does not start stays. -/
theorem unstarted_container_is_left :
    ¬ ∀ (answers : Answers) (config : Config) (launch : LaunchRequest) (host host' : Host),
      Cleared answers launch host → (ensureContainerImpl answers config launch).Fails host host' →
        NothingLeft launch.name host host' := by
  intro h
  have hfails := fails_of_exec (m := ensureContainerImpl
    (failingAnswers (.ok ()) (.error "exec format error")) probeConfig probeLaunch) (s := ⟨∅, []⟩)
    (by decide +kernel)
  have hnone := (h _ _ _ _ _ (.inl ⟨rfl, rfl⟩) hfails).container
  exact absurd hnone (by decide +kernel)

end Botwork.Launcher
