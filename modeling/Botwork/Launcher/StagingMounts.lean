import Botwork.Foundations.SharedSubtrees
import Botwork.Foundations.Transition
import Botwork.Launcher.Leftovers

/-!
# The mounts on a staging path

The calls on one staging path with the mounts that are stacked on it: a launch
binds the staging directory onto itself, a bind puts an agent directory over it,
and a teardown unmounts twice.  Every command may fail.  The kernel is a parameter
that propagates mounts between peers; a directory is known by its device and inode,
and the launcher sees the one mounted last.

## Main definitions

- `Site` — the containers, the staging directory and the mounts of the host
- `Site.ensureContainerImpl`, `Site.bindAgentImpl`, `Site.teardownImpl` — the calls
- `launcher` — any sequence of them
- `FindsRoom` — what a launch and a bind find on the path
- `LeavesNoMount` — no mount is left, and no directory but one with files
-/

namespace Botwork.Launcher

open Botwork.Foundations Botwork.Foundations.Effectful

/-- Device and inode. -/
abbrev Identity := Nat × Nat

structure Directory where
  identity : Identity
  files : List String
  deriving DecidableEq

/-- The containers of the daemon, the directory at one staging path, the mounts of
    the kernel, and the targets of the binds that were made. -/
structure Site (σ : Type) where
  containers : FiniteMap String ContainerStatus
  staging : Option Directory
  mounts : σ
  binds : List String

namespace Site

variable {σ : Type}

def onContainers (f : FiniteMap String ContainerStatus → FiniteMap String ContainerStatus)
    (site : Site σ) : Site σ :=
  { site with containers := f site.containers }

/-- The host of a site, with the binds that were made. -/
def host (site : Site σ) : Host := ⟨site.containers, site.binds⟩

/-- `create_dir_all`; a new directory has the identity `fresh`. -/
def create (fresh : Identity) (site : Site σ) : Site σ :=
  { site with staging := some (site.staging.getD ⟨fresh, []⟩) }

def write (files : List String) (site : Site σ) : Site σ :=
  { site with staging := site.staging.map ({ · with files }) }

section

variable (kernel : Kernel σ Identity) (site : Site σ)

/-- The mounts stacked on the path, the lowest first. -/
def stack : List (Mount Identity) :=
  match site.staging with
  | none => []
  | some dir => (kernel.mounts site.mounts).stack dir.identity

/-- What is seen at the path. -/
def identity : Option Identity :=
  site.staging.map fun dir => ((kernel.mounts site.mounts).top dir.identity).root

/-- `mount --bind` of a directory onto the path, or onto itself. -/
def bindOnto (source : Directory → Identity) (path : String) : Site σ :=
  { site with
    binds := path :: site.binds
    mounts :=
      match site.staging with
      | none => site.mounts
      | some dir => kernel.bind (source dir) dir.identity site.mounts }

def makeRshared : Site σ :=
  match site.staging with
  | none => site
  | some dir => { site with mounts := kernel.makeShared dir.identity site.mounts }

def umount : Site σ :=
  match site.staging with
  | none => site
  | some dir => { site with mounts := kernel.umount dir.identity site.mounts }

/-- `remove_dir` fails on a mount point and on a directory with files. -/
def removeDir : Site σ :=
  match site.staging, site.stack kernel with
  | some ⟨_, []⟩, [] => { site with staging := none }
  | _, _ => site

end

-- ════════════════════════════════════════════════════════════════════════
-- Launch
-- ════════════════════════════════════════════════════════════════════════

section

variable (kernel : Kernel σ Identity) (answers : Answers) (fresh : Identity) (config : Config)
  (launch : LaunchRequest)

def setupStagingDirImpl : Effectful LauncherError (Site σ) Unit := do
  let safeStaging ← check (safeStagingPath launch.stagingPath)
  act (answered ("failed to create staging dir " ++ safeStaging) answers.createDirAll)
    (create fresh) id
  check (answered ("failed to set permissions on " ++ safeStaging) answers.setPermissions)
  check (answered ("failed to chown " ++ safeStaging ++ " to " ++ toString config.pluginUid ++ ":" ++
    toString config.pluginGid) answers.chown)
  act (commandResult ("failed to bind-mount staging dir " ++ safeStaging) answers.mountBind)
    (bindOnto kernel · Directory.identity safeStaging) id
  act (commandResult ("failed to make staging dir rshared: " ++ safeStaging) answers.makeRshared)
    (makeRshared kernel) id

/-- Behind the staging directory a launch only works on containers. -/
def createAndStartImpl : Effectful LauncherError (Site σ) Container :=
  (Launcher.createAndStartImpl answers config launch).onPart (fun site => ⟨site.containers, []⟩)
    fun site host => { site with containers := host.containers }

def startFreshImpl : Effectful LauncherError (Site σ) Container := do
  if launch.withWorkspace then setupStagingDirImpl kernel answers fresh config launch else pure ()
  createAndStartImpl answers config launch

def ensureContainerImpl : Effectful LauncherError (Site σ) Container := do
  let inspected ← check (answered ("failed to inspect " ++ launch.name)
    (answers.docker.inspect launch.name))
  match inspected with
  | .running files address =>
    let ip ← check (parseContainerIp address launch.name launch.network)
    return ⟨"already_running", ip, files⟩
  | .stopped =>
    act (answered ("failed to remove " ++ launch.name)
      (answers.docker.removeContainerForce launch.name)) (onContainers (·.erase launch.name)) id
    startFreshImpl kernel answers fresh config launch
  | .notFound => startFreshImpl kernel answers fresh config launch

end

end Site

-- ════════════════════════════════════════════════════════════════════════
-- Bind
-- ════════════════════════════════════════════════════════════════════════

inductive StatError where
  | notFound
  | other (message : String)

/-- An entry of the directory of an agent and its siblings. -/
structure Sibling where
  fileName : String
  metadata : Except StatError Identity

/-- The answers of the host to one bind; an error is the text of the failed call. -/
structure BindAnswers where
  createDirAll : Except String Unit
  setPermissions : Except String Unit
  chown : Except String Unit
  /-- the staging path can be read, if there is a directory -/
  statStaging : Except String Unit
  /-- the directory at the agent path -/
  agentDirectory : Identity
  /-- the agent path can be read -/
  statAgent : Except String Unit
  readDir : Except String (List (Except String Sibling))
  mountBind : Except String CommandOutput

/-- The directory of an agent directory: the path before its last part. -/
def agentsParent (safeAgent : String) : String :=
  String.ofList ((safeAgent.toList.reverse.dropWhile (· != '/')).drop 1).reverse

/-- One turn of the loop over the siblings of an agent directory. -/
def checkSibling (safeStaging safeAgent : String) (stagingIdentity : Identity) :
    Except String Sibling → Except LauncherError Unit
  | .error e => .error (.internal ("failed to read sibling agent entry: " ++ e))
  | .ok sibling =>
    let siblingDir := agentsParent safeAgent ++ "/" ++ sibling.fileName
    if siblingDir = safeAgent then .ok ()
    else
      match sibling.metadata with
      | .error .notFound => .ok ()
      | .error (.other e) =>
        .error (.internal ("failed to stat sibling agent " ++ siblingDir ++ ": " ++ e))
      | .ok identity =>
        if identity = stagingIdentity then
          .error (.conflict ("staging_path " ++ safeStaging ++ " already bound to " ++ siblingDir ++
            ", cannot rebind to " ++ safeAgent))
        else .ok ()

namespace Site

variable {σ : Type} (kernel : Kernel σ Identity)

/-- What `metadata` says of the staging path. -/
def metadata (site : Site σ) (readable : Except String Unit) : Except String Identity := do
  readable
  match site.identity kernel with
  | none => .error "No such file or directory (os error 2)"
  | some identity => .ok identity

/-- What `metadata` says of the agent path. -/
def agentMetadata (site : Site σ) (answers : BindAnswers) : Except String Identity := do
  answers.statAgent
  return ((kernel.mounts site.mounts).top answers.agentDirectory).root

def bindAgentImpl (answers : BindAnswers) (config : Config) (stagingPath agentDir : String) :
    Effectful LauncherError (Site σ) Unit := do
  let safeStaging ← check (safeStagingPath stagingPath)
  let safeAgent ← check (safeAgentDir agentDir)
  check (answered ("failed to create agent dir " ++ safeAgent) answers.createDirAll)
  check (answered ("failed to set permissions on " ++ safeAgent) answers.setPermissions)
  check (answered ("failed to chown " ++ safeAgent ++ " to " ++ toString config.pluginUid ++ ":" ++
    toString config.pluginGid) answers.chown)
  let stagingIdentity ← actOn (fun site => answered ("failed to stat staging_path " ++ safeStaging)
    (site.metadata kernel answers.statStaging)) id id
  let agentIdentity ← actOn (fun site => answered ("failed to stat agent_dir " ++ safeAgent)
    (site.agentMetadata kernel answers)) id id
  if stagingIdentity = agentIdentity then pure ()
  else do
    let entries ← check (answered ("failed to list sibling agents in " ++ agentsParent safeAgent)
      answers.readDir)
    check (entries.forM (checkSibling safeStaging safeAgent stagingIdentity))
    act (commandResult ("failed to bind " ++ safeAgent ++ " onto " ++ safeStaging) answers.mountBind)
      (bindOnto kernel · (fun _ => answers.agentDirectory) safeStaging) id

end Site

-- ════════════════════════════════════════════════════════════════════════
-- Teardown
-- ════════════════════════════════════════════════════════════════════════

inductive RemoveError where
  | notFound
  | other (message : String)

/-- The answers to one teardown. -/
structure TeardownAnswers where
  removeContainerForce : Except RemoveError Unit
  /-- `umount` of a path with mounts, by the rounds that are left -/
  umount : Nat → Except String CommandOutput
  /-- what `umount` says of a path without -/
  notMounted : { output : CommandOutput // output.returncode ≠ 0 }
  /-- the host does not refuse to remove the empty directory -/
  removesDir : Bool

namespace TeardownAnswers

/-- Every command does what it can: the container is gone, `umount` takes a mount
    away while there is one, and the directory is removed if it is empty. -/
structure AllSucceed (answers : TeardownAnswers) : Prop where
  removeContainerForce : answers.removeContainerForce = .ok () ∨
    answers.removeContainerForce = .error .notFound
  umount : ∀ round, succeeded (answers.umount round) = true
  removesDir : answers.removesDir = true

end TeardownAnswers

namespace Site

variable {σ : Type}

section

variable (kernel : Kernel σ Identity) (answers : TeardownAnswers)

/-- The run of one `umount`. -/
def umountOutput (round : Nat) (site : Site σ) : Except String CommandOutput :=
  match site.stack kernel, answers.umount round with
  | [], .ok _ => .ok answers.notMounted
  | _, output => output

/-- What a mount that was taken away leaves. -/
def umountEffect (round : Nat) (site : Site σ) : Site σ :=
  if succeeded (site.umountOutput kernel answers round) then site.umount kernel else site

/-- The loop of `umount`s, with the number of rounds; the first that fails ends it. -/
def umounts : Nat → Effectful LauncherError (Site σ) Unit
  | 0 => pure ()
  | rounds + 1 => do
    let output ← actOn
      (fun site =>
        (site.umountOutput kernel answers rounds).mapError fun e : String => .internal e)
      (umountEffect kernel answers rounds) id
    if output.returncode ≠ 0 then pure () else umounts rounds

/-- `remove_container_force`; a container that cannot be removed stays. -/
def removeContainer (name : String) (site : Site σ) : Site σ :=
  if answers.removeContainerForce.toBool then site.onContainers (·.erase name) else site

def teardownImpl (name stagingPath : String) : Effectful LauncherError (Site σ) Unit := do
  let _ ← check (safeStagingPath stagingPath)
  act (.ok ()) (removeContainer answers name) id
  umounts kernel answers 2
  act (.ok ()) (if answers.removesDir then removeDir kernel else id) id

end

/-- The daemon says of a container what is the case, if it answers. -/
def inspection (site : Site σ) (answers : Answers) (name : String) : Except String Inspected := do
  let seen ← answers.docker.inspect name
  match site.containers.lookup name, seen with
  | none, _ => return .notFound
  | some .running, .running files address => return .running files address
  | some .running, _ => return .running ∅ ""
  | some _, _ => return .stopped

def observed (site : Site σ) (answers : Answers) : Answers :=
  { answers with docker := { answers.docker with inspect := site.inspection answers } }

/-- A running container stops. -/
def exits (name : String) (site : Site σ) : Site σ :=
  if site.containers.lookup name = some .running then
    site.onContainers (·.insert name .stopped)
  else site

end Site

-- ════════════════════════════════════════════════════════════════════════
-- Runs
-- ════════════════════════════════════════════════════════════════════════

/-- What happens at a staging path: the calls on it, a container that exits, and a
    plugin that leaves files in the directory. -/
inductive Call where
  | ensureContainer (answers : Answers) (fresh : Identity) (config : Config)
      (launch : LaunchRequest)
  | bindAgent (answers : BindAnswers) (config : Config) (agentDir : String)
  | teardown (answers : TeardownAnswers) (name : String)
  | exits (name : String)
  | writes (files : List String)

section

variable {σ : Type} (kernel : Kernel σ Identity)

def Site.apply (path : String) (site : Site σ) : Call → Site σ
  | .ensureContainer answers fresh config launch =>
    ((Site.ensureContainerImpl kernel (site.observed answers) fresh config
      { launch with stagingPath := path }).exec site).2
  | .bindAgent answers config agentDir =>
    ((Site.bindAgentImpl kernel answers config path agentDir).exec site).2
  | .teardown answers name => ((Site.teardownImpl kernel answers name path).exec site).2
  | .exits name => site.exits name
  | .writes files => site.write files

/-- Nothing is mounted on a directory that is made anew. -/
def Site.canHappen (site : Site σ) : Call → Bool
  | .ensureContainer _ fresh _ _ =>
    site.staging.isSome || ((kernel.mounts site.mounts).stack fresh).isEmpty
  | _ => true

def launcher (path : String) : Machine (Site σ) Call where
  Start site := site.staging = none
  next site call := if site.canHappen kernel call then some (site.apply kernel path call) else none

/-- So many unmounts take all that is mounted on the path. -/
def Site.ClearedBy (site : Site σ) (unmounts : Nat) : Prop :=
  ((fun site => site.umount kernel)^[unmounts] site).stack kernel = []

/-- What is seen at the path is mounted on a peer of its own, that shows the same
    directory; a copy of it will go with it. -/
def Site.OnItsPeer (site : Site σ) : Prop :=
  ∃ dir ∈ site.staging,
    let table := kernel.mounts site.mounts
    Mount.beneath (table.ground dir.identity) (table.stack dir.identity) =
        some (table.top dir.identity) ∧ (table.top dir.identity).isShared = true

/-- The directory that is seen is the one to bind. -/
def Site.AlreadyBound (site : Site σ) (answers : BindAnswers) : Prop :=
  site.identity kernel = some ((kernel.mounts site.mounts).top answers.agentDirectory).root

/-- A launch that starts its container with a workspace finds mounts that one unmount
    takes, or on top one that is mounted on a peer of its own; a bind to a directory
    that is not the one seen finds mounts that one unmount takes. -/
def FindsRoom (site : Site σ) : Call → Prop
  | .ensureContainer _ _ _ launch =>
    launch.withWorkspace = false ∨ site.containers.lookup launch.name = some .running ∨
      site.ClearedBy kernel 1 ∨ site.OnItsPeer kernel
  | .bindAgent answers _ _ => site.AlreadyBound kernel answers ∨ site.ClearedBy kernel 1
  | _ => True

/-- No mount is left, and no directory but one with files. -/
def LeavesNoMount (before after : Site σ) : Prop :=
  after.stack kernel = [] ∧
    (after.staging = none ∨ ∃ dir, before.staging = some dir ∧ dir.files ≠ [])

end

-- ════════════════════════════════════════════════════════════════════════
-- What a call leaves for the unmounts
-- ════════════════════════════════════════════════════════════════════════

namespace Site

section

variable {σ : Type} {kernel : Kernel σ Identity} {site site' : Site σ} {dir : Directory} {n : Nat}

theorem clearedBy_iff (hkernel : kernel.PropagatesMounts) (hdir : site.staging = some dir) :
    site.ClearedBy kernel n ↔
      (Mount.popped ((kernel.mounts site.mounts).ground dir.identity))^[n]
        ((kernel.mounts site.mounts).stack dir.identity) = [] := by
  induction n generalizing site with
  | zero => simp [ClearedBy, stack, hdir]
  | succ n ih =>
    rw [ClearedBy, Function.iterate_succ_apply, Function.iterate_succ_apply, ← ClearedBy]
    have hafter : (site.umount kernel).staging = some dir := by simp [umount, hdir]
    rw [ih hafter]
    simp only [umount, hdir, hkernel.umount, MountTable.stack_umount, MountTable.ground_umount]

theorem clearedBy_of_none (hnone : site.staging = none) : site.ClearedBy kernel n := by
  have hstays : (fun site => umount kernel site)^[n] site = site :=
    Function.iterate_fixed (by simp [umount, hnone]) n
  rw [ClearedBy, hstays]
  simp [stack, hnone]

theorem clearedBy_one_of_stack (hkernel : kernel.PropagatesMounts) (hstack : site.stack kernel = []) :
    site.ClearedBy kernel 1 := by
  cases hdir : site.staging with
  | none => exact clearedBy_of_none hdir
  | some dir =>
    simp only [stack, hdir] at hstack
    rw [clearedBy_iff hkernel hdir, hstack, Function.iterate_one, Mount.popped_nil]

namespace ClearedBy

theorem succ (hkernel : kernel.PropagatesMounts) (h : site.ClearedBy kernel n) :
    site.ClearedBy kernel (n + 1) := by
  cases hdir : site.staging with
  | none => exact clearedBy_of_none hdir
  | some dir =>
    rw [clearedBy_iff hkernel hdir] at h ⊢
    rw [Function.iterate_succ_apply', h, Mount.popped_nil]

/-- Only the directory and the mounts count. -/
theorem of_same (hkernel : kernel.PropagatesMounts) (h : site.ClearedBy kernel n)
    (hstaging : site'.staging = site.staging) (hmounts : site'.mounts = site.mounts) :
    site'.ClearedBy kernel n := by
  cases hdir : site.staging with
  | none => exact clearedBy_of_none (hstaging.trans hdir)
  | some dir =>
    rw [clearedBy_iff hkernel hdir] at h
    rw [clearedBy_iff hkernel (hstaging.trans hdir), hmounts]
    exact h

theorem umount (hkernel : kernel.PropagatesMounts) (h : site.ClearedBy kernel n) :
    (site.umount kernel).ClearedBy kernel n := h.succ hkernel

/-- Another directory on top: one unmount takes it away again. -/
theorem bindOther {source : Identity} {path : String} (hkernel : kernel.PropagatesMounts)
    (hdir : site.staging = some dir) (h : site.ClearedBy kernel n)
    (hother : ((kernel.mounts site.mounts).top dir.identity).root ≠
      ((kernel.mounts site.mounts).top source).root) :
    (site.bindOnto kernel (fun _ => source) path).ClearedBy kernel (n + 1) := by
  obtain ⟨group, hbind⟩ := hkernel.bind source dir.identity site.mounts
  have hnew : (kernel.mounts site.mounts).copy group source dir.identity ≠
      (kernel.mounts site.mounts).top dir.identity := fun heq =>
    hother ((congrArg Mount.root heq).symm.trans (MountTable.copy_root ..))
  have hafter : (site.bindOnto kernel (fun _ => source) path).staging = some dir := hdir
  rw [clearedBy_iff hkernel hafter, Function.iterate_succ_apply]
  simp only [Site.bindOnto, hdir, hbind, MountTable.ground_bind, MountTable.stack_bind]
  rw [Mount.popped_pushed hnew]
  exact (clearedBy_iff hkernel hdir).mp h

/-- The directory that is seen, once more: one unmount takes the copy away, with all
    that is mounted on its peers. -/
theorem bindSelf (path : String) (hkernel : kernel.PropagatesMounts) (h : site.ClearedBy kernel 2)
    (hroom : site.ClearedBy kernel 1 ∨ site.OnItsPeer kernel) :
    (site.bindOnto kernel Directory.identity path).ClearedBy kernel 2 := by
  cases hdir : site.staging with
  | none => exact clearedBy_of_none hdir
  | some dir =>
    obtain ⟨group, hbind⟩ := hkernel.bind dir.identity dir.identity site.mounts
    have hafter : (site.bindOnto kernel Directory.identity path).staging = some dir := hdir
    rw [clearedBy_iff hkernel hafter, Function.iterate_succ_apply, Function.iterate_one]
    simp only [Site.bindOnto, hdir, hbind, MountTable.ground_bind, MountTable.stack_bind]
    rw [clearedBy_iff hkernel hdir, Function.iterate_one] at hroom
    by_cases hshared : ((kernel.mounts site.mounts).top dir.identity).isShared = true
    · rw [MountTable.copy_self _ _ _ hshared, MountTable.top, Mount.popped_pushed_self hshared]
      obtain hone | hpeer := hroom
      · exact Mount.popped_strip_top hone
      · -- the copy goes with the mount it is stacked on
        obtain ⟨dir', hdir', hpeer⟩ := hpeer
        obtain rfl : dir = dir' := Option.some.inj (hdir.symm.trans hdir')
        rw [clearedBy_iff hkernel hdir, Function.iterate_succ_apply, Function.iterate_one,
          Mount.popped_of_beneath hpeer.1 hpeer.2] at h
        exact h
    · rw [Mount.popped_pushed_of_private (eq_false_of_ne_true hshared)]
      refine hroom.resolve_right fun ⟨dir', hdir', hpeer⟩ => ?_
      obtain rfl : dir = dir' := Option.some.inj (hdir.symm.trans hdir')
      exact hshared hpeer.2

theorem makeRshared (hkernel : kernel.PropagatesMounts) (h : site.ClearedBy kernel (n + 1)) :
    (site.makeRshared kernel).ClearedBy kernel (n + 1) := by
  cases hdir : site.staging with
  | none => simpa only [Site.makeRshared, hdir] using h
  | some dir =>
    obtain ⟨group, hshare⟩ := hkernel.makeShared dir.identity site.mounts
    rw [clearedBy_iff hkernel hdir, Function.iterate_succ_apply] at h
    simp only [Site.makeRshared, hdir]
    rw [clearedBy_iff hkernel rfl, Function.iterate_succ_apply]
    simp only [hshare, MountTable.ground_makeShared]
    rw [MountTable.popped_makeShared]
    exact h

end ClearedBy

theorem create_of_some {fresh : Identity} (hdir : site.staging = some dir) : site.create fresh = site := by
  obtain ⟨containers, staging, mounts, binds⟩ := site
  cases hdir
  rfl

/-- On a directory that is made anew nothing is mounted. -/
theorem stack_create_of_none {fresh : Identity} (hnone : site.staging = none) :
    (site.create fresh).stack kernel = (kernel.mounts site.mounts).stack fresh := by
  simp [stack, create, hnone]

end

end Site

-- ════════════════════════════════════════════════════════════════════════
-- Calls
-- ════════════════════════════════════════════════════════════════════════

namespace Site

section

variable {σ : Type} {kernel : Kernel σ Identity} {answers : Answers} {fresh : Identity} {config : Config}
  {launch : LaunchRequest} {site : Site σ}

theorem setupStagingDirImpl_clearedBy (hkernel : kernel.PropagatesMounts)
    (htwo : site.ClearedBy kernel 2)
    (hnew : site.staging = none → (kernel.mounts site.mounts).stack fresh = [])
    (hroom : site.ClearedBy kernel 1 ∨ site.OnItsPeer kernel) :
    Ends (·.ClearedBy kernel 2) (setupStagingDirImpl kernel answers fresh config launch) site := by
  -- the directory is made, and what was mounted on it stays
  have hcreated : (site.create fresh).ClearedBy kernel 2 ∧
      ((site.create fresh).ClearedBy kernel 1 ∨ (site.create fresh).OnItsPeer kernel) := by
    cases hdir : site.staging with
    | none =>
      have hone := clearedBy_one_of_stack hkernel ((stack_create_of_none hdir).trans (hnew hdir))
      exact ⟨hone.succ hkernel, .inl hone⟩
    | some dir =>
      rw [create_of_some hdir]
      exact ⟨htwo, hroom⟩
  obtain ⟨htwo', hroom'⟩ := hcreated
  refine ends_check_bind htwo fun safeStaging _ => ?_
  refine ends_act_bind htwo fun _ _ => ?_
  refine ends_check_bind htwo' fun _ _ => ?_
  refine ends_check_bind htwo' fun _ _ => ?_
  refine ends_act_bind htwo' fun _ _ => ?_
  have hbound := htwo'.bindSelf safeStaging hkernel hroom'
  exact ends_act (hbound.makeRshared hkernel) hbound

theorem createAndStartImpl_clearedBy (hkernel : kernel.PropagatesMounts)
    (htwo : site.ClearedBy kernel 2) :
    Ends (·.ClearedBy kernel 2) (createAndStartImpl answers config launch) site :=
  htwo.of_same hkernel rfl rfl

/-- Without a workspace nothing is mounted. -/
theorem startFreshImpl_clearedBy (hkernel : kernel.PropagatesMounts) (htwo : site.ClearedBy kernel 2)
    (hnew : site.staging = none → (kernel.mounts site.mounts).stack fresh = [])
    (hroom : launch.withWorkspace = false ∨ site.ClearedBy kernel 1 ∨ site.OnItsPeer kernel) :
    Ends (·.ClearedBy kernel 2) (startFreshImpl kernel answers fresh config launch) site := by
  rw [startFreshImpl]
  split
  next hworkspace =>
    have hroom' := hroom.resolve_left fun h => Bool.noConfusion (hworkspace.symm.trans h)
    exact (setupStagingDirImpl_clearedBy hkernel htwo hnew hroom').bind
      fun _ _ htwo' => createAndStartImpl_clearedBy hkernel htwo'
  next => exact createAndStartImpl_clearedBy hkernel htwo

theorem running_of_observed {name : String} {inspected : Inspected}
    (hrunning : site.containers.lookup name = some .running)
    (h : (site.observed answers).docker.inspect name = .ok inspected) :
    ∃ files address, inspected = .running files address := by
  have hseen : site.inspection answers name = .ok inspected := h
  rw [inspection, hrunning] at hseen
  obtain ⟨seen, -, hmatch⟩ := bind_eq_ok.mp hseen
  cases seen with
  | running files address => exact ⟨files, address, (Except.ok.inj hmatch).symm⟩
  | stopped => exact ⟨∅, "", (Except.ok.inj hmatch).symm⟩
  | notFound => exact ⟨∅, "", (Except.ok.inj hmatch).symm⟩

/-- A launch that finds its container running mounts nothing. -/
theorem ensureContainerImpl_clearedBy_of_running (htwo : site.ClearedBy kernel 2)
    (h : ∀ inspected, answers.docker.inspect launch.name = .ok inspected →
      ∃ files address, inspected = .running files address) :
    Ends (·.ClearedBy kernel 2) (ensureContainerImpl kernel answers fresh config launch) site := by
  refine ends_check_bind htwo fun inspected hinspected => ?_
  obtain ⟨files, address, rfl⟩ := h inspected (answered_eq_ok hinspected)
  exact ends_check_bind htwo fun _ _ => ends_pure htwo

theorem ensureContainerImpl_clearedBy (hkernel : kernel.PropagatesMounts)
    (htwo : site.ClearedBy kernel 2)
    (hnew : site.staging = none → (kernel.mounts site.mounts).stack fresh = [])
    (hroom : launch.withWorkspace = false ∨ site.ClearedBy kernel 1 ∨ site.OnItsPeer kernel) :
    Ends (·.ClearedBy kernel 2) (ensureContainerImpl kernel answers fresh config launch) site := by
  refine ends_check_bind htwo fun inspected _ => ?_
  cases inspected with
  | running files address => exact ends_check_bind htwo fun _ _ => ends_pure htwo
  | stopped =>
    refine ends_act_bind htwo fun _ _ => ?_
    refine startFreshImpl_clearedBy hkernel (htwo.of_same hkernel rfl rfl) hnew ?_
    exact hroom.imp_right (Or.imp_left fun hone => hone.of_same hkernel rfl rfl)
  | notFound => exact startFreshImpl_clearedBy hkernel htwo hnew hroom

end

section

variable {σ : Type} {kernel : Kernel σ Identity} {answers : BindAnswers} {config : Config}
  {stagingPath agentDir : String} {site : Site σ}

/-- Only a directory that is not the one seen is mounted. -/
theorem bindAgentImpl_clearedBy (hkernel : kernel.PropagatesMounts) (htwo : site.ClearedBy kernel 2)
    (hroom : site.AlreadyBound kernel answers ∨ site.ClearedBy kernel 1) :
    Ends (·.ClearedBy kernel 2) (bindAgentImpl kernel answers config stagingPath agentDir) site := by
  refine ends_check_bind htwo fun _ _ => ?_
  refine ends_check_bind htwo fun _ _ => ?_
  refine ends_check_bind htwo fun _ _ => ?_
  refine ends_check_bind htwo fun _ _ => ?_
  refine ends_check_bind htwo fun _ _ => ?_
  refine ends_actOn_bind htwo fun stagingIdentity hstaging => ?_
  refine ends_actOn_bind htwo fun agentIdentity hagent => ?_
  obtain ⟨_, -, hseen⟩ := bind_eq_ok.mp (answered_eq_ok hstaging)
  obtain ⟨_, -, hsource⟩ := bind_eq_ok.mp (answered_eq_ok hagent)
  cases hsource
  cases hdir : site.staging with
  | none =>
    simp only [identity, hdir, Option.map_none] at hseen
    cases hseen
  | some dir =>
    simp only [identity, hdir, Option.map_some] at hseen
    cases hseen
    split
    next => exact ends_pure htwo
    next hother =>
      refine ends_check_bind htwo fun _ _ => ?_
      refine ends_check_bind htwo fun _ _ => ?_
      have hone := hroom.resolve_left fun hbound => by
        simp only [AlreadyBound, identity, hdir, Option.map_some, Option.some.injEq] at hbound
        exact hother hbound
      exact ends_act (hone.bindOther hkernel hdir hother) htwo

end

section

variable {σ : Type} {kernel : Kernel σ Identity} {answers : TeardownAnswers} {site : Site σ}

theorem staging_removeContainer (answers : TeardownAnswers) (name : String) :
    (site.removeContainer answers name).staging = site.staging := by
  unfold removeContainer
  split <;> rfl

theorem mounts_removeContainer (answers : TeardownAnswers) (name : String) :
    (site.removeContainer answers name).mounts = site.mounts := by
  unfold removeContainer
  split <;> rfl

theorem umounts_clearedBy (hkernel : kernel.PropagatesMounts) {n : Nat} (rounds : Nat)
    (h : site.ClearedBy kernel n) : Ends (·.ClearedBy kernel n) (umounts kernel answers rounds) site := by
  induction rounds generalizing site with
  | zero => exact ends_pure h
  | succ rounds ih =>
    refine ends_actOn_bind h fun output _ => ?_
    have hafter : (site.umountEffect kernel answers rounds).ClearedBy kernel n := by
      rw [umountEffect]
      split
      next => exact h.umount hkernel
      next => exact h
    split
    next => exact ends_pure hafter
    next => exact ih hafter

/-- Where every `umount` succeeds the loop empties a path that its rounds can clear. -/
theorem exec_umounts (hsucceed : ∀ round, succeeded (answers.umount round) = true) (rounds : Nat)
    (hcleared : site.ClearedBy kernel rounds) :
    ∃ after, (umounts kernel answers rounds).exec site = (.ok (), after) ∧ after.stack kernel = [] ∧
      after.staging = site.staging := by
  induction rounds generalizing site with
  | zero => exact ⟨site, rfl, hcleared, rfl⟩
  | succ rounds ih =>
    have hdone := hsucceed rounds
    cases houtput : answers.umount rounds with
    | error e => simp [houtput, succeeded] at hdone
    | ok output =>
      have hzero : output.returncode = 0 := by simpa [houtput, succeeded] using hdone
      rw [umounts]
      by_cases hmounts : site.stack kernel = []
      · -- nothing is mounted: the round fails and ends the loop
        have hanswer : site.umountOutput kernel answers rounds = .ok answers.notMounted := by
          rw [umountOutput, hmounts, houtput]
        have hstays : site.umountEffect kernel answers rounds = site := by
          rw [umountEffect, hanswer, succeeded, if_neg (by simpa using answers.notMounted.property)]
        refine ⟨site, ?_, hmounts, rfl⟩
        rw [exec_actOn_bind (a := answers.notMounted.val) (by rw [hanswer]; rfl),
          if_pos answers.notMounted.property, hstays]
        rfl
      · have hanswer : site.umountOutput kernel answers rounds = .ok output := by
          rw [umountOutput, houtput]
          split
          next h _ => exact absurd h hmounts
          next => rfl
        have htaken : site.umountEffect kernel answers rounds = site.umount kernel := by
          rw [umountEffect, hanswer, succeeded, if_pos (decide_eq_true hzero)]
        have hrest : (site.umount kernel).ClearedBy kernel rounds := hcleared
        obtain ⟨after, hexec, hstack, hstaging⟩ := ih hrest
        refine ⟨after, ?_, hstack, hstaging.trans ?_⟩
        · rw [exec_actOn_bind (a := output) (by rw [hanswer]; rfl), if_neg (not_not_intro hzero),
            htaken]
          exact hexec
        · unfold Site.umount
          split <;> rfl

theorem removeDir_clearedBy {n : Nat} (h : site.ClearedBy kernel n) :
    (site.removeDir kernel).ClearedBy kernel n := by
  unfold removeDir
  split
  next => exact clearedBy_of_none rfl
  next => exact h

theorem teardownImpl_clearedBy {name stagingPath : String} (hkernel : kernel.PropagatesMounts) {n : Nat}
    (h : site.ClearedBy kernel n) :
    Ends (·.ClearedBy kernel n) (teardownImpl kernel answers name stagingPath) site := by
  refine ends_check_bind h fun _ _ => ?_
  have hcontainer : (site.removeContainer answers name).ClearedBy kernel n :=
    h.of_same hkernel (staging_removeContainer answers name) (mounts_removeContainer answers name)
  refine ends_act_bind h fun _ _ => ?_
  refine (umounts_clearedBy hkernel 2 hcontainer).bind fun _ after hafter => ?_
  refine ends_act ?_ hafter
  split
  next => exact removeDir_clearedBy hafter
  next => exact hafter

/-- A directory without files goes when nothing is mounted on it. -/
theorem removeDir_leavesNoMount {before : Site σ} (hstack : site.stack kernel = [])
    (hstaging : site.staging = before.staging) :
    LeavesNoMount kernel before (site.removeDir kernel) := by
  unfold removeDir
  split
  next => exact ⟨rfl, .inl rfl⟩
  next hstays =>
    refine ⟨hstack, ?_⟩
    cases hdir : site.staging with
    | none => exact .inl rfl
    | some dir =>
      obtain ⟨identity, files⟩ := dir
      refine .inr ⟨⟨identity, files⟩, hstaging ▸ hdir, fun hfiles => ?_⟩
      cases hfiles
      exact hstays identity hdir hstack

/-- **A teardown whose commands all succeed** leaves no mount where two unmounts can. -/
theorem teardown_leavesNoMount {path : String} (hkernel : kernel.PropagatesMounts)
    (hpath : (safeStagingPath path).toBool = true) (hsucceed : answers.AllSucceed) (name : String)
    (htwo : site.ClearedBy kernel 2) :
    LeavesNoMount kernel site (site.apply kernel path (.teardown answers name)) := by
  cases hsafe : safeStagingPath path with
  | error err => simp [hsafe, Except.toBool] at hpath
  | ok safe =>
    obtain ⟨after, hexec, hstack, hstaging⟩ := exec_umounts hsucceed.umount 2
      (htwo.of_same hkernel (staging_removeContainer answers name) (mounts_removeContainer answers name))
    have hend : site.apply kernel path (.teardown answers name) = after.removeDir kernel := by
      rw [apply, teardownImpl, hsafe, check, exec_act_bind, exec_act_bind, exec_bind, id_eq, hexec,
        hsucceed.removesDir]
      rfl
    rw [hend]
    exact removeDir_leavesNoMount hstack (hstaging.trans (staging_removeContainer answers name))

end

end Site

-- ════════════════════════════════════════════════════════════════════════
-- The launch without the mounts
-- ════════════════════════════════════════════════════════════════════════

namespace Site

section

variable {σ : Type} {kernel : Kernel σ Identity} {answers : Answers} {fresh : Identity} {config : Config}
  {launch : LaunchRequest} {site : Site σ}

/-- A launch behind the staging directory does not see the mounts. -/
theorem createAndStartImpl_frame (mounts : List String) (host : Host) :
    Simulates (fun host : Host => { host with mounts }) (Launcher.createAndStartImpl answers config launch)
      (Launcher.createAndStartImpl answers config launch) host := by
  refine (simulates_check _).bind fun body _ _ => ?_
  refine Simulates.bind (simulates_act ?_ ?_) fun _ _ _ => ?_
  · rfl
  · rfl
  refine Simulates.bind (simulates_act ?_ ?_) fun files _ _ => ?_
  · rfl
  · split <;> rfl
  refine Simulates.bind (simulates_act ?_ ?_) fun _ _ _ => ?_
  · rfl
  · split <;> rfl
  refine Simulates.bind (simulates_act ?_ ?_) fun _ _ _ => ?_
  · split <;> rfl
  · rfl
  exact (simulates_check _).bind fun address _ _ =>
    (simulates_check _).bind fun ip _ _ => simulates_pure _

theorem createAndStartImpl_simulates :
    Simulates host (createAndStartImpl answers config launch)
      (Launcher.createAndStartImpl answers config launch) site :=
  createAndStartImpl_frame site.binds ⟨site.containers, []⟩

theorem host_makeRshared : (site.makeRshared kernel).host = site.host := by
  unfold makeRshared
  split <;> rfl

theorem setupStagingDirImpl_simulates :
    Simulates host (setupStagingDirImpl kernel answers fresh config launch)
      (Launcher.setupStagingDirImpl answers config launch) site := by
  refine (simulates_check _).bind fun safe _ _ => ?_
  refine Simulates.bind (simulates_act rfl rfl) fun _ _ _ => ?_
  refine (simulates_check _).bind fun _ _ _ => ?_
  refine (simulates_check _).bind fun _ _ _ => ?_
  refine Simulates.bind (simulates_act rfl rfl) fun _ _ _ => ?_
  exact simulates_act host_makeRshared.symm rfl

theorem startFreshImpl_simulates :
    Simulates host (startFreshImpl kernel answers fresh config launch)
      (Launcher.startFreshImpl answers config launch) site := by
  rw [startFreshImpl, Launcher.startFreshImpl]
  split
  next => exact setupStagingDirImpl_simulates.bind fun _ _ _ => createAndStartImpl_simulates
  next => exact createAndStartImpl_simulates

/-- But for what the kernel makes of the mounts, a launch is the launch with its
    effects. -/
theorem ensureContainerImpl_simulates :
    Simulates host (ensureContainerImpl kernel answers fresh config launch)
      (Launcher.ensureContainerImpl answers config launch) site := by
  refine (simulates_check _).bind fun inspected _ _ => ?_
  cases inspected with
  | running files address => exact (simulates_check _).bind fun ip _ _ => simulates_pure _
  | stopped => exact Simulates.bind (simulates_act rfl rfl) fun _ _ _ => startFreshImpl_simulates
  | notFound => exact startFreshImpl_simulates

end

end Site

-- ════════════════════════════════════════════════════════════════════════
-- Runs
-- ════════════════════════════════════════════════════════════════════════

section

variable {σ : Type} {kernel : Kernel σ Identity} {path : String} {site : Site σ}

/-- One call that finds room. -/
theorem clearedBy_apply {call : Call} (hkernel : kernel.PropagatesMounts)
    (hcan : site.canHappen kernel call = true) (hroom : FindsRoom kernel site call)
    (htwo : site.ClearedBy kernel 2) : (site.apply kernel path call).ClearedBy kernel 2 := by
  cases call with
  | ensureContainer answers fresh config launch =>
    have hnew : site.staging = none → (kernel.mounts site.mounts).stack fresh = [] := by
      intro hnone
      simpa [Site.canHappen, hnone] using hcan
    obtain hworkspace | hrunning | hroom := hroom
    · exact Site.ensureContainerImpl_clearedBy hkernel htwo hnew (.inl hworkspace)
    · exact Site.ensureContainerImpl_clearedBy_of_running htwo fun _ => Site.running_of_observed hrunning
    · exact Site.ensureContainerImpl_clearedBy hkernel htwo hnew (.inr hroom)
  | bindAgent answers config agentDir => exact Site.bindAgentImpl_clearedBy hkernel htwo hroom
  | teardown answers name => exact Site.teardownImpl_clearedBy hkernel htwo
  | exits name =>
    show (site.exits name).ClearedBy kernel 2
    rw [Site.exits]
    split
    next => exact htwo.of_same hkernel rfl rfl
    next => exact htwo
  | writes files =>
    cases hdir : site.staging with
    | none => exact Site.clearedBy_of_none (congrArg (Option.map _) hdir)
    | some dir =>
      have hafter : (site.write files).staging = some { dir with files } :=
        congrArg (Option.map _) hdir
      rw [Site.clearedBy_iff hkernel hdir] at htwo
      exact (Site.clearedBy_iff hkernel hafter).mpr htwo

theorem clearedBy_of_reachable (hkernel : kernel.PropagatesMounts)
    (hreach : (launcher kernel path).ReachableUnder (FindsRoom kernel) site) :
    site.ClearedBy kernel 2 := by
  refine hreach.invariant (P := fun site => site.ClearedBy kernel 2)
    (fun site hstart => Site.clearedBy_of_none hstart) fun site call after htwo hroom hnext => ?_
  obtain ⟨hcan, heq⟩ := Option.ite_none_right_eq_some.mp hnext
  cases heq
  exact clearedBy_apply hkernel hcan hroom htwo

end

def acmeLaunch : LaunchRequest := { probeLaunch with withWorkspace := true }

/-- A launch on a host on which everything goes well. -/
def acmeEnsureContainer : Call :=
  .ensureContainer (failingAnswers (.ok ()) (.ok ())) (8, 100) probeConfig acmeLaunch

def acmeBindAgent : Call :=
  .bindAgent ⟨.ok (), .ok (), .ok (), .ok (), (8, 200), .ok (), .ok [.ok ⟨"agent-1", .ok (8, 200)⟩],
    .ok ⟨0, ""⟩⟩ probeConfig "/var/lib/botwork/tenants/acme/workspaces/main/agents/agent-1"

def acmeTeardown : TeardownAnswers where
  removeContainerForce := .ok ()
  umount _ := .ok ⟨0, ""⟩
  notMounted := ⟨⟨32, "umount: not mounted."⟩, by decide⟩
  removesDir := true

/-- A host without mounts below the one that holds all directories, which is shared if
    it has peers. -/
def acmeSite (peers : Option Nat) : Site (MountTable Identity × Nat) :=
  ⟨∅, none, (⟨fun _ => peers, fun _ => []⟩, 1), []⟩

theorem acmeTeardown_allSucceed : acmeTeardown.AllSucceed :=
  ⟨.inl rfl, fun _ => rfl, rfl⟩

theorem safe_acmePath : (safeStagingPath probeLaunch.stagingPath).toBool = true := by decide +kernel

instance {σ : Type} (kernel : Kernel σ Identity) (site : Site σ) (n : Nat) :
    Decidable (site.ClearedBy kernel n) :=
  inferInstanceAs (Decidable (_ = []))

instance {σ : Type} (kernel : Kernel σ Identity) (site : Site σ) :
    Decidable (site.OnItsPeer kernel) :=
  inferInstanceAs (Decidable (∃ dir ∈ site.staging, _ = _ ∧ _ = _))

instance {σ : Type} (kernel : Kernel σ Identity) (site : Site σ) (call : Call) :
    Decidable (FindsRoom kernel site call) :=
  match call with
  | .ensureContainer _ _ _ launch =>
    inferInstanceAs (Decidable (launch.withWorkspace = false ∨
      site.containers.lookup launch.name = some .running ∨
        site.ClearedBy kernel 1 ∨ site.OnItsPeer kernel))
  | .bindAgent _ _ _ =>
    inferInstanceAs (Decidable (site.identity kernel = _ ∨ site.ClearedBy kernel 1))
  | .teardown _ _ => .isTrue trivial
  | .exits _ => .isTrue trivial
  | .writes _ => .isTrue trivial

/-- So it is on a private host, where two launches and a bind are too many as well. -/
example : ∀ calls ∈ [[acmeEnsureContainer, acmeBindAgent, .exits "mcp_session_a", acmeEnsureContainer],
      [acmeEnsureContainer, .exits "mcp_session_a", acmeEnsureContainer, acmeBindAgent]],
    (((launcher tableKernel probeLaunch.stagingPath).exec (acmeSite none)
      (calls ++ [.teardown acmeTeardown "mcp_session_a"])).map (·.stack tableKernel)).map List.length =
        some 1 := by
  decide +kernel

end Botwork.Launcher
