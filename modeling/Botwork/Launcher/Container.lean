import Botwork.ControlPlane.Sessions
import Botwork.Foundations.Ustar
import Botwork.Launcher.Limits
import Botwork.Launcher.Payload

/-!
# Plugin containers

How the launcher starts a container: the configuration it asks docker for, and
the archive of secrets it uploads between create and start.  The docker daemon and
the staging directories are parameters.

## Main definitions

- `Docker` — the daemon's answers for one launch
- `buildContainerConfig` — environment, pointers to the secrets, mounts and limits
- `buildSecretsTar` — the archive
- `ensureContainer`, `handleLaunch` — one launch
-/

namespace Botwork.Launcher

open Botwork.ControlPlane Botwork.Foundations

def secretsTmpfsPath : String := "/run/botwork-secrets"

/-- The files below `secretsTmpfsPath`, by name. -/
abbrev Files := FiniteMap (List UInt8) (List UInt8)

-- ════════════════════════════════════════════════════════════════════════
-- Configuration
-- ════════════════════════════════════════════════════════════════════════

structure Config where
  validImage : String → Bool
  defaultNetwork : String
  egressProxy : Option String
  pluginUid : Nat
  pluginGid : Nat
  containerPidsLimit : Nat
  containerCpuLimit : String
  containerMemoryLimit : String
  containerReadOnlyRootfs : Bool

/-- Splice the egress proxy into the environment; an entry of the caller stays. -/
def injectProxyEnv (env : List (String × String)) :
    Option String → List (String × String)
  | none => env
  | some proxyUrl =>
    env ++ [("HTTPS_PROXY", proxyUrl), ("HTTP_PROXY", proxyUrl),
      ("NO_PROXY", "localhost,127.0.0.1")].filter fun entry => entry.1 ∉ env.map Prod.fst

structure ContainerConfig where
  image : String
  user : String
  env : List String
  labels : List (String × String)
  network : String
  pidsLimit : Nat
  memory : Nat
  nanoCpus : Nat
  readOnlyRootfs : Bool
  /-- the staging directory bound to `/workspace` -/
  workspace : Option String
  /-- the mount options of `secretsTmpfsPath` -/
  tmpfs : Option String
  deriving DecidableEq

inductive Inspected where
  | notFound
  | stopped
  | running (files : Files) (address : String)

/-- What the launcher gets from the daemon and the host during one launch; the
    errors carry the daemon's text.  `putArchive` extracts an archive into the
    empty tmpfs of the created container. -/
structure Docker where
  inspect : String → Except String Inspected
  removeContainerForce : String → Except String Unit
  setupStagingDir : String → Except LauncherError Unit
  createContainer : String → ContainerConfig → Except String Unit
  putArchive : List UInt8 → Except String Files
  startContainer : String → Except String Unit
  /-- the address in the inspection after the start -/
  address : String → Except String String

/-- The daemon extracts an archive as its format says. -/
def Docker.Extracts (docker : Docker) : Prop :=
  ∀ archive files entries, docker.putArchive archive = .ok files →
    Ustar.read archive = some entries → files = Ustar.unpack entries

/-- The file of a secret, below `secretsTmpfsPath`. -/
def secretFileName (name : String) : String := Text.toAsciiLowercase name

theorem toList_secretFileName (name : String) :
    (secretFileName name).toList = name.toList.map Char.toLower := String.toList_map

/-- Two names have two files. -/
theorem secretFileName_injective {a b : String} (ha : ∀ c ∈ a.toList, isEnvChar c = true)
    (hb : ∀ c ∈ b.toList, isEnvChar c = true) (h : secretFileName a = secretFileName b) : a = b := by
  have hupper : ∀ s : String, (∀ c ∈ s.toList, isEnvChar c = true) →
      (secretFileName s).toList.map Char.toUpper = s.toList := by
    intro s hs
    rw [toList_secretFileName, List.map_map]
    calc s.toList.map (Char.toUpper ∘ Char.toLower) = s.toList.map id :=
          List.map_congr_left fun c hc => toUpper_toLower (hs c hc)
      _ = s.toList := List.map_id _
  apply String.toList_injective
  rw [← hupper a ha, ← hupper b hb, h]

theorem nul_not_mem_secretFileName {name : String} (h : ∀ c ∈ name.toList, isEnvChar c = true) :
    (0 : UInt8) ∉ Text.utf8 (secretFileName name) := by
  have hascii : ∀ c ∈ (secretFileName name).toList, 0 < c.toNat ∧ c.toNat < 128 := by
    intro c hc
    rw [toList_secretFileName] at hc
    obtain ⟨d, hd, rfl⟩ := List.mem_map.mp hc
    exact isEnvChar_toLower (h d hd)
  rw [Text.utf8_of_ascii fun c hc => (hascii c hc).2]
  intro hzero
  obtain ⟨c, hc, hnat⟩ := List.mem_map.mp hzero
  have hbound := hascii c hc
  have hmod := congrArg UInt8.toNat hnat
  rw [UInt8.toNat_ofNat'] at hmod
  have hzero' : c.toNat % 256 = 0 := hmod
  omega

def envEntry (entry : String × String) : Except LauncherError String :=
  if validEnvName entry.1 then .ok (entry.1 ++ "=" ++ entry.2)
  else .error (.internal ("invalid env name: " ++ entry.1))

/-- The environment entry that points to the file of a secret. -/
def secretPointer (secret : String × String) : Except LauncherError String :=
  let envName := "BOTWORK_SECRET_" ++ Text.toAsciiUppercase secret.1 ++ "_FILE"
  if validEnvName envName then
    .ok (envName ++ "=" ++ secretsTmpfsPath ++ "/" ++ secretFileName secret.1)
  else .error (.internal ("invalid secret env name: " ++ envName))

def buildContainerConfig (config : Config) (launch : LaunchRequest) :
    Except LauncherError ContainerConfig := do
  let env ← launch.env.mapM envEntry
  let pointers ← launch.secrets.mapM secretPointer
  let (memory, nanoCpus) ← parseLimits (launch.memoryLimit.getD config.containerMemoryLimit)
    (launch.cpuLimit.getD config.containerCpuLimit)
  let user := toString config.pluginUid ++ ":" ++ toString config.pluginGid
  let tmpfs := "rw,noexec,nosuid,uid=" ++ toString config.pluginUid ++ ",gid=" ++
    toString config.pluginGid ++ ",mode=0500"
  return ⟨launch.image, user, env ++ pointers, launch.labels, launch.network,
    launch.pidsLimit.getD config.containerPidsLimit, memory, nanoCpus,
    config.containerReadOnlyRootfs,
    if launch.withWorkspace then some launch.stagingPath else none,
    if launch.secrets = [] then none else some tmpfs⟩

-- ════════════════════════════════════════════════════════════════════════
-- The archive of secrets
-- ════════════════════════════════════════════════════════════════════════

/-- A field of `width` bytes that held zeros, after `value` is written into it. -/
def copyInto (width : Nat) (value : List UInt8) : List UInt8 :=
  value.take width ++ List.replicate (width - value.length) 0

theorem length_copyInto (width : Nat) (value : List UInt8) : (copyInto width value).length = width := by
  rw [copyInto, List.length_append, List.length_take, List.length_replicate]
  omega

def writeOctal (width value digits : Nat) : List UInt8 :=
  copyInto width (Ustar.octalDigits digits value ++ [0])

def maxTarNameBytes : Nat := 99

/-- The header of `append_tar_entry`. -/
def tarHeader (name data : List UInt8) (mode uid gid : Nat) : Ustar.Header :=
  Ustar.Header.seal
    { fields :=
        { name := copyInto 100 (name.take maxTarNameBytes)
          mode := writeOctal 8 mode 7
          uid := writeOctal 8 uid 7
          gid := writeOctal 8 gid 7
          size := writeOctal 12 data.length 11
          mtime := writeOctal 12 0 11
          checksum := List.replicate 8 32
          typeflag := [48]
          linkname := List.replicate 100 0
          magic := Ustar.magic
          version := [48, 48]
          owner := List.replicate 80 0
          pathPrefix := List.replicate 155 0
          unused := List.replicate 12 0 }
      lengths := by
        simp [Ustar.Fields.pieces, Ustar.Fields.widths, Ustar.magic, writeOctal, length_copyInto] }

def appendTarEntry (archive name data : List UInt8) (mode uid gid : Nat) : List UInt8 :=
  archive ++ Ustar.member (tarHeader name data mode uid gid) data

/-- The header of one secret. -/
def secretHeader (uid gid : Nat) (secret : String × String) : Ustar.Header :=
  tarHeader (Text.utf8 (secretFileName secret.1)) (Text.utf8 secret.2) 0o400 uid gid

def buildSecretsTar (secrets : List (String × String)) (uid gid : Nat) : List UInt8 :=
  secrets.foldl (fun archive secret => appendTarEntry archive
    (Text.utf8 (secretFileName secret.1)) (Text.utf8 secret.2) 0o400 uid gid) [] ++ Ustar.trailer

theorem text_copyInto {width : Nat} {value : List UInt8} (hlength : value.length < width)
    (hnul : (0 : UInt8) ∉ value) : Ustar.Fields.text (copyInto width value) = value := by
  have hpad : width - value.length = (width - value.length - 1) + 1 := by omega
  rw [Ustar.Fields.text, copyInto, List.take_of_length_le hlength.le, hpad, List.replicate_succ,
    List.takeWhile_append_of_pos]
  · simp
  · intro b hb
    rw [decide_eq_true_eq]
    exact fun hzero => hnul (hzero ▸ hb)

theorem octalValue_writeOctal {width value digits : Nat} (hpos : 0 < digits)
    (hvalue : value < 8 ^ digits) (hwidth : digits < width) :
    Ustar.octalValue (writeOctal width value digits) = some value := by
  have hlength : (Ustar.octalDigits digits value ++ [0]).length = digits + 1 := by
    rw [List.length_append, Ustar.length_octalDigits hpos hvalue]
    rfl
  rw [writeOctal, copyInto, List.take_of_length_le (by omega), List.append_assoc]
  exact Ustar.octalValue_octalDigits rfl _

theorem tarHeader_describes {name data : List UInt8} {mode uid gid : Nat}
    (hlength : data.length < 8 ^ 11) : (tarHeader name data mode uid gid).Describes data where
  magic := rfl
  typeflag := rfl
  size := octalValue_writeOctal (by decide) hlength (by decide)
  checksum := Ustar.Header.octalValue_seal _

/-- A name is cut after 99 bytes. -/
theorem path_tarHeader {name data : List UInt8} {mode uid gid : Nat}
    (hnul : (0 : UInt8) ∉ name) :
    (tarHeader name data mode uid gid).fields.path = name.take maxTarNameBytes := by
  have hname : Ustar.Fields.text (copyInto 100 (name.take maxTarNameBytes)) =
      name.take maxTarNameBytes := by
    apply text_copyInto
    · rw [List.length_take]
      exact lt_of_le_of_lt (Nat.min_le_left _ _) (by decide)
    · exact fun hmem => hnul (List.mem_of_mem_take hmem)
  exact hname

theorem buildSecretsTar_eq (secrets : List (String × String)) (uid gid : Nat) :
    buildSecretsTar secrets uid gid =
      ((secrets.map fun secret => (secretHeader uid gid secret, Text.utf8 secret.2)).map
        fun m => Ustar.member m.1 m.2).flatten ++ Ustar.trailer := by
  rw [buildSecretsTar, List.map_map]
  congr 1
  exact List.foldl_append_eq_append

/-- **What the archive holds**: every secret's value under its file name, as far
    as 99 bytes of the name go. -/
theorem read_buildSecretsTar {secrets : List (String × String)} {uid gid : Nat}
    (hshort : ∀ secret ∈ secrets, (Text.utf8 secret.2).length < 8 ^ 11)
    (hnul : ∀ secret ∈ secrets, (0 : UInt8) ∉ Text.utf8 (secretFileName secret.1)) :
    Ustar.read (buildSecretsTar secrets uid gid) =
      some (secrets.map fun secret =>
        ⟨(Text.utf8 (secretFileName secret.1)).take maxTarNameBytes, Text.utf8 secret.2⟩) := by
  rw [buildSecretsTar_eq, Ustar.read_members]
  · congr 1
    rw [List.map_map]
    apply List.map_congr_left
    intro secret hsecret
    show Ustar.File.mk (tarHeader _ _ _ _ _).fields.path _ = _
    rw [path_tarHeader (hnul secret hsecret)]
  · intro m hm
    obtain ⟨secret, hsecret, rfl⟩ := List.mem_map.mp hm
    exact tarHeader_describes (hshort secret hsecret)

-- ════════════════════════════════════════════════════════════════════════
-- One launch
-- ════════════════════════════════════════════════════════════════════════

/-- A container that was handed to the caller. -/
structure Container where
  status : String
  containerIp : String
  files : Files

def parseContainerIp (stdout name network : String) : Except LauncherError String :=
  let ip := Text.trim stdout
  if ip = "" then
    .error (.internal ("container " ++ name ++ " has no address on network " ++ network ++
      " (inspect returned empty)"))
  else if (Ipv4Addr.parse ip).isNone then
    .error (.internal ("container " ++ name ++ " returned non-IPv4 address " ++ Text.debug ip ++
      " on network " ++ network))
  else .ok ip

/-- An answer of the daemon; its error text follows what was attempted. -/
def answered {α : Type} (attempt : String) : Except String α → Except LauncherError α
  | .ok a => .ok a
  | .error e => .error (.internal (attempt ++ ": " ++ e))

/-- The upload between create and start: a container that could not receive its
    secrets is never started. -/
def uploadSecrets (docker : Docker) (config : Config) (launch : LaunchRequest) :
    Except LauncherError Files :=
  if launch.secrets = [] then .ok ∅
  else
    answered ("failed to upload secrets to " ++ launch.name)
      (docker.putArchive (buildSecretsTar launch.secrets config.pluginUid config.pluginGid))

def prepareStaging (docker : Docker) (launch : LaunchRequest) : Except LauncherError Unit :=
  if launch.withWorkspace then docker.setupStagingDir launch.stagingPath else .ok ()

/-- `ensure_container_impl` from the staging directory on. -/
def startFresh (docker : Docker) (config : Config) (launch : LaunchRequest) :
    Except LauncherError Container := do
  prepareStaging docker launch
  let body ← buildContainerConfig config launch
  answered ("failed to start " ++ launch.name) (docker.createContainer launch.name body)
  let files ← uploadSecrets docker config launch
  answered ("failed to start " ++ launch.name) (docker.startContainer launch.name)
  let address ← answered ("failed to inspect " ++ launch.name) (docker.address launch.name)
  let ip ← parseContainerIp address launch.name launch.network
  return ⟨"started", ip, files⟩

def ensureContainer (docker : Docker) (config : Config) (launch : LaunchRequest) :
    Except LauncherError Container := do
  let inspected ← answered ("failed to inspect " ++ launch.name) (docker.inspect launch.name)
  match inspected with
  | .running files address =>
    let ip ← parseContainerIp address launch.name launch.network
    return ⟨"already_running", ip, files⟩
  | .stopped =>
    answered ("failed to remove " ++ launch.name) (docker.removeContainerForce launch.name)
    startFresh docker config launch
  | .notFound => startFresh docker config launch

def maxJsonBodyBytes : Nat := 64 * 1024

/-- `POST /launch`; `bodyLength` is the length of the body as it was sent. -/
def handleLaunch (docker : Docker) (config : Config) (bodyLength : Nat)
    (payload : List (String × Json)) : Except LauncherError Container :=
  if maxJsonBodyBytes < bodyLength then
    .error (.payloadTooLarge ("request body exceeds " ++ toString maxJsonBodyBytes ++ " bytes"))
  else do
    let launch ← parseLaunchPayload config.validImage config.defaultNetwork payload
    ensureContainer docker config { launch with
      env := injectProxyEnv launch.env config.egressProxy }

theorem answered_eq_ok {α : Type} {attempt : String} {x : Except String α} {a : α}
    (h : answered attempt x = .ok a) : x = .ok a := by
  cases x with
  | error e => cases h
  | ok b => cases h; rfl

theorem startFresh_files {docker : Docker} {config : Config} {launch : LaunchRequest}
    {container : Container} (h : startFresh docker config launch = .ok container) :
    uploadSecrets docker config launch = .ok container.files := by
  rw [startFresh] at h
  obtain ⟨_, -, h⟩ := bind_eq_ok.mp h
  obtain ⟨_, -, h⟩ := bind_eq_ok.mp h
  obtain ⟨_, -, h⟩ := bind_eq_ok.mp h
  obtain ⟨files, hfiles, h⟩ := bind_eq_ok.mp h
  obtain ⟨_, -, h⟩ := bind_eq_ok.mp h
  obtain ⟨_, -, h⟩ := bind_eq_ok.mp h
  obtain ⟨_, -, h⟩ := bind_eq_ok.mp h
  cases h
  exact hfiles

/-- The files a container runs with already, if it runs. -/
def Inspected.files? : Inspected → Option Files
  | .running files _ => some files
  | .notFound | .stopped => none

/-- The files of a container that was running before the launch. -/
def Docker.runningFiles (docker : Docker) (name : String) : Option Files :=
  (docker.inspect name).toOption.bind Inspected.files?

/-- Where the files of a container come from: it was running already, or it has
    received the archive. -/
theorem ensureContainer_files {docker : Docker} {config : Config} {launch : LaunchRequest}
    {container : Container} (h : ensureContainer docker config launch = .ok container) :
    docker.runningFiles launch.name = some container.files ∨
      docker.runningFiles launch.name = none ∧
        uploadSecrets docker config launch = .ok container.files := by
  rw [ensureContainer] at h
  obtain ⟨inspected, hinspected, h⟩ := bind_eq_ok.mp h
  have hrunning : docker.runningFiles launch.name = inspected.files? := by
    rw [Docker.runningFiles, answered_eq_ok hinspected]
    rfl
  rw [hrunning]
  cases inspected with
  | running files address =>
    obtain ⟨ip, -, h⟩ := bind_eq_ok.mp h
    cases h
    exact Or.inl rfl
  | stopped =>
    obtain ⟨_, -, h⟩ := bind_eq_ok.mp h
    exact Or.inr ⟨rfl, startFresh_files h⟩
  | notFound => exact Or.inr ⟨rfl, startFresh_files h⟩

theorem handleLaunch_eq_ok {docker : Docker} {config : Config} {bodyLength : Nat}
    {payload : List (String × Json)} {container : Container}
    (h : handleLaunch docker config bodyLength payload = .ok container) :
    bodyLength ≤ maxJsonBodyBytes ∧ ∃ launch,
      parseLaunchPayload config.validImage config.defaultNetwork payload = .ok launch ∧
        ensureContainer docker config { launch with
          env := injectProxyEnv launch.env config.egressProxy } = .ok container := by
  unfold handleLaunch at h
  split at h
  next => cases h
  next hlength =>
    obtain ⟨launch, hparse, hensure⟩ := bind_eq_ok.mp h
    exact ⟨Nat.le_of_not_lt hlength, launch, hparse, hensure⟩

end Botwork.Launcher
