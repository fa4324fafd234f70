import Botwork.Api.PluginBodies
import Botwork.Cli.LabelRecovery

/-!
# Stamping images

`patch_image` commits an image with its labels and new ones, which win over those that
were there; `verify` compares the labels in the namespace with those of a new probe.

## Main definitions

- `DockerApi`, `DockerApi.Serves` — the calls to the daemon, and what they do to images
- `patchImageImpl`, `verify` — write labels, and compare them

## Main results

- `verify_patched_iff` — the verification of a patched image
- `labels_faithful` — what the labels of an image tell, and that they are found on it
-/

namespace Botwork.Cli

open Botwork.Foundations Botwork.ApiCore Botwork.Api

-- ════════════════════════════════════════════════════════════════════════
-- The daemon
-- ════════════════════════════════════════════════════════════════════════

inductive IoErrorKind where
  | notFound | connectionRefused | other
  deriving DecidableEq

/-- A failed call, with its text. -/
inductive BollardError where
  | io (kind : IoErrorKind) (text : String)
  | response (statusCode : Nat) (text : String)
  | other (text : String)
  deriving DecidableEq

namespace BollardError

def text : BollardError → String
  | .io _ text => text
  | .response _ text => text
  | .other text => text

def isSocketMissing : BollardError → Bool
  | .io .notFound _ => true
  | .io .connectionRefused _ => true
  | _ => false

def isNotFound : BollardError → Bool
  | .response 404 _ => true
  | _ => false

end BollardError

structure ImageConfig where
  labels : Option Labels
  deriving DecidableEq

structure ImageInspect where
  config : Option ImageConfig
  deriving DecidableEq

def ImageInspect.labels (inspect : ImageInspect) : Option Labels := inspect.config.bind (·.labels)

/-- The calls to a daemon whose state is a `σ`. -/
structure DockerApi (σ : Type) where
  inspectImage : String → σ → Except BollardError ImageInspect × σ
  createContainer : String → σ → Except BollardError String × σ
  removeContainer : String → σ → Except BollardError Unit × σ
  commitContainer : String → String → String → Labels → σ → Except BollardError String × σ

-- ════════════════════════════════════════════════════════════════════════
-- Patches
-- ════════════════════════════════════════════════════════════════════════

inductive PatchError where
  | dockerMissing
  | patch (detail : String)
  deriving DecidableEq

/-- The reference up to a digest, split at its last colon if that is no port's. -/
def parseImageRef (image : String) : String × String :=
  let name := image.toList.takeWhile (· != '@')
  let after := (name.reverse.takeWhile (· != ':')).reverse
  if ':' ∈ name ∧ '/' ∉ after then
    (String.ofList (name.take (name.length - after.length - 1)), String.ofList after)
  else (String.ofList name, "latest")

section

variable {σ : Type} (docker : DockerApi σ)

def patchImageImpl (imageIn imageOut : String) (labels : Labels) (s : σ) :
    Except PatchError Unit × σ :=
  match docker.inspectImage imageIn s with
  | (.error e, s) => (.error (.patch ("inspect image " ++ imageIn ++ ": " ++ e.text)), s)
  | (.ok inspect, s) =>
    let labelMap := (inspect.labels.getD .empty).extend labels
    match docker.createContainer imageIn s with
    | (.error e, s) => (.error (.patch ("create container from " ++ imageIn ++ ": " ++ e.text)), s)
    | (.ok containerId, s) =>
      let (repo, tag) := parseImageRef imageOut
      let (result, s) := docker.commitContainer containerId repo tag labelMap s
      -- the container goes whether or not the commit succeeded
      let (_, s) := docker.removeContainer containerId s
      match result with
      | .ok id =>
        if id = "" then
          (.error (.patch ("commit " ++ imageIn ++ " → " ++ imageOut ++
            ": daemon returned empty image ID")), s)
        else (.ok (), s)
      | .error e =>
        (.error (.patch ("commit " ++ imageIn ++ " → " ++ imageOut ++ ": " ++ e.text)), s)

end

-- ════════════════════════════════════════════════════════════════════════
-- Verification
-- ════════════════════════════════════════════════════════════════════════

inductive VerifyError where
  | dockerMissing
  | inspectFailed (image stderr : String)
  | drift (drift : List String)
  deriving DecidableEq

def inNamespace (key : String) : Bool := labelNamespace.toList.isPrefixOf key.toList

def filterNamespace (all : Labels) : Labels := all.filterKeys inNamespace

def diff (actual expected : Labels) : List String :=
  (expected.entries.filterMap fun (k, v) =>
    match actual.get? k with
    | none => some ("missing: " ++ k ++ "=" ++ v)
    | some av =>
      if av ≠ v then some ("changed: " ++ k ++ ": image=" ++ av ++ " expected=" ++ v) else none) ++
  actual.keys.filterMap fun k =>
    if (expected.get? k).isNone then
      some ("extra:   " ++ k ++ " (not in re-probed label set)")
    else none

def compareLabelsInNamespace (actual expected : Labels) : Except VerifyError Unit :=
  let actualInNs := filterNamespace actual
  if actualInNs = expected then .ok () else .error (.drift (diff actualInNs expected))

def labelsFromInspect (inspect : ImageInspect) : Labels := inspect.labels.getD .empty

section

variable {σ : Type} (docker : DockerApi σ)

def readImageLabelsImpl (image : String) (s : σ) : Except VerifyError Labels × σ :=
  match docker.inspectImage image s with
  | (.error e, s) =>
    if e.isNotFound then (.error (.inspectFailed image ("no such image: " ++ image)), s)
    else if e.isSocketMissing then (.error .dockerMissing, s)
    else (.error (.inspectFailed image e.text), s)
  | (.ok inspect, s) => (.ok (labelsFromInspect inspect), s)

/-- The verification of an image, once there is a connection. -/
def verify (image : String) (expected : Labels) (s : σ) : Except VerifyError Unit × σ :=
  match readImageLabelsImpl docker image s with
  | (.error e, s) => (.error e, s)
  | (.ok actual, s) => (compareLabelsInNamespace actual expected, s)

end

-- ════════════════════════════════════════════════════════════════════════
-- A patched image
-- ════════════════════════════════════════════════════════════════════════

/-- The name of the image that a patch writes. -/
def writtenImage (imageOut : String) : String :=
  (parseImageRef imageOut).1 ++ ":" ++ (parseImageRef imageOut).2

/-- What a daemon does with the labels of its images: an inspection tells them, a commit
    sets them, and they remain when a container is removed. -/
structure DockerApi.Serves {σ : Type} (docker : DockerApi σ) (images : σ → String → Labels) :
    Prop where
  inspected : ∀ image s inspect, (docker.inspectImage image s).1 = .ok inspect →
    labelsFromInspect inspect = images s image
  committed : ∀ container repo tag labels s id,
    (docker.commitContainer container repo tag labels s).1 = .ok id →
      images (docker.commitContainer container repo tag labels s).2 (repo ++ ":" ++ tag) = labels
  removed : ∀ container s, images (docker.removeContainer container s).2 = images s

section

variable {σ : Type} {docker : DockerApi σ} {images : σ → String → Labels}

/-- The labels of a patched image are those of its source with the new ones over them. -/
theorem images_patched (hserves : docker.Serves images) {imageIn imageOut : String}
    {labels : Labels} {s s' : σ}
    (h : patchImageImpl docker imageIn imageOut labels s = (.ok (), s')) :
    images s' (writtenImage imageOut) = (images s imageIn).extend labels := by
  rw [patchImageImpl] at h
  split at h
  · cases h
  · next inspect s₁ hinspect =>
    split at h
    · cases h
    · next containerId s₂ hcreate =>
      have hold : labelsFromInspect inspect = images s imageIn :=
        hserves.inspected imageIn s inspect (by rw [hinspect])
      dsimp only at h
      split at h
      · next id hcommit =>
        split_ifs at h
        · cases (Prod.mk.inj h).1
        · obtain rfl := (Prod.mk.inj h).2
          rw [hserves.removed, writtenImage, hserves.committed _ _ _ _ _ id hcommit, ← hold,
            labelsFromInspect]
      · cases h

theorem verify_inspected (hserves : docker.Serves images) {image : String} {expected : Labels}
    {s : σ} {inspect : ImageInspect} (h : (docker.inspectImage image s).1 = .ok inspect) :
    (verify docker image expected s).1 = compareLabelsInNamespace (images s image) expected := by
  rw [← hserves.inspected image s inspect h]
  rw [verify, readImageLabelsImpl]
  cases hinspect : docker.inspectImage image s with
  | mk result s' =>
    rw [hinspect] at h
    cases h
    rfl

/-- An image that is not inspected shows no drift. -/
theorem verify_failed {image : String} {expected : Labels} {s : σ} {e : BollardError}
    (h : (docker.inspectImage image s).1 = .error e) (drift : List String) :
    (verify docker image expected s).1 ≠ .error (.drift drift) := by
  rw [verify, readImageLabelsImpl]
  cases hinspect : docker.inspectImage image s with
  | mk result s' =>
    rw [hinspect] at h
    cases h
    dsimp only
    split_ifs <;> exact nofun

theorem inNamespace_label (suffix : String) : inNamespace (label suffix) = true := by
  rw [inNamespace, label, String.toList_append]
  exact List.isPrefixOf_iff_prefix.mpr (List.prefix_append _ _)

/-- A patched image has exactly the composed labels in the namespace if its source had
    no others there. -/
theorem compare_patched_iff {double : UInt64 → List Char} {package : ValidatedPackage}
    {probe : ProbeResult} {m old : Labels} (h : compose double package probe = .ok m) :
    compareLabelsInNamespace (old.extend m) m = .ok () ↔
      ∀ k ∈ old.keys, inNamespace k = true → k ∈ m.keys := by
  have hkeys : ∀ k ∈ m.keys, inNamespace k = true := by
    intro k hk
    obtain ⟨suffix, rfl⟩ := compose_keys h hk
    exact inNamespace_label suffix
  rw [← SortedMap.filterKeys_extend_eq_iff hkeys, compareLabelsInNamespace, filterNamespace]
  split_ifs with heq
  · exact ⟨fun _ => heq, fun _ => rfl⟩
  · exact ⟨nofun, fun h => absurd h heq⟩

end

-- ════════════════════════════════════════════════════════════════════════
-- Faithful labels
-- ════════════════════════════════════════════════════════════════════════

/-- The same server, whose catalogs are listed in another order. -/
structure ProbeResult.Reorders (probe probe' : ProbeResult) : Prop where
  serverInfo : probe.serverInfo = probe'.serverInfo
  protocolVersion : probe.protocolVersion = probe'.protocolVersion
  capabilities : probe.capabilities = probe'.capabilities
  tools : probe.tools.Perm probe'.tools
  resources : probe.resources.Perm probe'.resources
  prompts : probe.prompts.Perm probe'.prompts

section

variable {double : UInt64 → List Char} {package package' : ValidatedPackage}
  {probe probe' : ProbeResult}

theorem Family.sameContents_of_perm {family : Family} {items items' : List Json}
    (h : items.Perm items') : family.SameContents items items' :=
  fun _ => (h.map family.contents).mem_iff

theorem Family.NoConflicts.perm {family : Family} {items items' : List Json}
    (h : family.NoConflicts items) (hperm : items.Perm items') : family.NoConflicts items' :=
  fun c hc c' hc' => h c ((sameContents_of_perm hperm c).mpr hc) c'
    ((sameContents_of_perm hperm c').mpr hc')

namespace ProbeResult.Reorders

theorem symm (h : probe.Reorders probe') : probe'.Reorders probe :=
  ⟨h.serverInfo.symm, h.protocolVersion.symm, h.capabilities.symm, h.tools.symm,
    h.resources.symm, h.prompts.symm⟩

theorem noConflicts (h : probe.Reorders probe') (hconflicts : probe.NoConflicts) :
    probe'.NoConflicts :=
  ⟨hconflicts.tools.perm h.tools, hconflicts.resources.perm h.resources,
    hconflicts.prompts.perm h.prompts⟩

theorem sameRecord (h : probe.Reorders probe') : SameRecord package package probe probe' where
  name := rfl
  port := rfl
  path := rfl
  upstreamAuth := rfl
  env := rfl
  resources := rfl
  egress := rfl
  isolation := rfl
  spillMode := rfl
  thresholdBytes := rfl
  includeMethods := rfl
  includeTools := rfl
  serverInfo := h.serverInfo
  protocolVersion := h.protocolVersion
  capabilities := h.capabilities
  toolList := Family.sameContents_of_perm h.tools
  resourceList := Family.sameContents_of_perm h.resources
  promptList := Family.sameContents_of_perm h.prompts

theorem compose (h : probe.Reorders probe') (hconflicts : probe.NoConflicts) {m : Labels}
    (hm : compose double package probe = .ok m) : compose double package probe' = .ok m := by
  obtain ⟨haccept, rfl⟩ := compose_eq_ok.mp hm
  have hsame : SameRecord package package probe probe' := h.sameRecord
  exact compose_eq_ok.mpr ⟨haccept.congr hconflicts hsame,
    congrArg SortedMap.ofList (allLabels_congr hconflicts hsame)⟩

/-- Catalogs in another order have the same labels, or none either. -/
theorem compose_toOption (h : probe.Reorders probe') (hconflicts : probe.NoConflicts) :
    (Cli.compose double package probe').toOption = (Cli.compose double package probe).toOption := by
  refine Option.ext fun m => ?_
  rw [toOption_eq_some, toOption_eq_some]
  exact ⟨h.symm.compose (h.noConflicts hconflicts), h.compose hconflicts⟩

end ProbeResult.Reorders

/-- Allowlists of comma-free entries are told by their labels. -/
theorem optionCommaList_injective {entries entries' : Option (List String)}
    (hne : entries ≠ some []) (hne' : entries' ≠ some []) (hfree : CommaFree entries)
    (hfree' : CommaFree entries') (h : entries.map commaList = entries'.map commaList) :
    entries = entries' := by
  cases entries with
  | none =>
    cases entries' with
    | none => rfl
    | some list' => cases h
  | some list =>
    cases entries' with
    | none => cases h
    | some list' =>
      exact congrArg some (commaList_injective (fun heq => hne (congrArg some heq))
        (fun heq => hne' (congrArg some heq)) (hfree list rfl) (hfree' list' rfl)
        (Option.some.inj h))

theorem SameRecord.package_eq (h : SameRecord package package' probe probe')
    (hpackage : WellFormedPackage package) (hpackage' : WellFormedPackage package')
    (hmethods : CommaFree package.spill.includeMethods)
    (hmethods' : CommaFree package'.spill.includeMethods)
    (htools : CommaFree package.spill.includeTools)
    (htools' : CommaFree package'.spill.includeTools) : package = package' := by
  have hincludeMethods := optionCommaList_injective hpackage.includeMethods
    hpackage'.includeMethods hmethods hmethods' h.includeMethods
  have hincludeTools := optionCommaList_injective hpackage.includeTools hpackage'.includeTools
    htools htools' h.includeTools
  have hspill : package.spill = package'.spill :=
    SpillEntry.ext h.spillMode h.thresholdBytes hincludeMethods hincludeTools
  exact ValidatedPackage.ext h.name h.port h.path h.upstreamAuth h.env h.resources h.egress
    h.isolation hspill

/-- The verification of an image reports no drift, and succeeds if the image is
    inspected. -/
def DockerApi.NoDrift {σ : Type} (docker : DockerApi σ) (image : String) (expected : Labels)
    (s : σ) : Prop :=
  (∀ inspect, (docker.inspectImage image s).1 = .ok inspect →
    (verify docker image expected s).1 = .ok ()) ∧
  ∀ drift, (verify docker image expected s).1 ≠ .error (.drift drift)

theorem noDrift_patched {σ : Type} {docker : DockerApi σ} {images : σ → String → Labels}
    (hserves : docker.Serves images) {m : Labels} (hm : compose double package probe = .ok m)
    {imageIn imageOut : String} {s s' : σ}
    (hold : ∀ k ∈ (images s imageIn).keys, inNamespace k = true → k ∈ m.keys)
    (h : patchImageImpl docker imageIn imageOut m s = (.ok (), s')) :
    docker.NoDrift (writtenImage imageOut) m s' := by
  have hverified : ∀ inspect, (docker.inspectImage (writtenImage imageOut) s').1 = .ok inspect →
      (verify docker (writtenImage imageOut) m s').1 = .ok () := by
    intro inspect hinspect
    rw [verify_inspected hserves hinspect, images_patched hserves h]
    exact (compare_patched_iff hm).mpr hold
  refine ⟨hverified, fun drift => ?_⟩
  cases hinspect : (docker.inspectImage (writtenImage imageOut) s').1 with
  | error e => exact verify_failed hinspect drift
  | ok inspect =>
    rw [hverified inspect hinspect]
    exact nofun

/-- **Faithful labels**: where no catalog lists an entry twice with different contents,
    the labels do not depend on the order of the entries; they are those of another input
    exactly if the same is recorded of it, and its package is the same if no entry of an
    allowlist holds a comma.  An image that gets them shows no drift if its source has no
    other labels in the namespace. -/
theorem labels_faithful {readDouble : List Char → Option UInt64}
    (hdouble : Yaml.DoubleText double readDouble) {raw : PackageFileEntry}
    (hpackage : validatePackage double raw = .ok package) (hprobe : probe.Parsed)
    (hconflicts : probe.NoConflicts) :
    (∀ probe', probe.Reorders probe' →
      (compose double package probe').toOption = (compose double package probe).toOption) ∧
    ∀ m, compose double package probe = .ok m →
      (∀ raw' package' probe', validatePackage double raw' = .ok package' → probe'.Parsed →
        probe'.NoConflicts →
          (compose double package' probe' = .ok m ↔ SameRecord package package' probe probe') ∧
          (CommaFree package.spill.includeMethods → CommaFree package'.spill.includeMethods →
            CommaFree package.spill.includeTools → CommaFree package'.spill.includeTools →
              compose double package' probe' = .ok m → package = package')) ∧
      ∀ (σ : Type) (docker : DockerApi σ) (images : σ → String → Labels), docker.Serves images →
        ∀ imageIn imageOut s s',
          (∀ k ∈ (images s imageIn).keys, inNamespace k = true → k ∈ m.keys) →
          patchImageImpl docker imageIn imageOut m s = (.ok (), s') →
            docker.NoDrift (writtenImage imageOut) m s' := by
  refine ⟨fun probe' h => h.compose_toOption hconflicts, fun m hm => ⟨?_, ?_⟩⟩
  · intro raw' package' probe' hpackage' hprobe' hconflicts'
    have hwell := validatePackage_wellFormed hpackage
    have hwell' := validatePackage_wellFormed hpackage'
    have hiff := compose_same_iff hdouble hwell hwell' hprobe hprobe' hconflicts hconflicts' hm
    refine ⟨hiff, fun hmethods hmethods' htools htools' hm' => ?_⟩
    exact (hiff.mp hm').package_eq hwell hwell' hmethods hmethods' htools htools'
  · intro σ docker images hserves imageIn imageOut s s' hold h
    exact noDrift_patched hserves hm hold h

end

/-! ### A server that echoes -/

def echoFile (includeTools : Option (List String)) : PackageFileEntry where
  name := "echo"
  port := none
  path := none
  upstreamAuth := none
  isolation := .shared
  egress := .string "none"
  resources := none
  env := none
  spill := ⟨.never, none, none, includeTools⟩

def echoPackage (includeTools : Option (List String)) : ValidatedPackage where
  name := "echo"
  port := 8000
  path := "/mcp"
  upstreamAuth := "none"
  env := envJson []
  resources := none
  egress := .object [("mode", .string "none")]
  isolation := .shared
  spill := ⟨.never, none, none, includeTools⟩

def echoProbe (tools resources : List Json) : ProbeResult where
  serverInfo := ⟨"echo", none⟩
  protocolVersion := "2025-06-18"
  capabilities := .object []
  tools := tools
  resources := resources
  prompts := []

def described (key name description : String) : Json :=
  .object [("description", .string description), (key, .string name)]

def echoTools : List Json := [described "name" "say" "Says it.", described "name" "ask" "Asks."]

/-- A daemon that keeps the labels of its images by name. -/
def namedImages : DockerApi (SortedMap String Labels) where
  inspectImage image s :=
    match s.get? image with
    | none => (.error (.response 404 ("no such image: " ++ image)), s)
    | some labels => (.ok ⟨some ⟨some labels⟩⟩, s)
  createContainer _ s := (.ok "c1", s)
  removeContainer _ s := (.ok (), s)
  commitContainer _ repo tag labels s := (.ok "sha256:1", s.insert (repo ++ ":" ++ tag) labels)

theorem namedImages_serves : namedImages.Serves fun s image => (s.get? image).getD .empty where
  inspected := by
    intro image s inspect h
    simp only [namedImages] at h
    cases hlabels : s.get? image with
    | none =>
      rw [hlabels] at h
      cases h
    | some labels =>
      rw [hlabels] at h
      cases h
      rfl
  committed := by
    intro container repo tag labels s id h
    simp only [namedImages]
    rw [SortedMap.get?_insert, if_pos rfl, Option.getD_some]
  removed := fun _ _ => rfl

theorem patch_namedImages {imageIn imageOut : String} {labels old : Labels}
    {s : SortedMap String Labels} (h : s.get? imageIn = some old) :
    patchImageImpl namedImages imageIn imageOut labels s =
      (.ok (), s.insert (writtenImage imageOut) (old.extend labels)) := by
  simp only [patchImageImpl, namedImages]
  rw [h]
  rfl

theorem inspect_namedImages {image : String} {labels : Labels} {s : SortedMap String Labels}
    (h : s.get? image = some labels) :
    (namedImages.inspectImage image s).1 = .ok ⟨some ⟨some labels⟩⟩ := by
  simp only [namedImages]
  rw [h]

theorem verify_namedImages {image : String} {labels expected : Labels}
    {s : SortedMap String Labels} (h : s.get? image = some labels) :
    (verify namedImages image expected s).1 = compareLabelsInNamespace labels expected := by
  rw [verify_inspected namedImages_serves (inspect_namedImages h), h]
  rfl

/-- Entries with a key and without an input schema have labels. -/
theorem acceptable_of_schemaless {ε : Type} {family : Family} {key : Json → Except ε String}
    {items : List Json} (hkeys : ∀ item ∈ items, (key item).toOption.isSome = true)
    (hschema : ∀ item ∈ items, (family.contents item).schema = none) :
    Acceptable family key items := by
  constructor
  · intro item hitem
    obtain ⟨k, hk⟩ := Option.isSome_iff_exists.mp (hkeys item hitem)
    exact ⟨k, toOption_eq_some.mp hk⟩
  · intro c hc schema hmem
    obtain ⟨item, hitem, rfl⟩ := List.mem_map.mp (recorded_sound hc).1
    rw [hschema item hitem] at hmem
    cases hmem

theorem echo_acceptable {tools resources : List Json}
    (htools : ∀ tool ∈ tools, (toolName tool).toOption.isSome = true)
    (hschema : ∀ tool ∈ tools, (toolFamily.contents tool).schema = none)
    (hresources : ∀ resource ∈ resources, (resourceUri resource).toOption.isSome = true) :
    AcceptableProbe (echoProbe tools resources) where
  tools := acceptable_of_schemaless htools hschema
  resources := acceptable_of_schemaless hresources fun _ _ => rfl
  prompts := acceptable_of_schemaless (fun _ h => absurd h List.not_mem_nil)
    fun _ h => absurd h List.not_mem_nil

def echoLabels : Labels :=
  .ofList (allLabels bitsText (echoPackage none) (echoProbe echoTools []))

theorem compose_echo : compose bitsText (echoPackage none) (echoProbe echoTools []) =
    .ok echoLabels :=
  compose_eq_ok.mpr ⟨echo_acceptable (by decide) (by decide) (by decide), rfl⟩

/-- The labels of the tools in either order, and an image that they are put on. -/
theorem labels_faithful_echo :
    (compose bitsText (echoPackage none) (echoProbe echoTools.reverse [])).toOption =
      some echoLabels ∧
    (verify namedImages "echo:2" echoLabels (patchImageImpl namedImages "echo:1" "echo:2" echoLabels
      (.ofList [("echo:1", .empty)])).2).1 = .ok () := by
  have hpackage : validatePackage bitsText (echoFile none) = .ok (echoPackage none) := by
    decide +kernel
  have hprobe : (echoProbe echoTools []).Parsed := ⟨by decide, by decide, by decide, by decide⟩
  have hconflicts : (echoProbe echoTools []).NoConflicts := ⟨by decide, by decide, by decide⟩
  have hreorders : (echoProbe echoTools []).Reorders (echoProbe echoTools.reverse []) :=
    ⟨rfl, rfl, rfl, (List.reverse_perm _).symm, .refl _, .refl _⟩
  obtain ⟨horder, hlabels⟩ := labels_faithful bitsText_doubleText hpackage hprobe hconflicts
  constructor
  · rw [horder _ hreorders, compose_echo]
    rfl
  · have hpatch : patchImageImpl namedImages "echo:1" "echo:2" echoLabels
        (.ofList [("echo:1", .empty)]) = (.ok (), _) := patch_namedImages rfl
    have hdrift := (hlabels echoLabels compose_echo).2 _ namedImages _ namedImages_serves "echo:1"
      "echo:2" _ _ (fun k hk => absurd hk List.not_mem_nil) hpatch
    rw [hpatch]
    exact hdrift.1 _ (inspect_namedImages (SortedMap.get?_insert.trans (if_pos rfl)))

/-- Both have labels, and the same. -/
def SameLabels (package package' : ValidatedPackage) (probe probe' : ProbeResult) : Prop :=
  ∃ m, compose bitsText package probe = .ok m ∧ compose bitsText package' probe' = .ok m

theorem sameLabels_of_recorded {package : ValidatedPackage}
    {tools tools' resources resources' : List Json}
    (h : AcceptableProbe (echoProbe tools resources))
    (h' : AcceptableProbe (echoProbe tools' resources'))
    (htools : toolFamily.recorded tools = toolFamily.recorded tools')
    (hresources : resourceFamily.recorded resources = resourceFamily.recorded resources') :
    SameLabels package package (echoProbe tools resources) (echoProbe tools' resources') := by
  have hlabels : allLabels bitsText package (echoProbe tools resources) =
      allLabels bitsText package (echoProbe tools' resources') := by
    rw [allLabels, allLabels, echoProbe, echoProbe]
    simp only [catalogLabels]
    rw [htools, hresources]
    rfl
  exact ⟨_, compose_eq_ok.mpr ⟨h, rfl⟩, compose_eq_ok.mpr ⟨h', congrArg SortedMap.ofList hlabels⟩⟩

def sayOne : Json := described "name" "say" "one"

def sayTwo : Json := described "name" "say" "two"

def fileOne : Json := described "uri" "file:///a" "one"

def fileTwo : Json := described "uri" "file:///a" "two"

theorem resource_description_lost :
    SameLabels (echoPackage none) (echoPackage none) (echoProbe [] [fileOne])
      (echoProbe [] [fileTwo]) :=
  sameLabels_of_recorded (echo_acceptable (by decide) (by decide) (by decide))
    (echo_acceptable (by decide) (by decide) (by decide)) rfl (by decide)

theorem allowlist_lost :
    SameLabels (echoPackage (some ["a,b"])) (echoPackage (some ["a", "b"])) (echoProbe [] [])
      (echoProbe [] []) := by
  have haccept : AcceptableProbe (echoProbe [] []) :=
    echo_acceptable (by decide) (by decide) (by decide)
  exact ⟨_, compose_eq_ok.mpr ⟨haccept, rfl⟩, compose_eq_ok.mpr ⟨haccept, rfl⟩⟩

/-- Of a tool that is listed twice the later entry is recorded. -/
theorem later_entry_recorded :
    SameLabels (echoPackage none) (echoPackage none) (echoProbe [sayOne, sayTwo] [])
      (echoProbe [sayTwo] []) :=
  sameLabels_of_recorded (echo_acceptable (by decide) (by decide) (by decide))
    (echo_acceptable (by decide) (by decide) (by decide)) (by decide) rfl

theorem get?_toolLabel {package : ValidatedPackage} {tools resources : List Json} {i : Nat}
    {field : String × String} :
    (SortedMap.ofList (allLabels bitsText package (echoProbe tools resources))).get?
        (entryLabel "tools" i field.1) = some field.2 ↔
      IsEntryLabel bitsText toolFamily tools i field := by
  have hcatalog : (toolFamily, tools) ∈ catalogs (echoProbe tools resources) := List.mem_cons_self
  exact get?_entryLabel hcatalog

theorem order_recorded :
    ¬ SameLabels (echoPackage none) (echoPackage none) (echoProbe [sayOne, sayTwo] [])
      (echoProbe [sayTwo, sayOne] []) := by
  rintro ⟨m, h, h'⟩
  have htwo : IsEntryLabel bitsText toolFamily [sayOne, sayTwo] 0 ("description", "two") :=
    ⟨⟨some "say", some "two", none⟩, by decide, by decide⟩
  obtain ⟨-, rfl⟩ := compose_eq_ok.mp h
  rw [← get?_toolLabel, (compose_eq_ok.mp h').2, get?_toolLabel] at htwo
  obtain ⟨c, hc, hfield⟩ := htwo
  have hone : ((toolFamily.recorded [sayTwo, sayOne]).entries.map Prod.snd)[0]? =
      some ⟨some "say", some "one", none⟩ := by decide
  obtain rfl := Option.some.inj (hone.symm.trans hc)
  exact absurd hfield (by decide)

/-- A label of the namespace that was on the source and is none of the map is drift. -/
theorem stale_label_drifts {key : String} (hkey : inNamespace key = true)
    (hstale : key ∉ echoLabels.keys) :
    ∃ drift, (verify namedImages "echo:2" echoLabels (patchImageImpl namedImages "echo:1" "echo:2"
      echoLabels (.ofList [("echo:1", .ofList [(key, "sing")])])).2).1 = .error (.drift drift) := by
  have hold : (SortedMap.ofList [("echo:1", (.ofList [(key, "sing")] : Labels))]).get? "echo:1" =
      some (.ofList [(key, "sing")]) := SortedMap.get?_insert.trans (if_pos rfl)
  have hwritten : writtenImage "echo:2" = "echo:2" := by decide
  have hcompare : compareLabelsInNamespace ((SortedMap.ofList [(key, "sing")]).extend echoLabels)
      echoLabels ≠ .ok () := fun h =>
    hstale ((compare_patched_iff compose_echo).mp h key (List.mem_singleton_self key) hkey)
  rw [patch_namedImages hold, hwritten,
    verify_namedImages (SortedMap.get?_insert.trans (if_pos rfl))]
  rw [compareLabelsInNamespace] at hcompare ⊢
  split_ifs at hcompare ⊢
  · exact absurd rfl hcompare
  · exact ⟨_, rfl⟩

/-- Two resources with different descriptions have the same labels, and so have two
    different allowlists, and a tool that is listed twice and its later entry; those of a
    tool that is listed twice depend on the order; and an image whose source has a label
    of a third tool shows drift. -/
theorem unfaithful_labels :
    SameLabels (echoPackage none) (echoPackage none) (echoProbe [] [fileOne])
        (echoProbe [] [fileTwo]) ∧
      (validatePackage bitsText (echoFile (some ["a,b"])) = .ok (echoPackage (some ["a,b"])) ∧
        validatePackage bitsText (echoFile (some ["a", "b"])) =
          .ok (echoPackage (some ["a", "b"])) ∧
        SameLabels (echoPackage (some ["a,b"])) (echoPackage (some ["a", "b"])) (echoProbe [] [])
          (echoProbe [] [])) ∧
      (SameLabels (echoPackage none) (echoPackage none) (echoProbe [sayOne, sayTwo] [])
          (echoProbe [sayTwo] []) ∧
        ¬ SameLabels (echoPackage none) (echoPackage none) (echoProbe [sayOne, sayTwo] [])
          (echoProbe [sayTwo, sayOne] [])) ∧
      ∃ drift, (verify namedImages "echo:2" echoLabels (patchImageImpl namedImages "echo:1" "echo:2"
        echoLabels (.ofList [("echo:1", .ofList [(entryLabel "tools" 2 "name", "sing")])])).2).1 =
          .error (.drift drift) := by
  have hstale : entryLabel "tools" 2 "name" ∉ echoLabels.keys := by
    intro hmem
    obtain ⟨v, hv⟩ := Option.isSome_iff_exists.mp (SortedMap.mem_keys.mp hmem)
    have hlabel : IsEntryLabel bitsText toolFamily echoTools 2 ("name", v) := get?_toolLabel.mp hv
    obtain ⟨c, hc, -⟩ := hlabel
    have hnone : ((toolFamily.recorded echoTools).entries.map Prod.snd)[2]? = none := by decide
    rw [hnone] at hc
    cases hc
  exact ⟨resource_description_lost, ⟨by decide +kernel, by decide +kernel, allowlist_lost⟩,
    ⟨later_entry_recorded, order_recorded⟩, stale_label_drifts (inNamespace_label _) hstale⟩

end Botwork.Cli
