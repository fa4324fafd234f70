import Botwork.Launcher.Environment

/-!
# The archive of secrets

The archive lists one regular file for each secret.  A name is cut after 99
bytes and a number that does not fit its field is cut after eight digits, so
that long names and large user or group ids come out as others.

## Main definitions

- `secretEntry` — what the archive should list for a secret
- `Decodes` — the archive lists the secrets, and the pointers name its files

## Main results

- `octalValue_writeOctal_iff` — the numbers that a field of eight bytes holds
- `decodes_iff` — the archive decodes exactly when names and ids fit
-/

namespace Botwork.Launcher

open Botwork.Foundations

/-- What the archive should list for a secret. -/
def secretEntry (uid gid : Nat) (secret : String × String) : Ustar.Entry where
  path := Text.utf8 (secretFileName secret.1)
  mode := 0o400
  uid := uid
  gid := gid
  content := Text.utf8 secret.2

/-- The archive lists one file for each secret, in order, and the pointers in the
    environment name files that it lists. -/
structure Decodes (config : Config) (launch : LaunchRequest) : Prop where
  files : Ustar.list (buildSecretsTar launch.secrets config.pluginUid config.pluginGid) =
    some (launch.secrets.map (secretEntry config.pluginUid config.pluginGid))
  pointers : ∀ body, buildContainerConfig config launch = .ok body →
    ∀ text ∈ body.env.drop launch.env.length, ∃ entries,
      Ustar.list (buildSecretsTar launch.secrets config.pluginUid config.pluginGid) = some entries ∧
        ∃ entry ∈ entries, ∃ name, Text.utf8 name = entry.path ∧
          varValue text = secretsTmpfsPath ++ "/" ++ name

/-- The ids have at most eight octal digits. -/
def IdsFit (config : Config) : Prop := config.pluginUid < 8 ^ 8 ∧ config.pluginGid < 8 ^ 8

/-- The names are not cut. -/
def NamesFit (launch : LaunchRequest) : Prop :=
  ∀ secret ∈ launch.secrets, (Text.utf8 secret.1).length ≤ maxTarNameBytes

/-! ### Fields -/

/-- A number with as many digits as its field has bytes loses its terminator, and
    one with more loses digits. -/
theorem octalValue_writeOctal_iff (value : Nat) :
    Ustar.octalValue (writeOctal 8 value 7) = some value ↔ value < 8 ^ 8 := by
  constructor
  · intro h
    have hlt := Ustar.octalValue_lt h
    rw [writeOctal, length_copyInto] at hlt
    exact hlt
  · intro hvalue
    by_cases hsmall : value < 8 ^ 7
    · exact octalValue_writeOctal (by decide) hsmall (by decide)
    · have hwidth : (Ustar.octalDigits 7 value).length = 8 := by
        have hle := (Nat.length_toDigits_le_iff (b := 8) (by decide) (by decide)).mpr hvalue
        have hge : ¬(Nat.toDigits 8 value).length ≤ 7 := by
          rw [Nat.length_toDigits_le_iff (by decide) (by decide)]
          exact hsmall
        rw [Ustar.octalDigits, List.length_append, List.length_replicate, List.length_map]
        omega
      have hfield : writeOctal 8 value 7 = Ustar.octalDigits 7 value := by
        have hfull : 8 - (Ustar.octalDigits 7 value ++ [0]).length = 0 := by
          rw [List.length_append, hwidth]
          rfl
        rw [writeOctal, copyInto, hfull, List.replicate_zero, List.append_nil,
          List.take_append_of_le_length hwidth.ge, List.take_of_length_le hwidth.le]
      rw [hfield]
      exact Ustar.octalValue_octalDigits_self 7 value

theorem entry_tarHeader {name data : List UInt8} {mode uid gid : Nat}
    (hnul : (0 : UInt8) ∉ name) (entry : Ustar.Entry) :
    (tarHeader name data mode uid gid).fields.entry data = some entry ↔
      entry.path = name.take maxTarNameBytes ∧
        Ustar.octalValue (writeOctal 8 mode 7) = some entry.mode ∧
        Ustar.octalValue (writeOctal 8 uid 7) = some entry.uid ∧
        Ustar.octalValue (writeOctal 8 gid 7) = some entry.gid ∧ entry.content = data := by
  rw [Ustar.Fields.entry, path_tarHeader hnul]
  simp only [Option.bind_eq_bind, Option.bind_eq_some_iff]
  constructor
  · rintro ⟨m, hmode, u, huid, g, hgid, h⟩
    cases h
    exact ⟨rfl, hmode, huid, hgid, rfl⟩
  · rintro ⟨hpath, hmode, huid, hgid, hcontent⟩
    refine ⟨entry.mode, hmode, entry.uid, huid, entry.gid, hgid, ?_⟩
    rw [← hpath, ← hcontent]
    rfl

/-! ### The archive -/

theorem mapM_eq_some_map {α β : Type} {f : α → Option β} {g : α → β} {xs : List α} :
    xs.mapM f = some (xs.map g) ↔ ∀ x ∈ xs, f x = some (g x) := by
  induction xs with
  | nil => simp
  | cons x xs ih =>
    rw [List.mapM_cons, List.forall_mem_cons, ← ih]
    cases f x with
    | none => simp
    | some y =>
      cases xs.mapM f with
      | none => simp
      | some ys => simp

section

variable {launch : LaunchRequest} (hnamed : Named launch)

include hnamed

theorem nul_not_mem_of_named {secret : String × String} (h : secret ∈ launch.secrets) :
    (0 : UInt8) ∉ Text.utf8 (secretFileName secret.1) :=
  nul_not_mem_secretFileName (isEnvChar_of_validEnvName (hnamed.secrets secret h))

/-- The name of a file is as long as that of its secret. -/
theorem length_secretFileName {secret : String × String} (h : secret ∈ launch.secrets) :
    (Text.utf8 (secretFileName secret.1)).length = (Text.utf8 secret.1).length := by
  have hchars := isEnvChar_of_validEnvName (hnamed.secrets secret h)
  have hlower : ∀ c ∈ (secretFileName secret.1).toList, c.toNat < 128 := by
    intro c hc
    rw [toList_secretFileName] at hc
    obtain ⟨d, hd, rfl⟩ := List.mem_map.mp hc
    exact (isEnvChar_toLower (hchars d hd)).2
  rw [Text.utf8_of_ascii hlower, Text.utf8_of_ascii fun c hc => (isEnvChar_lt (hchars c hc)).2,
    toList_secretFileName, List.length_map, List.length_map, List.length_map]

omit hnamed in
/-- What the archive lists. -/
theorem list_buildSecretsTar (hshort : ∀ secret ∈ launch.secrets,
    (Text.utf8 secret.2).length < 8 ^ 11) (uid gid : Nat) :
    Ustar.list (buildSecretsTar launch.secrets uid gid) =
      launch.secrets.mapM fun secret =>
        (secretHeader uid gid secret).fields.entry (Text.utf8 secret.2) := by
  rw [buildSecretsTar_eq, Ustar.list_members]
  · rw [List.mapM_map]
    rfl
  · intro m hm
    obtain ⟨secret, hsecret, rfl⟩ := List.mem_map.mp hm
    exact tarHeader_describes (hshort secret hsecret)

/-- The archive lists the secrets exactly when every name and, with any secret at
    all, both ids fit. -/
theorem files_iff (hshort : ∀ secret ∈ launch.secrets, (Text.utf8 secret.2).length < 8 ^ 11)
    (uid gid : Nat) :
    Ustar.list (buildSecretsTar launch.secrets uid gid) =
        some (launch.secrets.map (secretEntry uid gid)) ↔
      ∀ secret ∈ launch.secrets, (Text.utf8 secret.1).length ≤ maxTarNameBytes ∧
        uid < 8 ^ 8 ∧ gid < 8 ^ 8 := by
  have hmode : Ustar.octalValue (writeOctal 8 0o400 7) = some 0o400 :=
    (octalValue_writeOctal_iff 0o400).mpr (by decide)
  rw [list_buildSecretsTar hshort, mapM_eq_some_map]
  apply forall₂_congr
  intro secret hsecret
  have hlength := length_secretFileName hnamed hsecret
  rw [secretHeader, entry_tarHeader (nul_not_mem_of_named hnamed hsecret)]
  simp only [secretEntry, hmode, octalValue_writeOctal_iff, true_and, and_true, ← hlength]
  apply and_congr_left
  intro _
  constructor
  · intro htake
    rw [htake]
    exact List.length_take_le _ _
  · exact fun hle => (List.take_of_length_le hle).symm

end

theorem short_of_parsed {validImage : String → Bool} {defaultNetwork : String}
    {payload : List (String × Json)} {launch : LaunchRequest}
    (h : parseLaunchPayload validImage defaultNetwork payload = .ok launch) :
    ∀ secret ∈ launch.secrets, (Text.utf8 secret.2).length < 8 ^ 11 := by
  intro secret hsecret
  have haccepts := parseEntryField_eq_ok (parseLaunchPayload_secrets h)
  exact lt_of_le_of_lt (haccepts.short secret hsecret) (by decide)

/-- The pointers name files of an archive that lists the secrets. -/
theorem pointers_of_files {config : Config} {launch : LaunchRequest}
    (hnamed : Named launch)
    (hfiles : Ustar.list (buildSecretsTar launch.secrets config.pluginUid config.pluginGid) =
      some (launch.secrets.map (secretEntry config.pluginUid config.pluginGid))) :
    Decodes config (launch.proxied config) := by
  refine ⟨hfiles, ?_⟩
  intro body hbuilt text htext
  refine ⟨_, hfiles, ?_⟩
  have hdrop : (body.env.drop (launch.proxied config).env.length) =
      (launch.secrets.map pointerEntry).map entryText := by
    rw [hnamed.env_eq hbuilt, LaunchRequest.entries, List.map_append]
    apply List.drop_left'
    rw [List.length_map]
  rw [hdrop] at htext
  obtain ⟨pointer, hpointer, rfl⟩ := List.mem_map.mp htext
  obtain ⟨secret, hsecret, rfl⟩ := List.mem_map.mp hpointer
  have hchars := isEnvChar_of_validEnvName (hnamed.secrets secret hsecret)
  refine ⟨_, List.mem_map_of_mem hsecret, secretFileName secret.1, rfl, ?_⟩
  exact varValue_entryText (equals_not_mem_secretPointerName hchars)

/-- **The archive decodes to what was asked**: for an accepted payload it lists
    the secrets, and the pointers name its files, exactly when there is no secret
    or the ids have at most eight octal digits and every name at most 99 bytes. -/
theorem decodes_iff {config : Config} {payload : List (String × Json)} {launch : LaunchRequest}
    (hparsed : parseLaunchPayload config.validImage config.defaultNetwork payload = .ok launch) :
    Decodes config (launch.proxied config) ↔
      launch.secrets = [] ∨ IdsFit config ∧ NamesFit launch := by
  have hnamed := named_of_parsed hparsed
  have hiff := files_iff hnamed (short_of_parsed hparsed) config.pluginUid config.pluginGid
  constructor
  · intro hdecodes
    have hfit := hiff.mp hdecodes.files
    cases hsecrets : launch.secrets with
    | nil => exact Or.inl rfl
    | cons secret rest =>
      have hmem : secret ∈ launch.secrets := by
        rw [hsecrets]
        exact List.mem_cons_self
      exact Or.inr ⟨(hfit secret hmem).2, fun secret hsecret => (hfit secret hsecret).1⟩
  · intro hfit
    apply pointers_of_files hnamed
    apply hiff.mpr
    intro secret hsecret
    rcases hfit with hnone | ⟨hids, hnames⟩
    · rw [hnone] at hsecret
      exact absurd hsecret List.not_mem_nil
    · exact ⟨hnames secret hsecret, hids⟩

/-! ### Samples -/

/-- One secret of the plugin user 1000 arrives. -/
theorem decodes_small_ids :
    Decodes (Sample.operator 1000 1000)
      ((Sample.launch [] [("GITHUB_COM_PAT", "s3cret")]).proxied (Sample.operator 1000 1000)) := by
  have hparsed : parseLaunchPayload (Sample.operator 1000 1000).validImage
      (Sample.operator 1000 1000).defaultNetwork
      (Sample.members [] [("GITHUB_COM_PAT", "s3cret")]) =
        .ok (Sample.launch [] [("GITHUB_COM_PAT", "s3cret")]) :=
    toOption_eq_some.mp (by decide +kernel)
  apply (decodes_iff hparsed).mpr
  refine Or.inr ⟨⟨by decide, by decide⟩, ?_⟩
  intro secret hsecret
  obtain rfl := List.mem_singleton.mp hsecret
  decide +kernel

/-- For the user id 16777216 the archive names another owner. -/
theorem large_uid_is_cut :
    ¬ ∀ (config : Config) (payload : List (String × Json)) (launch : LaunchRequest),
      config.pluginUid < 2 ^ 32 → config.pluginGid < 2 ^ 32 →
        parseLaunchPayload config.validImage config.defaultNetwork payload = .ok launch →
          Decodes config (launch.proxied config) := by
  intro hclaim
  have hparsed : parseLaunchPayload (Sample.operator 16777216 1000).validImage
      (Sample.operator 16777216 1000).defaultNetwork
      (Sample.members [] [("GITHUB_COM_PAT", "s3cret")]) =
        .ok (Sample.launch [] [("GITHUB_COM_PAT", "s3cret")]) :=
    toOption_eq_some.mp (by decide +kernel)
  have hdecodes := hclaim _ _ _ (by decide) (by decide) hparsed
  have hfit := (files_iff (named_of_parsed hparsed) (short_of_parsed hparsed) 16777216 1000).mp
    hdecodes.files
  exact absurd (hfit _ List.mem_cons_self).2.1 (by decide)

end Botwork.Launcher
