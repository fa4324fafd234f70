import Botwork.AuthBroker.Caps
import Botwork.System.Names

/-!
# One path, one identity

auth-broker and session-broker read the path of a request with parsers of their
own: one splits it and drops empty segments, the other matches an anchored
pattern.  Outside `/api/`, which auth-broker keeps for the API, a path that both
accept names the same tenant, workspace and plugin, and a cap minted for it is
the cap of that plugin.

## Main results

- `parseOriginalPath_of_captures` — the two readings of a path
- `one_path_one_identity`
-/

namespace Botwork.System

open Botwork.Foundations
open Botwork.AuthBroker (parseOriginalPath startsWith ParsedPath authBroker Broker Answer RegistryInv)
open Botwork.SessionBroker (isSlug parseTenantWorkspacePlugin PathCaptures)

variable {path tenant : String}

-- ════════════════════════════════════════════════════════════════════════
-- auth-broker
-- ════════════════════════════════════════════════════════════════════════

/-- A name with a `?` in it is refused. -/
theorem not_accepted_of_question {name : String} (h : '?' ∈ name.toList) :
    AuthBroker.accepted (AuthBroker.validatePluginName name) = false := by
  rw [← Bool.not_eq_true, AuthBroker.accepted_iff, AuthBroker.validatePluginName,
    AuthBroker.validateName_eq_ok]
  rintro ⟨hname, -⟩
  simp only [AuthBroker.isName, Bool.and_eq_true, decide_eq_true_eq, List.all_eq_true] at hname
  exact absurd (hname.2 '?' h) (by decide)

-- ════════════════════════════════════════════════════════════════════════
-- session-broker
-- ════════════════════════════════════════════════════════════════════════

theorem head_dropWhile_ne {chars more : List Char} {stop c : Char}
    (h : chars.dropWhile (· != stop) = c :: more) : c = stop := by
  have hc := List.head?_dropWhile_not (· != stop) chars
  rw [h] at hc
  simpa using hc

theorem takeSegment_eq_some {chars rest : List Char} {segment : String}
    (h : SessionBroker.takeSegment chars = some (segment, rest)) :
    chars = '/' :: (segment.toList ++ rest) ∧ (rest = [] ∨ ∃ more, rest = '/' :: more) := by
  unfold SessionBroker.takeSegment at h
  split at h
  next chars =>
    cases h
    rw [String.toList_ofList]
    refine ⟨by rw [List.takeWhile_append_dropWhile], ?_⟩
    cases hdrop : chars.dropWhile (· != '/') with
    | nil => exact .inl rfl
    | cons c more => exact .inr ⟨more, by rw [head_dropWhile_ne hdrop]⟩
  next => cases h

/-- What session-broker has read of a path: three slugs, and after them nothing, a
    slash or the query. -/
theorem shape_of_captures {captures : PathCaptures}
    (h : parseTenantWorkspacePlugin path = some captures) :
    isSlug captures.tenant = true ∧ isSlug captures.workspace = true ∧
      isSlug captures.plugin = true ∧
      ∃ rest, path.toList = '/' :: (captures.tenant.toList ++ '/' :: (captures.workspace.toList ++
          '/' :: (captures.plugin.toList ++ rest))) ∧
        (rest = [] ∨ ∃ more, rest = '/' :: more ∨ rest = '?' :: more) := by
  obtain ⟨hslug, hslug', hslug''⟩ := SessionBroker.isSlug_of_pathCaptures h
  refine ⟨hslug, hslug', hslug'', ?_⟩
  simp only [parseTenantWorkspacePlugin, SessionBroker.pathCaptures, Option.bind_eq_bind,
    Option.bind_eq_some_iff] at h
  obtain ⟨⟨tenant, rest₁⟩, htenant, ⟨workspace, rest₂⟩, hworkspace, ⟨plugin, rest₃⟩, hplugin, h⟩ := h
  split at h
  next =>
    cases h
    dsimp only at hworkspace hplugin ⊢
    obtain ⟨hpath, -⟩ := takeSegment_eq_some htenant
    obtain ⟨hrest₁, -⟩ := takeSegment_eq_some hworkspace
    obtain ⟨hrest₂, hend⟩ := takeSegment_eq_some hplugin
    -- the path is the part before the query with the query
    have hwhole : path.toList = (SessionBroker.splitPathAndQuery path).1.toList ++
        path.toList.dropWhile (· != '?') := by
      rw [SessionBroker.splitPathAndQuery, List.span_eq_takeWhile_dropWhile, String.toList_ofList,
        List.takeWhile_append_dropWhile]
    have hquery : path.toList.dropWhile (· != '?') = [] ∨
        ∃ more, path.toList.dropWhile (· != '?') = '?' :: more := by
      cases hdrop : path.toList.dropWhile (· != '?') with
      | nil => exact .inl rfl
      | cons c more => exact .inr ⟨more, by rw [head_dropWhile_ne hdrop]⟩
    rw [hpath, hrest₁, hrest₂] at hwhole
    generalize path.toList.dropWhile (· != '?') = query at hwhole hquery
    refine ⟨rest₃ ++ query, ?_, ?_⟩
    · rw [hwhole]
      simp
    · cases hend with
      | inl hnil =>
        rw [hnil, List.nil_append]
        cases hquery with
        | inl hnone => exact .inl hnone
        | inr hsome => obtain ⟨more, hmore⟩ := hsome; exact .inr ⟨more, .inr hmore⟩
      | inr hcons =>
        obtain ⟨more, hmore⟩ := hcons
        rw [hmore]
        exact .inr ⟨_, .inl rfl⟩
  next => cases h

-- ════════════════════════════════════════════════════════════════════════
-- Both
-- ════════════════════════════════════════════════════════════════════════

/-- The first piece of a list that is split at slashes. -/
theorem splitOn_slash (chars : List Char) :
    ∃ more, chars.splitOn '/' = chars.takeWhile (· != '/') :: more := by
  have hpiece : '/' ∉ chars.takeWhile (· != '/') := by
    intro hmem
    simpa using List.mem_takeWhile_imp hmem
  have hchars := List.takeWhile_append_dropWhile (p := (· != '/')) (l := chars)
  cases hdrop : chars.dropWhile (· != '/') with
  | nil =>
    rw [hdrop, List.append_nil] at hchars
    rw [hchars] at hpiece ⊢
    exact ⟨[], List.splitOn_eq_singleton hpiece⟩
  | cons c rest =>
    rw [hdrop, head_dropWhile_ne hdrop] at hchars
    refine ⟨rest.splitOn '/', ?_⟩
    conv_lhs => rw [← hchars]
    exact List.splitOn_append_cons_self_of_not_mem hpiece rest

/-- **One reading**: a path that session-broker reads and auth-broker accepts
    outside `/api` is the path of that plugin. -/
theorem parseOriginalPath_of_captures {captures : PathCaptures} {parsed : ParsedPath}
    (hcaptures : parseTenantWorkspacePlugin path = some captures)
    (hparsed : parseOriginalPath path = some parsed) (hapi : captures.tenant ≠ "api") :
    parsed = .mcp captures.tenant captures.workspace captures.plugin := by
  obtain ⟨htenant, hworkspace, hplugin, rest, hpath, hrest⟩ := shape_of_captures hcaptures
  have hne {name : String} (h : isSlug name = true) : name.toList ≠ [] :=
    List.length_pos_iff.mp (slug_shape h).1
  have hslash : '/' ∉ captures.tenant.toList := slug_noChar htenant rfl
  obtain ⟨more, hsplit⟩ := splitOn_slash (captures.plugin.toList ++ rest)
  have hpiece : (captures.plugin.toList ++ rest).takeWhile (· != '/') =
      captures.plugin.toList ++ rest.takeWhile (· != '/') := by
    apply List.takeWhile_append_of_pos
    intro c hc
    simpa using fun heq : c = '/' => slug_noChar hplugin rfl (heq ▸ hc)
  rw [hpiece] at hsplit
  have hsegments : AuthBroker.segments path = captures.tenant :: captures.workspace ::
      String.ofList (captures.plugin.toList ++ rest.takeWhile (· != '/')) ::
        ((more.filter (· ≠ [])).map String.ofList) := by
    rw [AuthBroker.segments, hpath, ← List.nil_append ('/' :: _),
      List.splitOn_append_cons_self_of_not_mem (by simp),
      List.splitOn_append_cons_self_of_not_mem hslash,
      List.splitOn_append_cons_self_of_not_mem (slug_noChar hworkspace rfl), hsplit]
    simp [hne htenant, hne hworkspace, hne hplugin]
  rw [parseOriginalPath_of_segments hpath hslash hapi hsegments] at hparsed
  split at hparsed
  next haccepted =>
    rw [← Option.some.inj hparsed]
    simp only [Bool.and_eq_true] at haccepted
    -- a query right after the plugin would be part of its name
    have hend : rest.takeWhile (· != '/') = [] := by
      obtain rfl | ⟨more', rfl | rfl⟩ := hrest
      · rfl
      · rfl
      · have hrefused := not_accepted_of_question
          (show '?' ∈ (String.ofList (captures.plugin.toList ++
            ('?' :: more').takeWhile (· != '/'))).toList by simp)
        rw [haccepted.2] at hrefused
        cases hrefused
    rw [hend, List.append_nil, String.ofList_toList]
  next => cases hparsed

-- ════════════════════════════════════════════════════════════════════════
-- Caps
-- ════════════════════════════════════════════════════════════════════════

/-- A check of the path was answered with the cap, for the tenant. -/
def AuthorisedWith (s : Broker) (path tenant : String) (cap : AuthBroker.CapId) : Prop :=
  ∃ r a token, s.answers.lookup r = some a ∧
    a.request = .check (parseOriginalPath path) token ∧ a.reply = .admitted tenant cap

/-- The cap is one of this tenant, workspace and plugin: it was minted from a
    lease of the tenant, stands in the map under these names, and fetches the
    secrets of this plugin. -/
structure CapOf (s : Broker) (cap : AuthBroker.CapId) (tenant workspace plugin : String) :
    Prop where
  leased : ∃ lease row, s.minted.lookup cap = some lease ∧ s.leases.lookup lease = some row ∧
    s.tenants.lookup row.tenantId = some tenant
  entry : ∀ entry, s.caps.lookup cap = some entry → entry.cacheKey.tenant = tenant ∧
    entry.namesp = workspace ∧ entry.plugin = plugin
  fetched : ∀ r a response, s.answers.lookup r = some a → a.request = .fetch (.ok cap) →
    a.reply = .secrets response → response.tenant = tenant ∧ response.plugin = plugin

/-- What a check was asked decides whose its cap is. -/
theorem capOf_of_asks {s : Broker} (inv : RegistryInv s.registry) {r : Nat} {a : Answer}
    {q : AuthBroker.LeasePath} {tenant : String} {cap : AuthBroker.CapId}
    (hlook : s.answers.lookup r = some a) (hasks : a.request.Asks q)
    (hreply : a.reply = .admitted tenant cap) : CapOf s cap tenant q.namesp q.plugin := by
  have hgranted : ∀ entry, s.registry.record.Granted cap entry →
      entry.cacheKey.tenant = tenant ∧ entry.namesp = q.namesp ∧ entry.plugin = q.plugin := by
    rintro entry ⟨r', a', hlook', hgrants⟩
    have hr := inv.unique r r' a a' _ _ cap hlook hlook' hreply hgrants.reply
    have hsame : some a' = some a := by
      rw [← hlook, hr]
      exact hlook'.symm
    cases hsame
    obtain ⟨q', hasks', -, hnamesp, hplugin⟩ := hgrants.asked
    have hq := hasks.unique hasks'
    subst hq
    exact ⟨(AuthBroker.Reply.admitted.inj (hgrants.reply.symm.trans hreply)).1, hnamesp, hplugin⟩
  refine ⟨?_, fun entry hentry => hgranted entry (inv.caps cap entry hentry), ?_⟩
  · have ha := (inv.answered r a hlook).2
    rw [AuthBroker.Record.AnswerInv, hreply] at ha
    obtain ⟨_, lease, -, -, hminted, hadmits⟩ := ha
    obtain ⟨row, hrow, -, htenant⟩ := hadmits.leased
    exact ⟨lease, row, hminted, hrow, htenant⟩
  · intro r' a' response hlook' hrequest hreply'
    have ha := (inv.answered r' a' hlook').2
    rw [AuthBroker.Record.AnswerInv, hreply'] at ha
    obtain ⟨cap', entry, hrequest', hentry, htenant, hplugin⟩ := ha
    rw [hrequest] at hrequest'
    cases hrequest'
    obtain ⟨htenant', -, hplugin'⟩ := hgranted entry hentry
    exact ⟨htenant.trans htenant', hplugin.trans hplugin'⟩

/-- **One path, one identity**: outside `/api/`, a path that was authorised with a
    cap and that session-broker reads is a path of the tenant of the lease, and the
    cap is one of the workspace and the plugin that session-broker reads. -/
theorem one_path_one_identity (hkdf : Vault.Bytes → Vault.Bytes → UInt8 → Vault.Bytes) (s : Broker)
    (path tenant : String) (cap : AuthBroker.CapId) (captures : PathCaptures)
    (hreach : (authBroker hkdf).Reachable s) (hauthorised : AuthorisedWith s path tenant cap)
    (hcaptures : parseTenantWorkspacePlugin path = some captures)
    (hapi : startsWith path "/api/" = false) :
    captures.tenant = tenant ∧ CapOf s cap captures.tenant captures.workspace captures.plugin := by
  have inv := AuthBroker.registryInv_of_reachable hreach
  obtain ⟨r, a, token, hlook, hrequest, hreply⟩ := hauthorised
  have hne : captures.tenant ≠ "api" := by
    intro heq
    obtain ⟨-, -, -, rest, hpath, -⟩ := shape_of_captures hcaptures
    rw [startsWith, ← Bool.not_eq_true, List.isPrefixOf_iff_prefix, hpath, heq] at hapi
    exact hapi ⟨_, rfl⟩
  have ha := (inv.answered r a hlook).2
  rw [AuthBroker.Record.AnswerInv, hreply] at ha
  obtain ⟨⟨scope, namesp, plugin, bearer⟩, lease, hasks, -, -, hadmits⟩ := ha
  have hcap := capOf_of_asks inv hlook hasks hreply
  obtain ⟨parsed, token', hcheck, -, hq⟩ := hasks
  rw [hrequest] at hcheck
  cases hparsed : parseOriginalPath path with
  | none => rw [hparsed] at hcheck; cases hcheck
  | some parsed' =>
    rw [hparsed] at hcheck
    cases hcheck
    rw [parseOriginalPath_of_captures hcaptures hparsed hne] at hq
    cases hq
    have htenant : captures.tenant = tenant := hadmits.scope _ rfl
    rw [htenant]
    exact ⟨rfl, hcap⟩

/-- A login and a check of the path, which creates the vault of the tenant. -/
private def checkedRun (path : String) : List AuthBroker.Event :=
  AuthBroker.Sample.loginRun 0 5 ++
    [.arrive (.check (parseOriginalPath path) (.ok (some (AuthBroker.Sample.bearer 5).encode))),
      .run 1 .ok, .run 1 .ok, .run 1 .ok] ++
    AuthBroker.Sample.createRun 1 ++ AuthBroker.Sample.checkTail 1 77

private theorem exists_authorised (path : String)
    (h : ((authBroker AuthBroker.Sample.hkdf).execUnder (fun _ _ => True) AuthBroker.Sample.start
      (checkedRun path)).any (fun s => (s.answers.lookup 1).any fun a =>
        a.reply = .admitted "acme" 77 &&
          match a.request with
          | .check parsed _ => parsed = parseOriginalPath path
          | _ => false) = true) :
    ∃ s, (authBroker AuthBroker.Sample.hkdf).Reachable s ∧ AuthorisedWith s path "acme" 77 := by
  obtain ⟨s, hrun, hs⟩ := Machine.exists_run_of_execUnder _ h
  simp only [Bool.and_eq_true, Option.any_eq_true, decide_eq_true_eq] at hs
  obtain ⟨a, hlook, hreply, hrequest⟩ := hs
  refine ⟨s, ⟨AuthBroker.Sample.start, ⟨_, _, _, rfl⟩, hrun⟩, ?_⟩
  split at hrequest
  next parsed token heq =>
    rw [of_decide_eq_true hrequest] at heq
    exact ⟨1, a, token, hlook, heq, hreply⟩
  next => cases hrequest

theorem one_path_one_identity_echo :
    ∃ s, AuthorisedWith s "/acme/main/echo/?q" "acme" 77 ∧ CapOf s 77 "acme" "main" "echo" := by
  have hcaptures : parseTenantWorkspacePlugin "/acme/main/echo/?q" =
      some ⟨"acme", "main", "echo", "/"⟩ := by decide +kernel
  obtain ⟨s, hreach, hauthorised⟩ := exists_authorised "/acme/main/echo/?q" (by decide +kernel)
  exact ⟨s, hauthorised, (one_path_one_identity AuthBroker.Sample.hkdf s "/acme/main/echo/?q" "acme"
    77 ⟨"acme", "main", "echo", "/"⟩ hreach hauthorised hcaptures (by decide +kernel)).2⟩

/-- session-broker reads a path of the API as one of a plugin of the tenant "api". -/
theorem api_path_read_twice :
    ¬ ∀ (hkdf : Vault.Bytes → Vault.Bytes → UInt8 → Vault.Bytes) (s : Broker) (path tenant : String)
        (cap : AuthBroker.CapId) (captures : PathCaptures),
      (authBroker hkdf).Reachable s → AuthorisedWith s path tenant cap →
        parseTenantWorkspacePlugin path = some captures →
        captures.tenant = tenant ∧
          CapOf s cap captures.tenant captures.workspace captures.plugin := by
  intro hclaim
  have hcaptures : parseTenantWorkspacePlugin "/api/main/echo" =
      some ⟨"api", "main", "echo", ""⟩ := by decide +kernel
  obtain ⟨s, hreach, hauthorised⟩ := exists_authorised "/api/main/echo" (by decide +kernel)
  have htenant := (hclaim _ s _ _ _ _ hreach hauthorised hcaptures).1
  revert htenant
  decide

end Botwork.System
