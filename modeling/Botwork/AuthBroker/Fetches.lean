import Botwork.AuthBroker.Turns
import Botwork.Vault.EntryKeys

/-!
# What a fetch returns

The answer of `/secrets/fetch` is read off one vault file in one step, under the
mutex of the cache.  The cap names the cache entry, the cache entry the vault;
`cap_yields_plugin_secrets` says that at the end of this chain there is exactly
the vault of the tenant the cap was minted for, over every run of the broker.

## Main definitions

- `Broker.MintedFor` — the tenant and the plugin of a cap
- `ExactlyGranted` — the secrets of a vault that a plugin may see, each once

## Main results

- `vaultsReachable_of_reachable` — every vault is one of `Vault.vault`
- `cap_yields_plugin_secrets`
-/

namespace Botwork.AuthBroker

open Botwork.Foundations Botwork.Vault

variable {hkdf : Bytes → Bytes → UInt8 → Bytes} {s s' : Broker} {r : Nat} {f : InFlight}
  {choice : Choice} {pc : Pc}

-- ════════════════════════════════════════════════════════════════════════
-- Vaults
-- ════════════════════════════════════════════════════════════════════════

/-- Every vault of the broker has come about by calls of its handles. -/
def VaultsReachable (hkdf : Bytes → Bytes → UInt8 → Bytes) (s : Broker) : Prop :=
  ∀ tenant, (vault hkdf).Reachable (s.vaultOf tenant)

theorem vaultOf_of_vaults (h : s'.vaults = s.vaults) : s'.vaultOf = s.vaultOf := by
  funext tenant
  rw [Broker.vaultOf, h]
  rfl

theorem vaultOf_setVault (s : Broker) (tenant other : String) (root : Root) :
    (s.setVault tenant root).vaultOf other = if other = tenant then root else s.vaultOf other := by
  show ((s.vaults.insert tenant root).lookup other).getD Root.init = _
  rw [FiniteMap.lookup_insert_ite]
  split
  next => rfl
  next => rfl

namespace VaultsReachable

theorem of_vaults (h : VaultsReachable hkdf s) (hsame : s'.vaults = s.vaults) :
    VaultsReachable hkdf s' := by
  intro tenant
  rw [vaultOf_of_vaults hsame]
  exact h tenant

theorem setVault {tenant : String} {root : Root} (h : VaultsReachable hkdf s)
    (hroot : (vault hkdf).Reachable root) : VaultsReachable hkdf (s.setVault tenant root) := by
  intro other
  rw [vaultOf_setVault]
  split
  next => exact hroot
  next => exact h other

theorem next {w w' : Root} {a : Action} (hreach : (vault hkdf).Reachable w)
    (hnext : w.next hkdf a = some w') : (vault hkdf).Reachable w' :=
  hreach.trans (Relation.ReflTransGen.single ⟨a, trivial, hnext⟩)

theorem startCall {tenant : String} {h : Nat} {fresh : Bool} {c : Call}
    (hvaults : VaultsReachable hkdf s) (hstart : s.startCall hkdf tenant h fresh c = some s') :
    VaultsReachable hkdf s' := by
  obtain ⟨root, hcall, rfl⟩ := Option.map_eq_some_iff.mp hstart
  obtain ⟨opened, hopened, hcall⟩ := Option.bind_eq_some_iff.mp hcall
  apply hvaults.setVault
  refine next ?_ hcall
  cases fresh with
  | true =>
    rw [if_pos rfl] at hopened
    exact next (hvaults tenant) hopened
  | false => cases hopened; exact hvaults tenant

theorem insideCall {tenant : String} {h : Nat} {c : Call} (hvaults : VaultsReachable hkdf s)
    (hinside : s.insideCall hkdf tenant h c = some s') : VaultsReachable hkdf s' := by
  unfold Broker.insideCall at hinside
  split at hinside
  next =>
    obtain ⟨root, hcall, rfl⟩ := Option.map_eq_some_iff.mp hinside
    exact hvaults.setVault (next (hvaults tenant) hcall)
  next => cases hinside

theorem checkStep (hvaults : VaultsReachable hkdf s)
    (hstep : s.checkStep hkdf r f choice pc = some s') : VaultsReachable hkdf s' := by
  revert hstep
  fun_cases Broker.checkStep hkdf s r f choice pc <;> intro hstep
  all_goals try cases hstep
  all_goals first
    | exact hvaults
    | skip
  · -- checkUnlock
    obtain ⟨s₁, hstart, rfl⟩ := Option.map_eq_some_iff.mp hstep
    have hvaults₁ := hvaults.startCall hstart
    exact hvaults₁
  · exact hvaults.insideCall hstep
  · -- checkUnlocking
    obtain ⟨⟨hd, outcome⟩, -, hout⟩ := Option.bind_eq_some_iff.mp hstep
    cases outcome with
    | ok =>
      obtain ⟨u, -, rfl⟩ := Option.map_eq_some_iff.mp hout
      exact hvaults
    | error err =>
      simp only at hout
      split at hout <;> cases hout <;> exact hvaults
  · -- checkCreate
    rename_i salt q v tenant
    obtain ⟨root, hcreate, rfl⟩ := Option.map_eq_some_iff.mp hstep
    have hvaults₁ : VaultsReachable hkdf (s.setVault tenant root) :=
      hvaults.setVault (next (hvaults tenant) hcreate)
    exact hvaults₁
  · -- checkCreating, inside the call
    obtain ⟨s₁, hinside, rfl⟩ := Option.map_eq_some_iff.mp hstep
    have hvaults₁ := hvaults.insideCall hinside
    split <;> exact hvaults₁
  · -- checkCreating
    obtain ⟨⟨hd, outcome⟩, -, rfl⟩ := Option.map_eq_some_iff.mp hstep
    cases outcome <;> exact hvaults

theorem writeStep (hvaults : VaultsReachable hkdf s)
    (hstep : s.writeStep hkdf r f choice pc = some s') : VaultsReachable hkdf s' := by
  have hkey {lease : LeaseId} {key : Option Bytes} {t : Broker} (h : s.exportKey? lease = (key, t)) :
      VaultsReachable hkdf t := by
    revert h
    fun_cases Broker.exportKey? s lease <;> intro h <;> cases h <;> exact hvaults
  revert hstep
  fun_cases Broker.writeStep hkdf s r f choice pc <;> intro hstep
  all_goals try cases hstep
  all_goals first
    | exact hvaults
    | skip
  · -- writeLease
    obtain ⟨row, -, hout⟩ := Option.bind_eq_some_iff.mp hstep
    split at hout <;> cases hout
    exact hvaults
  · rename_i h
    have hvaults₁ := hkey h
    exact hvaults₁
  · rename_i h _ _
    have hvaults₁ := hkey h
    exact hvaults₁
  · rename_i h _ _ _
    have hvaults₁ := hkey h
    exact hvaults₁
  · -- writeUnlock
    obtain ⟨s₁, hstart, rfl⟩ := Option.map_eq_some_iff.mp hstep
    have hvaults₁ := hvaults.startCall hstart
    exact hvaults₁
  · exact hvaults.insideCall hstep
  · -- writeUnlocking
    obtain ⟨⟨hd, outcome⟩, -, rfl⟩ := Option.map_eq_some_iff.mp hstep
    cases outcome <;> exact hvaults
  · -- writePut
    obtain ⟨hd, -, hout⟩ := Option.bind_eq_some_iff.mp hstep
    obtain ⟨u, -, hout⟩ := Option.bind_eq_some_iff.mp hout
    simp only at hout
    split at hout
    next => cases hout; exact hvaults
    next =>
      obtain ⟨s₁, hstart, rfl⟩ := Option.map_eq_some_iff.mp hout
      have hvaults₁ := hvaults.startCall hstart
      exact hvaults₁
  · exact hvaults.insideCall hstep
  · -- writePersisting
    rename_i job existed
    obtain ⟨⟨hd, outcome⟩, -, rfl⟩ := Option.map_eq_some_iff.mp hstep
    cases outcome with
    | ok =>
      have hkept : (s.keepWritten job).vaults = s.vaults := by
        unfold Broker.keepWritten
        split <;> rfl
      exact hvaults.of_vaults hkept
    | error err => exact hvaults

/-- The handlers that make no vault call. -/
theorem otherStep (hvaults : VaultsReachable hkdf s)
    (hstep : s.logoutStep r f choice pc = some s' ∨ s.revokeStep r f choice pc = some s' ∨
      s.fetchStep r f choice pc = some s' ∨ s.loginStep r f choice pc = some s' ∨
      s.pruneStep r f choice pc = some s') : VaultsReachable hkdf s' := by
  obtain hstep | hstep | hstep | hstep | hstep := hstep
  · revert hstep
    fun_cases Broker.logoutStep s r f choice pc <;> intro hstep <;> cases hstep <;> exact hvaults
  · revert hstep
    fun_cases Broker.revokeStep s r f choice pc <;> intro hstep <;> cases hstep <;> exact hvaults
  · revert hstep
    fun_cases Broker.fetchStep s r f choice pc <;> intro hstep <;> cases hstep <;> exact hvaults
  · revert hstep
    fun_cases Broker.loginStep s r f choice pc <;> intro hstep
    all_goals try cases hstep
    all_goals first
      | exact hvaults
      | skip
    obtain ⟨row, -, rfl⟩ := Option.map_eq_some_iff.mp hstep
    exact hvaults
  · revert hstep
    fun_cases Broker.pruneStep s r f choice pc <;> intro hstep <;> cases hstep <;> exact hvaults

theorem step (hvaults : VaultsReachable hkdf s) (hstep : s.step hkdf r f choice = some s') :
    VaultsReachable hkdf s' := by
  unfold Broker.step at hstep
  split at hstep
  all_goals first
    | exact hvaults.checkStep hstep
    | exact hvaults.writeStep hstep
    | exact hvaults.otherStep (.inl hstep)
    | exact hvaults.otherStep (.inr (.inl hstep))
    | exact hvaults.otherStep (.inr (.inr (.inl hstep)))
    | exact hvaults.otherStep (.inr (.inr (.inr (.inl hstep))))
    | exact hvaults.otherStep (.inr (.inr (.inr (.inr hstep))))

end VaultsReachable

/-- **Every vault of the broker is one of `Vault.vault`**, in every run. -/
theorem vaultsReachable_of_reachable (hreach : (authBroker hkdf).Reachable s) :
    VaultsReachable hkdf s := by
  apply hreach.invariant
  · rintro _ ⟨adminKey, ttl, tenants, rfl⟩ tenant
    exact ⟨Root.init, rfl, Relation.ReflTransGen.refl⟩
  · intro t e t' hvaults _ hnext
    cases e with
    | tick elapsed => cases hnext; exact hvaults
    | arrive request =>
      cases hnext
      unfold Broker.arrive
      dsimp only
      split <;> exact hvaults
    | run r choice =>
      obtain ⟨f, -, hstep⟩ := Option.bind_eq_some_iff.mp hnext
      exact hvaults.step hstep
    | drop r =>
      obtain ⟨f, -, hdrop⟩ := Option.bind_eq_some_iff.mp hnext
      split at hdrop <;> cases hdrop
      exact hvaults

-- ════════════════════════════════════════════════════════════════════════
-- Granted secrets
-- ════════════════════════════════════════════════════════════════════════

def FetchSecret.key (secret : FetchSecret) : SecretKey := ⟨secret.service, secret.name⟩

/-- An entry as a fetch returns it. -/
def fetchEntry (e : Sigma fun _ : SecretKey => EntryEnvelope) : FetchSecret :=
  ⟨e.1.service, e.1.name, e.2.info.kind, e.2.value.payload⟩

/-- The secrets are those of the vault that the plugin may see, with their stored
    values, and each of them once. -/
structure ExactlyGranted (contents : VaultContents) (plugin : String)
    (secrets : List FetchSecret) : Prop where
  complete : ∀ key envelope, contents.entries.lookup key = some envelope →
    plugin ∈ envelope.info.allowedConsumers → fetchEntry ⟨key, envelope⟩ ∈ secrets
  sound : ∀ secret ∈ secrets, ∃ envelope, contents.entries.lookup secret.key = some envelope ∧
    plugin ∈ envelope.info.allowedConsumers ∧ secret = fetchEntry ⟨secret.key, envelope⟩
  once : (secrets.map FetchSecret.key).Nodup

/-- Every entry of a vault opens, so a fetch skips none that the plugin may see. -/
theorem fetchSecrets_eq_filter {contents : VaultContents} {master : Bytes} {plugin : String}
    (hsealed : contents.SealedUnder master) :
    Broker.fetchSecrets contents master plugin =
      (contents.entries.entries.filter fun e => e.2.info.allowedConsumers.contains plugin).map
        fetchEntry := by
  rw [Broker.fetchSecrets, ← List.filterMap_eq_map, List.filterMap_filter]
  apply List.filterMap_congr
  intro e he
  have hlook := (FiniteMap.lookup_eq_some_iff _ _ _).mpr he
  have hopen : e.2.value.open master = .ok e.2.value.payload :=
    Sealed.open_eq_ok.mpr ⟨(hsealed e.1 e.2 hlook).2, rfl⟩
  rw [hopen]
  rfl

theorem exactlyGranted_fetchSecrets {contents : VaultContents} {master : Bytes} {plugin : String}
    (hsealed : contents.SealedUnder master) :
    ExactlyGranted contents plugin (Broker.fetchSecrets contents master plugin) := by
  rw [fetchSecrets_eq_filter hsealed]
  constructor
  · intro key envelope hlook hplugin
    apply List.mem_map_of_mem
    rw [List.mem_filter]
    exact ⟨(FiniteMap.lookup_eq_some_iff _ _ _).mp hlook, List.contains_iff_mem.mpr hplugin⟩
  · intro secret hsecret
    obtain ⟨e, he, rfl⟩ := List.mem_map.mp hsecret
    rw [List.mem_filter] at he
    exact ⟨e.2, (FiniteMap.lookup_eq_some_iff _ _ _).mpr he.1, List.contains_iff_mem.mp he.2, rfl⟩
  · rw [List.map_map]
    exact contents.entries.nodupKeys.sublist List.filter_sublist

-- ════════════════════════════════════════════════════════════════════════
-- Fetches
-- ════════════════════════════════════════════════════════════════════════

/-- A check was answered with the cap, for the tenant and with the plugin of its
    path. -/
def Broker.MintedFor (s : Broker) (cap : CapId) (tenant plugin : String) : Prop :=
  ∃ r a q, s.answers.lookup r = some a ∧ a.request.Asks q ∧ a.reply = .admitted tenant cap ∧
    q.plugin = plugin

/-- A step from here answers a fetch with the cap 200. -/
def Broker.Fetches (hkdf : Bytes → Bytes → UInt8 → Bytes) (s : Broker) (cap : CapId)
    (reply : Reply) : Prop :=
  ∃ e s' r a, s.next hkdf e = some s' ∧ s.answers.lookup r = none ∧
    s'.answers.lookup r = some a ∧ a.request = .fetch (.ok cap) ∧ a.reply = reply ∧
      reply.status = 200

/-- The steps of a fetch are those of `fetch`. -/
theorem step_of_fetch {cap : CapId} (hpc : s.registry.record.PcInv (.fetch (.ok cap)) f.pc) :
    s.step hkdf r f choice = s.fetchStep r f choice f.pc := by
  unfold Broker.step
  cases hcase : f.pc with
  | fetchCap | fetchCache | fetchEvict => rfl
  | checkValidate => rw [hcase] at hpc; cases hpc.not_fetch
  | checkTenant | checkRemember | checkUnlock | checkUnlocking | checkCreate | checkCreating
  | checkCache | checkCap => rw [hcase] at hpc; cases hpc.1.not_fetch
  | _ => rw [hcase] at hpc; cases hpc

/-- The step of a handler that answers a fetch 200. -/
theorem read_of_fetchStep {cap : CapId} {a : Answer}
    (hpc : s.registry.record.PcInv (.fetch (.ok cap)) f.pc)
    (hnone : s.answers.lookup r = none) (hlook : s'.answers.lookup r = some a)
    (hstep : s.step hkdf r f choice = some s') (hok : a.reply.status = 200) :
    ∃ entry cached contents, s.registry.record.Granted cap entry ∧
      s.cache.lookup entry.cacheKey = some cached ∧
      Broker.openVault (s.vaultOf cached.tenant) cached.master = .ok contents ∧
      a.reply = .secrets ⟨cached.tenant, entry.plugin,
        Broker.fetchSecrets contents cached.master entry.plugin⟩ := by
  rw [step_of_fetch hpc] at hstep
  -- a step that answers answers with this reply
  have hreply : ∀ {t : Broker} {lease : Option LeaseId} {vaultError : Option VaultError}
      {reply : Reply}, (t.answerUnder r f lease vaultError reply).answers.lookup r = some a →
        a.reply = reply := by
    intro t lease vaultError reply h
    have h' : (t.answers.insert r _).lookup r = some a := h
    rw [AList.lookup_insert, Option.some.injEq] at h'
    rw [← h']
  have hmoves : ∀ {t : Broker} {pc : Pc}, t.answers = s.answers →
      (t.advance r f pc).answers.lookup r ≠ some a := by
    intro t pc hsame h
    have h' : t.answers.lookup r = some a := h
    rw [hsame, hnone] at h'
    cases h'
  generalize hcase : f.pc = pc at hstep hpc
  revert hstep
  fun_cases Broker.fetchStep s r f choice pc <;> intro hstep <;> cases hstep
  · rw [hreply hlook] at hok; cases hok
  · rw [hreply hlook] at hok; cases hok
  · exact absurd hlook (hmoves rfl)
  · exact absurd hlook (hmoves rfl)
  · exact absurd hlook (hmoves rfl)
  · exact absurd hlook (hmoves rfl)
  · exact absurd hlook (hmoves rfl)
  · -- the vault opens
    rename_i entry cached hcached _ contents hopen _
    obtain ⟨cap', hrequest, hgranted⟩ := hpc
    cases hrequest
    exact ⟨entry, cached, contents, hgranted, hcached, hopen, hreply hlook⟩
  · rw [hreply hlook] at hok; cases hok

/-- A fetch that is answered 200 has read a vault file in this step. -/
theorem Broker.Fetches.read {cap : CapId} {reply : Reply} (hfetch : s.Fetches hkdf cap reply)
    (inv : RegistryInv s.registry) :
    ∃ entry cached contents, s.registry.record.Granted cap entry ∧
      s.cache.lookup entry.cacheKey = some cached ∧
      openVault (s.vaultOf cached.tenant) cached.master = .ok contents ∧
      reply = .secrets ⟨cached.tenant, entry.plugin,
        fetchSecrets contents cached.master entry.plugin⟩ := by
  obtain ⟨e, s', r, a, hnext, hnone, hlook, hrequest, hreply, hok⟩ := hfetch
  cases e with
  | tick elapsed =>
    cases hnext
    rw [hnone] at hlook
    cases hlook
  | drop r' =>
    obtain ⟨f, -, hdrop⟩ := Option.bind_eq_some_iff.mp hnext
    split at hdrop <;> cases hdrop
    rw [hnone] at hlook
    cases hlook
  | arrive request =>
    cases hnext
    revert hlook
    unfold Broker.arrive
    dsimp only
    split
    next reply' hentry =>
      intro hlook
      have hlook' : (s.answers.insert s.arrivals _).lookup r = some a := hlook
      rw [FiniteMap.lookup_insert_ite] at hlook'
      split at hlook'
      next =>
        cases hlook'
        have hfetch : request = .fetch (.ok cap) := hrequest
        subst hfetch
        cases hentry
      next => rw [hnone] at hlook'; cases hlook'
    next pc hentry =>
      intro hlook
      have hlook' : s.answers.lookup r = some a := hlook
      rw [hnone] at hlook'
      cases hlook'
  | run r' choice =>
    obtain ⟨f, hflight, hstep⟩ := Option.bind_eq_some_iff.mp hnext
    have hpc := (inv.flights r' f hflight).2.2
    cases (turn_of_step hstep).flights with
    | stays _ hanswers => rw [hanswers, hnone] at hlook; cases hlook
    | moves _ _ hanswers _ => rw [hanswers, hnone] at hlook; cases hlook
    | ends _ hanswers => rw [hanswers, hnone] at hlook; cases hlook
    | replies a' _ hanswers hrequest' =>
      have hlook' := hlook
      rw [hanswers, FiniteMap.lookup_insert_ite] at hlook'
      split at hlook'
      next heq =>
        cases hlook'
        subst heq
        rw [← hrequest', hrequest] at hpc
        rw [← hreply] at hok ⊢
        exact read_of_fetchStep hpc hnone hlook hstep hok
      next => rw [hnone] at hlook'; cases hlook'

/-- What a fetch answers is read off the vault of the tenant its cap was minted
    for, and off nothing else. -/
theorem Broker.Fetches.granted {cap : CapId} {tenant plugin : String} {reply : Reply}
    (hfetch : s.Fetches hkdf cap reply) (hreach : (authBroker hkdf).Reachable s)
    (hminted : s.MintedFor cap tenant plugin) :
    ∃ file, (s.vaultOf tenant).file = some file ∧
      file.body.payload.SealedUnder file.body.key ∧
      reply = .secrets ⟨tenant, plugin,
        fetchSecrets file.body.payload file.body.key plugin⟩ := by
  have inv := registryInv_of_reachable hreach
  obtain ⟨entry, cached, contents, hgranted, hcached, hopen, rfl⟩ := hfetch.read inv
  -- the cap was granted once, for this tenant and plugin
  obtain ⟨r, a, q, hlook, hasks, hreply, rfl⟩ := hminted
  obtain ⟨r', a', hlook', hgrants⟩ := hgranted
  have hr := inv.unique r r' a a' _ _ cap hlook hlook' hreply hgrants.reply
  have hsame : some a' = some a := by
    rw [← hlook, hr]
    exact hlook'.symm
  cases hsame
  obtain ⟨q', hasks', -, -, hplugin⟩ := hgrants.asked
  have hq := hasks.unique hasks'
  subst hq
  have hkey : entry.cacheKey.tenant = tenant :=
    (Reply.admitted.inj (hgrants.reply.symm.trans hreply)).1
  have htenant : cached.tenant = tenant := (inv.cached _ cached hcached).trans hkey
  rw [htenant] at hopen ⊢
  unfold openVault at hopen
  split at hopen
  next => cases hopen
  next file hfile =>
    have hbody := VaultFile.openWithKey_eq_ok hopen
    have hsealed := (sealed_under (vaultsReachable_of_reachable hreach tenant)).file file hfile
    refine ⟨file, hfile, hsealed, ?_⟩
    rw [hbody, hplugin]

/-- **A cap yields exactly its plugin's secrets.**  The answer to a fetch with a
    cap that was minted for a tenant and a plugin holds every secret of the
    tenant's vault that the plugin may see, as the vault stands at this step, with
    its stored value, once, and nothing else; two fetches with caps for the same
    tenant and plugin whose vault files agree are answered alike, whatever the
    other tenants' vaults, cache entries and caps are. -/
theorem cap_yields_plugin_secrets (hkdf : Bytes → Bytes → UInt8 → Bytes) :
    (∀ s cap tenant plugin reply, (authBroker hkdf).Reachable s → s.MintedFor cap tenant plugin →
      s.Fetches hkdf cap reply →
        ∃ file response, (s.vaultOf tenant).file = some file ∧ reply = .secrets response ∧
          response.tenant = tenant ∧ response.plugin = plugin ∧
          ExactlyGranted file.body.payload plugin response.secrets) ∧
    ∀ s s' cap cap' tenant plugin reply reply', (authBroker hkdf).Reachable s →
      (authBroker hkdf).Reachable s' → s.MintedFor cap tenant plugin →
      s'.MintedFor cap' tenant plugin → (s.vaultOf tenant).file = (s'.vaultOf tenant).file →
      s.Fetches hkdf cap reply → s'.Fetches hkdf cap' reply' → reply = reply' := by
  constructor
  · intro s cap tenant plugin reply hreach hminted hfetch
    obtain ⟨file, hfile, hsealed, rfl⟩ := hfetch.granted hreach hminted
    exact ⟨file, _, hfile, rfl, rfl, rfl, exactlyGranted_fetchSecrets hsealed⟩
  · intro s s' cap cap' tenant plugin reply reply' hreach hreach' hminted hminted' hsame hfetch hfetch'
    obtain ⟨file, hfile, -, rfl⟩ := hfetch.granted hreach hminted
    obtain ⟨file', hfile', -, rfl⟩ := hfetch'.granted hreach' hminted'
    rw [hsame, hfile', Option.some.injEq] at hfile
    rw [hfile]

/-- A tenant stores a secret for the echo plugin and one for another. -/
private def storeRun (r : Nat) (name : String) (consumer : String) : List Event :=
  [.arrive (.store ⟨"acme", ⟨"github.com", name⟩, some .apiKey, some [1, 2], [consumer], [], false⟩),
    .run r .ok, .run r (.row 105), .run r .ok, .run r .ok, .run r .ok, .run r (.vault .peek),
    .run r .ok, .run r .ok, .run r (.vault .acquire), .run r (.vault .check),
    .run r (.vault .replace), .run r (.vault .bump), .run r .ok]

/-- A cap is minted, two secrets are stored, and a fetch with the cap is about to
    read the vault. -/
private def fetchingRun : List Event :=
  Sample.loginRun 0 5 ++ Sample.checkHead 1 5 ++ Sample.createRun 1 ++ Sample.checkTail 1 77 ++
    storeRun 2 "pat" "echo" ++ storeRun 3 "ssh" "git" ++ [.arrive (.fetch (.ok 77)), .run 4 .ok]

private def echoReply : Reply :=
  .secrets ⟨"acme", "echo", [⟨"github.com", "pat", .apiKey, [1, 2]⟩]⟩

/-- Request `check` was answered with the cap, and the next step of request
    `fetch` answers with the secret of the echo plugin. -/
private def readyToFetch (s : Broker) (check fetch : Nat) (cap : CapId) : Bool :=
  ((s.answers.lookup check).any fun a => a.reply = .admitted "acme" cap &&
    match a.request with
    | .check (some path) token =>
      path = .mcp "acme" "main" "echo" && RequestCap.bearer token = some (Sample.bearer 5)
    | _ => false) &&
  (s.answers.lookup fetch).isNone &&
  (s.next Sample.hkdf (.run fetch .ok)).any fun s' =>
    (s'.answers.lookup fetch).any fun a => a.reply = echoReply &&
      match a.request with
      | .fetch (.ok other) => other = cap
      | _ => false

private theorem readyToFetch_spec {check fetch : Nat} {cap : CapId}
    (h : readyToFetch s check fetch cap = true) :
    s.MintedFor cap "acme" "echo" ∧ s.Fetches Sample.hkdf cap echoReply := by
  simp only [readyToFetch, Bool.and_eq_true, Option.any_eq_true, decide_eq_true_eq] at h
  obtain ⟨⟨⟨a, hlook, hreply, hrequest⟩, hnone⟩, s', hnext, a', hlook', hreply', hrequest'⟩ := h
  constructor
  · split at hrequest
    next path token heq =>
      simp only [Bool.and_eq_true, decide_eq_true_eq] at hrequest
      obtain ⟨rfl, hbearer⟩ := hrequest
      exact ⟨check, a, ⟨some "acme", "main", "echo", Sample.bearer 5⟩, hlook,
        ⟨_, token, heq, hbearer, rfl⟩, hreply, rfl⟩
    next => cases hrequest
  · split at hrequest'
    next other heq =>
      rw [of_decide_eq_true hrequest'] at heq
      exact ⟨_, s', fetch, a', hnext, Option.isNone_iff_eq_none.mp hnone, hlook', heq, hreply', rfl⟩
    next => cases hrequest'

theorem cap_yields_plugin_secrets_stored_run :
    ∃ (s : Broker) (file : VaultFile), s.Fetches Sample.hkdf 77 echoReply ∧
      (s.vaultOf "acme").file = some file ∧
      ExactlyGranted file.body.payload "echo" [⟨"github.com", "pat", .apiKey, [1, 2]⟩] ∧
      ∀ reply, s.Fetches Sample.hkdf 77 reply → reply = echoReply := by
  have hexec : ((authBroker Sample.hkdf).execUnder (fun _ _ => True) Sample.start
      fetchingRun).any (readyToFetch · 1 4 77) = true := by decide +kernel
  obtain ⟨s, hrun, hs⟩ := Machine.exists_run_of_execUnder _ hexec
  have hreach : (authBroker Sample.hkdf).Reachable s := ⟨Sample.start, ⟨_, _, _, rfl⟩, hrun⟩
  obtain ⟨hminted, hfetch⟩ := readyToFetch_spec hs
  obtain ⟨file, response, hfile, hreply, -, -, hgranted⟩ :=
    (cap_yields_plugin_secrets Sample.hkdf).1 s 77 "acme" "echo" echoReply hreach hminted hfetch
  cases hreply
  refine ⟨s, file, hfetch, hfile, hgranted, fun reply hfetch' => ?_⟩
  exact (cap_yields_plugin_secrets Sample.hkdf).2 s s 77 77 "acme" "echo" reply echoReply hreach
    hreach hminted hminted rfl hfetch' hfetch

end Botwork.AuthBroker
