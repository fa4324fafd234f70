import Botwork.AuthBroker.Requests
import Botwork.Foundations.Base64
import Botwork.Foundations.WebUrl

/-!
# The routes of the secret store

The router of the internal listener: which handler a request reaches, and with
what.  Segments are decoded after routing.

## Main definitions

- `StoreRequest.ofJson` — the body of `POST /secrets`
- `secretsRouter` — the router and its extractors
- `addressed` — the secret a request writes or deletes
-/

namespace Botwork.AuthBroker

open Botwork.Foundations Botwork.Vault

/-- `SecretKind::from_str`. -/
def parseSecretKind (text : String) : Option SecretKind :=
  if text = "ssh-private-key" ∨ text = "SshPrivateKey" then some .sshPrivateKey
  else if text = "ssh-public-key" ∨ text = "SshPublicKey" then some .sshPublicKey
  else if text = "api-key" ∨ text = "ApiKey" then some .apiKey
  else if text = "oauth-token" ∨ text = "OauthToken" then some .oauthToken
  else if text = "pem" ∨ text = "Pem" then some .pem
  else if text = "password" ∨ text = "Password" then some .password
  else if text = "opaque" ∨ text = "Opaque" then some .opaqueBytes
  else none

-- ════════════════════════════════════════════════════════════════════════
-- Bodies
-- ════════════════════════════════════════════════════════════════════════

/-- A member of an object, read by `read`; a missing one is the default, if there
    is one, and one that stands there twice is refused. -/
def jsonField {α : Type} (members : List (String × Json)) (key : String) (default : Option α)
    (read : Json → Option α) : Option α :=
  match members.filter fun member => member.1 = key with
  | [] => default
  | [(_, value)] => read value
  | _ => none

def jsonTexts : Json → Option (List String)
  | .array items => items.mapM Json.asStr
  | _ => none

def jsonBool : Json → Option Bool
  | .bool b => some b
  | _ => none

def StoreRequest.ofJson : Json → Option StoreRequest
  | .object members => do
    let tenant ← jsonField members "tenant" none Json.asStr
    let service ← jsonField members "service" none Json.asStr
    let name ← jsonField members "name" none Json.asStr
    let kind ← jsonField members "kind" none Json.asStr
    let value ← jsonField members "value_b64" none Json.asStr
    let allowedConsumers ← jsonField members "allowed_consumers" (some []) jsonTexts
    let tags ← jsonField members "tags" (some []) jsonTexts
    let overwrite ← jsonField members "overwrite" (some false) jsonBool
    return {
      tenant := tenant
      key := ⟨service, name⟩
      kind := parseSecretKind kind
      value := Base64.decode value
      allowedConsumers := allowedConsumers
      tags := tags
      overwrite := overwrite }
  | _ => none

-- ════════════════════════════════════════════════════════════════════════
-- Routing
-- ════════════════════════════════════════════════════════════════════════

/-- `Query<DeleteQuery>`: the tenant, which must stand there once. -/
def deleteQuery (query : Option (List UInt8)) : Option String :=
  match (formPairs (query.getD [])).filter fun pair => pair.1 = "tenant" with
  | [(_, tenant)] => some tenant
  | _ => none

/-- The extractors of `delete_secret`. -/
def extractDelete (service name : List UInt8) (query : Option (List UInt8)) : Option Request := do
  let service ← fromUtf8 (percentDecode service)
  let name ← fromUtf8 (percentDecode name)
  let tenant ← deleteQuery query
  return .deleteSecret tenant ⟨service, name⟩

/-- The request a handler gets, or the status of an answer without one. -/
def secretsRouter (request : HttpRequest) : Except Nat Request :=
  match (request.path.splitOn (ascii '/')).tail with
  | [segment] =>
    if segment = asciiText "secrets" then
      if request.method ≠ .post then .error 405
      else
        match request.body.bind StoreRequest.ofJson with
        | some body => .ok (.store body)
        | none => .error 422
    else if segment = asciiText "health" then .error (if request.method = .get then 200 else 405)
    else .error 404
  | [segment, service, name] =>
    if segment ≠ asciiText "secrets" then .error 404
    else if request.method ≠ .delete then .error 405
    else
      match extractDelete service name request.query with
      | some request => .ok request
      | none => .error 400
  | _ => .error 404

/-- The tenant whose vault a request writes. -/
def Request.vaultTenant : Request → Option String
  | .store body => some body.tenant
  | .deleteSecret tenant _ => some tenant
  | _ => none

/-- The secret a request stores or deletes when nothing refuses it. -/
def addressed (request : HttpRequest) (unixNow : Int) : Option (String × SecretKey) := do
  let request ← (secretsRouter request).toOption
  let tenant ← request.vaultTenant
  let (write, _) ← (request.secretWrite unixNow).toOption
  return (tenant, write.key)

-- ════════════════════════════════════════════════════════════════════════
-- Deletions
-- ════════════════════════════════════════════════════════════════════════

variable {url : WebUrl} {query : Option (List UInt8)} {body : Option Json} {unixNow : Int}

/-- A deletion with fewer segments reaches no handler. -/
theorem addressed_of_length_le (hslash : ∀ segment ∈ url.path, ascii '/' ∉ segment)
    (hlength : url.path.length ≤ 2) :
    addressed ⟨.delete, url.pathText, query, body⟩ unixNow = none := by
  have hrouter : ∃ status, secretsRouter ⟨.delete, url.pathText, query, body⟩ = .error status := by
    simp only [secretsRouter, WebUrl.splitOn_pathText hslash, List.tail_cons]
    match url.path, hlength with
    | [], _ => exact ⟨404, rfl⟩
    | [segment], _ =>
      by_cases hsecrets : segment = asciiText "secrets"
      · exact ⟨405, if_pos hsecrets⟩
      · by_cases hhealth : segment = asciiText "health"
        · exact ⟨405, (if_neg hsecrets).trans (if_pos hhealth)⟩
        · exact ⟨404, (if_neg hsecrets).trans (if_neg hhealth)⟩
    | [_, _], _ => exact ⟨404, rfl⟩
  obtain ⟨status, hstatus⟩ := hrouter
  rw [addressed, hstatus]
  rfl

/-- A write of a body is one of its key. -/
theorem key_of_secretWrite_store {body : StoreRequest} {write : Write × Bool}
    (h : (Request.store body).secretWrite unixNow = .ok write) : write.1.key = body.key := by
  rw [Request.secretWrite] at h
  split at h
  next => cases h
  next =>
    split at h
    next => cases h
    next =>
      split at h
      next => cases h
      next => cases h
      next => cases h; rfl

theorem secretWrite_deleteSecret {tenant : String} {key : SecretKey} {write : Write × Bool} :
    (Request.deleteSecret tenant key).secretWrite unixNow = .ok write ↔
      key.validate = .ok () ∧ write = (.delete key, true) := by
  rw [Request.secretWrite, SecretKey.validate]
  cases validateService key.service with
  | error err => simp [Except.toBool, bind, Except.bind]
  | ok => cases Vault.validateName key.name with
    | error err => simp [Except.toBool, bind, Except.bind]
    | ok => simp [Except.toBool, bind, Except.bind, eq_comm]

theorem extractDelete_eq_some {service name : List UInt8} {request : Request} :
    extractDelete service name query = some request ↔ ∃ tenant key,
      percentDecode service = Text.utf8 key.service ∧ percentDecode name = Text.utf8 key.name ∧
        deleteQuery query = some tenant ∧ request = .deleteSecret tenant key := by
  simp only [extractDelete, Option.bind_eq_bind, Option.bind_eq_some_iff, fromUtf8_eq_some,
    Option.pure_def, Option.some.injEq]
  constructor
  · rintro ⟨s, hs, n, hn, tenant, htenant, rfl⟩
    exact ⟨tenant, ⟨s, n⟩, hs, hn, htenant, rfl⟩
  · rintro ⟨tenant, ⟨s, n⟩, hs, hn, htenant, rfl⟩
    exact ⟨s, hs, n, hn, tenant, htenant, rfl⟩

/-- A deletion deletes the key that its two segments spell, if that is valid. -/
theorem addressed_eq_some {service name : List UInt8} {target : String × SecretKey}
    (hslash : ∀ segment ∈ url.path, ascii '/' ∉ segment)
    (hpath : url.path = [asciiText "secrets", service, name]) :
    addressed ⟨.delete, url.pathText, query, body⟩ unixNow = some target ↔
      percentDecode service = Text.utf8 target.2.service ∧
        percentDecode name = Text.utf8 target.2.name ∧
          deleteQuery query = some target.1 ∧ target.2.validate = .ok () := by
  have hrouter : (secretsRouter ⟨.delete, url.pathText, query, body⟩).toOption =
      extractDelete service name query := by
    simp only [secretsRouter, WebUrl.splitOn_pathText hslash, List.tail_cons, hpath]
    cases extractDelete service name query <;> rfl
  rw [addressed, hrouter]
  simp only [Option.bind_eq_bind, Option.bind_eq_some_iff, extractDelete_eq_some]
  constructor
  · rintro ⟨request, ⟨tenant, key, hs, hn, htenant, rfl⟩, tenant', htenant', write, hwrite, htarget⟩
    cases htenant'
    cases hsecret : (Request.deleteSecret tenant key).secretWrite unixNow with
    | error reply => rw [hsecret] at hwrite; cases hwrite
    | ok written =>
      obtain ⟨hvalid, rfl⟩ := secretWrite_deleteSecret.mp hsecret
      rw [hsecret] at hwrite
      cases hwrite
      cases htarget
      exact ⟨hs, hn, htenant, hvalid⟩
  · rintro ⟨hs, hn, htenant, hvalid⟩
    refine ⟨_, ⟨target.1, target.2, hs, hn, htenant, rfl⟩, target.1, rfl, (.delete target.2, true),
      ?_, rfl⟩
    rw [secretWrite_deleteSecret.mpr ⟨hvalid, rfl⟩]
    rfl

/-- The tenant that is added to a query without one is the one that is read. -/
theorem deleteQuery_appendPair (url : WebUrl) (tenant : String) :
    deleteQuery (url.appendPair "tenant" tenant).query =
      if (formPairs (url.query.getD [])).all fun pair => pair.1 ≠ "tenant" then some tenant
      else none := by
  rw [deleteQuery, formPairs_appendPair, List.filter_append]
  have hadded : ([("tenant", tenant)].filter fun pair : String × String => pair.1 = "tenant") =
      [("tenant", tenant)] := rfl
  rw [hadded]
  by_cases hall : (formPairs (url.query.getD [])).all fun pair => pair.1 ≠ "tenant"
  · have hnone : ((formPairs (url.query.getD [])).filter fun pair => pair.1 = "tenant") = [] := by
      simpa using hall
    rw [hnone, if_pos hall]
    rfl
  · have hsome : ((formPairs (url.query.getD [])).filter fun pair => pair.1 = "tenant") ≠ [] := by
      simpa using hall
    rw [if_neg hall]
    obtain ⟨pair, pairs, hpairs⟩ := List.exists_cons_of_ne_nil hsome
    rw [hpairs]
    cases pairs <;> rfl

end Botwork.AuthBroker
