import Botwork.Api.Writes
import Botwork.Foundations.WebUrl
import Botwork.Vault.Contents

/-!
# Secret writes of the API

The two secret routes of the API and the client that forwards them to the secret
store.  Strings stand here as the path extractor and the JSON parser yield them.

## Main definitions

- `requireSecretComponent` — the check of a service or a name
- `SecretCall.send` — the request a call sends, and the secret it reports
-/

namespace Botwork.Api

open Botwork.Foundations Botwork.ApiCore Botwork.Vault

/-- `ENDPOINT_DEFAULT`. -/
def secretStoreEndpoint : String := "http://secret_store:9101"

def requireSecretComponent (field value : String) : Except ApiError String :=
  let trimmed := Text.trim value
  if trimmed = "" then .error (.validationFailed (field ++ " must be a non-blank string"))
  else if '/' ∈ trimmed.toList ∨ '\\' ∈ trimmed.toList ∨ '\x00' ∈ trimmed.toList ∨
      trimmed.toList.head? = some '.' ∨ 128 < (Text.utf8 trimmed).length then
    .error (.validationFailed (field ++ " contains forbidden characters or is too long"))
  else .ok trimmed

structure SecretCreate where
  service : String
  name : String
  kind : String
  valueB64 : String
  allowedConsumers : List String
  tags : List String
  overwrite : Bool

structure PutSecretRequest where
  tenant : String
  service : String
  name : String
  kind : String
  valueB64 : String
  allowedConsumers : List String
  tags : List String
  overwrite : Bool

def PutSecretRequest.json (req : PutSecretRequest) : Json :=
  .object [("tenant", .string req.tenant), ("service", .string req.service),
    ("name", .string req.name), ("kind", .string req.kind), ("value_b64", .string req.valueB64),
    ("allowed_consumers", .array (req.allowedConsumers.map .string)),
    ("tags", .array (req.tags.map .string)), ("overwrite", .bool req.overwrite)]

/-- The request that is sent for a URL. -/
def requestTo (method : Method) (url : String) (pairs : List (String × String))
    (body : Option Json) : Option HttpRequest :=
  (WebUrl.parse (Text.utf8 url)).map fun parsed =>
    let parsed := pairs.foldl (fun url pair => url.appendPair pair.1 pair.2) parsed
    { method := method
      path := parsed.pathText
      query := parsed.query
      body := body }

/-- `put_secret`. -/
def putSecret (req : PutSecretRequest) : Option HttpRequest :=
  requestTo .post (secretStoreEndpoint ++ "/secrets") [] (some req.json)

/-- `delete_secret`: the service and the name go into the URL as they are. -/
def deleteSecret (tenant service name : String) : Option HttpRequest :=
  requestTo .delete (secretStoreEndpoint ++ "/secrets/" ++ service ++ "/" ++ name)
    [("tenant", tenant)] none

/-- A call of a secret route: the tenant is the one of the path. -/
inductive SecretCall where
  | create (tenant : String) (body : SecretCreate)
  | delete (tenant service name : String)

/-- What is sent, and the tenant and the secret that the answer and the audit log
    then name. -/
structure SentSecret where
  request : Option HttpRequest
  reported : String × SecretKey

/-- The handlers `create_secret` and `delete_secret` up to the answer of the store. -/
def SecretCall.send (caller : Caller) : SecretCall → Except ApiError SentSecret
  | .create tenant body => do
    checkTenantConsistency caller tenant
    let service ← requireSecretComponent "service" body.service
    let name ← requireSecretComponent "name" body.name
    let req : PutSecretRequest :=
      { tenant := tenant
        service := service
        name := name
        kind := body.kind
        valueB64 := body.valueB64
        allowedConsumers := body.allowedConsumers
        tags := body.tags
        overwrite := body.overwrite }
    return ⟨putSecret req, (tenant, ⟨service, name⟩)⟩
  | .delete tenant service name => do
    checkTenantConsistency caller tenant
    let service ← requireSecretComponent "service" service
    let name ← requireSecretComponent "name" name
    return ⟨deleteSecret tenant service name, (tenant, ⟨service, name⟩)⟩

-- ════════════════════════════════════════════════════════════════════════
-- Acceptance
-- ════════════════════════════════════════════════════════════════════════

/-- What a service or a name that passes the check does not contain. -/
structure AcceptedComponent (s : String) : Prop where
  ne_empty : s ≠ ""
  noSlash : '/' ∉ s.toList
  noBackslash : '\\' ∉ s.toList

theorem requireSecretComponent_eq_ok {field value s : String}
    (h : requireSecretComponent field value = .ok s) : s = Text.trim value ∧ AcceptedComponent s := by
  unfold requireSecretComponent at h
  simp only at h
  split at h
  next => cases h
  next hne =>
    split at h
    next => cases h
    next hfree =>
      simp only [not_or] at hfree
      cases h
      exact ⟨rfl, hne, hfree.1, hfree.2.1⟩

end Botwork.Api
