import Botwork.AuthBroker.Broker
import Botwork.Foundations.Fallible

/-!
# OPAQUE

The server's half of the OPAQUE handshake, over a parameter for the library that
implements the protocol.

## Main definitions

- `OpaqueKe` — the library
- `OpaqueKe.Ideal` — what the broker relies on
- `OpaqueKe.loginStart`, `OpaqueKe.loginFinish` — the two steps of a login
-/

namespace Botwork.AuthBroker

open Botwork.Foundations Botwork.Vault

/-- `opaque_ke::errors::InternalError`; the other members are kept as their debug
    text. -/
inductive InternalError where
  | invalidByteSequence
  | sizeError
  | pointError
  | oprfError
  | other (debug : String)

/-- `opaque_ke::errors::ProtocolError`. -/
inductive ProtocolError where
  | invalidLoginError
  | serializationError
  | reflectedValueError
  | libraryError (err : InternalError)
  | other (debug : String)

inductive OpaqueError where
  | invalidLogin
  | serialization (detail : String)
  | reflected
  | internal (detail : String)

def OpaqueError.fromProtocol : ProtocolError → OpaqueError
  | .invalidLoginError => .invalidLogin
  | .serializationError => .serialization "opaque_ke deserialize"
  | .reflectedValueError => .reflected
  | .libraryError .invalidByteSequence => .serialization "invalid byte sequence"
  | .libraryError .sizeError => .serialization "size mismatch"
  | .libraryError .pointError => .serialization "invalid group element"
  | .libraryError .oprfError => .serialization "OPRF message deserialize"
  | .libraryError (.other debug) => .internal ("LibraryError(" ++ debug ++ ")")
  | .other debug => .internal debug

def OpaqueError.display : OpaqueError → String
  | .invalidLogin => "invalid login"
  | .serialization detail => "malformed OPAQUE message: " ++ detail
  | .reflected => "reflected OPRF value"
  | .internal detail => "OPAQUE internal error: " ++ detail

/-- The operations of `opaque_ke` that the broker calls, at its ciphersuite. -/
structure OpaqueKe where
  ServerSetup : Type
  ServerRegistration : Type
  RegistrationUpload : Type
  CredentialRequest : Type
  CredentialResponse : Type
  CredentialFinalization : Type
  ServerLogin : Type
  /-- what a random generator yields -/
  Coins : Type
  deserializeSetup : Bytes → Except ProtocolError ServerSetup
  deserializeRegistration : Bytes → Except ProtocolError ServerRegistration
  serializeRegistration : ServerRegistration → Bytes
  deserializeUpload : Bytes → Except ProtocolError RegistrationUpload
  deserializeRequest : Bytes → Except ProtocolError CredentialRequest
  serializeResponse : CredentialResponse → Bytes
  deserializeFinalization : Bytes → Except ProtocolError CredentialFinalization
  serializeLogin : ServerLogin → Bytes
  deserializeLogin : Bytes → Except ProtocolError ServerLogin
  /-- `ServerRegistration::finish` -/
  finishRegistration : RegistrationUpload → ServerRegistration
  /-- `ServerLogin::start` -/
  start : Coins → ServerSetup → Option ServerRegistration → CredentialRequest → Bytes →
    Except ProtocolError (ServerLogin × CredentialResponse)
  /-- `ServerLogin::finish`, with the session key -/
  finish : ServerLogin → CredentialFinalization → Except ProtocolError Bytes

/-- An ideal implementation: the state of a login survives its serialisation, and
    no finalisation completes a login that was started without a registration. -/
structure OpaqueKe.Ideal (K : OpaqueKe) : Prop where
  deserialize_serialize : ∀ login, K.deserializeLogin (K.serializeLogin login) = .ok login
  dummy : ∀ coins setup request credential login response,
    K.start coins setup none request credential = .ok (login, response) →
      ∀ finalization, K.finish login finalization = .error .invalidLoginError

/-- A registration as the database has it. -/
structure PasswordFile where
  bytes : Bytes
  deriving DecidableEq

namespace OpaqueKe

variable (K : OpaqueKe)

/-- `PasswordFile::from_bytes`. -/
def passwordFile (bytes : Bytes) : Except OpaqueError PasswordFile :=
  ((K.deserializeRegistration bytes).map fun parsed => ⟨K.serializeRegistration parsed⟩).mapError
    .fromProtocol

def toRegistration (file : PasswordFile) : Except OpaqueError K.ServerRegistration :=
  (K.deserializeRegistration file.bytes).mapError .fromProtocol

def registrationFinish (upload : K.RegistrationUpload) : PasswordFile :=
  ⟨K.serializeRegistration (K.finishRegistration upload)⟩

def loginStart (coins : K.Coins) (setup : Bytes) (file : Option PasswordFile)
    (request : K.CredentialRequest) (credential : Bytes) :
    Except OpaqueError (K.ServerLogin × K.CredentialResponse) := do
  let inner ← (K.deserializeSetup setup).mapError .fromProtocol
  let record ← file.mapM K.toRegistration
  (K.start coins inner record request credential).mapError .fromProtocol

def loginFinish (login : K.ServerLogin) (finalization : K.CredentialFinalization) :
    Except OpaqueError Bytes :=
  (K.finish login finalization).mapError .fromProtocol

variable {K}

/-- A login that was started for no password file cannot be finished. -/
theorem Ideal.loginFinish_of_none (ideal : K.Ideal) {coins : K.Coins} {setup credential : Bytes}
    {request : K.CredentialRequest} {login : K.ServerLogin} {response : K.CredentialResponse}
    (hstart : K.loginStart coins setup none request credential = .ok (login, response))
    (finalization : K.CredentialFinalization) :
    K.loginFinish login finalization = .error .invalidLogin := by
  obtain ⟨inner, -, hrest⟩ := bind_eq_ok.mp hstart
  obtain ⟨record, hrecord, hrun⟩ := bind_eq_ok.mp hrest
  cases hrecord
  have hdummy := ideal.dummy _ _ _ _ _ _ (mapError_eq_ok.mp hrun) finalization
  rw [loginFinish, hdummy]
  rfl

end OpaqueKe

end Botwork.AuthBroker
