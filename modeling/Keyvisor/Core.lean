import Keyvisor.Foundation.BigEndian

/-!
# Shared key types

The domain types of `keyvisor-core` and the TPM boundary types of `keyvisor-tpm`
that every other component exchanges. Rust strings are Lean strings: both hold
well-formed UTF-8 by construction. Byte vectors are byte lists.
-/

namespace Keyvisor

open Foundation

/-- Stable identifier assigned to a TPM-backed key. -/
structure KeyId where
  value : String
  deriving DecidableEq, Repr

/-- The serialized identifier. -/
def KeyId.asStr (id : KeyId) : String := id.value

/-- `KeyAlgorithm`. -/
inductive KeyAlgorithm where
  | ecdsaNistP256
  | ecdsaNistP384
  deriving DecidableEq, Repr

namespace KeyAlgorithm

/-- The OpenSSH key type. -/
def sshKeyType : KeyAlgorithm → String
  | ecdsaNistP256 => "ecdsa-sha2-nistp256"
  | ecdsaNistP384 => "ecdsa-sha2-nistp384"

/-- The SSH curve identifier. -/
def sshCurveName : KeyAlgorithm → String
  | ecdsaNistP256 => "nistp256"
  | ecdsaNistP384 => "nistp384"

/-- The required signing digest length in bytes. -/
def digestSize : KeyAlgorithm → Nat
  | ecdsaNistP256 => 32
  | ecdsaNistP384 => 48

/-- The fixed width of an ECDSA scalar or public coordinate. -/
def ecdsaComponentSize : KeyAlgorithm → Nat
  | ecdsaNistP256 => 32
  | ecdsaNistP384 => 48

end KeyAlgorithm

/-- Authorization mode selected when a TPM signing object is created. -/
inductive KeyUsePolicy where
  | noPin
  | tpmPin
  deriving DecidableEq, Repr

/-- Public, display-safe information about a signing key. -/
structure KeySummary where
  id : KeyId
  name : String
  algorithm : KeyAlgorithm
  usePolicy : KeyUsePolicy
  publicKey : Bytes
  deriving DecidableEq, Repr

/-- Authorization supplied to one TPM command. -/
inductive TpmAuthorization where
  | none
  | pin (value : Bytes)
  deriving DecidableEq, Repr

/-- A serialized reference to a TPM object; the private part is wrapped. -/
structure TpmObject where
  «public» : Bytes
  wrappedPrivate : Bytes
  parentName : Bytes
  usePolicy : KeyUsePolicy
  deriving DecidableEq, Repr

/-- Errors surfaced at the TPM trust boundary. -/
inductive TpmError where
  | unavailable
  | unsupportedAlgorithm
  | invalidAuthorization
  | authorizationFailed
  | dictionaryAttackLockout
  | policyFailed
  | invalidObject
  | transport
  deriving DecidableEq, Repr

/-- The text of a TPM error. -/
def TpmError.message : TpmError → String
  | unavailable => "TPM is unavailable"
  | unsupportedAlgorithm => "this TPM does not support the requested key algorithm"
  | invalidAuthorization => "TPM authorization is invalid"
  | authorizationFailed => "TPM authorization failed"
  | dictionaryAttackLockout => "TPM dictionary-attack lockout is active"
  | policyFailed => "TPM policy check failed"
  | invalidObject => "TPM object metadata is invalid"
  | transport => "TPM transport failed"

end Keyvisor
