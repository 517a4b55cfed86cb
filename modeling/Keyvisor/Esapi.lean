import Keyvisor.Core
import Keyvisor.Foundation.Program
import Keyvisor.Foundation.Text

/-!
# The ESAPI signer

Executable translation of `keyvisor-tpm/src/esapi.rs`: creating a key and signing
with one, that is, the checks before a command, loading the wrapped object, the
salted session around each command and the release of what was loaded. The ESAPI
context is the environment: every command is an operation and its answer is
unconstrained.

The pure conversions of the `tss-esapi` crate (unmarshalling a public area, filling
the bounded buffers, building and marshalling a template) are not part of the
repository; they are the parameters collected in `Tss` and `Builders`.
-/

namespace Keyvisor.Esapi

open Foundation Foundation.Text

/-- The hash algorithms of the two kinds of keys. -/
inductive HashingAlgorithm where
  | sha256
  | sha384
  | other
  deriving DecidableEq, Repr

/-- The curves of the two kinds of keys. -/
inductive EccCurve where
  | nistP256
  | nistP384
  | other
  deriving DecidableEq, Repr

/-- The signature schemes. -/
inductive EccScheme where
  | ecDsa (hash : HashingAlgorithm)
  | other
  deriving DecidableEq, Repr

/-- The attributes of a public area that the signer inspects. -/
structure ObjectAttributes where
  fixedTpm : Bool
  fixedParent : Bool
  sensitiveDataOrigin : Bool
  userWithAuth : Bool
  noDa : Bool
  restricted : Bool
  decrypt : Bool
  signEncrypt : Bool
  deriving DecidableEq, Repr

/-- A public area; only the ECC variant is distinguished. -/
inductive Public where
  | ecc (attributes : ObjectAttributes) (curve : EccCurve) (scheme : EccScheme) (x y : Bytes)
  | other (attributes : ObjectAttributes)
  deriving DecidableEq, Repr

def Public.objectAttributes : Public → ObjectAttributes
  | ecc attributes _ _ _ _ => attributes
  | other attributes => attributes

/-- The response codes that `map_tss_error` distinguishes. -/
inductive Tss2ResponseCodeKind where
  | authFail
  | badAuth
  | lockout
  | policy
  | policyFail
  | other
  deriving DecidableEq, Repr

/-- The errors of the bindings, as far as they are told apart. -/
inductive Error where
  | tss2Error (kind : Option Tss2ResponseCodeKind)
  | wrapperError
  deriving DecidableEq, Repr

/-- Signatures by variant; the components are the bytes that the TPM returned. -/
inductive Signature where
  | ecDsa (r s : Bytes)
  | other
  deriving DecidableEq, Repr

/-- A loaded object. -/
structure KeyHandle where
  value : UInt32
  deriving DecidableEq, Repr

/-- A session. -/
structure AuthSession where
  value : UInt32
  deriving DecidableEq, Repr

/-- What a flush names. -/
inductive ObjectHandle where
  | key (handle : KeyHandle)
  | session (handle : AuthSession)
  deriving DecidableEq, Repr

/-- The conversions of the `tss-esapi` crate that the signer relies on. -/
structure Tss where
  unmarshall : Bytes → Option Public
  privateOf : Bytes → Option Bytes
  authOf : Bytes → Option Bytes
  digestOf : Bytes → Except Error Bytes
  hashcheckTicket : Except Error Unit
  ecDsaScheme : HashingAlgorithm → Except Error EccScheme

/-- The builders and the marshalling of the `tss-esapi` crate that creation relies on. -/
structure Builders where
  objectAttributes : ObjectAttributes → Except Error ObjectAttributes
  eccParameters : EccScheme → EccCurve → Except Error (EccScheme × EccCurve)
  publicArea : ObjectAttributes → EccScheme × EccCurve → Except Error Public
  marshall : Public → Except Error Bytes

/-- A capability answer; only the list of curves is distinguished. -/
inductive CapabilityData where
  | eccCurves (curves : List EccCurve)
  | other
  deriving DecidableEq, Repr

/-- What the TPM returns for a new object. -/
structure CreateKeyResult where
  outPrivate : Bytes
  outPublic : Public
  deriving DecidableEq, Repr

/-- The commands issued to the context. A command that runs inside
`execute_with_session` carries its session. -/
inductive Operation where
  | getCapability (curve : EccCurve)
  | create (session : AuthSession) (parent : KeyHandle) («public» : Public) (auth : Bytes)
  | trGetName (handle : KeyHandle)
  | startAuthSession (saltKey : KeyHandle) (bind : Option KeyHandle)
  | trSessSetAttributes (session : AuthSession) (decrypt encrypt : Bool)
  | load (session : AuthSession) (parent : KeyHandle) («private» : Bytes) («public» : Public)
  | trSetAuth (handle : KeyHandle) (auth : Bytes)
  | sign (session : AuthSession) (key : KeyHandle) (digest : Bytes) (hash : HashingAlgorithm)
  | flushContext (handle : ObjectHandle)
  deriving DecidableEq, Repr

/-- What is answered to each command. -/
def Answer : Operation → Type
  | .getCapability _ => Except Error CapabilityData
  | .create _ _ _ _ => Except Error CreateKeyResult
  | .trGetName _ => Except Error Bytes
  | .startAuthSession _ _ => Except Error (Option AuthSession)
  | .load _ _ _ _ => Except Error KeyHandle
  | .sign _ _ _ _ => Except Error Signature
  | _ => Except Error Unit

abbrev Routine (ε : Type) := ExceptT ε (Program Operation Answer)

def getCapability (curve : EccCurve) : Routine Error CapabilityData :=
  ExceptT.mk (Program.call (Operation.getCapability curve))

def contextCreate (session : AuthSession) (parent : KeyHandle) («public» : Public) (auth : Bytes) :
    Routine Error CreateKeyResult :=
  ExceptT.mk (Program.call (Operation.create session parent «public» auth))

def trGetName (handle : KeyHandle) : Routine Error Bytes :=
  ExceptT.mk (Program.call (Operation.trGetName handle))

def startAuthSession (saltKey : KeyHandle) (bind : Option KeyHandle) : Routine Error (Option AuthSession) :=
  ExceptT.mk (Program.call (Operation.startAuthSession saltKey bind))

def trSessSetAttributes (session : AuthSession) (decrypt encrypt : Bool) : Routine Error Unit :=
  ExceptT.mk (Program.call (Operation.trSessSetAttributes session decrypt encrypt))

def contextLoad (session : AuthSession) (parent : KeyHandle) («private» : Bytes) («public» : Public) :
    Routine Error KeyHandle :=
  ExceptT.mk (Program.call (Operation.load session parent «private» «public»))

def trSetAuth (handle : KeyHandle) (auth : Bytes) : Routine Error Unit :=
  ExceptT.mk (Program.call (Operation.trSetAuth handle auth))

def contextSign (session : AuthSession) (key : KeyHandle) (digest : Bytes) (hash : HashingAlgorithm) :
    Routine Error Signature :=
  ExceptT.mk (Program.call (Operation.sign session key digest hash))

def flushContext (handle : ObjectHandle) : Routine Error Unit :=
  ExceptT.mk (Program.call (Operation.flushContext handle))

/-- Continue with the outcome of a routine whether or not it failed. -/
def outcomeOf {ε δ α : Type} (routine : Routine ε α) : Routine δ (Except ε α) := liftM routine.run

/-- Low-level details stay inside; callers see the actionable classes. -/
def mapTssError : Error → TpmError
  | .tss2Error kind =>
    match kind with
    | some .authFail | some .badAuth => .authorizationFailed
    | some .lockout => .dictionaryAttackLockout
    | some .policy | some .policyFail => .policyFailed
    | _ => .transport
  | .wrapperError => .transport

/-- A routine of the bindings with its errors mapped. -/
def mapped {α : Type} (routine : Routine Error α) : Routine TpmError α := ExceptT.adapt mapTssError routine

def eccCurve : KeyAlgorithm → EccCurve
  | .ecdsaNistP256 => .nistP256
  | .ecdsaNistP384 => .nistP384

def hashAlgorithm : KeyAlgorithm → HashingAlgorithm
  | .ecdsaNistP256 => .sha256
  | .ecdsaNistP384 => .sha384

variable (tss : Tss)

/-- An empty PIN is refused rather than read as the policy without a PIN. -/
def authorizationValue : TpmAuthorization → Except TpmError (Bytes × KeyUsePolicy)
  | .none => .ok ([], .noPin)
  | .pin [] => .error .invalidAuthorization
  | .pin pin =>
    match tss.authOf pin with
    | some auth => .ok (auth, .tpmPin)
    | none => .error .invalidAuthorization

/-- The first failure decides: the command's own, then that of the release. -/
def settle {ε α : Type} : Except ε α → Except ε Unit → Except ε α
  | .error error, _ => .error error
  | .ok _, .error error => .error error
  | .ok value, .ok _ => .ok value

/-- A context may answer without a session, which counts as a wrong value. -/
def started : Option AuthSession → Except Error AuthSession
  | some session => .ok session
  | none => .error .wrapperError

/-- `with_encrypted_session`. -/
def withEncryptedSession {α : Type} (saltKey : KeyHandle) (bind : Option KeyHandle)
    (operation : AuthSession → Routine Error α) : Routine Error α := do
  let answer ← startAuthSession saltKey bind
  let session ← started answer
  trSessSetAttributes session true true
  let result ← outcomeOf (operation session)
  let flush ← outcomeOf (flushContext (.session session))
  settle result flush

/-- The attribute part of `validate_public`. -/
def validAttributes (attributes : ObjectAttributes) (usePolicy : KeyUsePolicy) : Bool :=
  !(!attributes.fixedTpm
    || !attributes.fixedParent
    || !attributes.sensitiveDataOrigin
    || !attributes.userWithAuth
    || !attributes.signEncrypt
    || attributes.decrypt
    || attributes.restricted
    || attributes.noDa != (usePolicy == .noPin))

/-- The scheme is created, and may fail, only after the curve has matched. -/
def validatePublic («public» : Public) (algorithm : KeyAlgorithm) (usePolicy : KeyUsePolicy) :
    Except TpmError Unit :=
  if validAttributes «public».objectAttributes usePolicy then
    match «public» with
    | .ecc _ curve scheme _ _ =>
      if curve = eccCurve algorithm then
        match tss.ecDsaScheme (hashAlgorithm algorithm) with
        | .error error => .error (mapTssError error)
        | .ok expected => if scheme = expected then .ok () else .error .invalidObject
      else .error .invalidObject
    | .other _ => .error .invalidObject
  else .error .invalidObject

/-- The open connection: the storage parent and its name. -/
structure EsapiTpm where
  parent : KeyHandle
  parentName : Bytes
  deriving DecidableEq, Repr

/-- A conversion whose error is replaced. -/
def required {ε α : Type} (error : ε) : Option α → Except ε α
  | some value => .ok value
  | none => .error error

/-- `load`, which checks the object before any command. -/
def load (tpm : EsapiTpm) (object : TpmObject) (algorithm : KeyAlgorithm) : Routine TpmError KeyHandle :=
  if object.parentName ≠ tpm.parentName then throw .invalidObject
  else do
    let «public» ← required TpmError.invalidObject (tss.unmarshall object.public)
    validatePublic tss «public» algorithm object.usePolicy
    let «private» ← required TpmError.invalidObject (tss.privateOf object.wrappedPrivate)
    mapped (withEncryptedSession tpm.parent none fun session =>
      contextLoad session tpm.parent «private» «public»)

/-- Left-pad with zeros up to the width. -/
def appendPadded (output value : Bytes) (width : Nat) : Except TpmError Bytes :=
  if width < value.length then .error .invalidObject
  else .ok (output ++ List.replicate (width - value.length) 0 ++ value)

/-- A value is padded exactly when it fits. -/
theorem appendPadded_eq (output value : Bytes) (width : Nat) : appendPadded output value width =
    if value.length ≤ width then .ok (output ++ (List.replicate (width - value.length) 0 ++ value))
    else .error .invalidObject := by
  by_cases fits : value.length ≤ width
  · rw [appendPadded, if_neg (Nat.not_lt.mpr fits), if_pos fits, List.append_assoc]
  · rw [appendPadded, if_pos (Nat.lt_of_not_le fits), if_neg fits]

/-- The raw fixed-width signature of the returned components. -/
def rawSignature (algorithm : KeyAlgorithm) : Signature → Except TpmError Bytes
  | .ecDsa r s => do
    let raw ← appendPadded [] r algorithm.ecdsaComponentSize
    appendPadded raw s algorithm.ecdsaComponentSize
  | .other => .error .invalidObject

/-- The commands on a loaded child, from setting its authorization to releasing
it. The release is not reached when one of the first three steps fails. -/
def signLoaded (tpm : EsapiTpm) (child : KeyHandle) (auth : Bytes) (algorithm : KeyAlgorithm)
    (digest : Bytes) : Routine TpmError Signature := do
  mapped (trSetAuth child auth)
  let digest ← (tss.digestOf digest).mapError mapTssError
  (tss.hashcheckTicket).mapError mapTssError
  let signature ← outcomeOf (mapped (withEncryptedSession tpm.parent (some child) fun session =>
    contextSign session child digest (hashAlgorithm algorithm)))
  let flush ← outcomeOf (mapped (flushContext (.key child)))
  settle signature flush

/-- `TpmBackend::sign`. -/
def sign (tpm : EsapiTpm) (key : TpmObject) (algorithm : KeyAlgorithm) (digest : Bytes)
    (authorization : TpmAuthorization) : Routine TpmError Bytes :=
  if digest.length ≠ algorithm.digestSize then throw .invalidObject
  else do
    let (auth, usePolicy) ← authorizationValue tss authorization
    if usePolicy ≠ key.usePolicy then throw .invalidAuthorization
    else do
      let child ← load tss tpm key algorithm
      let signature ← signLoaded tss tpm child auth algorithm digest
      rawSignature algorithm signature

/-! ## Creation -/

/-- The attributes that are the extraction boundary; only PIN keys consume attempts. -/
def requestedAttributes (usePolicy : KeyUsePolicy) : ObjectAttributes where
  fixedTpm := true
  fixedParent := true
  sensitiveDataOrigin := true
  userWithAuth := true
  noDa := usePolicy == .noPin
  restricted := false
  decrypt := false
  signEncrypt := true

/-- The template of a new signing key. -/
def createPublic (builders : Builders) (algorithm : KeyAlgorithm) (usePolicy : KeyUsePolicy) :
    Except TpmError Public := do
  let attributes ← (builders.objectAttributes (requestedAttributes usePolicy)).mapError mapTssError
  let scheme ← (tss.ecDsaScheme (hashAlgorithm algorithm)).mapError mapTssError
  let parameters ← (builders.eccParameters scheme (eccCurve algorithm)).mapError mapTssError
  (builders.publicArea attributes parameters).mapError mapTssError

/-- The TPM must list the requested curve. -/
def supportsCurve (algorithm : KeyAlgorithm) : CapabilityData → Except TpmError Unit
  | .eccCurves curves => if eccCurve algorithm ∈ curves then .ok () else .error .unsupportedAlgorithm
  | .other => .error .transport

/-- A length field and the bytes; what is written here is far below the limit of the
length field. -/
def appendSshString (output value : Bytes) : Bytes := output ++ BigEndian.encode 4 value.length ++ value

/-- The uncompressed point in an SSH key blob. -/
def sshPublicKey («public» : Public) (algorithm : KeyAlgorithm) : Except TpmError Bytes :=
  match «public» with
  | .ecc _ _ _ x y => do
    let point ← appendPadded [4] x algorithm.ecdsaComponentSize
    let point ← appendPadded point y algorithm.ecdsaComponentSize
    let blob := appendSshString [] (utf8 algorithm.sshKeyType)
    let blob := appendSshString blob (utf8 algorithm.sshCurveName)
    return appendSshString blob point
  | .other _ => .error .invalidObject

/-- The child is loaded to learn its name. The release is not reached when the name
cannot be read. -/
def childName (tpm : EsapiTpm) (created : CreateKeyResult) : Routine TpmError Bytes := do
  let child ← mapped (withEncryptedSession tpm.parent none fun session =>
    contextLoad session tpm.parent created.outPrivate created.outPublic)
  let name ← mapped (trGetName child)
  mapped (flushContext (.key child))
  return name

/-- `TpmBackend::generate`. -/
def generate (builders : Builders) (tpm : EsapiTpm) (name : String) (algorithm : KeyAlgorithm)
    (authorization : TpmAuthorization) : Routine TpmError (KeySummary × TpmObject) := do
  let capabilities ← mapped (getCapability (eccCurve algorithm))
  supportsCurve algorithm capabilities
  let (auth, usePolicy) ← authorizationValue tss authorization
  let requestedPublic ← createPublic tss builders algorithm usePolicy
  let created ← mapped (withEncryptedSession tpm.parent none fun session =>
    contextCreate session tpm.parent requestedPublic auth)
  validatePublic tss created.outPublic algorithm usePolicy
  let publicKey ← sshPublicKey created.outPublic algorithm
  let id ← childName tpm created
  let «public» ← (builders.marshall created.outPublic).mapError mapTssError
  return (
    { id := ⟨hexText id⟩, name, algorithm, usePolicy, publicKey },
    { «public», wrappedPrivate := created.outPrivate, parentName := tpm.parentName, usePolicy })

/-! ## Transcripts -/

/-- The command succeeded. -/
def Succeeded : Program.Exchange Operation Answer → Prop
  | ⟨.getCapability _, answer⟩ => (answer : Except Error CapabilityData).isOk
  | ⟨.create _ _ _ _, answer⟩ => (answer : Except Error CreateKeyResult).isOk
  | ⟨.trGetName _, answer⟩ => (answer : Except Error Bytes).isOk
  | ⟨.startAuthSession _ _, answer⟩ => (answer : Except Error (Option AuthSession)).isOk
  | ⟨.load _ _ _ _, answer⟩ => (answer : Except Error KeyHandle).isOk
  | ⟨.sign _ _ _ _, answer⟩ => (answer : Except Error Signature).isOk
  | ⟨.trSessSetAttributes _ _ _, answer⟩ => (answer : Except Error Unit).isOk
  | ⟨.trSetAuth _ _, answer⟩ => (answer : Except Error Unit).isOk
  | ⟨.flushContext _, answer⟩ => (answer : Except Error Unit).isOk

/-- The exchange is the signing command answered with these components. -/
def Returned (r s : Bytes) (exchange : Program.Exchange Operation Answer) : Prop :=
  ∃ session key digest hash, exchange = ⟨.sign session key digest hash, .ok (.ecDsa r s)⟩

/-- Not the signing command. -/
def NotSign : Operation → Prop
  | .sign _ _ _ _ => False
  | _ => True

/-- A program without the signing command never records its answer. -/
theorem not_returned {α : Type} {program remaining : Program Operation Answer α}
    {transcript : List (Program.Exchange Operation Answer)} (issues : program.Issues NotSign)
    (followed : Program.Follows program transcript remaining) {r s : Bytes}
    {exchange : Program.Exchange Operation Answer} (member : exchange ∈ transcript) :
    ¬ Returned r s exchange := by
  rintro ⟨session, key, digest, hash, rfl⟩
  exact issues.of_follows followed _ member

/-- The session around a command that is not the signing command never signs. -/
theorem issues_withEncryptedSession {α : Type} (saltKey : KeyHandle) (bind : Option KeyHandle)
    (operation : AuthSession → Routine Error α) (issues : ∀ session, (operation session).run.Issues NotSign) :
    (withEncryptedSession saltKey bind operation).run.Issues NotSign :=
  (Program.issues_call trivial).routine fun answer =>
    (Program.issues_check _ (started answer)).routine fun session =>
    (Program.issues_call trivial).routine fun _ =>
    (Program.issues_observed (issues session)).routine fun result =>
    (Program.issues_observed (Program.issues_call trivial)).routine fun flush =>
    Program.issues_check _ (settle result flush)

/-- Loading never signs. -/
theorem issues_load (tpm : EsapiTpm) (object : TpmObject) (algorithm : KeyAlgorithm) :
    (load tss tpm object algorithm).run.Issues NotSign := by
  unfold load
  split
  · trivial
  · exact (Program.issues_check _ _).routine fun _ => (Program.issues_check _ _).routine fun _ =>
      (Program.issues_check _ _).routine fun _ =>
      Program.issues_adapt _ (issues_withEncryptedSession _ _ _ fun _ => Program.issues_call trivial)

/-- When every command of a session succeeds and the inner command signs, the
session ends in the inner answer. -/
theorem withEncryptedSession_signed {saltKey key : KeyHandle} {bind : Option KeyHandle} {digest : Bytes}
    {hash : HashingAlgorithm} {transcript : List (Program.Exchange Operation Answer)}
    {outcome : Except Error Signature}
    (followed : Program.Follows (withEncryptedSession saltKey bind fun session =>
      contextSign session key digest hash).run transcript (.done outcome))
    (succeeded : ∀ exchange ∈ transcript, Succeeded exchange) {r s : Bytes}
    (returned : ∃ exchange ∈ transcript, Returned r s exchange) : outcome = .ok (.ecDsa r s) := by
  obtain ⟨_, member, session', key', digest', hash', rfl⟩ := returned
  obtain ⟨_, answer, rest, rfl, asked, afterStart⟩ := Program.follows_routine followed
  obtain rfl := (Program.follows_call _ _ _).mp asked
  cases answer with
  | error error => cases succeeded ⟨.startAuthSession saltKey bind, .error error⟩ (by simp)
  | ok answer =>
    obtain ⟨_, _, rest, rfl, checked, afterCheck⟩ := Program.follows_routine afterStart
    obtain ⟨rfl, rfl⟩ := (Program.follows_check _ _ _).mp checked
    cases answer with
    | none =>
      obtain ⟨rfl, rfl⟩ := afterCheck
      cases List.mem_singleton.mp member
    | some session =>
      obtain ⟨_, attributes, rest, rfl, asked, afterAttributes⟩ := Program.follows_routine afterCheck
      obtain rfl := (Program.follows_call _ _ _).mp asked
      cases attributes with
      | error error => cases succeeded ⟨.trSessSetAttributes session true true, .error error⟩ (by simp)
      | ok _ =>
        obtain ⟨_, _, rest, rfl, signed, afterSign⟩ := Program.follows_routine afterAttributes
        obtain ⟨answer, rfl, asked⟩ := (Program.follows_observed _ _ _).mp signed
        obtain rfl := (Program.follows_call _ _ _).mp asked
        obtain ⟨_, _, rest, rfl, flushed, afterFlush⟩ := Program.follows_routine afterSign
        obtain ⟨flush, rfl, asked⟩ := (Program.follows_observed _ _ _).mp flushed
        obtain rfl := (Program.follows_call _ _ _).mp asked
        obtain ⟨rfl, rfl⟩ := (Program.follows_check _ _ _).mp afterFlush
        cases flush with
        | error error => cases succeeded ⟨.flushContext (.session session), .error error⟩ (by simp)
        | ok _ =>
          simp only [List.cons_append, List.nil_append, List.append_nil, List.mem_cons,
            List.not_mem_nil, or_false] at member
          rcases member with same | same | same | same <;> cases same
          rfl

/-- When every command on a loaded child succeeds and one of them returned the
components, they are the signature. -/
theorem signLoaded_signed {tpm : EsapiTpm} {child : KeyHandle} {auth digest : Bytes}
    {algorithm : KeyAlgorithm} {transcript : List (Program.Exchange Operation Answer)}
    {outcome : Except TpmError Signature}
    (followed : Program.Follows (signLoaded tss tpm child auth algorithm digest).run transcript (.done outcome))
    (succeeded : ∀ exchange ∈ transcript, Succeeded exchange) {r s : Bytes}
    (returned : ∃ exchange ∈ transcript, Returned r s exchange) : outcome = .ok (.ecDsa r s) := by
  obtain ⟨exchange, member, isSign⟩ := returned
  obtain ⟨_, _, rest, rfl, authorizing, afterAuth⟩ := Program.follows_routine followed
  obtain ⟨answer, rfl, asked⟩ := (Program.follows_adapt _ _ _ _).mp authorizing
  obtain rfl := (Program.follows_call _ _ _).mp asked
  have afterwards : exchange ∈ rest := by
    rcases List.mem_append.mp member with first | later
    · obtain ⟨_, _, _, _, rfl⟩ := isSign
      cases List.mem_singleton.mp first
    · exact later
  cases answer with
  | error error => cases succeeded ⟨.trSetAuth child auth, .error error⟩ (by simp)
  | ok _ =>
    obtain ⟨_, converted, rest, rfl, checked, afterDigest⟩ := Program.follows_routine afterAuth
    obtain ⟨rfl, rfl⟩ := (Program.follows_check _ _ _).mp checked
    cases digested : tss.digestOf digest with
    | error error =>
      rw [digested] at afterDigest
      obtain ⟨rfl, _⟩ := afterDigest
      simp at afterwards
    | ok message =>
      rw [digested] at afterDigest
      obtain ⟨_, ticket, rest, rfl, checked, afterTicket⟩ := Program.follows_routine afterDigest
      obtain ⟨rfl, rfl⟩ := (Program.follows_check _ _ _).mp checked
      cases ticketed : tss.hashcheckTicket with
      | error error =>
        rw [ticketed] at afterTicket
        obtain ⟨rfl, _⟩ := afterTicket
        simp at afterwards
      | ok _ =>
        rw [ticketed] at afterTicket
        obtain ⟨signing, _, rest, rfl, signed, afterSign⟩ := Program.follows_routine afterTicket
        obtain ⟨signature, rfl, reported⟩ := (Program.follows_observed _ _ _).mp signed
        obtain ⟨answered, rfl, inner⟩ := (Program.follows_adapt _ _ _ _).mp reported
        obtain ⟨_, _, rest, rfl, flushed, afterFlush⟩ := Program.follows_routine afterSign
        obtain ⟨flush, rfl, released⟩ := (Program.follows_observed _ _ _).mp flushed
        obtain ⟨answer, rfl, asked⟩ := (Program.follows_adapt _ _ _ _).mp released
        obtain rfl := (Program.follows_call _ _ _).mp asked
        obtain ⟨rfl, rfl⟩ := (Program.follows_check _ _ _).mp afterFlush
        have inside : exchange ∈ signing := by
          simp only [List.nil_append, List.append_nil] at afterwards
          rcases List.mem_append.mp afterwards with first | later
          · exact first
          · obtain ⟨_, _, _, _, rfl⟩ := isSign
            cases List.mem_singleton.mp later
        have answeredOk := withEncryptedSession_signed inner
          (fun exchange member => succeeded exchange (by simp [member])) ⟨exchange, inside, isSign⟩
        subst answeredOk
        cases answer with
        | error error => cases succeeded ⟨.flushContext (.key child), .error error⟩ (by simp)
        | ok _ => rfl

/-- When every command succeeds and one of them returned the components, the
result of signing is their raw fixed-width signature. -/
theorem sign_returned {tpm : EsapiTpm} {key : TpmObject} {algorithm : KeyAlgorithm} {digest : Bytes}
    {authorization : TpmAuthorization} {transcript : List (Program.Exchange Operation Answer)}
    {result : Except TpmError Bytes}
    (followed : Program.Follows (sign tss tpm key algorithm digest authorization).run transcript (.done result))
    (succeeded : ∀ exchange ∈ transcript, Succeeded exchange) {r s : Bytes}
    (returned : ∃ exchange ∈ transcript, Returned r s exchange) :
    result = rawSignature algorithm (.ecDsa r s) := by
  obtain ⟨exchange, member, isSign⟩ := returned
  have nothing {ε α : Type} {error : ε} {outcome : Except ε α}
      (stopped : Program.Follows (throw error : Routine ε α).run transcript (.done outcome)) : False := by
    obtain ⟨rfl, _⟩ := (Program.follows_done _ _ _).mp stopped
    cases member
  unfold sign at followed
  split at followed
  · exact (nothing followed).elim
  · obtain ⟨_, _, rest, rfl, checked, afterValue⟩ := Program.follows_routine followed
    obtain ⟨rfl, rfl⟩ := (Program.follows_check _ _ _).mp checked
    cases value : authorizationValue tss authorization with
    | error error =>
      rw [value] at afterValue
      obtain ⟨rfl, _⟩ := afterValue
      cases member
    | ok pair =>
      rw [value] at afterValue
      obtain ⟨auth, usePolicy⟩ := pair
      simp only [List.nil_append] at *
      split at afterValue
      · exact (nothing afterValue).elim
      · obtain ⟨loading, loaded, rest, rfl, loads, afterLoad⟩ := Program.follows_routine afterValue
        have afterwards : exchange ∈ rest := (List.mem_append.mp member).resolve_left fun first =>
          not_returned (issues_load tss _ _ _) loads first isSign
        cases loaded with
        | error error =>
          obtain ⟨rfl, _⟩ := afterLoad
          cases afterwards
        | ok child =>
          obtain ⟨signing, signature, rest, rfl, signs, afterSign⟩ := Program.follows_routine afterLoad
          have ended : rest = [] := by
            cases signature with
            | error error => exact afterSign.1
            | ok signature => exact ((Program.follows_check _ _ _).mp afterSign).1
          have inside : exchange ∈ signing := by simpa [ended] using afterwards
          cases signLoaded_signed tss signs (fun exchange member => succeeded exchange (by simp [member]))
            ⟨exchange, inside, isSign⟩
          exact ((Program.follows_check _ _ _).mp afterSign).2

end Keyvisor.Esapi
