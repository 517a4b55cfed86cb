import Keyvisor.Esapi

/-!
# What must hold before the first command

The checks of the signer are spread over four functions: the digest length in the
signing function itself, the authorization in the function that derives the policy,
the parent in the loader, and the template in the function that validates the public
area. Together they are one condition on the request. Unless it holds, signing ends
with an error before it asks the context for anything, so no session is started,
nothing is loaded and no authorization attempt is spent.
-/

namespace Keyvisor.Guard

open Foundation Esapi

/-- The attributes of a signing key that cannot leave the TPM and its parent. Only keys
without a PIN are exempt from the dictionary-attack counter. -/
structure Template (attributes : ObjectAttributes) (usePolicy : KeyUsePolicy) : Prop where
  fixedTpm : attributes.fixedTpm = true
  fixedParent : attributes.fixedParent = true
  sensitiveDataOrigin : attributes.sensitiveDataOrigin = true
  userWithAuth : attributes.userWithAuth = true
  signEncrypt : attributes.signEncrypt = true
  decrypt : attributes.decrypt = false
  restricted : attributes.restricted = false
  noDa : attributes.noDa = true ↔ usePolicy = .noPin

/-- The authorization is the one that the policy of the object asks for. -/
def Agrees (authorization : TpmAuthorization) (usePolicy : KeyUsePolicy) : Prop :=
  (authorization = .none ∧ usePolicy = .noPin) ∨
    ∃ pin, pin ≠ [] ∧ authorization = .pin pin ∧ usePolicy = .tpmPin

/-- The public area is an ECC signing key of the algorithm under the policy. -/
def Suits («public» : Public) (algorithm : KeyAlgorithm) (usePolicy : KeyUsePolicy) : Prop :=
  ∃ attributes x y,
    «public» = .ecc attributes (eccCurve algorithm) (.ecDsa (hashAlgorithm algorithm)) x y ∧
      Template attributes usePolicy

/-- What a request to sign must fulfil before any command is issued for it. -/
structure Permits (tss : Tss) (tpm : EsapiTpm) (key : TpmObject) (algorithm : KeyAlgorithm) (digest : Bytes)
    (authorization : TpmAuthorization) : Prop where
  digest : digest.length = algorithm.digestSize
  authorization : Agrees authorization key.usePolicy
  parent : key.parentName = tpm.parentName
  «public» : ∃ area, tss.unmarshall key.public = some area ∧ Suits area algorithm key.usePolicy

section

variable {tss : Tss}

/-- The derived policy is that of the authorization, and an empty PIN has none. -/
theorem agrees_of_value {authorization : TpmAuthorization} {auth : Bytes} {usePolicy : KeyUsePolicy}
    (accepted : authorizationValue tss authorization = .ok (auth, usePolicy)) :
    Agrees authorization usePolicy := by
  unfold authorizationValue at accepted
  split at accepted
  · cases accepted
    exact .inl ⟨rfl, rfl⟩
  · cases accepted
  · rename_i pin filled
    split at accepted
    · cases accepted
      exact .inr ⟨pin, filled, rfl, rfl⟩
    · cases accepted

/-- Valid attributes are those of the template. -/
theorem template_of_valid {attributes : ObjectAttributes} {usePolicy : KeyUsePolicy}
    (valid : validAttributes attributes usePolicy = true) : Template attributes usePolicy := by
  simp only [validAttributes, Bool.not_eq_true', Bool.or_eq_false_iff, Bool.not_eq_false',
    bne_eq_false_iff_eq] at valid
  obtain ⟨⟨⟨⟨⟨⟨⟨fixedTpm, fixedParent⟩, origin⟩, userAuth⟩, signs⟩, decrypt⟩, restricted⟩, noDa⟩ := valid
  exact ⟨fixedTpm, fixedParent, origin, userAuth, signs, decrypt, restricted, by rw [noDa, beq_iff_eq]⟩

/-- A validated public area suits its algorithm, since the created scheme is ECDSA with
the hash it was asked for. -/
theorem suits_of_valid (creates : ∀ hash scheme, tss.ecDsaScheme hash = .ok scheme → scheme = .ecDsa hash)
    {area : Public} {algorithm : KeyAlgorithm} {usePolicy : KeyUsePolicy}
    (valid : validatePublic tss area algorithm usePolicy = .ok ()) : Suits area algorithm usePolicy := by
  unfold validatePublic at valid
  split at valid
  · rename_i template
    split at valid
    · rename_i attributes curve scheme x y
      split at valid
      · rename_i sameCurve
        split at valid
        · cases valid
        · rename_i expected created
          split at valid
          · rename_i sameScheme
            refine ⟨attributes, x, y, ?_, template_of_valid template⟩
            rw [sameCurve, sameScheme, creates _ _ created]
          · cases valid
      · cases valid
    · cases valid
  · cases valid

/-- Loading ends with an error at once unless the parent and the public area are right. -/
theorem load_blocked (creates : ∀ hash scheme, tss.ecDsaScheme hash = .ok scheme → scheme = .ecDsa hash)
    (tpm : EsapiTpm) (object : TpmObject) (algorithm : KeyAlgorithm) :
    (∃ error, (load tss tpm object algorithm).run = .done (.error error)) ∨
      (object.parentName = tpm.parentName ∧
        ∃ area, tss.unmarshall object.public = some area ∧ Suits area algorithm object.usePolicy) := by
  by_cases parent : object.parentName = tpm.parentName
  · cases unmarshalled : tss.unmarshall object.public with
    | none =>
      left
      refine ⟨.invalidObject, ?_⟩
      rw [load, if_neg (not_not.mpr parent), unmarshalled]
      rfl
    | some area =>
      cases valid : validatePublic tss area algorithm object.usePolicy with
      | error error =>
        left
        refine ⟨error, ?_⟩
        rw [load, if_neg (not_not.mpr parent), unmarshalled]
        show ((liftM (validatePublic tss area algorithm object.usePolicy) : Routine TpmError Unit) >>= _).run = _
        rw [valid]
        rfl
      | ok _ => exact .inr ⟨parent, area, rfl, suits_of_valid creates valid⟩
  · left
    refine ⟨.invalidObject, ?_⟩
    rw [load, if_pos parent]
    rfl

/-- Signing ends with an error at once unless the request is permitted. -/
theorem sign_blocked (creates : ∀ hash scheme, tss.ecDsaScheme hash = .ok scheme → scheme = .ecDsa hash)
    (tpm : EsapiTpm) (key : TpmObject) (algorithm : KeyAlgorithm) (digest : Bytes)
    (authorization : TpmAuthorization) :
    (∃ error, (sign tss tpm key algorithm digest authorization).run = .done (.error error)) ∨
      Permits tss tpm key algorithm digest authorization := by
  by_cases size : digest.length = algorithm.digestSize
  · cases value : authorizationValue tss authorization with
    | error error =>
      left
      refine ⟨error, ?_⟩
      rw [sign, if_neg (not_not.mpr size), value]
      rfl
    | ok pair =>
      obtain ⟨auth, usePolicy⟩ := pair
      by_cases policy : usePolicy = key.usePolicy
      · rcases load_blocked creates tpm key algorithm with ⟨error, blocked⟩ | ⟨parent, area⟩
        · left
          refine ⟨error, ?_⟩
          rw [sign, if_neg (not_not.mpr size), value]
          show (if usePolicy ≠ key.usePolicy then throw .invalidAuthorization
            else load tss tpm key algorithm >>= _ : Routine TpmError Bytes).run = _
          rw [if_neg (not_not.mpr policy)]
          show ((load tss tpm key algorithm).run >>= _) = _
          rw [blocked]
          rfl
        · exact .inr ⟨size, policy ▸ agrees_of_value value, parent, area⟩
      · left
        refine ⟨.invalidAuthorization, ?_⟩
        rw [sign, if_neg (not_not.mpr size), value]
        show (if usePolicy ≠ key.usePolicy then throw .invalidAuthorization else _ : Routine TpmError Bytes).run = _
        rw [if_pos policy]
        rfl
  · left
    refine ⟨.invalidObject, ?_⟩
    rw [sign, if_pos size]
    rfl

end

/-- Signing fails closed. Whatever the context would answer, a command is recorded only
for a request whose digest, authorization, parent and public area are all as they must
be; every other request ends with an error and leaves the state of the TPM, whatever
that is, as it was. -/
theorem sign_fails_closed (tss : Tss)
    (creates : ∀ hash scheme, tss.ecDsaScheme hash = .ok scheme → scheme = .ecDsa hash)
    (tpm : EsapiTpm) (key : TpmObject) (algorithm : KeyAlgorithm) (digest : Bytes)
    (authorization : TpmAuthorization) :
    (∀ transcript remaining,
      Program.Follows (sign tss tpm key algorithm digest authorization).run transcript remaining →
        transcript ≠ [] → Permits tss tpm key algorithm digest authorization) ∧
    (¬ Permits tss tpm key algorithm digest authorization →
      ∀ (State : Type) (context : (operation : Operation) → State → Answer operation × State) (state : State),
        ∃ error, Program.execute context (sign tss tpm key algorithm digest authorization) state =
          (.error error, state)) := by
  constructor
  · intro transcript remaining followed issued
    rcases sign_blocked creates tpm key algorithm digest authorization with ⟨error, blocked⟩ | permits
    · rw [blocked] at followed
      exact absurd ((Program.follows_done _ _ _).mp followed).1 issued
    · exact permits
  · intro refused State context state
    rcases sign_blocked creates tpm key algorithm digest authorization with ⟨error, blocked⟩ | permits
    · refine ⟨error, ?_⟩
      rw [Program.execute, blocked]
      rfl
    · exact absurd permits refused

namespace Sample

/-- One public area is known, and the buffers accept what they are given. -/
def tss : Tss where
  unmarshall bytes :=
    if bytes = [6] then
      some (.ecc ⟨true, true, true, true, true, false, false, true⟩ .nistP256 (.ecDsa .sha256) [1] [2])
    else none
  privateOf bytes := some bytes
  authOf bytes := some bytes
  digestOf bytes := .ok bytes
  hashcheckTicket := .ok ()
  ecDsaScheme hash := .ok (.ecDsa hash)

def tpm : EsapiTpm := ⟨⟨1⟩, [5]⟩

/-- A key without a PIN. -/
def key : TpmObject := ⟨[6], [7], [5], .noPin⟩

/-- Every command fails and is counted. -/
def counting : (operation : Operation) → Nat → Answer operation × Nat
  | .getCapability _, issued => (.error .wrapperError, issued + 1)
  | .create _ _ _ _, issued => (.error .wrapperError, issued + 1)
  | .trGetName _, issued => (.error .wrapperError, issued + 1)
  | .startAuthSession _ _, issued => (.error .wrapperError, issued + 1)
  | .trSessSetAttributes _ _ _, issued => (.error .wrapperError, issued + 1)
  | .load _ _ _ _, issued => (.error .wrapperError, issued + 1)
  | .trSetAuth _ _, issued => (.error .wrapperError, issued + 1)
  | .sign _ _ _ _, issued => (.error .wrapperError, issued + 1)
  | .flushContext _, issued => (.error .wrapperError, issued + 1)

end Sample

/-- The first command for a key without a PIN is recorded only because the request is
permitted, and none is issued for it with a PIN. -/
theorem sample_requests_are_guarded :
    Permits Sample.tss Sample.tpm Sample.key .ecdsaNistP256 (List.replicate 32 9) .none ∧
    ∃ error, Program.execute Sample.counting
      (sign Sample.tss Sample.tpm Sample.key .ecdsaNistP256 (List.replicate 32 9) (.pin [49])) 0 =
        (.error error, 0) := by
  have creates : ∀ hash scheme, Sample.tss.ecDsaScheme hash = .ok scheme → scheme = .ecDsa hash := by
    intro hash scheme created
    cases created
    rfl
  constructor
  · have followed : Program.Follows
        (sign Sample.tss Sample.tpm Sample.key .ecdsaNistP256 (List.replicate 32 9) .none).run
        [⟨.startAuthSession ⟨1⟩ none, .error .wrapperError⟩] (.done (.error .transport)) :=
      (Program.follow_eq_some _ _ _).mp rfl
    exact (sign_fails_closed Sample.tss creates _ _ _ _ _).1 _ _ followed (List.cons_ne_nil _ _)
  · apply (sign_fails_closed Sample.tss creates _ _ _ _ _).2
    rintro ⟨_, agrees, _, _⟩
    rcases agrees with ⟨impossible, _⟩ | ⟨pin, _, _, impossible⟩
    · cases impossible
    · cases impossible

end Keyvisor.Guard
