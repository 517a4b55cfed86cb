import Keyvisor.Esapi
import Keyvisor.Protocol

/-!
# ECDSA signatures from the TPM to the wire

The TPM returns two components of any length. The signer pads them to the
algorithm's width and concatenates them; the response encoder splits them again,
strips leading zeros, restores the sign bit and nests the result in three layers
of SSH strings. A strict reader of the response, which accepts no trailing byte at
any level, gets back two canonical multiple-precision integers with the values of
the components.
-/

namespace Keyvisor.Signature

open Foundation Foundation.Text Foundation.Reader Protocol

/-- A canonical non-negative `mpint`: empty for zero, the sign bit clear, and a
leading zero byte only where the next byte would otherwise set the sign bit. -/
def Canonical : Bytes → Prop
  | [] => True
  | [byte] => 0 < byte ∧ byte < 128
  | first :: second :: _ => first < 128 ∧ (first = 0 → 128 ≤ second)

/-- The contents of the `mpint` that `push_mpint` writes. -/
def mpint (value : Bytes) : Bytes :=
  if (significant value).head?.any (fun byte => byte &&& 0x80 != 0) then 0 :: significant value
  else significant value

/-- An integer is pushed as the string of its encoding. -/
theorem pushMpint_eq (output value : Bytes) : pushMpint output value = pushString output (mpint value) := by
  simp only [pushMpint, mpint]
  split <;> rfl

/-- Stripping removes exactly the leading zeros. -/
theorem significant_cons_zero (rest : Bytes) : significant (0 :: rest) = significant rest := by
  unfold significant
  rw [List.findIdx?_cons]
  simp only [bne_self_eq_false, Bool.false_eq_true, ↓reduceIte]
  cases rest.findIdx? (· != 0) <;> rfl

/-- Without a leading zero every byte is significant. -/
theorem significant_of_ne_zero (first : UInt8) (rest : Bytes) (nonzero : first ≠ 0) :
    significant (first :: rest) = first :: rest := by
  simp [significant, List.findIdx?_cons, nonzero]

/-- Stripping keeps the value, does not lengthen, and leaves no leading zero. -/
theorem significant_spec (value : Bytes) :
    BigEndian.value (significant value) = BigEndian.value value ∧
      (significant value).length ≤ value.length ∧ (significant value).head? ≠ some 0 := by
  induction value with
  | nil => simp [significant]
  | cons first rest inductionHypothesis =>
    by_cases zero : first = 0
    · subst zero
      obtain ⟨same, shorter, leading⟩ := inductionHypothesis
      rw [significant_cons_zero]
      exact ⟨by rw [same, BigEndian.value_zero_cons], by simp only [List.length_cons]; omega, leading⟩
    · rw [significant_of_ne_zero first rest zero]
      simpa using zero

/-- The sign bit of a byte. -/
theorem signBit : ∀ byte : UInt8, (byte &&& 0x80 != 0) = decide (128 ≤ byte) :=
  forall_byte (by decide +kernel)

/-- Stripped bytes with the sign bit set get one zero in front; all others stay.
Either way the result is canonical. -/
theorem canonical_mpint (value : Bytes) : Canonical (mpint value) := by
  obtain ⟨_, _, leading⟩ := significant_spec value
  unfold mpint
  cases stripped : significant value with
  | nil => trivial
  | cons first rest =>
    rw [stripped] at leading
    have nonzero : first ≠ 0 := by simpa using leading
    have positive : 0 < first := UInt8.pos_iff_ne_zero.mpr nonzero
    simp only [List.head?_cons, Option.any_some, signBit, decide_eq_true_eq]
    split
    · rename_i high
      exact ⟨by decide, fun _ => high⟩
    · rename_i low
      cases rest with
      | nil => exact ⟨positive, UInt8.not_le.mp low⟩
      | cons second rest => exact ⟨UInt8.not_le.mp low, fun zero => absurd zero nonzero⟩

/-- The `mpint` has the value of the component and at most one more byte. -/
theorem mpint_spec (value : Bytes) :
    BigEndian.value (mpint value) = BigEndian.value value ∧ (mpint value).length ≤ value.length + 1 := by
  obtain ⟨same, shorter, _⟩ := significant_spec value
  unfold mpint
  split
  · exact ⟨by rw [BigEndian.value_zero_cons, same], by simp only [List.length_cons]; omega⟩
  · exact ⟨same, by omega⟩

/-! ## The response -/

/-- The exact frame of a signature whose components have the algorithm's width. -/
def responseFrame (algorithm : KeyAlgorithm) (r s : Bytes) : Bytes :=
  field (ssh2AgentSignResponse :: field (field (utf8 algorithm.sshKeyType) ++
    field (field (mpint r) ++ field (mpint s))))

/-- A string is appended as a field exactly while the output stays within the limit. -/
theorem pushString_eq (output value : Bytes) : pushString output value =
    if output.length + 4 + value.length ≤ maxPacketLength then .ok (output ++ field value)
    else .error .packetTooLarge := by
  have size : (output ++ BigEndian.encode 4 value.length ++ value).length = output.length + 4 + value.length := by
    simp only [List.length_append, BigEndian.length_encode]
  have joined : output ++ BigEndian.encode 4 value.length ++ value = output ++ field value :=
    List.append_assoc _ _ _
  by_cases fits : output.length + 4 + value.length ≤ maxPacketLength
  · have announced : ¬ 2 ^ 32 ≤ value.length := by
      simp only [maxPacketLength] at fits
      omega
    simp only [pushString, announced, ↓reduceIte, size]
    rw [if_neg (by omega), if_pos fits, joined]
  · simp only [pushString, size, if_neg fits, if_pos (Nat.lt_of_not_le fits), ite_self]

/-- A string is appended as a field while the output stays within the limit. -/
theorem pushString_eq_ok (output value : Bytes)
    (fits : output.length + 4 + value.length ≤ maxPacketLength) :
    pushString output value = .ok (output ++ field value) := by
  rw [pushString_eq, if_pos fits]

/-- A field has four bytes more than its value. -/
@[simp] theorem length_field (bytes : Bytes) : (field bytes).length = 4 + bytes.length := by
  simp [field]

/-- Every algorithm's names and widths are far below the packet limit. -/
theorem algorithm_bounds (algorithm : KeyAlgorithm) :
    algorithm.ecdsaComponentSize ≤ 48 ∧ (utf8 algorithm.sshKeyType).length = 19 := by
  cases algorithm <;> decide +kernel

/-- Two components of the algorithm's width are encoded. -/
theorem ecdsaSignatureResponse_eq_ok (algorithm : KeyAlgorithm) (r s : Bytes)
    (rWidth : r.length = algorithm.ecdsaComponentSize) (sWidth : s.length = algorithm.ecdsaComponentSize) :
    ecdsaSignatureResponse algorithm (r ++ s) = .ok (responseFrame algorithm r s) := by
  obtain ⟨narrow, named⟩ := algorithm_bounds algorithm
  have rShort := (mpint_spec r).2
  have sShort := (mpint_spec s).2
  have long : ¬ (r ++ s).length < algorithm.ecdsaComponentSize := by
    simp only [List.length_append]
    omega
  have halves : (r ++ s).splitAt algorithm.ecdsaComponentSize = (r, s) := by
    rw [List.splitAt_eq, ← rWidth, List.take_left, List.drop_left]
  have fits (output value : Bytes) (bounded : output.length + 4 + value.length ≤ 1000) :
      pushString output value = .ok (output ++ field value) :=
    pushString_eq_ok output value (by simp only [maxPacketLength]; omega)
  have first := fits [] (mpint r) (by simp only [List.length_nil]; omega)
  have second := fits (field (mpint r)) (mpint s) (by simp only [length_field]; omega)
  have keyType := fits [] (utf8 algorithm.sshKeyType) (by simp only [List.length_nil]; omega)
  have blob := fits (field (utf8 algorithm.sshKeyType)) (field (mpint r) ++ field (mpint s))
    (by simp only [length_field, List.length_append]; omega)
  have payload := fits [ssh2AgentSignResponse]
    (field (utf8 algorithm.sshKeyType) ++ field (field (mpint r) ++ field (mpint s)))
    (by simp only [length_field, List.length_append, List.length_singleton]; omega)
  have framed : ¬ maxPacketLength < ([ssh2AgentSignResponse] ++
      field (field (utf8 algorithm.sshKeyType) ++ field (field (mpint r) ++ field (mpint s)))).length := by
    simp only [maxPacketLength, length_field, List.length_append, List.length_singleton]
    omega
  simp only [ecdsaSignatureResponse, long, ↓reduceIte, halves, sWidth, ne_eq, not_true_eq_false,
    pushMpint_eq, first, List.nil_append, bind, Except.bind, second, keyType, blob, payload, checkedFrame,
    framed, ↓reduceDIte]
  rfl

/-- Any other length is refused. -/
theorem ecdsaSignatureResponse_refused (algorithm : KeyAlgorithm) (signature : Bytes)
    (length : signature.length ≠ 2 * algorithm.ecdsaComponentSize) :
    ecdsaSignatureResponse algorithm signature = .error .invalidSignature := by
  unfold ecdsaSignatureResponse
  simp only [List.splitAt_eq]
  split
  · rfl
  · rename_i long
    have unequal : (signature.drop algorithm.ecdsaComponentSize).length ≠ algorithm.ecdsaComponentSize := by
      rw [List.length_drop]
      omega
    rw [if_pos unequal]

/-! ## Strict decoding -/

/-- The fields of a sign response: the key type and the two integers. -/
structure Decoded where
  keyType : Bytes
  r : Bytes
  s : Bytes
  deriving DecidableEq, Repr

/-- One string and nothing else. -/
def wholeString (bytes : Bytes) : Option Bytes :=
  (complete takeString .trailingData bytes).toOption

/-- Two strings and nothing else. -/
def wholePair (bytes : Bytes) : Option (Bytes × Bytes) :=
  (complete (do let first ← takeString; let second ← takeString; return (first, second))
    .trailingData bytes).toOption

/-- The body behind the message type of a sign response. -/
def signBody : Bytes → Option Bytes
  | messageType :: body => if messageType = 14 then some body else none
  | [] => none

/-- Strict reading of one sign response frame: at every level the announced bytes
are all there is. -/
def decodeSignResponse (frame : Bytes) : Option Decoded := do
  let payload ← wholeString frame
  let body ← signBody payload
  let blob ← wholeString body
  let (keyType, ecdsa) ← wholePair blob
  let (r, s) ← wholePair ecdsa
  return { keyType, r, s }

/-- A field is read back whole. -/
theorem wholeString_field (bytes : Bytes) (fits : bytes.length < 2 ^ 32) :
    wholeString (field bytes) = some bytes := by
  have accepted := (complete_eq_ok ProtocolError.trailingData recognises_takeString (field bytes) bytes).mpr
    ⟨fits, rfl⟩
  rw [wholeString, accepted]
  rfl

/-- Two fields that fit are read back. -/
theorem wholePair_fields (first second : Bytes) (firstFits : first.length < 2 ^ 32)
    (secondFits : second.length < 2 ^ 32) :
    wholePair (field first ++ field second) = some (first, second) := by
  have recognised := recognises_takeString.bind fun first => recognises_takeString.bind fun second =>
    recognises_pure (ε := ProtocolError) (first, second)
  have accepted := (complete_eq_ok ProtocolError.trailingData recognised
    (field first ++ field second) (first, second)).mpr
    ⟨first, field first, field second, ⟨firstFits, rfl⟩,
      ⟨second, field second, [], ⟨secondFits, rfl⟩, ⟨rfl, rfl⟩, (List.append_nil _).symm⟩, rfl⟩
  rw [wholePair, accepted]
  rfl

/-- A framed signature is decoded to its integers. -/
theorem decodeSignResponse_frame (algorithm : KeyAlgorithm) (r s : Bytes) (rFits : r.length ≤ 48)
    (sFits : s.length ≤ 48) :
    decodeSignResponse (responseFrame algorithm r s) =
      some ⟨utf8 algorithm.sshKeyType, mpint r, mpint s⟩ := by
  obtain ⟨_, named⟩ := algorithm_bounds algorithm
  have rShort := (mpint_spec r).2
  have sShort := (mpint_spec s).2
  have outer := wholeString_field (ssh2AgentSignResponse :: field (field (utf8 algorithm.sshKeyType) ++
    field (field (mpint r) ++ field (mpint s))))
    (by simp only [List.length_cons, length_field, List.length_append]; omega)
  have body := wholeString_field (field (utf8 algorithm.sshKeyType) ++
    field (field (mpint r) ++ field (mpint s))) (by simp only [length_field, List.length_append]; omega)
  have blob := wholePair_fields (utf8 algorithm.sshKeyType) (field (mpint r) ++ field (mpint s))
    (by omega) (by simp only [length_field, List.length_append]; omega)
  have pair := wholePair_fields (mpint r) (mpint s) (by omega) (by omega)
  have stripped (body : Bytes) : signBody (ssh2AgentSignResponse :: body) = some body := rfl
  refine Option.bind_eq_some_iff.mpr ⟨_, outer, ?_⟩
  refine Option.bind_eq_some_iff.mpr ⟨_, stripped _, ?_⟩
  refine Option.bind_eq_some_iff.mpr ⟨_, body, ?_⟩
  refine Option.bind_eq_some_iff.mpr ⟨_, blob, ?_⟩
  exact Option.bind_eq_some_iff.mpr ⟨_, pair, rfl⟩

/-! ## From the TPM to the wire -/

/-- A component as the signer pads it. -/
def padded (algorithm : KeyAlgorithm) (component : Bytes) : Bytes :=
  List.replicate (algorithm.ecdsaComponentSize - component.length) 0 ++ component

/-- A padded component has its width. -/
theorem length_padded (algorithm : KeyAlgorithm) (component : Bytes)
    (fits : component.length ≤ algorithm.ecdsaComponentSize) :
    (padded algorithm component).length = algorithm.ecdsaComponentSize := by
  simp only [padded, List.length_append, List.length_replicate]
  omega

/-- The components are padded when both fit, and refused when one does not. -/
theorem rawSignature_ecDsa (algorithm : KeyAlgorithm) (r s : Bytes) :
    Esapi.rawSignature algorithm (.ecDsa r s) =
      if r.length ≤ algorithm.ecdsaComponentSize ∧ s.length ≤ algorithm.ecdsaComponentSize then
        .ok (padded algorithm r ++ padded algorithm s)
      else .error .invalidObject := by
  by_cases rFits : r.length ≤ algorithm.ecdsaComponentSize
  · by_cases sFits : s.length ≤ algorithm.ecdsaComponentSize
    · simp [Esapi.rawSignature, Esapi.appendPadded_eq, padded, rFits, sFits, bind, Except.bind]
    · simp [Esapi.rawSignature, Esapi.appendPadded_eq, rFits, sFits, bind, Except.bind]
  · simp [Esapi.rawSignature, Esapi.appendPadded_eq, rFits, bind, Except.bind]

/-- What a strict reader gets from the response to a raw signature: the key type
and two canonical integers with the values of the components. -/
def ReadsBack (algorithm : KeyAlgorithm) (raw r s : Bytes) : Prop :=
  ∃ frame decoded, ecdsaSignatureResponse algorithm raw = .ok frame ∧
    decodeSignResponse frame = some decoded ∧ decoded.keyType = utf8 algorithm.sshKeyType ∧
    Canonical decoded.r ∧ Canonical decoded.s ∧
    BigEndian.value decoded.r = BigEndian.value r ∧ BigEndian.value decoded.s = BigEndian.value s

/-- Padded components are read back. -/
theorem readsBack_padded (algorithm : KeyAlgorithm) (r s : Bytes)
    (rFits : r.length ≤ algorithm.ecdsaComponentSize) (sFits : s.length ≤ algorithm.ecdsaComponentSize) :
    ReadsBack algorithm (padded algorithm r ++ padded algorithm s) r s := by
  have rWidth := length_padded algorithm r rFits
  have sWidth := length_padded algorithm s sFits
  have narrow := (algorithm_bounds algorithm).1
  refine ⟨_, _, ecdsaSignatureResponse_eq_ok algorithm _ _ rWidth sWidth,
    decodeSignResponse_frame algorithm _ _ (by omega) (by omega), rfl, canonical_mpint _, canonical_mpint _, ?_, ?_⟩
  · exact (mpint_spec _).1.trans (BigEndian.value_padded _ r)
  · exact (mpint_spec _).1.trans (BigEndian.value_padded _ s)

/-- Padding, splitting, stripping and sign extension compose to the identity on
integers. In every run of the signer whose commands succeed and in which the TPM
returned the components `r` and `s`, components that fit the algorithm's width
give exactly two widths of bytes, from which a strict reader of the response gets
both integers back; a component that does not fit is refused. A signature of any
other length is refused by the encoder. -/
theorem signature_survives_the_wire (tss : Esapi.Tss) {tpm : Esapi.EsapiTpm} {key : TpmObject}
    {algorithm : KeyAlgorithm} {digest : Bytes} {authorization : TpmAuthorization}
    {transcript : List (Program.Exchange Esapi.Operation Esapi.Answer)} {result : Except TpmError Bytes}
    {r s : Bytes}
    (followed : Program.Follows (Esapi.sign tss tpm key algorithm digest authorization).run transcript
      (.done result))
    (succeeded : ∀ exchange ∈ transcript, Esapi.Succeeded exchange)
    (returned : ∃ exchange ∈ transcript, Esapi.Returned r s exchange) :
    (r.length ≤ algorithm.ecdsaComponentSize → s.length ≤ algorithm.ecdsaComponentSize →
      ∃ raw, result = .ok raw ∧ raw.length = 2 * algorithm.ecdsaComponentSize ∧
        ReadsBack algorithm raw r s) ∧
    (algorithm.ecdsaComponentSize < r.length ∨ algorithm.ecdsaComponentSize < s.length →
      result = .error .invalidObject) ∧
    (∀ signature : Bytes, signature.length ≠ 2 * algorithm.ecdsaComponentSize →
      ecdsaSignatureResponse algorithm signature = .error .invalidSignature) := by
  have settled := Esapi.sign_returned tss followed succeeded returned
  rw [rawSignature_ecDsa] at settled
  refine ⟨fun rFits sFits => ?_, fun long => ?_, ecdsaSignatureResponse_refused algorithm⟩
  · rw [if_pos ⟨rFits, sFits⟩] at settled
    refine ⟨_, settled, ?_, readsBack_padded algorithm r s rFits sFits⟩
    rw [List.length_append, length_padded algorithm r rFits, length_padded algorithm s sFits]
    omega
  · rwa [if_neg (by omega)] at settled

/-- The conversions on which the sample run relies: the public area is a template
that passes the checks, and the bounded buffers accept what they are given. -/
def sampleTss : Esapi.Tss where
  unmarshall _ := some (.ecc ⟨true, true, true, true, true, false, false, true⟩ .nistP256
    (.ecDsa .sha256) [] [])
  privateOf bytes := some bytes
  authOf bytes := some bytes
  digestOf bytes := .ok bytes
  hashcheckTicket := .ok ()
  ecDsaScheme hash := .ok (.ecDsa hash)

/-- A run without a PIN in which the TPM returns a one-byte component with the
sign bit set and a component with leading zeros. -/
def sampleTranscript : List (Program.Exchange Esapi.Operation Esapi.Answer) :=
  [⟨.startAuthSession ⟨1⟩ none, .ok (some ⟨2⟩)⟩,
    ⟨.trSessSetAttributes ⟨2⟩ true true, .ok ()⟩,
    ⟨.load ⟨2⟩ ⟨1⟩ [7] (.ecc ⟨true, true, true, true, true, false, false, true⟩ .nistP256
      (.ecDsa .sha256) [] []), .ok ⟨3⟩⟩,
    ⟨.flushContext (.session ⟨2⟩), .ok ()⟩,
    ⟨.trSetAuth ⟨3⟩ [], .ok ()⟩,
    ⟨.startAuthSession ⟨1⟩ (some ⟨3⟩), .ok (some ⟨4⟩)⟩,
    ⟨.trSessSetAttributes ⟨4⟩ true true, .ok ()⟩,
    ⟨.sign ⟨4⟩ ⟨3⟩ (List.replicate 32 9) .sha256, .ok (.ecDsa [200] [0, 0, 5])⟩,
    ⟨.flushContext (.session ⟨4⟩), .ok ()⟩,
    ⟨.flushContext (.key ⟨3⟩), .ok ()⟩]

/-- The sample run satisfies the hypotheses and reads back both integers. -/
theorem sample_signature_survives :
    ∃ raw : Bytes, raw.length = 64 ∧ ReadsBack .ecdsaNistP256 raw [200] [0, 0, 5] := by
  have followed : Program.Follows (Esapi.sign sampleTss ⟨⟨1⟩, [5]⟩ ⟨[6], [7], [5], .noPin⟩ .ecdsaNistP256
      (List.replicate 32 9) .none).run sampleTranscript
      (.done (.ok (padded .ecdsaNistP256 [200] ++ padded .ecdsaNistP256 [0, 0, 5]))) :=
    (Program.follow_eq_some _ _ _).mp rfl
  have succeeded : ∀ exchange ∈ sampleTranscript, Esapi.Succeeded exchange := by
    simp [sampleTranscript, Esapi.Succeeded, Except.isOk, Except.toBool]
  have returned : ∃ exchange ∈ sampleTranscript, Esapi.Returned [200] [0, 0, 5] exchange :=
    ⟨_, by simp [sampleTranscript], ⟨4⟩, ⟨3⟩, List.replicate 32 9, .sha256, rfl⟩
  obtain ⟨raw, _, width, reads⟩ :=
    (signature_survives_the_wire sampleTss followed succeeded returned).1 (by decide) (by decide)
  exact ⟨raw, width, reads⟩

end Keyvisor.Signature
