import Keyvisor.Signature
import Mathlib.Algebra.Order.BigOperators.Group.List

/-!
# The identity list on the wire

The response encoder tests the packet limit after every string it appends, and once
more at the end. All these tests together are one bound on the final size, because
the output only grows: a list is encoded exactly when its whole payload fits, and a
strict reader of the frame gets back every public key with its name, in order.
-/

namespace Keyvisor.Identities

open Foundation Foundation.Text Foundation.Reader Protocol Signature

/-! ## The size of a response -/

/-- What one identity takes in the payload: two length prefixes and two strings. -/
def identitySize (key : KeySummary) : Nat := 8 + key.publicKey.length + (utf8 key.name).length

/-- The message type, the count and all identities. -/
def responseSize (keys : List KeySummary) : Nat := 5 + (keys.map identitySize).sum

/-- One identity as it is written. -/
def spelling (identity : Bytes × Bytes) : Bytes := field identity.1 ++ field identity.2

/-- The strings of a key, in the order in which they are written. -/
def identity (key : KeySummary) : Bytes × Bytes := (key.publicKey, utf8 key.name)

/-- The identities one after the other. -/
def payload (keys : List KeySummary) : Bytes :=
  ssh2AgentIdentitiesAnswer :: (u32be keys.length ++ (keys.map identity).flatMap spelling)

/-- The spelling of an identity has the size that is counted for it. -/
theorem length_spelling (key : KeySummary) : (spelling (identity key)).length = identitySize key := by
  simp only [spelling, identity, List.length_append, length_field, identitySize]
  omega

/-- The payload has the size that is counted for the response. -/
theorem length_payload (keys : List KeySummary) : (payload keys).length = responseSize keys := by
  have identities : ((keys.map identity).flatMap spelling).length = (keys.map identitySize).sum := by
    induction keys with
    | nil => rfl
    | cons key rest inductionHypothesis =>
      rw [List.map_cons, List.flatMap_cons, List.length_append, length_spelling, inductionHypothesis,
        List.map_cons, List.sum_cons]
  simp only [payload, u32be, List.length_cons, List.length_append, BigEndian.length_encode, identities, responseSize]
  omega

/-- Both strings of an identity fit exactly when the identity as a whole does. -/
theorem pushIdentity_eq (output : Bytes) (key : KeySummary) : pushIdentity output key =
    if output.length + identitySize key ≤ maxPacketLength then .ok (output ++ spelling (identity key))
    else .error .packetTooLarge := by
  by_cases first : output.length + 4 + key.publicKey.length ≤ maxPacketLength
  · have size : (output ++ field key.publicKey).length + 4 + (utf8 key.name).length =
        output.length + identitySize key := by
      simp only [List.length_append, length_field, identitySize]
      omega
    simp only [pushIdentity, pushString_eq, if_pos first, bind, Except.bind, size]
    split
    · rw [spelling, identity, List.append_assoc]
    · rfl
  · have beyond : ¬ output.length + identitySize key ≤ maxPacketLength := by
      simp only [identitySize]
      omega
    simp only [pushIdentity, pushString_eq, if_neg first, if_neg beyond, bind, Except.bind]

/-- The loop succeeds exactly when the output that it would end with fits. The
induction is on the keys that are left; an output within the limit carries it. -/
theorem pushIdentities_eq (keys : List KeySummary) (output : Bytes) (within : output.length ≤ maxPacketLength) :
    keys.foldlM pushIdentity output =
      if output.length + (keys.map identitySize).sum ≤ maxPacketLength then
        .ok (output ++ (keys.map identity).flatMap spelling)
      else .error .packetTooLarge := by
  induction keys generalizing output with
  | nil => simp [within, pure, Except.pure]
  | cons key rest inductionHypothesis =>
    rw [List.foldlM_cons, pushIdentity_eq]
    by_cases fits : output.length + identitySize key ≤ maxPacketLength
    · have grown : (output ++ spelling (identity key)).length = output.length + identitySize key := by
        rw [List.length_append, length_spelling]
      rw [if_pos fits]
      show rest.foldlM pushIdentity _ = _
      rw [inductionHypothesis _ (by omega), grown, List.map_cons, List.map_cons, List.sum_cons,
        List.flatMap_cons, List.append_assoc, Nat.add_assoc]
    · rw [if_neg fits, if_neg (by rw [List.map_cons, List.sum_cons]; omega)]
      rfl

/-- Every identity takes eight bytes for its prefixes alone. -/
theorem count_le_size (keys : List KeySummary) : 8 * keys.length ≤ (keys.map identitySize).sum := by
  induction keys with
  | nil => exact Nat.le_refl 0
  | cons key rest inductionHypothesis =>
    rw [List.map_cons, List.sum_cons, List.length_cons, identitySize]
    omega

/-- A response is the framed payload when the payload fits, and nothing else. -/
theorem identitiesResponse_eq (keys : List KeySummary) : identitiesResponse keys =
    if responseSize keys ≤ maxPacketLength then .ok (field (payload keys)) else .error .packetTooLarge := by
  have grows := count_le_size keys
  have header : ([ssh2AgentIdentitiesAnswer] ++ BigEndian.encode 4 keys.length).length = 5 := by
    rw [List.length_append, BigEndian.length_encode]
    rfl
  by_cases few : 2 ^ 32 ≤ keys.length
  · have large : ¬ responseSize keys ≤ maxPacketLength := by
      simp only [responseSize, maxPacketLength]
      omega
    rw [identitiesResponse, if_pos few, if_neg large]
  · have loop := pushIdentities_eq keys ([ssh2AgentIdentitiesAnswer] ++ BigEndian.encode 4 keys.length)
      (by rw [header]; decide)
    rw [header] at loop
    rw [identitiesResponse, if_neg few]
    show (keys.foldlM pushIdentity _ >>= checkedFrame) = _
    rw [loop]
    by_cases fits : responseSize keys ≤ maxPacketLength
    · have bounded : ¬ maxPacketLength < (payload keys).length := by
        rw [length_payload]
        omega
      rw [if_pos fits, if_pos (show 5 + _ ≤ _ from fits)]
      show checkedFrame (payload keys) = _
      rw [checkedFrame, dif_neg bounded]
      rfl
    · rw [if_neg fits, if_neg (show ¬ 5 + _ ≤ _ from fits)]
      rfl

/-! ## Strict decoding -/

/-- A key blob and its comment. -/
def readIdentity : Reader ProtocolError (Bytes × Bytes) := do
  let publicKey ← takeString
  let comment ← takeString
  return (publicKey, comment)

/-- The message type, a count, and that many identities. -/
def readIdentities : Reader ProtocolError (List (Bytes × Bytes)) := do
  let messageType ← Reader.byte .truncated
  Reader.require (messageType == 12) .unsupportedRequest
  let count ← takeU32
  Reader.times readIdentity count.toNat

/-- Strict reading of one identity list frame: the announced bytes are all there is,
outside and inside. -/
def decodeIdentities (frame : Bytes) : Option (List (Bytes × Bytes)) := do
  let payload ← wholeString frame
  (complete readIdentities .trailingData payload).toOption

/-- An identity is recognised in its spelling. -/
theorem recognises_readIdentity : Recognises readIdentity (fun identity bytes =>
    (identity.1.length < 2 ^ 32 ∧ identity.2.length < 2 ^ 32) ∧ bytes = spelling identity) := by
  refine (recognises_takeString.leading fun publicKey => recognises_takeString.leading fun comment =>
    recognises_pure (publicKey, comment)).congr ?_
  intro identity bytes
  constructor
  · rintro ⟨publicKey, keyFits, _, ⟨comment, commentFits, _, ⟨rfl, rfl⟩, rfl⟩, rfl⟩
    exact ⟨⟨keyFits, commentFits⟩, by rw [List.append_nil]; rfl⟩
  · rintro ⟨⟨keyFits, commentFits⟩, rfl⟩
    exact ⟨identity.1, keyFits, _, ⟨identity.2, commentFits, [], ⟨rfl, rfl⟩, (List.append_nil _).symm⟩, rfl⟩

/-- The reader accepts exactly the payloads of lists of strings whose lengths fit
their prefixes. -/
theorem recognises_readIdentities : Recognises readIdentities (fun identities bytes =>
    identities.length < 2 ^ 32 ∧
    (∀ identity ∈ identities, identity.1.length < 2 ^ 32 ∧ identity.2.length < 2 ^ 32) ∧
    bytes = 12 :: (u32be identities.length ++ identities.flatMap spelling)) := by
  refine ((recognises_byte _).bind fun messageType => (recognises_require _ _).bind fun _ =>
    recognises_takeU32.bind fun count => recognises_times recognises_readIdentity count.toNat).congr ?_
  intro identities bytes
  constructor
  · rintro ⟨messageType, _, _, rfl, ⟨_, _, _, ⟨known, rfl⟩, ⟨count, _, _, rfl, ⟨counted, announced, rfl⟩, rfl⟩,
      rfl⟩, rfl⟩
    obtain rfl := eq_of_beq known
    exact ⟨counted ▸ count.toNat_lt, announced, by rw [counted]; rfl⟩
  · rintro ⟨few, announced, rfl⟩
    have kept : (UInt32.ofNat identities.length).toNat = identities.length := UInt32.toNat_ofNat_of_lt' few
    exact ⟨12, [12], _, rfl, ⟨(), [], _, ⟨beq_self_eq_true _, rfl⟩,
      ⟨UInt32.ofNat identities.length, _, _, rfl, ⟨kept.symm, announced, rfl⟩, rfl⟩, rfl⟩, by rw [kept]; rfl⟩

/-- One identity is not larger than the whole response. -/
theorem identitySize_le (keys : List KeySummary) {key : KeySummary} (member : key ∈ keys) :
    identitySize key ≤ responseSize keys := by
  have part : identitySize key ≤ (keys.map identitySize).sum :=
    List.le_sum_of_mem (List.mem_map_of_mem member)
  rw [responseSize]
  omega

/-- The frame of a list within the limit is read back as the strings of its keys. -/
theorem decodeIdentities_field (keys : List KeySummary) (fits : responseSize keys ≤ maxPacketLength) :
    decodeIdentities (field (payload keys)) = some (keys.map identity) := by
  have limit : maxPacketLength < 2 ^ 32 := by decide
  have grows := count_le_size keys
  have outer := wholeString_field (payload keys) (by rw [length_payload]; omega)
  have few : keys.length < 2 ^ 32 := by
    rw [responseSize] at fits
    omega
  have announced : ∀ pair ∈ keys.map identity, pair.1.length < 2 ^ 32 ∧ pair.2.length < 2 ^ 32 := by
    intro pair member
    obtain ⟨key, listed, rfl⟩ := List.mem_map.mp member
    have small := identitySize_le keys listed
    simp only [identitySize] at small
    constructor
    · show key.publicKey.length < 2 ^ 32
      omega
    · show (utf8 key.name).length < 2 ^ 32
      omega
  have inner := (complete_eq_ok ProtocolError.trailingData recognises_readIdentities (payload keys)
    (keys.map identity)).mpr ⟨by rwa [List.length_map], announced, by rw [List.length_map]; rfl⟩
  refine Option.bind_eq_some_iff.mpr ⟨_, outer, ?_⟩
  rw [inner]
  rfl

/-- A list of identities is encoded exactly when its payload fits a packet, and a
strict reader of the frame then finds every public key with its name and nothing
else. No other list gets a frame, and the length of a framed payload always fits its
prefix. -/
theorem identities_response_exact (keys : List KeySummary) :
    ((∃ packet, identitiesResponse keys = .ok packet) ↔
      5 + (keys.map fun key => 8 + key.publicKey.length + (utf8 key.name).length).sum ≤ 262144) ∧
    (∀ packet, identitiesResponse keys = .ok packet →
      decodeIdentities packet = some (keys.map fun key => (key.publicKey, utf8 key.name))) ∧
    (262144 < 5 + (keys.map fun key => 8 + key.publicKey.length + (utf8 key.name).length).sum →
      identitiesResponse keys = .error .packetTooLarge) ∧
    (∀ content packet, checkedFrame content = .ok packet →
      content.length < 2 ^ 32 ∧ packet = BigEndian.encode 4 content.length ++ content) := by
  refine ⟨?_, ?_, ?_, ?_⟩
  · rw [identitiesResponse_eq]
    show _ ↔ responseSize keys ≤ maxPacketLength
    by_cases fits : responseSize keys ≤ maxPacketLength
    · rw [if_pos fits]
      exact ⟨fun _ => fits, fun _ => ⟨_, rfl⟩⟩
    · rw [if_neg fits]
      constructor
      · rintro ⟨_, impossible⟩
        cases impossible
      · exact fun within => absurd within fits
  · intro packet encoded
    rw [identitiesResponse_eq] at encoded
    by_cases fits : responseSize keys ≤ maxPacketLength
    · rw [if_pos fits] at encoded
      cases encoded
      exact decodeIdentities_field keys fits
    · rw [if_neg fits] at encoded
      cases encoded
  · intro large
    rw [identitiesResponse_eq, if_neg (Nat.not_le.mpr (show maxPacketLength < responseSize keys from large))]
  · intro content packet framed
    unfold checkedFrame at framed
    split at framed
    · cases framed
    · rename_i bounded
      cases framed
      simp only [maxPacketLength] at bounded
      exact ⟨by omega, rfl⟩

end Keyvisor.Identities
