import Keyvisor.Core
import Keyvisor.Foundation.Reader
import Keyvisor.Foundation.Text

/-!
# OpenSSH agent packets

Executable translation of `keyvisor-agent/src/protocol.rs`: the request parser
and the three response encoders, with every error in its source place. A 64-bit
`usize` holds every `u32`, so the conversion in `take_string` cannot fail. The
conversion in `frame` panics in Rust when the payload does not fit 32 bits;
here `frame` demands the proof, so each call site shows that it cannot.

The request grammar is stated independently of the parser. Parsing then splits
all packets into members of the grammar, proper beginnings of members and proper
extensions of members, and no packet is in two of these classes.
-/

namespace Keyvisor.Protocol

open Foundation Foundation.Text

def maxPacketLength : Nat := 256 * 1024

def sshAgentFailure : UInt8 := 5

def ssh2AgentcRequestIdentities : UInt8 := 11

def ssh2AgentIdentitiesAnswer : UInt8 := 12

def ssh2AgentcSignRequest : UInt8 := 13

def ssh2AgentSignResponse : UInt8 := 14

/-- Supported, fully validated agent requests. -/
inductive AgentRequest where
  | requestIdentities
  | sign (publicKey data : Bytes) (flags : UInt32)
  deriving DecidableEq, Repr

/-- `ProtocolError`. -/
inductive ProtocolError where
  | emptyPacket
  | packetTooLarge
  | truncated
  | trailingData
  | unsupportedRequest
  | invalidSignature
  deriving DecidableEq, Repr

/-- The text of a protocol error. -/
def ProtocolError.message : ProtocolError → String
  | emptyPacket => "SSH agent packet is empty"
  | packetTooLarge => "SSH agent packet exceeds its limit"
  | truncated => "SSH agent packet is truncated"
  | trailingData => "SSH agent packet has trailing data"
  | unsupportedRequest => "SSH agent request is unsupported"
  | invalidSignature => "TPM ECDSA signature is invalid"

/-! ## Requests -/

def take (length : Nat) : Reader ProtocolError Bytes := Reader.take .truncated length

/-- `take_u32`. -/
def takeU32 : Reader ProtocolError UInt32 := do
  let number ← Reader.number .truncated 4
  return UInt32.ofNat number

/-- `take_string`. -/
def takeString : Reader ProtocolError Bytes := do
  let length ← takeU32
  take length.toNat

/-- `ensure_empty`. -/
def ensureEmpty (input : Bytes) : Except ProtocolError Unit :=
  if input.isEmpty then .ok () else .error .trailingData

/-- Parse one payload after its outer four-byte packet length. -/
def parseRequest (packet : Bytes) : Except ProtocolError AgentRequest :=
  if packet.isEmpty then .error .emptyPacket
  else if maxPacketLength < packet.length then .error .packetTooLarge
  else match packet with
    | [] => .error .emptyPacket
    | messageType :: input =>
      if messageType = ssh2AgentcRequestIdentities then do
        ensureEmpty input
        return .requestIdentities
      else if messageType = ssh2AgentcSignRequest then do
        let (publicKey, input) ← takeString input
        let (data, input) ← takeString input
        let (flags, input) ← takeU32 input
        ensureEmpty input
        return .sign publicKey data flags
      else .error .unsupportedRequest

/-! ## Responses -/

/-- The outer length and the payload. Its length conversion cannot panic under
the given bound. -/
def frame (payload : Bytes) (_fits : payload.length < 2 ^ 32) : Bytes :=
  BigEndian.encode 4 payload.length ++ payload

/-- A payload with its length, if it is within the limit. -/
def checkedFrame (payload : Bytes) : Except ProtocolError Bytes :=
  if long : maxPacketLength < payload.length then .error .packetTooLarge
  else .ok (frame payload (by simp only [maxPacketLength] at long; omega))

/-- `failure_response`. -/
def failureResponse : Bytes := frame [sshAgentFailure] (by decide)

/-- Append one SSH string. The output length is tested after the append. -/
def pushString (output value : Bytes) : Except ProtocolError Bytes :=
  if 2 ^ 32 ≤ value.length then .error .packetTooLarge
  else
    let output := output ++ BigEndian.encode 4 value.length ++ value
    if maxPacketLength < output.length then .error .packetTooLarge else .ok output

/-- The bytes from the first non-zero one on. -/
def significant (value : Bytes) : Bytes :=
  match value.findIdx? (· != 0) with
  | none => []
  | some first => value.drop first

/-- `push_mpint`. -/
def pushMpint (output value : Bytes) : Except ProtocolError Bytes :=
  let value := significant value
  if value.head?.any (fun byte => byte &&& 0x80 != 0) then
    pushString output (0 :: value)
  else
    pushString output value

/-- One identity: the public key blob, then the comment. -/
def pushIdentity (payload : Bytes) (key : KeySummary) : Except ProtocolError Bytes := do
  let payload ← pushString payload key.publicKey
  pushString payload (utf8 key.name)

/-- `identities_response`. -/
def identitiesResponse (keys : List KeySummary) : Except ProtocolError Bytes :=
  if 2 ^ 32 ≤ keys.length then .error .packetTooLarge
  else do
    let payload := [ssh2AgentIdentitiesAnswer] ++ BigEndian.encode 4 keys.length
    let payload ← keys.foldlM pushIdentity payload
    checkedFrame payload

/-- `ecdsa_signature_response`. -/
def ecdsaSignatureResponse (algorithm : KeyAlgorithm) (signature : Bytes) :
    Except ProtocolError Bytes :=
  let width := algorithm.ecdsaComponentSize
  if signature.length < width then .error .invalidSignature
  else
    let (r, s) := signature.splitAt width
    if s.length ≠ width then .error .invalidSignature
    else do
      let ecdsa ← pushMpint [] r
      let ecdsa ← pushMpint ecdsa s
      let signatureBlob ← pushString [] (utf8 algorithm.sshKeyType)
      let signatureBlob ← pushString signatureBlob ecdsa
      let payload ← pushString [ssh2AgentSignResponse] signatureBlob
      checkedFrame payload

/-! ## The request grammar -/

/-- A 32-bit number in network order. -/
def u32be (number : Nat) : Bytes := BigEndian.encode 4 number

/-- The packets that denote a request, with the request they denote. -/
inductive Denotes : Bytes → AgentRequest → Prop where
  | identities : Denotes [11] .requestIdentities
  | sign (publicKey data : Bytes) (flags : UInt32)
      (keyFits : publicKey.length < 2 ^ 32) (dataFits : data.length < 2 ^ 32) :
      Denotes (13 :: (u32be publicKey.length ++ publicKey ++
        (u32be data.length ++ data ++ u32be flags.toNat))) (.sign publicKey data flags)

/-- What the parser expects behind each supported message type. -/
def readBody (messageType : UInt8) : Reader ProtocolError AgentRequest :=
  if messageType = ssh2AgentcRequestIdentities then pure .requestIdentities
  else if messageType = ssh2AgentcSignRequest then do
    let publicKey ← takeString
    let data ← takeString
    let flags ← takeU32
    return .sign publicKey data flags
  else throw .unsupportedRequest

/-- The spellings behind one message type, read off the grammar. -/
def spellsBody (messageType : UInt8) : Reader.Grammar AgentRequest := fun request body =>
  Denotes (messageType :: body) request

/-- Every 32-bit number is spelled by its four bytes. -/
theorem recognises_takeU32 :
    Reader.Recognises takeU32 (fun number bytes => bytes = u32be number.toNat) := by
  refine ((Reader.recognises_number _ 4).bind fun number => Reader.recognises_pure _).congr ?_
  intro number bytes
  constructor
  · rintro ⟨read, _, _, ⟨fits, rfl⟩, ⟨rfl, rfl⟩, rfl⟩
    have kept : (UInt32.ofNat read).toNat = read := UInt32.toNat_ofNat_of_lt' (by simpa using fits)
    rw [kept, List.append_nil, u32be]
  · rintro rfl
    have fits : number.toNat < 256 ^ 4 := number.toNat_lt
    exact ⟨number.toNat, _, [], ⟨fits, rfl⟩, ⟨by simp, rfl⟩, by simp [u32be]⟩

/-- A shorter number is reported as truncated. -/
theorem truncates_takeU32 :
    Reader.Truncates takeU32 (fun number bytes => bytes = u32be number.toNat) .truncated := by
  intro input error refused
  rw [takeU32, Reader.bind_run] at refused
  cases run : Reader.number ProtocolError.truncated 4 input with
  | ok result => rw [run] at refused; cases refused
  | error early =>
    rw [run] at refused
    cases refused
    obtain ⟨rfl, number, missing, nonempty, fits, spelled⟩ := Reader.truncates_number _ 4 input _ run
    refine ⟨rfl, UInt32.ofNat number, missing, nonempty, ?_⟩
    show input ++ missing = u32be (UInt32.ofNat number).toNat
    rw [UInt32.toNat_ofNat_of_lt' (by simpa using fits)]
    exact spelled

/-- An SSH string is its 32-bit length and its bytes. -/
def spellsString : Reader.Grammar Bytes := fun value bytes =>
  value.length < 2 ^ 32 ∧ bytes = u32be value.length ++ value

/-- Announcing a length and then taking that many bytes spells exactly the SSH
strings. -/
theorem spellsString_iff (value bytes : Bytes) :
    Reader.andThen (fun (number : UInt32) bytes => bytes = u32be number.toNat)
      (fun number value bytes => value = bytes ∧ bytes.length = number.toNat) value bytes ↔
      spellsString value bytes := by
  constructor
  · rintro ⟨length, _, _, rfl, ⟨rfl, size⟩, rfl⟩
    exact ⟨size ▸ length.toNat_lt, by rw [size]⟩
  · rintro ⟨fits, rfl⟩
    have kept : (UInt32.ofNat value.length).toNat = value.length := UInt32.toNat_ofNat_of_lt' fits
    exact ⟨UInt32.ofNat value.length, _, _, rfl, ⟨rfl, kept.symm⟩, by rw [kept]⟩

/-- A string is recognised in its spelling. -/
theorem recognises_takeString : Reader.Recognises takeString spellsString :=
  (recognises_takeU32.bind fun length => Reader.recognises_take _ length.toNat).congr spellsString_iff

/-- A shorter string is reported as truncated. -/
theorem truncates_takeString : Reader.Truncates takeString spellsString .truncated := by
  have composed := truncates_takeU32.bind recognises_takeU32
    (fun length => Reader.truncates_take ProtocolError.truncated length.toNat)
    (fun length => ⟨_, List.replicate length.toNat 0, rfl, List.length_replicate⟩)
  intro input error refused
  obtain ⟨rfl, value, missing, nonempty, spelled⟩ := composed input error refused
  exact ⟨rfl, value, missing, nonempty, (spellsString_iff _ _).mp spelled⟩

/-- The grammar behind a sign request, field by field. -/
theorem spellsBody_sign (request : AgentRequest) (body : Bytes) :
    spellsBody 13 request body ↔
      Reader.andThen spellsString (fun publicKey => Reader.andThen spellsString
        (fun data => Reader.andThen (fun (number : UInt32) bytes => bytes = u32be number.toNat)
          (fun flags value bytes => value = .sign publicKey data flags ∧ bytes = []))) request body := by
  constructor
  · intro denoted
    obtain - | ⟨publicKey, data, flags, keyFits, dataFits⟩ := denoted
    exact ⟨publicKey, _, _, ⟨keyFits, rfl⟩, ⟨data, _, _, ⟨dataFits, rfl⟩,
      ⟨flags, _, [], rfl, ⟨rfl, rfl⟩, (List.append_nil _).symm⟩, rfl⟩, rfl⟩
  · rintro ⟨publicKey, _, _, ⟨keyFits, rfl⟩, ⟨data, _, _, ⟨dataFits, rfl⟩,
      ⟨flags, _, _, rfl, ⟨rfl, rfl⟩, rfl⟩, rfl⟩, rfl⟩
    rw [List.append_nil]
    exact .sign publicKey data flags keyFits dataFits

/-- Behind each supported message type the body reader accepts exactly what the
grammar puts there. -/
theorem recognises_readBody (messageType : UInt8) (supported : messageType = 11 ∨ messageType = 13) :
    Reader.Recognises (readBody messageType) (spellsBody messageType) := by
  rcases supported with rfl | rfl
  · refine (Reader.recognises_pure AgentRequest.requestIdentities).congr fun request body => ?_
    constructor
    · rintro ⟨rfl, rfl⟩
      exact .identities
    · intro denoted
      cases denoted
      exact ⟨rfl, rfl⟩
  · exact (recognises_takeString.bind fun publicKey => recognises_takeString.bind fun data =>
      recognises_takeU32.bind fun flags => Reader.recognises_pure _).congr
        fun request body => (spellsBody_sign request body).symm

/-- Behind each supported message type the only refusal is a missing suffix. -/
theorem truncates_readBody (messageType : UInt8) (supported : messageType = 11 ∨ messageType = 13) :
    Reader.Truncates (readBody messageType) (spellsBody messageType) .truncated := by
  rcases supported with rfl | rfl
  · exact Reader.truncates_pure _ _ _
  · have flagsStep (publicKey data : Bytes) := truncates_takeU32.bind recognises_takeU32
      (fun flags => Reader.truncates_pure (AgentRequest.sign publicKey data flags)
        (fun value bytes => value = .sign publicKey data flags ∧ bytes = []) ProtocolError.truncated)
      (fun flags => ⟨_, [], rfl, rfl⟩)
    have flagsCompletable (publicKey data : Bytes) : ∃ final bytes,
        Reader.andThen (fun (number : UInt32) bytes => bytes = u32be number.toNat)
          (fun flags value bytes => value = AgentRequest.sign publicKey data flags ∧ bytes = [])
          final bytes := ⟨_, _, 0, _, [], rfl, ⟨rfl, rfl⟩, rfl⟩
    have emptyString : spellsString [] (u32be 0 ++ []) := ⟨by decide, rfl⟩
    have dataStep (publicKey : Bytes) := truncates_takeString.bind recognises_takeString
      (flagsStep publicKey) (flagsCompletable publicKey)
    have dataCompletable (publicKey : Bytes) : ∃ final bytes, Reader.andThen spellsString
        (fun data => Reader.andThen (fun (number : UInt32) bytes => bytes = u32be number.toNat)
          (fun flags value bytes => value = AgentRequest.sign publicKey data flags ∧ bytes = []))
          final bytes := by
      obtain ⟨final, bytes, spelled⟩ := flagsCompletable publicKey []
      exact ⟨final, _, [], _, bytes, emptyString, spelled, rfl⟩
    have composed := truncates_takeString.bind recognises_takeString dataStep dataCompletable
    intro input error refused
    obtain ⟨rfl, request, missing, nonempty, spelled⟩ := composed input error refused
    exact ⟨rfl, request, missing, nonempty, (spellsBody_sign _ _).mpr spelled⟩

/-- A bounded packet with a supported type is parsed by its body reader, and
anything left over is trailing data. -/
theorem parseRequest_body (messageType : UInt8) (input : Bytes)
    (supported : messageType = 11 ∨ messageType = 13)
    (bounded : (messageType :: input).length ≤ maxPacketLength) :
    parseRequest (messageType :: input) = match readBody messageType input with
      | .ok (request, []) => .ok request
      | .ok (_, _ :: _) => .error .trailingData
      | .error error => .error error := by
  have short : ¬ maxPacketLength < (messageType :: input).length := by omega
  rcases supported with rfl | rfl
  · have reads : readBody 11 input = .ok (.requestIdentities, input) := rfl
    simp only [parseRequest, List.isEmpty_cons, Bool.false_eq_true, ↓reduceIte, short,
      ssh2AgentcRequestIdentities, reads]
    cases input with
    | nil => rfl
    | cons first rest => rfl
  · simp only [parseRequest, List.isEmpty_cons, Bool.false_eq_true, ↓reduceIte, short,
      ssh2AgentcRequestIdentities, ssh2AgentcSignRequest, readBody, Reader.bind_run,
      show ¬ (13 : UInt8) = 11 by decide]
    cases takeString input with
    | error error => rfl
    | ok first =>
      obtain ⟨publicKey, input⟩ := first
      simp only [bind, Except.bind]
      cases takeString input with
      | error error => rfl
      | ok second =>
        obtain ⟨data, input⟩ := second
        dsimp only
        cases takeU32 input with
        | error error => rfl
        | ok third =>
          obtain ⟨flags, input⟩ := third
          cases input <;> rfl

/-! ## Parsing splits all packets -/

/-- The packet denotes a request. -/
def Complete (packet : Bytes) : Prop := ∃ request, Denotes packet request

/-- The packet is a proper beginning of a packet that denotes a request. -/
def Unfinished (packet : Bytes) : Prop :=
  ∃ missing request, missing ≠ [] ∧ Denotes (packet ++ missing) request

/-- A proper beginning of the packet denotes a request. -/
def Overlong (packet : Bytes) : Prop :=
  ∃ beginning extra request, extra ≠ [] ∧ packet = beginning ++ extra ∧ Denotes beginning request

/-- Every member of the grammar starts with one of the two message types. -/
theorem denotes_type {packet : Bytes} {request : AgentRequest} (denoted : Denotes packet request) :
    ∃ messageType body, packet = messageType :: body ∧ (messageType = 11 ∨ messageType = 13) := by
  cases denoted with
  | identities => exact ⟨_, _, rfl, .inl rfl⟩
  | sign publicKey data flags keyFits dataFits => exact ⟨_, _, rfl, .inr rfl⟩

/-- Two members of which one begins the other are the same member. -/
theorem denotes_unambiguous {left right extra : Bytes} {leftRequest rightRequest : AgentRequest}
    (leftDenoted : Denotes left leftRequest) (rightDenoted : Denotes right rightRequest)
    (same : left ++ extra = right) : extra = [] ∧ leftRequest = rightRequest := by
  obtain ⟨messageType, leftBody, rfl, supported⟩ := denotes_type leftDenoted
  subst same
  have leftSpelled : spellsBody messageType leftRequest leftBody := leftDenoted
  have rightSpelled : spellsBody messageType rightRequest (leftBody ++ extra) := rightDenoted
  obtain ⟨sameRequest, sameBody⟩ := (recognises_readBody messageType supported).unambiguous extra []
    leftSpelled rightSpelled (List.append_nil _).symm
  exact ⟨List.append_right_eq_self.mp sameBody.symm, sameRequest⟩

/-- What the parser answers on each class of bounded packets. Members return
their own request; the other two classes return the matching error. -/
theorem parseRequest_classes (messageType : UInt8) (input : Bytes)
    (supported : messageType = 11 ∨ messageType = 13)
    (bounded : (messageType :: input).length ≤ maxPacketLength) :
    (∃ request, Denotes (messageType :: input) request ∧
        parseRequest (messageType :: input) = .ok request) ∨
      (Unfinished (messageType :: input) ∧ parseRequest (messageType :: input) = .error .truncated) ∨
      (Overlong (messageType :: input) ∧ parseRequest (messageType :: input) = .error .trailingData) := by
  rw [parseRequest_body messageType input supported bounded]
  cases run : readBody messageType input with
  | error error =>
    obtain ⟨rfl, request, missing, nonempty, spelled⟩ :=
      truncates_readBody messageType supported input error run
    exact .inr (.inl ⟨⟨missing, request, nonempty, spelled⟩, rfl⟩)
  | ok result =>
    obtain ⟨request, rest⟩ := result
    obtain ⟨body, spelled, rfl⟩ := (recognises_readBody messageType supported _ _ _).mp run
    cases rest with
    | nil =>
      rw [List.append_nil]
      exact .inl ⟨request, spelled, rfl⟩
    | cons byte rest =>
      exact .inr (.inr ⟨⟨messageType :: body, byte :: rest, request, by simp, rfl, spelled⟩, rfl⟩)

/-- The three classes exclude each other: the grammar is prefix-free. -/
theorem classes_exclusive (packet : Bytes) :
    ¬ (Complete packet ∧ Unfinished packet) ∧ ¬ (Complete packet ∧ Overlong packet) ∧
      ¬ (Unfinished packet ∧ Overlong packet) := by
  refine ⟨?_, ?_, ?_⟩
  · rintro ⟨⟨request, denoted⟩, missing, other, nonempty, extended⟩
    exact nonempty (denotes_unambiguous denoted extended rfl).1
  · rintro ⟨⟨request, denoted⟩, beginning, extra, other, nonempty, rfl, begun⟩
    exact nonempty (denotes_unambiguous begun denoted rfl).1
  · rintro ⟨⟨missing, request, _, extended⟩, beginning, extra, other, nonempty, rfl, begun⟩
    have joined := (denotes_unambiguous begun extended (List.append_assoc _ _ _).symm).1
    exact nonempty (List.append_eq_nil_iff.mp joined).1

/-- The parser accepts exactly the request grammar. Empty and oversized packets
and unknown types have their own errors. Every other packet is in exactly one of
the three classes, and the class decides the answer: a member returns precisely
its fields, a proper beginning of a member is truncated, and a proper extension
of a member has trailing data. -/
theorem parseRequest_exact (packet : Bytes) :
    (packet = [] → parseRequest packet = .error .emptyPacket) ∧
    (262144 < packet.length → parseRequest packet = .error .packetTooLarge) ∧
    (∀ messageType input, packet = messageType :: input → packet.length ≤ 262144 →
      messageType ≠ 11 → messageType ≠ 13 → parseRequest packet = .error .unsupportedRequest) ∧
    (∀ messageType input, packet = messageType :: input → packet.length ≤ 262144 →
      messageType = 11 ∨ messageType = 13 →
        (Complete packet ∨ Unfinished packet ∨ Overlong packet) ∧
        (¬ (Complete packet ∧ Unfinished packet) ∧ ¬ (Complete packet ∧ Overlong packet) ∧
          ¬ (Unfinished packet ∧ Overlong packet)) ∧
        (∀ request, Denotes packet request → parseRequest packet = .ok request) ∧
        (Unfinished packet → parseRequest packet = .error .truncated) ∧
        (Overlong packet → parseRequest packet = .error .trailingData)) := by
  refine ⟨?_, ?_, ?_, ?_⟩
  · rintro rfl
    rfl
  · intro long
    have nonempty : packet.isEmpty = false := by cases packet <;> simp_all
    have exceeds : maxPacketLength < packet.length := long
    simp only [parseRequest, nonempty, Bool.false_eq_true, ↓reduceIte, exceeds]
  · rintro messageType input rfl bounded notIdentities notSign
    have short : ¬ maxPacketLength < (messageType :: input).length := Nat.not_lt.mpr bounded
    simp only [parseRequest, List.isEmpty_cons, Bool.false_eq_true, ↓reduceIte, short,
      ssh2AgentcRequestIdentities, ssh2AgentcSignRequest, notIdentities, notSign]
  · rintro messageType input rfl bounded supported
    obtain ⟨apart, beyond, between⟩ := classes_exclusive (messageType :: input)
    rcases parseRequest_classes messageType input supported bounded with
      ⟨request, denoted, parsed⟩ | ⟨unfinished, parsed⟩ | ⟨overlong, parsed⟩
    · have complete : Complete (messageType :: input) := ⟨request, denoted⟩
      refine ⟨.inl complete, ⟨apart, beyond, between⟩, ?_, ?_, ?_⟩
      · intro other otherDenoted
        rw [parsed, (denotes_unambiguous denoted otherDenoted (List.append_nil _)).2]
      · exact fun unfinished => absurd ⟨complete, unfinished⟩ apart
      · exact fun overlong => absurd ⟨complete, overlong⟩ beyond
    · refine ⟨.inr (.inl unfinished), ⟨apart, beyond, between⟩, ?_, fun _ => parsed, ?_⟩
      · exact fun request denoted => absurd ⟨⟨request, denoted⟩, unfinished⟩ apart
      · exact fun overlong => absurd ⟨unfinished, overlong⟩ between
    · refine ⟨.inr (.inr overlong), ⟨apart, beyond, between⟩, ?_, ?_, fun _ => parsed⟩
      · exact fun request denoted => absurd ⟨⟨request, denoted⟩, overlong⟩ beyond
      · exact fun unfinished => absurd ⟨unfinished, overlong⟩ between

end Keyvisor.Protocol
