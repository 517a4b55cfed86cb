import Keyvisor.Core
import Keyvisor.Foundation.Directory
import Keyvisor.Foundation.Reader
import Keyvisor.Foundation.Text

/-!
# The stored-key record format

Executable translation of the record validation, encoder and decoder of
`keyvisor-agent/src/lib.rs`. A record is a magic value, two bounded UTF-8 texts,
two tag bytes and four bounded blobs, each length-prefixed with a 32-bit
big-endian count, and nothing after the last blob.

The decoder is settled field by field: each field reader recognises exactly the
spellings its writer produces, and the sequence of fields is the record layout.
Conversions between `u32` and a 64-bit `usize` cannot fail and are not separate
branches here.
-/

namespace Keyvisor.RecordCodec

open Foundation Foundation.Text
open Foundation.Reader (field field_append_inj)

/-- `b"KEYVSR\x00\x01"`. -/
def magic : Bytes := [75, 69, 89, 86, 83, 82, 0, 1]

def maxTextLen : Nat := 4 * 1024

def maxBlobLen : Nat := 1024 * 1024

/-- A complete reloadable TPM-backed key record. -/
structure StoredKey where
  summary : KeySummary
  object : TpmObject
  deriving DecidableEq, Repr

/-- Failures while validating or persisting key metadata. -/
inductive StoreError where
  | io (error : IoError)
  | invalidRecord
  | recordTooLarge
  deriving DecidableEq, Repr

/-- The text of a store error. -/
def StoreError.message : StoreError → String
  | io error => "key store I/O failed: " ++ error.text
  | invalidRecord => "stored key metadata is invalid"
  | recordTooLarge => "stored key metadata exceeds its limit"

/-- Every text and blob is present and bounded, and both policies agree. -/
def validateRecord (key : StoredKey) : Except StoreError Unit :=
  if (utf8 key.summary.id.asStr).isEmpty
      || (utf8 key.summary.name).isEmpty
      || maxTextLen < (utf8 key.summary.id.asStr).length
      || maxTextLen < (utf8 key.summary.name).length
      || key.summary.publicKey.isEmpty
      || maxBlobLen < key.summary.publicKey.length
      || key.object.public.isEmpty
      || maxBlobLen < key.object.public.length
      || key.object.wrappedPrivate.isEmpty
      || maxBlobLen < key.object.wrappedPrivate.length
      || key.object.parentName.isEmpty
      || maxBlobLen < key.object.parentName.length
      || key.summary.usePolicy != key.object.usePolicy then
    .error .invalidRecord
  else
    .ok ()

/-- The tag of an algorithm. -/
def algorithmTag : KeyAlgorithm → UInt8
  | .ecdsaNistP256 => 1
  | .ecdsaNistP384 => 2

/-- The tag of a policy. -/
def policyTag : KeyUsePolicy → UInt8
  | .noPin => 1
  | .tpmPin => 2

/-- The policy of a tag. -/
def readPolicy (tag : UInt8) : Except StoreError KeyUsePolicy :=
  match tag with
  | 1 => .ok .noPin
  | 2 => .ok .tpmPin
  | _ => .error .invalidRecord

/-- The tag match inside `decode`. -/
def readAlgorithm (tag : UInt8) : Except StoreError KeyAlgorithm :=
  match tag with
  | 1 => .ok .ecdsaNistP256
  | 2 => .ok .ecdsaNistP384
  | _ => .error .invalidRecord

/-- Append one length-prefixed field. -/
def pushBytes (output bytes : Bytes) (limit : Nat) : Except StoreError Bytes :=
  Reader.pushCounted .recordTooLarge limit output bytes

/-- `encode`. -/
def encode (key : StoredKey) : Except StoreError Bytes := do
  let output := magic
  let output ← pushBytes output (utf8 key.summary.id.asStr) maxTextLen
  let output ← pushBytes output (utf8 key.summary.name) maxTextLen
  let output := output ++ [algorithmTag key.summary.algorithm]
  let output := output ++ [policyTag key.summary.usePolicy]
  let output ← pushBytes output key.summary.publicKey maxBlobLen
  let output ← pushBytes output key.object.public maxBlobLen
  let output ← pushBytes output key.object.wrappedPrivate maxBlobLen
  pushBytes output key.object.parentName maxBlobLen

def take (length : Nat) : Reader StoreError Bytes := Reader.take .invalidRecord length

/-- `take(input, 1)?[0]`. -/
def takeByte : Reader StoreError UInt8 := Reader.byte .invalidRecord

def readBytes (limit : Nat) : Reader StoreError Bytes :=
  Reader.counted .invalidRecord .recordTooLarge limit

def readText : Reader StoreError String := textField .invalidRecord .recordTooLarge maxTextLen

/-- The fields of `decode` in source order, up to the end-of-input test. -/
def readFields : Reader StoreError StoredKey := do
  let found ← take magic.length
  Reader.require (found == magic) .invalidRecord
  let id ← readText
  let name ← readText
  let algorithm ← readAlgorithm (← takeByte)
  let usePolicy ← readPolicy (← takeByte)
  let publicKey ← readBytes maxBlobLen
  let «public» ← readBytes maxBlobLen
  let wrappedPrivate ← readBytes maxBlobLen
  let parentName ← readBytes maxBlobLen
  return { summary := { id := ⟨id⟩, name, algorithm, usePolicy, publicKey }
           object := { «public», wrappedPrivate, parentName, usePolicy } }

/-- `decode`. -/
def decode (bytes : Bytes) : Except StoreError StoredKey := do
  let (key, input) ← readFields bytes
  if input.isEmpty then
    validateRecord key
    return key
  else
    throw .invalidRecord

/-! ## Fields -/

/-- A byte is recognised as itself. -/
theorem recognises_takeByte :
    Reader.Recognises takeByte (fun tag bytes => bytes = [tag]) := Reader.recognises_byte _

/-- Reading a tag back gives the policy exactly when the tag is its own. -/
theorem readPolicy_eq_ok (tag : UInt8) (policy : KeyUsePolicy) :
    readPolicy tag = .ok policy ↔ tag = policyTag policy := by
  unfold readPolicy
  split <;> cases policy <;> simp_all [policyTag]

/-- Reading a tag back gives the algorithm exactly when the tag is its own. -/
theorem readAlgorithm_eq_ok (tag : UInt8) (algorithm : KeyAlgorithm) :
    readAlgorithm tag = .ok algorithm ↔ tag = algorithmTag algorithm := by
  unfold readAlgorithm
  split <;> cases algorithm <;> simp_all [algorithmTag]

/-- A blob is recognised in a field within the limit. -/
theorem recognises_blob :
    Reader.Recognises (readBytes maxBlobLen)
      (fun blob bytes => blob.length ≤ maxBlobLen ∧ bytes = field blob) :=
  Reader.recognises_counted _ _ _ (by decide)

/-- A text is recognised in a field within the limit. -/
theorem recognises_readText :
    Reader.Recognises readText
      (fun text bytes => (utf8 text).length ≤ maxTextLen ∧ bytes = field (utf8 text)) :=
  recognises_textField _ _ _ (by decide)

/-! ## The layout -/

/-- The eight fields of a record before any of them is interpreted. -/
structure RawRecord where
  id : Bytes
  name : Bytes
  algorithm : UInt8
  policy : UInt8
  publicKey : Bytes
  «public» : Bytes
  wrappedPrivate : Bytes
  parentName : Bytes

/-- The byte layout of a record, for arbitrary field contents. -/
def layout (raw : RawRecord) : Bytes :=
  magic ++ (field raw.id ++ (field raw.name ++ ([raw.algorithm] ++ ([raw.policy] ++
    (field raw.publicKey ++ (field raw.public ++ (field raw.wrappedPrivate ++
      field raw.parentName)))))))

/-- The field contents that `encode` writes for a key. -/
def rawOf (key : StoredKey) : RawRecord where
  id := utf8 key.summary.id.asStr
  name := utf8 key.summary.name
  algorithm := algorithmTag key.summary.algorithm
  policy := policyTag key.summary.usePolicy
  publicKey := key.summary.publicKey
  «public» := key.object.public
  wrappedPrivate := key.object.wrappedPrivate
  parentName := key.object.parentName

/-- Both texts are within the text limit and all four blobs within the blob
limit. -/
structure Bounded (raw : RawRecord) : Prop where
  id : raw.id.length ≤ maxTextLen
  name : raw.name.length ≤ maxTextLen
  publicKey : raw.publicKey.length ≤ maxBlobLen
  «public» : raw.public.length ≤ maxBlobLen
  wrappedPrivate : raw.wrappedPrivate.length ≤ maxBlobLen
  parentName : raw.parentName.length ≤ maxBlobLen

/-- The encoder succeeds exactly on bounded fields and writes their layout. -/
theorem encode_eq_ok (key : StoredKey) (bytes : Bytes) :
    encode key = .ok bytes ↔ Bounded (rawOf key) ∧ bytes = layout (rawOf key) := by
  have push (output written value : Bytes) (limit : Nat) (fits : limit < 256 ^ 4) :
      pushBytes output value limit = .ok written ↔
        value.length ≤ limit ∧ written = output ++ field value :=
    Reader.pushCounted_eq_ok _ limit fits output value written
  simp only [encode, bind_eq_ok, push _ _ _ maxTextLen (by decide),
    push _ _ _ maxBlobLen (by decide)]
  constructor
  · rintro ⟨_, ⟨id, rfl⟩, _, ⟨name, rfl⟩, _, ⟨publicKey, rfl⟩, _, ⟨pub, rfl⟩, _,
      ⟨wrapped, rfl⟩, parent, rfl⟩
    exact ⟨⟨id, name, publicKey, pub, wrapped, parent⟩, by simp [layout, rawOf]⟩
  · rintro ⟨⟨id, name, publicKey, pub, wrapped, parent⟩, rfl⟩
    exact ⟨_, ⟨id, rfl⟩, _, ⟨name, rfl⟩, _, ⟨publicKey, rfl⟩, _, ⟨pub, rfl⟩, _,
      ⟨wrapped, rfl⟩, parent, by simp [layout, rawOf]⟩

/-- The field readers in sequence accept exactly the layout of bounded fields.
The decoded object always carries the policy of its summary. -/
theorem recognises_readFields :
    Reader.Recognises readFields (fun key bytes => Bounded (rawOf key) ∧
      key.object.usePolicy = key.summary.usePolicy ∧ bytes = layout (rawOf key)) := by
  refine (Reader.Recognises.marked (recognises_readText.leading fun id => recognises_readText.leading fun name =>
    recognises_takeByte.tagged readAlgorithm_eq_ok fun algorithm =>
    recognises_takeByte.tagged readPolicy_eq_ok fun usePolicy =>
    recognises_blob.leading fun publicKey => recognises_blob.leading fun publicArea =>
    recognises_blob.leading fun wrappedPrivate => recognises_blob.leading fun parentName =>
    Reader.recognises_pure _) _ _ magic).congr ?_
  intro key bytes
  constructor
  · rintro ⟨_, ⟨id, idFits, _, ⟨name, nameFits, _, ⟨algorithm, _, ⟨usePolicy, _, ⟨publicKey, publicKeyFits, _,
      ⟨pub, publicFits, _, ⟨wrapped, wrappedFits, _, ⟨parent, parentFits, _, ⟨rfl, rfl⟩, rfl⟩, rfl⟩, rfl⟩, rfl⟩,
      rfl⟩, rfl⟩, rfl⟩, rfl⟩, rfl⟩
    exact ⟨⟨idFits, nameFits, publicKeyFits, publicFits, wrappedFits, parentFits⟩, rfl,
      by simp [layout, rawOf, KeyId.asStr]⟩
  · obtain ⟨⟨⟨id⟩, name, algorithm, usePolicy, publicKey⟩, ⟨pub, wrapped, parent, objectPolicy⟩⟩ := key
    rintro ⟨⟨idFits, nameFits, publicKeyFits, publicFits, wrappedFits, parentFits⟩, agree, rfl⟩
    cases agree
    exact ⟨_, ⟨id, idFits, _, ⟨name, nameFits, _, ⟨algorithm, _, ⟨usePolicy, _, ⟨publicKey, publicKeyFits, _,
      ⟨pub, publicFits, _, ⟨wrapped, wrappedFits, _, ⟨parent, parentFits, [], ⟨rfl, rfl⟩,
      (List.append_nil _).symm⟩, rfl⟩, rfl⟩, rfl⟩, rfl⟩, rfl⟩, rfl⟩, rfl⟩, rfl⟩

/-- Validation bounds every field, so a valid record always encodes. -/
theorem bounded_of_valid (key : StoredKey) (valid : validateRecord key = .ok ()) :
    Bounded (rawOf key) ∧ key.object.usePolicy = key.summary.usePolicy := by
  unfold validateRecord at valid
  split at valid
  · cases valid
  · rename_i accepted
    simp only [Bool.or_eq_true, decide_eq_true_eq, not_or, Nat.not_lt, bne_iff_ne, ne_eq,
      not_not] at accepted
    obtain ⟨⟨⟨⟨⟨⟨⟨⟨⟨⟨⟨⟨_, _⟩, id⟩, name⟩, _⟩, publicKey⟩, _⟩, pub⟩, _⟩, wrapped⟩, _⟩, parent⟩, agree⟩ :=
      accepted
    exact ⟨⟨id, name, publicKey, pub, wrapped, parent⟩, agree.symm⟩

/-- Decoding is reading the whole input as one layout and validating the key. -/
theorem decode_eq_ok (bytes : Bytes) (key : StoredKey) :
    decode bytes = .ok key ↔ readFields bytes = .ok (key, []) ∧ validateRecord key = .ok () := by
  unfold decode
  cases run : readFields bytes with
  | error error => simp [bind, Except.bind]
  | ok result =>
    obtain ⟨read, input⟩ := result
    cases input with
    | cons byte rest => simp [bind, Except.bind]
    | nil =>
      cases valid : validateRecord read with
      | error error =>
        simp only [bind, Except.bind, List.isEmpty_nil, ↓reduceIte, valid, reduceCtorEq, Except.ok.injEq,
          Prod.mk.injEq, and_true, false_iff, not_and]
        rintro rfl
        simp [valid]
      | ok _ =>
        simp only [bind, Except.bind, List.isEmpty_nil, ↓reduceIte, valid, pure, Except.pure,
          Except.ok.injEq, Prod.mk.injEq, and_true]
        constructor
        · rintro rfl
          exact ⟨rfl, valid⟩
        · exact fun both => both.1

/-- Acceptance in terms of the layout alone. -/
theorem decode_layout (bytes : Bytes) (key : StoredKey) :
    decode bytes = .ok key ↔ validateRecord key = .ok () ∧ bytes = layout (rawOf key) := by
  rw [decode_eq_ok, recognises_readFields]
  constructor
  · rintro ⟨⟨_, ⟨_, _, rfl⟩, rfl⟩, valid⟩
    exact ⟨valid, List.append_nil _⟩
  · rintro ⟨valid, rfl⟩
    obtain ⟨bounded, agree⟩ := bounded_of_valid key valid
    exact ⟨⟨_, ⟨bounded, agree, rfl⟩, (List.append_nil _).symm⟩, valid⟩

/-- No announced length is cut off by the 32-bit prefix. -/
structure Announced (raw : RawRecord) : Prop where
  id : raw.id.length < 2 ^ 32
  name : raw.name.length < 2 ^ 32
  publicKey : raw.publicKey.length < 2 ^ 32
  «public» : raw.public.length < 2 ^ 32
  wrappedPrivate : raw.wrappedPrivate.length < 2 ^ 32
  parentName : raw.parentName.length < 2 ^ 32

/-- Lengths within the limits can be announced. -/
theorem announced_of_bounded (raw : RawRecord) (bounded : Bounded raw) : Announced raw := by
  obtain ⟨id, name, publicKey, pub, wrapped, parent⟩ := bounded
  simp only [maxTextLen, maxBlobLen] at *
  constructor <;> omega

/-- Announced fields are determined by their layout, field after field. -/
theorem layout_injective (left right : RawRecord) (leftFits : Announced left)
    (rightFits : Announced right) (same : layout left = layout right) : left = right := by
  obtain ⟨leftId, leftName, leftKey, leftPublic, leftWrapped, leftParent⟩ := leftFits
  obtain ⟨rightId, rightName, rightKey, rightPublic, rightWrapped, rightParent⟩ := rightFits
  have fields := List.append_cancel_left same
  obtain ⟨id, fields⟩ := field_append_inj leftId rightId fields
  obtain ⟨name, fields⟩ := field_append_inj leftName rightName fields
  obtain ⟨algorithm, fields⟩ := List.cons_eq_cons.mp fields
  obtain ⟨policy, fields⟩ := List.cons_eq_cons.mp fields
  obtain ⟨publicKey, fields⟩ := field_append_inj leftKey rightKey fields
  obtain ⟨pub, fields⟩ := field_append_inj leftPublic rightPublic fields
  obtain ⟨wrapped, fields⟩ := field_append_inj leftWrapped rightWrapped fields
  have ending : field left.parentName ++ [] = field right.parentName ++ [] := by rw [fields]
  obtain ⟨parent, _⟩ := field_append_inj leftParent rightParent ending
  cases left
  cases right
  simp_all

/-- Acceptance in the terms of the encoder. -/
theorem decode_encode (bytes : Bytes) (key : StoredKey) :
    decode bytes = .ok key ↔ validateRecord key = .ok () ∧ encode key = .ok bytes := by
  rw [decode_layout, encode_eq_ok]
  constructor
  · rintro ⟨valid, rfl⟩
    exact ⟨valid, (bounded_of_valid key valid).1, rfl⟩
  · rintro ⟨valid, _, rfl⟩
    exact ⟨valid, rfl⟩

/-- A valid record survives encoding and decoding. -/
theorem valid_round_trip (key : StoredKey) (valid : validateRecord key = .ok ()) :
    ∃ bytes, encode key = .ok bytes ∧ decode bytes = .ok key := by
  have written := (encode_eq_ok key (layout (rawOf key))).mpr ⟨(bounded_of_valid key valid).1, rfl⟩
  exact ⟨_, written, (decode_encode _ _).mpr ⟨valid, written⟩⟩

/-- Decoding accepts exactly the encodings of valid records. Consequently valid
records round-trip, no record has two accepted spellings, no accepted spelling
extends or truncates another, and a laid-out input with an over-limit field, a
text that is not UTF-8 or an unknown tag is refused.

The last part compares the given layout with the layout of the decoded key:
announced fields are determined by their bytes, so every field of the input is
a field that the encoder would have written. -/
theorem record_codec_exact :
    (∀ bytes key, decode bytes = .ok key ↔ validateRecord key = .ok () ∧ encode key = .ok bytes) ∧
    (∀ key, validateRecord key = .ok () → ∃ bytes, encode key = .ok bytes ∧ decode bytes = .ok key) ∧
    (∀ left right key, decode left = .ok key → decode right = .ok key → left = right) ∧
    (∀ bytes suffix key other, decode bytes = .ok key → decode (bytes ++ suffix) = .ok other →
      suffix = []) ∧
    (∀ raw key, Announced raw → decode (layout raw) = .ok key →
      Bounded raw ∧ (fromUtf8 raw.id).isSome ∧ (fromUtf8 raw.name).isSome ∧
        (raw.algorithm = 1 ∨ raw.algorithm = 2) ∧ (raw.policy = 1 ∨ raw.policy = 2)) := by
  refine ⟨decode_encode, valid_round_trip, ?_, ?_, ?_⟩
  · intro left right key leftDecoded rightDecoded
    exact ((decode_layout _ _).mp leftDecoded).2.trans ((decode_layout _ _).mp rightDecoded).2.symm
  · intro bytes suffix key other decoded extended
    obtain ⟨valid, rfl⟩ := (decode_layout _ _).mp decoded
    obtain ⟨otherValid, same⟩ := (decode_layout _ _).mp extended
    obtain ⟨bounded, agree⟩ := bounded_of_valid key valid
    obtain ⟨otherBounded, otherAgree⟩ := bounded_of_valid other otherValid
    obtain ⟨_, sameBytes⟩ := recognises_readFields.unambiguous suffix []
      ⟨bounded, agree, rfl⟩ ⟨otherBounded, otherAgree, rfl⟩ (same.trans (List.append_nil _).symm)
    rw [← sameBytes] at same
    exact List.append_right_eq_self.mp same
  · intro raw key announced decoded
    obtain ⟨valid, same⟩ := (decode_layout _ _).mp decoded
    have bounded := (bounded_of_valid key valid).1
    obtain rfl := layout_injective raw _ announced (announced_of_bounded _ bounded) same
    refine ⟨bounded, by simp [rawOf], by simp [rawOf], ?_, ?_⟩
    · cases written : key.summary.algorithm <;> simp [rawOf, written, algorithmTag]
    · cases written : key.summary.usePolicy <;> simp [rawOf, written, policyTag]

end Keyvisor.RecordCodec
