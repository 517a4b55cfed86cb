import Keyvisor.Signature

/-!
# SSH public keys from the TPM

The signer writes the public area of a key as an SSH blob: the key type, the curve and
the uncompressed point, whose coordinates are padded to the width of the curve. A
strict reader gets these three strings back. Blobs are the identities by which the
agent looks up keys, and two of them are equal exactly when the algorithms and the
coordinates are, taken as integers: leading zeros that a TPM leaves out do not matter.
-/

namespace Keyvisor.PublicKey

open Foundation Foundation.Text Foundation.Reader Protocol Signature

/-- The uncompressed point of two coordinates within the width. -/
def point (algorithm : KeyAlgorithm) (x y : Bytes) : Bytes := 4 :: (padded algorithm x ++ padded algorithm y)

/-- The key blob, string by string. -/
def blobOf (algorithm : KeyAlgorithm) (x y : Bytes) : Bytes :=
  field (utf8 algorithm.sshKeyType) ++ (field (utf8 algorithm.sshCurveName) ++ field (point algorithm x y))

/-- Both coordinates fit the width of the curve. -/
def Fits (algorithm : KeyAlgorithm) (x y : Bytes) : Prop :=
  x.length ≤ algorithm.ecdsaComponentSize ∧ y.length ≤ algorithm.ecdsaComponentSize

instance (algorithm : KeyAlgorithm) (x y : Bytes) : Decidable (Fits algorithm x y) :=
  inferInstanceAs (Decidable (_ ∧ _))

/-- An area is written exactly when its coordinates fit. -/
theorem sshPublicKey_eq (algorithm : KeyAlgorithm) (attributes : Esapi.ObjectAttributes) (curve : Esapi.EccCurve)
    (scheme : Esapi.EccScheme) (x y : Bytes) :
    Esapi.sshPublicKey (.ecc attributes curve scheme x y) algorithm =
      if Fits algorithm x y then .ok (blobOf algorithm x y) else .error .invalidObject := by
  by_cases xFits : x.length ≤ algorithm.ecdsaComponentSize
  · by_cases yFits : y.length ≤ algorithm.ecdsaComponentSize
    · rw [if_pos ⟨xFits, yFits⟩]
      simp [Esapi.sshPublicKey, Esapi.appendPadded_eq, xFits, yFits, bind, Except.bind, Esapi.appendSshString,
        blobOf, field, point, padded, pure, Except.pure]
    · rw [if_neg fun fits => yFits fits.2]
      simp [Esapi.sshPublicKey, Esapi.appendPadded_eq, xFits, yFits, bind, Except.bind]
  · rw [if_neg fun fits => xFits fits.1]
    simp [Esapi.sshPublicKey, Esapi.appendPadded_eq, xFits, bind, Except.bind]

/-- Three strings and nothing else. -/
def wholeTriple (bytes : Bytes) : Option (Bytes × Bytes × Bytes) :=
  (complete (do
    let first ← takeString
    let second ← takeString
    let third ← takeString
    return (first, second, third)) .trailingData bytes).toOption

/-- Three fields that fit are read back. -/
theorem wholeTriple_fields {first second third : Bytes} (firstFits : first.length < 2 ^ 32)
    (secondFits : second.length < 2 ^ 32) (thirdFits : third.length < 2 ^ 32) :
    wholeTriple (field first ++ (field second ++ field third)) = some (first, second, third) := by
  have recognised := recognises_takeString.bind fun first => recognises_takeString.bind fun second =>
    recognises_takeString.bind fun third => recognises_pure (first, second, third)
  have accepted := (complete_eq_ok ProtocolError.trailingData recognised
    (field first ++ (field second ++ field third)) (first, second, third)).mpr
    ⟨first, field first, _, ⟨firstFits, rfl⟩, ⟨second, field second, _, ⟨secondFits, rfl⟩,
      ⟨third, field third, [], ⟨thirdFits, rfl⟩, ⟨rfl, rfl⟩, (List.append_nil _).symm⟩, rfl⟩, rfl⟩
  rw [wholeTriple, accepted]
  rfl

/-- The names of an algorithm determine it. -/
theorem sshKeyType_injective {left right : KeyAlgorithm} (same : utf8 left.sshKeyType = utf8 right.sshKeyType) :
    left = right := by
  cases left <;> cases right
  · rfl
  · exact absurd same (by decide +kernel)
  · exact absurd same (by decide +kernel)
  · rfl

/-- A point has one byte and two coordinates. -/
theorem length_point {algorithm : KeyAlgorithm} {x y : Bytes} (fits : Fits algorithm x y) :
    (point algorithm x y).length = 1 + 2 * algorithm.ecdsaComponentSize := by
  simp only [point, List.length_cons, List.length_append, length_padded algorithm x fits.1,
    length_padded algorithm y fits.2]
  omega

/-- The blob of coordinates that fit is read back as its strings. -/
theorem wholeTriple_blob {algorithm : KeyAlgorithm} {x y : Bytes} (fits : Fits algorithm x y) :
    wholeTriple (blobOf algorithm x y) =
      some (utf8 algorithm.sshKeyType, utf8 algorithm.sshCurveName, point algorithm x y) := by
  obtain ⟨narrow, named⟩ := algorithm_bounds algorithm
  have curve : (utf8 algorithm.sshCurveName).length = 8 := by cases algorithm <;> decide +kernel
  apply wholeTriple_fields
  · omega
  · omega
  · rw [length_point fits]
    omega

/-- Padding forgets nothing but leading zeros. -/
theorem padded_eq_iff {algorithm : KeyAlgorithm} {left right : Bytes}
    (leftFits : left.length ≤ algorithm.ecdsaComponentSize)
    (rightFits : right.length ≤ algorithm.ecdsaComponentSize) :
    padded algorithm left = padded algorithm right ↔ BigEndian.value left = BigEndian.value right := by
  have value (component : Bytes) : BigEndian.value (padded algorithm component) = BigEndian.value component :=
    BigEndian.value_padded _ component
  constructor
  · intro same
    rw [← value left, same, value right]
  · intro same
    apply BigEndian.value_injective
    · rw [length_padded algorithm left leftFits, length_padded algorithm right rightFits]
    · rw [value left, value right, same]

/-- Two blobs are equal exactly when they are of one algorithm and of equal coordinates. -/
theorem blobOf_eq_iff {algorithm other : KeyAlgorithm} {x y otherX otherY : Bytes} (fits : Fits algorithm x y)
    (otherFits : Fits other otherX otherY) :
    blobOf algorithm x y = blobOf other otherX otherY ↔
      algorithm = other ∧ BigEndian.value x = BigEndian.value otherX ∧ BigEndian.value y = BigEndian.value otherY := by
  constructor
  · intro same
    have strings := (wholeTriple_blob fits).symm.trans ((congrArg wholeTriple same).trans (wholeTriple_blob otherFits))
    obtain ⟨keyType, _, points⟩ : _ ∧ _ ∧ _ := by simpa using strings
    obtain rfl := sshKeyType_injective keyType
    have width : (padded algorithm x).length = (padded algorithm otherX).length := by
      rw [length_padded algorithm x fits.1, length_padded algorithm otherX otherFits.1]
    obtain ⟨sameX, sameY⟩ := List.append_inj (List.cons.inj points).2 width
    exact ⟨rfl, (padded_eq_iff fits.1 otherFits.1).mp sameX, (padded_eq_iff fits.2 otherFits.2).mp sameY⟩
  · rintro ⟨rfl, sameX, sameY⟩
    rw [blobOf, blobOf, point, point, (padded_eq_iff fits.1 otherFits.1).mpr sameX,
      (padded_eq_iff fits.2 otherFits.2).mpr sameY]

/-- A public area gets a blob exactly when both coordinates fit the width of the
algorithm. A strict reader finds the key type, the curve and the uncompressed point of
two coordinates of that width with the values of the area's own, and nothing else. Two
blobs are equal exactly when the algorithms and both coordinates are, as integers. -/
theorem public_key_blob_identifies :
    (∀ algorithm attributes curve scheme x y,
      (∃ blob, Esapi.sshPublicKey (.ecc attributes curve scheme x y) algorithm = .ok blob) ↔
        x.length ≤ algorithm.ecdsaComponentSize ∧ y.length ≤ algorithm.ecdsaComponentSize) ∧
    (∀ algorithm attributes curve scheme x y blob,
      Esapi.sshPublicKey (.ecc attributes curve scheme x y) algorithm = .ok blob →
        ∃ wideX wideY, wholeTriple blob =
            some (utf8 algorithm.sshKeyType, utf8 algorithm.sshCurveName, 4 :: (wideX ++ wideY)) ∧
          wideX.length = algorithm.ecdsaComponentSize ∧ wideY.length = algorithm.ecdsaComponentSize ∧
          BigEndian.value wideX = BigEndian.value x ∧ BigEndian.value wideY = BigEndian.value y) ∧
    (∀ algorithm attributes curve scheme x y blob other otherAttributes otherCurve otherScheme otherX otherY otherBlob,
      Esapi.sshPublicKey (.ecc attributes curve scheme x y) algorithm = .ok blob →
      Esapi.sshPublicKey (.ecc otherAttributes otherCurve otherScheme otherX otherY) other = .ok otherBlob →
        (blob = otherBlob ↔ algorithm = other ∧ BigEndian.value x = BigEndian.value otherX ∧
          BigEndian.value y = BigEndian.value otherY)) := by
  have written (algorithm attributes curve scheme x y blob)
      (encoded : Esapi.sshPublicKey (.ecc attributes curve scheme x y) algorithm = .ok blob) :
      Fits algorithm x y ∧ blob = blobOf algorithm x y := by
    rw [sshPublicKey_eq] at encoded
    split at encoded
    · rename_i fits
      cases encoded
      exact ⟨fits, rfl⟩
    · cases encoded
  refine ⟨?_, ?_, ?_⟩
  · intro algorithm attributes curve scheme x y
    constructor
    · rintro ⟨blob, encoded⟩
      exact (written _ _ _ _ _ _ _ encoded).1
    · intro fits
      exact ⟨_, (sshPublicKey_eq algorithm attributes curve scheme x y).trans (if_pos fits)⟩
  · intro algorithm attributes curve scheme x y blob encoded
    obtain ⟨fits, rfl⟩ := written _ _ _ _ _ _ _ encoded
    exact ⟨padded algorithm x, padded algorithm y, wholeTriple_blob fits, length_padded algorithm x fits.1,
      length_padded algorithm y fits.2, BigEndian.value_padded _ x, BigEndian.value_padded _ y⟩
  · intro algorithm attributes curve scheme x y blob other otherAttributes otherCurve otherScheme otherX otherY
      otherBlob encoded otherEncoded
    obtain ⟨fits, rfl⟩ := written _ _ _ _ _ _ _ encoded
    obtain ⟨otherFits, rfl⟩ := written _ _ _ _ _ _ _ otherEncoded
    exact blobOf_eq_iff fits otherFits

end Keyvisor.PublicKey
