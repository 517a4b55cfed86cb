import Keyvisor.Foundation.Text

/-!
# Percent encoding

A percent sign and two hexadecimal digits, in either case, stand for one byte, and
every other byte stands for itself. A spelling stands for at most one byte string.

An escaper keeps the bytes of some class and spells all others with upper-case digits.
If the class leaves out the percent sign, escaping is undone by reading, and what it
writes contains nothing but bytes of the class, percent signs and digits.
-/

namespace Keyvisor.Foundation.Percent

open Text

/-- The spelling stands for the bytes. -/
inductive Spells : Bytes → Bytes → Prop where
  | nil : Spells [] []
  | plain {byte : UInt8} {spelling bytes : Bytes} (other : byte ≠ 37) (rest : Spells spelling bytes) :
      Spells (byte :: spelling) (byte :: bytes)
  | escaped {high low upper lower : UInt8} {spelling bytes : Bytes} (first : digitValue high = some upper)
      (second : digitValue low = some lower) (rest : Spells spelling bytes) :
      Spells (37 :: high :: low :: spelling) (((upper <<< 4) ||| lower) :: bytes)

/-- A spelling stands for at most one byte string. -/
theorem Spells.unique {spelling left right : Bytes} (first : Spells spelling left) (second : Spells spelling right) :
    left = right := by
  induction first generalizing right with
  | nil =>
    cases second
    rfl
  | plain other _ inductionHypothesis =>
    cases second with
    | plain _ rest => rw [inductionHypothesis rest]
    | escaped _ _ _ => exact absurd rfl other
  | escaped high low _ inductionHypothesis =>
    cases second with
    | plain other _ => exact absurd rfl other
    | escaped otherHigh otherLow rest =>
      rw [high] at otherHigh
      rw [low] at otherLow
      cases otherHigh
      cases otherLow
      rw [inductionHypothesis rest]

/-! ## Escaping -/

/-- The upper-case digits, at their own positions. -/
def upperDigits : Bytes := utf8 "0123456789ABCDEF"

/-- A byte of the class, or its escape. -/
def escapeByte (kept : UInt8 → Bool) (byte : UInt8) : Bytes :=
  if kept byte then [byte]
  else [37, upperDigits.getD (byte >>> 4).toNat 0, upperDigits.getD (byte &&& 0x0f).toNat 0]

def escape (kept : UInt8 → Bool) (bytes : Bytes) : Bytes := bytes.flatMap (escapeByte kept)

/-- Nothing but bytes of the class and escapes. -/
inductive Formed (kept : UInt8 → Bool) : Bytes → Prop where
  | nil : Formed kept []
  | plain {byte : UInt8} {bytes : Bytes} (member : kept byte = true) (rest : Formed kept bytes) :
      Formed kept (byte :: bytes)
  | escaped {high low : UInt8} {bytes : Bytes} (first : (digitValue high).isSome) (second : (digitValue low).isSome)
      (rest : Formed kept bytes) : Formed kept (37 :: high :: low :: bytes)

/-- Both digits of an escape are read back as the halves of its byte. -/
theorem digitValue_upperDigits (byte : UInt8) :
    digitValue (upperDigits.getD (byte >>> 4).toNat 0) = some (byte >>> 4) ∧
      digitValue (upperDigits.getD (byte &&& 0x0f).toNat 0) = some (byte &&& 0x0f) ∧
      ((byte >>> 4) <<< 4) ||| (byte &&& 0x0f) = byte := by
  have halves : ∀ byte : UInt8,
      digitValue (upperDigits.getD (byte >>> 4).toNat 0) = some (byte >>> 4) ∧
      digitValue (upperDigits.getD (byte &&& 0x0f).toNat 0) = some (byte &&& 0x0f) ∧
      ((byte >>> 4) <<< 4) ||| (byte &&& 0x0f) = byte := forall_byte (by decide +kernel)
  exact halves byte

section

variable {kept : UInt8 → Bool}

/-- What is written stands for what it was written from. -/
theorem spells_escape (reserved : kept 37 = false) (bytes : Bytes) : Spells (escape kept bytes) bytes := by
  induction bytes with
  | nil => exact .nil
  | cons byte rest inductionHypothesis =>
    rw [escape, List.flatMap_cons, escapeByte]
    by_cases member : kept byte = true
    · have other : byte ≠ 37 := by
        rintro rfl
        rw [reserved] at member
        contradiction
      rw [if_pos member]
      exact .plain other inductionHypothesis
    · obtain ⟨first, second, rebuilt⟩ := digitValue_upperDigits byte
      have spelled := Spells.escaped first second inductionHypothesis
      rw [rebuilt] at spelled
      rw [if_neg member]
      exact spelled

/-- An escaped text is formed. -/
theorem formed_escape (bytes : Bytes) : Formed kept (escape kept bytes) := by
  induction bytes with
  | nil => exact .nil
  | cons byte rest inductionHypothesis =>
    rw [escape, List.flatMap_cons, escapeByte]
    by_cases member : kept byte = true
    · rw [if_pos member]
      exact .plain member inductionHypothesis
    · obtain ⟨first, second, _⟩ := digitValue_upperDigits byte
      rw [if_neg member]
      exact .escaped (by rw [first]; rfl) (by rw [second]; rfl) inductionHypothesis

/-- Every byte of a formed text is of the class, a percent sign or a digit. -/
theorem Formed.mem {bytes : Bytes} (formed : Formed kept bytes) :
    ∀ byte ∈ bytes, kept byte = true ∨ byte = 37 ∨ (digitValue byte).isSome := by
  induction formed with
  | nil => exact fun _ impossible => absurd impossible List.not_mem_nil
  | plain member _ inductionHypothesis =>
    intro byte listed
    rcases List.mem_cons.mp listed with rfl | later
    · exact .inl member
    · exact inductionHypothesis byte later
  | escaped first second _ inductionHypothesis =>
    intro byte listed
    rcases List.mem_cons.mp listed with rfl | digits
    · exact .inr (.inl rfl)
    · rcases List.mem_cons.mp digits with rfl | further
      · exact .inr (.inr first)
      · rcases List.mem_cons.mp further with rfl | later
        · exact .inr (.inr second)
        · exact inductionHypothesis byte later

end

end Keyvisor.Foundation.Percent
