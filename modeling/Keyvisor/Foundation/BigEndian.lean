import Mathlib.Tactic.Ring

/-!
# Big-endian byte strings

A byte string is a list of octets whose first element is the most significant.
Fixed-width encoding writes exactly the requested number of octets and keeps the
number modulo the width; reading back is exact on every byte string. Both
directions are executable.

The value of a byte string ignores leading zeros, which is what lets a padded
and a stripped spelling of one number be compared.
-/

namespace Keyvisor.Foundation

/-- A finite byte string, most significant octet first where it spells a number. -/
abbrev Bytes := List UInt8

namespace BigEndian

/-- Each octet weighs 256 to the number of octets after it. -/
def value : Bytes → Nat
  | [] => 0
  | byte :: rest => byte.toNat * 256 ^ rest.length + value rest

/-- Exactly `width` octets. A number that does not fit keeps its low octets. -/
def encode : Nat → Nat → Bytes
  | 0, _ => []
  | width + 1, number => UInt8.ofNat (number / 256 ^ width) :: encode width number

/-- An encoding has its width. -/
@[simp] theorem length_encode (width number : Nat) : (encode width number).length = width := by
  induction width with
  | zero => rfl
  | succ width inductionHypothesis => simp [encode, inductionHypothesis]

/-- A byte string spells a number below 256 to its length. -/
theorem value_lt (bytes : Bytes) : value bytes < 256 ^ bytes.length := by
  induction bytes with
  | nil => decide
  | cons byte rest inductionHypothesis =>
    have octet : byte.toNat + 1 ≤ 256 := byte.toNat_lt
    have scaled : (byte.toNat + 1) * 256 ^ rest.length ≤ 256 * 256 ^ rest.length :=
      Nat.mul_le_mul_right _ octet
    simp only [value, List.length_cons, Nat.pow_succ]
    rw [Nat.add_one_mul] at scaled
    omega

/-- Encoding loses exactly the part above the width. -/
theorem value_encode (width number : Nat) : value (encode width number) = number % 256 ^ width := by
  induction width with
  | zero => simp [encode, value, Nat.mod_one]
  | succ width inductionHypothesis =>
    have low : (UInt8.ofNat (number / 256 ^ width)).toNat = number / 256 ^ width % 256 := by simp
    simp only [encode, value, length_encode, inductionHypothesis, low, Nat.mod_pow_succ]
    ring

/-- A number that fits is read back unchanged. -/
theorem value_encode_of_lt (width number : Nat) (fits : number < 256 ^ width) :
    value (encode width number) = number := by
  rw [value_encode, Nat.mod_eq_of_lt fits]

/-- Equal-length byte strings of equal value are identical. The quotient by the
weight of the head separates it from the tail. -/
theorem value_injective (left right : Bytes) (width : left.length = right.length)
    (same : value left = value right) : left = right := by
  induction left generalizing right with
  | nil => exact (List.eq_nil_of_length_eq_zero width.symm).symm
  | cons byte rest inductionHypothesis =>
    obtain ⟨other, tail, rfl⟩ := List.exists_cons_of_length_eq_add_one width.symm
    have tailWidth : rest.length = tail.length := Nat.succ.inj width
    have restBound : value rest < 256 ^ tail.length := tailWidth ▸ value_lt rest
    have tailBound : value tail < 256 ^ tail.length := value_lt tail
    have positive : 0 < 256 ^ tail.length := Nat.pow_pos (by decide)
    simp only [value, tailWidth] at same
    have heads : byte.toNat = other.toNat := by
      have quotient := congrArg (· / 256 ^ tail.length) same
      simpa [Nat.mul_add_div, Nat.add_comm _ (value _), Nat.add_mul_div_right _ _ positive,
        Nat.div_eq_of_lt restBound, Nat.div_eq_of_lt tailBound] using quotient
    have tails : value rest = value tail := by
      rw [heads] at same
      omega
    rw [UInt8.toNat_inj.mp heads, inductionHypothesis tail tailWidth tails]

/-- Every byte string is the encoding of its value at its own length. -/
theorem encode_value (bytes : Bytes) : encode bytes.length (value bytes) = bytes := by
  apply value_injective
  · exact length_encode _ _
  · exact value_encode_of_lt _ _ (value_lt bytes)

/-- Numbers that fit have distinct encodings. -/
theorem encode_injective (width left right : Nat) (leftFits : left < 256 ^ width)
    (rightFits : right < 256 ^ width) (same : encode width left = encode width right) :
    left = right := by
  rw [← value_encode_of_lt width left leftFits, same, value_encode_of_lt width right rightFits]

/-- A leading zero octet adds nothing. -/
@[simp] theorem value_zero_cons (rest : Bytes) : value (0 :: rest) = value rest := by
  simp [value]

/-- Left padding with zeros keeps the value. -/
theorem value_padded (count : Nat) (bytes : Bytes) :
    value (List.replicate count 0 ++ bytes) = value bytes := by
  induction count with
  | zero => simp
  | succ count inductionHypothesis =>
    rw [List.replicate_succ, List.cons_append, value_zero_cons, inductionHypothesis]

end BigEndian

end Keyvisor.Foundation
