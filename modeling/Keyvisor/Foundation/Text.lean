import Keyvisor.Foundation.Reader

/-!
# Text as bytes

UTF-8 text is exchanged with byte strings in both directions; a byte string is
text in at most one way, and every ASCII string is text. Byte strings have a
lower-case hexadecimal spelling that is injective and uses only hexadecimal
digits. Natural numbers have a decimal spelling and a bounded decimal reader
that undoes it. A text is cut into lines, and a line is split at blanks, at a first
delimiter or after a known beginning.

The spellings are byte strings themselves, because every consumer here compares
and splits text bytewise.
-/

namespace Keyvisor.Foundation.Text

/-- A property of all 256 octets may be checked on the numbers below 256. -/
theorem forall_byte {property : UInt8 → Prop}
    (checked : ∀ number : Fin 256, property (UInt8.ofNat number)) (byte : UInt8) : property byte := by
  have instantiated := checked ⟨byte.toNat, byte.toNat_lt⟩
  simpa using instantiated

/-! ## UTF-8 -/

/-- The UTF-8 bytes of a text. -/
def utf8 (text : String) : Bytes := text.toByteArray.data.toList

/-- The text that a byte string spells, if it is well-formed UTF-8. -/
def fromUtf8 (bytes : Bytes) : Option String := String.fromUTF8? ⟨bytes.toArray⟩

/-- A text is determined by its bytes. -/
theorem utf8_injective {left right : String} (same : utf8 left = utf8 right) : left = right := by
  apply String.toByteArray_inj.mp
  apply ByteArray.ext
  exact Array.toList_inj.mp same

/-- The encoding of two texts is that of one after the other. -/
theorem utf8_append (left right : String) : utf8 (left ++ right) = utf8 left ++ utf8 right := by
  simp [utf8]

/-- Reading succeeds exactly on the bytes of the text it returns. -/
theorem fromUtf8_eq_some (bytes : Bytes) (text : String) :
    fromUtf8 bytes = some text ↔ bytes = utf8 text := by
  constructor
  · intro accepted
    unfold fromUtf8 String.fromUTF8? at accepted
    split at accepted
    · cases accepted
      rfl
    · cases accepted
  · rintro rfl
    have same : (⟨(utf8 text).toArray⟩ : ByteArray) = text.toByteArray := rfl
    simp only [fromUtf8, String.fromUTF8?, same, text.isValidUTF8, ↓reduceDIte]
    rfl

/-- An encoded text is decoded back. -/
@[simp] theorem fromUtf8_utf8 (text : String) : fromUtf8 (utf8 text) = some text :=
  (fromUtf8_eq_some _ _).mpr rfl

/-- The number of octets of a character that starts with the given one, or zero. -/
def utf8Width (lead : UInt8) : Nat :=
  if lead < 0x80 then 1
  else if 0xc2 ≤ lead ∧ lead ≤ 0xdf then 2
  else if 0xe0 ≤ lead ∧ lead ≤ 0xef then 3
  else if 0xf0 ≤ lead ∧ lead ≤ 0xf4 then 4
  else 0

/-- The octet may follow the collected beginning of a character. -/
def utf8Continues (collected : Bytes) (byte : UInt8) : Bool :=
  match collected with
  | [] => false
  | [0xe0] => 0xa0 ≤ byte && byte ≤ 0xbf
  | [0xed] => 0x80 ≤ byte && byte ≤ 0x9f
  | [0xf0] => 0x90 ≤ byte && byte ≤ 0xbf
  | [0xf4] => 0x80 ≤ byte && byte ≤ 0x8f
  | _ => 0x80 ≤ byte && byte ≤ 0xbf

/-- Characters are collected octet by octet. A beginning that does not continue and an
octet that starts nothing are replaced. -/
def decodeLossy : Bytes → Bytes → String
  | collected, [] => if collected.isEmpty then "" else "\uFFFD"
  | collected, byte :: rest =>
    if utf8Continues collected byte then
      if collected.length + 1 = utf8Width (collected.headD 0) then
        (fromUtf8 (collected ++ [byte])).getD "" ++ decodeLossy [] rest
      else decodeLossy (collected ++ [byte]) rest
    else
      (if collected.isEmpty then "" else "\uFFFD") ++
        match utf8Width byte with
        | 0 => "\uFFFD" ++ decodeLossy [] rest
        | 1 => (fromUtf8 [byte]).getD "" ++ decodeLossy [] rest
        | _ => decodeLossy [byte] rest

/-- The text that is printed for bytes that need not be text. -/
def fromUtf8Lossy (bytes : Bytes) : String := decodeLossy [] bytes

/-- One character for each octet. -/
def ofOctets (bytes : Bytes) : String := String.ofList (bytes.map fun byte => Char.ofNat byte.toNat)

/-- Octets below 128 encode the characters with their codes. -/
theorem utf8_ofOctets (bytes : Bytes) (ascii : ∀ byte ∈ bytes, byte < 128) : utf8 (ofOctets bytes) = bytes := by
  have octet : ∀ byte : UInt8, byte < 128 → String.utf8EncodeChar (Char.ofNat byte.toNat) = [byte] :=
    forall_byte (by decide +kernel)
  have encoded : (bytes.map fun byte => Char.ofNat byte.toNat).flatMap String.utf8EncodeChar = bytes := by
    induction bytes with
    | nil => rfl
    | cons byte rest inductionHypothesis =>
      have tail := inductionHypothesis fun other member => ascii other (List.mem_cons_of_mem _ member)
      have head := octet byte (ascii byte List.mem_cons_self)
      rw [List.map_cons, List.flatMap_cons, tail, head, List.singleton_append]
  simp [ofOctets, utf8, List.utf8Encode, encoded]

/-- Every ASCII byte string is text. -/
theorem ascii_is_text (bytes : Bytes) (ascii : ∀ byte ∈ bytes, byte < 128) :
    ∃ text, bytes = utf8 text := ⟨ofOctets bytes, (utf8_ofOctets bytes ascii).symm⟩

/-! ## Hexadecimal -/

/-- The lower-case digits, at their own positions. -/
def hexDigits : Bytes := utf8 "0123456789abcdef"

/-- The high half of the octet, then the low half. -/
def hexByte (byte : UInt8) : Bytes :=
  [hexDigits.getD (byte >>> 4).toNat 0, hexDigits.getD (byte &&& 0x0f).toNat 0]

/-- Two digits for each octet, in order. -/
def hex (bytes : Bytes) : Bytes := bytes.flatMap hexByte

/-- The first byte has the first two digits. -/
@[simp] theorem hex_cons (byte : UInt8) (rest : Bytes) : hex (byte :: rest) = hexByte byte ++ hex rest := rfl

/-- Every byte has two digits. -/
@[simp] theorem length_hex (bytes : Bytes) : (hex bytes).length = 2 * bytes.length := by
  induction bytes with
  | nil => rfl
  | cons byte rest inductionHypothesis =>
    simp only [hex_cons, hexByte, List.length_append, List.length_cons, List.length_nil,
      inductionHypothesis]
    omega

/-- Hexadecimal spelling uses nothing but the sixteen lower-case digits. -/
theorem mem_hexDigits_of_mem_hex {bytes : Bytes} {digit : UInt8} (member : digit ∈ hex bytes) :
    digit ∈ hexDigits := by
  have spelled : ∀ byte : UInt8, ∀ written ∈ hexByte byte, written ∈ hexDigits :=
    forall_byte (by decide +kernel)
  obtain ⟨byte, _, written⟩ := List.mem_flatMap.mp member
  exact spelled byte digit written

/-- A hexadecimal digit is a printable ASCII character other than the given
separators. -/
theorem hexDigit_plain {digit : UInt8} (member : digit ∈ hexDigits) :
    digit < 128 ∧ digit ≠ 9 ∧ digit ≠ 10 ∧ digit ≠ 12 ∧ digit ≠ 13 ∧ digit ≠ 32 ∧ digit ≠ 46 ∧
      digit ≠ 47 := by
  have listed : ∀ written ∈ hexDigits, written < 128 ∧ written ≠ 9 ∧ written ≠ 10 ∧ written ≠ 12 ∧
      written ≠ 13 ∧ written ≠ 32 ∧ written ≠ 46 ∧ written ≠ 47 := by decide +kernel
  exact listed digit member

/-- The spelling as a text. -/
def hexText (bytes : Bytes) : String := ofOctets (hex bytes)

/-- The digits as a text are encoded as themselves. -/
@[simp] theorem utf8_hexText (bytes : Bytes) : utf8 (hexText bytes) = hex bytes :=
  utf8_ofOctets _ fun _ member => (hexDigit_plain (mem_hexDigits_of_mem_hex member)).1

/-- The value of one digit in either case. -/
def digitValue (digit : UInt8) : Option UInt8 :=
  if 48 ≤ digit ∧ digit ≤ 57 then some (digit - 48)
  else if 97 ≤ digit ∧ digit ≤ 102 then some (digit - 97 + 10)
  else if 65 ≤ digit ∧ digit ≤ 70 then some (digit - 65 + 10)
  else none

/-- Both digits of an octet read back as its halves, which rebuild it. -/
theorem digitValue_hexByte (byte : UInt8) :
    ∃ high low upper lower, hexByte byte = [high, low] ∧ digitValue high = some upper ∧
      digitValue low = some lower ∧ (upper <<< 4) ||| lower = byte := by
  have halves : ∀ byte : UInt8,
      digitValue (hexDigits.getD (byte >>> 4).toNat 0) = some (byte >>> 4) ∧
      digitValue (hexDigits.getD (byte &&& 0x0f).toNat 0) = some (byte &&& 0x0f) ∧
      ((byte >>> 4) <<< 4) ||| (byte &&& 0x0f) = byte := forall_byte (by decide +kernel)
  obtain ⟨high, low, rebuilt⟩ := halves byte
  exact ⟨_, _, _, _, rfl, high, low, rebuilt⟩

/-- Different octets have different digits. -/
theorem hexByte_injective {left right : UInt8} (same : hexByte left = hexByte right) : left = right := by
  obtain ⟨_, _, _, _, leftDigits, leftHigh, leftLow, leftRebuilt⟩ := digitValue_hexByte left
  obtain ⟨_, _, _, _, rightDigits, rightHigh, rightLow, rightRebuilt⟩ := digitValue_hexByte right
  rw [leftDigits, rightDigits] at same
  obtain ⟨rfl, rfl⟩ : _ ∧ _ := by simpa using same
  rw [leftHigh] at rightHigh
  rw [leftLow] at rightLow
  cases rightHigh
  cases rightLow
  exact leftRebuilt.symm.trans rightRebuilt

/-- Different byte strings have different spellings. -/
theorem hex_injective {left right : Bytes} (same : hex left = hex right) : left = right := by
  induction left generalizing right with
  | nil =>
    have empty : (hex right).length = 0 := by rw [← same]; rfl
    rw [length_hex] at empty
    exact (List.eq_nil_of_length_eq_zero (by omega)).symm
  | cons byte rest inductionHypothesis =>
    have widths : (hex (byte :: rest)).length = (hex right).length := congrArg List.length same
    simp only [length_hex, List.length_cons] at widths
    obtain ⟨other, tail, rfl⟩ := List.exists_cons_of_length_eq_add_one (by omega : right.length = rest.length + 1)
    obtain ⟨heads, tails⟩ := List.append_inj same rfl
    rw [hexByte_injective heads, inductionHypothesis tails]

/-- Zero-padded to two digits for each octet of the width. -/
def paddedHex (width number : Nat) : Bytes := hex (BigEndian.encode width number)

/-- No leading zeros, and a single zero for zero, for numbers within the width. -/
def shortHex (width number : Nat) : Bytes :=
  match (paddedHex width number).dropWhile (· == 48) with
  | [] => [48]
  | digits => digits

/-- Numbers within the width have distinct padded spellings. -/
theorem paddedHex_injective (width left right : Nat) (leftFits : left < 256 ^ width)
    (rightFits : right < 256 ^ width) (same : paddedHex width left = paddedHex width right) :
    left = right :=
  BigEndian.encode_injective width left right leftFits rightFits (hex_injective same)

/-- The short spelling also uses only hexadecimal digits. -/
theorem mem_hexDigits_of_mem_shortHex {width number : Nat} {digit : UInt8}
    (member : digit ∈ shortHex width number) : digit ∈ hexDigits := by
  unfold shortHex at member
  split at member
  · rw [List.mem_singleton.mp member]
    decide
  · exact mem_hexDigits_of_mem_hex ((List.dropWhile_sublist _).mem member)

/-- The short spelling has at least one digit and at most two for each octet. -/
theorem length_shortHex (width number : Nat) :
    0 < (shortHex width number).length ∧ (shortHex width number).length ≤ 2 * width + 1 := by
  have bound := (List.dropWhile_sublist (l := paddedHex width number) (· == 48)).length_le
  rw [paddedHex, length_hex, BigEndian.length_encode] at bound
  unfold shortHex
  split
  · simp
  · rename_i digits nonempty
    refine ⟨List.length_pos_iff.mpr ?_, Nat.le_succ_of_le bound⟩
    intro empty
    exact nonempty empty

/-! ## Decimal -/

/-- The decimal digits of a number, without leading zeros. -/
def decimal (number : Nat) : Bytes := (Nat.toDigits 10 number).map Char.toUInt8

/-- Digits accumulate from the left; leaving the range or meeting anything but a
digit stops. -/
def decimalValue (limit : Nat) : Nat → Bytes → Option Nat
  | total, [] => some total
  | total, byte :: rest =>
    if 48 ≤ byte ∧ byte ≤ 57 then
      let next := 10 * total + (byte.toNat - 48)
      if next < limit then decimalValue limit next rest else none
    else none

/-- The character of a decimal digit as an octet. -/
theorem digit_octet {number : Nat} {character : Char} (written : character ∈ Nat.toDigits 10 number) :
    48 ≤ character.toNat ∧ character.toNat ≤ 57 ∧ character.toUInt8.toNat = character.toNat := by
  have digit := Nat.isDigit_of_mem_toDigits (by decide) (by decide) written
  simp only [Char.isDigit, Bool.and_eq_true, decide_eq_true_eq] at digit
  have low : 48 ≤ character.toNat := UInt32.le_iff_toNat_le.mp digit.1
  have high : character.toNat ≤ 57 := UInt32.le_iff_toNat_le.mp digit.2
  refine ⟨low, high, ?_⟩
  simp only [Char.toUInt8, UInt32.toNat_toUInt8, Char.toNat_val]
  omega

/-- Every character of a decimal spelling is an ASCII digit. -/
theorem decimal_digit {number : Nat} {byte : UInt8} (member : byte ∈ decimal number) :
    48 ≤ byte ∧ byte ≤ 57 := by
  obtain ⟨character, written, rfl⟩ := List.mem_map.mp member
  obtain ⟨low, high, octet⟩ := digit_octet written
  simp only [UInt8.le_iff_toNat_le, octet]
  exact ⟨low, high⟩

/-- Every number has a digit. -/
theorem decimal_ne_nil (number : Nat) : decimal number ≠ [] := by
  simp [decimal, Nat.toDigits_ne_nil]

/-- Accumulating digits never decreases the total. -/
theorem le_ofDigitChars (characters : List Char) (total : Nat) :
    total ≤ Nat.ofDigitChars 10 characters total := by
  induction characters generalizing total with
  | nil => simp
  | cons character rest inductionHypothesis =>
    rw [Nat.ofDigitChars_cons]
    exact Nat.le_trans (by omega) (inductionHypothesis _)

/-- Within the limit, the bounded reader accumulates exactly the digits. The
final value bounds every intermediate total, so no step leaves the range. -/
theorem decimalValue_digits (limit total : Nat) (characters : List Char)
    (digits : ∀ character ∈ characters, 48 ≤ character.toNat ∧ character.toNat ≤ 57 ∧
      character.toUInt8.toNat = character.toNat)
    (within : Nat.ofDigitChars 10 characters total < limit) :
    decimalValue limit total (characters.map Char.toUInt8) =
      some (Nat.ofDigitChars 10 characters total) := by
  induction characters generalizing total with
  | nil => simp [decimalValue]
  | cons character rest inductionHypothesis =>
    obtain ⟨low, high, octet⟩ := digits character List.mem_cons_self
    rw [Nat.ofDigitChars_cons] at within ⊢
    have accepted : 48 ≤ character.toUInt8 ∧ character.toUInt8 ≤ 57 := by
      simp only [UInt8.le_iff_toNat_le, octet]
      exact ⟨low, high⟩
    have step : 10 * total + (character.toNat - '0'.toNat) < limit :=
      Nat.lt_of_le_of_lt (le_ofDigitChars rest _) within
    have zero : '0'.toNat = 48 := rfl
    rw [zero] at step within ⊢
    simp only [List.map_cons, decimalValue, accepted, and_self, ↓reduceIte, octet, step]
    exact inductionHypothesis _ (fun other member => digits other (List.mem_cons_of_mem _ member)) within

/-- The bounded reader undoes the decimal spelling of every number in range. -/
theorem decimalValue_decimal (limit number : Nat) (within : number < limit) :
    decimalValue limit 0 (decimal number) = some number := by
  have read := decimalValue_digits limit 0 (Nat.toDigits 10 number) (fun _ => digit_octet)
    (by rwa [Nat.ofDigitChars_ten_toDigits])
  rwa [Nat.ofDigitChars_ten_toDigits] at read

/-- An unsigned number in range: at least one digit after an optional plus sign. -/
def parseUnsigned (limit : Nat) : Bytes → Option Nat
  | [] => none
  | first :: rest =>
    if first = 43 then
      if rest = [] then none else decimalValue limit 0 rest
    else decimalValue limit 0 (first :: rest)

/-- A number below the limit is parsed back. -/
theorem parseUnsigned_decimal (limit number : Nat) (within : number < limit) :
    parseUnsigned limit (decimal number) = some number := by
  have read := decimalValue_decimal limit number within
  cases digits : decimal number with
  | nil => exact absurd digits (decimal_ne_nil number)
  | cons first rest =>
    have member : first ∈ decimal number := by simp [digits]
    have digit := decimal_digit member
    have unsigned : first ≠ 43 := by
      rintro rfl
      exact absurd digit.1 (by decide)
    rw [digits] at read
    simp only [parseUnsigned, unsigned, ↓reduceIte, read]

/-- The bounded reader accepts digits only. -/
theorem digit_of_decimalValue {limit total number : Nat} {bytes : Bytes}
    (read : decimalValue limit total bytes = some number) : ∀ byte ∈ bytes, 48 ≤ byte ∧ byte ≤ 57 := by
  induction bytes generalizing total with
  | nil => exact fun _ impossible => absurd impossible List.not_mem_nil
  | cons first rest inductionHypothesis =>
    simp only [decimalValue] at read
    split at read
    · rename_i digit
      split at read
      · intro byte member
        rcases List.mem_cons.mp member with rfl | later
        · exact digit
        · exact inductionHypothesis read byte later
      · cases read
    · cases read

/-- An unsigned number is spelled with digits and at most a plus sign. -/
theorem digit_of_parseUnsigned {limit number : Nat} {bytes : Bytes} (read : parseUnsigned limit bytes = some number) :
    ∀ byte ∈ bytes, byte = 43 ∨ (48 ≤ byte ∧ byte ≤ 57) := by
  cases bytes with
  | nil => cases read
  | cons first rest =>
    simp only [parseUnsigned] at read
    split at read
    · rename_i sign
      split at read
      · cases read
      · intro byte member
        rcases List.mem_cons.mp member with rfl | later
        · exact .inl sign
        · exact .inr (digit_of_decimalValue read byte later)
    · exact fun byte member => .inr (digit_of_decimalValue read byte member)

/-- A number has no more decimal digits than any power of ten above it has zeros. -/
theorem length_decimal_le (number bound : Nat) (positive : 0 < bound) (below : number < 10 ^ bound) :
    (decimal number).length ≤ bound := by
  rw [decimal, List.length_map]
  exact (Nat.length_toDigits_le_iff (by decide) positive).mpr below

/-! ## Splitting lines -/

/-- The blanks of ASCII text: tab, line feed, form feed, carriage return, space. -/
def isAsciiWhitespace (byte : UInt8) : Bool :=
  byte == 9 || byte == 10 || byte == 12 || byte == 13 || byte == 32

/-- The parts between blanks, without the empty ones. -/
def splitAsciiWhitespace (bytes : Bytes) : List Bytes :=
  (bytes.splitOnP isAsciiWhitespace).filter fun part => part ≠ []

/-- Three words with single spaces between them. -/
theorem splitAsciiWhitespace_three {first second third : Bytes}
    (words : ∀ word ∈ [first, second, third], word ≠ [] ∧ ∀ byte ∈ word, isAsciiWhitespace byte = false) :
    splitAsciiWhitespace (first ++ 32 :: (second ++ 32 :: third)) = [first, second, third] := by
  obtain ⟨firstFilled, firstSolid⟩ := words first (by simp)
  obtain ⟨secondFilled, secondSolid⟩ := words second (by simp)
  obtain ⟨thirdFilled, thirdSolid⟩ := words third (by simp)
  unfold splitAsciiWhitespace
  rw [List.splitOnP_append_cons_of_forall_mem firstSolid 32 rfl,
    List.splitOnP_append_cons_of_forall_mem secondSolid 32 rfl, List.splitOnP_eq_singleton thirdSolid]
  simp [firstFilled, secondFilled, thirdFilled]

/-- What precedes and what follows the first delimiter. -/
def splitOnce (delimiter : UInt8) : Bytes → Option (Bytes × Bytes)
  | [] => none
  | byte :: rest =>
    if byte = delimiter then some ([], rest)
    else (splitOnce delimiter rest).map fun parts => (byte :: parts.1, parts.2)

/-- A text is split at its first delimiter. -/
theorem splitOnce_append {delimiter : UInt8} {first : Bytes} (absent : delimiter ∉ first) (rest : Bytes) :
    splitOnce delimiter (first ++ delimiter :: rest) = some (first, rest) := by
  induction first with
  | nil => simp [splitOnce]
  | cons byte later inductionHypothesis =>
    obtain ⟨different, further⟩ := not_or.mp (List.mem_cons.not.mp absent)
    simp [splitOnce, Ne.symm different, inductionHypothesis further]

/-- Without the delimiter a text is not split. -/
theorem splitOnce_of_not_mem {delimiter : UInt8} {bytes : Bytes} (absent : delimiter ∉ bytes) :
    splitOnce delimiter bytes = none := by
  induction bytes with
  | nil => rfl
  | cons byte rest inductionHypothesis =>
    obtain ⟨different, further⟩ := not_or.mp (List.mem_cons.not.mp absent)
    simp [splitOnce, Ne.symm different, inductionHypothesis further]

/-- Splitting succeeds exactly at the first delimiter. -/
theorem splitOnce_eq_some {delimiter : UInt8} {bytes first second : Bytes} :
    splitOnce delimiter bytes = some (first, second) ↔
      bytes = first ++ delimiter :: second ∧ delimiter ∉ first := by
  constructor
  · intro split
    by_cases present : delimiter ∈ bytes
    · obtain ⟨before, after, rfl, absent⟩ := List.eq_append_cons_of_mem present
      rw [splitOnce_append absent] at split
      cases split
      exact ⟨rfl, absent⟩
    · rw [splitOnce_of_not_mem present] at split
      cases split
  · rintro ⟨rfl, absent⟩
    exact splitOnce_append absent second

/-- A line without the carriage return that its line feed was preceded by. -/
def withoutCarriage (line : Bytes) : Bytes := if line.getLast? = some 13 then line.dropLast else line

/-- The lines of the rest of a text, of which the given beginning of a line is known. -/
def linesFrom (current : Bytes) : Bytes → List Bytes
  | [] => if current = [] then [] else [current]
  | byte :: rest =>
    if byte = 10 then withoutCarriage current :: linesFrom [] rest else linesFrom (current ++ [byte]) rest

/-- The lines of a text, without their ends. A line feed that ends the text starts no line. -/
def lines (text : Bytes) : List Bytes := linesFrom [] text

/-- No bytes are no lines. -/
@[simp] theorem lines_nil : lines [] = [] := rfl

/-- A line that ends in a line feed is the first line. -/
theorem linesFrom_append (current : Bytes) {line : Bytes} (unbroken : 10 ∉ line) (rest : Bytes) :
    linesFrom current (line ++ 10 :: rest) = withoutCarriage (current ++ line) :: lines rest := by
  induction line generalizing current with
  | nil => simp [linesFrom, lines]
  | cons byte later inductionHypothesis =>
    obtain ⟨different, further⟩ := not_or.mp (List.mem_cons.not.mp unbroken)
    have continued := inductionHypothesis (current ++ [byte]) further
    rw [List.append_assoc] at continued
    simpa only [List.cons_append, linesFrom, Ne.symm different, ↓reduceIte, List.nil_append] using continued

/-- A line that is written with a line feed and does not end in a carriage return is read back. -/
theorem lines_append {line : Bytes} (plain : 10 ∉ line ∧ 13 ∉ line) (rest : Bytes) :
    lines (line ++ 10 :: rest) = line :: lines rest := by
  have kept : withoutCarriage line = line := if_neg fun last => plain.2 (List.mem_of_getLast? last)
  rw [lines, linesFrom_append [] plain.1, List.nil_append, kept]

/-- What follows a known beginning. -/
def strip (start bytes : Bytes) : Option Bytes :=
  if bytes.take start.length = start then some (bytes.drop start.length) else none

/-- A beginning that is there is stripped. -/
theorem strip_append (start rest : Bytes) : strip start (start ++ rest) = some rest := by
  simp [strip]

/-- Stripping a beginning leaves the rest of exactly the bytes that have it. -/
theorem strip_eq_some (start bytes rest : Bytes) : strip start bytes = some rest ↔ bytes = start ++ rest := by
  constructor
  · intro stripped
    unfold strip at stripped
    split at stripped
    · rename_i same
      cases stripped
      conv => rhs; arg 1; rw [← same]
      exact (List.take_append_drop _ _).symm
    · cases stripped
  · rintro rfl
    exact strip_append start rest

/-- A beginning can be stripped exactly when it is one. -/
theorem strip_isSome (start bytes : Bytes) : (strip start bytes).isSome ↔ start <+: bytes := by
  rw [Option.isSome_iff_exists]
  constructor
  · rintro ⟨rest, stripped⟩
    exact ⟨rest, ((strip_eq_some _ _ _).mp stripped).symm⟩
  · rintro ⟨rest, split⟩
    exact ⟨rest, (strip_eq_some _ _ _).mpr split.symm⟩

/-! ## Text fields -/

/-- A length-prefixed text: a counted field whose bytes must be UTF-8. -/
def textField {ε : Type} (invalid tooLong : ε) (limit : Nat) : Reader ε String := do
  let bytes ← Reader.counted invalid tooLong limit
  match fromUtf8 bytes with
  | some text => return text
  | none => throw invalid

/-- A text field is the counted field of the text's bytes. -/
theorem recognises_textField {ε : Type} (invalid tooLong : ε) (limit : Nat) (fits : limit < 256 ^ 4) :
    Reader.Recognises (textField invalid tooLong limit)
      (fun text bytes => (utf8 text).length ≤ limit ∧ bytes = Reader.field (utf8 text)) := by
  have decoded (raw : Bytes) : Reader.Recognises
      (match fromUtf8 raw with
        | some text => return text
        | none => throw invalid : Reader ε String)
      (fun text bytes => raw = utf8 text ∧ bytes = []) := by
    cases spelled : fromUtf8 raw with
    | some written =>
      obtain rfl := (fromUtf8_eq_some _ _).mp spelled
      refine (Reader.recognises_pure written).congr fun text bytes => and_congr_left fun _ => ?_
      exact ⟨fun same => congrArg utf8 same.symm, fun same => (utf8_injective same).symm⟩
    | none =>
      intro input text rest
      constructor
      · intro impossible
        cases impossible
      · rintro ⟨_, ⟨rfl, _⟩, _⟩
        simp at spelled
  refine ((Reader.recognises_counted invalid tooLong limit fits).bind decoded).congr ?_
  intro text bytes
  constructor
  · rintro ⟨_, _, _, ⟨bounded, rfl⟩, ⟨rfl, rfl⟩, rfl⟩
    exact ⟨bounded, List.append_nil _⟩
  · rintro ⟨bounded, rfl⟩
    exact ⟨utf8 text, _, [], ⟨bounded, rfl⟩, ⟨rfl, rfl⟩, (List.append_nil _).symm⟩

end Keyvisor.Foundation.Text
