import Keyvisor.Pinentry

/-!
# PINs from standard input

Executable translation of `read_pin_line` and `read_new_pin` in `keyvisor-cli/src/main.rs`.
A PIN is the first line of the input without its line end. The reader looks at no more
than 66 bytes, which is just enough for the longest PIN with both bytes of a line end:
a longer line always leaves more than 64 bytes after the line end is taken off, so it
is refused and never cut to a shorter PIN.
-/

namespace Keyvisor.PinInput

open Foundation Foundation.Stream Foundation.Text Control ControlClient
open Foundation.Program (demand)
open Pinentry (withoutReturn)

/-- The line without its end. -/
def withoutNewline (line : Bytes) : Bytes := if line.getLast? = some 10 then line.dropLast else line

/-- `read_pin_line`. -/
def readPinLine (reader : Buffered) (label : String) : Except String (Bytes × Buffered) :=
  match reader.readUntil 10 (maxPinBytes + 2) with
  | .error error => .error ("cannot read " ++ label ++ ": " ++ error.text)
  | .ok (pin, after) => do
    let pin ← validatePin (withoutReturn (withoutNewline pin)) label
    return (pin, after)

/-! ## New PINs -/

/-- What the tool asks for while it reads a new PIN. -/
inductive Operation where
  | graphicalSessionAvailable
  | readSecretFromPinentry (description : String) (repeatPrompt : Option String)
  | readPinLine (label : String)
  | readSecretFromTty (prompt : String)
  deriving DecidableEq, Repr

/-- What is answered to each way of asking. -/
def Answer : Operation → Type
  | .graphicalSessionAvailable => Bool
  | .readSecretFromPinentry _ _ => Except String Bytes
  | .readPinLine _ => Except String Bytes
  | .readSecretFromTty _ => Except String Bytes

abbrev Routine (ε : Type) := ExceptT ε (Program Operation Answer)

/-- Only an automatic choice looks at the session. -/
def resolveSecretInput (input : SecretInput) : Routine String SecretInput :=
  if input = .auto then do
    let graphical ← (liftM (Program.call Operation.graphicalSessionAvailable : Program Operation Answer Bool) :
      Routine String Bool)
    return if graphical then .pinentry else .terminal
  else pure input

/-- A way of asking whose failure is the routine's. -/
def asked (operation : Program Operation Answer (Except String Bytes)) : Routine String Bytes :=
  demand (fun message : String => message) operation

/-- Both entries of the PIN have to be the same. -/
def confirmed (first second : Bytes) : Except String Bytes :=
  if first ≠ second then .error "PIN confirmation does not match" else .ok first

/-- `read_new_pin`. -/
def readNewPin (keyName : String) (input : SecretInput) : Routine String Bytes := do
  let input ← resolveSecretInput input
  if input = .pinentry then
    asked (Program.call (Operation.readSecretFromPinentry ("Create TPM-protected key “" ++ keyName ++ "”.")
      (some "Confirm TPM PIN:")))
  else if input = .stdin then do
    let first ← asked (Program.call (Operation.readPinLine "PIN"))
    let second ← asked (Program.call (Operation.readPinLine "PIN confirmation"))
    confirmed first second
  else do
    let first ← asked (Program.call (Operation.readSecretFromTty "TPM PIN: "))
    let second ← asked (Program.call (Operation.readSecretFromTty "Confirm TPM PIN: "))
    confirmed first second

/-- A session, a dialog and a terminal that answer as they like. -/
structure Surroundings where
  graphicalSessionAvailable : Bool
  readSecretFromPinentry : String → Option String → Except String Bytes
  readSecretFromTty : String → Except String Bytes

/-- Lines are taken from standard input, one after the other. -/
def respond (surroundings : Surroundings) : (operation : Operation) → Buffered → Answer operation × Buffered
  | .graphicalSessionAvailable, stdin => (surroundings.graphicalSessionAvailable, stdin)
  | .readSecretFromPinentry description repeatPrompt, stdin =>
    (surroundings.readSecretFromPinentry description repeatPrompt, stdin)
  | .readPinLine label, stdin =>
    match readPinLine stdin label with
    | .ok (pin, after) => (.ok pin, after)
    | .error message => (.error message, stdin)
  | .readSecretFromTty prompt, stdin => (surroundings.readSecretFromTty prompt, stdin)

/-! ## One line -/

/-- The bytes before the first newline, or before a regular end, and what follows. -/
def FirstLine (ending : Option IoError) (bytes line rest : Bytes) : Prop :=
  10 ∉ line ∧ (bytes = line ++ 10 :: rest ∨ (bytes = line ∧ rest = [] ∧ ending = none))

/-- Taking off the return loses at most one byte. -/
theorem length_withoutReturn (line : Bytes) :
    (withoutReturn line).length ≤ line.length ∧ line.length ≤ (withoutReturn line).length + 1 := by
  unfold withoutReturn
  split
  · rw [List.length_dropLast]
    omega
  · omega

/-- The line feed at the end of a line is dropped. -/
theorem withoutNewline_line (line : Bytes) : withoutNewline (line ++ [10]) = line := by
  rw [withoutNewline, if_pos List.getLast?_concat, List.dropLast_concat]

/-- Without a line feed nothing is dropped. -/
theorem withoutNewline_of_not_mem {line : Bytes} (absent : 10 ∉ line) : withoutNewline line = line := by
  rw [withoutNewline, if_neg fun last => absent (List.mem_of_getLast? last)]

/-- A PIN is accepted unchanged if it has six to sixty-four bytes. -/
theorem validatePin_eq_ok (pin accepted : Bytes) (label : String) :
    validatePin pin label = .ok accepted ↔ accepted = pin ∧ 6 ≤ pin.length ∧ pin.length ≤ 64 := by
  unfold validatePin
  by_cases bounded : 6 ≤ pin.length ∧ pin.length ≤ maxPinBytes
  · simp only [if_pos bounded, Except.ok.injEq]
    constructor
    · rintro rfl
      exact ⟨rfl, bounded⟩
    · rintro ⟨rfl, _⟩
      rfl
  · simp only [if_neg bounded, reduceCtorEq, false_iff]
    rintro ⟨_, within⟩
    exact bounded within

/-- The first line is accepted as its own PIN or not at all. Where no newline comes
within the limit, either the input ends there or too much is left for a PIN. -/
theorem readPinLine_split {reader after : Buffered} {label : String} {pin : Bytes}
    (reads : readPinLine reader label = .ok (pin, after)) :
    ∃ line, FirstLine reader.source.ending reader.bytes line after.bytes ∧ pin = withoutReturn line ∧
      6 ≤ pin.length ∧ pin.length ≤ 64 ∧ after.source.ending = reader.source.ending := by
  unfold readPinLine at reads
  split at reads
  · cases reads
  · rename_i bytes final untilNewline
    obtain ⟨accepted, valid, returned⟩ := (bind_eq_ok _ _ _).mp reads
    cases returned
    obtain ⟨rfl, long, short⟩ := (validatePin_eq_ok _ _ _).mp valid
    have settled := Buffered.readUntil_settled untilNewline
    obtain ⟨other, found, left, kept⟩ := Buffered.readUntil_spec 10 (maxPinBytes + 2) reader settled
    rw [untilNewline] at found
    cases found
    by_cases present : 10 ∈ reader.bytes.take (maxPinBytes + 2)
    · obtain ⟨line, rest, shape, absent⟩ := List.eq_append_cons_of_mem present
      rw [shape, upTo_line absent, withoutNewline_line] at long short ⊢
      rw [shape, upTo_line absent] at untilNewline
      have within : line.length < maxPinBytes + 2 := by
        have width := List.length_take_le (maxPinBytes + 2) reader.bytes
        rw [shape, List.length_append, List.length_cons] at width
        omega
      obtain ⟨single, split⟩ := Buffered.readUntil_complete untilNewline within
      exact ⟨line, ⟨single, .inl split⟩, rfl, long, short, kept⟩
    · have clean : 10 ∉ upTo 10 (reader.bytes.take (maxPinBytes + 2)) := by rwa [upTo_of_not_mem present]
      rw [withoutNewline_of_not_mem clean] at long short ⊢
      rw [upTo_of_not_mem present] at long short left ⊢
      have narrow := (length_withoutReturn (reader.bytes.take (maxPinBytes + 2))).2
      have width : (reader.bytes.take (maxPinBytes + 2)).length = min (maxPinBytes + 2) reader.bytes.length :=
        List.length_take
      have few : reader.bytes.length < maxPinBytes + 2 := by
        simp only [maxPinBytes] at *
        omega
      have whole : reader.bytes.take (maxPinBytes + 2) = reader.bytes := List.take_of_length_le (by omega)
      have regular : reader.source.ending = none := by
        rcases settled with found | enough | regular
        · exact absurd found present
        · omega
        · exact regular
      rw [whole] at long short left present ⊢
      exact ⟨reader.bytes, ⟨present, .inr ⟨rfl, by rw [left, List.drop_length], regular⟩⟩, rfl, long, short, kept⟩

/-- Every first line whose PIN is within the bounds is accepted, and taken as a whole. -/
theorem readPinLine_line {reader : Buffered} (label : String) {line rest : Bytes}
    (first : FirstLine reader.source.ending reader.bytes line rest) (long : 6 ≤ (withoutReturn line).length)
    (short : (withoutReturn line).length ≤ 64) :
    ∃ after, readPinLine reader label = .ok (withoutReturn line, after) ∧ after.bytes = rest ∧
      after.source.ending = reader.source.ending := by
  have narrow : line.length < maxPinBytes + 2 := by
    have lost := (length_withoutReturn line).2
    simp only [maxPinBytes]
    omega
  have valid : validatePin (withoutReturn line) label = .ok (withoutReturn line) :=
    (validatePin_eq_ok _ _ _).mpr ⟨rfl, long, short⟩
  obtain ⟨absent, split | ⟨whole, rfl, regular⟩⟩ := first
  · obtain ⟨after, reads, left, kept⟩ := reader.readUntil_line 10 (maxPinBytes + 2) split absent narrow
    refine ⟨after, ?_, left, kept⟩
    simp only [readPinLine, reads, withoutNewline_line, valid]
    rfl
  · obtain ⟨after, reads, left, kept⟩ :=
      Buffered.readUntil_spec 10 (maxPinBytes + 2) reader (.inr (.inr regular))
    have all : upTo 10 (reader.bytes.take (maxPinBytes + 2)) = line := by
      rw [whole, List.take_of_length_le (by omega), upTo_of_not_mem absent]
    rw [all] at reads left
    refine ⟨after, ?_, by rw [left, whole, List.drop_length], kept⟩
    simp only [readPinLine, reads, withoutNewline_of_not_mem absent, valid]
    rfl

/-! ## Two lines -/

section

variable (surroundings : Surroundings) {label : String} {stdin after : Buffered} {pin : Bytes} {message : String}

/-- A line that is read is the PIN. -/
theorem execute_line_ok (reads : readPinLine stdin label = .ok (pin, after)) :
    Program.execute (respond surroundings) (asked (Program.call (Operation.readPinLine label))) stdin =
      (.ok pin, after) := by
  have answered : respond surroundings (.readPinLine label) stdin = ((.ok pin : Except String Bytes), after) := by
    simp only [respond, reads]
    rfl
  show (Except.mapError (fun message : String => message) (respond surroundings (.readPinLine label) stdin).1,
    (respond surroundings (.readPinLine label) stdin).2) = _
  rw [answered]
  rfl

/-- A line that is refused leaves the input. -/
theorem execute_line_error (refused : readPinLine stdin label = .error message) :
    Program.execute (respond surroundings) (asked (Program.call (Operation.readPinLine label))) stdin =
      (.error message, stdin) := by
  have answered : respond surroundings (.readPinLine label) stdin =
      ((.error message : Except String Bytes), stdin) := by
    simp only [respond, refused]
    rfl
  show (Except.mapError (fun message : String => message) (respond surroundings (.readPinLine label) stdin).1,
    (respond surroundings (.readPinLine label) stdin).2) = _
  rw [answered]
  rfl

/-- Reading a new PIN from standard input is reading two lines and comparing them. -/
theorem execute_readNewPin (keyName : String) :
    Program.execute (respond surroundings) (readNewPin keyName .stdin) stdin = (.ok pin, after) ↔
      ∃ middle, readPinLine stdin "PIN" = .ok (pin, middle) ∧
        readPinLine middle "PIN confirmation" = .ok (pin, after) := by
  show Program.execute (respond surroundings) (do
      let first ← asked (Program.call (Operation.readPinLine "PIN"))
      let second ← asked (Program.call (Operation.readPinLine "PIN confirmation"))
      confirmed first second : Routine String Bytes) stdin = _ ↔ _
  rw [Program.execute_bind]
  cases reads : readPinLine stdin "PIN" with
  | error message => simp [execute_line_error surroundings reads]
  | ok result =>
    obtain ⟨first, middle⟩ := result
    simp only [execute_line_ok surroundings reads, Program.execute_bind]
    cases again : readPinLine middle "PIN confirmation" with
    | error message =>
      simp only [execute_line_error surroundings again, Prod.mk.injEq, reduceCtorEq, false_and, false_iff]
      rintro ⟨other, same, impossible⟩
      cases same
      rw [again] at impossible
      cases impossible
    | ok result =>
      obtain ⟨second, final⟩ := result
      simp only [execute_line_ok surroundings again]
      by_cases same : first = second
      · subst same
        have returns : Program.execute (respond surroundings)
            (liftM (confirmed first first) : Routine String Bytes) final =
            (.ok first, final) := by
          rw [confirmed, if_neg (not_not.mpr rfl)]
          rfl
        rw [returns]
        constructor
        · intro ended
          cases ended
          exact ⟨middle, rfl, again⟩
        · rintro ⟨other, start, finish⟩
          cases start
          rw [again] at finish
          cases finish
          rfl
      · have refuses : Program.execute (respond surroundings)
          (liftM (confirmed first second) : Routine String Bytes) final =
            (.error "PIN confirmation does not match", final) := by
          rw [confirmed, if_pos same]
          rfl
        rw [refuses]
        constructor
        · intro impossible
          cases impossible
        · rintro ⟨other, start, finish⟩
          cases start
          rw [again] at finish
          cases finish
          exact absurd rfl same

end

/-- Nothing is ever cut off. A line is accepted exactly when what it holds before its line
end has 6 to 64 bytes; that is the PIN, and the line is taken whole and alone. A new PIN
is accepted exactly when two lines in a row hold it. -/
theorem pin_lines_are_never_truncated :
    (∀ (reader : Buffered) (label : String) (pin rest : Bytes),
      (∃ after, readPinLine reader label = .ok (pin, after) ∧ after.bytes = rest) ↔
        ∃ line, FirstLine reader.source.ending reader.bytes line rest ∧ pin = withoutReturn line ∧
          6 ≤ pin.length ∧ pin.length ≤ 64) ∧
    (∀ (surroundings : Surroundings) (keyName : String) (stdin : Buffered) (pin rest : Bytes),
      (∃ after, Program.execute (respond surroundings) (readNewPin keyName .stdin) stdin = (.ok pin, after) ∧
          after.bytes = rest) ↔
        ∃ first second middle, FirstLine stdin.source.ending stdin.bytes first middle ∧
          FirstLine stdin.source.ending middle second rest ∧ pin = withoutReturn first ∧
          pin = withoutReturn second ∧ 6 ≤ pin.length ∧ pin.length ≤ 64) := by
  constructor
  · intro reader label pin rest
    constructor
    · rintro ⟨after, reads, rfl⟩
      obtain ⟨line, first, same, long, short, _⟩ := readPinLine_split reads
      exact ⟨line, first, same, long, short⟩
    · rintro ⟨line, first, rfl, long, short⟩
      obtain ⟨after, reads, left, _⟩ := readPinLine_line label first long short
      exact ⟨after, reads, left⟩
  · intro surroundings keyName stdin pin rest
    constructor
    · rintro ⟨after, executed, rfl⟩
      obtain ⟨between, reads, again⟩ := (execute_readNewPin surroundings keyName).mp executed
      obtain ⟨first, firstLine, same, long, short, kept⟩ := readPinLine_split reads
      obtain ⟨second, secondLine, repeated, _, _, _⟩ := readPinLine_split again
      rw [kept] at secondLine
      exact ⟨first, second, between.bytes, firstLine, secondLine, same, repeated, long, short⟩
    · rintro ⟨first, second, middle, firstLine, secondLine, rfl, repeated, long, short⟩
      obtain ⟨between, reads, left, kept⟩ := readPinLine_line "PIN" firstLine long short
      rw [← kept, ← left] at secondLine
      rw [repeated] at long short
      obtain ⟨after, again, ends, _⟩ := readPinLine_line "PIN confirmation" secondLine long short
      rw [← repeated] at again
      exact ⟨after, (execute_readNewPin surroundings keyName).mpr ⟨between, reads, again⟩, ends⟩

end Keyvisor.PinInput
