import Keyvisor.Foundation.BigEndian

/-!
# Readers over byte strings

A reader consumes a leading part of its input and hands on the rest, or stops
with an error. A grammar relates each value to the byte strings that spell it.
`Recognises` says that a reader accepts exactly the spellings of its grammar,
whatever follows them; `Truncates` says that its only refusal is running out of
input, on a proper beginning of some spelling.

Both notions compose along sequencing, so a format read field by field is
settled field by field. A recognised grammar is unambiguous and prefix-free,
because the reader is a function of its input.
-/

namespace Keyvisor.Foundation

/-- A sequence succeeds exactly when each of its steps does. -/
theorem bind_eq_ok {ε α β : Type} (first : Except ε α) (next : α → Except ε β) (final : β) :
    (first >>= next) = .ok final ↔ ∃ middle, first = .ok middle ∧ next middle = .ok final := by
  cases first with
  | error error => simp [bind, Except.bind]
  | ok middle => simp [bind, Except.bind]

/-- Renaming errors keeps the successes. -/
theorem mapError_eq_ok {ε δ α : Type} (result : Except ε α) (report : ε → δ) (value : α) :
    result.mapError report = .ok value ↔ result = .ok value := by
  cases result <;> simp [Except.mapError]

/-- A reader threads the unread input and may stop with an error. -/
abbrev Reader (ε : Type) := StateT Bytes (Except ε)

namespace Reader

variable {ε α β : Type}

/-- Stop with `error` unless the condition holds; nothing is consumed. -/
def require (condition : Bool) (error : ε) : Reader ε Unit :=
  if condition then pure () else throw error

/-- Split off exactly `length` bytes, or stop with `short` on a shorter input. -/
def take (short : ε) (length : Nat) : Reader ε Bytes := fun input =>
  if input.length < length then .error short else .ok (input.splitAt length)

/-- A grammar relates a value to the byte strings spelling it. -/
abbrev Grammar (α : Type) := α → Bytes → Prop

/-- Acceptance is exactly the presence of a spelling in front of the rest. -/
def Recognises (reader : Reader ε α) (spells : Grammar α) : Prop :=
  ∀ input value rest, reader input = .ok (value, rest) ↔
    ∃ consumed, spells value consumed ∧ input = consumed ++ rest

/-- The only refusal is a missing suffix: the input is a proper beginning of a
spelling. -/
def Truncates (reader : Reader ε α) (spells : Grammar α) (short : ε) : Prop :=
  ∀ input error, reader input = .error error →
    error = short ∧ ∃ value missing, missing ≠ [] ∧ spells value (input ++ missing)

/-- Sequencing spells the first value, then the second after it. -/
def andThen (first : Grammar α) (second : α → Grammar β) : Grammar β := fun value bytes =>
  ∃ head left right, first head left ∧ second head value right ∧ bytes = left ++ right

/-- One step of a sequence, read on its actual input. -/
theorem bind_run (reader : Reader ε α) (next : α → Reader ε β) (input : Bytes) :
    (reader >>= next) input = match reader input with
      | .ok (value, rest) => next value rest
      | .error error => .error error := by
  show Except.bind (reader input) _ = _
  cases reader input <;> rfl

/-- Returning a value consumes nothing. -/
theorem recognises_pure (returned : α) :
    Recognises (pure returned : Reader ε α) (fun value bytes => value = returned ∧ bytes = []) := by
  intro input value rest
  have run : (pure returned : Reader ε α) input = .ok (returned, input) := rfl
  rw [run]
  constructor
  · intro same
    cases same
    exact ⟨[], ⟨rfl, rfl⟩, rfl⟩
  · rintro ⟨_, ⟨rfl, rfl⟩, rfl⟩
    rfl

/-- A requirement admits the empty spelling exactly under its condition. -/
theorem recognises_require (condition : Bool) (error : ε) :
    Recognises (require condition error) (fun _ bytes => condition = true ∧ bytes = []) := by
  intro input value rest
  cases condition with
  | true =>
    rw [require, if_pos rfl, recognises_pure ()]
    simp
  | false =>
    constructor
    · intro impossible
      cases impossible
    · rintro ⟨_, ⟨impossible, _⟩, _⟩
      cases impossible

/-- A lifted check admits the empty spelling of exactly its own success. -/
theorem recognises_lift (result : Except ε α) :
    Recognises (liftM result : Reader ε α) (fun value bytes => result = .ok value ∧ bytes = []) := by
  intro input value rest
  cases result with
  | ok returned =>
    constructor
    · intro same
      cases same
      exact ⟨[], ⟨rfl, rfl⟩, rfl⟩
    · rintro ⟨_, ⟨same, rfl⟩, rfl⟩
      cases same
      rfl
  | error error =>
    constructor
    · intro impossible
      cases impossible
    · rintro ⟨_, ⟨impossible, _⟩, _⟩
      cases impossible

/-- Splitting off a fixed number of bytes spells each string of that length. -/
theorem recognises_take (short : ε) (length : Nat) :
    Recognises (take short length) (fun value bytes => value = bytes ∧ bytes.length = length) := by
  intro input value rest
  by_cases shorter : input.length < length
  · simp only [take, shorter, ↓reduceIte, reduceCtorEq, false_iff]
    rintro ⟨consumed, ⟨_, width⟩, rfl⟩
    simp only [List.length_append] at shorter
    omega
  · simp only [take, shorter, ↓reduceIte, List.splitAt_eq, Except.ok.injEq, Prod.mk.injEq]
    constructor
    · rintro ⟨rfl, rfl⟩
      exact ⟨_, ⟨rfl, by simp; omega⟩, (List.take_append_drop length input).symm⟩
    · rintro ⟨consumed, ⟨rfl, rfl⟩, rfl⟩
      simp

/-- Sequenced readers recognise the sequenced grammar. -/
theorem Recognises.bind {reader : Reader ε α} {next : α → Reader ε β} {first : Grammar α}
    {second : α → Grammar β} (head : Recognises reader first)
    (tail : ∀ value, Recognises (next value) (second value)) :
    Recognises (reader >>= next) (andThen first second) := by
  intro input value rest
  rw [bind_run]
  constructor
  · cases run : reader input with
    | error error => intro impossible; cases impossible
    | ok result =>
      obtain ⟨middle, unread⟩ := result
      intro finished
      obtain ⟨left, leftSpelled, rfl⟩ := (head _ _ _).mp run
      obtain ⟨right, rightSpelled, rfl⟩ := (tail middle _ _ _).mp finished
      exact ⟨left ++ right, ⟨middle, left, right, leftSpelled, rightSpelled, rfl⟩,
        (List.append_assoc _ _ _).symm⟩
  · rintro ⟨_, ⟨middle, left, right, leftSpelled, rightSpelled, rfl⟩, rfl⟩
    have run : reader (left ++ right ++ rest) = .ok (middle, right ++ rest) :=
      (head _ _ _).mpr ⟨left, leftSpelled, List.append_assoc _ _ _⟩
    rw [run]
    exact (tail middle _ _ _).mpr ⟨right, rightSpelled, rfl⟩

/-- A grammar may be replaced by any grammar with the same spellings. -/
theorem Recognises.congr {reader : Reader ε α} {spells others : Grammar α}
    (recognised : Recognises reader spells)
    (same : ∀ value bytes, spells value bytes ↔ others value bytes) : Recognises reader others := by
  intro input value rest
  rw [recognised]
  simp only [same]

/-- A part with one spelling for each value, read in front of the others. -/
theorem Recognises.leading {reader : Reader ε α} {next : α → Reader ε β} {fits : α → Prop} {write : α → Bytes}
    {second : α → Grammar β} (head : Recognises reader (fun value bytes => fits value ∧ bytes = write value))
    (tail : ∀ value, Recognises (next value) (second value)) :
    Recognises (reader >>= next) (fun whole bytes =>
      ∃ value, fits value ∧ ∃ rest, second value whole rest ∧ bytes = write value ++ rest) := by
  refine (head.bind tail).congr ?_
  intro whole bytes
  constructor
  · rintro ⟨value, _, rest, ⟨fitting, rfl⟩, spelled, rfl⟩
    exact ⟨value, fitting, rest, spelled, rfl⟩
  · rintro ⟨value, fitting, rest, spelled, rfl⟩
    exact ⟨value, write value, rest, ⟨fitting, rfl⟩, spelled, rfl⟩

/-- A byte whose meaning is looked up right after it was read: it is the tag of what
was found. -/
theorem Recognises.tagged {γ : Type} {reader : Reader ε UInt8} {meaning : UInt8 → Except ε γ}
    {tag : γ → UInt8} {next : γ → Reader ε β} {second : γ → Grammar β}
    (head : Recognises reader (fun read bytes => bytes = [read]))
    (exactly : ∀ read value, meaning read = .ok value ↔ read = tag value)
    (tail : ∀ value, Recognises (next value) (second value)) :
    Recognises (reader >>= fun read => liftM (meaning read) >>= next) (fun whole bytes =>
      ∃ value rest, second value whole rest ∧ bytes = tag value :: rest) := by
  refine (head.bind fun read => (recognises_lift (meaning read)).bind tail).congr ?_
  intro whole bytes
  constructor
  · rintro ⟨read, _, rest, rfl, ⟨value, _, _, ⟨found, rfl⟩, spelled, rfl⟩, rfl⟩
    obtain rfl := (exactly read value).mp found
    exact ⟨value, rest, spelled, rfl⟩
  · rintro ⟨value, rest, spelled, rfl⟩
    exact ⟨tag value, _, rest, rfl, ⟨value, [], rest, ⟨(exactly _ _).mpr rfl, rfl⟩, spelled, rfl⟩, rfl⟩

/-- A fixed beginning that is compared after it was read. -/
theorem Recognises.marked {next : Reader ε β} {second : Grammar β} (tail : Recognises next second)
    (short unlike : ε) (mark : Bytes) :
    Recognises (take short mark.length >>= fun found => require (found == mark) unlike >>= fun _ => next)
      (fun whole bytes => ∃ rest, second whole rest ∧ bytes = mark ++ rest) := by
  refine ((recognises_take short mark.length).bind fun found =>
    (recognises_require (found == mark) unlike).bind fun _ => tail).congr ?_
  intro whole bytes
  constructor
  · rintro ⟨found, _, rest, ⟨rfl, _⟩, ⟨_, _, _, ⟨same, rfl⟩, spelled, rfl⟩, rfl⟩
    obtain rfl := eq_of_beq same
    exact ⟨rest, spelled, rfl⟩
  · rintro ⟨rest, spelled, rfl⟩
    exact ⟨mark, mark, rest, ⟨rfl, rfl⟩, ⟨(), [], rest, ⟨beq_self_eq_true _, rfl⟩, spelled, rfl⟩, rfl⟩

/-- Two spellings that begin one input are the same spelling of the same value. -/
theorem Recognises.unambiguous {reader : Reader ε α} {spells : Grammar α}
    (recognised : Recognises reader spells) {left right : α} {leftBytes rightBytes : Bytes}
    (leftRest rightRest : Bytes) (leftSpelled : spells left leftBytes)
    (rightSpelled : spells right rightBytes) (same : leftBytes ++ leftRest = rightBytes ++ rightRest) :
    left = right ∧ leftBytes = rightBytes := by
  have leftRun := (recognised (leftBytes ++ leftRest) left leftRest).mpr ⟨_, leftSpelled, rfl⟩
  have rightRun := (recognised (leftBytes ++ leftRest) right rightRest).mpr ⟨_, rightSpelled, same⟩
  obtain ⟨sameValue, rfl⟩ : left = right ∧ leftRest = rightRest := by
    simpa using leftRun.symm.trans rightRun
  exact ⟨sameValue, List.append_cancel_right same⟩

/-- A short input is the beginning of some string of the requested length. -/
theorem truncates_take (short : ε) (length : Nat) :
    Truncates (take short length) (fun value bytes => value = bytes ∧ bytes.length = length) short := by
  intro input error refused
  by_cases shorter : input.length < length
  · simp only [take, shorter, ↓reduceIte, Except.error.injEq] at refused
    refine ⟨refused.symm, _, List.replicate (length - input.length) 0, ?_, rfl, ?_⟩
    · simp only [ne_eq, List.replicate_eq_nil_iff]
      omega
    · simp only [List.length_append, List.length_replicate]
      omega
  · simp [take, shorter] at refused

/-- Returning never refuses. -/
theorem truncates_pure (returned : α) (spells : Grammar α) (short : ε) :
    Truncates (pure returned : Reader ε α) spells short := by
  intro input error refused
  cases refused

/-- Truncation composes when every head can be completed by some tail. -/
theorem Truncates.bind {reader : Reader ε α} {next : α → Reader ε β} {first : Grammar α}
    {second : α → Grammar β} {short : ε} (recognised : Recognises reader first)
    (head : Truncates reader first short) (tail : ∀ value, Truncates (next value) (second value) short)
    (completable : ∀ value, ∃ final bytes, second value final bytes) :
    Truncates (reader >>= next) (andThen first second) short := by
  intro input error refused
  rw [bind_run] at refused
  cases run : reader input with
  | error early =>
    rw [run] at refused
    cases refused
    obtain ⟨rfl, middle, missing, nonempty, spelled⟩ := head input _ run
    obtain ⟨final, bytes, finished⟩ := completable middle
    refine ⟨rfl, final, missing ++ bytes, by simp [nonempty], middle, _, bytes, spelled, finished, ?_⟩
    simp
  | ok result =>
    obtain ⟨middle, unread⟩ := result
    rw [run] at refused
    obtain ⟨left, leftSpelled, rfl⟩ := (recognised _ _ _).mp run
    obtain ⟨rfl, final, missing, nonempty, spelled⟩ := tail middle unread _ refused
    exact ⟨rfl, final, missing, nonempty, middle, left, unread ++ missing, leftSpelled, spelled,
      List.append_assoc _ _ _⟩

/-- A fixed-width unsigned number, most significant byte first. -/
def number (short : ε) (width : Nat) : Reader ε Nat := do
  let bytes ← take short width
  return BigEndian.value bytes

/-- Numbers below the width's bound are spelled by their fixed-width encoding. -/
def spellsNumber (width : Nat) : Grammar Nat := fun value bytes =>
  value < 256 ^ width ∧ bytes = BigEndian.encode width value

/-- A number is recognised in its spelling of the given width. -/
theorem recognises_number (short : ε) (width : Nat) :
    Recognises (number short width) (spellsNumber width) := by
  refine ((recognises_take short width).bind fun bytes => recognises_pure _).congr ?_
  intro value bytes
  constructor
  · rintro ⟨_, left, right, ⟨rfl, rfl⟩, ⟨rfl, rfl⟩, rfl⟩
    simp only [List.append_nil]
    exact ⟨BigEndian.value_lt _, (BigEndian.encode_value _).symm⟩
  · rintro ⟨fits, rfl⟩
    exact ⟨_, _, [], ⟨rfl, BigEndian.length_encode _ _⟩,
      ⟨(BigEndian.value_encode_of_lt _ _ fits).symm, rfl⟩, (List.append_nil _).symm⟩

/-- A shorter spelling of a number is reported as short. -/
theorem truncates_number (short : ε) (width : Nat) :
    Truncates (number short width) (spellsNumber width) short := by
  intro input error refused
  rw [number, bind_run] at refused
  cases run : take short width input with
  | ok result => rw [run] at refused; cases refused
  | error early =>
    rw [run] at refused
    cases refused
    obtain ⟨rfl, bytes, missing, nonempty, rfl, size⟩ := truncates_take short width input _ run
    exact ⟨rfl, BigEndian.value (input ++ missing), missing, nonempty,
      size ▸ BigEndian.value_lt _, by rw [← size, BigEndian.encode_value]⟩

/-- A single byte. -/
def byte (short : ε) : Reader ε UInt8 := do
  let bytes ← take short 1
  return bytes.headD 0

/-- A single byte spells itself. -/
theorem recognises_byte (short : ε) :
    Recognises (byte short) (fun tag bytes => bytes = [tag]) := by
  refine ((recognises_take short 1).bind fun bytes => recognises_pure _).congr ?_
  intro tag bytes
  constructor
  · rintro ⟨_, _, _, ⟨rfl, single⟩, ⟨rfl, rfl⟩, rfl⟩
    obtain ⟨only, rfl⟩ := List.length_eq_one_iff.mp single
    rfl
  · rintro rfl
    exact ⟨[tag], [tag], [], ⟨rfl, rfl⟩, ⟨rfl, rfl⟩, rfl⟩

/-- A field announced by its 32-bit length and bounded by `limit`. -/
def counted (short tooLong : ε) (limit : Nat) : Reader ε Bytes := do
  let length ← number short 4
  require (length ≤ limit) tooLong
  take short length

/-- Append a bounded field behind its 32-bit length. The second test is the
conversion of the length to 32 bits. -/
def pushCounted (tooLong : ε) (limit : Nat) (output bytes : Bytes) : Except ε Bytes :=
  if limit < bytes.length then .error tooLong
  else if 2 ^ 32 ≤ bytes.length then .error tooLong
  else .ok (output ++ BigEndian.encode 4 bytes.length ++ bytes)

/-- The spelling of one length-prefixed field. -/
def field (bytes : Bytes) : Bytes := BigEndian.encode 4 bytes.length ++ bytes

/-- A counted field is its length followed by its bytes. -/
def spellsCounted (limit : Nat) : Grammar Bytes := fun value bytes =>
  value.length ≤ limit ∧ bytes = field value

/-- Counted fields are read exactly, provided the limit fits the length prefix. -/
theorem recognises_counted (short tooLong : ε) (limit : Nat) (fits : limit < 256 ^ 4) :
    Recognises (counted short tooLong limit) (spellsCounted limit) := by
  refine ((recognises_number short 4).bind fun length =>
    (recognises_require _ tooLong).bind fun _ => recognises_take short length).congr ?_
  intro value bytes
  constructor
  · rintro ⟨_, _, _, ⟨_, rfl⟩, ⟨_, _, _, ⟨bounded, rfl⟩, ⟨rfl, rfl⟩, rfl⟩, rfl⟩
    exact ⟨of_decide_eq_true bounded, rfl⟩
  · rintro ⟨bounded, rfl⟩
    exact ⟨value.length, _, _, ⟨Nat.lt_of_le_of_lt bounded fits, rfl⟩,
      ⟨(), [], value, ⟨decide_eq_true bounded, rfl⟩, ⟨rfl, rfl⟩, rfl⟩, rfl⟩

/-- Writing succeeds exactly on bounded fields and appends their spelling. -/
theorem pushCounted_eq_ok (tooLong : ε) (limit : Nat) (fits : limit < 256 ^ 4)
    (output bytes written : Bytes) :
    pushCounted tooLong limit output bytes = .ok written ↔
      bytes.length ≤ limit ∧ written = output ++ field bytes := by
  unfold pushCounted field
  by_cases bounded : bytes.length ≤ limit
  · have short : ¬ limit < bytes.length := by omega
    have narrow : ¬ 2 ^ 32 ≤ bytes.length := by omega
    simp only [short, narrow, bounded, ↓reduceIte, Except.ok.injEq, true_and, List.append_assoc]
    exact eq_comm
  · have long : limit < bytes.length := by omega
    simp [long, bounded]

/-- A leading announced field and what follows it are determined by their bytes. -/
theorem field_append_inj {left right leftRest rightRest : Bytes} (leftFits : left.length < 2 ^ 32)
    (rightFits : right.length < 2 ^ 32) (same : field left ++ leftRest = field right ++ rightRest) :
    left = right ∧ leftRest = rightRest := by
  have recognised := recognises_counted () () (256 ^ 4 - 1) (by decide)
  have leftSpelled : spellsCounted (256 ^ 4 - 1) left (field left) := ⟨by omega, rfl⟩
  have rightSpelled : spellsCounted (256 ^ 4 - 1) right (field right) := ⟨by omega, rfl⟩
  obtain ⟨rfl, _⟩ := recognised.unambiguous leftRest rightRest leftSpelled rightSpelled same
  exact ⟨rfl, List.append_cancel_left same⟩

/-- Read a fixed number of values one after another. -/
def times (reader : Reader ε α) : Nat → Reader ε (List α)
  | 0 => pure []
  | count + 1 => do
    let first ← reader
    let rest ← times reader count
    return first :: rest

/-- Repeated reading spells the concatenation of the single spellings. -/
theorem recognises_times {reader : Reader ε α} {admits : α → Prop} {spelling : α → Bytes}
    (recognised : Recognises reader (fun value bytes => admits value ∧ bytes = spelling value))
    (count : Nat) :
    Recognises (times reader count) (fun values bytes => values.length = count ∧
      (∀ value ∈ values, admits value) ∧ bytes = values.flatMap spelling) := by
  induction count with
  | zero =>
    refine (recognises_pure []).congr ?_
    intro values bytes
    constructor
    · rintro ⟨rfl, rfl⟩
      exact ⟨rfl, nofun, rfl⟩
    · rintro ⟨empty, _, rfl⟩
      obtain rfl := List.length_eq_zero_iff.mp empty
      exact ⟨rfl, rfl⟩
  | succ count inductionHypothesis =>
    refine (recognised.bind fun first => inductionHypothesis.bind fun rest =>
      recognises_pure (first :: rest)).congr ?_
    intro values bytes
    constructor
    · rintro ⟨first, _, _, ⟨admitted, rfl⟩, ⟨rest, _, _, ⟨size, all, rfl⟩, ⟨rfl, rfl⟩, rfl⟩, rfl⟩
      exact ⟨by simp [size], by simpa using ⟨admitted, all⟩, by simp⟩
    · rintro ⟨size, all, rfl⟩
      obtain ⟨first, rest, rfl⟩ := List.exists_cons_of_length_eq_add_one size
      rw [List.forall_mem_cons] at all
      exact ⟨first, spelling first, rest.flatMap spelling, ⟨all.1, rfl⟩,
        ⟨rest, rest.flatMap spelling, [], ⟨Nat.succ.inj size, all.2, rfl⟩, ⟨rfl, rfl⟩, by simp⟩, rfl⟩

/-- A reader that must consume its whole input. -/
def complete (reader : Reader ε α) (trailing : ε) (input : Bytes) : Except ε α :=
  match reader input with
  | .ok (value, rest) => if rest.isEmpty then .ok value else .error trailing
  | .error error => .error error

/-- Complete reading accepts exactly the spellings. -/
theorem complete_eq_ok {reader : Reader ε α} {spells : Grammar α} (trailing : ε)
    (recognised : Recognises reader spells) (input : Bytes) (value : α) :
    complete reader trailing input = .ok value ↔ spells value input := by
  have exact_ : reader input = .ok (value, []) ↔ spells value input := by
    rw [recognised]
    simp
  rw [← exact_, complete]
  cases run : reader input with
  | error error => simp
  | ok result =>
    obtain ⟨read, rest⟩ := result
    cases rest <;> simp

end Reader

end Keyvisor.Foundation
