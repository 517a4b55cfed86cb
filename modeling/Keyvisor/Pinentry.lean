import Keyvisor.ControlClient
import Keyvisor.Foundation.Percent

/-!
# The PIN dialog

Executable translation of the tool's side of the pinentry protocol in
`keyvisor-cli/src/main.rs`: the reader of responses with its bounded lines and escaped
data, the escaping of texts, and the commands that are sent to the dialog.

The grammar of responses is stated independently of the reader, line by line, and the
reader is exact for it: it accepts precisely the streams that begin with a response
whose data has at most 64 bytes, and takes nothing beyond that response. What the
escaper writes contains no line break and is read back as the text's own bytes.
-/

namespace Keyvisor.Pinentry

open Foundation Foundation.Stream Foundation.Text Foundation.Percent Control ControlClient
open Foundation.Program (demand)

/-- `MAX_PINENTRY_LINE_BYTES`. -/
def maxPinentryLineBytes : Nat := 16 * 1024

/-! ## Reading responses -/

/-- One trailing carriage return is not part of a line. -/
def withoutReturn (line : Bytes) : Bytes := if line.getLast? = some 13 then line.dropLast else line

/-- The limit counts the newline. -/
def readBoundedLine (maximum : Nat) (reader : Buffered) : Except String (Bytes × Buffered) :=
  match reader.readUntil 10 (maximum + 1) with
  | .error error => .error ("cannot read the GNOME PIN dialog: " ++ error.text)
  | .ok (line, after) =>
    if line.getLast? ≠ some 10 ∨ maximum < line.length then .error "GNOME PIN dialog response is too large"
    else .ok (withoutReturn line.dropLast, after)

/-- One more decoded byte, while there is room for it. -/
def pushDecoded (output : Bytes) (byte : UInt8) : Except String Bytes :=
  if maxPinBytes ≤ output.length then .error "GNOME PIN dialog returned an oversized value"
  else .ok (output ++ [byte])

/-- An escape needs two more bytes of the same line. -/
def appendAssuanData : Bytes → Bytes → Except String Bytes
  | [], output => .ok output
  | byte :: rest, output =>
    if byte = 37 then
      match rest with
      | first :: second :: later => do
        let high ← hexDigit first
        let low ← hexDigit second
        let output ← pushDecoded output ((high <<< 4) ||| low)
        appendAssuanData later output
      | _ => .error "GNOME PIN dialog returned invalid escaped data"
    else do
      let output ← pushDecoded output byte
      appendAssuanData rest output

/-- A line that is read takes its newline with it. -/
theorem readBoundedLine_split {maximum : Nat} {reader after : Buffered} {content : Bytes}
    (reads : readBoundedLine maximum reader = .ok (content, after)) :
    ∃ line, content = withoutReturn line ∧ 10 ∉ line ∧ line.length < maximum ∧
      reader.bytes = line ++ 10 :: after.bytes := by
  unfold readBoundedLine at reads
  split at reads
  · cases reads
  · rename_i bytes final untilNewline
    split at reads
    · cases reads
    · rename_i complete
      obtain ⟨line, rfl, single, short, split⟩ := Buffered.readUntil_terminated untilNewline complete
      rw [List.dropLast_concat] at reads
      cases reads
      exact ⟨line, rfl, single, short, split⟩

/-- A read line leaves fewer bytes. -/
theorem readBoundedLine_shorter {maximum : Nat} {reader after : Buffered} {content : Bytes}
    (reads : readBoundedLine maximum reader = .ok (content, after)) : after.bytes.length < reader.bytes.length := by
  obtain ⟨line, _, _, _, split⟩ := readBoundedLine_split reads
  rw [split, List.length_append, List.length_cons]
  omega

/-- The loop of `read_pinentry_response` with the data that it has collected. Every
line that is read leaves less of the stream. -/
def readResponseFrom (data : Bytes) (reader : Buffered) : Except String (Bytes × Buffered) :=
  match reads : readBoundedLine maxPinentryLineBytes reader with
  | .error message => .error message
  | .ok (line, after) =>
    have _shorter := readBoundedLine_shorter reads
    match strip (utf8 "D ") line with
    | some escaped =>
      match appendAssuanData escaped data with
      | .error message => .error message
      | .ok data => readResponseFrom data after
    | none =>
      if line = utf8 "D" ∨ (strip (utf8 "S ") line).isSome then readResponseFrom data after
      else if line = utf8 "OK" ∨ (strip (utf8 "OK ") line).isSome then .ok (data, after)
      else if line = utf8 "ERR" ∨ (strip (utf8 "ERR ") line).isSome then .error "GNOME PIN entry was cancelled"
      else .error "GNOME PIN dialog returned an invalid response"
termination_by reader.bytes.length

/-- `read_pinentry_response`. -/
def readPinentryResponse (reader : Buffered) : Except String (Bytes × Buffered) := readResponseFrom [] reader

/-! ## Escaped data -/

/-- A byte is pushed exactly while there is room. -/
theorem pushDecoded_eq_ok (output final : Bytes) (byte : UInt8) :
    pushDecoded output byte = .ok final ↔ output.length < maxPinBytes ∧ final = output ++ [byte] := by
  unfold pushDecoded
  by_cases full : maxPinBytes ≤ output.length
  · simp only [if_pos full, reduceCtorEq, false_iff, not_and]
    omega
  · simp only [if_neg full, Except.ok.injEq]
    constructor
    · rintro rfl
      exact ⟨by omega, rfl⟩
    · rintro ⟨_, rfl⟩
      rfl

/-- A digit is read as its value only. -/
theorem hexDigit_eq_ok (digit value : UInt8) : hexDigit digit = .ok value ↔ digitValue digit = some value := by
  unfold hexDigit
  cases digitValue digit with
  | none => simp
  | some read => simp

/-- A byte other than the escape stands for itself. -/
theorem appendAssuanData_plain {byte : UInt8} (other : byte ≠ 37) (rest output : Bytes) :
    appendAssuanData (byte :: rest) output = pushDecoded output byte >>= appendAssuanData rest := by
  rw [appendAssuanData.eq_def]
  exact if_neg other

/-- What is appended is what the spelling stands for, and it fits. -/
theorem spells_of_append {input output final : Bytes} (within : output.length ≤ maxPinBytes)
    (appended : appendAssuanData input output = .ok final) :
    ∃ data, Spells input data ∧ final = output ++ data ∧ final.length ≤ maxPinBytes := by
  induction input, output using appendAssuanData.induct generalizing final with
  | case1 output =>
    cases appended
    exact ⟨[], .nil, (List.append_nil _).symm, within⟩
  | case2 output first second later inductionHypothesis =>
    rw [appendAssuanData, if_pos rfl] at appended
    obtain ⟨high, highRead, appended⟩ := (bind_eq_ok _ _ _).mp appended
    obtain ⟨low, lowRead, appended⟩ := (bind_eq_ok _ _ _).mp appended
    obtain ⟨longer, pushed, appended⟩ := (bind_eq_ok _ _ _).mp appended
    obtain ⟨room, rfl⟩ := (pushDecoded_eq_ok _ _ _).mp pushed
    obtain ⟨data, spelled, rfl, fits⟩ := inductionHypothesis _ (by rwa [List.length_append]) appended
    exact ⟨_, .escaped ((hexDigit_eq_ok _ _).mp highRead) ((hexDigit_eq_ok _ _).mp lowRead) spelled,
      List.append_assoc _ _ _, fits⟩
  | case3 rest output short =>
    rw [appendAssuanData, if_pos rfl] at appended
    · cases appended
    · exact short
  | case4 byte rest output other inductionHypothesis =>
    rw [appendAssuanData_plain other] at appended
    obtain ⟨longer, pushed, appended⟩ := (bind_eq_ok _ _ _).mp appended
    obtain ⟨room, rfl⟩ := (pushDecoded_eq_ok _ _ _).mp pushed
    obtain ⟨data, spelled, rfl, fits⟩ := inductionHypothesis _ (by rwa [List.length_append]) appended
    exact ⟨_, .plain other spelled, List.append_assoc _ _ _, fits⟩

/-- What a spelling stands for is appended while there is room for all of it. -/
theorem append_of_spells {input data : Bytes} (spelled : Spells input data) (output : Bytes)
    (fits : output.length + data.length ≤ maxPinBytes) : appendAssuanData input output = .ok (output ++ data) := by
  induction spelled generalizing output with
  | nil => rw [appendAssuanData, List.append_nil]
  | @plain byte spelling bytes other rest inductionHypothesis =>
    rw [List.length_cons] at fits
    have pushed : pushDecoded output byte = .ok (output ++ [byte]) :=
      (pushDecoded_eq_ok _ _ _).mpr ⟨by omega, rfl⟩
    have appended := inductionHypothesis (output ++ [byte])
      (by simp only [List.length_append, List.length_singleton]; omega)
    rw [appendAssuanData_plain other]
    refine (bind_eq_ok _ _ _).mpr ⟨_, pushed, ?_⟩
    rw [appended, List.append_assoc, List.singleton_append]
  | @escaped first second high low spelling bytes firstRead secondRead rest inductionHypothesis =>
    rw [List.length_cons] at fits
    let byte := (high <<< 4) ||| low
    have pushed : pushDecoded output byte = .ok (output ++ [byte]) :=
      (pushDecoded_eq_ok _ _ _).mpr ⟨by omega, rfl⟩
    have appended := inductionHypothesis (output ++ [byte])
      (by simp only [List.length_append, List.length_singleton]; omega)
    rw [appendAssuanData, if_pos rfl]
    refine (bind_eq_ok _ _ _).mpr ⟨high, (hexDigit_eq_ok _ _).mpr firstRead, ?_⟩
    refine (bind_eq_ok _ _ _).mpr ⟨low, (hexDigit_eq_ok _ _).mpr secondRead, ?_⟩
    refine (bind_eq_ok _ _ _).mpr ⟨_, pushed, ?_⟩
    rw [appended, List.append_assoc, List.singleton_append]

/-! ## Responses -/

/-- A line before its newline, and what the reader makes of it. -/
structure Line (raw content : Bytes) : Prop where
  single : 10 ∉ raw
  within : raw.length + 1 ≤ 16384
  content : content = withoutReturn raw

/-- The text is a response with the data: lines that carry data or nothing, and then
the line that ends it. -/
inductive Response : Bytes → Bytes → Prop where
  | ok {raw content : Bytes} (line : Line raw content) (known : content = utf8 "OK" ∨ utf8 "OK " <+: content) :
      Response (raw ++ [10]) []
  | aside {raw content rest data : Bytes} (line : Line raw content)
      (known : content = utf8 "D" ∨ utf8 "S " <+: content) (later : Response rest data) :
      Response (raw ++ 10 :: rest) data
  | data {raw escaped part rest data : Bytes} (line : Line raw (utf8 "D " ++ escaped)) (spelled : Spells escaped part)
      (later : Response rest data) : Response (raw ++ 10 :: rest) (part ++ data)

/-- A line of the grammar is read as its content. -/
theorem readBoundedLine_line {reader : Buffered} {raw content rest : Bytes} (line : Line raw content)
    (split : reader.bytes = raw ++ 10 :: rest) :
    ∃ after, readBoundedLine maxPinentryLineBytes reader = .ok (content, after) ∧ after.bytes = rest := by
  obtain ⟨single, within, rfl⟩ := line
  have short : raw.length < maxPinentryLineBytes := within
  obtain ⟨after, reads, left, _⟩ :=
    reader.readUntil_line 10 (maxPinentryLineBytes + 1) split single (by omega)
  refine ⟨after, ?_, left⟩
  simp only [readBoundedLine, reads, if_neg (Buffered.terminated short), List.dropLast_concat]

section

variable {reader after : Buffered} {line : Bytes}

/-- The loop after it has read a line. -/
def responseAfter (data line : Bytes) (after : Buffered) : Except String (Bytes × Buffered) :=
  match strip (utf8 "D ") line with
  | some escaped =>
    match appendAssuanData escaped data with
    | .error message => .error message
    | .ok data => readResponseFrom data after
  | none =>
    if line = utf8 "D" ∨ (strip (utf8 "S ") line).isSome then readResponseFrom data after
    else if line = utf8 "OK" ∨ (strip (utf8 "OK ") line).isSome then .ok (data, after)
    else if line = utf8 "ERR" ∨ (strip (utf8 "ERR ") line).isSome then .error "GNOME PIN entry was cancelled"
    else .error "GNOME PIN dialog returned an invalid response"

/-- A line is read and then judged. -/
theorem readResponseFrom_line (data : Bytes)
    (reads : readBoundedLine maxPinentryLineBytes reader = .ok (line, after)) :
    readResponseFrom data reader = responseAfter data line after := by
  rw [readResponseFrom]
  split
  · rename_i failed
    rw [reads] at failed
    cases failed
  · rename_i found
    rw [reads] at found
    cases found
    rfl

/-- The loop after a line that carries data. -/
theorem readResponseFrom_data {escaped data longer : Bytes}
    (reads : readBoundedLine maxPinentryLineBytes reader = .ok (utf8 "D " ++ escaped, after))
    (appended : appendAssuanData escaped data = .ok longer) :
    readResponseFrom data reader = readResponseFrom longer after := by
  rw [readResponseFrom_line _ reads]
  simp only [responseAfter, strip_append, appended]

/-- The loop after a line that carries nothing. -/
theorem readResponseFrom_aside (data : Bytes)
    (reads : readBoundedLine maxPinentryLineBytes reader = .ok (line, after))
    (known : line = utf8 "D" ∨ utf8 "S " <+: line) : readResponseFrom data reader = readResponseFrom data after := by
  have plain : strip (utf8 "D ") line = none := by
    rw [Option.eq_none_iff_forall_ne_some]
    intro escaped stripped
    obtain rfl := (strip_eq_some _ _ _).mp stripped
    rcases known with same | ⟨rest, same⟩
    · have second : some 32 = (none : Option UInt8) := congrArg (fun bytes => bytes[1]?) same
      cases second
    · have first : some (83 : UInt8) = some 68 := congrArg List.head? same
      exact absurd first (by decide)
  rw [← strip_isSome] at known
  rw [readResponseFrom_line _ reads]
  simp only [responseAfter, plain, if_pos known]

/-- The loop ends at the line that says so. -/
theorem readResponseFrom_ok (data : Bytes)
    (reads : readBoundedLine maxPinentryLineBytes reader = .ok (line, after))
    (known : line = utf8 "OK" ∨ utf8 "OK " <+: line) : readResponseFrom data reader = .ok (data, after) := by
  have letter : line.head? = some 79 := by
    rcases known with rfl | ⟨rest, rfl⟩
    · decide
    · rfl
  have plain : strip (utf8 "D ") line = none := by
    rw [Option.eq_none_iff_forall_ne_some]
    intro escaped stripped
    obtain rfl := (strip_eq_some _ _ _).mp stripped
    exact absurd (show some (68 : UInt8) = some 79 from letter) (by decide)
  have other : ¬ (line = utf8 "D" ∨ (strip (utf8 "S ") line).isSome) := by
    rw [strip_isSome]
    rintro (rfl | ⟨rest, rfl⟩)
    · exact absurd letter (by decide)
    · exact absurd (show some (83 : UInt8) = some 79 from letter) (by decide)
  rw [← strip_isSome] at known
  rw [readResponseFrom_line _ reads]
  simp only [responseAfter, plain, if_neg other, if_pos known]

end

/-- What the loop accepts is a response, and its data comes after what was collected
before. The induction follows the loop. -/
theorem response_of_reads {data final : Bytes} {reader after : Buffered} (within : data.length ≤ maxPinBytes)
    (reads : readResponseFrom data reader = .ok (final, after)) :
    ∃ text more, Response text more ∧ final = data ++ more ∧ final.length ≤ maxPinBytes ∧
      reader.bytes = text ++ after.bytes := by
  induction data, reader using readResponseFrom.induct with
  | case1 data reader message failed =>
    rw [readResponseFrom] at reads
    split at reads
    · cases reads
    · rename_i found
      rw [failed] at found
      cases found
  | case2 data reader line middle found _ escaped stripped message refused =>
    rw [readResponseFrom_line data found] at reads
    simp only [responseAfter, stripped, refused, reduceCtorEq] at reads
  | case3 data reader line middle found _ escaped stripped longer appended inductionHypothesis =>
    obtain ⟨raw, content, single, short, split⟩ := readBoundedLine_split found
    obtain rfl := (strip_eq_some _ _ _).mp stripped
    obtain ⟨part, spelled, rfl, fits⟩ := spells_of_append within appended
    rw [readResponseFrom_data found appended] at reads
    obtain ⟨text, more, response, rfl, bounded, rest⟩ := inductionHypothesis fits reads
    refine ⟨raw ++ 10 :: text, part ++ more, .data ⟨single, short, content⟩ spelled response, ?_, bounded, ?_⟩
    · rw [List.append_assoc]
    · rw [split, rest, List.append_assoc, List.cons_append]
  | case4 data reader line middle found _ plain known inductionHypothesis =>
    obtain ⟨raw, content, single, short, split⟩ := readBoundedLine_split found
    rw [strip_isSome] at known
    rw [readResponseFrom_aside data found known] at reads
    obtain ⟨text, more, response, rfl, bounded, rest⟩ := inductionHypothesis within reads
    refine ⟨raw ++ 10 :: text, more, .aside ⟨single, short, content⟩ known response, rfl, bounded, ?_⟩
    rw [split, rest, List.append_assoc, List.cons_append]
  | case5 data reader line middle found _ plain other known =>
    obtain ⟨raw, content, single, short, split⟩ := readBoundedLine_split found
    rw [strip_isSome] at known
    rw [readResponseFrom_ok data found known] at reads
    cases reads
    refine ⟨raw ++ [10], [], .ok ⟨single, short, content⟩ known, (List.append_nil _).symm, within, ?_⟩
    rw [split, List.append_assoc, List.singleton_append]
  | case6 data reader line middle found _ plain other unknown cancelled =>
    rw [readResponseFrom_line data found] at reads
    simp only [responseAfter, plain, if_neg other, if_neg unknown, if_pos cancelled, reduceCtorEq] at reads
  | case7 data reader line middle found _ plain other unknown valid =>
    rw [readResponseFrom_line data found] at reads
    simp only [responseAfter, plain, if_neg other, if_neg unknown, if_neg valid, reduceCtorEq] at reads

/-- A response is accepted with its data, and nothing behind it is taken. -/
theorem reads_of_response {text more : Bytes} (response : Response text more) {data rest : Bytes} {reader : Buffered}
    (fits : data.length + more.length ≤ maxPinBytes) (split : reader.bytes = text ++ rest) :
    ∃ after, readResponseFrom data reader = .ok (data ++ more, after) ∧ after.bytes = rest := by
  induction response generalizing data reader with
  | ok line known =>
    rw [List.append_assoc, List.singleton_append] at split
    obtain ⟨after, reads, left⟩ := readBoundedLine_line line split
    exact ⟨after, by rw [readResponseFrom_ok data reads known, List.append_nil], left⟩
  | aside line known later inductionHypothesis =>
    rw [List.append_assoc, List.cons_append] at split
    obtain ⟨middle, reads, left⟩ := readBoundedLine_line line split
    obtain ⟨after, continues, ends⟩ := inductionHypothesis fits left
    exact ⟨after, by rw [readResponseFrom_aside data reads known, continues], ends⟩
  | @data raw escaped part others later line spelled _ inductionHypothesis =>
    rw [List.append_assoc, List.cons_append] at split
    rw [List.length_append] at fits
    obtain ⟨middle, reads, left⟩ := readBoundedLine_line line split
    have appended := append_of_spells spelled data (by omega)
    have room : (data ++ part).length + later.length ≤ maxPinBytes := by
      rw [List.length_append]
      omega
    obtain ⟨after, continues, ends⟩ := inductionHypothesis room left
    exact ⟨after, by rw [readResponseFrom_data reads appended, continues, List.append_assoc], ends⟩

/-- The reader is exact. It accepts a stream exactly when it begins with a response
whose data has at most 64 bytes; it then returns that data, byte for byte, and takes the
response and nothing else. Every other stream is refused. -/
theorem pinentry_response_exact (reader : Buffered) :
    (∀ data rest, (∃ after, readPinentryResponse reader = .ok (data, after) ∧ after.bytes = rest) ↔
      ∃ text, Response text data ∧ data.length ≤ 64 ∧ reader.bytes = text ++ rest) ∧
    ((¬ ∃ text data rest, Response text data ∧ data.length ≤ 64 ∧ reader.bytes = text ++ rest) →
      ∃ message, readPinentryResponse reader = .error message) := by
  have accepted {data : Bytes} {after : Buffered} (reads : readPinentryResponse reader = .ok (data, after)) :
      ∃ text, Response text data ∧ data.length ≤ 64 ∧ reader.bytes = text ++ after.bytes := by
    obtain ⟨text, more, response, rfl, bounded, split⟩ := response_of_reads (Nat.zero_le _) reads
    exact ⟨text, response, bounded, split⟩
  constructor
  · intro data rest
    constructor
    · rintro ⟨after, reads, rfl⟩
      exact accepted reads
    · rintro ⟨text, response, bounded, split⟩
      have fits : ([] : Bytes).length + data.length ≤ maxPinBytes := by
        rw [List.length_nil, Nat.zero_add]
        exact bounded
      exact reads_of_response response fits split
  · intro nothing
    cases reads : readPinentryResponse reader with
    | error message => exact ⟨message, rfl⟩
    | ok result =>
      obtain ⟨data, after⟩ := result
      obtain ⟨text, response, bounded, split⟩ := accepted reads
      exact absurd ⟨text, data, after.bytes, response, bounded, split⟩ nothing

/-! ## Commands -/

/-- `u8::is_ascii_alphanumeric`. -/
def isAsciiAlphanumeric (byte : UInt8) : Bool :=
  (48 ≤ byte && byte ≤ 57) || (65 ≤ byte && byte ≤ 90) || (97 ≤ byte && byte ≤ 122)

/-- The bytes that are sent as they are: besides letters and digits, the space and
`.`, `,`, `:`, `-` and `_`. -/
def isPlain (byte : UInt8) : Bool := isAsciiAlphanumeric byte || [32, 46, 44, 58, 45, 95].contains byte

/-- `assuan_escape`. -/
def assuanEscape (value : String) : Bytes := escape isPlain (utf8 value)

/-- What the tool asks of the dialog's process. A response is read as the grammar says. -/
inductive Operation where
  | spawn
  | write (bytes : Bytes)
  | flush
  | readResponse
  | kill
  | wait
  deriving DecidableEq, Repr

/-- The process ends with success or not. -/
def Answer : Operation → Type
  | .spawn => Except IoError Unit
  | .write _ => Except IoError Unit
  | .flush => Except IoError Unit
  | .readResponse => Except String Bytes
  | .kill => Unit
  | .wait => Except IoError Bool

abbrev Action := Program Operation Answer

abbrev Routine (ε : Type) := ExceptT ε Action

/-- `writeln!` and `flush`, with one report for both. -/
def writeLine (report : IoError → String) (text : Bytes) : Routine String Unit := do
  demand report (Program.call (Operation.write (text ++ [10])))
  demand report (Program.call Operation.flush)

/-- The response to the request for a PIN. -/
def readResponse : Routine String Bytes :=
  demand (fun message : String => message) (Program.call Operation.readResponse)

/-- Everything but the PIN itself is answered without data. -/
def checkEmpty (message : String) (data : Bytes) : Except String Unit :=
  if data.isEmpty then .ok () else .error message

/-- `expect_pinentry_ok`. -/
def expectPinentryOk : Routine String Unit := do
  let data ← readResponse
  checkEmpty "GNOME PIN dialog returned an invalid greeting" data

/-- `send_pinentry_command`. -/
def sendPinentryCommand (command : Bytes) : Routine String Unit := do
  writeLine (fun error => "cannot configure the GNOME PIN dialog: " ++ error.text) command
  let data ← readResponse
  checkEmpty "GNOME PIN dialog returned unexpected data" data

/-- The commands in order, each acknowledged. -/
def sendPinentryCommands : List Bytes → Routine String Unit
  | [] => pure ()
  | command :: rest => do
    sendPinentryCommand command
    sendPinentryCommands rest

/-- The commands that set up the dialog. -/
def configuration (description : String) (repeatPrompt : Option String) : List Bytes :=
  [utf8 "SETTIMEOUT 120",
    utf8 "SETTITLE " ++ assuanEscape "Keyvisor TPM Authorization",
    utf8 "SETDESC " ++ assuanEscape description,
    utf8 "SETPROMPT " ++ assuanEscape "TPM PIN:",
    utf8 "SETOK " ++ assuanEscape (if repeatPrompt.isSome then "Create" else "Authorize"),
    utf8 "SETCANCEL " ++ assuanEscape "Cancel"] ++
  repeatPrompt.toList.map fun prompt => utf8 "SETREPEAT " ++ assuanEscape prompt

/-- The conversation with the dialog. -/
def converse (description : String) (repeatPrompt : Option String) : Routine String Bytes := do
  expectPinentryOk
  sendPinentryCommands (configuration description repeatPrompt)
  writeLine (fun error => "cannot request the GNOME PIN dialog: " ++ error.text) (utf8 "GETPIN")
  readResponse

/-- A dialog that failed is killed. -/
def killFailed (result : Except String Bytes) : Routine String Unit :=
  if result.isOk then pure () else liftM (Program.call Operation.kill : Action Unit)

/-- The dialog program has to exit successfully. -/
def checkSuccess (success : Bool) : Except String Unit :=
  if success then .ok () else .error "GNOME PIN entry was cancelled"

/-- In any case the dialog is waited for. Its failure is reported before that of the
process, and both before the length of the PIN is. -/
def readSecretFromPinentry (description : String) (repeatPrompt : Option String) : Routine String Bytes := do
  demand (fun error : IoError => "cannot start GNOME PIN dialog: " ++ error.text) (Program.call Operation.spawn)
  let result ← (liftM (converse description repeatPrompt).run : Routine String (Except String Bytes))
  killFailed result
  let success ← demand (fun error : IoError => "cannot wait for the GNOME PIN dialog: " ++ error.text)
    (Program.call Operation.wait)
  let pin ← result
  checkSuccess success
  validatePin pin "PIN"

/-! ## What is sent -/

/-- An escaped text is formed of plain bytes and escapes. -/
theorem formed_assuanEscape (value : String) : Formed isPlain (assuanEscape value) := formed_escape _

/-- An escaped text spells the text. -/
theorem spells_assuanEscape (value : String) : Spells (assuanEscape value) (utf8 value) :=
  spells_escape (by decide) _

/-- Without line breaks. -/
def Unbroken (text : Bytes) : Prop := 10 ∉ text ∧ 13 ∉ text

instance (text : Bytes) : Decidable (Unbroken text) := inferInstanceAs (Decidable (_ ∧ _))

/-- Unbroken parts make an unbroken whole. -/
theorem Unbroken.append {first second : Bytes} (left : Unbroken first) (right : Unbroken second) :
    Unbroken (first ++ second) := by
  simp only [Unbroken, List.mem_append, not_or]
  exact ⟨⟨left.1, right.1⟩, ⟨left.2, right.2⟩⟩

/-- An escaped text is unbroken, because no line break is kept and none is a digit. -/
theorem unbroken_assuanEscape (value : String) : Unbroken (assuanEscape value) := by
  have members := (formed_assuanEscape value).mem
  constructor
  · intro newline
    exact absurd (members 10 newline) (by decide)
  · intro carriage
    exact absurd (members 13 carriage) (by decide)

/-- Every setting of the dialog is unbroken. -/
theorem unbroken_configuration (description : String) (repeatPrompt : Option String) :
    ∀ command ∈ configuration description repeatPrompt, Unbroken command := by
  have escaped (word : Bytes) (value : String) (plain : Unbroken word) : Unbroken (word ++ assuanEscape value) :=
    plain.append (unbroken_assuanEscape value)
  intro command member
  rcases List.mem_append.mp member with fixed | repeated
  · simp only [List.mem_cons, List.not_mem_nil, or_false] at fixed
    rcases fixed with rfl | rfl | rfl | rfl | rfl | rfl
    · decide +kernel
    all_goals
      apply escaped
      decide +kernel
  · obtain ⟨prompt, _, rfl⟩ := List.mem_map.mp repeated
    apply escaped
    decide +kernel

/-- Only whole lines are written. -/
def SingleLine : Operation → Prop
  | .write bytes => ∃ command, bytes = command ++ [10] ∧ Unbroken command
  | _ => True

/-- An unbroken text is written as one line. -/
theorem singleLine_writeLine (report : IoError → String) {text : Bytes} (unbroken : Unbroken text) :
    (writeLine report text).run.Issues SingleLine := by
  apply Program.Issues.routine
  · exact Program.issues_adapt _ (Program.issues_call ⟨text, rfl, unbroken⟩)
  · exact fun _ => Program.issues_adapt _ (Program.issues_call trivial)

/-- Reading a response writes nothing. -/
theorem singleLine_readResponse : readResponse.run.Issues SingleLine :=
  Program.issues_adapt _ (Program.issues_call trivial)

/-- Unbroken commands are written as one line each. -/
theorem singleLine_sendPinentryCommands {commands : List Bytes} (unbroken : ∀ command ∈ commands, Unbroken command) :
    (sendPinentryCommands commands).run.Issues SingleLine := by
  induction commands with
  | nil => exact trivial
  | cons command rest inductionHypothesis =>
    have sends : (sendPinentryCommand command).run.Issues SingleLine :=
      (singleLine_writeLine _ (unbroken command List.mem_cons_self)).routine fun _ =>
      singleLine_readResponse.routine fun _ => Program.issues_check _ _
    exact sends.routine fun _ => inductionHypothesis fun other member => unbroken other (List.mem_cons_of_mem _ member)

/-- A conversation writes one line for each command. -/
theorem singleLine_converse (description : String) (repeatPrompt : Option String) :
    (converse description repeatPrompt).run.Issues SingleLine := by
  have greets : expectPinentryOk.run.Issues SingleLine :=
    singleLine_readResponse.routine fun _ => Program.issues_check _ _
  have configures := singleLine_sendPinentryCommands (unbroken_configuration description repeatPrompt)
  have request : Unbroken (utf8 "GETPIN") := by decide +kernel
  exact greets.routine fun _ => configures.routine fun _ =>
    (singleLine_writeLine _ request).routine fun _ => singleLine_readResponse

/-- Whatever the description holds and whatever the dialog answers, every command is a
line of its own. -/
theorem singleLine_readSecretFromPinentry (description : String) (repeatPrompt : Option String) :
    (readSecretFromPinentry description repeatPrompt).run.Issues SingleLine := by
  have spawns : (Program.call Operation.spawn : Action (Answer .spawn)).Issues SingleLine :=
    Program.issues_call trivial
  have waits : (Program.call Operation.wait : Action (Answer .wait)).Issues SingleLine := Program.issues_call trivial
  have kills (result : Except String Bytes) : (killFailed result).run.Issues SingleLine := by
    unfold killFailed
    split
    · exact trivial
    · exact Program.issues_observed (Program.issues_call trivial)
  apply (Program.issues_adapt _ spawns).routine
  intro _
  apply (Program.issues_observed (singleLine_converse description repeatPrompt)).routine
  intro result
  exact (kills result).routine fun _ => (Program.issues_adapt _ waits).routine fun success =>
    (Program.issues_check _ result).routine fun pin => (Program.issues_check _ (checkSuccess success)).routine fun _ =>
      Program.issues_check _ (validatePin pin "PIN")

/-- Escaping neither lets anything through nor loses anything. An escaped text consists of
plain bytes and escapes; every command of the dialog is one line whatever it mentions;
and reading an escaped text appends the text's own bytes if they fit, and fails if they
do not. -/
theorem assuan_escaping_is_safe :
    (∀ value, Formed isPlain (assuanEscape value)) ∧
    (∀ description repeatPrompt, (readSecretFromPinentry description repeatPrompt).run.Issues SingleLine) ∧
    (∀ (value : String) (output : Bytes), output.length ≤ 64 →
      (output.length + (utf8 value).length ≤ 64 →
        appendAssuanData (assuanEscape value) output = .ok (output ++ utf8 value)) ∧
      (64 < output.length + (utf8 value).length →
        ∃ message, appendAssuanData (assuanEscape value) output = .error message)) := by
  refine ⟨formed_assuanEscape, singleLine_readSecretFromPinentry, ?_⟩
  intro value output within
  have spelled := spells_assuanEscape value
  constructor
  · exact append_of_spells spelled output
  · intro large
    cases appended : appendAssuanData (assuanEscape value) output with
    | error message => exact ⟨message, rfl⟩
    | ok final =>
      obtain ⟨data, same, rfl, fits⟩ := spells_of_append within appended
      obtain rfl := same.unique spelled
      rw [List.length_append] at fits
      exact absurd fits (Nat.not_le.mpr large)

end Keyvisor.Pinentry
