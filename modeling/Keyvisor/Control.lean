import Keyvisor.Foundation.Monitor
import Keyvisor.Foundation.Stream
import Keyvisor.Foundation.Text
import Mathlib.Data.List.AList

/-!
# The control server

Executable translation of `serve_control_connection` and `read_control_line` in
`keyvisor-agent/src/main.rs`. A command is one line, read through a buffer, and
for an authorization the PIN bytes that follow it. Texts on this channel are kept
as their UTF-8 bytes, because the source compares and splits them bytewise.

Reading a command touches nothing but the client's own stream, so it is one
operation of the server, whose answer is what the stream spells. What follows is a
program over the table of pending authorizations and the channels in it.
-/

namespace Keyvisor.Control

open Foundation Foundation.Stream Foundation.Text
open Foundation.Program (demand)

def maxPinBytes : Nat := 64

def maxControlLineBytes : Nat := 16 * 1024

/-- The identifier of a pending request, as the bytes of its text. -/
abbrev RequestId := Bytes

/-- The process and the request's number within it, in hexadecimal. -/
def requestId (process : UInt32) (sequence : Nat) : RequestId :=
  shortHex 4 process.toNat ++ 45 :: paddedHex 8 sequence

/-- A value that an authorization may deliver. -/
structure Pin where
  bytes : Bytes
  long : 6 ≤ bytes.length
  short : bytes.length ≤ maxPinBytes
  deriving DecidableEq, Repr

/-- The commands of the control protocol. -/
inductive Command where
  | status
  | list
  | authorize (id : RequestId) (pin : Pin)
  deriving DecidableEq, Repr

/-- `control_io`. -/
def controlIo (error : IoError) : String := "control protocol I/O failed: " ++ error.text

/-! ## Reading a command -/

/-- The limit counts the newline. -/
def readControlLine (reader : Buffered) : Except String (Bytes × Buffered) :=
  match reader.readUntil 10 (maxControlLineBytes + 1) with
  | .error error => .error (controlIo error)
  | .ok (bytes, after) =>
    if bytes.getLast? ≠ some 10 ∨ maxControlLineBytes < bytes.length then .error "invalid control command"
    else if (fromUtf8 bytes.dropLast).isNone then .error "control command is not UTF-8"
    else .ok (bytes.dropLast, after)

/-- An authorization line: the request and the length of the value that follows. -/
structure Announcement where
  id : RequestId
  length : Nat
  admissible : 6 ≤ length ∧ length ≤ maxPinBytes
  deriving DecidableEq

/-- The fields of a line that starts with the authorization word. -/
def parseAuthorization (command : Bytes) : Except String Announcement :=
  match splitAsciiWhitespace command with
  | [] => .error "invalid authorization command"
  | word :: fields =>
    if word ≠ utf8 "AUTHORIZE" then .error "invalid authorization command"
    else
      match fields with
      | [] => .error "missing request identifier"
      | [_] => .error "missing PIN length"
      | id :: digits :: others =>
        match parseUnsigned (2 ^ 64) digits with
        | none => .error "invalid PIN length"
        | some length =>
          if admissible : others = [] ∧ 6 ≤ length ∧ length ≤ maxPinBytes then
            .ok ⟨id, length, admissible.2⟩
          else .error "invalid authorization command"

/-- The value of an announced length, without any decoding. -/
def readPin (announcement : Announcement) (reader : Buffered) : Except String Pin :=
  match reads : reader.readExact announcement.length with
  | .error error => .error ("cannot read authorization value: " ++ error.text)
  | .ok (bytes, _) => .ok ⟨bytes, by
      have exactly := length_fill Buffered.read _ reads
      exact exactly ▸ announcement.admissible.1, by
      have exactly := length_fill Buffered.read _ reads
      exact exactly ▸ announcement.admissible.2⟩

/-- What a client's stream asks for. -/
def readCommand (source : Source) : Except String Command :=
  match readControlLine (Buffered.new source) with
  | .error message => .error message
  | .ok (line, reader) =>
    if line = utf8 "STATUS" then .ok .status
    else if line = utf8 "LIST" then .ok .list
    else if (strip (utf8 "AUTHORIZE ") line).isSome then
      match parseAuthorization line with
      | .error message => .error message
      | .ok announcement =>
        match readPin announcement reader with
        | .error message => .error message
        | .ok pin => .ok (.authorize announcement.id pin)
    else .error "unknown control command"

/-! ## Serving a command -/

/-- A pending request: the key's name and the sending half of the channel on which
the request waits. Channels are numbered. -/
structure PendingAuthorization where
  keyName : String
  sender : Nat
  deriving DecidableEq, Repr

/-- What the server asks of its environment. -/
inductive Operation where
  | peercred
  | setReadTimeout
  | setWriteTimeout
  | readCommand
  | pending
  | remove (id : RequestId)
  | send (sender : Nat) (pin : Pin)
  | write (bytes : Bytes)
  deriving DecidableEq, Repr

/-- The peer is the agent's owner or not; the table is there unless it is poisoned;
a channel refuses a value when nobody can receive it any more. -/
def Answer : Operation → Type
  | .peercred => Except IoError Bool
  | .setReadTimeout => Except IoError Unit
  | .setWriteTimeout => Except IoError Unit
  | .readCommand => Except String Command
  | .pending => Except Unit (List (RequestId × String))
  | .remove _ => Except Unit (Option PendingAuthorization)
  | .send _ _ => Except Unit Unit
  | .write _ => Except IoError Unit

abbrev Action := Program Operation Answer

abbrev Routine (ε : Type) := ExceptT ε Action

/-- A line with its end. -/
def writeLine (text : Bytes) : Routine String Unit :=
  demand controlIo (Program.call (Operation.write (text ++ [10])))

/-- One line for each pending request. -/
def writeRequests : List (RequestId × String) → Routine String Unit
  | [] => pure ()
  | (id, keyName) :: rest => do
    writeLine (id ++ 9 :: hex (utf8 keyName))
    writeRequests rest

/-- The error of a table that cannot be locked. -/
def unavailable : Unit → String := fun _ => "authorization state is unavailable"

/-- A request that is not there any more. -/
def notPending (request : Option PendingAuthorization) : Except String PendingAuthorization :=
  match request with
  | some request => .ok request
  | none => .error "authorization request is not pending"

/-- The reply to a command. -/
def serveCommand : Command → Routine String Unit
  | .status => writeLine (utf8 "OK running")
  | .list => do
    let pending ← demand unavailable (Program.call Operation.pending)
    writeLine (utf8 "OK KEYVISOR-PENDING-1 " ++ decimal pending.length)
    writeRequests pending
  | .authorize id pin => do
    let removed ← demand unavailable (Program.call (Operation.remove id))
    let request ← notPending removed
    demand (fun _ : Unit => "authorization request is no longer active")
      (Program.call (Operation.send request.sender pin))
    writeLine (utf8 "OK authorized")

/-- Only the owner of the agent is served. -/
def checkOwner (owner : Bool) : Except String Unit :=
  if owner then .ok () else .error "control peer is not the agent owner"

/-- `serve_control_connection`. -/
def serveControlConnection : Routine String Unit := do
  let owner ← demand (fun error : IoError => "cannot authenticate control peer: " ++ error.text)
    (Program.call Operation.peercred)
  checkOwner owner
  demand controlIo (Program.call Operation.setReadTimeout)
  demand controlIo (Program.call Operation.setWriteTimeout)
  let command ← demand (fun message : String => message) (Program.call Operation.readCommand)
  serveCommand command

/-- The worker reports an error to the client and ignores whether that succeeded. -/
def worker : Action Unit := do
  let result ← serveControlConnection.run
  match result with
  | .ok _ => return ()
  | .error message =>
    let _ ← (Program.call (Operation.write (utf8 "ERR " ++ utf8 message ++ [10])) : Action (Except IoError Unit))
    return ()

/-! ## Commands as they are spelled -/

/-- A text line within the limit is read without its newline. -/
theorem readControlLine_line (reader : Buffered) {line : Bytes} {text : String} {rest : Bytes}
    (split : reader.bytes = line ++ 10 :: rest) (spelled : line = utf8 text) (absent : 10 ∉ line)
    (short : line.length < maxControlLineBytes) :
    ∃ after, readControlLine reader = .ok (line, after) ∧ after.bytes = rest := by
  obtain ⟨after, reads, left, _⟩ :=
    reader.readUntil_line 10 (maxControlLineBytes + 1) split absent (by omega)
  refine ⟨after, ?_, left⟩
  simp only [readControlLine, reads, if_neg (Buffered.terminated short), List.dropLast_concat]
  simp [spelled]

/-- What is read as a line is the first line, and it is text within the limit. -/
theorem readControlLine_split {reader after : Buffered} {line : Bytes}
    (reads : readControlLine reader = .ok (line, after)) :
    reader.bytes = line ++ 10 :: after.bytes ∧ 10 ∉ line ∧ line.length < maxControlLineBytes ∧
      ∃ text, line = utf8 text := by
  unfold readControlLine at reads
  split at reads
  · cases reads
  · rename_i bytes final untilNewline
    split at reads
    · cases reads
    · rename_i complete
      obtain ⟨start, rfl, single, short, split⟩ := Buffered.readUntil_terminated untilNewline complete
      rw [List.dropLast_concat] at reads
      split at reads
      · cases reads
      · rename_i valid
        obtain ⟨text, decoded⟩ := Option.ne_none_iff_exists'.mp fun none => valid (Option.isNone_iff_eq_none.mpr none)
        cases reads
        exact ⟨split, single, short, text, (fromUtf8_eq_some _ _).mp decoded⟩

/-- The listing command is read as one, however it is delivered. -/
theorem readCommand_list (delivery : Delivery (utf8 "LIST" ++ [10])) :
    readCommand delivery.source = .ok .list := by
  have split : (Buffered.new delivery.source).bytes = utf8 "LIST" ++ 10 :: delivery.rest := by
    simp [delivery.starts]
  obtain ⟨after, reads, _⟩ := readControlLine_line _ split rfl (by decide) (by decide)
  have other : utf8 "LIST" ≠ utf8 "STATUS" := by decide
  simp only [readCommand, reads, if_neg other, ↓reduceIte]

/-- A short ASCII word. -/
structure Plain (word : Bytes) : Prop where
  nonempty : word ≠ []
  ascii : ∀ byte ∈ word, byte < 128
  solid : ∀ byte ∈ word, isAsciiWhitespace byte = false
  short : word.length ≤ 64

/-- A plain word has no blanks. -/
theorem Plain.not_mem {word : Bytes} (plain : Plain word) {blank : UInt8}
    (white : isAsciiWhitespace blank = true) : blank ∉ word := by
  intro member
  rw [plain.solid blank member] at white
  contradiction

/-- A hexadecimal digit is not a blank. -/
theorem hexDigit_solid {digit : UInt8} (member : digit ∈ hexDigits) : isAsciiWhitespace digit = false := by
  have listed : ∀ written ∈ hexDigits, isAsciiWhitespace written = false := by decide +kernel
  exact listed digit member

/-- Request identifiers are hexadecimal digits around a hyphen. -/
theorem plain_requestId (process : UInt32) (sequence : Nat) : Plain (requestId process sequence) := by
  have spelled : ∀ byte ∈ requestId process sequence, byte ∈ hexDigits ∨ byte = 45 := by
    intro byte member
    rcases List.mem_append.mp member with first | later
    · exact .inl (mem_hexDigits_of_mem_shortHex first)
    · rcases List.mem_cons.mp later with rfl | digit
      · exact .inr rfl
      · exact .inl (mem_hexDigits_of_mem_hex digit)
  constructor
  · simp [requestId]
  · intro byte member
    rcases spelled byte member with digit | rfl
    · exact (hexDigit_plain digit).1
    · decide
  · intro byte member
    rcases spelled byte member with digit | rfl
    · exact hexDigit_solid digit
    · decide
  · have bound := (length_shortHex 4 process.toNat).2
    simp only [requestId, paddedHex, List.length_append, List.length_cons, length_hex, BigEndian.length_encode]
    omega

/-- Decimal numbers below the limit on values are short words. -/
theorem plain_decimal {number : Nat} (bounded : number ≤ maxPinBytes) : Plain (decimal number) := by
  have digits : ∀ digit : UInt8, 48 ≤ digit ∧ digit ≤ 57 → digit < 128 ∧ isAsciiWhitespace digit = false :=
    forall_byte (by decide +kernel)
  refine ⟨decimal_ne_nil number, fun byte member => (digits byte (decimal_digit member)).1,
    fun byte member => (digits byte (decimal_digit member)).2, ?_⟩
  simp only [maxPinBytes] at bounded
  exact Nat.le_trans (length_decimal_le number 2 (by decide) (by omega)) (by decide)

/-- An authorization as it is spelled: the line and the value after it. -/
def authorization (id : RequestId) (pin : Bytes) : Bytes :=
  utf8 "AUTHORIZE " ++ (id ++ 32 :: decimal pin.length) ++ [10] ++ pin

/-- An authorization line has three fields, and the third is its length. -/
theorem parseAuthorization_eq_ok (line : Bytes) (announcement : Announcement) :
    parseAuthorization line = .ok announcement ↔
      ∃ digits, splitAsciiWhitespace line = [utf8 "AUTHORIZE", announcement.id, digits] ∧
        parseUnsigned (2 ^ 64) digits = some announcement.length := by
  constructor
  · intro accepted
    unfold parseAuthorization at accepted
    split at accepted
    · cases accepted
    · rename_i word fields split
      split at accepted
      · cases accepted
      · rename_i known
        obtain rfl := not_not.mp known
        split at accepted
        · cases accepted
        · cases accepted
        · rename_i id digits others
          split at accepted
          · cases accepted
          · rename_i length read
            split at accepted
            · rename_i admissible
              obtain ⟨rfl, _⟩ := admissible
              cases accepted
              exact ⟨digits, split, read⟩
            · cases accepted
  · rintro ⟨digits, split, read⟩
    obtain ⟨id, length, long, short⟩ := announcement
    simp only [parseAuthorization, split, read, ne_eq, not_true_eq_false, ↓reduceIte, long, short, and_self,
      ↓reduceDIte]

/-- The value is the bytes that follow, as many as were announced. -/
theorem readPin_eq_ok (announcement : Announcement) (reader : Buffered) (pin : Pin) :
    readPin announcement reader = .ok pin ↔
      pin.bytes.length = announcement.length ∧ pin.bytes <+: reader.bytes := by
  constructor
  · intro reads
    unfold readPin at reads
    split at reads
    · cases reads
    · rename_i bytes after exactly
      cases reads
      exact ⟨length_fill Buffered.read _ exactly, after.bytes, (Buffered.readExact_split exactly).symm⟩
  · rintro ⟨counted, rest, split⟩
    have enough : announcement.length ≤ reader.bytes.length := by
      rw [← split, List.length_append, counted]
      exact Nat.le_add_right _ _
    obtain ⟨after, fills, _, _⟩ := fill_enough (Buffered.delivers _) announcement.length reader rfl enough
    rw [← split, ← counted, List.take_left, counted] at fills
    unfold readPin
    split
    · rename_i failed
      rw [show reader.readExact announcement.length = _ from fills] at failed
      cases failed
    · rename_i bytes final exactly
      rw [show reader.readExact announcement.length = _ from fills] at exactly
      cases exactly
      rfl

/-- A written authorization line is parsed back. -/
theorem parseAuthorization_line {id : RequestId} (plain : Plain id) (pin : Pin) :
    parseAuthorization (utf8 "AUTHORIZE " ++ (id ++ 32 :: decimal pin.bytes.length)) =
      .ok ⟨id, pin.bytes.length, pin.long, pin.short⟩ := by
  have word : utf8 "AUTHORIZE " = utf8 "AUTHORIZE" ++ [32] := by decide
  have fields : splitAsciiWhitespace (utf8 "AUTHORIZE " ++ (id ++ 32 :: decimal pin.bytes.length)) =
      [utf8 "AUTHORIZE", id, decimal pin.bytes.length] := by
    rw [word, List.append_assoc]
    apply splitAsciiWhitespace_three
    intro part member
    have counted := plain_decimal pin.short
    simp only [List.mem_cons, List.not_mem_nil, or_false] at member
    rcases member with rfl | rfl | rfl
    · decide +kernel
    · exact ⟨plain.nonempty, plain.solid⟩
    · exact ⟨counted.nonempty, counted.solid⟩
  have within : pin.bytes.length < 2 ^ 64 := Nat.lt_of_le_of_lt pin.short (by decide)
  exact (parseAuthorization_eq_ok _ _).mpr ⟨_, fields, parseUnsigned_decimal _ _ within⟩

/-- The line of an authorization is short ASCII text and no other command. -/
theorem authorization_line {id : RequestId} (plain : Plain id) (pin : Pin) {line : Bytes}
    (spelled : line = utf8 "AUTHORIZE " ++ (id ++ 32 :: decimal pin.bytes.length)) :
    (∃ text, line = utf8 text) ∧ 10 ∉ line ∧ line.length < maxControlLineBytes ∧ line ≠ utf8 "STATUS" ∧
      line ≠ utf8 "LIST" ∧ (strip (utf8 "AUTHORIZE ") line).isSome := by
  subst spelled
  have counted := plain_decimal pin.short
  have ascii : ∀ byte ∈ utf8 "AUTHORIZE " ++ (id ++ 32 :: decimal pin.bytes.length), byte < 128 ∧ byte ≠ 10 := by
    have word : ∀ byte ∈ utf8 "AUTHORIZE ", byte < 128 ∧ byte ≠ 10 := by decide +kernel
    intro byte member
    rcases List.mem_append.mp member with first | later
    · exact word byte first
    · rcases List.mem_append.mp later with inside | further
      · exact ⟨plain.ascii byte inside, fun newline => plain.not_mem rfl (newline ▸ inside)⟩
      · rcases List.mem_cons.mp further with rfl | digit
        · decide
        · exact ⟨counted.ascii byte digit, fun newline => counted.not_mem rfl (newline ▸ digit)⟩
  have word : (utf8 "AUTHORIZE ").length = 10 := by decide
  have long : 10 ≤ (utf8 "AUTHORIZE " ++ (id ++ 32 :: decimal pin.bytes.length)).length := by
    simp only [List.length_append, word]
    omega
  refine ⟨ascii_is_text _ fun byte member => (ascii byte member).1, fun newline => (ascii 10 newline).2 rfl, ?_,
    fun same => absurd (same ▸ long) (by decide), fun same => absurd (same ▸ long) (by decide), ?_⟩
  · have idShort := plain.short
    have countShort := counted.short
    simp only [List.length_append, List.length_cons, word, maxControlLineBytes]
    omega
  · simp only [strip_append, Option.isSome_some]

/-- Whatever bytes the value has, an authorization is read as itself. -/
theorem readCommand_authorize {id : RequestId} (plain : Plain id) (pin : Pin)
    (delivery : Delivery (authorization id pin.bytes)) :
    readCommand delivery.source = .ok (.authorize id pin) := by
  let line := utf8 "AUTHORIZE " ++ (id ++ 32 :: decimal pin.bytes.length)
  obtain ⟨⟨text, spelled⟩, absent, short, notStatus, notList, begins⟩ :=
    authorization_line plain pin (show line = _ from rfl)
  have split : (Buffered.new delivery.source).bytes = line ++ 10 :: (pin.bytes ++ delivery.rest) := by
    simp [delivery.starts, authorization, line]
  obtain ⟨reader, reads, left⟩ := readControlLine_line _ split spelled absent short
  have filled : readPin ⟨id, pin.bytes.length, pin.long, pin.short⟩ reader = .ok pin :=
    (readPin_eq_ok _ _ _).mpr ⟨rfl, delivery.rest, left.symm⟩
  simp only [readCommand, reads, if_neg notStatus, if_neg notList, if_pos begins, line,
    parseAuthorization_line plain pin, filled]

/-! ## An undisturbed connection -/

/-- The pending requests; the order of the entries is the order of iteration. -/
abbrev Table := AList fun _ : RequestId => PendingAuthorization

/-- What an iteration over the table shows. -/
def shown (table : Table) : List (RequestId × String) :=
  table.entries.map fun entry => (entry.1, entry.2.keyName)

/-- An owner's connection while nothing else happens: what the client sends, the
table, the values sent to channels and what the client receives. -/
structure Session where
  input : Source
  table : Table
  delivered : List (Nat × Pin)
  output : Bytes

/-- What a session answers when nothing fails. -/
def answer : (operation : Operation) → Session → Answer operation × Session
  | .peercred, session => (.ok true, session)
  | .setReadTimeout, session => (.ok (), session)
  | .setWriteTimeout, session => (.ok (), session)
  | .readCommand, session => (readCommand session.input, session)
  | .pending, session => (.ok (shown session.table), session)
  | .remove id, session => (.ok (session.table.lookup id), { session with table := session.table.erase id })
  | .send sender pin, session => (.ok (), { session with delivered := session.delivered ++ [(sender, pin)] })
  | .write bytes, session => (.ok (), { session with output := session.output ++ bytes })

/-- The connection after the worker is done. -/
def served (session : Session) : Session := (worker.run answer session).2

/-- A line is written with its end. -/
theorem execute_writeLine (text : Bytes) (session : Session) :
    Program.execute answer (writeLine text) session =
      (.ok (), { session with output := session.output ++ (text ++ [10]) }) := rfl

/-- One line of a listing. -/
def requestLine (request : RequestId × String) : Bytes := request.1 ++ 9 :: hex (utf8 request.2)

/-- A listing: how many requests, and a line for each. -/
def listing (pending : List (RequestId × String)) : Bytes :=
  utf8 "OK KEYVISOR-PENDING-1 " ++ decimal pending.length ++ [10] ++
    pending.flatMap fun request => requestLine request ++ [10]

/-- The requests are written one line each. -/
theorem execute_writeRequests (pending : List (RequestId × String)) (session : Session) :
    Program.execute answer (writeRequests pending) session =
      (.ok (), { session with
        output := session.output ++ pending.flatMap fun request => requestLine request ++ [10] }) := by
  induction pending generalizing session with
  | nil => simp [writeRequests]
  | cons request rest inductionHypothesis =>
    obtain ⟨id, keyName⟩ := request
    simp only [writeRequests]
    rw [Program.execute_bind, execute_writeLine]
    simp only [inductionHypothesis, requestLine, List.flatMap_cons, List.append_assoc]

/-- The connection serves what its stream asks for, and reports an error. -/
theorem served_ok {session final : Session} {command : Command}
    (asked : readCommand session.input = .ok command)
    (serves : Program.execute answer (serveCommand command) session = (.ok (), final)) :
    served session = final := by
  have reads : Program.execute answer
      (demand (fun message : String => message) (Program.call Operation.readCommand) : Routine String Command)
      session = (.ok command, session) := by
    show ((readCommand session.input).mapError (fun message => message), session) = _
    rw [asked]
    rfl
  have connection : Program.execute answer serveControlConnection session = (.ok (), final) := by
    show Program.execute answer (do
        let command ← demand (fun message : String => message) (Program.call Operation.readCommand)
        serveCommand command : Routine String Unit) session = _
    rw [Program.execute_bind, reads]
    exact serves
  show ((serveControlConnection.run >>= _ : Action Unit).run answer session).2 = _
  rw [Program.run_bind, show serveControlConnection.run.run answer session = _ from connection]
  rfl

/-- The answer to a listing command. -/
theorem served_list {session : Session} (asked : readCommand session.input = .ok .list) :
    served session = { session with output := session.output ++ listing (shown session.table) } := by
  apply served_ok asked
  show Program.execute answer (do
      writeLine (utf8 "OK KEYVISOR-PENDING-1 " ++ decimal (shown session.table).length)
      writeRequests (shown session.table) : Routine String Unit) session = _
  rw [Program.execute_bind, execute_writeLine]
  simp only [execute_writeRequests, listing, List.append_assoc]

/-- An authorization of a pending request takes it from the table and sends it the value. -/
theorem served_authorize {session : Session} {id : RequestId} {pin : Pin} {request : PendingAuthorization}
    (asked : readCommand session.input = .ok (.authorize id pin))
    (pending : session.table.lookup id = some request) :
    served session = ⟨session.input, session.table.erase id, session.delivered ++ [(request.sender, pin)],
      session.output ++ (utf8 "OK authorized" ++ [10])⟩ := by
  apply served_ok asked
  show Program.execute answer (do
      let request ← notPending (session.table.lookup id)
      demand (fun _ : Unit => "authorization request is no longer active")
        (Program.call (Operation.send request.sender pin))
      writeLine (utf8 "OK authorized") : Routine String Unit)
    { session with table := session.table.erase id } = _
  rw [pending]
  rfl

/-! ## The order of operations -/

/-- The reply that confirms an authorization. -/
def okAuthorized : Bytes := utf8 "OK authorized" ++ [10]

/-- An error reply, whatever its text. -/
def refusal (bytes : Bytes) : Bool := bytes.take 4 == utf8 "ERR "

/-- How far a connection has come with an authorization. -/
inductive Phase where
  | opening
  | commanded (id : RequestId) (pin : Pin)
  | holding (id : RequestId) (pin : Pin) (sender : Nat)
  | delivered (id : RequestId) (pin : Pin) (sender : Nat)
  | confirmed (id : RequestId) (pin : Pin) (sender : Nat)
  | failed (id : RequestId) (pin : Pin)
  | reported (id : RequestId) (pin : Pin)
  | other
  deriving DecidableEq, Repr

/-- Nothing is left to do for the client. -/
def Phase.closed : Phase → Bool
  | confirmed _ _ _ => true
  | reported _ _ => true
  | other => true
  | _ => false

/-- An error may be reported. -/
def Phase.reportable : Phase → Bool
  | opening => true
  | confirmed _ _ _ => true
  | failed _ _ => true
  | other => true
  | _ => false

/-- Only the entry under the command's own identifier is removed, once, and only the
command's own value is sent, once, to the call of that entry. Success is reported
after the value was sent and never otherwise. -/
def advance (phase : Phase) : Program.Exchange Operation Answer → Option Phase
  | ⟨.readCommand, answer⟩ =>
    match phase, (answer : Except String Command) with
    | .opening, .ok (.authorize id pin) => some (.commanded id pin)
    | .opening, _ => some .other
    | _, _ => none
  | ⟨.remove id, answer⟩ =>
    match phase, (answer : Except Unit (Option PendingAuthorization)) with
    | .commanded named pin, .ok (some request) =>
      if id = named then some (.holding named pin request.sender) else none
    | .commanded named pin, _ => if id = named then some (.failed named pin) else none
    | _, _ => none
  | ⟨.send sender value, answer⟩ =>
    match phase, (answer : Except Unit Unit) with
    | .holding id pin held, .ok _ =>
      if sender = held ∧ value = pin then some (.delivered id pin held) else none
    | .holding id pin held, .error _ => if sender = held ∧ value = pin then some (.failed id pin) else none
    | _, _ => none
  | ⟨.write bytes, _⟩ =>
    match phase with
    | .delivered id pin sender => if bytes = okAuthorized then some (.confirmed id pin sender) else none
    | .confirmed id pin sender => if refusal bytes then some (.confirmed id pin sender) else none
    | .failed id pin => if refusal bytes then some (.reported id pin) else none
    | .opening => some .other
    | .other => some .other
    | _ => none
  | ⟨.pending, _⟩ => if phase = .other then some .other else none
  | _ => if phase = .opening then some .opening else none

/-- A removal is under the command's own identifier. -/
theorem advance_remove {named id : RequestId} {pin : Pin} {removed : Option PendingAuthorization} {reached : Phase}
    (advanced : advance (.commanded named pin)
      ⟨.remove id, (.ok removed : Except Unit (Option PendingAuthorization))⟩ = some reached) :
    id = named ∧ reached = removed.elim (.failed named pin) fun request => .holding named pin request.sender := by
  cases removed with
  | none =>
    simp only [advance] at advanced
    split at advanced
    · rename_i same
      cases advanced
      exact ⟨same, rfl⟩
    · cases advanced
  | some request =>
    simp only [advance] at advanced
    split at advanced
    · rename_i same
      cases advanced
      exact ⟨same, rfl⟩
    · cases advanced

/-- A value that is sent is the command's own and goes to the call it holds. -/
theorem advance_send {id : RequestId} {pin value : Pin} {held sender : Nat} {outcome : Except Unit Unit}
    {reached : Phase}
    (advanced : advance (.holding id pin held) ⟨.send sender value, outcome⟩ = some reached) :
    sender = held ∧ value = pin ∧
      reached = if outcome.isOk then .delivered id pin held else .failed id pin := by
  cases outcome with
  | ok _ =>
    simp only [advance] at advanced
    split at advanced
    · rename_i same
      cases advanced
      exact ⟨same.1, same.2, rfl⟩
    · cases advanced
  | error _ =>
    simp only [advance] at advanced
    split at advanced
    · rename_i same
      cases advanced
      exact ⟨same.1, same.2, rfl⟩
    · cases advanced

/-- Where a served connection may stand. -/
def Served (phase : Phase) : Except String Unit → Prop
  | .ok _ => phase.closed
  | .error _ => phase.reportable

/-- A line that the phase permits is written, and a failure to do so is served too. -/
theorem writeLine_complies {phase : Phase} (reached : Phase) {text : Bytes}
    (advances : ∀ answer, advance phase ⟨.write (text ++ [10]), answer⟩ = some reached)
    (closed : reached.closed) (reportable : reached.reportable) :
    Program.Complies advance phase (writeLine text).run Served := by
  refine Program.complies_demand (Program.complies_call fun answer => ⟨reached, advances answer, ?_⟩)
  cases (answer : Except IoError Unit) with
  | ok _ => exact closed
  | error _ => exact reportable

/-- The lines of a listing are written in a phase that knows of no command. -/
theorem writeRequests_complies (pending : List (RequestId × String)) :
    Program.Complies advance .other (writeRequests pending).run Served := by
  induction pending with
  | nil => exact rfl
  | cons request rest inductionHypothesis =>
    refine Program.Complies.routine (Program.complies_demand (Program.complies_call fun answer => ⟨.other, rfl, ?_⟩))
    cases (answer : Except IoError Unit) with
    | ok _ => exact inductionHypothesis
    | error _ => exact rfl

/-- An authorization is served in the order of the phases. -/
theorem serveAuthorization_complies (id : RequestId) (pin : Pin) :
    Program.Complies advance (.commanded id pin) (serveCommand (.authorize id pin)).run Served := by
  refine Program.Complies.routine (Program.complies_demand (Program.complies_call fun answer => ?_))
  rcases (answer : Except Unit (Option PendingAuthorization)) with _ | _ | request
  · exact ⟨.failed id pin, by simp [advance], rfl⟩
  · exact ⟨.failed id pin, by simp [advance], rfl⟩
  · refine ⟨.holding id pin request.sender, by simp [advance], ?_⟩
    refine Program.Complies.routine (Program.complies_check (Program.continues_ok ?_))
    refine Program.Complies.routine (Program.complies_demand (Program.complies_call fun answer => ?_))
    cases (answer : Except Unit Unit) with
    | error _ => exact ⟨.failed id pin, by simp [advance], rfl⟩
    | ok _ =>
      refine ⟨.delivered id pin request.sender, by simp [advance], Program.continues_ok ?_⟩
      exact writeLine_complies (.confirmed id pin request.sender)
        (fun answer => by simp [advance, okAuthorized]) rfl rfl

/-- A whole connection is served in the order of the phases. -/
theorem serveControlConnection_complies :
    Program.Complies advance .opening serveControlConnection.run Served := by
  refine Program.Complies.routine (Program.complies_demand (Program.complies_call fun answer => ⟨.opening, rfl, ?_⟩))
  rcases (answer : Except IoError Bool) with _ | _ | _
  · exact rfl
  · exact rfl
  refine Program.Complies.routine (Program.complies_check (Program.continues_ok ?_))
  refine Program.Complies.routine (Program.complies_demand (Program.complies_call fun answer => ⟨.opening, rfl, ?_⟩))
  rcases (answer : Except IoError Unit) with _ | _
  · exact rfl
  refine Program.continues_ok (Program.Complies.routine
    (Program.complies_demand (Program.complies_call fun answer => ⟨.opening, rfl, ?_⟩)))
  rcases (answer : Except IoError Unit) with _ | _
  · exact rfl
  refine Program.continues_ok (Program.Complies.routine
    (Program.complies_demand (Program.complies_call fun answer => ?_)))
  rcases (answer : Except String Command) with _ | _ | _ | ⟨id, pin⟩
  · exact ⟨.other, rfl, rfl⟩
  · exact ⟨.other, rfl, Program.continues_ok (writeLine_complies .other (fun _ => rfl) rfl rfl)⟩
  · refine ⟨.other, rfl, Program.continues_ok (Program.Complies.routine
      (Program.complies_demand (Program.complies_call fun answer => ⟨.other, rfl, ?_⟩)))⟩
    rcases (answer : Except Unit (List (RequestId × String))) with _ | pending
    · exact rfl
    refine Program.continues_ok (Program.Complies.routine
      (Program.complies_demand (Program.complies_call fun answer => ⟨.other, rfl, ?_⟩)))
    rcases (answer : Except IoError Unit) with _ | _
    · exact rfl
    exact Program.continues_ok (writeRequests_complies pending)
  · exact ⟨.commanded id pin, rfl, Program.continues_ok (serveAuthorization_complies id pin)⟩

/-- Every connection keeps this order, whatever its environment answers, and ends
with a reply. -/
theorem worker_complies : Program.Complies advance .opening worker fun phase _ => phase.closed := by
  refine Program.Complies.bind (serveControlConnection_complies.weaken ?_)
  intro phase result serves
  cases result with
  | ok _ => exact serves
  | error message =>
    have reports : refusal (utf8 "ERR " ++ utf8 message ++ [10]) := by simp [refusal]; rfl
    intro answer
    cases phase with
    | opening => exact ⟨.other, rfl, rfl⟩
    | confirmed id pin sender => exact ⟨.confirmed id pin sender, by simp only [advance, reports, ↓reduceIte], rfl⟩
    | failed id pin => exact ⟨.reported id pin, by simp only [advance, reports, ↓reduceIte], rfl⟩
    | other => exact ⟨.other, rfl, rfl⟩
    | commanded id pin => cases serves
    | holding id pin sender => cases serves
    | delivered id pin sender => cases serves
    | reported id pin => cases serves

/-! ## What a connection has done -/

/-- The authorization that a connection is about. -/
def Phase.command : Phase → Option (RequestId × Pin)
  | commanded id pin => some (id, pin)
  | holding id pin _ => some (id, pin)
  | delivered id pin _ => some (id, pin)
  | confirmed id pin _ => some (id, pin)
  | failed id pin => some (id, pin)
  | reported id pin => some (id, pin)
  | _ => none

/-- The channel and the value that was sent to it. -/
def Phase.sent : Phase → Option (Nat × Pin)
  | delivered _ pin sender => some (sender, pin)
  | confirmed _ pin sender => some (sender, pin)
  | _ => none

/-- Success was reported. -/
def Phase.confirms : Phase → Bool
  | confirmed _ _ _ => true
  | _ => false

/-- The authorization that was read. -/
def commandRead : Program.Exchange Operation Answer → Option (RequestId × Pin)
  | ⟨.readCommand, answer⟩ =>
    match (answer : Except String Command) with
    | .ok (.authorize id pin) => some (id, pin)
    | _ => none
  | _ => none

/-- The value that was sent and not refused. -/
def valueSent : Program.Exchange Operation Answer → Option (Nat × Pin)
  | ⟨.send sender pin, answer⟩ =>
    match (answer : Except Unit Unit) with
    | .ok _ => some (sender, pin)
    | .error _ => none
  | _ => none

/-- What was written to the client, whether or not that succeeded. -/
def reply : Operation → Option Bytes
  | .write bytes => some bytes
  | _ => none

section

variable (transcript : List (Program.Exchange Operation Answer))

/-- The authorizations that were read. -/
def commandsRead : List (RequestId × Pin) := transcript.filterMap commandRead

/-- The values that were sent and not refused. -/
def valuesSent : List (Nat × Pin) := transcript.filterMap valueSent

/-- Everything that was written to the client. -/
def replies : List Bytes := transcript.filterMap fun exchange => reply exchange.1

/-- The command, the delivery and the replies of a transcript, by phase. -/
structure Accounts (phase : Phase) : Prop where
  commanded : commandsRead transcript = phase.command.toList
  sent : valuesSent transcript = phase.sent.toList
  replied : phase ≠ .other → okAuthorized ∈ replies transcript → phase.confirms
  refused : ∀ id pin, phase = .reported id pin → ∃ bytes ∈ replies transcript, refusal bytes

/-- The command of one more exchange comes last. -/
theorem commandsRead_concat (exchange : Program.Exchange Operation Answer) :
    commandsRead (transcript ++ [exchange]) = commandsRead transcript ++ (commandRead exchange).toList := by
  cases found : commandRead exchange <;> simp [commandsRead, found]

/-- The value of one more exchange comes last. -/
theorem valuesSent_concat (exchange : Program.Exchange Operation Answer) :
    valuesSent (transcript ++ [exchange]) = valuesSent transcript ++ (valueSent exchange).toList := by
  cases found : valueSent exchange <;> simp [valuesSent, found]

/-- The reply of one more exchange comes last. -/
theorem replies_concat (exchange : Program.Exchange Operation Answer) :
    replies (transcript ++ [exchange]) = replies transcript ++ (reply exchange.1).toList := by
  cases found : reply exchange.1 <;> simp [replies, found]

end

section

variable {transcript : List (Program.Exchange Operation Answer)} {phase next : Phase}
  {exchange : Program.Exchange Operation Answer}

/-- The account of one more exchange. -/
theorem Accounts.concat (accounts : Accounts transcript phase)
    (commanded : phase.command.toList ++ (commandRead exchange).toList = next.command.toList)
    (sent : phase.sent.toList ++ (valueSent exchange).toList = next.sent.toList)
    (replied : next ≠ .other → phase ≠ .other ∧ (phase.confirms → next.confirms) ∧
      (reply exchange.1 = some okAuthorized → next.confirms))
    (refused : ∀ id pin, next = .reported id pin → ∃ bytes, reply exchange.1 = some bytes ∧ refusal bytes) :
    Accounts (transcript ++ [exchange]) next := by
  constructor
  · rw [commandsRead_concat, accounts.commanded, commanded]
  · rw [valuesSent_concat, accounts.sent, sent]
  · intro known confirmed
    obtain ⟨earlier, keeps, tells⟩ := replied known
    rw [replies_concat, List.mem_append] at confirmed
    rcases confirmed with heard | now
    · exact keeps (accounts.replied earlier heard)
    · exact tells (by simpa using now)
  · intro id pin reported
    obtain ⟨bytes, written, refuses⟩ := refused id pin reported
    refine ⟨bytes, ?_, refuses⟩
    rw [replies_concat, written]
    simp

/-- An error reply is not the confirmation. -/
theorem not_refusal_okAuthorized : refusal okAuthorized = false := by decide

/-- A command is read first, and it is the connection's only one. -/
theorem Accounts.readCommand (accounts : Accounts transcript phase) {answer : Answer .readCommand}
    (advanced : advance phase ⟨.readCommand, answer⟩ = some next) :
    Accounts (transcript ++ [⟨.readCommand, answer⟩]) next := by
  cases phase with
  | opening =>
    rcases (answer : Except String Command) with _ | _ | _ | ⟨id, pin⟩
    all_goals
      cases advanced
      exact accounts.concat rfl rfl (fun _ => ⟨nofun, nofun, nofun⟩) nofun
  | _ => simp [advance] at advanced

/-- The commanded identifier is looked up, and nothing is sent by that. -/
theorem Accounts.remove (accounts : Accounts transcript phase) {id : RequestId} {answer : Answer (.remove id)}
    (advanced : advance phase ⟨.remove id, answer⟩ = some next) :
    Accounts (transcript ++ [⟨.remove id, answer⟩]) next := by
  cases phase with
  | commanded named pin =>
    rcases (answer : Except Unit (Option PendingAuthorization)) with _ | _ | request
    all_goals
      simp only [advance] at advanced
      split at advanced
      · cases advanced
        exact accounts.concat rfl rfl (fun _ => ⟨nofun, nofun, nofun⟩) nofun
      · cases advanced
  | _ => simp [advance] at advanced

/-- The commanded value is sent to the sender that was found, at most once. -/
theorem Accounts.send (accounts : Accounts transcript phase) {sender : Nat} {value : Pin}
    {answer : Answer (.send sender value)} (advanced : advance phase ⟨.send sender value, answer⟩ = some next) :
    Accounts (transcript ++ [⟨.send sender value, answer⟩]) next := by
  cases phase with
  | holding id pin held =>
    rcases (answer : Except Unit Unit) with _ | _
    all_goals
      simp only [advance] at advanced
      split at advanced
      · rename_i permitted
        obtain ⟨rfl, rfl⟩ := permitted
        cases advanced
        exact accounts.concat rfl rfl (fun _ => ⟨nofun, nofun, nofun⟩) nofun
      · cases advanced
  | _ => simp [advance] at advanced

/-- The reply to a command confirms a delivery and refuses a failure. -/
theorem Accounts.write (accounts : Accounts transcript phase) {bytes : Bytes} {answer : Answer (.write bytes)}
    (advanced : advance phase ⟨.write bytes, answer⟩ = some next) :
    Accounts (transcript ++ [⟨.write bytes, answer⟩]) next := by
  cases phase with
  | opening =>
    cases advanced
    exact accounts.concat rfl rfl (fun other => absurd rfl other) nofun
  | other =>
    cases advanced
    exact accounts.concat rfl rfl (fun other => absurd rfl other) nofun
  | delivered id pin sender =>
    simp only [advance] at advanced
    split at advanced
    · cases advanced
      exact accounts.concat rfl rfl (fun _ => ⟨nofun, fun _ => rfl, fun _ => rfl⟩) nofun
    · cases advanced
  | confirmed id pin sender =>
    simp only [advance] at advanced
    split at advanced
    · cases advanced
      exact accounts.concat rfl rfl (fun _ => ⟨nofun, fun _ => rfl, fun _ => rfl⟩) nofun
    · cases advanced
  | failed id pin =>
    simp only [advance] at advanced
    split at advanced
    · rename_i refuses
      cases advanced
      refine accounts.concat rfl rfl (fun _ => ⟨nofun, nofun, fun same => ?_⟩) fun _ _ _ => ⟨bytes, rfl, refuses⟩
      cases same
      rw [not_refusal_okAuthorized] at refuses
      cases refuses
    · cases advanced
  | _ => simp [advance] at advanced

/-- Every accepted exchange keeps the accounts. -/
theorem accounts_advance (accounts : Accounts transcript phase) (advanced : advance phase exchange = some next) :
    Accounts (transcript ++ [exchange]) next := by
  obtain ⟨operation, answer⟩ := exchange
  cases operation with
  | readCommand => exact accounts.readCommand advanced
  | remove id => exact accounts.remove advanced
  | send sender value => exact accounts.send advanced
  | write bytes => exact accounts.write advanced
  | pending =>
    simp only [advance] at advanced
    split at advanced
    · rename_i other
      subst other
      cases advanced
      exact accounts.concat rfl rfl (fun other => absurd rfl other) nofun
    · cases advanced
  | peercred | setReadTimeout | setWriteTimeout =>
    simp only [advance] at advanced
    split at advanced
    · rename_i opening
      subst opening
      cases advanced
      exact accounts.concat rfl rfl (fun _ => ⟨nofun, nofun, nofun⟩) nofun
    · cases advanced

/-- The accounts of every accepted transcript. -/
theorem accounts_of_accepts (accepted : Program.accepts advance .opening transcript = some phase) :
    Accounts transcript phase := by
  have begins : Accounts [] .opening := ⟨rfl, rfl, nofun, nofun⟩
  exact Program.accepts_invariant (fun phase transcript => Accounts transcript phase) begins
    (fun _ _ _ _ accounts advanced => accounts_advance accounts advanced) accepted

end

end Keyvisor.Control
