import Keyvisor.Control

/-!
# The control client

Executable translation of the command-line tool's half of the control protocol in
`keyvisor-cli/src/main.rs`: `fetch_authorization_requests`, `authorize_request`,
the line reader and the decoding of key names. The tool reads its socket byte by
byte; connecting, writing and asking for a PIN are operations of its environment.

The two processes agree: a listing is decoded to the pairs that the server showed,
and an authorization is read by the server with the same identifier and the same
bytes.
-/

namespace Keyvisor.ControlClient

open Foundation Foundation.Stream Foundation.Text Control
open Foundation.Program (demand)

def maxPendingAuthorizations : Nat := 16

/-- Where a PIN is asked for. -/
inductive SecretInput where
  | auto
  | terminal
  | pinentry
  | stdin
  deriving DecidableEq, Repr

/-- At most one way is named on a command line. -/
def setSecretInput (current requested : SecretInput) : Except String SecretInput :=
  if current ≠ .auto then .error "PIN input options are mutually exclusive" else .ok requested

/-- A PIN has a length that the TPM takes. -/
def validatePin (pin : Bytes) (label : String) : Except String Bytes :=
  if 6 ≤ pin.length ∧ pin.length ≤ maxPinBytes then .ok pin
  else .error (label ++ " must be between 6 and 64 bytes")

/-! ## Reading replies -/

/-- Bytes are collected while there is room for another one; the limit does not
count the newline. -/
def readLineFrom : Nat → Bytes → Source → Except String (Bytes × Source)
  | 0, _, _ => .error "agent returned an invalid control response"
  | room + 1, bytes, source =>
    match source.readExact 1 with
    | .error error => .error (controlIo error)
    | .ok (read, after) =>
      if read = [10] then
        if (fromUtf8 bytes).isNone then .error "agent returned non-UTF-8 control data" else .ok (bytes, after)
      else readLineFrom room (bytes ++ read) after

/-- `read_control_line` of the command line tool. -/
def readControlLine (source : Source) : Except String (Bytes × Source) :=
  readLineFrom (maxControlLineBytes + 1) [] source

/-- The text of a refusal. What follows the ASCII beginning of a text is text. -/
def controlError (line : Bytes) : String :=
  match strip (utf8 "ERR ") line with
  | some message => (fromUtf8 message).getD ""
  | none => "invalid response from agent"

/-- `hex_digit`. -/
def hexDigit (byte : UInt8) : Except String UInt8 :=
  match digitValue byte with
  | some value => .ok value
  | none => .error "invalid hexadecimal encoding"

/-- Two digits a byte, up to the first pair that is cut. -/
def decodePairs : Bytes → Except String Bytes
  | first :: second :: rest => do
    let high ← hexDigit first
    let low ← hexDigit second
    let bytes ← decodePairs rest
    return ((high <<< 4) ||| low) :: bytes
  | _ => .ok []

/-- `decode_hex_text`. -/
def decodeHexText (value : Bytes) : Except String String :=
  if value.length % 2 ≠ 0 then .error "agent returned invalid key-name encoding"
  else do
    let bytes ← decodePairs value
    match fromUtf8 bytes with
    | some text => .ok text
    | none => .error "agent returned an invalid key name"

/-! ## Requests -/

/-- What the tool asks of its environment. -/
inductive Operation where
  | connectControl
  | write (bytes : Bytes)
  | flush
  | readControlLine
  | readExistingPin (context : String) (input : SecretInput)
  | println (text : Bytes)
  deriving DecidableEq, Repr

/-- What is answered to each operation. -/
def Answer : Operation → Type
  | .connectControl => Except String Unit
  | .write _ => Except IoError Unit
  | .flush => Except IoError Unit
  | .readControlLine => Except String Bytes
  | .readExistingPin _ _ => Except String Bytes
  | .println _ => Unit

abbrev Action := Program Operation Answer

abbrev Routine (ε : Type) := ExceptT ε Action

/-- `connect_control`. -/
def connectControl : Routine String Unit :=
  demand (fun message : String => message) (Program.call Operation.connectControl)

/-- Bytes written to the connection. -/
def write (bytes : Bytes) : Routine String Unit :=
  demand controlIo (Program.call (Operation.write bytes))

/-- A reply line. -/
def readReply : Routine String Bytes :=
  demand (fun message : String => message) (Program.call Operation.readControlLine)

/-- The number of requests that a header announces, within the tool's own limit. -/
def parseHeader (header : Bytes) : Except String Nat :=
  match strip (utf8 "OK KEYVISOR-PENDING-1 ") header with
  | none => .error (controlError header)
  | some digits =>
    match parseUnsigned (2 ^ 64) digits with
    | none => .error "agent returned an invalid request count"
    | some count =>
      if maxPendingAuthorizations < count then .error "agent returned too many authorization requests"
      else .ok count

/-- A line of the listing: an identifier and the encoded name of a key. -/
def parseRequest (line : Bytes) : Except String (RequestId × String) :=
  match splitOnce 9 line with
  | none => .error "agent returned an invalid authorization request"
  | some (id, name) => do
    let keyName ← decodeHexText name
    return (id, keyName)

/-- As many lines as the header announced. -/
def readRequests : Nat → Routine String (List (RequestId × String))
  | 0 => pure []
  | count + 1 => do
    let line ← readReply
    let request ← parseRequest line
    let rest ← readRequests count
    return request :: rest

/-- `fetch_authorization_requests`. -/
def fetchAuthorizationRequests : Routine String (List (RequestId × String)) := do
  connectControl
  write (utf8 "LIST" ++ [10])
  let header ← readReply
  let count ← parseHeader header
  readRequests count

/-- The only reply that confirms an authorization. -/
def checkReply (line : Bytes) : Except String Unit :=
  if line = utf8 "OK authorized" then .ok () else .error (controlError line)

/-- The PIN is asked for before the connection is made. -/
def authorizeRequest (id : RequestId) (keyName : String) (secretInput : SecretInput)
    (reportSuccess : Bool) : Routine String Unit := do
  let pin ← demand (fun message : String => message)
    (Program.call (Operation.readExistingPin ("SSH signature with key “" ++ keyName ++ "”") secretInput))
  connectControl
  write (utf8 "AUTHORIZE " ++ (id ++ 32 :: decimal pin.length) ++ [10])
  write pin
  demand controlIo (Program.call Operation.flush)
  let line ← readReply
  checkReply line
  if reportSuccess then
    (liftM (Program.call (Operation.println (utf8 "authorized " ++ id)) : Action Unit) : Routine String Unit)
  else return ()

/-! ## An undisturbed connection -/

/-- The tool's side of a connection: the answers on their way, the bytes sent so
far, the PIN that is entered and the lines that are printed. -/
structure Session where
  source : Source
  sent : Bytes
  pin : Except String Bytes
  printed : List Bytes

/-- What a session answers when nothing fails. -/
def answer : (operation : Operation) → Session → Answer operation × Session
  | .connectControl, session => (.ok (), session)
  | .write bytes, session => (.ok (), { session with sent := session.sent ++ bytes })
  | .flush, session => (.ok (), session)
  | .readControlLine, session =>
    match readControlLine session.source with
    | .error message => (.error message, session)
    | .ok (line, after) => (.ok line, { session with source := after })
  | .readExistingPin _ _, session => (session.pin, session)
  | .println text, session => ((), { session with printed := session.printed ++ [text] })

/-! ## Reading what the server writes -/

/-- A text line within the limit is collected byte by byte. -/
theorem readLineFrom_line (room : Nat) (collected line rest : Bytes) (source : Source) (text : String)
    (split : source.remaining = line ++ 10 :: rest) (absent : 10 ∉ line) (within : line.length < room)
    (spelled : collected ++ line = utf8 text) :
    ∃ after, readLineFrom room collected source = .ok (collected ++ line, after) ∧ after.remaining = rest := by
  induction line generalizing room collected source with
  | nil =>
    obtain ⟨left, rfl⟩ := Nat.exists_eq_add_of_lt within
    obtain ⟨after, reads, final, _⟩ :=
      fill_enough (Source.delivers source.ending) 1 source rfl (by simp [split])
    rw [split] at reads final
    have newline : source.readExact 1 = .ok ([10], after) := reads
    rw [List.append_nil] at spelled ⊢
    refine ⟨after, ?_, final⟩
    simp only [readLineFrom, newline, ↓reduceIte]
    simp [spelled]
  | cons byte later inductionHypothesis =>
    obtain ⟨left, rfl⟩ := Nat.exists_eq_add_of_lt (Nat.zero_lt_of_lt within)
    obtain ⟨different, further⟩ := not_or.mp (List.mem_cons.not.mp absent)
    obtain ⟨middle, reads, final, _⟩ :=
      fill_enough (Source.delivers source.ending) 1 source rfl (by simp [split])
    rw [split] at reads final
    have octet : source.readExact 1 = .ok ([byte], middle) := reads
    have other : [byte] ≠ [10] := by simpa using Ne.symm different
    have shorter : later.length < 0 + left := by
      rw [List.length_cons] at within
      omega
    have joined : collected ++ [byte] ++ later = collected ++ byte :: later := by simp
    obtain ⟨after, collects, leaves⟩ :=
      inductionHypothesis (0 + left) (collected ++ [byte]) middle final further shorter (joined ▸ spelled)
    refine ⟨after, ?_, leaves⟩
    rw [← joined]
    simp only [readLineFrom, octet, if_neg other, collects]

/-- The answer to a read of a text line within the limit. -/
theorem execute_readReply (session : Session) {line rest : Bytes} {text : String}
    (split : session.source.remaining = line ++ 10 :: rest) (spelled : line = utf8 text) (absent : 10 ∉ line)
    (short : line.length ≤ maxControlLineBytes) :
    ∃ after, Program.execute answer readReply session = (.ok line, { session with source := after }) ∧
      after.remaining = rest := by
  obtain ⟨after, reads, left⟩ := readLineFrom_line (maxControlLineBytes + 1) [] line rest session.source text
    split absent (by omega) spelled
  have reply : readControlLine session.source = .ok (line, after) := reads
  refine ⟨after, ?_, left⟩
  show ((answer .readControlLine session).1.mapError (fun message => message),
    (answer .readControlLine session).2) = _
  simp only [answer, reply]
  rfl

/-- Hexadecimal pairs are decoded to what was encoded. -/
theorem decodePairs_hex (bytes : Bytes) : decodePairs (hex bytes) = .ok bytes := by
  induction bytes with
  | nil => rfl
  | cons byte rest inductionHypothesis =>
    obtain ⟨high, low, upper, lower, digits, highRead, lowRead, rebuilt⟩ := digitValue_hexByte byte
    have spelled : hex (byte :: rest) = high :: low :: hex rest := by rw [hex_cons, digits]; rfl
    rw [spelled, decodePairs]
    simp only [hexDigit, highRead, lowRead, inductionHypothesis]
    show Except.ok (((upper <<< 4) ||| lower) :: rest) = _
    rw [rebuilt]

/-- A key name survives its hexadecimal spelling. -/
theorem decodeHexText_hex (name : String) : decodeHexText (hex (utf8 name)) = .ok name := by
  have even : ¬ (hex (utf8 name)).length % 2 ≠ 0 := by simp
  simp only [decodeHexText, if_neg even, decodePairs_hex]
  show (match fromUtf8 (utf8 name) with
    | some text => Except.ok text
    | none => .error "agent returned an invalid key name") = _
  rw [fromUtf8_utf8]

/-- The line of a request is parsed back. -/
theorem parseRequest_requestLine {id : RequestId} (plain : Plain id) (keyName : String) :
    parseRequest (requestLine (id, keyName)) = .ok (id, keyName) := by
  have absent : 9 ∉ id := plain.not_mem rfl
  simp only [parseRequest, requestLine, splitOnce_append absent, decodeHexText_hex]
  rfl

/-- The header of a listing within the bound is parsed back. -/
theorem parseHeader_listing {count : Nat} (bounded : count ≤ maxPendingAuthorizations) :
    parseHeader (utf8 "OK KEYVISOR-PENDING-1 " ++ decimal count) = .ok count := by
  have within : count < 2 ^ 64 := Nat.lt_of_le_of_lt bounded (by decide)
  simp only [parseHeader, strip_append, parseUnsigned_decimal _ _ within, if_neg (Nat.not_lt.mpr bounded)]

/-- What a line of a listing needs in order to be read back. -/
structure Listable (request : RequestId × String) : Prop where
  plain : Plain request.1
  bounded : (utf8 request.2).length ≤ 4096

/-- A line of a listing is ASCII text within the limit of the line reader. -/
theorem Listable.line {request : RequestId × String} (listable : Listable request) :
    (∃ text, requestLine request = utf8 text) ∧ 10 ∉ requestLine request ∧
      (requestLine request).length ≤ maxControlLineBytes := by
  obtain ⟨plain, bounded⟩ := listable
  have ascii : ∀ byte ∈ requestLine request, byte < 128 ∧ byte ≠ 10 := by
    intro byte member
    rcases List.mem_append.mp member with inside | later
    · exact ⟨plain.ascii byte inside, fun newline => plain.not_mem rfl (newline ▸ inside)⟩
    · rcases List.mem_cons.mp later with rfl | digit
      · decide
      · obtain ⟨low, _, noNewline, _⟩ := hexDigit_plain (mem_hexDigits_of_mem_hex digit)
        exact ⟨low, noNewline⟩
  refine ⟨ascii_is_text _ fun byte member => (ascii byte member).1,
    fun newline => (ascii 10 newline).2 rfl, ?_⟩
  have short := plain.short
  simp only [requestLine, List.length_append, List.length_cons, length_hex, maxControlLineBytes]
  omega

/-- Every line is read and decoded in turn. -/
theorem execute_readRequests (pending : List (RequestId × String))
    (listable : ∀ request ∈ pending, Listable request) (session : Session) {rest : Bytes}
    (split : session.source.remaining = pending.flatMap (fun request => requestLine request ++ [10]) ++ rest) :
    ∃ after, Program.execute answer (readRequests pending.length) session =
      (.ok pending, { session with source := after }) := by
  induction pending generalizing session with
  | nil => exact ⟨session.source, rfl⟩
  | cons request later inductionHypothesis =>
    obtain ⟨id, keyName⟩ := request
    have first := listable (id, keyName) List.mem_cons_self
    obtain ⟨⟨text, spelled⟩, absent, short⟩ := first.line
    have begins : session.source.remaining = requestLine (id, keyName) ++
        10 :: (later.flatMap (fun request => requestLine request ++ [10]) ++ rest) := by
      rw [split]
      simp
    obtain ⟨middle, replies, left⟩ := execute_readReply session begins spelled absent short
    obtain ⟨after, reads⟩ := inductionHypothesis
      (fun request member => listable request (List.mem_cons_of_mem _ member))
      { session with source := middle } left
    refine ⟨after, ?_⟩
    simp only [List.length_cons, readRequests]
    rw [Program.execute_bind, replies]
    simp only [parseRequest_requestLine first.plain]
    show Program.execute answer (do
        let rest ← readRequests later.length
        return (id, keyName) :: rest : Routine String _) { session with source := middle } = _
    rw [Program.execute_bind, reads]
    rfl

/-- A listing of few enough requests is fetched as it was shown. -/
theorem execute_fetch {pending : List (RequestId × String)} (listable : ∀ request ∈ pending, Listable request)
    (bounded : pending.length ≤ maxPendingAuthorizations) {session : Session} {rest : Bytes}
    (split : session.source.remaining = listing pending ++ rest) :
    ∃ after, Program.execute answer fetchAuthorizationRequests session =
      (.ok pending, { session with source := after, sent := session.sent ++ (utf8 "LIST" ++ [10]) }) := by
  let header := utf8 "OK KEYVISOR-PENDING-1 " ++ decimal pending.length
  have counted : Plain (decimal pending.length) := plain_decimal (Nat.le_trans bounded (by decide))
  have ascii : ∀ byte ∈ header, byte < 128 ∧ byte ≠ 10 := by
    have word : ∀ byte ∈ utf8 "OK KEYVISOR-PENDING-1 ", byte < 128 ∧ byte ≠ 10 := by decide +kernel
    intro byte member
    rcases List.mem_append.mp member with first | digit
    · exact word byte first
    · exact ⟨counted.ascii byte digit, fun newline => counted.not_mem rfl (newline ▸ digit)⟩
  obtain ⟨text, spelled⟩ := ascii_is_text header fun byte member => (ascii byte member).1
  have short : header.length ≤ maxControlLineBytes := by
    have digits := counted.short
    have word : (utf8 "OK KEYVISOR-PENDING-1 ").length = 22 := by decide
    simp only [header, List.length_append, word, maxControlLineBytes]
    omega
  have begins : session.source.remaining =
      header ++ 10 :: (pending.flatMap (fun request => requestLine request ++ [10]) ++ rest) := by
    rw [split]
    simp [listing, header]
  let asked : Session := { session with sent := session.sent ++ (utf8 "LIST" ++ [10]) }
  obtain ⟨middle, replies, left⟩ :=
    execute_readReply asked begins spelled (fun newline => (ascii 10 newline).2 rfl) short
  obtain ⟨after, reads⟩ :=
    execute_readRequests pending listable { asked with source := middle } left
  refine ⟨after, ?_⟩
  show Program.execute answer (do
      let header ← readReply
      let count ← parseHeader header
      readRequests count : Routine String _) asked = _
  rw [Program.execute_bind, replies]
  simp only [header, parseHeader_listing bounded]
  exact reads

/-! ## Agreement -/

/-- An accepted PIN is a value that an authorization may deliver. -/
theorem pin_of_validatePin {pin accepted : Bytes} {label : String}
    (valid : validatePin pin label = .ok accepted) : ∃ value : Pin, value.bytes = accepted := by
  unfold validatePin at valid
  split at valid
  · rename_i admissible
    cases valid
    exact ⟨⟨pin, admissible.1, admissible.2⟩, rfl⟩
  · cases valid

/-- The bytes of an authorization, whatever is answered to it. -/
theorem sent_authorizeRequest (id : RequestId) (keyName : String) (secretInput : SecretInput)
    (reportSuccess : Bool) (source : Source) (pin : Bytes) (printed : List Bytes) :
    (Program.execute answer (authorizeRequest id keyName secretInput reportSuccess)
      ⟨source, [], .ok pin, printed⟩).2.sent = authorization id pin := by
  let asked : Session := ⟨source, authorization id pin, .ok pin, printed⟩
  let finish : Bytes → Routine String Unit := fun line => do
    checkReply line
    if reportSuccess then
      (liftM (Program.call (Operation.println (utf8 "authorized " ++ id)) : Action Unit) : Routine String Unit)
    else return ()
  have writes : Program.execute answer (authorizeRequest id keyName secretInput reportSuccess)
      ⟨source, [], .ok pin, printed⟩ = Program.execute answer (readReply >>= finish) asked := rfl
  have reply : ∃ result after, Program.execute answer readReply asked =
      (result, { asked with source := after }) := by
    show ∃ result after, ((answer .readControlLine asked).1.mapError (fun message => message),
      (answer .readControlLine asked).2) = (result, { asked with source := after })
    cases read : readControlLine asked.source with
    | error message => exact ⟨_, source, by simp only [answer, read]; rfl⟩
    | ok pair => exact ⟨_, pair.2, by simp only [answer, read]; rfl⟩
  obtain ⟨result, after, replies⟩ := reply
  rw [writes, Program.execute_bind, replies]
  cases result with
  | error message => rfl
  | ok line =>
    simp only [finish, checkReply]
    split
    · cases reportSuccess <;> rfl
    · rfl

/-- The pending requests that `request_pin` can register: few enough, under its own
identifiers, for keys with names that records can have. -/
structure Pending where
  table : Table
  formed : ∀ entry ∈ table.entries, ∃ process sequence, entry.1 = requestId process sequence
  named : ∀ entry ∈ table.entries, entry.2.keyName ≠ "" ∧ (utf8 entry.2.keyName).length ≤ 4096
  bounded : table.entries.length ≤ 16

/-- Every entry of a pending table can be listed. -/
theorem Pending.listable (pending : Pending) : ∀ request ∈ shown pending.table, Listable request := by
  intro request member
  obtain ⟨entry, listed, rfl⟩ := List.mem_map.mp member
  obtain ⟨process, sequence, formed⟩ := pending.formed entry listed
  exact ⟨formed ▸ plain_requestId process sequence, (pending.named entry listed).2⟩

/-- The two processes agree. A listing that crosses both streams in any chunks is
fetched as the table's own pairs in the order of iteration; an authorization with
any accepted PIN is read by the server with that identifier and those bytes, which
the pending request is then sent. -/
theorem control_protocols_agree :
    (∀ (pending : Pending) (asked : Delivery (utf8 "LIST" ++ [10])) (delivered : List (Nat × Pin))
        (reply : Delivery (served ⟨asked.source, pending.table, delivered, []⟩).output)
        (pin : Except String Bytes) (printed : List Bytes),
      ∃ after, Program.execute answer fetchAuthorizationRequests ⟨reply.source, [], pin, printed⟩ =
        (.ok (pending.table.entries.map fun entry => (entry.1, entry.2.keyName)),
          ⟨after, utf8 "LIST" ++ [10], pin, printed⟩)) ∧
    (∀ (entered : Bytes) (label : String) (accepted : Bytes), validatePin entered label = .ok accepted →
      ∀ (process : UInt32) (sequence : Nat) (keyName : String) (secretInput : SecretInput)
        (reportSuccess : Bool) (source : Source) (printed : List Bytes),
      ∃ value : Pin, value.bytes = accepted ∧
        ∀ delivery : Delivery (Program.execute answer
            (authorizeRequest (requestId process sequence) keyName secretInput reportSuccess)
            ⟨source, [], .ok accepted, printed⟩).2.sent,
          readCommand delivery.source = .ok (.authorize (requestId process sequence) value) ∧
          ∀ (table : Table) (request : PendingAuthorization),
            table.lookup (requestId process sequence) = some request →
            served ⟨delivery.source, table, [], []⟩ =
              ⟨delivery.source, table.erase (requestId process sequence), [(request.sender, value)],
                utf8 "OK authorized" ++ [10]⟩) := by
  constructor
  · intro pending asked delivered reply pin printed
    have lists : (served ⟨asked.source, pending.table, delivered, []⟩).output =
        listing (shown pending.table) := by
      rw [served_list (readCommand_list asked), List.nil_append]
    have few : (shown pending.table).length ≤ maxPendingAuthorizations := by
      rw [shown, List.length_map]
      exact pending.bounded
    obtain ⟨source, rest, starts⟩ := reply
    rw [lists] at starts
    exact execute_fetch pending.listable few starts
  · intro entered label accepted valid process sequence keyName secretInput reportSuccess source printed
    obtain ⟨value, rfl⟩ := pin_of_validatePin valid
    refine ⟨value, rfl, ?_⟩
    rintro ⟨stream, rest, starts⟩
    rw [sent_authorizeRequest] at starts
    have reads : readCommand stream = .ok (.authorize (requestId process sequence) value) :=
      readCommand_authorize (plain_requestId process sequence) value ⟨stream, rest, starts⟩
    exact ⟨reads, fun table request pending => served_authorize reads pending⟩

namespace Sample

/-- One request waits for its PIN. -/
def pending : Pending where
  table := (∅ : Table).insert (requestId 7 1) ⟨"work", 3⟩
  formed := by
    intro entry member
    obtain rfl := List.mem_singleton.mp member
    exact ⟨7, 1, rfl⟩
  named := by
    intro entry member
    obtain rfl := List.mem_singleton.mp member
    decide
  bounded := by decide

/-- The question arrives in two pieces. -/
def asked : Delivery (utf8 "LIST" ++ [10]) := ⟨⟨[utf8 "LI", utf8 "ST" ++ [10]], none, by decide⟩, [], by decide⟩

end Sample

/-- The request is fetched whatever pieces the reply comes in; a PIN for it is sent in
two lines and given to it. -/
theorem control_protocols_agree_pending :
    (∀ reply : Delivery (served ⟨Sample.asked.source, Sample.pending.table, [], []⟩).output, ∃ after,
      Program.execute answer fetchAuthorizationRequests ⟨reply.source, [], .ok [], []⟩ =
        (.ok [(requestId 7 1, "work")], ⟨after, utf8 "LIST" ++ [10], .ok [], []⟩)) ∧
    ∃ value : Pin, value.bytes = utf8 "123456" ∧
      ∀ delivery : Delivery (Program.execute answer (authorizeRequest (requestId 7 1) "work" .stdin true)
          ⟨⟨[], none, nofun⟩, [], .ok (utf8 "123456"), []⟩).2.sent,
        served ⟨delivery.source, Sample.pending.table, [], []⟩ =
          ⟨delivery.source, Sample.pending.table.erase (requestId 7 1), [(3, value)],
            utf8 "OK authorized" ++ [10]⟩ := by
  obtain ⟨fetched, given⟩ := control_protocols_agree
  refine ⟨fun reply => fetched Sample.pending Sample.asked [] reply _ _, ?_⟩
  have valid : validatePin (utf8 "123456") "key PIN" = .ok (utf8 "123456") := by decide
  obtain ⟨value, same, sent⟩ := given _ _ _ valid 7 1 "work" .stdin true ⟨[], none, nofun⟩ []
  exact ⟨value, same, fun delivery => (sent delivery).2 Sample.pending.table ⟨"work", 3⟩ (AList.lookup_insert _)⟩

end Keyvisor.ControlClient
