import Keyvisor.ControlClient

/-!
# What the two ends of a control connection can read

Either end may stop in the middle of what it writes: the tool may be killed or time
out, and the server may fail to write a line and still manage to report that. Each
end therefore reads some beginning of what the other meant to write, or a line that
was cut short and continued with an error.

No such beginning is mistaken for something else. A server that reads a command at
all has read the one that was meant. A tool that accepts a listing has read the
table as the server saw it.
-/

namespace Keyvisor.Dialogue

open Foundation Foundation.Stream Foundation.Text Control

/-! ## Commands that were cut short -/

/-- A beginning that reaches beyond the first line contains that line. -/
theorem prefix_line {bytes line rest : Bytes} {delimiter : UInt8} (begins : bytes <+: line ++ delimiter :: rest)
    (absent : delimiter ∉ line) (present : delimiter ∈ bytes) :
    ∃ later, bytes = line ++ delimiter :: later ∧ later <+: rest := by
  obtain ⟨missing, whole⟩ := begins
  rcases List.append_eq_append_iff.mp whole with ⟨after, rfl, _⟩ | ⟨after, rfl, split⟩
  · exact absurd (List.mem_append_left after present) absent
  · cases after with
    | nil =>
      rw [List.append_nil] at present
      exact absurd present absent
    | cons byte later =>
      obtain ⟨rfl, rfl⟩ := List.cons.inj split
      exact ⟨later, rfl, List.prefix_append later missing⟩

/-- A line that is read from a beginning of a text is the first line of that text. -/
theorem readControlLine_cut {source : Source} {line rest read : Bytes} {after : Buffered}
    (begins : source.remaining <+: line ++ 10 :: rest) (absent : 10 ∉ line)
    (reads : readControlLine (Buffered.new source) = .ok (read, after)) :
    read = line ∧ source.remaining = line ++ 10 :: after.bytes ∧ after.bytes <+: rest := by
  obtain ⟨split, single, _, _⟩ := readControlLine_split reads
  rw [Buffered.bytes_new] at split
  obtain ⟨missing, whole⟩ := begins
  rw [split, List.append_assoc, List.cons_append] at whole
  obtain ⟨rfl, remainder⟩ := line_unique single absent whole
  exact ⟨rfl, split, missing, remainder⟩

/-- A beginning of the listing command is read as nothing else. -/
theorem readCommand_list_cut {source : Source} {command : Command}
    (begins : source.remaining <+: utf8 "LIST" ++ [10]) (reads : readCommand source = .ok command) :
    command = .list := by
  unfold readCommand at reads
  split at reads
  · cases reads
  · rename_i line reader readsLine
    obtain ⟨rfl, _⟩ := readControlLine_cut begins (by decide) readsLine
    have other : utf8 "LIST" ≠ utf8 "STATUS" := by decide
    rw [if_neg other, if_pos rfl] at reads
    cases reads
    rfl

/-- An authorization is read as itself, and only when all of it was sent. -/
theorem readCommand_authorization_cut {id : RequestId} (plain : Plain id) (pin : Pin) {source : Source}
    {command : Command} (begins : source.remaining <+: authorization id pin.bytes)
    (reads : readCommand source = .ok command) :
    command = .authorize id pin ∧ source.remaining = authorization id pin.bytes := by
  let line := utf8 "AUTHORIZE " ++ (id ++ 32 :: decimal pin.bytes.length)
  obtain ⟨_, absent, _, notStatus, notList, word⟩ := authorization_line plain pin (show line = _ from rfl)
  have joined : authorization id pin.bytes = line ++ 10 :: pin.bytes := by simp [authorization, line]
  have complete : source.remaining = authorization id pin.bytes := by
    rw [joined] at begins
    unfold readCommand at reads
    split at reads
    · cases reads
    · rename_i read reader readsLine
      obtain ⟨rfl, split, left⟩ := readControlLine_cut begins absent readsLine
      have long : pin.bytes.length ≤ reader.bytes.length := by
        rw [if_neg notStatus, if_neg notList, if_pos word, parseAuthorization_line plain pin] at reads
        dsimp only at reads
        split at reads
        · cases reads
        · rename_i value readsPin
          obtain ⟨counted, sent⟩ := (readPin_eq_ok _ _ _).mp readsPin
          exact Nat.le_trans (Nat.le_of_eq counted.symm) sent.length_le
      rw [split, joined, left.eq_of_length (Nat.le_antisymm left.length_le long)]
  have whole : readCommand source = .ok (.authorize id pin) :=
    readCommand_authorize plain pin ⟨source, [], by rw [complete, List.append_nil]⟩
  rw [reads] at whole
  exact ⟨Except.ok.inj whole, complete⟩

/-! ## Replies that were read -/

/-- A line that the tool reads is the next one of its stream. -/
theorem readLineFrom_split (room : Nat) (collected : Bytes) {source after : Source} {line : Bytes}
    (reads : ControlClient.readLineFrom room collected source = .ok (line, after)) :
    ∃ tail, line = collected ++ tail ∧ source.remaining = tail ++ 10 :: after.remaining ∧ 10 ∉ tail := by
  induction room generalizing collected source with
  | zero => cases reads
  | succ room inductionHypothesis =>
    simp only [ControlClient.readLineFrom] at reads
    split at reads
    · cases reads
    · rename_i octet middle readsOctet
      have split := Source.readExact_split readsOctet
      split at reads
      · rename_i newline
        split at reads
        · cases reads
        · cases reads
          refine ⟨[], (List.append_nil _).symm, ?_, List.not_mem_nil⟩
          rw [split, newline]
          rfl
      · rename_i other
        obtain ⟨tail, rfl, rest, clean⟩ := inductionHypothesis (collected ++ octet) reads
        refine ⟨octet ++ tail, List.append_assoc _ _ _, ?_, ?_⟩
        · rw [split, rest, List.append_assoc]
        · have single := length_fill Source.read 1 readsOctet
          obtain ⟨byte, rfl⟩ := List.length_eq_one_iff.mp single
          rw [List.singleton_append, List.mem_cons]
          rintro (rfl | later)
          · exact other rfl
          · exact clean later

/-- A read reply is the bytes up to the first line feed. -/
theorem readReply_split {source after : Source} {line : Bytes}
    (reads : ControlClient.readControlLine source = .ok (line, after)) :
    source.remaining = line ++ 10 :: after.remaining ∧ 10 ∉ line := by
  obtain ⟨tail, rfl, split, clean⟩ := readLineFrom_split _ _ reads
  exact ⟨split, clean⟩

/-! ## Listings as lines -/

open ControlClient (parseHeader parseRequest maxPendingAuthorizations)

/-- The requests that the lines of a listing spell, if the tool accepts them. -/
def decoded : List Bytes → Option (List (RequestId × String))
  | [] => none
  | header :: rest =>
    match parseHeader header with
    | .ok count => if rest.length = count then rest.mapM fun line => (parseRequest line).toOption else none
    | .error _ => none

/-- A listing is decoded from its header and as many lines as that announces. -/
theorem decoded_eq_some {lines : List Bytes} {requests : List (RequestId × String)} :
    decoded lines = some requests ↔ ∃ header rest, lines = header :: rest ∧
      parseHeader header = .ok rest.length ∧ rest.mapM (fun line => (parseRequest line).toOption) = some requests := by
  constructor
  · intro accepted
    unfold decoded at accepted
    split at accepted
    · cases accepted
    · rename_i header rest
      split at accepted
      · rename_i count read
        split at accepted
        · rename_i counted
          exact ⟨header, rest, rfl, counted ▸ read, accepted⟩
        · cases accepted
      · cases accepted
  · rintro ⟨header, rest, rfl, read, requested⟩
    simp only [decoded, read, ↓reduceIte, requested]

/-- The lines of a listing. -/
def listingLines (order : List (RequestId × String)) : List Bytes :=
  (utf8 "OK KEYVISOR-PENDING-1 " ++ decimal order.length) :: order.map requestLine

/-- The requests that a table of the agent can show. -/
structure Readable (order : List (RequestId × String)) : Prop where
  plain : ∀ request ∈ order, Plain request.1
  few : order.length ≤ maxPendingAuthorizations

/-- The lines of a readable listing have no line feeds. -/
theorem listingLines_clean {order : List (RequestId × String)} (readable : Readable order) :
    ∀ line ∈ listingLines order, 10 ∉ line := by
  intro line member
  rcases List.mem_cons.mp member with rfl | later
  · have word : 10 ∉ utf8 "OK KEYVISOR-PENDING-1 " := by decide +kernel
    intro newline
    rcases List.mem_append.mp newline with first | digit
    · exact word first
    · exact absurd (decimal_digit digit).1 (by decide)
  · obtain ⟨request, listed, rfl⟩ := List.mem_map.mp later
    intro newline
    rcases List.mem_append.mp newline with inside | further
    · exact (readable.plain request listed).not_mem rfl inside
    · rcases List.mem_cons.mp further with tab | digit
      · exact absurd tab (by decide)
      · exact (hexDigit_plain (mem_hexDigits_of_mem_hex digit)).2.2.1 rfl

/-- Lines that a listing begins with are accepted only when they are all of it. -/
theorem decoded_listing {order requests : List (RequestId × String)} (readable : Readable order) {lines : List Bytes}
    (begins : lines <+: listingLines order) (accepted : decoded lines = some requests) : requests = order := by
  obtain ⟨header, rest, rfl, read, requested⟩ := decoded_eq_some.mp accepted
  obtain ⟨rfl, later⟩ := List.cons_prefix_cons.mp begins
  rw [ControlClient.parseHeader_listing readable.few] at read
  have counted : rest.length = (order.map requestLine).length := by
    rw [List.length_map]
    exact (Except.ok.inj read).symm
  rw [later.eq_of_length counted] at requested
  have decodes (pending : List (RequestId × String)) (plain : ∀ request ∈ pending, Plain request.1) :
      (pending.map requestLine).mapM (fun line => (parseRequest line).toOption) = some pending := by
    induction pending with
    | nil => rfl
    | cons request further inductionHypothesis =>
      have first := ControlClient.parseRequest_requestLine (plain request List.mem_cons_self) request.2
      have others := inductionHypothesis fun other member => plain other (List.mem_cons_of_mem _ member)
      rw [List.map_cons, List.mapM_cons, first, others]
      rfl
  rw [decodes order readable.plain] at requested
  exact (Option.some.inj requested).symm

/-! ## Lines that were cut short and continued with an error -/

/-- A text without control characters. -/
def printable (text : String) : Bool := (utf8 text).all fun byte => 32 ≤ byte

/-- A printable text has no control characters. -/
theorem printable_clean {text : String} (clean : printable text = true) {control : UInt8} (low : control < 32) :
    control ∉ utf8 text := by
  intro member
  have high : (32 : UInt8) ≤ control := of_decide_eq_true (List.all_eq_true.mp clean control member)
  exact absurd (UInt8.lt_of_lt_of_le low high) (UInt8.lt_irrefl control)

/-- The report of a failed write. -/
def report (error : IoError) : Bytes := utf8 "ERR " ++ utf8 (controlIo error)

/-- A report of a printable error has no control characters. -/
theorem report_clean {error : IoError} (clean : printable error.text = true) {control : UInt8} (low : control < 32) :
    control ∉ report error := by
  have word : printable "ERR " = true := by decide +kernel
  have failure : printable "control protocol I/O failed: " = true := by decide +kernel
  have spelled : report error = utf8 "ERR " ++ (utf8 "control protocol I/O failed: " ++ utf8 error.text) :=
    congrArg (utf8 "ERR " ++ ·) (utf8_append "control protocol I/O failed: " error.text)
  rw [spelled]
  intro member
  rcases List.mem_append.mp member with first | later
  · exact printable_clean word low first
  · rcases List.mem_append.mp later with second | last
    · exact printable_clean failure low second
    · exact printable_clean clean low last

/-- What follows a part of the header's word does not complete it. -/
theorem word_cut {start rest : Bytes} (cut : start <+: utf8 "OK KEYVISOR-PENDING-1 ")
    (short : start.length < (utf8 "OK KEYVISOR-PENDING-1 ").length) :
    ¬ utf8 "OK KEYVISOR-PENDING-1 " <+: start ++ (utf8 "ERR " ++ rest) := by
  have mismatch : ∀ length < (utf8 "OK KEYVISOR-PENDING-1 ").length,
      ¬ ((utf8 "OK KEYVISOR-PENDING-1 ").drop length).take 4 <+: utf8 "ERR " := by decide +kernel
  intro completed
  have split := List.prefix_iff_eq_append.mp cut
  rw [← split, List.prefix_append_right_inj] at completed
  apply mismatch start.length short
  have four : (utf8 "ERR ").length = 4 := by decide
  refine List.prefix_of_prefix_length_le ((List.take_prefix 4 _).trans completed) (List.prefix_append _ rest) ?_
  rw [four]
  exact List.length_take_le 4 _

/-- A header that was cut short is not a header any more. -/
theorem parseHeader_cut {part rest : Bytes} {count number : Nat}
    (cut : part <+: utf8 "OK KEYVISOR-PENDING-1 " ++ decimal count) :
    parseHeader (part ++ (utf8 "ERR " ++ rest)) ≠ .ok number := by
  intro accepted
  unfold parseHeader at accepted
  split at accepted
  · cases accepted
  · rename_i digits stripped
    split at accepted
    · cases accepted
    · rename_i counted read
      unfold strip at stripped
      split at stripped
      · rename_i begins
        cases stripped
        by_cases short : part.length < (utf8 "OK KEYVISOR-PENDING-1 ").length
        · have start : part <+: utf8 "OK KEYVISOR-PENDING-1 " :=
            List.prefix_of_prefix_length_le cut (List.prefix_append _ _) (Nat.le_of_lt short)
          exact word_cut start short (begins ▸ List.take_prefix _ _)
        · -- the digits go on with a letter
          have letter : (69 : UInt8) ∈ (part ++ (utf8 "ERR " ++ rest)).drop (utf8 "OK KEYVISOR-PENDING-1 ").length := by
            rw [List.drop_append_of_le_length (Nat.le_of_not_lt short)]
            have first : (69 : UInt8) ∈ utf8 "ERR " := by decide
            exact List.mem_append_right _ (List.mem_append_left _ first)
          rcases digit_of_parseUnsigned read 69 letter with sign | ⟨_, digit⟩
          · exact absurd sign (by decide)
          · exact absurd digit (by decide)
      · cases stripped

/-- What the control client takes for a digit is one. -/
theorem digit_of_hexDigit {byte value : UInt8} (accepted : ControlClient.hexDigit byte = .ok value) :
    (digitValue byte).isSome := by
  unfold ControlClient.hexDigit at accepted
  split at accepted
  · rename_i found
    rw [found]
    rfl
  · cases accepted

/-- Only hexadecimal digits are decoded. -/
theorem digit_of_decodePairs {bytes spelled : Bytes} (even : bytes.length % 2 = 0)
    (accepted : ControlClient.decodePairs bytes = .ok spelled) : ∀ byte ∈ bytes, (digitValue byte).isSome := by
  induction bytes using ControlClient.decodePairs.induct generalizing spelled with
  | case1 first second rest inductionHypothesis =>
    have shorter : rest.length % 2 = 0 := by
      simp only [List.length_cons] at even
      omega
    rw [ControlClient.decodePairs] at accepted
    cases high : ControlClient.hexDigit first with
    | error message =>
      rw [high] at accepted
      cases accepted
    | ok upper =>
    cases low : ControlClient.hexDigit second with
    | error message =>
      rw [high, low] at accepted
      cases accepted
    | ok lower =>
    cases others : ControlClient.decodePairs rest with
    | error message =>
      rw [high, low, others] at accepted
      cases accepted
    | ok later =>
    intro byte member
    rcases List.mem_cons.mp member with rfl | further
    · exact digit_of_hexDigit high
    · rcases List.mem_cons.mp further with rfl | inside
      · exact digit_of_hexDigit low
      · exact inductionHypothesis shorter others byte inside
  | case2 bytes other =>
    cases bytes with
    | nil => exact fun _ impossible => absurd impossible List.not_mem_nil
    | cons first rest =>
      cases rest with
      | nil => cases even
      | cons second further => exact (other first second further rfl).elim

/-- A key name that goes on with an error is not one. -/
theorem decodeHexText_cut (name rest : Bytes) (decoded : String) :
    ControlClient.decodeHexText (name ++ (utf8 "ERR " ++ rest)) ≠ .ok decoded := by
  intro accepted
  unfold ControlClient.decodeHexText at accepted
  split at accepted
  · cases accepted
  · rename_i even
    cases pairs : ControlClient.decodePairs (name ++ (utf8 "ERR " ++ rest)) with
    | error message =>
      rw [pairs] at accepted
      cases accepted
    | ok bytes =>
      have letter : (82 : UInt8) ∈ utf8 "ERR " := by decide
      have digit := digit_of_decodePairs (not_not.mp even) pairs 82
        (List.mem_append_right _ (List.mem_append_left _ letter))
      exact absurd digit (by decide)

/-- A request that was cut short is not a request any more. -/
theorem parseRequest_cut {part rest : Bytes} {request parsed : RequestId × String} (plain : Plain request.1)
    (cut : part <+: requestLine request) (untabbed : 9 ∉ rest) :
    parseRequest (part ++ (utf8 "ERR " ++ rest)) ≠ .ok parsed := by
  have word : 9 ∉ utf8 "ERR " := by decide +kernel
  have tail : 9 ∉ utf8 "ERR " ++ rest := fun member => (List.mem_append.mp member).elim word untabbed
  intro accepted
  unfold parseRequest at accepted
  by_cases tabbed : 9 ∈ part
  · obtain ⟨name, rfl, _⟩ := prefix_line cut (plain.not_mem rfl) tabbed
    rw [List.append_assoc, List.cons_append, splitOnce_append (plain.not_mem rfl)] at accepted
    cases decodes : ControlClient.decodeHexText (name ++ (utf8 "ERR " ++ rest)) with
    | ok keyName => exact decodeHexText_cut name rest keyName decodes
    | error message =>
      dsimp only at accepted
      rw [decodes] at accepted
      cases accepted
  · have none : splitOnce 9 (part ++ (utf8 "ERR " ++ rest)) = none :=
      splitOnce_of_not_mem fun member => (List.mem_append.mp member).elim tabbed tail
    rw [none] at accepted
    cases accepted

/-! ## What a server writes -/

/-- How far a server has come with its answer to a listing: before it; with some lines
told; after a line that could not be written; after the report of that; or refusing.
Other commands are `elsewhere`. -/
inductive Voice where
  | silent
  | telling (order : List (RequestId × String)) (told remaining : List Bytes)
  | broken (order : List (RequestId × String)) (told : List Bytes) (line : Bytes) (error : IoError)
  | reported (order : List (RequestId × String)) (told : List Bytes) (line : Bytes) (error : IoError)
  | refusing (bytes : Bytes)
  | elsewhere

/-- The table that the answer shows. -/
def Voice.order : Voice → Option (List (RequestId × String))
  | .telling order _ _ => some order
  | .broken order _ _ _ => some order
  | .reported order _ _ _ => some order
  | _ => none

/-- A listing is told line by line, and nothing but the report of a failure follows a
line that could not be written. -/
def speak (voice : Voice) : Program.Exchange Operation Answer → Option Voice
  | ⟨.readCommand, answer⟩ =>
    match voice, (answer : Except String Command) with
    | .silent, .ok .list => some .silent
    | .silent, .ok _ => some .elsewhere
    | .silent, .error _ => some .silent
    | _, _ => none
  | ⟨.pending, answer⟩ =>
    match voice, (answer : Except Unit (List (RequestId × String))) with
    | .silent, .ok order => some (.telling order [] (listingLines order))
    | .silent, .error _ => some .silent
    | _, _ => none
  | ⟨.write bytes, answer⟩ =>
    match voice, (answer : Except IoError Unit) with
    | .silent, _ => if refusal bytes then some (.refusing bytes) else none
    | .telling order told (line :: rest), .ok _ =>
      if bytes = line ++ [10] then some (.telling order (told ++ [line]) rest) else none
    | .telling order told (line :: _), .error error =>
      if bytes = line ++ [10] then some (.broken order told line error) else none
    | .broken order told line error, _ =>
      if bytes = report error ++ [10] then some (.reported order told line error) else none
    | .elsewhere, _ => some .elsewhere
    | _, _ => none
  | _ => some voice

/-- The error with which a server may end. -/
def Faults (voice : Voice) : Except String Unit → Prop
  | .ok _ => True
  | .error message =>
    match voice with
    | .silent => True
    | .elsewhere => True
    | .broken _ _ _ error => message = controlIo error
    | _ => False

/-- The lines of a listing are told one after the other. -/
theorem writeRequests_speaks (order pending : List (RequestId × String)) (told : List Bytes) :
    Program.Complies speak (.telling order told (pending.map requestLine)) (writeRequests pending).run Faults := by
  induction pending generalizing told with
  | nil => trivial
  | cons request rest inductionHypothesis =>
    apply Program.Complies.routine
    refine Program.complies_demand (Program.complies_call fun answer => ?_)
    cases (answer : Except IoError Unit) with
    | ok _ =>
      refine ⟨.telling order (told ++ [requestLine request]) (rest.map requestLine), ?_, ?_⟩
      · exact if_pos rfl
      · exact Program.continues_ok (inductionHypothesis _)
    | error error => exact ⟨.broken order told (requestLine request) error, if_pos rfl, rfl⟩

/-- A listing is served as the worker has to speak. -/
theorem serveList_speaks : Program.Complies speak .silent (serveCommand .list).run Faults := by
  apply Program.Complies.routine
  refine Program.complies_demand (Program.complies_call fun answer => ?_)
  rcases (answer : Except Unit (List (RequestId × String))) with _ | order
  · exact ⟨.silent, rfl, trivial⟩
  refine ⟨.telling order [] (listingLines order), rfl, Program.continues_ok ?_⟩
  apply Program.Complies.routine
  refine Program.complies_demand (Program.complies_call fun answer => ?_)
  cases (answer : Except IoError Unit) with
  | ok _ =>
    refine ⟨_, if_pos rfl, Program.continues_ok ?_⟩
    exact writeRequests_speaks order order _
  | error error => exact ⟨_, if_pos rfl, rfl⟩

/-- The operations of other commands. -/
theorem elsewhere_speaks {α : Type} {program : Control.Action α}
    (issues : program.Issues fun operation => operation ≠ .readCommand ∧ operation ≠ .pending) :
    Program.Complies speak .elsewhere program fun voice _ => voice = .elsewhere := by
  apply issues.complies
  intro operation answer other
  cases operation with
  | readCommand => exact absurd rfl other.1
  | pending => exact absurd rfl other.2
  | _ => rfl

/-- The commands other than a listing touch neither the stream nor the whole table. -/
theorem serveOther_issues {command : Command} (other : command ≠ .list) :
    (serveCommand command).run.Issues fun operation => operation ≠ .readCommand ∧ operation ≠ .pending := by
  have line (text : Bytes) : (writeLine text).run.Issues
      fun operation => operation ≠ .readCommand ∧ operation ≠ .pending := by
    exact Program.issues_adapt _ (Program.issues_call ⟨by simp, by simp⟩)
  cases command with
  | status => exact line _
  | list => exact absurd rfl other
  | authorize id pin =>
    apply Program.Issues.routine
    · exact Program.issues_adapt _ (Program.issues_call ⟨by simp, by simp⟩)
    intro removed
    apply Program.Issues.routine
    · exact Program.issues_check _ _
    intro request
    apply Program.Issues.routine
    · exact Program.issues_adapt _ (Program.issues_call ⟨by simp, by simp⟩)
    · exact fun _ => line _

/-- A whole connection is served as the worker has to speak. -/
theorem serveControlConnection_speaks :
    Program.Complies speak .silent serveControlConnection.run Faults := by
  apply Program.Complies.routine
  refine Program.complies_demand (Program.complies_call fun answer => ⟨.silent, rfl, ?_⟩)
  rcases (answer : Except IoError Bool) with _ | owner
  · trivial
  apply Program.continues_ok
  apply Program.Complies.routine
  apply Program.complies_check
  cases checkOwner owner with
  | error message => trivial
  | ok _ =>
  apply Program.continues_ok
  apply Program.Complies.routine
  refine Program.complies_demand (Program.complies_call fun answer => ⟨.silent, rfl, ?_⟩)
  rcases (answer : Except IoError Unit) with _ | _
  · trivial
  apply Program.continues_ok
  apply Program.Complies.routine
  refine Program.complies_demand (Program.complies_call fun answer => ⟨.silent, rfl, ?_⟩)
  rcases (answer : Except IoError Unit) with _ | _
  · trivial
  apply Program.continues_ok
  apply Program.Complies.routine
  refine Program.complies_demand (Program.complies_call fun answer => ?_)
  have away (command : Command) (other : command ≠ .list) :
      Program.Complies speak .elsewhere (serveCommand command).run Faults := by
    apply (elsewhere_speaks (serveOther_issues other)).weaken
    rintro _ outcome rfl
    cases outcome <;> trivial
  rcases (answer : Except String Command) with _ | _ | _ | ⟨id, pin⟩
  · exact ⟨.silent, rfl, trivial⟩
  · exact ⟨.elsewhere, rfl, Program.continues_ok (away .status (by simp))⟩
  · exact ⟨.silent, rfl, Program.continues_ok serveList_speaks⟩
  · exact ⟨.elsewhere, rfl, Program.continues_ok (away (.authorize id pin) (by simp))⟩

/-- Every server tells its listing in order, whatever its environment answers. -/
theorem worker_speaks : Program.Complies speak .silent worker fun _ _ => True := by
  apply Program.Complies.bind
  apply serveControlConnection_speaks.weaken
  intro voice result faults
  cases result with
  | ok _ => trivial
  | error message =>
    have reports : refusal (utf8 "ERR " ++ utf8 message ++ [10]) = true := by simp [refusal]; rfl
    intro answer
    cases voice with
    | silent =>
      exact ⟨.refusing (utf8 "ERR " ++ utf8 message ++ [10]), by simp only [speak, reports, ↓reduceIte], trivial⟩
    | elsewhere => exact ⟨.elsewhere, rfl, trivial⟩
    | broken order told line error =>
      obtain rfl : message = controlIo error := faults
      exact ⟨.reported order told line error, if_pos rfl, trivial⟩
    | telling order told remaining => exact faults.elim
    | reported order told line error => exact faults.elim
    | refusing bytes => exact faults.elim

/-! ## What a tool can read of it -/

/-- What an exchange of the server adds to its output. A write that fails may have
written a part. -/
def written (length : Nat) : Program.Exchange Operation Answer → Bytes
  | ⟨.write bytes, answer⟩ =>
    match (answer : Except IoError Unit) with
    | .ok _ => bytes
    | .error _ => bytes.take length
  | _ => []

/-- The texts of the operating system's errors have no control characters. -/
def legible : Program.Exchange Operation Answer → Bool
  | ⟨.write _, answer⟩ =>
    match (answer : Except IoError Unit) with
    | .ok _ => true
    | .error error => printable error.text
  | _ => true

/-- The output of a server that has come so far. -/
def Heard : Voice → Bytes → Prop
  | .silent, output => output = []
  | .telling order told remaining, output => told ++ remaining = listingLines order ∧ output = lined 10 told
  | .broken order told line error, output => told ++ [line] <+: listingLines order ∧ printable error.text = true ∧
      ∃ part, part <+: line ++ [10] ∧ output = lined 10 told ++ part
  | .reported order told line error, output => told ++ [line] <+: listingLines order ∧
      printable error.text = true ∧ ∃ part tail, part <+: line ++ [10] ∧ tail <+: report error ++ [10] ∧
        output = lined 10 told ++ (part ++ tail)
  | .refusing bytes, output => refusal bytes = true ∧ output <+: bytes
  | .elsewhere, _ => True

/-- What arrives of a write is a beginning of it. -/
theorem written_prefix (length : Nat) (bytes : Bytes) (answer : Answer (.write bytes)) :
    written length ⟨.write bytes, answer⟩ <+: bytes := by
  cases (answer : Except IoError Unit) with
  | ok _ => exact List.prefix_rfl
  | error error => exact List.take_prefix length bytes

/-- The output grows with every write. -/
theorem heard_write {voice next : Voice} {bytes output : Bytes} {answer : Answer (.write bytes)} (length : Nat)
    (heard : Heard voice output) (clean : legible ⟨.write bytes, answer⟩ = true)
    (spoken : speak voice ⟨.write bytes, answer⟩ = some next) :
    Heard next (output ++ written length ⟨.write bytes, answer⟩) := by
  have begins := written_prefix length bytes answer
  cases voice with
  | silent =>
    obtain rfl : output = [] := heard
    simp only [speak] at spoken
    split at spoken
    · rename_i refuses
      cases spoken
      exact ⟨refuses, begins⟩
    · cases spoken
  | telling order told remaining =>
    obtain ⟨lines, rfl⟩ := heard
    cases remaining with
    | nil => cases spoken
    | cons line rest =>
      cases (answer : Except IoError Unit) with
      | ok _ =>
        simp only [speak] at spoken
        split at spoken
        · rename_i same
          cases spoken
          subst same
          refine ⟨by rw [← lines]; simp, ?_⟩
          simp [written]
        · cases spoken
      | error error =>
        simp only [speak] at spoken
        split at spoken
        · rename_i same
          cases spoken
          subst same
          refine ⟨⟨rest, by rw [← lines]; simp⟩, clean, _, begins, rfl⟩
        · cases spoken
  | broken order told line error =>
    obtain ⟨lines, legibly, part, cut, rfl⟩ := heard
    simp only [speak] at spoken
    split at spoken
    · rename_i same
      cases spoken
      subst same
      exact ⟨lines, legibly, part, _, cut, begins, List.append_assoc _ _ _⟩
    · cases spoken
  | elsewhere =>
    cases spoken
    trivial
  | reported order told line error => cases spoken
  | refusing bytes => cases spoken

/-- The output grows as the server goes on. -/
theorem heard_speak {voice next : Voice} {exchange : Program.Exchange Operation Answer} {output : Bytes}
    (length : Nat) (heard : Heard voice output) (clean : legible exchange = true)
    (spoken : speak voice exchange = some next) : Heard next (output ++ written length exchange) := by
  obtain ⟨operation, answer⟩ := exchange
  cases operation with
  | write bytes => exact heard_write length heard clean spoken
  | readCommand =>
    rw [show written length ⟨.readCommand, answer⟩ = [] from rfl, List.append_nil]
    cases voice with
    | silent =>
      rcases (answer : Except String Command) with _ | _ | _ | _
      · cases spoken
        exact heard
      · cases spoken
        trivial
      · cases spoken
        exact heard
      · cases spoken
        trivial
    | _ => cases spoken
  | pending =>
    rw [show written length ⟨.pending, answer⟩ = [] from rfl, List.append_nil]
    cases voice with
    | silent =>
      rcases (answer : Except Unit (List (RequestId × String))) with _ | order
      · cases spoken
        exact heard
      · cases spoken
        exact ⟨rfl, heard⟩
    | _ => cases spoken
  | peercred | setReadTimeout | setWriteTimeout | remove | send =>
    cases spoken
    exact (List.append_nil output).symm ▸ heard

section

variable {order : List (RequestId × String)} {told lines : List Bytes} {line output : Bytes} {error : IoError}

/-- Complete lines of an output are lines of the listing, apart from a last one that
was cut short and continued with the report of that. -/
theorem lines_of_reported (readable : Readable order) (clean : ∀ line ∈ lines, 10 ∉ line)
    (heard : Heard (.reported order told line error) output) (read : lined 10 lines <+: output) :
    lines <+: told ++ [line] ∨ lines = told ++ [line] ++ [report error] ∨
      ∃ part, part <+: line ∧ lines = told ++ [part ++ report error] := by
  obtain ⟨listed, legibly, part, tail, cut, continues, rfl⟩ := heard
  have whole : ∀ other ∈ told ++ [line], 10 ∉ other :=
    fun other member => listingLines_clean readable other (listed.subset member)
  have neat : ∀ other ∈ told, 10 ∉ other := fun other member => whole other (List.mem_append_left _ member)
  have complete : 10 ∉ line := whole line (List.mem_append_right _ List.mem_cons_self)
  have reported : 10 ∉ report error := report_clean legibly (by decide)
  have none : (10 : UInt8) ∉ ([] : Bytes) := List.not_mem_nil
  rcases List.prefix_concat_iff.mp cut with rfl | cut
  · have joined : lined 10 told ++ ((line ++ [10]) ++ tail) = lined 10 (told ++ [line]) ++ tail := by simp
    rw [joined] at read
    rcases List.prefix_concat_iff.mp continues with rfl | continues
    · have all : lined 10 (told ++ [line]) ++ (report error ++ [10]) =
          lined 10 (told ++ [line] ++ [report error]) ++ [] := by simp
      rw [all] at read
      have texts : ∀ other ∈ told ++ [line] ++ [report error], 10 ∉ other := by
        intro other member
        rcases List.mem_append.mp member with earlier | last
        · exact whole other earlier
        · exact List.mem_singleton.mp last ▸ reported
      rcases List.prefix_concat_iff.mp (lines_of_text clean texts none read) with all | some
      · exact .inr (.inl all)
      · exact .inl some
    · exact .inl (lines_of_text clean whole (fun member => reported (continues.subset member)) read)
  · have uncut : 10 ∉ part := fun member => complete (cut.subset member)
    rcases List.prefix_concat_iff.mp continues with rfl | continues
    · have all : lined 10 told ++ (part ++ (report error ++ [10])) =
          lined 10 (told ++ [part ++ report error]) ++ [] := by simp
      rw [all] at read
      have texts : ∀ other ∈ told ++ [part ++ report error], 10 ∉ other := by
        intro other member
        rcases List.mem_append.mp member with earlier | last
        · exact neat other earlier
        · rw [List.mem_singleton.mp last]
          exact fun inside => (List.mem_append.mp inside).elim uncut reported
      rcases List.prefix_concat_iff.mp (lines_of_text clean texts none read) with all | some
      · exact .inr (.inr ⟨part, cut, all⟩)
      · exact .inl (some.trans (List.prefix_append _ _))
    · have open_ : 10 ∉ part ++ tail :=
        fun inside => (List.mem_append.mp inside).elim uncut fun member => reported (continues.subset member)
      exact .inl ((lines_of_text clean neat open_ read).trans (List.prefix_append _ _))

/-- Every line after the header of an accepted listing is a request. -/
theorem request_of_decoded {header : Bytes} {rest : List Bytes} {requests : List (RequestId × String)}
    (accepted : decoded (header :: rest) = some requests) :
    (∃ count, parseHeader header = .ok count) ∧ ∀ line ∈ rest, ∃ request, parseRequest line = .ok request := by
  obtain ⟨_, _, ⟨rfl, rfl⟩, read, requested⟩ := decoded_eq_some.mp accepted
  refine ⟨⟨_, read⟩, ?_⟩
  clear read accepted
  induction rest generalizing requests with
  | nil => exact fun _ impossible => absurd impossible List.not_mem_nil
  | cons first later inductionHypothesis =>
    rw [List.mapM_cons] at requested
    cases parsed : parseRequest first with
    | error message =>
      rw [parsed] at requested
      cases requested
    | ok request =>
      rw [parsed] at requested
      cases others : later.mapM (fun line => (parseRequest line).toOption) with
      | none =>
        rw [others] at requested
        cases requested
      | some found =>
        intro line member
        rcases List.mem_cons.mp member with rfl | further
        · exact ⟨request, parsed⟩
        · exact inductionHypothesis others line further

/-- A listing that ends in a report of a failure is not accepted. -/
theorem decoded_reported (readable : Readable order) (listed : told ++ [line] <+: listingLines order)
    (legibly : printable error.text = true) {part : Bytes} (cut : part <+: line)
    (requests : List (RequestId × String)) : decoded (told ++ [part ++ report error]) ≠ some requests := by
  intro accepted
  have untabbed : 9 ∉ utf8 (controlIo error) := by
    intro member
    exact report_clean legibly (by decide) (List.mem_append_right _ member)
  cases told with
  | nil =>
    obtain ⟨rfl, _⟩ := List.cons_prefix_cons.mp listed
    obtain ⟨⟨count, read⟩, _⟩ := request_of_decoded accepted
    exact parseHeader_cut cut read
  | cons header rest =>
    obtain ⟨rfl, further⟩ := List.cons_prefix_cons.mp listed
    obtain ⟨request, present, rfl⟩ :=
      List.mem_map.mp (further.subset (List.mem_append_right rest List.mem_cons_self))
    obtain ⟨_, parses⟩ := request_of_decoded accepted
    obtain ⟨parsed, read⟩ := parses (part ++ report error) (List.mem_append_right rest List.mem_cons_self)
    exact parseRequest_cut (readable.plain request present) cut untabbed read

/-- Neither is one that a report follows. -/
theorem decoded_followed (legibly : printable error.text = true) {header : Bytes} {rest : List Bytes}
    (requests : List (RequestId × String)) : decoded (header :: rest ++ [report error]) ≠ some requests := by
  intro accepted
  have untabbed : 9 ∉ utf8 (controlIo error) := by
    intro member
    exact report_clean legibly (by decide) (List.mem_append_right _ member)
  obtain ⟨_, parses⟩ := request_of_decoded accepted
  obtain ⟨parsed, read⟩ := parses (report error) (List.mem_append_right rest List.mem_cons_self)
  have plain : Plain ((requestId 0 0, "") : RequestId × String).1 := plain_requestId 0 0
  exact parseRequest_cut plain List.nil_prefix untabbed read

/-- What is accepted of a listing that failed was told before it did. -/
theorem order_of_reported (readable : Readable order) (clean : ∀ line ∈ lines, 10 ∉ line)
    (heard : Heard (.reported order told line error) output) (read : lined 10 lines <+: output)
    {requests : List (RequestId × String)} (accepted : decoded lines = some requests) : requests = order := by
  rcases lines_of_reported readable clean heard read with begins | rfl | ⟨part, cut, rfl⟩
  · exact decoded_listing readable (begins.trans heard.1) accepted
  · cases told with
    | nil => exact absurd accepted (decoded_followed heard.2.1 requests)
    | cons header rest => exact absurd accepted (decoded_followed heard.2.1 requests)
  · exact absurd accepted (decoded_reported readable heard.1 heard.2.1 cut requests)

/-- A refusal has no header. -/
theorem decoded_refusing {bytes : Bytes} (refuses : refusal bytes = true) (output_ : output <+: bytes)
    (read : lined 10 lines <+: output) (requests : List (RequestId × String)) : decoded lines ≠ some requests := by
  intro accepted
  obtain ⟨header, rest, rfl, parsed, _⟩ := decoded_eq_some.mp accepted
  have word : utf8 "OK KEYVISOR-PENDING-1 " <+: header := by
    unfold parseHeader at parsed
    split at parsed
    · cases parsed
    · rename_i stripped
      unfold strip at stripped
      split at stripped
      · rename_i begins
        exact begins ▸ List.take_prefix _ _
      · cases stripped
  have start : header <+: bytes := by
    rw [lined_cons] at read
    exact ((List.prefix_append _ _).trans read).trans output_
  have error : utf8 "ERR " <+: bytes := by
    have taken : bytes.take 4 = utf8 "ERR " := by simpa [refusal] using refuses
    exact taken ▸ List.take_prefix 4 bytes
  have mismatch : ¬ utf8 "ERR " <+: utf8 "OK KEYVISOR-PENDING-1 " := by decide +kernel
  exact mismatch (List.prefix_of_prefix_length_le error (word.trans start) (by decide))

end

/-- A tool that accepts what it read from a listing server has read the table that the
server saw. -/
theorem order_of_decoded {voice : Voice} {output : Bytes} {lines : List Bytes}
    {requests : List (RequestId × String)} (heard : Heard voice output) (here : voice ≠ .elsewhere)
    (readable : ∀ order, voice.order = some order → Readable order) (clean : ∀ line ∈ lines, 10 ∉ line)
    (read : lined 10 lines <+: output) (accepted : decoded lines = some requests) : voice.order = some requests := by
  have none : (10 : UInt8) ∉ ([] : Bytes) := List.not_mem_nil
  cases voice with
  | elsewhere => exact absurd rfl here
  | silent =>
    obtain rfl : output = [] := heard
    obtain ⟨header, rest, rfl, _⟩ := decoded_eq_some.mp accepted
    rw [lined_cons] at read
    exact absurd (List.prefix_nil.mp read) (by simp)
  | refusing bytes => exact absurd accepted (decoded_refusing heard.1 heard.2 read requests)
  | telling order told remaining =>
    obtain ⟨lines_, rfl⟩ := heard
    have good := readable order rfl
    have begins : told <+: listingLines order := ⟨remaining, lines_⟩
    have neat : ∀ line ∈ told, 10 ∉ line := fun other member => listingLines_clean good other (begins.subset member)
    rw [← List.append_nil (lined 10 told)] at read
    rw [decoded_listing good ((lines_of_text clean neat none read).trans begins) accepted]
    rfl
  | broken order told line error =>
    obtain ⟨listed, legibly, part, cut, same⟩ := heard
    have unreported : Heard (.reported order told line error) output :=
      ⟨listed, legibly, part, [], cut, List.nil_prefix, by rw [same, List.append_nil]⟩
    rw [order_of_reported (readable order rfl) clean unreported read accepted]
    rfl
  | reported order told line error =>
    rw [order_of_reported (readable order rfl) clean heard read accepted]
    rfl

end Keyvisor.Dialogue
