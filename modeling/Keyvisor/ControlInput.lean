import Keyvisor.Control

/-!
# Control input and the pending table

What the bytes of a control client can do to the pending authorizations. One
connection is served over a table that nothing else touches; its system calls, its
channel and its writes may succeed or fail as they like, and the client may send
any bytes, in any chunks and with any end.

The input that changes the table is described without the server: a first line
within the limit, its three fields, and the value behind it. Reading a command is
exact for this description, and no command but an authorization touches the table or
a channel.
-/

namespace Keyvisor.ControlInput

open Foundation Foundation.Stream Foundation.Text Control
open Foundation.Program (demand)

/-! ## Authorizations as input -/

/-- The line announces a value of the given length for the request. The limit counts
the newline. -/
structure Announces (line : Bytes) (id : RequestId) (length : Nat) : Prop where
  text : ∃ text, line = utf8 text
  single : 10 ∉ line
  within : line.length + 1 ≤ 16384
  begins : utf8 "AUTHORIZE " <+: line
  fields : ∃ digits, splitAsciiWhitespace line = [utf8 "AUTHORIZE", id, digits] ∧
    parseUnsigned (2 ^ 64) digits = some length

/-- The input begins with a complete authorization of the request with the value. -/
def Authorizes (input : Bytes) (id : RequestId) (pin : Pin) : Prop :=
  ∃ line, Announces line id pin.bytes.length ∧ line ++ 10 :: pin.bytes <+: input

/-- The word distinguishes the line from the other commands. -/
theorem other_of_begins {line : Bytes} (begins : utf8 "AUTHORIZE " <+: line) :
    line ≠ utf8 "STATUS" ∧ line ≠ utf8 "LIST" := by
  constructor
  · rintro rfl
    exact absurd begins (by decide)
  · rintro rfl
    exact absurd begins (by decide)

/-- A command line is an authorization exactly when it announces a value, and then
the value is what follows it. -/
theorem readCommand_authorize_iff (source : Source) (id : RequestId) (pin : Pin) :
    readCommand source = .ok (.authorize id pin) ↔ Authorizes source.remaining id pin := by
  constructor
  · intro reads
    unfold readCommand at reads
    split at reads
    · cases reads
    · rename_i line reader readsLine
      obtain ⟨split, single, short, text⟩ := readControlLine_split readsLine
      split at reads
      · cases reads
      · split at reads
        · cases reads
        · split at reads
          · rename_i word
            split at reads
            · cases reads
            · rename_i announcement parsed
              split at reads
              · cases reads
              · rename_i value readsPin
                cases reads
                obtain ⟨digits, fields, counted⟩ := (parseAuthorization_eq_ok _ _).mp parsed
                obtain ⟨length, rest, sent⟩ := (readPin_eq_ok _ _ _).mp readsPin
                rw [← length] at counted
                refine ⟨line, ⟨text, single, short, (strip_isSome _ _).mp word, digits, fields, counted⟩, rest, ?_⟩
                rw [Buffered.bytes_new] at split
                rw [split, ← sent, List.append_assoc, List.cons_append]
          · cases reads
  · rintro ⟨line, ⟨⟨text, spelled⟩, single, within, begins, digits, fields, counted⟩, rest, sent⟩
    have split : (Buffered.new source).bytes = line ++ 10 :: (pin.bytes ++ rest) := by
      rw [Buffered.bytes_new, ← sent, List.append_assoc, List.cons_append]
    obtain ⟨reader, readsLine, left⟩ := readControlLine_line _ split spelled single within
    obtain ⟨notStatus, notList⟩ := other_of_begins begins
    have parsed : parseAuthorization line = .ok ⟨id, pin.bytes.length, pin.long, pin.short⟩ :=
      (parseAuthorization_eq_ok _ _).mpr ⟨digits, fields, counted⟩
    have filled : readPin ⟨id, pin.bytes.length, pin.long, pin.short⟩ reader = .ok pin :=
      (readPin_eq_ok _ _ _).mpr ⟨rfl, rest, left.symm⟩
    simp only [readCommand, readsLine, if_neg notStatus, if_neg notList, if_pos ((strip_isSome _ _).mpr begins),
      parsed, filled]

/-! ## One connection -/

/-- Everything that a connection depends on besides the table and the input. -/
structure Surroundings where
  peercred : Except IoError Bool
  setReadTimeout : Except IoError Unit
  setWriteTimeout : Except IoError Unit
  send : Nat → Pin → Except Unit Unit
  write : Bytes → Except IoError Unit

/-- The client is the agent's owner and the connection is set up. -/
structure Surroundings.Admits (surroundings : Surroundings) : Prop where
  owner : surroundings.peercred = .ok true
  reads : surroundings.setReadTimeout = .ok ()
  writes : surroundings.setWriteTimeout = .ok ()

/-- The pending requests and the values handed to channels, received or not. -/
structure Desk where
  table : Table
  sent : List (Nat × Pin)

/-- The table's lock is not poisoned. -/
def respond (surroundings : Surroundings) (source : Source) :
    (operation : Operation) → Desk → Answer operation × Desk
  | .peercred, desk => (surroundings.peercred, desk)
  | .setReadTimeout, desk => (surroundings.setReadTimeout, desk)
  | .setWriteTimeout, desk => (surroundings.setWriteTimeout, desk)
  | .readCommand, desk => (readCommand source, desk)
  | .pending, desk => (.ok (shown desk.table), desk)
  | .remove id, desk => (.ok (desk.table.lookup id), { desk with table := desk.table.erase id })
  | .send sender pin, desk => (surroundings.send sender pin, { desk with sent := desk.sent ++ [(sender, pin)] })
  | .write bytes, desk => (surroundings.write bytes, desk)

/-- The table and the channels after the connection is done. -/
def served (surroundings : Surroundings) (source : Source) (desk : Desk) : Desk :=
  (worker.run (respond surroundings source) desk).2

/-- Neither the table nor a channel is touched. -/
def Quiet : Operation → Prop
  | .remove _ => False
  | .send _ _ => False
  | _ => True

/-- A quiet operation leaves the table and the channels. -/
theorem respond_quiet (surroundings : Surroundings) (source : Source) (operation : Operation) (desk : Desk)
    (quiet : Quiet operation) : (respond surroundings source operation desk).2 = desk := by
  cases operation with
  | remove id => cases quiet
  | send sender pin => cases quiet
  | _ => rfl

/-- Writing a line is quiet. -/
theorem quiet_writeLine (text : Bytes) : (writeLine text).run.Issues Quiet :=
  Program.issues_adapt _ (Program.issues_call trivial)

/-- Writing a listing is quiet. -/
theorem quiet_writeRequests (pending : List (RequestId × String)) : (writeRequests pending).run.Issues Quiet := by
  induction pending with
  | nil => exact trivial
  | cons request rest inductionHypothesis =>
    exact (quiet_writeLine _).routine fun _ => inductionHypothesis

/-- Only an authorization touches the table or a channel. -/
theorem quiet_serveCommand (command : Command) (other : ∀ id pin, command ≠ .authorize id pin) :
    (serveCommand command).run.Issues Quiet := by
  cases command with
  | status => exact quiet_writeLine _
  | list =>
    have asked : (Program.call Operation.pending : Action (Answer .pending)).Issues Quiet :=
      Program.issues_call trivial
    exact (Program.issues_adapt unavailable asked).routine fun pending =>
      (quiet_writeLine _).routine fun _ => quiet_writeRequests pending
  | authorize id pin => exact absurd rfl (other id pin)

section

variable (surroundings : Surroundings) (source : Source) (desk : Desk)

/-- The error report at the end touches nothing. -/
theorem served_eq : served surroundings source desk =
    (Program.execute (respond surroundings source) serveControlConnection desk).2 := by
  show ((serveControlConnection.run >>= _ : Action Unit).run (respond surroundings source) desk).2 = _
  rw [Program.run_bind, Program.execute]
  generalize serveControlConnection.run.run (respond surroundings source) desk = ended
  obtain ⟨result, reached⟩ := ended
  cases result with
  | ok _ => rfl
  | error message => rfl

/-- An admitted client's connection is reading the command and serving it. -/
theorem execute_admitted (admits : surroundings.Admits) :
    Program.execute (respond surroundings source) serveControlConnection desk =
      Program.execute (respond surroundings source) (do
        let command ← demand (fun message : String => message) (Program.call Operation.readCommand)
        serveCommand command : Routine String Unit) desk := by
  obtain ⟨peercred, setReadTimeout, setWriteTimeout, send, write⟩ := surroundings
  obtain ⟨owner, reads, writes⟩ := admits
  dsimp only at owner reads writes
  subst owner reads writes
  rfl

/-- A client that is not admitted changes nothing. -/
theorem served_refused (refused : ¬ surroundings.Admits) : served surroundings source desk = desk := by
  rw [served_eq]
  obtain ⟨peercred, setReadTimeout, setWriteTimeout, send, write⟩ := surroundings
  rcases peercred with error | owner
  · rfl
  · cases owner with
    | false => rfl
    | true =>
      rcases setReadTimeout with error | _
      · rfl
      · rcases setWriteTimeout with error | _
        · rfl
        · exact absurd ⟨rfl, rfl, rfl⟩ refused

/-- The command is read from the source. -/
theorem execute_readCommand : Program.execute (respond surroundings source)
    (demand (fun message : String => message) (Program.call Operation.readCommand) : Routine String Command) desk =
      ((readCommand source).mapError fun message => message, desk) := rfl

/-- Input that asks for no authorization changes nothing. -/
theorem served_other (other : ∀ id pin, readCommand source ≠ .ok (.authorize id pin)) :
    served surroundings source desk = desk := by
  by_cases admits : surroundings.Admits
  · rw [served_eq, execute_admitted surroundings source desk admits, Program.execute_bind, execute_readCommand]
    cases asked : readCommand source with
    | error message => rfl
    | ok command =>
      have quiet := quiet_serveCommand command fun id pin same => other id pin (same ▸ asked)
      exact quiet.run_unchanged _ (respond_quiet surroundings source) desk
  · exact served_refused surroundings source desk admits

/-- An authorization that nobody waits for changes nothing. -/
theorem served_unknown {id : RequestId} {pin : Pin} (asked : readCommand source = .ok (.authorize id pin))
    (unknown : desk.table.lookup id = none) : served surroundings source desk = desk := by
  by_cases admits : surroundings.Admits
  · rw [served_eq, execute_admitted surroundings source desk admits, Program.execute_bind, execute_readCommand, asked]
    have absent : desk.table.erase id = desk.table := AList.ext
      (List.kerase_of_notMem_keys (AList.lookup_eq_none.mp unknown))
    show (Program.execute (respond surroundings source) (do
        let request ← notPending (desk.table.lookup id)
        demand (fun _ : Unit => "authorization request is no longer active")
          (Program.call (Operation.send request.sender pin))
        writeLine (utf8 "OK authorized") : Routine String Unit) { desk with table := desk.table.erase id }).2 = _
    rw [unknown, absent]
    rfl
  · exact served_refused surroundings source desk admits

/-- An authorization of a pending request takes it from the table and hands the value
to its channel, whatever becomes of the reply. -/
theorem served_pending (admits : surroundings.Admits) {id : RequestId} {pin : Pin} {request : PendingAuthorization}
    (asked : readCommand source = .ok (.authorize id pin)) (pending : desk.table.lookup id = some request) :
    served surroundings source desk = ⟨desk.table.erase id, desk.sent ++ [(request.sender, pin)]⟩ := by
  rw [served_eq, execute_admitted surroundings source desk admits, Program.execute_bind, execute_readCommand, asked]
  show (Program.execute (respond surroundings source) (do
      let request ← notPending (desk.table.lookup id)
      demand (fun _ : Unit => "authorization request is no longer active")
        (Program.call (Operation.send request.sender pin))
      writeLine (utf8 "OK authorized") : Routine String Unit) { desk with table := desk.table.erase id }).2 = _
  rw [pending]
  have sends : Program.execute (respond surroundings source)
      (demand (fun _ : Unit => "authorization request is no longer active")
        (Program.call (Operation.send request.sender pin)) : Routine String Unit)
      { desk with table := desk.table.erase id } =
        ((surroundings.send request.sender pin).mapError fun _ => "authorization request is no longer active",
          ⟨desk.table.erase id, desk.sent ++ [(request.sender, pin)]⟩) := rfl
  show (Program.execute (respond surroundings source) (do
      demand (fun _ : Unit => "authorization request is no longer active")
        (Program.call (Operation.send request.sender pin))
      writeLine (utf8 "OK authorized") : Routine String Unit) { desk with table := desk.table.erase id }).2 = _
  rw [Program.execute_bind, sends]
  cases surroundings.send request.sender pin with
  | error _ => rfl
  | ok _ => exact (quiet_writeLine _).run_unchanged _ (respond_quiet surroundings source) _

end

/-- The input of an owner's connection decides alone what happens to the table. If it
begins with a complete authorization of a pending request, that request leaves the
table and its channel gets exactly the announced bytes; every other input leaves the
table alone and sends nothing. -/
theorem only_complete_authorizations_count (surroundings : Surroundings) (source : Source) (desk : Desk) :
    (∀ id pin request, surroundings.Admits → Authorizes source.remaining id pin →
      desk.table.lookup id = some request →
        served surroundings source desk = ⟨desk.table.erase id, desk.sent ++ [(request.sender, pin)]⟩) ∧
    ((¬ ∃ id pin, surroundings.Admits ∧ Authorizes source.remaining id pin ∧ id ∈ desk.table) →
      served surroundings source desk = desk) := by
  constructor
  · intro id pin request admits authorizes pending
    have asked := (readCommand_authorize_iff source id pin).mpr authorizes
    exact served_pending surroundings source desk admits asked pending
  · intro nothing
    by_cases admits : surroundings.Admits
    · cases asked : readCommand source with
      | error message => exact served_other surroundings source desk fun id pin same => by simp [asked] at same
      | ok command =>
        cases command with
        | status => exact served_other surroundings source desk fun id pin same => by simp [asked] at same
        | list => exact served_other surroundings source desk fun id pin same => by simp [asked] at same
        | authorize id pin =>
          have authorizes := (readCommand_authorize_iff source id pin).mp asked
          have unknown : id ∉ desk.table := fun member => nothing ⟨id, pin, admits, authorizes, member⟩
          exact served_unknown surroundings source desk asked (AList.lookup_eq_none.mpr unknown)
    · exact served_refused surroundings source desk admits

namespace Sample

/-- Nothing fails. -/
def surroundings : Surroundings := ⟨.ok true, .ok (), .ok (), fun _ _ => .ok (), fun _ => .ok ()⟩

/-- The value arrives apart from its line and is not text. -/
def source : Source where
  chunks := [utf8 "AUTHORIZE  2a-1\t+6 \n", [255, 10, 0, 10, 49], [50, 51]]
  ending := none
  filled := by decide +kernel

def pin : Pin := ⟨[255, 10, 0, 10, 49, 50], by decide, by decide⟩

def desk : Desk := ⟨(∅ : Table).insert (utf8 "2a-1") ⟨"Key", 7⟩, []⟩

end Sample

/-- An authorization with more than one blank is served. -/
theorem spaced_authorization_counts :
    (served Sample.surroundings Sample.source Sample.desk).sent = [(7, Sample.pin)] := by
  have asked : readCommand Sample.source = .ok (.authorize (utf8 "2a-1") Sample.pin) := by decide +kernel
  have authorizes := (readCommand_authorize_iff _ _ _).mp asked
  have pending : Sample.desk.table.lookup (utf8 "2a-1") = some ⟨"Key", 7⟩ := AList.lookup_insert _
  rw [(only_complete_authorizations_count Sample.surroundings Sample.source Sample.desk).1 _ _ _
    ⟨rfl, rfl, rfl⟩ authorizes pending]
  rfl

end Keyvisor.ControlInput
