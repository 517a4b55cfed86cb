import Keyvisor.Creation
import Keyvisor.PinInput
import Keyvisor.PinRequest

/-!
# Asking the owner for a PIN

Executable translation of `read_secret_from_tty`, `read_existing_pin` and
`require_confirmation` in `keyvisor-cli/src/main.rs`, and what a PIN that is read, new or
existing, from a dialog, the terminal or standard input, leaves behind. A dialog answers
one command at a time and ends before the PIN is used; a terminal shows nothing while a
PIN is typed and is afterwards as it was.
-/

namespace Keyvisor.SecretEntry

open Foundation Foundation.Text
open ControlClient (SecretInput validatePin)
open Foundation.Program (demand)

/-! ## The conversation with a dialog -/

/-- A dialog between its start and its end, with the commands that are still to be
accepted; the last one asks for the PIN. -/
inductive Dialog where
  | idle
  | greeting (commands : List Bytes)
  | ready (commands : List Bytes)
  | written (commands : List Bytes)
  | pending (commands : List Bytes)
  | answered (pin : Bytes)
  | failed
  | killed
  | ended (entered : Option Bytes)
  deriving DecidableEq, Repr

/-- Every command but the last is answered without data before the next one is written. -/
def Dialog.heard : Dialog → Except String Bytes → Dialog
  | .greeting commands, .ok [] => .ready commands
  | .pending [_], .ok pin => .answered pin
  | .pending (_ :: commands), .ok [] => .ready commands
  | _, _ => .failed

/-- A dialog goes on while what is done to it succeeds. -/
def Dialog.kept (dialog : Dialog) (outcome : Except IoError Unit) : Dialog :=
  match outcome with
  | .ok _ => dialog
  | .error _ => .failed

/-- The order of a conversation. A dialog that failed is killed, and one that was killed
or has given its PIN is waited for. -/
def converses (commands : List Bytes) (dialog : Dialog) :
    (operation : Pinentry.Operation) → Pinentry.Answer operation → Option Dialog
  | .spawn, answer =>
    match dialog, (show Except IoError Unit from answer) with
    | .idle, .ok _ => some (.greeting commands)
    | .idle, .error _ => some (.ended none)
    | _, _ => none
  | .write bytes, answer =>
    match dialog with
    | .ready (command :: rest) =>
      if bytes = command ++ [10] then some (Dialog.kept (.written (command :: rest)) answer) else none
    | _ => none
  | .flush, answer =>
    match dialog with
    | .written commands => some (Dialog.kept (.pending commands) answer)
    | _ => none
  | .readResponse, answer =>
    match dialog with
    | .greeting commands => some ((Dialog.greeting commands).heard answer)
    | .pending commands => some ((Dialog.pending commands).heard answer)
    | _ => none
  | .kill, _ => if dialog = .failed then some .killed else none
  | .wait, answer =>
    match dialog, (show Except IoError Bool from answer) with
    | .answered pin, .ok true => some (.ended (some pin))
    | .answered _, _ => some (.ended none)
    | .killed, _ => some (.ended none)
    | _, _ => none

/-- The order in which a dialog program is started, spoken to, killed and waited for. -/
def conversation (commands : List Bytes) (dialog : Dialog)
    (exchange : Program.Exchange Pinentry.Operation Pinentry.Answer) : Option Dialog :=
  converses commands dialog exchange.1 exchange.2

/-- Everything that a dialog is told, in order. -/
def commandsFor (description : String) (repeatPrompt : Option String) : List Bytes :=
  Pinentry.configuration description repeatPrompt ++ [utf8 "GETPIN"]

section

variable {commands : List Bytes} {command : Bytes} {rest : List Bytes}

/-- Whether writing a line succeeds decides whether its answer is awaited. -/
theorem writeLine_converses (report : IoError → String) :
    Program.Complies (conversation commands) (.ready (command :: rest)) (Pinentry.writeLine report command).run
      fun dialog outcome => dialog = if outcome.isOk then .pending (command :: rest) else .failed := by
  refine Program.Complies.routine (Program.complies_demand (Program.complies_call fun written => ⟨_, if_pos rfl, ?_⟩))
  cases (written : Except IoError Unit) with
  | error error => exact rfl
  | ok _ =>
    refine Program.continues_ok (Program.complies_demand (Program.complies_call fun flushed => ⟨_, rfl, ?_⟩))
    cases (flushed : Except IoError Unit) <;> exact rfl

/-- What an answer without data makes of the conversation. -/
theorem checked_converses {dialog : Dialog} {next : List Bytes} (message : String)
    (hears : ∀ answer, conversation commands dialog ⟨.readResponse, answer⟩ = some (dialog.heard answer))
    (goes : dialog.heard (.ok []) = .ready next) (stops : ∀ byte data, dialog.heard (.ok (byte :: data)) = .failed)
    (fails : ∀ message, dialog.heard (.error message) = .failed) :
    Program.Complies (conversation commands) dialog (do
        let data ← Pinentry.readResponse
        Pinentry.checkEmpty message data : Pinentry.Routine String Unit).run
      fun dialog outcome => dialog = if outcome.isOk then .ready next else .failed := by
  refine Program.Complies.routine (Program.complies_demand (Program.complies_call fun answer => ⟨_, hears answer, ?_⟩))
  match (show Except String Bytes from answer) with
  | .error message => exact fails message
  | .ok [] => exact Program.continues_ok (Program.complies_check goes)
  | .ok (byte :: data) => exact Program.continues_ok (Program.complies_check (stops byte data))

/-- A command that is acknowledged makes way for the next one. -/
theorem sendPinentryCommand_converses (another : rest ≠ []) :
    Program.Complies (conversation commands) (.ready (command :: rest)) (Pinentry.sendPinentryCommand command).run
      fun dialog outcome => dialog = if outcome.isOk then .ready rest else .failed := by
  obtain ⟨next, later, rfl⟩ := List.exists_cons_of_ne_nil another
  refine Program.Complies.routine ((writeLine_converses _).weaken ?_)
  rintro _ (message | _) rfl
  · exact rfl
  · refine Program.continues_ok ?_
    show Program.Complies _ (Dialog.pending (command :: next :: later)) _ _
    exact checked_converses _ (fun _ => rfl) rfl (fun _ _ => rfl) fun _ => rfl

/-- The settings are sent in order, and a refused one fails the dialog. -/
theorem sendPinentryCommands_converses (settings : List Bytes) (another : rest ≠ []) :
    Program.Complies (conversation commands) (.ready (settings ++ rest)) (Pinentry.sendPinentryCommands settings).run
      fun dialog outcome => dialog = if outcome.isOk then .ready rest else .failed := by
  induction settings with
  | nil => exact rfl
  | cons command settings inductionHypothesis =>
    refine Program.Complies.routine ((sendPinentryCommand_converses ?_).weaken ?_)
    · exact fun empty => another (List.append_eq_nil_iff.mp empty).2
    · rintro _ (message | _) rfl
      · exact rfl
      · exact Program.continues_ok inductionHypothesis

end

/-- A conversation ends with the PIN that the dialog gave, or failed. -/
def Conversed (dialog : Dialog) : Except String Bytes → Prop
  | .ok pin => dialog = .answered pin
  | .error _ => dialog = .failed

/-- A conversation goes from the greeting through its own commands. -/
theorem converse_converses (description : String) (repeatPrompt : Option String) :
    Program.Complies (conversation (commandsFor description repeatPrompt))
      (.greeting (commandsFor description repeatPrompt))
      (Pinentry.converse description repeatPrompt).run Conversed := by
  have configured : commandsFor description repeatPrompt =
      Pinentry.configuration description repeatPrompt ++ [utf8 "GETPIN"] := rfl
  generalize commandsFor description repeatPrompt = commands at configured ⊢
  have greeted : Program.Complies (conversation commands) (.greeting commands) Pinentry.expectPinentryOk.run
      fun dialog outcome => dialog = if outcome.isOk then .ready commands else .failed :=
    checked_converses _ (fun _ => rfl) rfl (fun _ _ => rfl) fun _ => rfl
  refine Program.Complies.routine (greeted.weaken ?_)
  rintro _ (message | _) rfl
  · exact rfl
  refine Program.continues_ok (Program.Complies.routine ?_)
  rw [show Dialog.ready commands = .ready (Pinentry.configuration description repeatPrompt ++ [utf8 "GETPIN"]) from
    congrArg Dialog.ready configured]
  refine (sendPinentryCommands_converses _ (List.cons_ne_nil _ _)).weaken ?_
  rintro _ (message | _) rfl
  · exact rfl
  refine Program.continues_ok (Program.Complies.routine ((writeLine_converses _).weaken ?_))
  rintro _ (message | _) rfl
  · exact rfl
  refine Program.continues_ok (Program.complies_demand (Program.complies_call fun answer => ⟨_, rfl, ?_⟩))
  cases (answer : Except String Bytes) <;> exact rfl

/-- A dialog ended, and a PIN that is returned is the one that it gave. -/
def Entered (dialog : Dialog) (result : Except String Bytes) : Prop :=
  ∃ entered, dialog = .ended entered ∧
    ∀ pin, result = .ok pin → entered = some pin ∧ 6 ≤ pin.length ∧ pin.length ≤ 64

/-- A dialog that ended may always be reported as an error. -/
theorem entered_error (entered : Option Bytes) (message : String) : Entered (.ended entered) (.error message) := by
  refine ⟨entered, rfl, ?_⟩
  intro pin impossible
  cases impossible

/-- Whatever the dialog program answers, it is spoken to in order, killed where it must be, and
waited for. -/
theorem readSecretFromPinentry_converses (description : String) (repeatPrompt : Option String) :
    Program.Complies (conversation (commandsFor description repeatPrompt)) .idle
      (Pinentry.readSecretFromPinentry description repeatPrompt).run Entered := by
  refine Program.Complies.routine (Program.complies_demand (Program.complies_call fun spawned => ?_))
  cases (spawned : Except IoError Unit) with
  | error error => exact ⟨_, rfl, entered_error _ _⟩
  | ok _ =>
    refine ⟨.greeting (commandsFor description repeatPrompt), rfl, Program.continues_ok ?_⟩
    refine Program.Complies.routine (Program.complies_observed ?_)
    refine (converse_converses description repeatPrompt).weaken fun dialog result conversed => Program.continues_ok ?_
    cases result with
    | error message =>
      cases (conversed : dialog = .failed)
      refine Program.Complies.routine (Program.complies_observed (Program.complies_call fun _ => ⟨.killed, rfl, ?_⟩))
      refine Program.continues_ok (Program.Complies.routine (Program.complies_demand (Program.complies_call ?_)))
      intro waited
      refine ⟨.ended none, rfl, ?_⟩
      cases (waited : Except IoError Bool) with
      | error error => exact entered_error _ _
      | ok success => exact Program.continues_ok (entered_error _ _)
    | ok pin =>
      cases (conversed : dialog = .answered pin)
      refine Program.Complies.routine (Program.continues_ok (Program.Complies.routine ?_))
      refine Program.complies_demand (Program.complies_call fun waited => ?_)
      match (show Except IoError Bool from waited) with
      | .error error => exact ⟨.ended none, rfl, entered_error _ _⟩
      | .ok false => exact ⟨.ended none, rfl, Program.continues_ok (entered_error _ _)⟩
      | .ok true =>
        refine ⟨.ended (some pin), rfl, Program.continues_ok ?_⟩
        refine Program.Complies.routine (Program.continues_ok (Program.Complies.routine (Program.continues_ok ?_)))
        refine Program.complies_check ⟨some pin, rfl, fun other accepted => ?_⟩
        obtain ⟨rfl, bounds⟩ := (PinInput.validatePin_eq_ok _ _ _).mp accepted
        exact ⟨rfl, bounds⟩

/-- Whatever a dialog answers, it is told its commands one at a time in their order, each
after the one before was accepted without data; it is killed only after a failure, and
ends by being waited for; and a PIN that is returned is what the dialog answered to the last
command, within the bounds, before it ended with success. -/
theorem dialogs_keep_their_order {description : String} {repeatPrompt : Option String}
    {transcript : List (Program.Exchange Pinentry.Operation Pinentry.Answer)} {result : Except String Bytes}
    (followed : Program.Follows (Pinentry.readSecretFromPinentry description repeatPrompt).run transcript
      (.done result)) :
    ∃ entered, Program.accepts (conversation (commandsFor description repeatPrompt)) .idle transcript =
        some (.ended entered) ∧
      ∀ pin, result = .ok pin → entered = some pin ∧ 6 ≤ pin.length ∧ pin.length ≤ 64 := by
  obtain ⟨dialog, accepted, entered, rfl, given⟩ :=
    (readSecretFromPinentry_converses description repeatPrompt).of_follows_done followed
  exact ⟨entered, accepted, given⟩

namespace Sample

def pin : Bytes := utf8 "918273"

/-- A command that the dialog accepts. -/
def told (command : Bytes) : List (Program.Exchange Pinentry.Operation Pinentry.Answer) :=
  [⟨.write (command ++ [10]), (.ok () : Except IoError Unit)⟩, ⟨.flush, (.ok () : Except IoError Unit)⟩,
    ⟨.readResponse, (.ok [] : Except String Bytes)⟩]

/-- A dialog in which the owner enters the PIN. -/
def dialogue : List (Program.Exchange Pinentry.Operation Pinentry.Answer) :=
  [⟨.spawn, (.ok () : Except IoError Unit)⟩, ⟨.readResponse, (.ok [] : Except String Bytes)⟩] ++
    (Pinentry.configuration "Authorize." none).flatMap told ++
    [⟨.write (utf8 "GETPIN" ++ [10]), (.ok () : Except IoError Unit)⟩, ⟨.flush, (.ok () : Except IoError Unit)⟩,
      ⟨.readResponse, (.ok pin : Except String Bytes)⟩, ⟨.wait, (.ok true : Except IoError Bool)⟩]

end Sample

/-- A dialog with three commands, in which a PIN is entered. -/
theorem dialogs_keep_their_order_entered : Program.accepts (conversation (commandsFor "Authorize." none)) .idle
    Sample.dialogue = some (.ended (some Sample.pin)) := by
  have followed : Program.Follows (Pinentry.readSecretFromPinentry "Authorize." none).run Sample.dialogue
      (.done (.ok Sample.pin)) := (Program.follow_eq_some _ _ _).mp rfl
  obtain ⟨entered, accepted, given⟩ := dialogs_keep_their_order followed
  rw [accepted, (given Sample.pin rfl).1]

/-! ## The terminal -/

/-- The attributes of a terminal: the local modes, and all others, which stay as they are. -/
structure Attributes where
  localModes : UInt32
  others : Bytes
  deriving DecidableEq, Repr

/-- `LocalModes::ECHO`. -/
def echo : UInt32 := 0o10

/-- The attributes with the echo off. -/
def Attributes.hidden (attributes : Attributes) : Attributes :=
  { attributes with localModes := attributes.localModes &&& ~~~echo }

/-- The terminal shows what is typed. -/
def Attributes.echoes (attributes : Attributes) : Bool := attributes.localModes &&& echo != 0

/-- What is asked for while a PIN is read: the dialog, the terminal, a line of standard
input or of the terminal, and the session. -/
inductive Operation where
  | dialog (operation : Pinentry.Operation)
  | openTty
  | writeTty (bytes : Bytes)
  | flushTty
  | getAttributes
  | setAttributes (attributes : Attributes)
  | readTtyPin (label : String)
  | readTtyLine
  | readStdinPin (label : String)
  | environmentVariable (name : String)
  deriving DecidableEq, Repr

/-- A PIN line ends as `PinInput.readPinLine` has it; any other line is still bytes. -/
def Answer : Operation → Type
  | .dialog operation => Pinentry.Answer operation
  | .openTty => Except IoError Unit
  | .writeTty _ => Except IoError Unit
  | .flushTty => Except IoError Unit
  | .getAttributes => Except IoError Attributes
  | .setAttributes _ => Except IoError Unit
  | .readTtyPin _ => Except String Bytes
  | .readTtyLine => Except IoError Bytes
  | .readStdinPin _ => Except String Bytes
  | .environmentVariable _ => Option Bytes

abbrev Action := Program Operation Answer

abbrev Routine (ε : Type) := ExceptT ε Action

/-- An operation on the terminal with the text of its failure. -/
def onTty {α : Type} (failure : String) (outcome : Action (Except IoError α)) : Routine String α :=
  demand (fun error : IoError => failure ++ error.text) outcome

/-- A text on the terminal, flushed. -/
def prompt (failure : String) (text : String) : Routine String Unit := do
  onTty failure (Program.call (Operation.writeTty (utf8 text)))
  onTty failure (Program.call Operation.flushTty)

/-- Both attempts come before the failures are told, of which that of restoring the
terminal comes first. -/
def restoreTty (original : Attributes) (result : Except String Bytes) : Routine String Bytes := do
  let restore ← (liftM (Program.call (Operation.setAttributes original) : Action (Except IoError Unit)) :
    Routine String (Except IoError Unit))
  let newline ← (liftM (Program.call (Operation.writeTty [10]) : Action (Except IoError Unit)) :
    Routine String (Except IoError Unit))
  restore.mapError fun error => "cannot restore terminal echo: " ++ error.text
  newline.mapError IoError.text
  result

/-- `read_secret_from_tty`. -/
def readSecretFromTty (text : String) : Routine String Bytes := do
  onTty "cannot open the controlling terminal: " (Program.call Operation.openTty)
  prompt "cannot write PIN prompt: " text
  let original ← onTty "cannot inspect terminal: " (Program.call Operation.getAttributes)
  onTty "cannot disable terminal echo: " (Program.call (Operation.setAttributes original.hidden))
  let result ← (liftM (Program.call (Operation.readTtyPin "PIN") : Action (Except String Bytes)) :
    Routine String (Except String Bytes))
  restoreTty original result

/-! ## Confirmation -/

/-- The text of the line that `read_line` has read. -/
def answerText (line : Bytes) : Except String String :=
  match fromUtf8 line with
  | some text => .ok text
  | none => .error "cannot read confirmation: stream did not contain valid UTF-8"

/-- The answers that confirm. -/
def agrees (answer : String) : Bool := Creation.trim answer ∈ ["y", "Y", "yes", "YES"]

/-- `require_confirmation`, with a confirmation from the terminal. -/
def requireConfirmation (text : String) : Routine String Unit := do
  onTty "confirmation requires a terminal: " (Program.call Operation.openTty)
  prompt "cannot write confirmation prompt: " text
  let line ← onTty "cannot read confirmation: " (Program.call Operation.readTtyLine)
  let answer ← answerText line
  if agrees answer then return () else throw "operation cancelled"

/-! ## New and existing PINs -/

/-- `graphical_session_available`. -/
def graphicalSessionAvailable : Action Bool := do
  let wayland ← (Program.call (Operation.environmentVariable "WAYLAND_DISPLAY") : Action (Option Bytes))
  if PinRequest.isSet wayland then return true
  else do
    let display ← (Program.call (Operation.environmentVariable "DISPLAY") : Action (Option Bytes))
    return PinRequest.isSet display

/-- Each way of asking for a PIN as a program. -/
def implement : (operation : PinInput.Operation) → Action (PinInput.Answer operation)
  | .graphicalSessionAvailable => graphicalSessionAvailable
  | .readSecretFromPinentry description repeatPrompt =>
    (Pinentry.readSecretFromPinentry description repeatPrompt).run.translate Operation.dialog fun _ reply => reply
  | .readPinLine label => (Program.call (Operation.readStdinPin label) : Action (Except String Bytes))
  | .readSecretFromTty text => (readSecretFromTty text).run

/-- `read_existing_pin`, over the same ways of asking as a new PIN. -/
def existingPin (context : String) (input : SecretInput) : PinInput.Routine String Bytes := do
  let input ← PinInput.resolveSecretInput input
  match input with
  | .pinentry => PinInput.asked (Program.call (PinInput.Operation.readSecretFromPinentry
      ("Authorize TPM-protected " ++ context ++ ".") none))
  | .stdin => PinInput.asked (Program.call (PinInput.Operation.readPinLine "PIN"))
  | .terminal => PinInput.asked (Program.call (PinInput.Operation.readSecretFromTty "TPM PIN: "))
  | .auto => PinInput.asked (Program.call (PinInput.Operation.readSecretFromTty "TPM PIN: "))

/-- What a PIN is read for. -/
inductive Purpose where
  | create (keyName : String)
  | authorize (context : String)

/-- A PIN for a purpose, over the input that was chosen. -/
def readPin (purpose : Purpose) (input : SecretInput) : Action (Except String Bytes) :=
  match purpose with
  | .create keyName => (PinInput.readNewPin keyName input).run.expand implement
  | .authorize context => (existingPin context input).run.expand implement

/-! ## What reading a PIN leaves behind -/

/-- The process of the dialog: not there, running, or killed and not yet waited for. -/
inductive Child where
  | absent
  | running
  | killed
  deriving DecidableEq, Repr

/-- The terminal as it was found, inspected, without its echo, after the PIN line was
read, or not restored. -/
inductive Terminal where
  | asFound
  | inspected (original : Attributes)
  | hidden (original : Attributes)
  | entered (original : Attributes)
  | lost (error : IoError)
  deriving DecidableEq, Repr

/-- What a reading has to tidy: the dialog program and the terminal. -/
structure Desk where
  child : Child
  terminal : Terminal
  deriving DecidableEq, Repr

/-- No dialog program, and the terminal as it was found. -/
def Desk.cleared : Desk := ⟨.absent, .asFound⟩

/-- The life of a dialog process. -/
def lives (child : Child) : (operation : Pinentry.Operation) → Pinentry.Answer operation → Option Child
  | .spawn, answer =>
    if child = .absent then
      match (show Except IoError Unit from answer) with
      | .ok _ => some .running
      | .error _ => some .absent
    else none
  | .kill, _ => if child = .running then some .killed else none
  | .wait, _ => if child = .absent then none else some .absent
  | _, _ => if child = .running then some .running else none

/-- The terminal is changed to hide what is typed, read while it does, and changed back. -/
def tends (terminal : Terminal) : (operation : Operation) → Answer operation → Option Terminal
  | .getAttributes, answer =>
    match terminal, (show Except IoError Attributes from answer) with
    | .asFound, .ok original => some (.inspected original)
    | .asFound, .error _ => some .asFound
    | _, _ => none
  | .setAttributes attributes, answer =>
    match terminal, (show Except IoError Unit from answer) with
    | .inspected original, .ok _ => if attributes = original.hidden then some (.hidden original) else none
    | .inspected original, .error _ => if attributes = original.hidden then some .asFound else none
    | .entered original, .ok _ => if attributes = original then some .asFound else none
    | .entered original, .error error => if attributes = original then some (.lost error) else none
    | _, _ => none
  | .readTtyPin _, _ =>
    match terminal with
    | .hidden original => some (.entered original)
    | _ => none
  | _, _ => some terminal

/-- What may be done at the desk, and how it is left. -/
def deskMonitor (desk : Desk) : Program.Exchange Operation Answer → Option Desk
  | ⟨.dialog operation, answer⟩ => (lives desk.child operation answer).map fun child => { desk with child := child }
  | ⟨operation, answer⟩ => (tends desk.terminal operation answer).map fun terminal => { desk with terminal := terminal }

/-- The life of a dialog program, whatever it is told. -/
def lifeMonitor (child : Child) (exchange : Program.Exchange Pinentry.Operation Pinentry.Answer) : Option Child :=
  lives child exchange.1 exchange.2

/-- What is asked of a dialog between its start and its end. -/
def talking : Pinentry.Operation → Prop
  | .write _ => True
  | .flush => True
  | .readResponse => True
  | _ => False

/-- A conversation only talks to the dialog program. -/
theorem talking_converse (description : String) (repeatPrompt : Option String) :
    (Pinentry.converse description repeatPrompt).run.Issues talking := by
  have writes (report : IoError → String) (text : Bytes) : (Pinentry.writeLine report text).run.Issues talking :=
    (Program.issues_adapt _ (Program.issues_call trivial)).routine fun _ =>
      Program.issues_adapt _ (Program.issues_call trivial)
  have reads : Pinentry.readResponse.run.Issues talking := Program.issues_adapt _ (Program.issues_call trivial)
  have configures (commands : List Bytes) : (Pinentry.sendPinentryCommands commands).run.Issues talking := by
    induction commands with
    | nil => exact trivial
    | cons command rest inductionHypothesis =>
      have sends : (Pinentry.sendPinentryCommand command).run.Issues talking :=
        (writes _ command).routine fun _ => reads.routine fun _ => Program.issues_check _ _
      exact sends.routine fun _ => inductionHypothesis
  have greets : Pinentry.expectPinentryOk.run.Issues talking := reads.routine fun _ => Program.issues_check _ _
  exact greets.routine fun _ => (configures _).routine fun _ => (writes _ _).routine fun _ => reads

/-- Whatever is answered, the process of a dialog is gone when its reader returns. -/
theorem readSecretFromPinentry_lives (description : String) (repeatPrompt : Option String) :
    Program.Complies lifeMonitor .absent (Pinentry.readSecretFromPinentry description repeatPrompt).run
      fun child _ => child = .absent := by
  refine Program.Complies.routine (Program.complies_demand (Program.complies_call fun spawned => ?_))
  cases (spawned : Except IoError Unit) with
  | error error => exact ⟨.absent, rfl, rfl⟩
  | ok _ =>
    refine ⟨.running, rfl, Program.continues_ok (Program.Complies.routine (Program.complies_observed ?_))⟩
    have talks : Program.Complies lifeMonitor .running (Pinentry.converse description repeatPrompt).run
        fun reached _ => reached = .running :=
      (talking_converse description repeatPrompt).complies fun operation answer talks => by
        cases operation <;> first | rfl | cases talks
    refine talks.weaken ?_
    rintro _ result rfl
    refine Program.continues_ok (Program.Complies.routine ?_)
    have killed : Program.Complies lifeMonitor .running (Pinentry.killFailed result).run
        fun child outcome => child ≠ .absent ∧ outcome = .ok () := by
      unfold Pinentry.killFailed
      split
      · exact ⟨Child.noConfusion, rfl⟩
      · exact Program.complies_observed (Program.complies_call fun _ => ⟨.killed, rfl, Child.noConfusion, rfl⟩)
    refine killed.weaken ?_
    rintro child _ ⟨there, rfl⟩
    refine Program.continues_ok (Program.Complies.routine (Program.complies_demand (Program.complies_call ?_)))
    intro waited
    refine ⟨.absent, if_neg there, ?_⟩
    cases (waited : Except IoError Bool) with
    | error error => exact rfl
    | ok success =>
      refine Program.continues_ok (Program.Complies.routine (Program.complies_check ?_))
      cases result with
      | error message => exact rfl
      | ok pin =>
        refine Program.continues_ok (Program.Complies.routine (Program.complies_check ?_))
        cases Pinentry.checkSuccess success with
        | error message => exact rfl
        | ok _ => exact Program.continues_ok (Program.complies_check rfl)

/-- The error of a terminal that could not be restored. -/
def lostMessage (error : IoError) : String := "cannot restore terminal echo: " ++ error.text

/-- The terminal is as it was found, or the result says that it is not. -/
def Left (desk : Desk) (result : Except String Bytes) : Prop :=
  desk.child = .absent ∧
    (desk.terminal = .asFound ∨ ∃ error, desk.terminal = .lost error ∧ result = .error (lostMessage error))

/-- A cleared desk may be left with any result. -/
theorem left_cleared (result : Except String Bytes) : Left .cleared result := ⟨rfl, .inl rfl⟩

/-- The original attributes are restored, or the result says that this failed. -/
theorem restoreTty_tends (original : Attributes) (result : Except String Bytes) :
    Program.Complies deskMonitor ⟨.absent, .entered original⟩ (restoreTty original result).run Left := by
  refine Program.Complies.routine (Program.complies_observed (Program.complies_call fun restored => ?_))
  match (show Except IoError Unit from restored) with
  | .error error =>
    refine ⟨⟨.absent, .lost error⟩, by simp only [deskMonitor, tends]; rfl, Program.continues_ok ?_⟩
    refine Program.Complies.routine (Program.complies_observed (Program.complies_call fun written => ⟨_, rfl, ?_⟩))
    refine Program.continues_ok (Program.Complies.routine (Program.complies_check ?_))
    exact ⟨rfl, .inr ⟨error, rfl, rfl⟩⟩
  | .ok _ =>
    refine ⟨.cleared, by simp only [deskMonitor, tends]; rfl, Program.continues_ok ?_⟩
    refine Program.Complies.routine (Program.complies_observed (Program.complies_call fun written =>
      ⟨.cleared, rfl, ?_⟩))
    refine Program.continues_ok (Program.Complies.routine (Program.complies_check (Program.continues_ok ?_)))
    refine Program.Complies.routine (Program.complies_check ?_)
    cases (written : Except IoError Unit) with
    | error error => exact left_cleared _
    | ok _ => exact Program.continues_ok (Program.complies_check (left_cleared _))

/-- A typed secret is read with the echo off, and the desk is tidied in every outcome. -/
theorem readSecretFromTty_tends (text : String) :
    Program.Complies deskMonitor .cleared (readSecretFromTty text).run Left := by
  refine Program.Complies.routine (Program.complies_demand (Program.complies_call fun opened => ⟨.cleared, rfl, ?_⟩))
  cases (opened : Except IoError Unit) with
  | error error => exact left_cleared _
  | ok _ =>
  have prompts : Program.Complies deskMonitor .cleared (prompt "cannot write PIN prompt: " text).run
      fun desk _ => desk = .cleared := by
    refine Program.Complies.routine (Program.complies_demand (Program.complies_call fun written => ⟨.cleared, rfl, ?_⟩))
    cases (written : Except IoError Unit) with
    | error error => exact rfl
    | ok _ => exact Program.continues_ok (Program.complies_demand (Program.complies_call fun _ => ⟨.cleared, rfl, rfl⟩))
  refine Program.continues_ok (Program.Complies.routine (prompts.weaken ?_))
  rintro _ (message | _) rfl
  · exact left_cleared _
  refine Program.continues_ok (Program.Complies.routine (Program.complies_demand (Program.complies_call ?_)))
  intro inspected
  match (show Except IoError Attributes from inspected) with
  | .error error => exact ⟨.cleared, rfl, left_cleared _⟩
  | .ok original =>
  refine ⟨⟨.absent, .inspected original⟩, rfl, Program.continues_ok ?_⟩
  refine Program.Complies.routine (Program.complies_demand (Program.complies_call fun hides => ?_))
  match (show Except IoError Unit from hides) with
  | .error error => exact ⟨.cleared, by simp only [deskMonitor, tends]; rfl, left_cleared _⟩
  | .ok _ =>
  refine ⟨⟨.absent, .hidden original⟩, by simp only [deskMonitor, tends]; rfl, Program.continues_ok ?_⟩
  refine Program.Complies.routine (Program.complies_observed (Program.complies_call fun result => ?_))
  exact ⟨⟨.absent, .entered original⟩, rfl, Program.continues_ok (restoreTty_tends original result)⟩

/-! ## One way of asking after another -/

/-- A way of asking that failed is the last one. -/
def settles (failed : Option String) : Program.Exchange PinInput.Operation PinInput.Answer → Option (Option String)
  | ⟨.graphicalSessionAvailable, _⟩ => if failed = none then some none else none
  | ⟨.readSecretFromPinentry _ _, answer⟩ => if failed = none then some (failure answer) else none
  | ⟨.readPinLine _, answer⟩ => if failed = none then some (failure answer) else none
  | ⟨.readSecretFromTty _, answer⟩ => if failed = none then some (failure answer) else none
where
  failure : Except String Bytes → Option String
    | .ok _ => none
    | .error message => some message

/-- The desk after a way of asking. -/
def Relates (failed : Option String) (desk : Desk) : Prop :=
  desk.child = .absent ∧
    (desk.terminal = .asFound ∨ ∃ error, desk.terminal = .lost error ∧ failed = some (lostMessage error))

/-- How a reading left the desk relates its failure to the desk. -/
theorem relates_of_left {desk : Desk} {result : Except String Bytes} (left : Left desk result) :
    Relates (settles.failure result) desk := by
  obtain ⟨gone, found | ⟨error, lost, rfl⟩⟩ := left
  · exact ⟨gone, .inl found⟩
  · exact ⟨gone, .inr ⟨error, lost, rfl⟩⟩

/-- A look at the environment leaves the desk as it is. -/
theorem graphicalSessionAvailable_tends :
    Program.Complies deskMonitor .cleared graphicalSessionAvailable fun desk _ => desk = .cleared := by
  refine Program.Complies.bind (Program.complies_call fun wayland => ⟨.cleared, rfl, ?_⟩)
  split
  · exact rfl
  · exact Program.Complies.bind (Program.complies_call fun _ => ⟨.cleared, rfl, rfl⟩)

/-- Every way of asking leaves the desk in step. -/
theorem implement_tends (failed : Option String) (desk : Desk) (operation : PinInput.Operation)
    (related : Relates failed desk)
    (accepted : ∀ answer, ∃ reached, settles failed ⟨operation, answer⟩ = some reached) :
    Program.Complies deskMonitor desk (implement operation) fun after answer =>
      ∃ reached, settles failed ⟨operation, answer⟩ = some reached ∧ Relates reached after := by
  have fresh : failed = none := by
    cases operation with
    | graphicalSessionAvailable =>
      obtain ⟨reached, settled⟩ := accepted true
      exact (Option.ite_none_right_eq_some.mp settled).1
    | _ =>
      obtain ⟨reached, settled⟩ := accepted (.ok [] : Except String Bytes)
      exact (Option.ite_none_right_eq_some.mp settled).1
  subst fresh
  have clear : desk = .cleared := by
    obtain ⟨child, terminal⟩ := desk
    obtain ⟨rfl, rfl | ⟨error, _, impossible⟩⟩ := related
    · rfl
    · cases impossible
  subst clear
  cases operation with
  | graphicalSessionAvailable =>
    refine graphicalSessionAvailable_tends.weaken ?_
    rintro _ available rfl
    exact ⟨none, rfl, rfl, .inl rfl⟩
  | readSecretFromPinentry description repeatPrompt =>
    have dialog : Program.Complies deskMonitor .cleared (implement (.readSecretFromPinentry description repeatPrompt))
        fun desk _ => desk = .cleared :=
      Program.Complies.embed (fun child => (⟨child, .asFound⟩ : Desk)) (fun _ _ _ => rfl)
        ((readSecretFromPinentry_lives description repeatPrompt).weaken fun child result gone =>
          congrArg (fun child => (⟨child, .asFound⟩ : Desk)) gone)
    refine dialog.weaken ?_
    rintro _ result rfl
    exact ⟨_, rfl, relates_of_left (left_cleared result)⟩
  | readPinLine label => exact fun answer => ⟨.cleared, rfl, _, rfl, relates_of_left (left_cleared answer)⟩
  | readSecretFromTty text =>
    exact (readSecretFromTty_tends text).weaken fun desk result left => ⟨_, rfl, relates_of_left left⟩

/-- The result of the last way of asking when it failed. -/
def Concluded (failed : Option String) (result : Except String Bytes) : Prop :=
  ∀ message, failed = some message → result = .error message

/-- While nothing failed, nothing is concluded. -/
theorem concluded_none (result : Except String Bytes) : Concluded none result := fun _ impossible => nomatch impossible

/-- A result concludes its own failure. -/
theorem concluded_failure (result : Except String Bytes) : Concluded (settles.failure result) result := by
  cases result with
  | error message =>
    intro other same
    exact congrArg _ (Option.some.inj same)
  | ok pin => exact concluded_none _

/-- One way of asking. -/
theorem asked_settles {outcome : Program PinInput.Operation PinInput.Answer (Except String Bytes)}
    (complies : Program.Complies settles none outcome fun failed result => failed = settles.failure result) :
    Program.Complies settles none (PinInput.asked outcome).run fun failed result =>
      failed = settles.failure result := by
  refine Program.complies_demand (complies.weaken ?_)
  rintro _ (message | pin) rfl <;> rfl

/-- Asking reports the outcome of what it asks. -/
theorem asked_concludes {outcome : Program PinInput.Operation PinInput.Answer (Except String Bytes)}
    (complies : Program.Complies settles none outcome fun failed result => failed = settles.failure result) :
    Program.Complies settles none (PinInput.asked outcome).run Concluded :=
  (asked_settles complies).weaken fun _ _ same => same ▸ concluded_failure _

/-- Two entries that have to agree. -/
theorem twice_settles {first second : Program PinInput.Operation PinInput.Answer (Except String Bytes)}
    (asksFirst : Program.Complies settles none first fun failed result => failed = settles.failure result)
    (asksSecond : Program.Complies settles none second fun failed result => failed = settles.failure result) :
    Program.Complies settles none (do
        let first ← PinInput.asked first
        let second ← PinInput.asked second
        PinInput.confirmed first second : PinInput.Routine String Bytes).run Concluded := by
  refine Program.Complies.routine ((asked_settles asksFirst).weaken ?_)
  rintro _ (message | one) rfl
  · exact concluded_failure _
  refine Program.continues_ok (Program.Complies.routine ((asked_settles asksSecond).weaken ?_))
  rintro _ (message | other) rfl
  · exact concluded_failure _
  · exact Program.continues_ok (Program.complies_check (concluded_none _))

/-- Choosing an input fails nothing. -/
theorem resolveSecretInput_settles (input : SecretInput) :
    Program.Complies settles none (PinInput.resolveSecretInput input).run fun failed outcome =>
      failed = none ∧ ∃ resolved, outcome = .ok resolved := by
  unfold PinInput.resolveSecretInput
  split
  · exact fun graphical => ⟨none, rfl, rfl, _, rfl⟩
  · exact ⟨rfl, _, rfl⟩

/-- A new PIN is read with a conclusion. -/
theorem readNewPin_settles (keyName : String) (input : SecretInput) :
    Program.Complies settles none (PinInput.readNewPin keyName input).run Concluded := by
  refine Program.Complies.routine ((resolveSecretInput_settles input).weaken ?_)
  rintro _ _ ⟨rfl, resolved, rfl⟩
  refine Program.continues_ok ?_
  split
  · exact asked_concludes (Program.complies_call fun answer => ⟨_, rfl, rfl⟩)
  split
  · exact twice_settles (Program.complies_call fun answer => ⟨_, rfl, rfl⟩)
      (Program.complies_call fun answer => ⟨_, rfl, rfl⟩)
  · exact twice_settles (Program.complies_call fun answer => ⟨_, rfl, rfl⟩)
      (Program.complies_call fun answer => ⟨_, rfl, rfl⟩)

/-- An existing PIN is read with a conclusion. -/
theorem existingPin_settles (context : String) (input : SecretInput) :
    Program.Complies settles none (existingPin context input).run Concluded := by
  refine Program.Complies.routine ((resolveSecretInput_settles input).weaken ?_)
  rintro _ _ ⟨rfl, resolved, rfl⟩
  refine Program.continues_ok ?_
  cases resolved <;>
    exact asked_concludes (Program.complies_call fun answer => ⟨_, rfl, rfl⟩)

/-- Every way of reading a PIN tidies the desk, whatever is answered. -/
theorem readPin_tends (purpose : Purpose) (input : SecretInput) :
    Program.Complies deskMonitor .cleared (readPin purpose input) Left := by
  have started : Relates none .cleared := ⟨rfl, .inl rfl⟩
  have finishes {desk : Desk} {result : Except String Bytes}
      (ends : ∃ failed, Relates failed desk ∧ Concluded failed result) : Left desk result := by
    obtain ⟨failed, ⟨gone, found | ⟨error, lost, rfl⟩⟩, concluded⟩ := ends
    · exact ⟨gone, .inl found⟩
    · exact ⟨gone, .inr ⟨error, lost, concluded _ rfl⟩⟩
  cases purpose with
  | create keyName =>
    exact ((readNewPin_settles keyName input).expand Relates implement_tends started).weaken fun _ _ ends =>
      finishes ends
  | authorize context =>
    exact ((existingPin_settles context input).expand Relates implement_tends started).weaken fun _ _ ends =>
      finishes ends

/-! ## The attributes themselves -/

/-- The terminal's attributes after an operation. -/
def attributesAfter (attributes : Attributes) : Program.Exchange Operation Answer → Attributes
  | ⟨.setAttributes changed, answer⟩ =>
    match (show Except IoError Unit from answer) with
    | .ok _ => changed
    | .error _ => attributes
  | _ => attributes

/-- What the terminal is told to tell, it tells truly. -/
def tellsTruth (attributes : Attributes) : Program.Exchange Operation Answer → Prop
  | ⟨.getAttributes, answer⟩ => ∀ told, (show Except IoError Attributes from answer) = .ok told → told = attributes
  | _ => True

/-- Every answer about the attributes is true of the terminal at that time. -/
def Truthful (attributes : Attributes) : List (Program.Exchange Operation Answer) → Prop
  | [] => True
  | exchange :: rest => tellsTruth attributes exchange ∧ Truthful (attributesAfter attributes exchange) rest

/-- The terminal is as its account says. -/
def Terminal.Fits (found current : Attributes) : Terminal → Prop
  | .asFound => current = found
  | .inspected original => current = found ∧ original = found
  | .hidden original => current = found.hidden ∧ original = found
  | .entered original => current = found.hidden ∧ original = found
  | .lost _ => True

/-- The terminal stays as the desk remembers it while what is answered about it is true. -/
theorem fits_step {found current : Attributes} {desk next : Desk} {exchange : Program.Exchange Operation Answer}
    (fits : desk.terminal.Fits found current) (truthful : tellsTruth current exchange)
    (advanced : deskMonitor desk exchange = some next) :
    next.terminal.Fits found (attributesAfter current exchange) := by
  obtain ⟨operation, answer⟩ := exchange
  obtain ⟨child, terminal⟩ := desk
  cases operation with
  | getAttributes =>
    obtain ⟨after, tended, rfl⟩ := Option.map_eq_some_iff.mp advanced
    cases terminal with
    | asFound =>
      match (show Except IoError Attributes from answer), tended, truthful with
      | .error _, tended, _ =>
        cases tended
        exact fits
      | .ok told, tended, truthful =>
        cases tended
        exact ⟨fits, (truthful told rfl).trans fits⟩
    | _ => cases tended
  | setAttributes attributes =>
    obtain ⟨after, tended, rfl⟩ := Option.map_eq_some_iff.mp advanced
    cases terminal with
    | inspected original =>
      obtain ⟨same, rfl⟩ := fits
      match (show Except IoError Unit from answer), tended with
      | .ok _, tended =>
        obtain ⟨rfl, ended⟩ := Option.ite_none_right_eq_some.mp tended
        cases ended
        exact ⟨rfl, rfl⟩
      | .error _, tended =>
        obtain ⟨_, ended⟩ := Option.ite_none_right_eq_some.mp tended
        cases ended
        exact same
    | entered original =>
      obtain ⟨same, rfl⟩ := fits
      match (show Except IoError Unit from answer), tended with
      | .ok _, tended =>
        obtain ⟨rfl, ended⟩ := Option.ite_none_right_eq_some.mp tended
        cases ended
        exact rfl
      | .error _, tended =>
        obtain ⟨_, ended⟩ := Option.ite_none_right_eq_some.mp tended
        cases ended
        exact trivial
    | _ => cases tended
  | readTtyPin label =>
    obtain ⟨after, tended, rfl⟩ := Option.map_eq_some_iff.mp advanced
    cases terminal with
    | hidden original =>
      cases tended
      exact fits
    | _ => cases tended
  | dialog operation =>
    obtain ⟨_, _, rfl⟩ := Option.map_eq_some_iff.mp advanced
    exact fits
  | _ =>
    cases advanced
    exact fits

/-- After an accepted transcript of true answers the terminal is as the desk remembers it. -/
theorem fits_of_accepts {found current : Attributes} {desk last : Desk}
    {transcript : List (Program.Exchange Operation Answer)} (fits : desk.terminal.Fits found current)
    (truthful : Truthful current transcript) (accepted : Program.accepts deskMonitor desk transcript = some last) :
    last.terminal.Fits found (transcript.foldl attributesAfter current) := by
  induction transcript generalizing desk current with
  | nil =>
    cases accepted
    exact fits
  | cons exchange rest inductionHypothesis =>
    simp only [Program.accepts] at accepted
    split at accepted
    · rename_i next advanced
      exact inductionHypothesis (fits_step fits truthful.1 advanced) truthful.2 accepted
    · cases accepted

/-- The beginning of a truthful transcript is truthful. -/
theorem truthful_append {current : Attributes} {first second : List (Program.Exchange Operation Answer)}
    (truthful : Truthful current (first ++ second)) : Truthful current first := by
  induction first generalizing current with
  | nil => exact trivial
  | cons exchange rest inductionHypothesis => exact ⟨truthful.1, inductionHypothesis truthful.2⟩

/-- A clear echo flag shows nothing. -/
theorem echoes_hidden (attributes : Attributes) : attributes.hidden.echoes = false := by
  have cleared : attributes.localModes &&& ~~~echo &&& echo = 0 := by
    rw [UInt32.and_assoc, UInt32.and_comm (~~~echo)]
    simp
  simp only [Attributes.echoes, Attributes.hidden, cleared]
  rfl

/-- Whatever a dialog, the terminal and the owner answer while a PIN is read, and however it
is read: the process of a dialog is gone at the end; a PIN line is read from the terminal only
while its echo is off and all else is as it was found; and at the end the terminal's attributes
are those it was found with, or restoring them failed and the result is that failure. -/
theorem reading_a_pin_leaves_no_trace {purpose : Purpose} {input : SecretInput}
    {transcript : List (Program.Exchange Operation Answer)} {result : Except String Bytes}
    (followed : Program.Follows (readPin purpose input) transcript (.done result)) {found : Attributes}
    (truthful : Truthful found transcript) :
    (∃ desk, Program.accepts deskMonitor .cleared transcript = some desk ∧ desk.child = .absent) ∧
    (∀ before label answer after, transcript = before ++ ⟨.readTtyPin label, answer⟩ :: after →
      before.foldl attributesAfter found = found.hidden ∧ (before.foldl attributesAfter found).echoes = false) ∧
    (transcript.foldl attributesAfter found = found ∨ ∃ error, result = .error (lostMessage error)) := by
  obtain ⟨desk, accepted, gone, left⟩ := (readPin_tends purpose input).of_follows_done followed
  have fits := fits_of_accepts (show Desk.cleared.terminal.Fits found found from rfl) truthful accepted
  refine ⟨⟨desk, accepted, gone⟩, ?_, ?_⟩
  · rintro before label answer after rfl
    obtain ⟨middle, next, earlier, advanced⟩ := Program.accepts_at accepted
    have hides := fits_of_accepts (show Desk.cleared.terminal.Fits found found from rfl)
      (truthful_append truthful) earlier
    obtain ⟨_, tended, _⟩ := Option.map_eq_some_iff.mp advanced
    obtain ⟨child, terminal⟩ := middle
    cases terminal with
    | hidden original =>
      have current : before.foldl attributesAfter found = found.hidden := hides.1
      exact ⟨current, by rw [current]; exact echoes_hidden found⟩
    | _ => cases tended
  · rcases left with asFound | ⟨error, _, failed⟩
    · rw [asFound] at fits
      exact .inl fits
    · exact .inr ⟨error, failed⟩

namespace Sample

/-- A terminal that shows what is typed. -/
def found : Attributes := ⟨0o105073, []⟩

/-- A PIN is typed at the terminal. -/
def typed : List (Program.Exchange Operation Answer) :=
  [⟨.openTty, (.ok () : Except IoError Unit)⟩, ⟨.writeTty (utf8 "TPM PIN: "), (.ok () : Except IoError Unit)⟩,
    ⟨.flushTty, (.ok () : Except IoError Unit)⟩, ⟨.getAttributes, (.ok found : Except IoError Attributes)⟩,
    ⟨.setAttributes found.hidden, (.ok () : Except IoError Unit)⟩, ⟨.readTtyPin "PIN", (.ok pin : Except String Bytes)⟩,
    ⟨.setAttributes found, (.ok () : Except IoError Unit)⟩, ⟨.writeTty [10], (.ok () : Except IoError Unit)⟩]

end Sample

/-- A PIN that is typed leaves the attributes the terminal was found with. -/
theorem reading_a_pin_leaves_no_trace_typed : Sample.typed.foldl attributesAfter Sample.found = Sample.found := by
  have followed : Program.Follows (readPin (.authorize "SSH signature with key “k”") .terminal) Sample.typed
      (.done (.ok Sample.pin)) := (Program.follow_eq_some _ _ _).mp rfl
  have truthful : Truthful Sample.found Sample.typed :=
    ⟨trivial, trivial, trivial, fun _ same => (Except.ok.inj same).symm, trivial, trivial, trivial, trivial, trivial⟩
  obtain ⟨_, _, restored | ⟨error, failed⟩⟩ := reading_a_pin_leaves_no_trace followed truthful
  · exact restored
  · cases failed

end Keyvisor.SecretEntry
