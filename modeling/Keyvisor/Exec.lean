import Keyvisor.ControlClient
import Keyvisor.Foundation.Completion
import Keyvisor.Foundation.Transition

/-!
# The command wrapper

Executable translation of `run_exec` in `keyvisor-cli/src/main.rs` with
`supervise_exec_child`, `fetch_authorization_requests_if_running`, the signal
forwarding and `terminate_child`. The two loops of the source are the only unbounded
parts, so their bodies are programs and the wrapper is a state machine over them.

The child is a party of its own that may end at any time. What `try_wait` and `wait`
report agrees with it; everything else that the wrapper asks is answered by an
arbitrary environment. Unregistering the signal handlers at the end is left out,
because nothing observes it.
-/

namespace Keyvisor.Exec

open Foundation Foundation.Text Control
open Foundation.Program (demand)

/-! ## Processes -/

/-- How a process ended, as `wait` reports it. -/
inductive ExitStatus where
  | exited (code : UInt8)
  | signaled (signal : Nat)
  | other (raw : Nat)
  deriving DecidableEq, Repr

/-- `ExitStatus::code`. -/
def ExitStatus.code : ExitStatus → Option Nat
  | exited code => some code.toNat
  | _ => none

/-- `ExitStatusExt::signal`. -/
def ExitStatus.signal : ExitStatus → Option Nat
  | signaled signal => some signal
  | _ => none

/-- The exit code of the wrapper: the child's own, or 128 and the signal that ended it. -/
def exitStatusCode (status : ExitStatus) : Nat :=
  (status.code.or (status.signal.map fun signal => 128 + signal)).getD 1

/-- The signals that are forwarded. -/
inductive Signal where
  | hup
  | int
  | quit
  | term
  deriving DecidableEq, Repr

/-- A process identifier that a signal can be sent to. -/
def pidFromRaw (child : UInt32) : Option Nat :=
  if 0 < child.toNat ∧ child.toNat < 2 ^ 31 then some child.toNat else none

/-- What the wrapper asks of its environment. -/
inductive Operation where
  | controlSocketPath
  | symlinkMetadata
  | control (operation : ControlClient.Operation)
  | register (signal : Signal)
  | spawn (command : List Bytes)
  | swapPending (signal : Signal)
  | killProcess (pid : Nat) (signal : Signal)
  | tryWait
  | sleep (milliseconds : Nat)
  | beforeDeadline
  | kill
  | wait
  deriving DecidableEq, Repr

/-- What is answered to each operation. -/
def Answer : Operation → Type
  | .controlSocketPath => Except String Unit
  | .symlinkMetadata => Except IoError Unit
  | .control operation => ControlClient.Answer operation
  | .register _ => Except IoError Unit
  | .spawn _ => Except IoError UInt32
  | .swapPending _ => Bool
  | .killProcess _ _ => Except IoError Unit
  | .tryWait => Except IoError (Option ExitStatus)
  | .sleep _ => Unit
  | .beforeDeadline => Bool
  | .kill => Except IoError Unit
  | .wait => Except IoError ExitStatus

abbrev Action := Program Operation Answer

abbrev Routine (ε : Type) := ExceptT ε Action

/-- The answer to a question whose failure is not an error yet. -/
def observe (operation : Operation) : Routine String (Answer operation) :=
  (liftM (Program.call operation : Action (Answer operation)) : Routine String (Answer operation))

/-- The control client as a part of the wrapper. -/
def control {α : Type} (routine : ControlClient.Routine String α) : Routine String α :=
  ExceptT.mk (routine.run.translate Operation.control fun _ answer => answer)

/-! ## Looking for requests -/

/-- A missing control socket means that no request can be pending. -/
def socketPresent (metadata : Except IoError Unit) : Except String Bool :=
  match metadata with
  | .ok _ => .ok true
  | .error error =>
    if error.kind = .notFound then .ok false
    else .error ("cannot inspect the agent control socket: " ++ error.text)

/-- `fetch_authorization_requests_if_running`: no socket means no requests. -/
def fetchAuthorizationRequestsIfRunning : Routine String (List (RequestId × String)) := do
  demand (fun message : String => message) (Program.call Operation.controlSocketPath)
  let metadata ← observe .symlinkMetadata
  let present ← socketPresent metadata
  if present then control ControlClient.fetchAuthorizationRequests else return []

/-- Only a single request is authorized, so that nothing is chosen among unrelated uses. -/
def authorizeSingle : List (RequestId × String) → Routine String Unit
  | [] => return ()
  | [(id, keyName)] => control (ControlClient.authorizeRequest id keyName .terminal false)
  | _ => throw "multiple authorization requests are pending; refusing to choose one"

/-! ## Supervising the child -/

/-- The signals in the order of their handlers. -/
def forwardedSignals : List Signal := [.hup, .int, .quit, .term]

/-- The handlers of `SignalForwarder::install`, one after the other. -/
def installSignals : List Signal → Routine String Unit
  | [] => return ()
  | signal :: rest => do
    demand (fun error : IoError => "cannot install signal forwarding: " ++ error.text)
      (Program.call (Operation.register signal))
    installSignals rest

/-- A pending signal is passed on and forgotten. -/
def forwardSignal (pid : Nat) (signal : Signal) : Action Unit := do
  let pending : Bool ← Program.call (Operation.swapPending signal)
  if pending then
    let _ ← (Program.call (Operation.killProcess pid signal) : Action (Except IoError Unit))
    return ()
  else return ()

/-- The pending signals are sent to the child in order. -/
def forwardSignals (pid : Nat) : List Signal → Action Unit
  | [] => return ()
  | signal :: rest => do
    forwardSignal pid signal
    forwardSignals pid rest

/-- `SignalForwarder::forward`, for a child whose identifier is a valid process identifier. -/
def forward (child : UInt32) : Action Unit :=
  match pidFromRaw child with
  | some pid => forwardSignals pid forwardedSignals
  | none => return ()

/-- One round of the loop in `supervise_exec_child` after the child was found running. -/
def authorizePending : Routine String (Option ExitStatus) := do
  let requests ← fetchAuthorizationRequestsIfRunning
  authorizeSingle requests
  let _ ← observe (.sleep 50)
  return none

/-- One round of the loop in `supervise_exec_child`. -/
def superviseRound (child : UInt32) : Routine String (Option ExitStatus) := do
  (liftM (forward child) : Routine String Unit)
  let status ← demand (fun error : IoError => "cannot wait for the command: " ++ error.text)
    (Program.call Operation.tryWait)
  match status with
  | some status => return some status
  | none => authorizePending

/-- One round of the loop in `terminate_child`; the child is given up after the last. -/
def reapRound : Action Bool := do
  let waiting : Bool ← Program.call Operation.beforeDeadline
  if waiting then
    let status ← (Program.call Operation.tryWait : Action (Except IoError (Option ExitStatus)))
    match status with
    | .ok (some _) => return true
    | _ =>
      let _ ← (Program.call (Operation.sleep 20) : Action Unit)
      return false
  else
    let _ ← (Program.call Operation.kill : Action (Except IoError Unit))
    let _ ← (Program.call Operation.wait : Action (Except IoError ExitStatus))
    return true

/-- `terminate_child` up to the end of the first round of its loop. -/
def terminateChild (child : UInt32) : Action Bool :=
  match pidFromRaw child with
  | some pid => do
    let _ ← (Program.call (Operation.killProcess pid .term) : Action (Except IoError Unit))
    reapRound
  | none => reapRound

/-! ## The command -/

/-- The message of a command line without a command. -/
def usage : String := "usage: keyvisor exec -- COMMAND [ARGUMENT ...]"

/-- The arguments after the separator, the first of which is the program. -/
def parseCommand : List Bytes → Except String (Bytes × List Bytes)
  | separator :: program :: rest =>
    if separator = utf8 "--" then .ok (program, rest) else .error usage
  | _ => .error usage

/-- A wrapper is not started while a request is pending. -/
def checkIdle (requests : List (RequestId × String)) : Except String Unit :=
  if requests.isEmpty then .ok ()
  else .error "cannot start command while another authorization request is pending"

/-- `run_exec` until the child is there. -/
def startChild (arguments : List Bytes) : Routine String UInt32 := do
  let (program, rest) ← parseCommand arguments
  let requests ← fetchAuthorizationRequestsIfRunning
  checkIdle requests
  installSignals forwardedSignals
  demand (fun error : IoError => "cannot start `" ++ fromUtf8Lossy program ++ "`: " ++ error.text)
    (Program.call (Operation.spawn (program :: rest)))

/-- How far the wrapper has come. -/
inductive Progress where
  | starting (program : Action (Except String UInt32))
  | supervising (child : UInt32) (program : Action (Except String (Option ExitStatus)))
  | terminating (child : UInt32) (message : String) (program : Action Bool)
  | ended (result : Except String ExitStatus)

/-- A finished part is followed by the next one: a round that ended without a result
by another round, a failed supervision by the termination of the child. -/
def Progress.settle : Progress → Progress
  | .starting (.done (.ok child)) => .supervising child (superviseRound child).run
  | .starting (.done (.error message)) => .ended (.error message)
  | .supervising child (.done (.ok none)) => .supervising child (superviseRound child).run
  | .supervising _ (.done (.ok (some status))) => .ended (.ok status)
  | .supervising child (.done (.error message)) => .terminating child message (terminateChild child)
  | .terminating child message (.done false) => .terminating child message reapRound
  | .terminating _ message (.done true) => .ended (.error message)
  | progress => progress

/-- What `main` exits with. An error is printed before. -/
def exitCode : Except String ExitStatus → Nat
  | .ok status => exitStatusCode status
  | .error _ => 1

/-! ## The wrapper and its child -/

/-- The child process. When it has ended, `alone` says that `terminate_child` had sent
no signal before. -/
inductive Child where
  | unborn
  | running
  | exited (status : ExitStatus) (alone : Bool)
  deriving DecidableEq, Repr

/-- The status of a child that has exited. -/
def Child.status : Child → Option ExitStatus
  | .exited status _ => some status
  | _ => none

/-- The child is there from the moment it was spawned. -/
def Child.after (child : Child) : Program.Exchange Operation Answer → Child
  | ⟨.spawn _, answer⟩ =>
    match (answer : Except IoError UInt32) with
    | .ok _ => .running
    | .error _ => child
  | _ => child

/-- What has crossed the current control connection. -/
structure Wire where
  sent : Bytes
  received : List Bytes
  deriving DecidableEq, Repr

/-- The wire after an exchange of the control client. -/
def Wire.record (wire : Wire) (operation : ControlClient.Operation) (answer : ControlClient.Answer operation) : Wire :=
  match operation with
  | .connectControl =>
    match (answer : Except String Unit) with
    | .ok _ => ⟨[], []⟩
    | .error _ => wire
  | .write bytes =>
    match (answer : Except IoError Unit) with
    | .ok _ => { wire with sent := wire.sent ++ bytes }
    | .error _ => wire
  | .readControlLine =>
    match (answer : Except String Bytes) with
    | .ok line => { wire with received := wire.received ++ [line] }
    | .error _ => wire
  | _ => wire

/-- Only exchanges of the control client change the wire. -/
def Wire.after (wire : Wire) : Program.Exchange Operation Answer → Wire
  | ⟨.control operation, answer⟩ => wire.record operation answer
  | _ => wire

/-- The wrapper's progress, its child, whether a signal was sent, and the current connection. -/
structure State where
  progress : Progress
  child : Child
  signalled : Bool
  wire : Wire

/-- The environment answers an open question, or the child ends. -/
inductive Event where
  | answer (environment : (operation : Operation) → Answer operation)
  | exit (status : ExitStatus)

/-- The environment decides whether a question about the child fails; its answer is
about the child as it is. Waiting for a child that runs is not answered yet. -/
def answerTo (child : Child) (environment : (operation : Operation) → Answer operation) :
    (operation : Operation) → Option (Answer operation)
  | .tryWait =>
    match (environment .tryWait : Except IoError (Option ExitStatus)) with
    | .ok _ => some (.ok child.status : Except IoError (Option ExitStatus))
    | .error error => some (.error error : Except IoError (Option ExitStatus))
  | .wait =>
    match (environment .wait : Except IoError ExitStatus) with
    | .ok _ => child.status.map fun status => (.ok status : Except IoError ExitStatus)
    | .error error => some (.error error : Except IoError ExitStatus)
  | operation => some (environment operation)

/-- The open question is answered and the wrapper goes on. -/
def Progress.answered (progress : Progress) (reply : (operation : Operation) → Option (Answer operation)) :
    Option (Program.Exchange Operation Answer × Progress) :=
  match progress with
  | .starting (.ask operation next) =>
    (reply operation).map fun answer => (⟨operation, answer⟩, (Progress.starting (next answer)).settle)
  | .supervising child (.ask operation next) =>
    (reply operation).map fun answer => (⟨operation, answer⟩, (Progress.supervising child (next answer)).settle)
  | .terminating child message (.ask operation next) =>
    (reply operation).map fun answer =>
      (⟨operation, answer⟩, (Progress.terminating child message (next answer)).settle)
  | _ => none

/-- The signals that `terminate_child` sends. -/
def Progress.signals (progress : Progress) (operation : Operation) : Bool :=
  match progress, operation with
  | .terminating _ _ _, .killProcess _ _ => true
  | .terminating _ _ _, .kill => true
  | _, _ => false

/-- One answered question of the wrapper, or the exit of its child. -/
def step (state : State) : Event → Option State
  | .answer environment => do
    let (exchange, progress) ← state.progress.answered (answerTo state.child environment)
    return ⟨progress, state.child.after exchange, state.signalled || state.progress.signals exchange.1,
      state.wire.after exchange⟩
  | .exit status =>
    match state.child with
    | .running => some { state with child := .exited status (!state.signalled) }
    | _ => none

/-- Before the first question of `run_exec`. -/
def initial (arguments : List Bytes) : State :=
  ⟨(Progress.starting (startChild arguments).run).settle, .unborn, false, ⟨[], []⟩⟩

/-! ## What the parts ask -/

section

variable {allowed : Operation → Prop}

/-- Listing the requests looks at the socket and then speaks to it. -/
theorem fetchIfRunning_issues (path : allowed .controlSocketPath) (metadata : allowed .symlinkMetadata)
    (fetches : ControlClient.fetchAuthorizationRequests.run.Issues fun operation => allowed (.control operation)) :
    fetchAuthorizationRequestsIfRunning.run.Issues allowed := by
  apply Program.Issues.routine
  · exact Program.issues_adapt _ (Program.issues_call path)
  intro _
  apply Program.Issues.routine
  · exact Program.issues_observed (Program.issues_call metadata)
  intro found
  apply Program.Issues.routine
  · exact Program.issues_check _ _
  intro present
  cases present with
  | true => exact fetches.translate fun _ => id
  | false => trivial

/-- Only the handlers of the given signals are registered. -/
theorem installSignals_issues (register : ∀ signal, allowed (.register signal)) (signals : List Signal) :
    (installSignals signals).run.Issues allowed := by
  induction signals with
  | nil => trivial
  | cons signal rest inductionHypothesis =>
    apply Program.Issues.routine
    · exact Program.issues_adapt _ (Program.issues_call (register signal))
    · exact fun _ => inductionHypothesis

/-- Forwarding takes the pending signals and sends them. -/
theorem forward_issues (swap : ∀ signal, allowed (.swapPending signal))
    (kill : ∀ pid signal, allowed (.killProcess pid signal)) (child : UInt32) : (forward child).Issues allowed := by
  have each (pid : Nat) (signals : List Signal) : (forwardSignals pid signals).Issues allowed := by
    induction signals with
    | nil => trivial
    | cons signal rest inductionHypothesis =>
      refine Program.Issues.bind ⟨swap signal, fun pending => ?_⟩ fun _ => inductionHypothesis
      cases (pending : Bool) with
      | false => trivial
      | true => exact ⟨kill pid signal, fun _ => trivial⟩
  unfold forward
  cases pidFromRaw child with
  | none => trivial
  | some pid => exact each pid forwardedSignals

end

/-! ## Usable answers -/

/-- A listing that leaves no choice. -/
def unambiguous : Except String Nat → Bool
  | .ok count => count ≤ 1
  | .error _ => false

/-- The line that the wrapper can go on with. A listing announces at most one request
and spells it; an authorization is confirmed. -/
def expected (wire : Wire) (line : Bytes) : Bool :=
  if wire.sent = utf8 "LIST" ++ [10] then
    match wire.received with
    | [] => unambiguous (ControlClient.parseHeader line)
    | _ => (ControlClient.parseRequest line).isOk
  else line = utf8 "OK authorized"

/-- An answer of the control socket or of the PIN prompt with which the wrapper can
go on. -/
def usableControl (wire : Wire) (operation : ControlClient.Operation) (answer : ControlClient.Answer operation) :
    Bool :=
  match operation with
  | .connectControl => (answer : Except String Unit).isOk
  | .write _ => (answer : Except IoError Unit).isOk
  | .flush => (answer : Except IoError Unit).isOk
  | .readControlLine =>
    match (answer : Except String Bytes) with
    | .ok line => expected wire line
    | .error _ => false
  | .readExistingPin _ _ => (answer : Except String Bytes).isOk
  | .println _ => true

/-- An answer with which the wrapper can go on supervising. -/
def usable (wire : Wire) : Program.Exchange Operation Answer → Bool
  | ⟨.controlSocketPath, answer⟩ => (answer : Except String Unit).isOk
  | ⟨.symlinkMetadata, answer⟩ => (socketPresent answer).isOk
  | ⟨.tryWait, answer⟩ => (answer : Except IoError (Option ExitStatus)).isOk
  | ⟨.control operation, answer⟩ => usableControl wire operation answer
  | _ => true

/-- While the child is supervised, the answer is usable. -/
def Usable (state : State) : Event → Bool
  | .answer environment =>
    match state.progress with
    | .supervising _ (.ask operation _) =>
      (answerTo state.child environment operation).all fun answer => usable state.wire ⟨operation, answer⟩
    | _ => true
  | .exit _ => true

/-! ## A round of supervision -/

/-- What a round depends on: the wire, whether every answer was usable, and the status
that was reported. -/
structure Ledger where
  wire : Wire
  smooth : Bool
  seen : Option ExitStatus

/-- The status that an exchange reports. -/
def reported (seen : Option ExitStatus) : Program.Exchange Operation Answer → Option ExitStatus
  | ⟨.tryWait, answer⟩ =>
    match (answer : Except IoError (Option ExitStatus)) with
    | .ok status => status
    | .error _ => seen
  | _ => seen

/-- The ledger after one more exchange. Every exchange is permitted. -/
def watch (ledger : Ledger) (exchange : Program.Exchange Operation Answer) : Option Ledger :=
  some ⟨ledger.wire.after exchange, ledger.smooth && usable ledger.wire exchange, reported ledger.seen exchange⟩

/-- The same for the control client. -/
def watchControl (ledger : Ledger) (exchange : Program.Exchange ControlClient.Operation ControlClient.Answer) :
    Option Ledger :=
  some ⟨ledger.wire.record exchange.1 exchange.2,
    ledger.smooth && usableControl ledger.wire exchange.1 exchange.2, ledger.seen⟩

/-- A routine fails exactly when an answer was not usable. Its value satisfies `post`. -/
def Runs {α : Type} (ledger : Ledger) (post : Ledger → α → Prop) (reached : Ledger) : Except String α → Prop
  | .ok value => reached.smooth = ledger.smooth ∧ reached.seen = ledger.seen ∧ post reached value
  | .error _ => reached.smooth = false

section

open ControlClient

variable {α β : Type} {ledger : Ledger}

/-- A sequence of two routines that run from a smooth ledger. -/
theorem runs_bind {routine : ControlClient.Routine String α} {next : α → ControlClient.Routine String β}
    {middle : Ledger → α → Prop} {post : Ledger → β → Prop}
    (first : Program.Complies watchControl ledger routine.run (Runs ledger middle))
    (rest : ∀ reached value, reached.smooth = ledger.smooth → reached.seen = ledger.seen → middle reached value →
      Program.Complies watchControl reached (next value).run (Runs reached post)) :
    Program.Complies watchControl ledger (routine >>= next).run (Runs ledger post) := by
  apply Program.Complies.routine
  apply first.weaken
  intro reached outcome runs
  cases outcome with
  | error message => exact runs
  | ok value =>
    obtain ⟨smooth, seen, holds⟩ := runs
    refine Program.continues_ok ((rest reached value smooth seen holds).weaken ?_)
    intro final result ends
    cases result with
    | error message => exact ends
    | ok value => exact ⟨ends.1.trans smooth, ends.2.1.trans seen, ends.2.2⟩

/-- A new connection begins a new exchange of bytes. -/
theorem connectControl_runs :
    Program.Complies watchControl ledger connectControl.run (Runs ledger fun reached _ => reached.wire = ⟨[], []⟩) := by
  refine Program.complies_demand (Program.complies_call fun answer => ⟨_, rfl, ?_⟩)
  cases (answer : Except String Unit) with
  | ok _ => exact ⟨Bool.and_true _, rfl, rfl⟩
  | error _ => exact Bool.and_false _

/-- A write adds its bytes to what was sent. -/
theorem write_runs (bytes : Bytes) :
    Program.Complies watchControl ledger (write bytes).run
      (Runs ledger fun reached _ => reached.wire = ⟨ledger.wire.sent ++ bytes, ledger.wire.received⟩) := by
  refine Program.complies_demand (Program.complies_call fun answer => ⟨_, rfl, ?_⟩)
  cases (answer : Except IoError Unit) with
  | ok _ => exact ⟨Bool.and_true _, rfl, rfl⟩
  | error _ => exact Bool.and_false _

/-- A line was read; only the line itself tells whether it is usable. -/
def LineRead (ledger reached : Ledger) : Except String Bytes → Prop
  | .ok line => reached.smooth = (ledger.smooth && expected ledger.wire line) ∧ reached.seen = ledger.seen ∧
      reached.wire = ⟨ledger.wire.sent, ledger.wire.received ++ [line]⟩
  | .error _ => reached.smooth = false

/-- A reply line is read from the bytes of the connection. -/
theorem readReply_complies : Program.Complies watchControl ledger readReply.run (LineRead ledger) := by
  refine Program.complies_demand (Program.complies_call fun answer => ⟨_, rfl, ?_⟩)
  cases (answer : Except String Bytes) with
  | ok line => exact ⟨rfl, rfl, rfl⟩
  | error _ => exact Bool.and_false _

/-- A line is read and checked by a predicate that accepts every usable line. -/
theorem readReply_checked {check : Bytes → Except String α} {next : α → ControlClient.Routine String β}
    {post : Ledger → Except String β → Prop} (fails : ∀ reached message, reached.smooth = false →
      post reached (.error message))
    (refused : ∀ line message, check line = .error message → expected ledger.wire line = false)
    (accepted : ∀ reached line value, LineRead ledger reached (.ok line) → check line = .ok value →
      Program.Complies watchControl reached (next value).run post) :
    Program.Complies watchControl ledger (do
      let line ← readReply
      let value ← check line
      next value : ControlClient.Routine String β).run post := by
  apply Program.Complies.routine
  apply readReply_complies.weaken
  intro reached outcome read
  cases outcome with
  | error message => exact fails reached message read
  | ok line =>
    refine Program.continues_ok (Program.Complies.routine (Program.complies_check ?_))
    cases decided : check line with
    | ok value => exact Program.continues_ok (accepted reached line value read decided)
    | error message =>
      apply fails reached message
      rw [read.1, refused line message decided, Bool.and_false]

/-- A run from a ledger that agrees with an earlier one. -/
theorem Runs.since {reached final : Ledger} {post : Ledger → α → Prop} {outcome : Except String α}
    (runs : Runs reached post final outcome) (smooth : reached.smooth = ledger.smooth)
    (seen : reached.seen = ledger.seen) : Runs ledger post final outcome := by
  cases outcome with
  | error message => exact runs
  | ok value => exact ⟨runs.1.trans smooth, runs.2.1.trans seen, runs.2.2⟩

/-- The lines of a listing after its header. -/
theorem readRequests_runs (count : Nat) (listed : ledger.wire.sent = utf8 "LIST" ++ [10])
    (headed : ledger.wire.received ≠ []) :
    Program.Complies watchControl ledger (readRequests count).run
      (Runs ledger fun _ requests => requests.length = count) := by
  induction count generalizing ledger with
  | zero => exact ⟨rfl, rfl, rfl⟩
  | succ count inductionHypothesis =>
    have judged (line : Bytes) : expected ledger.wire line = (parseRequest line).isOk := by
      rw [expected, if_pos listed]
      cases headers : ledger.wire.received with
      | nil => exact absurd headers headed
      | cons header rest => rfl
    apply readReply_checked
    · intro reached message rough
      exact rough
    · intro line message rejected
      rw [judged, rejected]
      rfl
    · intro reached line request read accepted
      obtain ⟨smooth, seen, wired⟩ := read
      rw [judged, accepted] at smooth
      have further := @inductionHypothesis reached (by rw [wired]; exact listed) (by rw [wired]; simp)
      have rest : Program.Complies watchControl reached (do
          let rest ← readRequests count
          return request :: rest : ControlClient.Routine String _).run
          (Runs reached fun _ requests => requests.length = count + 1) := by
        apply runs_bind further
        intro final requests _ _ counted
        exact ⟨rfl, rfl, congrArg (· + 1) counted⟩
      exact rest.weaken fun final outcome runs => runs.since (smooth.trans (Bool.and_true _)) seen

/-- A fetched listing of at most one request keeps the ledger smooth; a longer one
does not. -/
def Fetched (ledger reached : Ledger) : Except String (List (RequestId × String)) → Prop
  | .ok requests => reached.smooth = (ledger.smooth && requests.length ≤ 1) ∧ reached.seen = ledger.seen
  | .error _ => reached.smooth = false

/-- A fetched listing is smooth exactly when it has at most one request. -/
theorem fetchAuthorizationRequests_complies :
    Program.Complies watchControl ledger fetchAuthorizationRequests.run (Fetched ledger) := by
  apply Program.Complies.routine
  apply connectControl_runs.weaken
  intro connected outcome runs
  cases outcome with
  | error message => exact runs
  | ok _ =>
  obtain ⟨smooth, seen, fresh⟩ := runs
  apply Program.continues_ok
  apply Program.Complies.routine
  apply (write_runs _).weaken
  intro asked outcome runs
  cases outcome with
  | error message => exact runs
  | ok _ =>
  obtain ⟨stillSmooth, stillSeen, wired⟩ := runs
  rw [fresh] at wired
  apply Program.continues_ok
  have listed : asked.wire.sent = utf8 "LIST" ++ [10] := by rw [wired]; rfl
  have unheaded : asked.wire.received = [] := by rw [wired]
  have judged (line : Bytes) : expected asked.wire line = unambiguous (parseHeader line) := by
    rw [expected, if_pos listed, unheaded]
  apply readReply_checked
  · intro reached message rough
    exact rough
  · intro line message rejected
    rw [judged, rejected]
    rfl
  · intro headed line count read accepted
    obtain ⟨counts, keeps, appended⟩ := read
    rw [judged, accepted] at counts
    have stillListed : headed.wire.sent = utf8 "LIST" ++ [10] := by
      rw [appended]
      exact listed
    have nowHeaded : headed.wire.received ≠ [] := by
      rw [appended]
      simp
    apply (readRequests_runs count stillListed nowHeaded).weaken
    intro final outcome runs
    cases outcome with
    | error message => exact runs
    | ok requests =>
      obtain ⟨same, kept, counted⟩ := runs
      refine ⟨?_, kept.trans (keeps.trans (stillSeen.trans seen))⟩
      rw [same, counts, stillSmooth, smooth, counted]
      rfl

/-- An authorization is not a listing. -/
theorem authorization_ne_list (rest : Bytes) : utf8 "AUTHORIZE " ++ rest ≠ utf8 "LIST" ++ [10] := by
  intro same
  have first : utf8 "AUTHORIZE " = utf8 "A" ++ utf8 "UTHORIZE " := by decide +kernel
  have other : utf8 "LIST" = utf8 "L" ++ utf8 "IST" := by decide +kernel
  rw [first, other, List.append_assoc, List.append_assoc] at same
  have heads := (List.append_inj same rfl).1
  exact absurd heads (by decide +kernel)

/-- An authorization fails exactly when an answer was not usable. -/
theorem authorizeRequest_runs (id : RequestId) (keyName : String) (secretInput : SecretInput) :
    Program.Complies watchControl ledger (authorizeRequest id keyName secretInput false).run
      (Runs ledger fun _ _ => True) := by
  have asked : Program.Complies watchControl ledger (demand (fun message : String => message)
      (Program.call (Operation.readExistingPin ("SSH signature with key “" ++ keyName ++ "”") secretInput)) :
        ControlClient.Routine String Bytes).run (Runs ledger fun _ _ => True) := by
    refine Program.complies_demand (Program.complies_call fun answer => ⟨_, rfl, ?_⟩)
    cases (answer : Except String Bytes) with
    | ok _ => exact ⟨Bool.and_true _, rfl, trivial⟩
    | error _ => exact Bool.and_false _
  apply runs_bind asked
  intro entered pin _ _ _
  apply runs_bind connectControl_runs
  intro connected _ _ _ fresh
  apply runs_bind (write_runs _)
  intro announced _ _ _ announces
  apply runs_bind (write_runs _)
  intro sent _ _ _ sends
  have flushed : Program.Complies watchControl sent (demand controlIo (Program.call Operation.flush) :
      ControlClient.Routine String Unit).run (Runs sent fun reached _ => reached.wire = sent.wire) := by
    refine Program.complies_demand (Program.complies_call fun answer => ⟨_, rfl, ?_⟩)
    cases (answer : Except IoError Unit) with
    | ok _ => exact ⟨Bool.and_true _, rfl, rfl⟩
    | error _ => exact Bool.and_false _
  apply runs_bind flushed
  intro waiting _ _ _ same
  have judged (line : Bytes) : expected waiting.wire line = (line = utf8 "OK authorized" : Bool) := by
    have other : waiting.wire.sent ≠ utf8 "LIST" ++ [10] := by
      rw [same, sends, announces, fresh]
      simpa using authorization_ne_list _
    rw [expected, if_neg other]
  apply readReply_checked
  · intro reached message rough
    exact rough
  · intro line message rejected
    rw [judged, decide_eq_false_iff_not]
    intro confirmed
    rw [checkReply, if_pos confirmed] at rejected
    cases rejected
  · intro reached line _ read accepted
    have confirmed : line = utf8 "OK authorized" := by
      unfold checkReply at accepted
      split at accepted
      · assumption
      · cases accepted
    refine ⟨?_, read.2.1, trivial⟩
    rw [read.1, judged, decide_eq_true confirmed, Bool.and_true]

end

section

variable {α : Type} {ledger : Ledger}

/-- The control client runs as a part of the wrapper as it does alone. -/
theorem control_complies {routine : ControlClient.Routine String α} {post : Ledger → Except String α → Prop}
    (complies : Program.Complies watchControl ledger routine.run post) :
    Program.Complies watch ledger (control routine).run post := by
  have agrees (state : Ledger) (operation : ControlClient.Operation) (answer : ControlClient.Answer operation) :
      watch state ⟨.control operation, answer⟩ = watchControl state ⟨operation, answer⟩ := rfl
  exact complies.translate agrees

/-- Without a socket the listing is empty and the ledger as before; otherwise it is what the
control client fetches. -/
theorem fetchIfRunning_complies :
    Program.Complies watch ledger fetchAuthorizationRequestsIfRunning.run (Fetched ledger) := by
  apply Program.Complies.routine
  refine Program.complies_demand (Program.complies_call fun answer => ⟨_, rfl, ?_⟩)
  cases (answer : Except String Unit) with
  | error message => exact Bool.and_false _
  | ok _ =>
  apply Program.continues_ok
  apply Program.Complies.routine
  refine Program.complies_observed (Program.complies_call fun metadata => ⟨_, rfl, Program.continues_ok ?_⟩)
  apply Program.Complies.routine
  apply Program.complies_check
  cases found : socketPresent metadata with
  | error message =>
    show (_ && (socketPresent metadata).isOk) = false
    rw [found]
    exact Bool.and_false _
  | ok present =>
  apply Program.continues_ok
  cases present with
  | true =>
    apply (control_complies fetchAuthorizationRequests_complies).weaken
    intro reached outcome fetched
    cases outcome with
    | error message => exact fetched
    | ok requests =>
      refine ⟨?_, fetched.2⟩
      rw [fetched.1]
      show (((ledger.smooth && true) && (socketPresent metadata).isOk) && _) = _
      rw [found, Bool.and_true]
      exact congrArg (· && _) (Bool.and_true _)
  | false =>
    refine ⟨?_, rfl⟩
    show ((ledger.smooth && true) && (socketPresent metadata).isOk) = _
    rw [found, Bool.and_true]
    rfl

/-- More than one request is refused, and that is when the listing was not usable. -/
theorem authorizeSingle_runs (requests : List (RequestId × String))
    (smooth : ledger.smooth = decide (requests.length ≤ 1)) :
    Program.Complies watch ledger (authorizeSingle requests).run
      (Runs ledger fun reached _ => reached.smooth = true) := by
  rcases requests with _ | ⟨⟨id, keyName⟩, _ | ⟨second, rest⟩⟩
  · exact ⟨rfl, rfl, smooth⟩
  · apply (control_complies (authorizeRequest_runs id keyName .terminal)).weaken
    intro reached outcome runs
    cases outcome with
    | error message => exact runs
    | ok _ => exact ⟨runs.1, runs.2.1, runs.1.trans smooth⟩
  · show ledger.smooth = false
    rw [smooth]
    simp

/-- How a round ends: with the status that was reported, or with an error if some
answer was not usable. -/
def Round (reached : Ledger) : Except String (Option ExitStatus) → Prop
  | .ok status => reached.smooth = true ∧ status = reached.seen
  | .error _ => reached.smooth = false

/-- Listing the requests and authorizing the only one ends as a round does. -/
theorem authorizePending_complies (smooth : ledger.smooth = true) (unseen : ledger.seen = none) :
    Program.Complies watch ledger authorizePending.run Round := by
  apply Program.Complies.routine
  apply fetchIfRunning_complies.weaken
  intro fetched outcome listed
  cases outcome with
  | error message => exact listed
  | ok requests =>
  obtain ⟨few, same⟩ := listed
  rw [smooth, Bool.true_and] at few
  apply Program.continues_ok
  apply Program.Complies.routine
  apply (authorizeSingle_runs requests few).weaken
  intro reached outcome runs
  cases outcome with
  | error message => exact runs
  | ok _ =>
  apply Program.continues_ok
  apply Program.Complies.routine
  refine Program.complies_observed (Program.complies_call fun _ => ⟨_, rfl, Program.continues_ok ?_⟩)
  refine ⟨?_, ((runs.2.1.trans same).trans unseen).symm⟩
  rw [runs.2.2]
  rfl

/-- The signal forwarding changes nothing that a round depends on. -/
theorem forward_complies (child : UInt32) :
    Program.Complies watch ledger (forward child) fun reached _ => reached = ledger := by
  have unchanged : (⟨ledger.wire, ledger.smooth && true, ledger.seen⟩ : Ledger) = ledger := by
    rw [Bool.and_true]
  have issues : (forward child).Issues fun operation => ∀ answer, watch ledger ⟨operation, answer⟩ = some ledger :=
    forward_issues (fun _ _ => congrArg some unchanged) (fun _ _ _ => congrArg some unchanged) child
  exact issues.complies fun _ answer ignored => ignored answer

/-- A round ends with the status that was reported, or with an error if some answer was not
usable. -/
theorem superviseRound_complies (child : UInt32) (smooth : ledger.smooth = true) :
    Program.Complies watch ledger (superviseRound child).run Round := by
  apply Program.Complies.routine
  apply Program.complies_observed
  apply (forward_complies child).weaken
  rintro _ _ rfl
  apply Program.continues_ok
  apply Program.Complies.routine
  refine Program.complies_demand (Program.complies_call fun answer => ⟨_, rfl, ?_⟩)
  rcases (answer : Except IoError (Option ExitStatus)) with error | _ | status
  · exact Bool.and_false _
  · exact Program.continues_ok (authorizePending_complies ((Bool.and_true _).trans smooth) rfl)
  · exact ⟨(Bool.and_true _).trans smooth, rfl⟩

end

/-! ## Starting -/

/-- The exchange brought the child into being. -/
def spawned : Program.Exchange Operation Answer → Bool
  | ⟨.spawn _, answer⟩ => (answer : Except IoError UInt32).isOk
  | _ => false

/-- Whether there is a child. Nothing is asked after it was spawned. -/
def births (born : Bool) (exchange : Program.Exchange Operation Answer) : Option Bool :=
  if born then none else some (spawned exchange)

/-- The operations other than the spawning of the child. -/
def childless : Operation → Prop
  | .spawn _ => False
  | _ => True

/-- Nothing but a spawn gives birth to a child. -/
theorem births_childless (operation : Operation) (answer : Answer operation) (other : childless operation) :
    births false ⟨operation, answer⟩ = some false := by
  cases operation with
  | spawn command => exact other.elim
  | _ => rfl

/-- Listing the requests leaves the child alone. -/
theorem fetchIfRunning_childless : fetchAuthorizationRequestsIfRunning.run.Issues childless :=
  fetchIfRunning_issues trivial trivial (Program.issues_any _)

/-- The wrapper starts to supervise exactly when the child was spawned. -/
theorem startChild_complies (arguments : List Bytes) :
    Program.Complies births false (startChild arguments).run fun born outcome => born = outcome.isOk := by
  apply Program.Complies.routine
  apply Program.complies_check
  cases parseCommand arguments with
  | error message => exact rfl
  | ok command =>
  apply Program.continues_ok
  apply Program.Complies.routine
  apply (fetchIfRunning_childless.complies births_childless).weaken
  rintro _ (message | requests) rfl
  · exact rfl
  apply Program.continues_ok
  apply Program.Complies.routine
  apply Program.complies_check
  cases checkIdle requests with
  | error message => exact rfl
  | ok _ =>
  apply Program.continues_ok
  apply Program.Complies.routine
  have registers : (installSignals forwardedSignals).run.Issues childless := installSignals_issues (fun _ => trivial) _
  apply (registers.complies births_childless).weaken
  rintro _ (message | _) rfl
  · exact rfl
  apply Program.continues_ok
  refine Program.complies_demand (Program.complies_call fun answer => ⟨_, rfl, ?_⟩)
  cases (answer : Except IoError UInt32) <;> exact rfl

/-! ## Steps -/

/-- What an answered question changes beside the progress. -/
def State.answered (state : State) (progress : Progress) (exchange : Program.Exchange Operation Answer) : State :=
  ⟨progress, state.child.after exchange, state.signalled || state.progress.signals exchange.1,
    state.wire.after exchange⟩

/-- Where an answer leads, one case for each part of the wrapper. -/
inductive Leads (reply : (operation : Operation) → Option (Answer operation)) :
    Progress → Program.Exchange Operation Answer → Progress → Prop where
  | start {operation : Operation} {next : Answer operation → Action (Except String UInt32)}
      {answer : Answer operation} (given : reply operation = some answer) :
      Leads reply (.starting (.ask operation next)) ⟨operation, answer⟩ (Progress.starting (next answer)).settle
  | supervise {child : UInt32} {operation : Operation}
      {next : Answer operation → Action (Except String (Option ExitStatus))} {answer : Answer operation}
      (given : reply operation = some answer) :
      Leads reply (.supervising child (.ask operation next)) ⟨operation, answer⟩
        (Progress.supervising child (next answer)).settle
  | terminate {child : UInt32} {message : String} {operation : Operation}
      {next : Answer operation → Action Bool} {answer : Answer operation} (given : reply operation = some answer) :
      Leads reply (.terminating child message (.ask operation next)) ⟨operation, answer⟩
        (Progress.terminating child message (next answer)).settle

/-- An answered question leads one exchange further. -/
theorem leads_of_answered {reply : (operation : Operation) → Option (Answer operation)} {progress after : Progress}
    {exchange : Program.Exchange Operation Answer} (answered : progress.answered reply = some (exchange, after)) :
    Leads reply progress exchange after := by
  unfold Progress.answered at answered
  split at answered
  · obtain ⟨answer, given, same⟩ := Option.map_eq_some_iff.mp answered
    cases same
    exact .start given
  · obtain ⟨answer, given, same⟩ := Option.map_eq_some_iff.mp answered
    cases same
    exact .supervise given
  · obtain ⟨answer, given, same⟩ := Option.map_eq_some_iff.mp answered
    cases same
    exact .terminate given
  · cases answered

/-- What a step can do, one case for each part of the wrapper and one for the child. -/
inductive Takes (state : State) : Event → State → Prop where
  | start {environment : (operation : Operation) → Answer operation} {operation : Operation}
      {next : Answer operation → Action (Except String UInt32)} {answer : Answer operation}
      (asks : state.progress = .starting (.ask operation next))
      (given : answerTo state.child environment operation = some answer) :
      Takes state (.answer environment)
        (state.answered (Progress.starting (next answer)).settle ⟨operation, answer⟩)
  | supervise {environment : (operation : Operation) → Answer operation} {child : UInt32} {operation : Operation}
      {next : Answer operation → Action (Except String (Option ExitStatus))} {answer : Answer operation}
      (asks : state.progress = .supervising child (.ask operation next))
      (given : answerTo state.child environment operation = some answer) :
      Takes state (.answer environment)
        (state.answered (Progress.supervising child (next answer)).settle ⟨operation, answer⟩)
  | terminate {environment : (operation : Operation) → Answer operation} {child : UInt32} {message : String}
      {operation : Operation} {next : Answer operation → Action Bool} {answer : Answer operation}
      (asks : state.progress = .terminating child message (.ask operation next))
      (given : answerTo state.child environment operation = some answer) :
      Takes state (.answer environment)
        (state.answered (Progress.terminating child message (next answer)).settle ⟨operation, answer⟩)
  | exit (status : ExitStatus) (runs : state.child = .running) :
      Takes state (.exit status) { state with child := .exited status (!state.signalled) }

/-- Every enabled step is one of the kinds of steps. -/
theorem takes_of_step {state next : State} {event : Event} (taken : step state event = some next) :
    Takes state event next := by
  cases event with
  | exit status =>
    simp only [step] at taken
    split at taken
    · rename_i runs
      cases taken
      exact .exit status runs
    · cases taken
  | answer environment =>
    obtain ⟨⟨exchange, progress⟩, answered, taken⟩ := Option.bind_eq_some_iff.mp taken
    cases taken
    show Takes state (.answer environment) (state.answered progress exchange)
    generalize asks : state.progress = before at answered
    cases leads_of_answered answered with
    | start given => exact .start asks given
    | supervise given => exact .supervise asks given
    | terminate given => exact .terminate asks given

/-- An exchange that is watched finds no child, and spawns it or not. -/
theorem after_of_births {child : Child} {exchange : Program.Exchange Operation Answer} {born : Bool}
    (watched : births (decide (child ≠ .unborn)) exchange = some born) :
    child = .unborn ∧ decide (child.after exchange ≠ .unborn) = born := by
  by_cases absent : child = .unborn
  · subst absent
    obtain ⟨operation, answer⟩ := exchange
    cases watched
    refine ⟨rfl, ?_⟩
    cases operation with
    | spawn command => cases (answer : Except IoError UInt32) <;> rfl
    | _ => rfl
  · rw [decide_eq_true absent] at watched
    cases watched

/-- Nothing but the spawning of a child changes it. -/
theorem after_of_not_spawned {child : Child} {operation : Operation} {answer : Answer operation}
    (other : childless operation) : child.after ⟨operation, answer⟩ = child := by
  cases operation with
  | spawn command => exact other.elim
  | _ => rfl

/-- What a round was told about the child is true of it. -/
theorem reported_status {child : Child} {environment : (operation : Operation) → Answer operation}
    {operation : Operation} {answer : Answer operation}
    (given : answerTo child environment operation = some answer) {seen : Option ExitStatus}
    (truthful : ∀ status, seen = some status → child.status = some status) (status : ExitStatus)
    (reports : reported seen ⟨operation, answer⟩ = some status) : child.status = some status := by
  cases operation with
  | tryWait =>
    simp only [answerTo] at given
    split at given
    · cases given
      exact reports
    · cases given
      exact truthful status reports
  | _ => exact truthful status reports

/-- A round spawns no child. -/
theorem superviseRound_childless (child : UInt32) : (superviseRound child).run.Issues childless := by
  apply Program.Issues.routine
  · exact Program.issues_observed (forward_issues (fun _ => trivial) (fun _ _ => trivial) child)
  intro _
  apply Program.Issues.routine
  · exact Program.issues_adapt _ (Program.issues_call trivial)
  intro status
  cases status with
  | some status => trivial
  | none =>
    apply Program.Issues.routine fetchIfRunning_childless
    intro requests
    apply Program.Issues.routine
    · rcases requests with _ | ⟨⟨id, keyName⟩, _ | ⟨second, rest⟩⟩
      · trivial
      · exact Program.issues_translate (fun _ => trivial) _
      · trivial
    intro _
    apply Program.Issues.routine
    · exact Program.issues_observed (Program.issues_call trivial)
    · exact fun _ => trivial

/-- A round that has come so far keeps to the ledger with the given mark. What it has
been told about the child is true. -/
structure Watched (child : Child) (wire : Wire) (smooth : Bool)
    (program : Action (Except String (Option ExitStatus))) : Prop where
  childless : program.Issues childless
  complies : ∃ seen, (∀ status, seen = some status → child.status = some status) ∧
    Program.Complies watch ⟨wire, smooth, seen⟩ program Round

/-- Every answer so far was usable. -/
def Good (child : Child) (wire : Wire) : Progress → Prop
  | .starting program =>
    Program.Complies births (decide (child ≠ .unborn)) program fun born outcome => born = outcome.isOk
  | .supervising _ program => child ≠ .unborn ∧ Watched child wire true program
  | .terminating _ _ _ => False
  | .ended (.ok status) => child.status = some status
  | .ended (.error _) => child = .unborn

/-- Some answer was not usable. -/
def Doomed (child : Child) (wire : Wire) : Progress → Prop
  | .starting _ => False
  | .supervising _ program => Watched child wire false program
  | .terminating _ _ _ => True
  | .ended result => ∃ message, result = .error message

section

variable {child : Child} {wire : Wire}

/-- A round watches its child, whatever the child does meanwhile. -/
theorem watched_round (identifier : UInt32) : Watched child wire true (superviseRound identifier).run :=
  ⟨superviseRound_childless identifier, none, fun _ impossible => (by cases impossible),
    superviseRound_complies identifier rfl⟩

/-- A round goes on with the next answer. -/
theorem Watched.next {smooth : Bool} {operation : Operation}
    {continuation : Answer operation → Action (Except String (Option ExitStatus))}
    (watched : Watched child wire smooth (.ask operation continuation))
    {environment : (operation : Operation) → Answer operation} {answer : Answer operation}
    (given : answerTo child environment operation = some answer) :
    Watched (child.after ⟨operation, answer⟩) (wire.after ⟨operation, answer⟩)
      (smooth && usable wire ⟨operation, answer⟩) (continuation answer) := by
  obtain ⟨issues, seen, truthful, complies⟩ := watched
  obtain ⟨reached, advanced, continues⟩ := complies answer
  cases advanced
  rw [after_of_not_spawned issues.1]
  exact ⟨issues.2 answer, reported seen ⟨operation, answer⟩, reported_status given truthful, continues⟩

/-- Settling a finished round keeps the progress good. -/
theorem good_settle {progress : Progress} (good : Good child wire progress) : Good child wire progress.settle := by
  cases progress with
  | starting program =>
    cases program with
    | ask operation next => exact good
    | done outcome =>
      have born : decide (child ≠ .unborn) = outcome.isOk := good
      cases outcome with
      | ok identifier => exact ⟨of_decide_eq_true born, watched_round identifier⟩
      | error message =>
        have absent : ¬ child ≠ .unborn := of_decide_eq_false born
        exact not_not.mp absent
  | supervising identifier program =>
    cases program with
    | ask operation next => exact good
    | done outcome =>
      obtain ⟨present, _, seen, truthful, round⟩ := good
      rcases outcome with message | _ | status
      · exact Bool.noConfusion (show true = false from round)
      · exact ⟨present, watched_round identifier⟩
      · exact truthful status round.2.symm
  | terminating identifier message program => exact good.elim
  | ended result => exact good

/-- Settling a finished round keeps the progress doomed. -/
theorem doomed_settle {progress : Progress} (doomed : Doomed child wire progress) :
    Doomed child wire progress.settle := by
  cases progress with
  | starting program => exact doomed.elim
  | supervising identifier program =>
    cases program with
    | ask operation next => exact doomed
    | done outcome =>
      obtain ⟨_, seen, _, round⟩ := doomed
      rcases outcome with message | _ | status
      · trivial
      · exact absurd round.1 Bool.false_ne_true
      · exact absurd round.1 Bool.false_ne_true
  | terminating identifier message program =>
    cases program with
    | ask operation next => trivial
    | done finished =>
      cases finished with
      | false => trivial
      | true => exact ⟨message, rfl⟩
  | ended result => exact doomed

end

section

variable {state next : State} {event : Event}

/-- A watched program stays watched when its child exits. -/
theorem Watched.exit {wire : Wire} {smooth alone : Bool} {program : Action (Except String (Option ExitStatus))}
    (watched : Watched .running wire smooth program) (status : ExitStatus) :
    Watched (.exited status alone) wire smooth program := by
  obtain ⟨issues, seen, truthful, complies⟩ := watched
  refine ⟨issues, seen, fun other told => ?_, complies⟩
  cases truthful other told

/-- Usable answers keep the wrapper in its loop until the child's status was reported. -/
theorem good_step (good : Good state.child state.wire state.progress) (used : Usable state event = true)
    (taken : step state event = some next) : Good next.child next.wire next.progress := by
  cases takes_of_step taken with
  | @start environment operation continuation answer asks given =>
    rw [asks] at good
    obtain ⟨reached, advanced, continues⟩ := good answer
    rw [← (after_of_births advanced).2] at continues
    exact good_settle continues
  | @supervise environment child operation continuation answer asks given =>
    rw [asks] at good
    simp only [Usable, asks, given, Option.all_some] at used
    have further := good.2.next given
    rw [used, Bool.true_and] at further
    have present : state.child.after ⟨operation, answer⟩ ≠ .unborn := by
      rw [after_of_not_spawned good.2.childless.1]
      exact good.1
    exact good_settle ⟨present, further⟩
  | terminate asks given =>
    rw [asks] at good
    exact good.elim
  | exit status runs =>
    obtain ⟨progress, child, signalled, wire⟩ := state
    subst runs
    cases progress with
    | starting program => exact good
    | supervising identifier program => exact ⟨fun absent => (by cases absent), good.2.exit status⟩
    | terminating identifier message program => exact good
    | ended result => cases result <;> cases good

/-- The first answer that is not usable ends the supervision. -/
theorem doomed_of_unusable (good : Good state.child state.wire state.progress) (refused : Usable state event = false)
    (taken : step state event = some next) : Doomed next.child next.wire next.progress := by
  cases takes_of_step taken with
  | @start environment operation continuation answer asks given =>
    simp only [Usable, asks, Bool.true_eq_false] at refused
  | @supervise environment child operation continuation answer asks given =>
    rw [asks] at good
    simp only [Usable, asks, given, Option.all_some] at refused
    have further := good.2.next given
    rw [refused, Bool.and_false] at further
    exact doomed_settle further
  | terminate asks given =>
    rw [asks] at good
    exact good.elim
  | exit status runs => cases refused

/-- A failed supervision is not resumed. -/
theorem doomed_step (doomed : Doomed state.child state.wire state.progress) (taken : step state event = some next) :
    Doomed next.child next.wire next.progress := by
  cases takes_of_step taken with
  | start asks given =>
    rw [asks] at doomed
    exact doomed.elim
  | supervise asks given =>
    rw [asks] at doomed
    exact doomed_settle (doomed.next given)
  | terminate asks given => exact doomed_settle trivial
  | exit status runs =>
    obtain ⟨progress, child, signalled, wire⟩ := state
    subst runs
    cases progress with
    | starting program => exact doomed
    | supervising identifier program => exact doomed.exit status
    | terminating identifier message program => exact doomed
    | ended result => exact doomed

/-- Whether every answer was usable decides between the two. -/
theorem good_or_doomed {events : List Event} (good : Good state.child state.wire state.progress)
    (reached : Transition.run step state events = some next) :
    (Transition.Along step (fun state event => Usable state event = true) state events ∧
        Good next.child next.wire next.progress) ∨
      (¬ Transition.Along step (fun state event => Usable state event = true) state events ∧
        Doomed next.child next.wire next.progress) := by
  induction events generalizing state with
  | nil =>
    cases reached
    exact .inl ⟨trivial, good⟩
  | cons event rest inductionHypothesis =>
    obtain ⟨middle, taken, remaining⟩ := Transition.run_cons.mp reached
    cases used : Usable state event with
    | true =>
      have unique (other : State) (same : step state event = some other) : other = middle :=
        Option.some.inj (same.symm.trans taken)
      rcases inductionHypothesis (good_step good used taken) remaining with ⟨along, kept⟩ | ⟨broken, doomed⟩
      · exact .inl ⟨⟨used, fun other same => unique other same ▸ along⟩, kept⟩
      · exact .inr ⟨fun along => broken (along.2 middle taken), doomed⟩
    | false =>
      refine .inr ⟨fun along => absurd (used.symm.trans along.1) Bool.false_ne_true, ?_⟩
      exact Transition.invariant_run (fun _ _ _ doomed stepped => doomed_step doomed stepped)
        (doomed_of_unusable good used taken) remaining

end

/-- The initial progress is good. -/
theorem good_initial (arguments : List Bytes) :
    Good (initial arguments).child (initial arguments).wire (initial arguments).progress := by
  have starts : Good .unborn ⟨[], []⟩ (.starting (startChild arguments).run) := startChild_complies arguments
  exact good_settle starts

/-! ## The end of the supervision -/

/-- The child's status is reported unless the question fails. -/
def informed (status : ExitStatus) : Program.Exchange Operation Answer → Prop
  | ⟨.tryWait, answer⟩ => ∀ told, (answer : Except IoError (Option ExitStatus)) = .ok told → told = some status
  | _ => True

/-- The last round ends with the child's status unless it fails. -/
def Last (status : ExitStatus) (outcome : Except String (Option ExitStatus)) : Prop :=
  ∀ told, outcome = .ok told → told = some status

section

open ControlClient

variable {given : Program.Exchange ControlClient.Operation ControlClient.Answer → Prop}

/-- Each announced request takes one read. -/
theorem readRequests_completes (count : Nat) :
    Program.Completes given count (readRequests count).run fun _ => True := by
  induction count with
  | zero => trivial
  | succ count inductionHypothesis =>
    refine Program.completes_demanded (fun _ => trivial) (Program.completes_call fun _ _ line _ => ?_)
    refine Program.completes_checked (fun _ => trivial) fun request _ => ?_
    have lines : Program.Completes given count (readRequests count).run fun outcome =>
        ∀ rest, outcome = .ok rest → Program.Completes given 0
          (return request :: rest : ControlClient.Routine String _).run fun _ => True :=
      inductionHypothesis.weaken (Nat.le_refl count) fun _ _ _ _ => trivial
    exact Program.Completes.routine (fun _ => trivial) lines

/-- A header that is accepted announces few requests. -/
theorem parseHeader_le {header : Bytes} {count : Nat} (accepted : parseHeader header = .ok count) :
    count ≤ maxPendingAuthorizations := by
  unfold parseHeader at accepted
  split at accepted
  · cases accepted
  · split at accepted
    · cases accepted
    · split at accepted
      · cases accepted
      · rename_i few
        cases accepted
        exact Nat.le_of_not_lt few

/-- A listing takes at most the connection, its settings, the count and sixteen requests. -/
theorem fetchAuthorizationRequests_completes :
    Program.Completes given 19 fetchAuthorizationRequests.run fun _ => True := by
  refine Program.completes_demanded (fun _ => trivial) (Program.completes_call fun _ _ _ _ => ?_)
  refine Program.completes_demanded (fun _ => trivial) (Program.completes_call fun _ _ _ _ => ?_)
  refine Program.completes_demanded (fun _ => trivial) (Program.completes_call fun _ _ header _ => ?_)
  refine Program.completes_checked (fun _ => trivial) fun count accepted => ?_
  exact (readRequests_completes count).weaken (parseHeader_le accepted) fun _ _ => trivial

/-- An authorization takes at most six questions. -/
theorem authorizeRequest_completes (id : RequestId) (keyName : String) (secretInput : SecretInput) :
    Program.Completes given 6 (authorizeRequest id keyName secretInput false).run fun _ => True := by
  refine Program.completes_demanded (fun _ => trivial) (Program.completes_call fun _ _ pin _ => ?_)
  refine Program.completes_demanded (fun _ => trivial) (Program.completes_call fun _ _ _ _ => ?_)
  refine Program.completes_demanded (fun _ => trivial) (Program.completes_call fun _ _ _ _ => ?_)
  refine Program.completes_demanded (fun _ => trivial) (Program.completes_call fun _ _ _ _ => ?_)
  refine Program.completes_demanded (fun _ => trivial) (Program.completes_call fun _ _ _ _ => ?_)
  refine Program.completes_demanded (fun _ => trivial) (Program.completes_call fun _ _ line _ => ?_)
  exact Program.completes_checked (fun _ => trivial) fun _ _ => trivial

end

section

variable {given : Program.Exchange Operation Answer → Prop}

/-- A routine of the control client takes as many questions within the wrapper. -/
theorem control_completes {α : Type} {questions : Nat} {routine : ControlClient.Routine String α}
    (completes : Program.Completes (fun _ => True) questions routine.run fun _ => True) :
    Program.Completes given questions (control routine).run fun _ => True :=
  completes.translate fun _ _ _ => trivial

/-- A listing with its look at the socket takes at most twenty-one questions. -/
theorem fetchIfRunning_completes :
    Program.Completes given 21 fetchAuthorizationRequestsIfRunning.run fun _ => True := by
  refine Program.completes_demanded (fun _ => trivial) (Program.completes_call fun _ _ _ _ => ?_)
  have inspected : Program.Completes given (1 + 19) (do
      let metadata ← observe .symlinkMetadata
      let present ← socketPresent metadata
      if present then control ControlClient.fetchAuthorizationRequests else return [] :
        Routine String (List (RequestId × String))).run fun _ => True := by
    refine Program.completes_observed (fun _ => trivial) (Program.completes_call fun metadata _ => ?_)
    refine Program.completes_checked (fun _ => trivial) fun present _ => ?_
    cases present with
    | true => exact control_completes fetchAuthorizationRequests_completes
    | false => exact Program.completes_done trivial
  exact inspected

/-- Authorizing the only request takes at most six questions. -/
theorem authorizeSingle_completes (requests : List (RequestId × String)) :
    Program.Completes given 6 (authorizeSingle requests).run fun _ => True := by
  rcases requests with _ | ⟨⟨id, keyName⟩, _ | ⟨second, rest⟩⟩
  · exact Program.completes_done trivial
  · exact control_completes (authorizeRequest_completes id keyName .terminal)
  · exact Program.completes_done trivial

/-- Serving what is pending takes at most twenty-eight questions. -/
theorem authorizePending_completes : Program.Completes given 28 authorizePending.run fun _ => True := by
  have rounds : Program.Completes given (21 + (6 + (1 + 0))) authorizePending.run fun _ => True := by
    refine Program.Completes.routine (fun _ => trivial) ?_
    refine fetchIfRunning_completes.weaken (Nat.le_refl 21) fun _ _ requests _ => ?_
    refine Program.Completes.routine (fun _ => trivial) ?_
    refine (authorizeSingle_completes requests).weaken (Nat.le_refl 6) fun _ _ _ _ => ?_
    exact Program.completes_observed (fun _ => trivial) (Program.completes_call fun _ _ => trivial)
  exact rounds

/-- Forwarding the received signals takes at most eight questions. -/
theorem forward_completes (child : UInt32) : Program.Completes given 8 (forward child) fun _ => True := by
  have each (pid : Nat) (signals : List Signal) :
      Program.Completes given (2 * signals.length) (forwardSignals pid signals) fun _ => True := by
    induction signals with
    | nil => trivial
    | cons signal rest inductionHypothesis =>
      rw [List.length_cons, Nat.mul_succ, Nat.add_comm]
      apply Program.Completes.bind
      intro pending _
      cases (pending : Bool) with
      | false => exact inductionHypothesis
      | true => exact fun _ _ => inductionHypothesis
  unfold forward
  cases pidFromRaw child with
  | none => exact Program.completes_done trivial
  | some pid => exact each pid forwardedSignals

/-- A round asks at most this many questions. -/
def roundQuestions : Nat := 37

/-- Every round asks a bounded number of questions. -/
theorem superviseRound_completes (child : UInt32) :
    Program.Completes given roundQuestions (superviseRound child).run fun _ => True := by
  have round : Program.Completes given (8 + 29) (superviseRound child).run fun _ => True := by
    refine Program.completes_observed (fun _ => trivial) ?_
    refine (forward_completes child).weaken (Nat.le_refl 8) fun _ _ => ?_
    refine Program.completes_demanded (fun _ => trivial) (Program.completes_call fun _ _ status _ => ?_)
    cases status with
    | some status => exact Program.completes_done trivial
    | none => exact authorizePending_completes
  exact round

/-- A round that begins after the child has ended looks at nothing else. -/
theorem lastRound_completes (child : UInt32) (status : ExitStatus) :
    Program.Completes (informed status) 9 (superviseRound child).run (Last status) := by
  have fails (error : String) : Last status (.error error) := fun _ impossible => by cases impossible
  have round : Program.Completes (informed status) (8 + 1) (superviseRound child).run (Last status) := by
    refine Program.completes_observed fails ?_
    refine (forward_completes child).weaken (Nat.le_refl 8) fun _ _ => ?_
    refine Program.completes_demanded fails (Program.completes_call fun answer reports told ended => ?_)
    cases reports told ended
    exact fun _ same => (by cases same; rfl)
  exact round

end

/-- The wrapper has ended or asks at most `questions` more: those of its last round, or
those left of an earlier round and then those of the last. -/
def Near (status : ExitStatus) (questions : Nat) : Progress → Prop
  | .starting _ => False
  | .supervising _ program =>
    Program.Completes (informed status) questions program (Last status) ∨
      ∃ left, left + 9 ≤ questions ∧ Program.Completes (fun _ => True) left program fun _ => True
  | .terminating _ _ _ => False
  | .ended _ => True

/-- Every round is short. -/
def Short : Progress → Prop
  | .supervising _ program => Program.Completes (fun _ => True) roundQuestions program fun _ => True
  | _ => True

/-- The wrapper has an open question unless it has ended. -/
def Progress.open : Progress → Prop
  | .starting program => program.finished = false
  | .supervising _ program => program.finished = false
  | .terminating _ _ program => program.finished = false
  | .ended _ => True

/-- A round begins with a question. -/
theorem superviseRound_open (child : UInt32) : (superviseRound child).run.finished = false := by
  unfold superviseRound forward
  cases pidFromRaw child <;> rfl

/-- Settled progress waits for an answer or has ended. -/
theorem open_settle (progress : Progress) : progress.settle.open := by
  cases progress with
  | starting program =>
    rcases program with (message | child) | ⟨operation, next⟩
    · trivial
    · exact superviseRound_open child
    · rfl
  | supervising child program =>
    rcases program with (message | _ | status) | ⟨operation, next⟩
    · show (terminateChild child).finished = false
      unfold terminateChild
      cases pidFromRaw child <;> rfl
    · exact superviseRound_open child
    · trivial
    · rfl
  | terminating child message program =>
    rcases program with (_ | _) | ⟨operation, next⟩
    · rfl
    · trivial
    · rfl
  | ended result => trivial

section

variable {state next : State} {event : Event} {status : ExitStatus}

/-- Every step leaves the progress waiting for an answer or ended. -/
theorem open_step (taken : step state event = some next) (waits : state.progress.open) : next.progress.open := by
  cases takes_of_step taken with
  | start asks given => exact open_settle _
  | supervise asks given => exact open_settle _
  | terminate asks given => exact open_settle _
  | exit status runs => exact waits

/-- Settling begins a round that is again short. -/
theorem short_settle {progress : Progress} (short : Short progress) : Short progress.settle := by
  cases progress with
  | starting program =>
    rcases program with (message | child) | ⟨operation, next⟩
    · trivial
    · exact superviseRound_completes child
    · trivial
  | supervising child program =>
    rcases program with (message | _ | status) | ⟨operation, next⟩
    · trivial
    · exact superviseRound_completes child
    · trivial
    · exact short
  | terminating child message program =>
    rcases program with (_ | _) | ⟨operation, next⟩
    · trivial
    · trivial
    · trivial
  | ended result => trivial

/-- Every step leaves the round short. -/
theorem short_step (taken : step state event = some next) (short : Short state.progress) : Short next.progress := by
  cases takes_of_step taken with
  | start asks given => exact short_settle trivial
  | @supervise environment child operation continuation answer asks given =>
    rw [asks] at short
    obtain ⟨fewer, counted, completes⟩ := Program.Completes.next short answer trivial
    exact short_settle (completes.weaken (by omega) fun _ _ => trivial)
  | terminate asks given => exact short_settle trivial
  | exit status runs => exact short

/-- A round that is over is followed by the last one, or was the last. -/
theorem near_settle {child : Child} {wire : Wire} {questions : Nat} {progress : Progress}
    (good : Good child wire progress) (near : Near status questions progress) :
    Near status questions progress.settle := by
  cases progress with
  | starting program => exact near.elim
  | terminating child message program => exact near.elim
  | ended result => trivial
  | supervising child program =>
    cases program with
    | ask operation next => exact near
    | done outcome =>
      rcases outcome with message | _ | told
      · obtain ⟨_, _, seen, _, round⟩ := good
        exact Bool.noConfusion (show true = false from round)
      · rcases near with last | ⟨left, enough, _⟩
        · have told : Last status (.ok none) := by cases questions <;> exact last
          cases told none rfl
        · refine .inl ((lastRound_completes child status).weaken ?_ fun _ last => last)
          omega
      · trivial

/-- What is asked about a child that has ended is answered with its status. -/
theorem informed_of_ended {child : Child} {environment : (operation : Operation) → Answer operation}
    {operation : Operation} {answer : Answer operation} (ended : child.status = some status)
    (given : answerTo child environment operation = some answer) : informed status ⟨operation, answer⟩ := by
  cases operation with
  | tryWait =>
    intro told same
    simp only [answerTo, ended] at given
    split at given
    · cases given
      cases same
      rfl
    · cases given
      cases same
  | _ => trivial

/-- Every question is answered once the child has ended. -/
theorem answerTo_of_ended {child : Child} (environment : (operation : Operation) → Answer operation)
    (ended : child.status = some status) (operation : Operation) :
    ∃ answer, answerTo child environment operation = some answer := by
  cases operation with
  | tryWait =>
    simp only [answerTo]
    split
    · exact ⟨_, rfl⟩
    · exact ⟨_, rfl⟩
  | wait =>
    simp only [answerTo, ended]
    split
    · exact ⟨_, rfl⟩
    · exact ⟨_, rfl⟩
  | _ => exact ⟨_, rfl⟩

/-- After the child has ended, every usable answer brings the wrapper closer to its end. -/
theorem near_step {questions : Nat} (environment : (operation : Operation) → Answer operation)
    (good : Good state.child state.wire state.progress) (waits : state.progress.open)
    (ended : state.child.status = some status) (near : Near status questions state.progress)
    (running : ∀ result, state.progress ≠ .ended result)
    (used : Usable state (.answer environment) = true) :
    ∃ next fewer, questions = fewer + 1 ∧ step state (.answer environment) = some next ∧
      next.child.status = some status ∧ Near status fewer next.progress := by
  obtain ⟨progress, child, signalled, wire⟩ := state
  cases progress with
  | starting program => exact near.elim
  | terminating identifier message program => exact near.elim
  | ended result => exact absurd rfl (running result)
  | supervising identifier program =>
    cases program with
    | done outcome => cases waits
    | ask operation continuation =>
      obtain ⟨answer, given⟩ := answerTo_of_ended environment ended operation
      have taken : step ⟨.supervising identifier (.ask operation continuation), child, signalled, wire⟩
          (.answer environment) = some (State.answered
            ⟨.supervising identifier (.ask operation continuation), child, signalled, wire⟩
            (Progress.supervising identifier (continuation answer)).settle ⟨operation, answer⟩) := by
        simp only [step, Progress.answered, given]
        rfl
      have same : child.after ⟨operation, answer⟩ = child := after_of_not_spawned good.2.childless.1
      have kept : Good (child.after ⟨operation, answer⟩) (wire.after ⟨operation, answer⟩)
          (.supervising identifier (continuation answer)) := by
        simp only [Usable, given, Option.all_some] at used
        have further := good.2.next given
        rw [used, Bool.true_and] at further
        refine ⟨?_, further⟩
        rw [same]
        exact good.1
      have alive : (child.after ⟨operation, answer⟩).status = some status := by
        rw [same]
        exact ended
      rcases near with last | ⟨left, enough, completes⟩
      · obtain ⟨fewer, counted, rest⟩ := last.next answer (informed_of_ended ended given)
        exact ⟨_, fewer, counted, taken, alive, near_settle kept (.inl rest)⟩
      · obtain ⟨fewer, counted, rest⟩ := completes.next answer trivial
        refine ⟨_, questions - 1, by omega, taken, alive, near_settle kept (.inr ⟨fewer, by omega, rest⟩)⟩

/-- A wrapper that may ask nothing more has ended. -/
theorem ended_of_near_zero {progress : Progress} (waits : progress.open) (near : Near status 0 progress) :
    ∃ result, progress = .ended result := by
  cases progress with
  | starting program => exact near.elim
  | terminating identifier message program => exact near.elim
  | ended result => exact ⟨result, rfl⟩
  | supervising identifier program =>
    cases program with
    | done outcome => cases waits
    | ask operation continuation =>
      rcases near with impossible | ⟨left, enough, _⟩
      · exact impossible.elim
      · omega

/-- A wrapper that has ended after usable answers has the status of its child. -/
theorem result_of_good {result : Except String ExitStatus} (good : Good state.child state.wire state.progress)
    (finished : state.progress = .ended result) (ended : state.child.status = some status) :
    result = .ok status := by
  rw [finished] at good
  cases result with
  | ok told => rw [Option.some.inj (ended.symm.trans good)]
  | error message =>
    rw [show state.child = .unborn from good] at ended
    cases ended

/-- After the child has ended, enough usable answers bring the wrapper to its end. -/
theorem ended_of_near {questions : Nat} (environments : List ((operation : Operation) → Answer operation))
    (enough : questions ≤ environments.length) (good : Good state.child state.wire state.progress)
    (waits : state.progress.open) (ended : state.child.status = some status)
    (near : Near status questions state.progress)
    (along : Transition.Along step (fun state event => Usable state event = true) state
      (environments.map Event.answer)) :
    ∃ count final, Transition.run step state ((environments.take count).map Event.answer) = some final ∧
      final.progress = .ended (.ok status) := by
  induction environments generalizing state questions with
  | nil =>
    obtain rfl := Nat.le_zero.mp enough
    obtain ⟨result, finished⟩ := ended_of_near_zero waits near
    refine ⟨0, state, rfl, ?_⟩
    rw [finished, result_of_good good finished ended]
  | cons environment rest inductionHypothesis =>
    by_cases finished : ∃ result, state.progress = .ended result
    · obtain ⟨result, finished⟩ := finished
      refine ⟨0, state, rfl, ?_⟩
      rw [finished, result_of_good good finished ended]
    · have running (result : Except String ExitStatus) : state.progress ≠ .ended result :=
        fun same => finished ⟨result, same⟩
      obtain ⟨next, fewer, rfl, taken, still, closer⟩ := near_step environment good waits ended near running along.1
      obtain ⟨count, final, reached, ends⟩ := inductionHypothesis (Nat.le_of_succ_le_succ enough)
        (good_step good along.1 taken) (open_step taken waits) still closer (along.2 next taken)
      exact ⟨count + 1, final, Transition.run_cons.mpr ⟨next, taken, reached⟩, ends⟩

end

/-- The number of answers within which the wrapper notices that its child has ended. -/
def noticed : Nat := roundQuestions + 9

/-- A wrapper whose child has ended is past its start and within a round of its end. -/
theorem near_of_good {state : State} {status : ExitStatus} (good : Good state.child state.wire state.progress)
    (waits : state.progress.open) (short : Short state.progress) (ended : state.child.status = some status)
    (environment : (operation : Operation) → Answer operation) : Near status noticed state.progress := by
  obtain ⟨progress, child, signalled, wire⟩ := state
  cases progress with
  | starting program =>
    cases program with
    | done outcome => cases waits
    | ask operation continuation =>
      obtain ⟨reached, watched, _⟩ := good (environment operation)
      obtain ⟨rfl, _⟩ := after_of_births watched
      cases ended
  | supervising identifier program => exact .inr ⟨roundQuestions, Nat.le_refl _, short⟩
  | terminating identifier message program => exact good
  | ended result => trivial

/-- In every run the progress waits for an answer or has ended, and its round is short. -/
theorem open_and_short (arguments : List Bytes) {events : List Event} {state : State}
    (reached : Transition.run step (initial arguments) events = some state) :
    state.progress.open ∧ Short state.progress := by
  let kept (state : State) : Prop := state.progress.open ∧ Short state.progress
  have holds : kept (initial arguments) := by
    have starts : Short (.starting (startChild arguments).run) := trivial
    exact ⟨open_settle _, short_settle starts⟩
  have preserved (state : State) (event : Event) (next : State) (before : kept state)
      (taken : step state event = some next) : kept next :=
    ⟨open_step taken before.1, short_step taken before.2⟩
  exact Transition.invariant_run preserved holds reached

/-! ## The exit status -/

/-- The status of a child that ended by itself is the wrapper's exit status exactly in
the runs in which every answer that the wrapper received while supervising was usable:
`try_wait` worked, the control socket was missing or could be inspected, connected,
written and read, listings were well formed and had at most one request, the PIN was
entered and the authorization confirmed. In any other run the wrapper exits with 1,
which is right only by coincidence. After the child's end a bounded number of usable
answers brings the wrapper to its own. -/
theorem exit_status_is_the_childs (arguments : List Bytes) {events : List Event} {state : State}
    {status : ExitStatus} (reached : Transition.run step (initial arguments) events = some state)
    (alone : state.child = .exited status true) :
    (∀ result, state.progress = .ended result →
      (exitCode result = exitStatusCode status ↔
        Transition.Along step (fun state event => Usable state event = true) (initial arguments) events ∨
          exitStatusCode status = 1)) ∧
    (Transition.Along step (fun state event => Usable state event = true) (initial arguments) events →
      ∀ environments : List ((operation : Operation) → Answer operation), noticed ≤ environments.length →
        Transition.Along step (fun state event => Usable state event = true) state
          (environments.map Event.answer) →
        ∃ count final, Transition.run step state ((environments.take count).map Event.answer) = some final ∧
          final.progress = .ended (.ok status)) := by
  have ended : state.child.status = some status := by rw [alone]; rfl
  constructor
  · intro result finished
    rcases good_or_doomed (good_initial arguments) reached with ⟨along, good⟩ | ⟨broken, doomed⟩
    · rw [result_of_good good finished ended]
      exact ⟨fun _ => .inl along, fun _ => rfl⟩
    · rw [finished] at doomed
      obtain ⟨message, rfl⟩ := doomed
      constructor
      · exact fun same => .inr same.symm
      · rintro (along | coincidence)
        · exact absurd along broken
        · exact coincidence.symm
  · intro along environments enough further
    have good : Good state.child state.wire state.progress := by
      rcases good_or_doomed (good_initial arguments) reached with ⟨_, good⟩ | ⟨broken, _⟩
      · exact good
      · exact absurd along broken
    obtain ⟨waits, short⟩ := open_and_short arguments reached
    obtain ⟨environment, present⟩ := List.exists_mem_of_length_pos (Nat.lt_of_lt_of_le (by decide) enough)
    exact ended_of_near environments enough good waits ended (near_of_good good waits short ended environment) further

namespace Sample

def arguments : List Bytes := [utf8 "--", utf8 "true"]

/-- Nothing fails, and there is no control socket. -/
def calm : (operation : Operation) → Answer operation
  | .controlSocketPath => (.ok () : Except String Unit)
  | .symlinkMetadata => (.error IoError.noSuchFile : Except IoError Unit)
  | .control .connectControl => (.ok () : Except String Unit)
  | .control (.write _) => (.ok () : Except IoError Unit)
  | .control .flush => (.ok () : Except IoError Unit)
  | .control .readControlLine => (.ok [] : Except String Bytes)
  | .control (.readExistingPin _ _) => (.ok [] : Except String Bytes)
  | .control (.println _) => ()
  | .register _ => (.ok () : Except IoError Unit)
  | .spawn _ => (.ok 4711 : Except IoError UInt32)
  | .swapPending _ => false
  | .killProcess _ _ => (.ok () : Except IoError Unit)
  | .tryWait => (.ok none : Except IoError (Option ExitStatus))
  | .sleep _ => ()
  | .beforeDeadline => true
  | .kill => (.ok () : Except IoError Unit)
  | .wait => (.ok (.exited 0) : Except IoError ExitStatus)

/-- The control socket is there, but nobody listens behind it any more. -/
def deserted : (operation : Operation) → Answer operation
  | .symlinkMetadata => (.ok () : Except IoError Unit)
  | .control .connectControl =>
    (.error "cannot connect to the agent control socket: Connection refused (os error 111)" : Except String Unit)
  | operation => calm operation

/-- The command is started and found running. -/
def started : List Event := List.replicate 12 (.answer calm)

/-- It ends, and the wrapper finishes its round and looks again. -/
def ordinary : List Event := started ++ .exit (.exited 23) :: List.replicate 8 (.answer calm)

/-- It ends while the agent is going away. -/
def abandoned : List Event := started ++ .exit (.exited 0) :: List.replicate 6 (.answer deserted)

end Sample

/-- A run whose child exits with 23 between two rounds ends with that status. -/
theorem ordinary_run_keeps_the_status : ∃ state,
    Transition.run step (initial Sample.arguments) Sample.ordinary = some state ∧
      state.child = .exited (.exited 23) true ∧ state.progress = .ended (.ok (.exited 23)) ∧
      exitCode (.ok (.exited 23)) = 23 := by
  have reached : ∃ state, Transition.run step (initial Sample.arguments) Sample.ordinary = some state ∧
      state.child = .exited (.exited 23) true ∧ state.progress = .ended (.ok (.exited 23)) :=
    ⟨_, rfl, rfl, rfl⟩
  obtain ⟨state, ran, alone, finished⟩ := reached
  have along : Transition.Along step (fun state event => Usable state event = true) (initial Sample.arguments)
      Sample.ordinary := by decide +kernel
  refine ⟨state, ran, alone, finished, ?_⟩
  exact ((exit_status_is_the_childs Sample.arguments ran alone).1 _ finished).mpr (.inl along)

/-- A command that succeeded is reported as failed when the control socket stops
answering between the wrapper's last look at the child and its next. -/
theorem abandoned_run_loses_the_status : ∃ state result,
    Transition.run step (initial Sample.arguments) Sample.abandoned = some state ∧
      state.child = .exited (.exited 0) true ∧ state.progress = .ended result ∧
      exitCode result ≠ exitStatusCode (.exited 0) :=
  ⟨_, _, rfl, rfl, rfl, by decide⟩

end Keyvisor.Exec
