import Keyvisor.Exec
import Keyvisor.Foundation.Path
import Keyvisor.PinExchange

/-!
# Asking for a PIN

Executable translation of `request_pin`, `start_graphical_authorizer` and
`stop_graphical_authorizer` in `keyvisor-agent/src/main.rs`, operation by operation. Time
is counted in milliseconds. The loop is given a number of rounds; a request that has used
them up is still waiting.

Two monitors watch a request: what becomes of the prompt that it may have started in the
graphical session, and how long it waits.
-/

namespace Keyvisor.PinRequest

open Foundation Foundation.Text Control PinExchange
open Exec (ExitStatus)

/-- What `try_recv` returns. -/
inductive Receipt where
  | received (pin : Bytes)
  | empty
  | disconnected
  deriving DecidableEq, Repr

/-- What `request_pin` asks of its environment. -/
inductive Operation where
  | nextRequestId
  | register (id : RequestId) (keyName : String)
  | environmentVariable (name : String)
  | currentExecutable
  | spawn (program : Path) (arguments : List Bytes)
  | now
  | tryReceive
  | tryWait (child : Nat)
  | cancelled
  | sleep (milliseconds : Nat)
  | unregister (id : RequestId)
  | kill (child : Nat)
  | wait (child : Nat)
  deriving DecidableEq, Repr

/-- The table is not answered for when another thread has panicked with it. -/
def Answer : Operation → Type
  | .nextRequestId => Nat
  | .register _ _ => Bool
  | .environmentVariable _ => Option Bytes
  | .currentExecutable => Option Path
  | .spawn _ _ => Option Nat
  | .now => Nat
  | .tryReceive => Receipt
  | .tryWait _ => Except IoError (Option ExitStatus)
  | .cancelled => Bool
  | .sleep _ => Unit
  | .unregister _ => Bool
  | .kill _ => Except IoError Unit
  | .wait _ => Except IoError ExitStatus

abbrev Action := Program Operation Answer

def nextRequestId : Action Nat := Program.call Operation.nextRequestId

def register (id : RequestId) (keyName : String) : Action Bool := Program.call (Operation.register id keyName)

def environmentVariable (name : String) : Action (Option Bytes) := Program.call (Operation.environmentVariable name)

def currentExecutable : Action (Option Path) := Program.call Operation.currentExecutable

def spawn (program : Path) (arguments : List Bytes) : Action (Option Nat) :=
  Program.call (Operation.spawn program arguments)

def now : Action Nat := Program.call Operation.now

def tryReceive : Action Receipt := Program.call Operation.tryReceive

def tryWait (child : Nat) : Action (Except IoError (Option ExitStatus)) := Program.call (Operation.tryWait child)

def cancelled : Action Bool := Program.call Operation.cancelled

def sleep (milliseconds : Nat) : Action Unit := Program.call (Operation.sleep milliseconds)

def unregister (id : RequestId) : Action Bool := Program.call (Operation.unregister id)

def kill (child : Nat) : Action (Except IoError Unit) := Program.call (Operation.kill child)

def wait (child : Nat) : Action (Except IoError ExitStatus) := Program.call (Operation.wait child)

/-! ## The prompt -/

/-- A variable that is set and not empty. -/
def isSet (value : Option Bytes) : Bool := value.any fun value => value ≠ []

/-- `graphical_session_available`. -/
def graphicalSessionAvailable : Action Bool := do
  let wayland ← environmentVariable "WAYLAND_DISPLAY"
  if isSet wayland then return true
  else do
    let display ← environmentVariable "DISPLAY"
    return isSet display

/-- `Path::with_file_name`. -/
def withFileName (path : Path) (name : Bytes) : Path := ⟨path.absolute, path.names.dropLast ++ [name]⟩

/-- `start_graphical_authorizer`. -/
def startGraphicalAuthorizer (id : RequestId) : Action (Option Nat) := do
  let available ← graphicalSessionAvailable
  if available then do
    let executable ← currentExecutable
    match executable with
    | some executable =>
      spawn (withFileName executable (utf8 "keyvisor")) [utf8 "authorize", id, utf8 "--pinentry"]
    | none => return none
  else return none

/-- What cannot be told counts as not ended. -/
def ended : Except IoError (Option ExitStatus) → Bool
  | .ok status => status.isSome
  | .error _ => false

/-- `stop_graphical_authorizer`. -/
def stopGraphicalAuthorizer : Option Nat → Action Unit
  | some child => do
    let status ← tryWait child
    if ended status then do
      let _ ← wait child
      return ()
    else do
      let _ ← kill child
      let _ ← wait child
      return ()
  | none => return ()

/-- The prompt is forgotten once it has ended. -/
def checkPrompt : Option Nat → Action (Option Nat)
  | some child => do
    let status ← tryWait child
    return if ended status then none else some child
  | none => return none

/-! ## The loop -/

/-- A round leads to the next one or decides the result. -/
inductive Round where
  | again (prompt : Option Nat)
  | leave (prompt : Option Nat) (result : Except String Bytes)

/-- The prompt that a round hands on. -/
def Round.prompt : Round → Option Nat
  | again prompt => prompt
  | leave prompt _ => prompt

/-- One round of the loop of `request_pin`. -/
def requestRound (deadline : Nat) (prompt : Option Nat) : Action Round := do
  let receipt ← tryReceive
  match receipt with
  | .received pin => return .leave prompt (.ok pin)
  | .disconnected => return .leave prompt (.error "authorization request was cancelled")
  | .empty => do
    let prompt ← checkPrompt prompt
    let time ← now
    if deadline ≤ time then return .leave prompt (.error "TPM PIN entry timed out")
    else do
      let stop ← cancelled
      if stop then
        return .leave prompt (.error "TPM PIN entry cancelled because the SSH client disconnected")
      else do
        let _ ← sleep 50
        return .again prompt

/-- At most that many rounds. Nothing is returned when they run out. -/
def requestRounds (deadline : Nat) : Nat → Option Nat → Action (Option (Option Nat × Except String Bytes))
  | 0, _ => return none
  | rounds + 1, prompt => do
    let round ← requestRound deadline prompt
    match round with
    | .again prompt => requestRounds deadline rounds prompt
    | .leave prompt result => return some (prompt, result)

/-- A request that has its identifier. -/
def identifiedRequest (timeout rounds : Nat) (keyName : String) (id : RequestId) :
    Action (Option (Except String Bytes)) := do
  let registered ← register id keyName
  if registered then do
    let prompt ← startGraphicalAuthorizer id
    let time ← now
    let left ← requestRounds (time + timeout) rounds prompt
    match left with
    | some (prompt, result) => do
      let _ ← unregister id
      stopGraphicalAuthorizer prompt
      return some result
    | none => return none
  else return some (.error (unavailable ()))

/-- `request_pin`, or nothing as long as it waits. -/
def requestPin (process : UInt32) (timeout rounds : Nat) (keyName : String) :
    Action (Option (Except String Bytes)) := do
  let sequence ← nextRequestId
  identifiedRequest timeout rounds keyName (requestId process sequence)

/-! ## What becomes of the prompt -/

/-- There is no prompt; it was started; the last look found it alive, or ended; it was
killed, or waited for. -/
inductive Prompt where
  | absent
  | started (child : Nat)
  | alive (child : Nat)
  | ended (child : Nat)
  | killed (child : Nat)
  | reaped (child : Nat)
  deriving DecidableEq, Repr

namespace Prompt

/-- The operating system keeps nothing of the prompt. -/
def gone : Prompt → Bool
  | absent => true
  | ended _ => true
  | reaped _ => true
  | _ => false

/-- The prompt that is still to be looked after. -/
def kept : Prompt → Option Nat
  | started child => some child
  | alive child => some child
  | _ => none

/-- Something else happens after the last look. -/
def later : Prompt → Prompt
  | alive child => started child
  | other => other

end Prompt

/-- One prompt at most is started. It is looked at as long as it has not ended, killed only
right after a look that found it alive, and waited for when it has ended or was killed. -/
def watchPrompt (prompt : Prompt) : (operation : Operation) → Answer operation → Option Prompt
  | .spawn _ _, answer =>
    if prompt = .absent then some ((show Option Nat from answer).elim .absent .started) else none
  | .tryWait child, answer =>
    if prompt.kept = some child then some (if PinRequest.ended answer then .ended child else .alive child) else none
  | .kill child, _ => if prompt = .alive child then some (.killed child) else none
  | .wait child, _ => if prompt = .ended child ∨ prompt = .killed child then some (.reaped child) else none
  | _, _ => some prompt.later

/-- What may be done to the prompt's process, and what becomes of it. -/
def promptMonitor (prompt : Prompt) (exchange : Program.Exchange Operation Answer) : Option Prompt :=
  watchPrompt prompt exchange.1 exchange.2

/-! ## Prompts are reaped -/

section

variable {prompt : Prompt} {deadline : Nat}

/-- Time does not change whether a prompt is kept. -/
theorem kept_later (prompt : Prompt) : prompt.later.kept = prompt.kept := by
  cases prompt <;> rfl

/-- Time does not change whether a prompt is gone. -/
theorem gone_later (prompt : Prompt) : prompt.later.gone = prompt.gone := by
  cases prompt <;> rfl

/-- The request looks after the prompt that the account keeps. -/
def Tended (child : Option Nat) (prompt : Prompt) : Prop := prompt.kept = child ∧ (child = none → prompt.gone)

/-- A child that is tended stays so when time passes. -/
theorem Tended.later {child : Option Nat} (tended : Tended child prompt) : Tended child prompt.later := by
  unfold Tended at *
  rwa [kept_later, gone_later]

/-- A check of the prompt keeps its child, or notices that it has gone. -/
theorem checkPrompt_watched {child : Option Nat} (tended : Tended child prompt) :
    Program.Complies promptMonitor prompt (checkPrompt child) fun reached left => Tended left reached := by
  cases child with
  | none => exact tended
  | some child =>
    refine Program.Complies.bind (Program.complies_call fun answer => ⟨_, if_pos tended.1, ?_⟩)
    cases looked : PinRequest.ended answer <;> simp only [Bool.false_eq_true, ↓reduceIte]
    · exact ⟨rfl, nofun⟩
    · exact ⟨rfl, fun _ => rfl⟩

/-- A round leaves the prompt with the child that it hands on. -/
theorem requestRound_watched {child : Option Nat} (tended : Tended child prompt) :
    Program.Complies promptMonitor prompt (requestRound deadline child) fun reached round =>
      Tended round.prompt reached := by
  refine Program.Complies.bind (Program.complies_call fun receipt => ⟨_, rfl, ?_⟩)
  cases (receipt : Receipt) with
  | received pin => exact tended.later
  | disconnected => exact tended.later
  | empty =>
    refine Program.Complies.bind ((checkPrompt_watched tended.later).weaken fun reached left tended => ?_)
    refine Program.Complies.bind (Program.complies_call fun time => ⟨_, rfl, ?_⟩)
    split
    · exact tended.later
    · refine Program.Complies.bind (Program.complies_call fun stop => ⟨_, rfl, ?_⟩)
      split
      · exact tended.later.later
      · exact Program.Complies.bind (Program.complies_call fun _ => ⟨_, rfl, tended.later.later.later⟩)

/-- Any number of rounds leave the prompt with the child that they hand on. -/
theorem requestRounds_watched (rounds : Nat) {child : Option Nat} (tended : Tended child prompt) :
    Program.Complies promptMonitor prompt (requestRounds deadline rounds child) fun reached left =>
      ∀ child result, left = some (child, result) → Tended child reached := by
  induction rounds generalizing prompt child with
  | zero => exact fun _ _ impossible => nomatch impossible
  | succ rounds inductionHypothesis =>
    refine Program.Complies.bind ((requestRound_watched tended).weaken fun reached round tended => ?_)
    cases round with
    | again child => exact inductionHypothesis tended
    | leave child result =>
      rintro _ _ same
      cases same
      exact tended

/-- Stopping kills and waits for a child that is still there. -/
theorem stopGraphicalAuthorizer_watched {child : Option Nat} (tended : Tended child prompt) :
    Program.Complies promptMonitor prompt (stopGraphicalAuthorizer child) fun reached _ => reached.gone := by
  cases child with
  | none => exact tended.2 rfl
  | some child =>
    refine Program.Complies.bind (Program.complies_call fun answer => ⟨_, if_pos tended.1, ?_⟩)
    cases looked : PinRequest.ended answer <;> simp only [Bool.false_eq_true, ↓reduceIte]
    · refine Program.Complies.bind (Program.complies_call fun _ => ⟨_, if_pos rfl, ?_⟩)
      exact Program.Complies.bind (Program.complies_call fun _ => ⟨_, if_pos (.inr rfl), rfl⟩)
    · exact Program.Complies.bind (Program.complies_call fun _ => ⟨_, if_pos (.inl rfl), rfl⟩)

/-- A look at the environment only takes time. -/
theorem environmentVariable_watched {name : String} {post : Prompt → Option Bytes → Prop}
    (ends : ∀ value, post prompt.later value) : Program.Complies promptMonitor prompt (environmentVariable name) post :=
  Program.complies_call fun value => ⟨_, rfl, ends value⟩

/-- A started prompt has the child that is handed on, and an unstarted one has none. -/
theorem startGraphicalAuthorizer_watched {id : RequestId} :
    Program.Complies promptMonitor .absent (startGraphicalAuthorizer id) fun reached child => Tended child reached := by
  have nothing : Tended none .absent := ⟨rfl, fun _ => rfl⟩
  have session : Program.Complies promptMonitor .absent graphicalSessionAvailable fun reached _ =>
    reached = .absent := by
    refine Program.Complies.bind (environmentVariable_watched fun wayland => ?_)
    split
    · rfl
    · exact Program.Complies.bind (environmentVariable_watched fun _ => rfl)
  refine Program.Complies.bind (session.weaken ?_)
  rintro _ available rfl
  split
  · refine Program.Complies.bind (Program.complies_call fun executable => ⟨.absent, rfl, ?_⟩)
    rcases (executable : Option Path) with _ | path
    · exact nothing
    · refine Program.complies_call fun child => ⟨_, rfl, ?_⟩
      rcases (child : Option Nat) with _ | child
      · exact nothing
      · exact ⟨rfl, nofun⟩
  · exact nothing

/-- Whatever is answered, a request that ends leaves nothing of its prompt. -/
theorem requestPin_watched (process : UInt32) (timeout rounds : Nat) (keyName : String) :
    Program.Complies promptMonitor .absent (requestPin process timeout rounds keyName) fun reached outcome =>
      outcome.isSome → reached.gone := by
  refine Program.Complies.bind (Program.complies_call fun sequence => ⟨.absent, rfl, ?_⟩)
  refine Program.Complies.bind (Program.complies_call fun registered => ⟨.absent, rfl, ?_⟩)
  split
  · refine Program.Complies.bind (startGraphicalAuthorizer_watched.weaken fun started child tended => ?_)
    refine Program.Complies.bind (Program.complies_call fun time => ⟨_, rfl, ?_⟩)
    refine Program.Complies.bind ((requestRounds_watched rounds tended.later).weaken fun reached left tended => ?_)
    rcases left with _ | ⟨child, result⟩
    · exact fun impossible => absurd impossible Bool.false_ne_true
    · refine Program.Complies.bind (Program.complies_call fun _ => ⟨_, rfl, ?_⟩)
      refine Program.Complies.bind ((stopGraphicalAuthorizer_watched (tended child result rfl).later).weaken ?_)
      exact fun final _ gone _ => gone
  · exact fun _ => rfl

/-- One prompt at most is started for a request. It is looked at until it has ended, is
killed only right after a look that found it alive, and when the request ends the prompt
was seen to end or was waited for. -/
theorem prompts_are_reaped {process : UInt32} {timeout rounds : Nat} {keyName : String}
    {transcript : List (Program.Exchange Operation Answer)} {remaining : Action (Option (Except String Bytes))}
    (followed : Program.Follows (requestPin process timeout rounds keyName) transcript remaining) :
    ∃ prompt, Program.accepts promptMonitor .absent transcript = some prompt ∧
      ∀ result, remaining = .done (some result) → prompt.gone := by
  obtain ⟨prompt, accepted, left⟩ := (requestPin_watched process timeout rounds keyName).of_follows followed
  refine ⟨prompt, accepted, ?_⟩
  rintro result rfl
  exact left rfl

/-- A request in a graphical session that receives its PIN from elsewhere. -/
def sampleTranscript : List (Program.Exchange Operation Answer) :=
  [⟨.nextRequestId, (1 : Nat)⟩, ⟨.register (requestId 7 1) "work", true⟩,
    ⟨.environmentVariable "WAYLAND_DISPLAY", (some [119] : Option Bytes)⟩,
    ⟨.currentExecutable, (some ⟨true, [utf8 "bin", utf8 "keyvisor-agent"]⟩ : Option Path)⟩,
    ⟨.spawn ⟨true, [utf8 "bin", utf8 "keyvisor"]⟩ [utf8 "authorize", requestId 7 1, utf8 "--pinentry"],
      (some 42 : Option Nat)⟩,
    ⟨.now, (0 : Nat)⟩, ⟨.tryReceive, Receipt.empty⟩, ⟨.tryWait 42, (.ok none : Except IoError (Option ExitStatus))⟩,
    ⟨.now, (1 : Nat)⟩, ⟨.cancelled, false⟩, ⟨.sleep 50, ()⟩, ⟨.tryReceive, Receipt.received [49, 50, 51, 52, 53, 54]⟩,
    ⟨.unregister (requestId 7 1), true⟩, ⟨.tryWait 42, (.ok none : Except IoError (Option ExitStatus))⟩,
    ⟨.kill 42, (.ok () : Except IoError Unit)⟩, ⟨.wait 42, (.ok (.signaled 9) : Except IoError ExitStatus)⟩]

/-- A request whose prompt is started, polled once, killed and waited for. -/
theorem prompts_are_reaped_sample :
    Program.accepts promptMonitor .absent sampleTranscript = some (.reaped 42) ∧ (Prompt.reaped 42).gone := by
  have followed : Program.Follows (requestPin 7 100 3 "work") sampleTranscript
      (.done (some (.ok [49, 50, 51, 52, 53, 54]))) := (Program.follow_eq_some _ _ _).mp rfl
  obtain ⟨prompt, accepted, gone⟩ := prompts_are_reaped followed
  have last : Program.accepts promptMonitor .absent sampleTranscript = some (.reaped 42) := rfl
  cases last.symm.trans accepted
  exact ⟨last, gone _ rfl⟩

/-! ## Waiting is bounded -/

/-- The next reading of the clock is at least this, if it was always so and sleeping takes
as long as was asked for. -/
structure Clock where
  least : Nat
  honest : Bool
  deriving DecidableEq, Repr

/-- What an answer tells of the clock. -/
def readClock (clock : Clock) : (operation : Operation) → Answer operation → Clock
  | .now, answer => ⟨answer, clock.honest && decide (clock.least ≤ (show Nat from answer))⟩
  | .sleep milliseconds, _ => { clock with least := clock.least + milliseconds }
  | _, _ => clock

/-- The clock after one more exchange. Every exchange is permitted. -/
def clockMonitor (clock : Clock) (exchange : Program.Exchange Operation Answer) : Option Clock :=
  some (readClock clock exchange.1 exchange.2)

/-- Operations that concern nothing but the prompt. -/
def ofPrompt : Operation → Prop
  | .environmentVariable _ => True
  | .currentExecutable => True
  | .spawn _ _ => True
  | .tryWait _ => True
  | .kill _ => True
  | .wait _ => True
  | _ => False

/-- What concerns the prompt does not concern the clock. -/
theorem ofPrompt_clock {clock : Clock} {operation : Operation} {answer : Answer operation}
    (apart : ofPrompt operation) : clockMonitor clock ⟨operation, answer⟩ = some clock := by
  cases operation <;> first | rfl | cases apart

/-- A routine about the prompt leaves the clock as it is. -/
theorem ofPrompt_complies {α : Type} {program : Action α} (clock : Clock) (issues : program.Issues ofPrompt) :
    Program.Complies clockMonitor clock program fun reached _ => reached = clock :=
  issues.complies fun _ _ apart => ofPrompt_clock apart

/-- A check concerns the prompt only. -/
theorem checkPrompt_issues (child : Option Nat) : (checkPrompt child).Issues ofPrompt := by
  cases child with
  | none => exact trivial
  | some child => exact ⟨trivial, fun _ => trivial⟩

/-- A round that leads to another one took its time before the deadline. -/
def Passed (clock : Clock) (deadline : Nat) (reached : Clock) : Round → Prop
  | .again _ => reached.honest → clock.honest ∧ clock.least + 50 ≤ reached.least ∧ clock.least < deadline
  | .leave _ _ => True

/-- A round that goes on found the deadline ahead and slept fifty milliseconds. -/
theorem requestRound_takes {clock : Clock} (deadline : Nat) (child : Option Nat) :
    Program.Complies clockMonitor clock (requestRound deadline child) (Passed clock deadline) := by
  refine Program.Complies.bind (Program.complies_call fun receipt => ⟨_, rfl, ?_⟩)
  cases (receipt : Receipt) with
  | received pin => exact trivial
  | disconnected => exact trivial
  | empty =>
    refine Program.Complies.bind ((ofPrompt_complies clock (checkPrompt_issues child)).weaken ?_)
    rintro _ left rfl
    refine Program.Complies.bind (Program.complies_call fun time => ⟨_, rfl, ?_⟩)
    split
    · exact trivial
    · rename_i early
      refine Program.Complies.bind (Program.complies_call fun stop => ⟨_, rfl, ?_⟩)
      split
      · exact trivial
      · refine Program.Complies.bind (Program.complies_call fun _ => ⟨_, rfl, ?_⟩)
        intro honest
        obtain ⟨before, reads⟩ := Bool.and_eq_true_iff.mp honest
        have bound := of_decide_eq_true reads
        refine ⟨before, Nat.add_le_add_right bound 50, ?_⟩
        exact Nat.lt_of_le_of_lt bound (Nat.lt_of_not_le early)

/-- Rounds that run out have passed all but the last of their sleeps before the deadline. -/
theorem requestRounds_take {clock : Clock} (deadline rounds : Nat) (child : Option Nat) :
    Program.Complies clockMonitor clock (requestRounds deadline rounds child) fun reached left =>
      left = none → reached.honest → clock.honest ∧ (rounds = 0 ∨ clock.least + 50 * (rounds - 1) < deadline) := by
  induction rounds generalizing clock child with
  | zero => exact fun _ honest => ⟨honest, .inl rfl⟩
  | succ rounds inductionHypothesis =>
    refine Program.Complies.bind ((requestRound_takes deadline child).weaken fun middle round passed => ?_)
    cases round with
    | leave child result => exact fun impossible => nomatch impossible
    | again child =>
      refine (inductionHypothesis child).weaken fun reached left waits => ?_
      intro waiting honest
      obtain ⟨still, bound⟩ := waits waiting honest
      obtain ⟨before, advance, early⟩ := passed still
      refine ⟨before, .inr ?_⟩
      rcases bound with none | bound
      · omega
      · omega

/-- Starting concerns the prompt only. -/
theorem startGraphicalAuthorizer_issues (id : RequestId) : (startGraphicalAuthorizer id).Issues ofPrompt := by
  have session : graphicalSessionAvailable.Issues ofPrompt := by
    refine Program.Issues.bind (Program.issues_call trivial) fun wayland => ?_
    split
    · exact trivial
    · exact Program.Issues.bind (Program.issues_call trivial) fun _ => trivial
  refine Program.Issues.bind session fun available => ?_
  split
  · refine Program.Issues.bind (Program.issues_call trivial) fun executable => ?_
    cases executable with
    | none => exact trivial
    | some path => exact Program.issues_call trivial
  · exact trivial

/-- Stopping concerns the prompt only. -/
theorem stopGraphicalAuthorizer_issues (child : Option Nat) : (stopGraphicalAuthorizer child).Issues ofPrompt := by
  cases child with
  | none => exact trivial
  | some child =>
    refine Program.Issues.bind (Program.issues_call trivial) fun status => ?_
    split
    · exact Program.Issues.bind (Program.issues_call trivial) fun _ => trivial
    · refine Program.Issues.bind (Program.issues_call trivial) fun _ => ?_
      exact Program.Issues.bind (Program.issues_call trivial) fun _ => trivial

/-- A request that runs out of rounds on an honest clock had rounds for its timeout only. -/
theorem requestPin_takes (process : UInt32) (timeout rounds : Nat) (keyName : String) {clock : Clock} :
    Program.Complies clockMonitor clock (requestPin process timeout rounds keyName) fun reached outcome =>
      outcome = none → reached.honest → rounds = 0 ∨ 50 * (rounds - 1) < timeout := by
  refine Program.Complies.bind (Program.complies_call fun sequence => ⟨_, rfl, ?_⟩)
  refine Program.Complies.bind (Program.complies_call fun registered => ⟨_, rfl, ?_⟩)
  split
  · have starts := ofPrompt_complies clock (startGraphicalAuthorizer_issues (requestId process sequence))
    refine Program.Complies.bind (starts.weaken ?_)
    rintro _ child rfl
    refine Program.Complies.bind (Program.complies_call fun time => ⟨_, rfl, ?_⟩)
    refine Program.Complies.bind ((requestRounds_take _ rounds child).weaken fun middle left waits => ?_)
    cases left with
    | none =>
      intro _ honest
      obtain ⟨_, none | bound⟩ := waits rfl honest
      · exact .inl none
      · exact .inr (by simp only [readClock] at bound; omega)
    | some left =>
      refine Program.Complies.bind (Program.complies_call fun _ => ⟨_, rfl, ?_⟩)
      have stops := ofPrompt_complies middle (stopGraphicalAuthorizer_issues left.1)
      exact Program.Complies.bind (stops.weaken fun _ _ _ impossible => nomatch impossible)
  · exact fun impossible => nomatch impossible

/-- When the clock does not go back and sleeping takes as long as was asked for, a request
returns within the rounds that fit into its timeout. -/
theorem requests_return {process : UInt32} {timeout rounds : Nat} {keyName : String}
    {transcript : List (Program.Exchange Operation Answer)} {outcome : Option (Except String Bytes)} {clock : Clock}
    (enough : timeout ≤ 50 * rounds)
    (followed : Program.Follows (requestPin process timeout (rounds + 1) keyName) transcript (.done outcome))
    (measured : Program.accepts clockMonitor ⟨0, true⟩ transcript = some clock) (honest : clock.honest = true) :
    outcome.isSome := by
  obtain ⟨reached, accepted, bound⟩ :=
    (requestPin_takes process timeout (rounds + 1) keyName).of_follows_done followed
  cases measured.symm.trans accepted
  cases outcome with
  | some result => rfl
  | none =>
    rcases bound rfl honest with impossible | late
    · cases impossible
    · omega

/-- A request that nobody answers, outside a graphical session. -/
def lateTranscript : List (Program.Exchange Operation Answer) :=
  [⟨.nextRequestId, (1 : Nat)⟩, ⟨.register (requestId 7 1) "work", true⟩,
    ⟨.environmentVariable "WAYLAND_DISPLAY", (none : Option Bytes)⟩,
    ⟨.environmentVariable "DISPLAY", (none : Option Bytes)⟩, ⟨.now, (3 : Nat)⟩, ⟨.tryReceive, Receipt.empty⟩,
    ⟨.now, (3 : Nat)⟩, ⟨.cancelled, false⟩, ⟨.sleep 50, ()⟩, ⟨.tryReceive, Receipt.empty⟩, ⟨.now, (53 : Nat)⟩,
    ⟨.unregister (requestId 7 1), true⟩]

/-- Two rounds are enough for a timeout of fifty milliseconds. -/
theorem requests_return_late : ∃ outcome, Program.Follows (requestPin 7 50 2 "work") lateTranscript (.done outcome) ∧
    outcome.isSome := by
  have enough : 50 ≤ 50 * 1 := Nat.le_refl _
  have followed : Program.Follows (requestPin 7 50 2 "work") lateTranscript
      (.done (some (.error "TPM PIN entry timed out"))) := (Program.follow_eq_some _ _ _).mp rfl
  exact ⟨_, followed, requests_return enough followed rfl rfl⟩

end

end Keyvisor.PinRequest
