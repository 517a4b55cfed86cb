import Keyvisor.Connection
import Keyvisor.Foundation.Ownership
import Keyvisor.Foundation.Transition
import Keyvisor.Journal

/-!
# Watching the client of a request

Executable translation of `RequestMonitor` and `RequestCancellation` in
`keyvisor-agent/src/main.rs` and of one turn of the loop of `serve_connection`. While
a request is handled, a thread of its own polls the socket for a client that has gone
and sets the flag that the request checks between its operations; dropping the monitor
tells the thread to stop and joins it.

The system is one connection with its client, the thread that serves it and the
watching threads of all its requests, in any interleaving. A poll is level triggered:
it tells a client that has gone at once, does not take one that only stopped writing
for gone, and may fail.
-/

namespace Keyvisor.Monitoring

open Foundation Foundation.Transition Keyvisor.Runtime Protocol
open Foundation.Program (demand)

/-! ## The watching thread -/

/-- The client may shut its writing half and go on reading. -/
inductive Peer where
  | connected
  | halfClosed
  | closed
  deriving DecidableEq, Repr

/-- The returned events that the thread tests for. -/
structure Events where
  hup : Bool
  err : Bool
  deriving DecidableEq, Repr

/-- The events that end a connection. -/
def Events.terminal (events : Events) : Bool := events.hup || events.err

/-- What a poll of 50 ms comes to. -/
inductive Poll where
  | elapsed
  | ready (events : Events)
  | failed
  deriving DecidableEq, Repr

/-- What the thread asks: the two flags that it shares, and the socket. -/
inductive WatchOperation where
  | stopped
  | poll
  | cancel
  deriving DecidableEq, Repr

/-- What is answered to each operation of a watcher. -/
def WatchAnswer : WatchOperation → Type
  | .stopped => Bool
  | .poll => Poll
  | .cancel => Unit

/-- A round of the thread's loop; its value says whether there is another. -/
abbrev Watcher := Program WatchOperation WatchAnswer Bool

/-- The request is told, and the watcher ends. -/
def cancelAndReturn : Watcher := do
  let _ ← (Program.call WatchOperation.cancel : Program WatchOperation WatchAnswer Unit)
  return false

/-- The events are cleared before the next round; a poll sets them anew. -/
def pollClient : Watcher := do
  let polled ← (Program.call WatchOperation.poll : Program WatchOperation WatchAnswer Poll)
  match polled with
  | .elapsed => return true
  | .ready events => if events.terminal then cancelAndReturn else return true
  | .failed => cancelAndReturn

/-- One round of the watcher's loop. -/
def watchRound : Watcher := do
  let stopped ← (Program.call WatchOperation.stopped : Program WatchOperation WatchAnswer Bool)
  if (show Bool from stopped) then return false else pollClient

/-- The thread after an operation: in the middle of a round, at the next one, or gone. -/
def nextRound : Watcher → Option Watcher
  | .done true => some watchRound
  | .done false => none
  | .ask operation next => some (.ask operation next)

/-- The answers that a poll has for a client. -/
def Peer.permits : Peer → Poll → Bool
  | .closed, .elapsed => false
  | .closed, .ready events => events.terminal
  | _, .ready events => !events.terminal
  | _, _ => true

/-! ## The serving thread -/

/-- What a connection asks for: the operations of a request, and those of its monitor. -/
inductive Operation where
  | receive
  | cloneStream
  | spawnWatcher
  | within (operation : Runtime.Operation)
  | stop
  | join
  | write (bytes : Bytes)
  deriving DecidableEq, Repr

/-- Reading a packet ends as the connection has it: a packet, the end of the stream, or
an error that ends the connection. -/
def Answer : Operation → Type
  | .receive => Except String (Option Bytes)
  | .cloneStream => Except IoError Unit
  | .spawnWatcher => Except IoError Unit
  | .within operation => Runtime.Answer operation
  | .stop => Unit
  | .join => Unit
  | .write _ => Except IoError Unit

abbrev Action := Program Operation Answer

abbrev Routine (ε : Type) := ExceptT ε Action

/-- `RequestMonitor::start`. -/
def startMonitor : Routine String Unit := do
  demand (fun error : IoError => "cannot monitor the SSH client: " ++ error.text) (Program.call Operation.cloneStream)
  demand (fun error : IoError => "cannot start the SSH client monitor: " ++ error.text)
    (Program.call Operation.spawnWatcher)

/-- The drop of a monitor. -/
def dropMonitor : Action Unit := do
  let _ ← (Program.call Operation.stop : Action Unit)
  Program.call Operation.join

/-- `handle` as a part of the connection. -/
def handleWithin (settings : Settings) (packet : Bytes) : Action (Except String Bytes) :=
  (handle settings packet).run.translate Operation.within fun _ reply => reply

/-- The response, or the failure response, is written. -/
def writeResponse (outcome : Except String Bytes) : Routine String Unit :=
  demand (fun error : IoError => "cannot write SSH agent response: " ++ error.text)
    (Program.call (Operation.write (Connection.respond outcome)))

/-- A received request with its monitor. -/
def servePacket (settings : Settings) (packet : Bytes) : Routine String Bool := do
  startMonitor
  let outcome ← (liftM (handleWithin settings packet) : Routine String (Except String Bytes))
  (liftM dropMonitor : Routine String Unit)
  writeResponse outcome
  return true

/-- A turn of the loop of `serve_connection`; its value says whether there is another. -/
def serveTurn (settings : Settings) : Routine String Bool := do
  let received ← demand (fun message => message) (Program.call Operation.receive)
  match received with
  | none => return false
  | some packet => servePacket settings packet

/-! ## The system -/

/-- The two flags that a request and its watcher share, and the watcher until it has
returned. -/
structure Request where
  cancelled : Bool
  stopped : Bool
  watcher : Option Watcher

/-- A request whose watcher has just been started. -/
def Request.new : Request := ⟨false, false, some watchRound⟩

/-- The serving thread is at the rest of its turn, of which it has done what the
transcript records. The last request is the one in progress. -/
structure State where
  peer : Peer
  connection : Action (Except String Bool)
  transcript : List (Program.Exchange Operation Answer)
  requests : List Request

/-- The client goes further away, the serving thread or a watcher takes a step. -/
inductive Step where
  | halfClose
  | close
  | proceed (answers : (operation : Operation) → Answer operation)
  | watch (request : Nat) (poll : Poll)

/-- The request that the connection serves, the last one. -/
def current (requests : List Request) : Option Request := requests[requests.length - 1]?

/-- The answer to an operation of the serving thread and the requests after it. A check
reads the flag of the request in progress, and joining waits until its watcher has returned. -/
def respond (requests : List Request) (answers : (operation : Operation) → Answer operation) :
    (operation : Operation) → Option (Answer operation × List Request)
  | .spawnWatcher =>
    match (show Except IoError Unit from answers .spawnWatcher) with
    | .ok _ => some ((.ok () : Except IoError Unit), requests ++ [.new])
    | .error error => some ((.error error : Except IoError Unit), requests)
  | .within .cancelled => (current requests).map fun request => (request.cancelled, requests)
  | .stop => (current requests).map fun request =>
      ((), requests.set (requests.length - 1) { request with stopped := true })
  | .join => (current requests).bind fun request =>
      if request.watcher.isNone then some ((), requests) else none
  | operation => some (answers operation, requests)

/-- A watcher after an operation of its own, if the client permits the poll. -/
def Request.watched (request : Request) (peer : Peer) (poll : Poll) : Option Request :=
  match request.watcher with
  | some (.ask .stopped next) => some { request with watcher := nextRound (next request.stopped) }
  | some (.ask .poll next) =>
    if peer.permits poll then some { request with watcher := nextRound (next poll) } else none
  | some (.ask .cancel next) => some { request with cancelled := true, watcher := nextRound (next ()) }
  | _ => none

section

variable (settings : Settings)

/-- The serving thread at the start of a turn. -/
def State.opened (peer : Peer) (requests : List Request) : State :=
  ⟨peer, (serveTurn settings).run, [], requests⟩

/-- A connected client and no request yet. -/
def State.initial : State := .opened settings .connected []

/-- A finished turn is followed by another one. -/
def State.turned (state : State) : State :=
  match state.connection with
  | .done (.ok true) => .opened settings state.peer state.requests
  | _ => state

/-- One step of the client, of the connection or of a watcher. -/
def step (state : State) : Step → Option State
  | .halfClose => if state.peer = .connected then some { state with peer := .halfClosed } else none
  | .close => some { state with peer := .closed }
  | .proceed answers =>
    match state.connection with
    | .done _ => none
    | .ask operation next => (respond state.requests answers operation).map fun reply =>
        State.turned settings { state with
          connection := next reply.1
          transcript := state.transcript ++ [⟨operation, reply.1⟩]
          requests := reply.2 }
  | .watch index poll =>
    state.requests[index]?.bind fun request => (request.watched state.peer poll).map fun after =>
      { state with requests := state.requests.set index after }

end

/-! ## A turn in its order -/

/-- Where a turn stands: without a watcher, with one, or waiting for it to return. -/
inductive Phase where
  | resting
  | watched
  | stopping
  deriving DecidableEq, Repr

/-- A request is handled only while it is watched, and a watcher is stopped before it is
joined. -/
def advance (phase : Phase) : Program.Exchange Operation Answer → Option Phase
  | ⟨.receive, _⟩ => if phase = .resting then some phase else none
  | ⟨.cloneStream, _⟩ => if phase = .resting then some phase else none
  | ⟨.spawnWatcher, answer⟩ =>
    if phase = .resting then
      match (show Except IoError Unit from answer) with
      | .ok _ => some .watched
      | .error _ => some phase
    else none
  | ⟨.within _, _⟩ => if phase = .watched then some phase else none
  | ⟨.stop, _⟩ => if phase = .watched then some .stopping else none
  | ⟨.join, _⟩ => if phase = .stopping then some .resting else none
  | ⟨.write _, _⟩ => if phase = .resting then some phase else none

/-- A turn ends with its watcher joined. -/
def Rested (phase : Phase) (_ : Except String Bool) : Prop := phase = .resting

/-- Whatever the request does, it is watched. -/
theorem handleWithin_complies (settings : Settings) (packet : Bytes) :
    Program.Complies advance .watched (handleWithin settings packet) fun phase _ => phase = .watched := by
  have within : (handleWithin settings packet).Issues fun operation => ∃ inner, operation = .within inner :=
    Program.issues_translate (fun inner => ⟨inner, rfl⟩) _
  refine within.complies ?_
  rintro _ answer ⟨inner, rfl⟩
  rfl

/-- A request is watched once its monitor is started. -/
theorem startMonitor_complies : Program.Complies advance .resting startMonitor.run
    fun phase outcome => phase = if outcome.isOk then .watched else .resting := by
  refine Program.Complies.routine (Program.complies_demand (Program.complies_call fun cloned => ⟨_, rfl, ?_⟩))
  cases (cloned : Except IoError Unit) with
  | error error => exact rfl
  | ok _ =>
    refine Program.continues_ok (Program.complies_demand (Program.complies_call fun spawned => ?_))
    cases (spawned : Except IoError Unit) with
    | error error => exact ⟨.resting, rfl, rfl⟩
    | ok _ => exact ⟨.watched, rfl, rfl⟩

/-- The monitor of a packet is dropped before its response is written. -/
theorem servePacket_complies (settings : Settings) (packet : Bytes) :
    Program.Complies advance .resting (servePacket settings packet).run Rested := by
  refine Program.Complies.routine (startMonitor_complies.weaken ?_)
  rintro _ (message | _) rfl
  · exact rfl
  refine Program.continues_ok (Program.Complies.routine (Program.complies_observed ?_))
  refine (handleWithin_complies settings packet).weaken ?_
  rintro _ outcome rfl
  refine Program.continues_ok (Program.Complies.routine (Program.complies_observed ?_))
  refine fun stopped => ⟨.stopping, rfl, fun joined => ⟨.resting, rfl, ?_⟩⟩
  refine Program.continues_ok (Program.Complies.routine (Program.complies_demand (Program.complies_call ?_)))
  refine fun written => ⟨.resting, rfl, ?_⟩
  cases (written : Except IoError Unit) with
  | error error => exact rfl
  | ok _ => exact rfl

/-- Whatever is answered, a turn keeps its order and ends with its watcher joined. -/
theorem serveTurn_complies (settings : Settings) :
    Program.Complies advance .resting (serveTurn settings).run Rested := by
  refine Program.Complies.routine (Program.complies_demand (Program.complies_call fun received => ⟨_, rfl, ?_⟩))
  match (show Except String (Option Bytes) from received) with
  | .error message => exact rfl
  | .ok none => exact rfl
  | .ok (some packet) => exact servePacket_complies settings packet

/-! ## The requests of a connection -/

/-- Where a watcher stands. -/
inductive Watches : Option Watcher → Prop where
  | round : Watches (some watchRound)
  | polling : Watches (some pollClient)
  | cancelling : Watches (some cancelAndReturn)
  | returned : Watches none

/-- A poll after which the thread goes on. -/
def Poll.quiet : Poll → Bool
  | .elapsed => true
  | .ready events => !events.terminal
  | .failed => false

/-- Everything a watcher can do. -/
theorem watched_cases {request after : Request} {peer : Peer} {poll : Poll} (stands : Watches request.watcher)
    (watched : request.watched peer poll = some after) :
    (request.watcher = some watchRound ∧
      after = { request with watcher := if request.stopped then none else some pollClient }) ∨
    (request.watcher = some pollClient ∧ peer.permits poll = true ∧
      after = { request with watcher := some (if poll.quiet then watchRound else cancelAndReturn) }) ∨
    (request.watcher = some cancelAndReturn ∧ after = { request with cancelled := true, watcher := none }) := by
  obtain ⟨cancelled, stopped, watcher⟩ := request
  cases stands with
  | round =>
    cases stopped <;> exact .inl ⟨rfl, (Option.some.inj watched).symm⟩
  | polling =>
    obtain ⟨permitted, same⟩ := Option.ite_none_right_eq_some.mp watched
    refine .inr (.inl ⟨rfl, permitted, ?_⟩)
    rw [← Option.some.inj same]
    match poll with
    | .elapsed => rfl
    | .failed => rfl
    | .ready events =>
      show Request.mk cancelled stopped (nextRound (if events.terminal then cancelAndReturn else pure true)) = _
      cases terminal : events.terminal with
      | true => simp only [Poll.quiet, terminal]; rfl
      | false => simp only [Poll.quiet, terminal]; rfl
  | cancelling => exact .inr (.inr ⟨rfl, (Option.some.inj watched).symm⟩)
  | returned => cases watched

/-- A poll that tells the truth. -/
def Peer.polled : Peer → Poll
  | .closed => .ready ⟨true, false⟩
  | _ => .elapsed

/-- A watcher that has not returned can go on, also when polls do not fail. -/
theorem watched_enabled {request : Request} (stands : Watches request.watcher) (alive : request.watcher ≠ none)
    (peer : Peer) : ∃ after, request.watched peer peer.polled = some after := by
  obtain ⟨cancelled, stopped, watcher⟩ := request
  cases stands with
  | round => exact ⟨_, rfl⟩
  | polling => cases peer <;> exact ⟨_, rfl⟩
  | cancelling => exact ⟨_, rfl⟩
  | returned => exact absurd rfl alive

/-- Where a turn stands with the request in progress. -/
def Placed (requests : List Request) : Phase → Prop
  | .resting => ∀ request, current requests = some request → request.watcher = none ∧ request.stopped = true
  | .watched => ∃ request, current requests = some request ∧ request.stopped = false
  | .stopping => ∃ request, current requests = some request ∧ request.stopped = true

/-- What is true of every state of a connection: its turn keeps its order, watchers stand
where a watcher can, and those of former requests have returned. -/
structure Invariant (state : State) : Prop where
  ordered : ∃ phase, Program.accepts advance .resting state.transcript = some phase ∧
    Program.Complies advance phase state.connection Rested ∧ Placed state.requests phase
  watchers : ∀ (index : Nat) (request : Request), state.requests[index]? = some request → Watches request.watcher
  former : ∀ (index : Nat) (request : Request), state.requests[index]? = some request →
    index + 1 < state.requests.length → request.watcher = none ∧ request.stopped = true

section

variable {settings : Settings} {state next : State}

/-- A turn starts when the watchers of all requests have returned. -/
theorem invariant_opened {peer : Peer} {requests : List Request} (rested : Placed requests .resting)
    (watchers : ∀ (index : Nat) (request : Request), requests[index]? = some request → Watches request.watcher)
    (former : ∀ (index : Nat) (request : Request), requests[index]? = some request →
      index + 1 < requests.length → request.watcher = none ∧ request.stopped = true) :
    Invariant (.opened settings peer requests) :=
  ⟨⟨.resting, rfl, serveTurn_complies settings, rested⟩, watchers, former⟩

/-- A connection starts without requests. -/
theorem invariant_initial : Invariant (.initial settings) := by
  refine invariant_opened ?_ ?_ ?_
  · intro request found
    cases found
  · intro index request found
    cases found
  · intro index request found
    cases found

/-- A turn that ended leaves its watcher joined to the next one. -/
theorem Invariant.turned (holds : Invariant state) : Invariant (state.turned settings) := by
  unfold State.turned
  split
  · rename_i ended
    obtain ⟨phase, _, complies, placed⟩ := holds.ordered
    rw [ended] at complies
    obtain rfl : phase = .resting := complies
    exact invariant_opened placed holds.watchers holds.former
  · exact holds

end

/-- The last request of a list, and one that replaces it. -/
theorem current_set {requests : List Request} {request : Request} (found : current requests = some request)
    (after : Request) : current (requests.set (requests.length - 1) after) = some after := by
  obtain ⟨inside, _⟩ := List.getElem?_eq_some_iff.mp found
  rw [current, List.length_set]
  exact List.getElem?_set_self inside

/-- The last request of a list that one was put at the end of. -/
theorem current_concat (requests : List Request) (request : Request) :
    current (requests ++ [request]) = some request := by
  simp [current]

/-- How the answer to an operation leaves the requests. -/
theorem respond_cases {requests after : List Request} {answers : (operation : Operation) → Answer operation}
    {operation : Operation} {answer : Answer operation} {phase reached : Phase}
    (responded : respond requests answers operation = some (answer, after))
    (advanced : advance phase ⟨operation, answer⟩ = some reached) (placed : Placed requests phase) :
    (after = requests ∧ Placed requests reached) ∨
    (phase = .resting ∧ reached = .watched ∧ after = requests ++ [.new]) ∨
    (∃ request, phase = .watched ∧ reached = .stopping ∧ current requests = some request ∧
      after = requests.set (requests.length - 1) { request with stopped := true }) := by
  cases operation with
  | receive =>
    cases responded
    obtain ⟨_, same⟩ := Option.ite_none_right_eq_some.mp advanced
    cases same
    exact .inl ⟨rfl, placed⟩
  | cloneStream =>
    cases responded
    obtain ⟨_, same⟩ := Option.ite_none_right_eq_some.mp advanced
    cases same
    exact .inl ⟨rfl, placed⟩
  | spawnWatcher =>
    obtain ⟨resting, rest⟩ := Option.ite_none_right_eq_some.mp advanced
    simp only [respond] at responded
    split at responded
    · cases responded
      cases rest
      exact .inr (.inl ⟨resting, rfl, rfl⟩)
    · cases responded
      cases rest
      exact .inl ⟨rfl, placed⟩
  | within inner =>
    have unchanged : after = requests := by
      cases inner with
      | cancelled =>
        obtain ⟨request, _, same⟩ := Option.map_eq_some_iff.mp responded
        cases same
        rfl
      | _ =>
        cases responded
        rfl
    obtain ⟨_, same⟩ := Option.ite_none_right_eq_some.mp advanced
    cases same
    exact .inl ⟨unchanged, placed⟩
  | stop =>
    obtain ⟨request, found, same⟩ := Option.map_eq_some_iff.mp responded
    cases same
    obtain ⟨watched, same⟩ := Option.ite_none_right_eq_some.mp advanced
    cases same
    exact .inr (.inr ⟨request, watched, rfl, found, rfl⟩)
  | join =>
    obtain ⟨request, found, same⟩ := Option.bind_eq_some_iff.mp responded
    obtain ⟨returned, same⟩ := Option.ite_none_right_eq_some.mp same
    cases same
    obtain ⟨rfl, same⟩ := Option.ite_none_right_eq_some.mp advanced
    cases same
    obtain ⟨other, here, stopped⟩ := placed
    refine .inl ⟨rfl, fun another shown => ?_⟩
    obtain rfl := Option.some.inj (found.symm.trans shown)
    obtain rfl := Option.some.inj (here.symm.trans found)
    exact ⟨Option.isNone_iff_eq_none.mp returned, stopped⟩
  | write bytes =>
    cases responded
    obtain ⟨_, same⟩ := Option.ite_none_right_eq_some.mp advanced
    cases same
    exact .inl ⟨rfl, placed⟩

/-- The requests after an answer. -/
theorem respond_placed {requests after : List Request} {answers : (operation : Operation) → Answer operation}
    {operation : Operation} {answer : Answer operation} {phase reached : Phase}
    (responded : respond requests answers operation = some (answer, after))
    (advanced : advance phase ⟨operation, answer⟩ = some reached) (placed : Placed requests phase) :
    Placed after reached := by
  rcases respond_cases responded advanced placed with
    ⟨rfl, kept⟩ | ⟨_, rfl, rfl⟩ | ⟨request, _, rfl, found, rfl⟩
  · exact kept
  · exact ⟨.new, current_concat requests .new, rfl⟩
  · exact ⟨_, current_set found _, rfl⟩

section

variable {settings : Settings} {state next : State} {answers : (operation : Operation) → Answer operation}

/-- The invariant holds after a step of the serving thread. -/
theorem Invariant.proceed (holds : Invariant state) (taken : step settings state (.proceed answers) = some next) :
    Invariant next := by
  simp only [step] at taken
  split at taken
  · cases taken
  · rename_i operation rest asks
    obtain ⟨⟨answer, requests⟩, responded, rfl⟩ := Option.map_eq_some_iff.mp taken
    obtain ⟨phase, accepted, complies, placed⟩ := holds.ordered
    rw [asks] at complies
    obtain ⟨reached, advanced, continues⟩ := complies answer
    refine Invariant.turned ⟨⟨reached, Program.accepts_concat accepted advanced, continues,
      respond_placed responded advanced placed⟩, ?_, ?_⟩
    · intro index request found
      rcases respond_cases responded advanced placed with
        ⟨rfl, _⟩ | ⟨_, _, rfl⟩ | ⟨stopping, _, _, shown, rfl⟩
      · exact holds.watchers index request found
      · rcases getElem?_concat found with earlier | ⟨_, rfl⟩
        · exact holds.watchers index request earlier
        · exact .round
      · rw [getElem?_set_found shown] at found
        split at found
        · cases found
          exact holds.watchers _ stopping shown
        · exact holds.watchers index request found
    · intro index request found earlier
      rcases respond_cases responded advanced placed with
        ⟨rfl, _⟩ | ⟨rfl, _, rfl⟩ | ⟨stopping, _, _, shown, rfl⟩
      · exact holds.former index request found earlier
      · rw [List.length_append, List.length_singleton] at earlier
        rw [List.getElem?_append_left (by omega)] at found
        by_cases last : index + 1 = state.requests.length
        · refine placed request ?_
          rw [current, ← last]
          exact found
        · exact holds.former index request found (by omega)
      · rw [List.length_set] at earlier
        rw [getElem?_set_found shown, if_neg (by omega)] at found
        exact holds.former index request found earlier

/-- Only the watcher of the request in progress can go on. -/
theorem Invariant.alive_last (holds : Invariant state) {index : Nat} {request : Request}
    (found : state.requests[index]? = some request) (alive : request.watcher ≠ none) :
    index + 1 = state.requests.length := by
  obtain ⟨inside, _⟩ := List.getElem?_eq_some_iff.mp found
  by_contra elsewhere
  exact alive (holds.former index request found (by omega)).1

/-- The invariant holds after a step of a watcher. -/
theorem Invariant.watch (holds : Invariant state) {index : Nat} {poll : Poll}
    (taken : step settings state (.watch index poll) = some next) : Invariant next := by
  obtain ⟨request, found, rest⟩ := Option.bind_eq_some_iff.mp taken
  obtain ⟨after, watched, rfl⟩ := Option.map_eq_some_iff.mp rest
  have kinds := watched_cases (holds.watchers index request found) watched
  have alive : request.watcher ≠ none := by
    rcases kinds with ⟨stands, _⟩ | ⟨stands, _⟩ | ⟨stands, _⟩ <;> rw [stands] <;> exact Option.some_ne_none _
  have stopped : after.stopped = request.stopped := by
    rcases kinds with ⟨_, rfl⟩ | ⟨_, _, rfl⟩ | ⟨_, rfl⟩ <;> rfl
  have stands : Watches after.watcher := by
    rcases kinds with ⟨_, rfl⟩ | ⟨_, _, rfl⟩ | ⟨_, rfl⟩
    · dsimp only
      split
      · exact .returned
      · exact .polling
    · dsimp only
      split
      · exact .round
      · exact .cancelling
    · exact .returned
  have last := holds.alive_last found alive
  have here : index = state.requests.length - 1 := by omega
  subst here
  obtain ⟨phase, accepted, complies, placed⟩ := holds.ordered
  refine ⟨⟨phase, accepted, complies, ?_⟩, ?_, ?_⟩
  · cases phase with
    | resting => exact absurd (placed request found).1 alive
    | watched =>
      obtain ⟨other, shown, running⟩ := placed
      obtain rfl := Option.some.inj (found.symm.trans shown)
      exact ⟨after, current_set found after, stopped.trans running⟩
    | stopping =>
      obtain ⟨other, shown, stops⟩ := placed
      obtain rfl := Option.some.inj (found.symm.trans shown)
      exact ⟨after, current_set found after, stopped.trans stops⟩
  · intro other another shown
    rw [getElem?_set_found found] at shown
    split at shown
    · cases shown
      exact stands
    · exact holds.watchers other another shown
  · intro other another shown earlier
    rw [List.length_set] at earlier
    rw [getElem?_set_found found, if_neg (by omega)] at shown
    exact holds.former other another shown earlier

/-- The invariant holds after every step. -/
theorem Invariant.step {action : Step} (holds : Invariant state) (taken : step settings state action = some next) :
    Invariant next := by
  cases action with
  | halfClose =>
    obtain ⟨_, same⟩ := Option.ite_none_right_eq_some.mp taken
    cases same
    exact ⟨holds.ordered, holds.watchers, holds.former⟩
  | close =>
    cases taken
    exact ⟨holds.ordered, holds.watchers, holds.former⟩
  | proceed answers => exact holds.proceed taken
  | watch index poll => exact holds.watch taken

/-- The invariant holds in every state of a run. -/
theorem invariant_of_run {actions : List Step} {first last : State} (holds : Invariant first)
    (reached : run (Monitoring.step settings) first actions = some last) : Invariant last :=
  invariant_run (fun _ _ _ holds taken => holds.step taken) holds reached

end

/-! ## One request through the steps of the system -/

/-- The step is one of the watcher of this request. -/
def Step.watches (index : Nat) : Step → Bool
  | .watch other _ => other == index
  | _ => false

/-- What a step makes of a request. -/
inductive Becomes (index : Nat) (peer : Peer) (action : Step) (request : Request) : Request → Prop where
  | kept (elsewhere : action.watches index = false) : Becomes index peer action request request
  | stopping (elsewhere : action.watches index = false) :
      Becomes index peer action request { request with stopped := true }
  | watched (poll : Poll) (after : Request) (here : action = .watch index poll)
      (watched : request.watched peer poll = some after) : Becomes index peer action request after

section

variable {settings : Settings} {state next : State} {action : Step} {index : Nat} {request after : Request}

/-- A turn leaves the requests as they are. -/
@[simp] theorem turned_requests : (state.turned settings).requests = state.requests := by
  unfold State.turned
  split <;> rfl

/-- A turn leaves the peer as it is. -/
@[simp] theorem turned_peer : (state.turned settings).peer = state.peer := by
  unfold State.turned
  split <;> rfl

/-- A request after a step was there before, or its watcher has just been started. -/
theorem request_cases (holds : Invariant state) (taken : step settings state action = some next)
    (found : next.requests[index]? = some after) :
    (∃ request, state.requests[index]? = some request ∧ Becomes index state.peer action request after) ∨
      (after = .new ∧ state.requests[index]? = none ∧ action.watches index = false) := by
  cases action with
  | halfClose =>
    obtain ⟨_, same⟩ := Option.ite_none_right_eq_some.mp taken
    cases same
    exact .inl ⟨after, found, .kept rfl⟩
  | close =>
    cases taken
    exact .inl ⟨after, found, .kept rfl⟩
  | proceed answers =>
    simp only [step] at taken
    split at taken
    · cases taken
    · rename_i operation rest asks
      obtain ⟨⟨answer, requests⟩, responded, rfl⟩ := Option.map_eq_some_iff.mp taken
      obtain ⟨phase, _, complies, placed⟩ := holds.ordered
      rw [asks] at complies
      obtain ⟨reached, advanced, _⟩ := complies answer
      rw [turned_requests] at found
      rcases respond_cases responded advanced placed with
        ⟨rfl, _⟩ | ⟨_, _, rfl⟩ | ⟨stopping, _, _, shown, rfl⟩
      · exact .inl ⟨after, found, .kept rfl⟩
      · rcases getElem?_concat found with earlier | ⟨rfl, rfl⟩
        · exact .inl ⟨after, earlier, .kept rfl⟩
        · exact .inr ⟨rfl, List.getElem?_eq_none (Nat.le_refl _), rfl⟩
      · rw [getElem?_set_found shown] at found
        split at found
        · rename_i here
          subst here
          cases found
          exact .inl ⟨stopping, shown, .stopping rfl⟩
        · exact .inl ⟨after, found, .kept rfl⟩
  | watch other poll =>
    obtain ⟨request, shown, rest⟩ := Option.bind_eq_some_iff.mp taken
    obtain ⟨changed, watched, rfl⟩ := Option.map_eq_some_iff.mp rest
    rw [getElem?_set_found shown] at found
    split at found
    · rename_i here
      subst here
      cases found
      exact .inl ⟨request, shown, .watched poll _ rfl watched⟩
    · rename_i elsewhere
      exact .inl ⟨after, found, .kept (beq_eq_false_iff_ne.mpr elsewhere)⟩

/-- The requests and the client's absence stay, and only closing makes it absent. -/
theorem step_keeps (holds : Invariant state) (taken : step settings state action = some next) :
    state.requests.length ≤ next.requests.length ∧ (state.peer = .closed → next.peer = .closed) ∧
      (next.peer = .closed → state.peer = .closed ∨ action = .close) := by
  cases action with
  | halfClose =>
    obtain ⟨open', same⟩ := Option.ite_none_right_eq_some.mp taken
    cases same
    refine ⟨Nat.le_refl _, fun closed => ?_, fun closed => ?_⟩
    · rw [open'] at closed
      cases closed
    · cases closed
  | close =>
    cases taken
    exact ⟨Nat.le_refl _, fun _ => rfl, fun _ => .inr rfl⟩
  | proceed answers =>
    simp only [step] at taken
    split at taken
    · cases taken
    · rename_i operation rest asks
      obtain ⟨⟨answer, requests⟩, responded, rfl⟩ := Option.map_eq_some_iff.mp taken
      obtain ⟨phase, _, complies, placed⟩ := holds.ordered
      rw [asks] at complies
      obtain ⟨reached, advanced, _⟩ := complies answer
      rw [turned_requests, turned_peer]
      refine ⟨?_, fun closed => closed, .inl⟩
      rcases respond_cases responded advanced placed with
        ⟨rfl, _⟩ | ⟨_, _, rfl⟩ | ⟨stopping, _, _, shown, rfl⟩
      · exact Nat.le_refl _
      · rw [List.length_append]
        exact Nat.le_add_right _ _
      · exact (List.length_set ..).ge
  | watch other poll =>
    obtain ⟨request, _, rest⟩ := Option.bind_eq_some_iff.mp taken
    obtain ⟨changed, _, rfl⟩ := Option.map_eq_some_iff.mp rest
    exact ⟨(List.length_set ..).ge, fun closed => closed, .inl⟩

end

/-! ## How long a watcher goes on -/

/-- The steps that a watcher still takes when it was told to stop. -/
def remaining : Option Watcher → Nat
  | some (.ask .stopped _) => 1
  | some (.ask .poll _) => 2
  | some (.ask .cancel _) => 1
  | _ => 0

/-- The steps in which a watcher whose client has gone sets the flag. -/
def distance : Option Watcher → Nat
  | some (.ask .stopped _) => 3
  | some (.ask .poll _) => 2
  | some (.ask .cancel _) => 1
  | _ => 0

section

variable {settings : Settings} {state next : State} {action : Step} {index taken : Nat} {request after : Request}

/-- So many steps of its watcher after a request was told to stop leave so few. -/
def Stopping (index taken : Nat) (state : State) : Prop :=
  Invariant state ∧ ∃ request, state.requests[index]? = some request ∧ request.stopped = true ∧
    taken + remaining request.watcher ≤ 2

/-- A step of the watcher brings it nearer to its end, and other steps leave it stopping. -/
theorem Stopping.step (stopping : Stopping index taken state)
    (moved : Monitoring.step settings state action = some next) :
    Stopping index (taken + (action.watches index).toNat) next := by
  obtain ⟨holds, request, found, stopped, few⟩ := stopping
  refine ⟨holds.step moved, ?_⟩
  obtain ⟨longer, _, _⟩ := step_keeps holds moved
  obtain ⟨inside, _⟩ := List.getElem?_eq_some_iff.mp found
  obtain ⟨after, shown⟩ : ∃ after, next.requests[index]? = some after :=
    ⟨_, List.getElem?_eq_getElem (Nat.lt_of_lt_of_le inside longer)⟩
  refine ⟨after, shown, ?_⟩
  rcases request_cases holds moved shown with ⟨before, earlier, becomes⟩ | ⟨_, absent, _⟩
  · obtain rfl := Option.some.inj (found.symm.trans earlier)
    cases becomes with
    | kept elsewhere =>
      rw [elsewhere]
      exact ⟨stopped, few⟩
    | stopping elsewhere =>
      rw [elsewhere]
      exact ⟨rfl, few⟩
    | watched poll _ here watched =>
      subst here
      rw [show (Step.watch index poll).watches index = true from beq_self_eq_true index, Bool.toNat_true]
      rcases watched_cases (holds.watchers index request found) watched with
        ⟨stands, rfl⟩ | ⟨stands, _, rfl⟩ | ⟨stands, rfl⟩
      · rw [stands] at few
        rw [stopped]
        exact ⟨rfl, few⟩
      · rw [stands] at few
        refine ⟨stopped, ?_⟩
        have zero : taken + 2 ≤ 2 := few
        dsimp only
        split <;> exact (by omega : taken + 1 + 1 ≤ 2)
      · rw [stands] at few
        exact ⟨stopped, few⟩
  · rw [absent] at found
    cases found

/-- A watcher that has returned was told to stop or has set the flag. -/
structure Watched (state : State) : Prop where
  holds : Invariant state
  returned : ∀ (index : Nat) (request : Request), state.requests[index]? = some request → request.watcher = none →
    request.cancelled = true ∨ request.stopped = true

/-- Every step leaves each watcher with its request. -/
theorem Watched.step (watched : Watched state) (moved : Monitoring.step settings state action = some next) :
    Watched next := by
  refine ⟨watched.holds.step moved, fun index after found returned => ?_⟩
  rcases request_cases watched.holds moved found with ⟨request, shown, becomes⟩ | ⟨rfl, _, _⟩
  · cases becomes with
    | kept _ => exact watched.returned index after shown returned
    | stopping _ => exact .inr rfl
    | watched poll _ _ goes =>
      rcases watched_cases (watched.holds.watchers index request shown) goes with
        ⟨_, rfl⟩ | ⟨_, _, rfl⟩ | ⟨_, rfl⟩
      · refine .inr ?_
        by_contra running
        simp only [running] at returned
        cases returned
      · cases returned
      · exact .inl rfl
  · cases returned

/-- In every run each watcher has its request. -/
theorem watched_of_run {actions : List Step} {last : State}
    (reached : run (Monitoring.step settings) (.initial settings) actions = some last) : Watched last := by
  refine invariant_run (fun _ _ _ watched moved => watched.step moved) ⟨invariant_initial, ?_⟩ reached
  intro index request found
  cases found

/-- After so many steps of its watcher with the client gone a request is told, or is over,
or will be told this soon. -/
structure Noticing (index taken : Nat) (state : State) : Prop where
  watched : Watched state
  gone : state.peer = .closed
  absent : state.requests[index]? = none → taken = 0
  present : ∀ request, state.requests[index]? = some request →
    request.cancelled = true ∨ request.stopped = true ∨ taken + distance request.watcher ≤ 3

/-- A watcher that watches is at most three steps from its end. -/
theorem distance_le (stands : Watches request.watcher) : distance request.watcher ≤ 3 := by
  generalize request.watcher = watcher at stands
  cases stands <;> decide

/-- A poll tells that a client has gone. -/
theorem not_quiet_of_gone {poll : Poll} (permitted : Peer.closed.permits poll = true) : poll.quiet = false := by
  cases poll with
  | elapsed => cases permitted
  | ready events => simp only [Poll.quiet, show events.terminal = true from permitted, Bool.not_true]
  | failed => rfl

/-- Only a request that is there has a watcher that steps. -/
theorem present_of_watches (moved : Monitoring.step settings state action = some next)
    (watches : action.watches index = true) : state.requests[index]? ≠ none := by
  cases action with
  | watch other poll =>
    obtain rfl : other = index := beq_iff_eq.mp watches
    obtain ⟨request, found, _⟩ := Option.bind_eq_some_iff.mp moved
    rw [found]
    exact Option.some_ne_none _
  | _ => cases watches

/-- A step of the watcher brings it nearer to noticing the close, and others keep it so. -/
theorem Noticing.step (noticing : Noticing index taken state)
    (moved : Monitoring.step settings state action = some next) :
    Noticing index (taken + (action.watches index).toNat) next := by
  have holds := noticing.watched.holds
  obtain ⟨longer, stays, _⟩ := step_keeps holds moved
  refine ⟨noticing.watched.step moved, stays noticing.gone, fun absent => ?_, fun after found => ?_⟩
  · have before : state.requests[index]? = none :=
      List.getElem?_eq_none (Nat.le_trans longer (List.getElem?_eq_none_iff.mp absent))
    have elsewhere : action.watches index = false :=
      Bool.eq_false_iff.mpr fun watches => present_of_watches moved watches before
    rw [noticing.absent before, elsewhere]
    rfl
  · rcases request_cases holds moved found with ⟨request, shown, becomes⟩ | ⟨rfl, absent, elsewhere⟩
    · have soon := noticing.present request shown
      cases becomes with
      | kept elsewhere =>
        rw [elsewhere]
        exact soon
      | stopping _ => exact .inr (.inl rfl)
      | watched poll _ here goes =>
        subst here
        rw [show (Step.watch index poll).watches index = true from beq_self_eq_true index, Bool.toNat_true]
        rcases watched_cases (holds.watchers index request shown) goes with
          ⟨stands, rfl⟩ | ⟨stands, permitted, rfl⟩ | ⟨_, rfl⟩
        · rw [stands] at soon
          refine soon.imp_right fun later => ?_
          cases stopped : request.stopped with
          | true => exact .inl rfl
          | false =>
            refine .inr ?_
            have close : taken + 3 ≤ 3 := later.resolve_left (by rw [stopped]; exact Bool.false_ne_true)
            exact (by omega : taken + 1 + 2 ≤ 3)
        · rw [stands] at soon
          rw [noticing.gone] at permitted
          refine soon.imp_right fun later => later.imp_right fun close => ?_
          rw [not_quiet_of_gone permitted]
          have close : taken + 2 ≤ 3 := close
          exact (by omega : taken + 1 + 1 ≤ 3)
        · exact .inl rfl
    · rw [noticing.absent absent, elsewhere]
      exact .inr (.inr (by decide))

/-! ## Why a request is told -/

/-- What may make a watcher set the flag of this request. -/
def Step.causes (index : Nat) : Step → Bool
  | .close => true
  | .watch other .failed => other == index
  | _ => false

/-- Without a cause the client is there and the request is not told. -/
structure Uncaused (index taken : Nat) (state : State) : Prop where
  holds : Invariant state
  there : taken = 0 → state.peer ≠ .closed
  untold : taken = 0 → ∀ request, state.requests[index]? = some request →
    request.cancelled = false ∧ distance request.watcher ≠ 1

/-- A poll of a client that is there and does not fail is quiet. -/
theorem quiet_of_there {peer : Peer} {poll : Poll} (there : peer ≠ .closed) (permitted : peer.permits poll = true)
    (succeeded : poll ≠ .failed) : poll.quiet = true := by
  cases poll with
  | elapsed => rfl
  | failed => exact absurd rfl succeeded
  | ready events =>
    cases peer with
    | closed => exact absurd rfl there
    | connected => exact permitted
    | halfClosed => exact permitted

/-- A request stays untold while nothing causes it to be told. -/
theorem Uncaused.step (uncaused : Uncaused index taken state)
    (moved : Monitoring.step settings state action = some next) :
    Uncaused index (taken + (action.causes index).toNat) next := by
  have holds := uncaused.holds
  refine ⟨holds.step moved, fun uncounted gone => ?_, fun uncounted after found => ?_⟩
  · obtain ⟨earlier, unmoved⟩ := Nat.add_eq_zero_iff.mp uncounted
    obtain ⟨_, _, went⟩ := step_keeps holds moved
    rcases went gone with before | rfl
    · exact uncaused.there earlier before
    · cases unmoved
  · obtain ⟨earlier, unmoved⟩ := Nat.add_eq_zero_iff.mp uncounted
    rcases request_cases holds moved found with ⟨request, shown, becomes⟩ | ⟨rfl, absent, elsewhere⟩
    · have before := uncaused.untold earlier request shown
      cases becomes with
      | kept elsewhere => exact before
      | stopping _ => exact before
      | watched poll _ here goes =>
        subst here
        rcases watched_cases (holds.watchers index request shown) goes with
          ⟨stands, rfl⟩ | ⟨stands, permitted, rfl⟩ | ⟨stands, rfl⟩
        · refine ⟨before.1, ?_⟩
          dsimp only
          split <;> decide
        · have succeeded : poll ≠ .failed := by
            rintro rfl
            simp [Step.causes] at unmoved
          rw [quiet_of_there (uncaused.there earlier) permitted succeeded]
          exact ⟨before.1, show distance (some watchRound) ≠ 1 by decide⟩
        · rw [stands] at before
          exact absurd rfl before.2
    · exact ⟨rfl, by decide⟩

end

/-! ## Every run of a connection -/

section

variable {settings : Settings} {actions : List Step} {state : State}

/-- The request is being handled or its monitor dropped. -/
def Operation.monitored : Operation → Bool
  | .within _ => true
  | .stop => true
  | .join => true
  | _ => false

/-- Every operation has some answer. -/
theorem answer_exists (operation : Operation) : Nonempty (Answer operation) := by
  cases operation with
  | receive => exact ⟨(.ok none : Except String (Option Bytes))⟩
  | cloneStream => exact ⟨(.ok () : Except IoError Unit)⟩
  | spawnWatcher => exact ⟨(.ok () : Except IoError Unit)⟩
  | stop => exact ⟨()⟩
  | join => exact ⟨()⟩
  | write _ => exact ⟨(.ok () : Except IoError Unit)⟩
  | within operation => exact Journal.nonempty_answer operation

/-- Without a monitor a turn rests. -/
theorem resting_of_unmonitored {phase reached : Phase} {operation : Operation} {answer : Answer operation}
    (advanced : advance phase ⟨operation, answer⟩ = some reached) (outside : operation.monitored = false) :
    phase = .resting := by
  cases operation with
  | receive | cloneStream | spawnWatcher | write _ => exact (Option.ite_none_right_eq_some.mp advanced).1
  | _ => cases outside

/-- A resting connection has no watcher. -/
theorem Invariant.alone (holds : Invariant state) (rests : Placed state.requests .resting) :
    ∀ request ∈ state.requests, request.watcher = none := by
  intro request member
  obtain ⟨index, found⟩ := List.mem_iff_getElem?.mp member
  by_contra alive
  have last := holds.alive_last found alive
  refine alive (rests request ?_).1
  rw [current, ← last]
  exact found

end

namespace Sample

def settings : Settings := ⟨fun _ data => data, true⟩

/-- A request for the identities arrives and everything else succeeds. -/
def answers : (operation : Operation) → Answer operation
  | .receive => (.ok (some [11]) : Except String (Option Bytes))
  | .cloneStream => (.ok () : Except IoError Unit)
  | .spawnWatcher => (.ok () : Except IoError Unit)
  | .stop => ()
  | .join => ()
  | .write _ => (.ok () : Except IoError Unit)
  | .within .cancelled => false
  | .within .listKeys => (.ok [] : Except RecordCodec.StoreError (List RecordCodec.StoredKey))
  | .within (.requestPin _) => (.ok [] : Except String Bytes)
  | .within .lockTpm => (.ok true : Except Unit Bool)
  | .within .connectTpm => (.ok () : Except TpmError Unit)
  | .within (.sign _ _ _) => (.ok [] : Except TpmError Bytes)
  | .within .clock => (none : Option UInt64)
  | .within (.appendHistory _) => (.ok () : Except String Unit)

/-- A request is received with its monitor before the client closes the connection. -/
def arriving : List Step := [.proceed answers, .proceed answers, .proceed answers, .close]

/-- The watcher notices it. -/
def noticing : List Step := [.watch 0 .elapsed, .watch 0 (.ready ⟨true, false⟩), .watch 0 .elapsed]

end Sample

section

variable {settings : Settings} {actions : List Step} {state : State}

/-- In every run of a connection only the watcher of the request in progress has not returned,
and that one can always go on; while the connection reads, starts a monitor, writes or has ended,
there is none; and a watcher takes at most two steps after it was told to stop, so the drop of a
monitor ends. -/
theorem watchers_serve_one_request (reached : run (step settings) (.initial settings) actions = some state) :
    (∀ (index : Nat) (request : Request), state.requests[index]? = some request → request.watcher ≠ none →
      index + 1 = state.requests.length ∧ ∃ next, step settings state (.watch index state.peer.polled) = some next) ∧
    (∀ operation next, state.connection = .ask operation next → operation.monitored = false →
      ∀ request ∈ state.requests, request.watcher = none) ∧
    (∀ result, state.connection = .done result → ∀ request ∈ state.requests, request.watcher = none) ∧
    ∀ (index : Nat) (request : Request) (later : List Step) (final : State), state.requests[index]? = some request →
      request.stopped = true → run (step settings) state later = some final →
      later.countP (Step.watches index) ≤ 2 := by
  have holds := invariant_of_run invariant_initial reached
  obtain ⟨phase, _, complies, placed⟩ := holds.ordered
  refine ⟨fun index request found alive => ⟨holds.alive_last found alive, ?_⟩, ?_, ?_, ?_⟩
  · obtain ⟨after, goes⟩ := watched_enabled (holds.watchers index request found) alive state.peer
    refine ⟨{ state with requests := state.requests.set index after }, ?_⟩
    simp only [step, found, Option.bind_some, goes, Option.map_some]
  · intro operation next asks outside
    rw [asks] at complies
    obtain ⟨answer⟩ := answer_exists operation
    obtain ⟨reached, advanced, _⟩ := complies answer
    obtain rfl := resting_of_unmonitored advanced outside
    exact holds.alone placed
  · intro result ended
    rw [ended] at complies
    obtain rfl : phase = .resting := complies
    exact holds.alone placed
  · intro index request later final found stopped continued
    have stopping : Stopping index 0 state := by
      refine ⟨holds, request, found, stopped, ?_⟩
      have stands := holds.watchers index request found
      generalize request.watcher = watcher at stands
      cases stands <;> decide
    obtain ⟨_, _, _, _, few⟩ := counted_run (Step.watches index) (fun _ _ _ _ stopping moved => stopping.step moved)
      stopping continued
    omega

/-- The watcher of a request that has just been received. -/
theorem watchers_serve_one_request_received : ∃ state request,
    run (step Sample.settings) (.initial Sample.settings) Sample.arriving = some state ∧
      state.requests[0]? = some request ∧ 1 = state.requests.length ∧
      ∃ next, step Sample.settings state (.watch 0 state.peer.polled) = some next := by
  have reached : run (step Sample.settings) (.initial Sample.settings) Sample.arriving = some _ := rfl
  exact ⟨_, _, reached, rfl, (watchers_serve_one_request reached).1 0 _ rfl (Option.some_ne_none _)⟩

/-- A request is told only after its client closed the connection or a poll of its own watcher
failed, whatever else happens to the client, the connection and the other requests; and when
the client has closed the connection, three steps of its watcher are enough for a request to be
told or to be over. -/
theorem requests_are_told_for_a_cause (reached : run (step settings) (.initial settings) actions = some state) :
    (∀ (index : Nat) (request : Request), state.requests[index]? = some request → request.cancelled = true →
      Step.close ∈ actions ∨ Step.watch index .failed ∈ actions) ∧
    (state.peer = .closed → ∀ (later : List Step) (final : State), run (step settings) state later = some final →
      ∀ (index : Nat) (request : Request), final.requests[index]? = some request →
        3 ≤ later.countP (Step.watches index) → request.cancelled = true ∨ request.stopped = true) := by
  constructor
  · intro index request found cancelled
    have start : Uncaused index 0 (.initial settings) := by
      refine ⟨invariant_initial, fun _ impossible => ?_, fun _ request found => ?_⟩
      · cases impossible
      · cases found
    have uncaused := counted_run (Step.causes index) (fun _ _ _ _ uncaused moved => uncaused.step moved) start reached
    have caused : 0 < actions.countP (Step.causes index) := by
      by_contra none'
      obtain ⟨untold, _⟩ := uncaused.untold (by omega) request found
      rw [cancelled] at untold
      cases untold
    obtain ⟨action, member, causes⟩ := List.countP_pos_iff.mp caused
    match action with
    | .close => exact .inl member
    | .watch other .failed =>
      obtain rfl : other = index := beq_iff_eq.mp causes
      exact .inr member
  · intro gone later final continued index request found enough
    have watched := watched_of_run reached
    have start : Noticing index 0 state := by
      refine ⟨watched, gone, fun _ => rfl, fun request found => .inr (.inr ?_)⟩
      have near := distance_le (watched.holds.watchers index request found)
      omega
    have noticing := counted_run (Step.watches index) (fun _ _ _ _ noticing moved => noticing.step moved)
      start continued
    rcases noticing.present request found with told | stopped | near
    · exact .inl told
    · exact .inr stopped
    · refine noticing.watched.returned index request found ?_
      have done : distance request.watcher = 0 := by omega
      have stands := noticing.watched.holds.watchers index request found
      generalize request.watcher = watcher at stands done
      cases stands <;> first | rfl | cases done

/-- A client that closes the connection while its request is handled. -/
theorem requests_are_told_for_a_cause_closed : ∃ state final request,
    run (step Sample.settings) (.initial Sample.settings) Sample.arriving = some state ∧
      run (step Sample.settings) state Sample.noticing = some final ∧ final.requests[0]? = some request ∧
      (request.cancelled = true ∨ request.stopped = true) := by
  have reached : run (step Sample.settings) (.initial Sample.settings) Sample.arriving = some _ := rfl
  refine ⟨_, _, _, reached, rfl, rfl, ?_⟩
  exact (requests_are_told_for_a_cause reached).2 rfl Sample.noticing _ rfl 0 _ rfl (by decide)

end

end Keyvisor.Monitoring
