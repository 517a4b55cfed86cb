import Keyvisor.ControlClient
import Keyvisor.Limiter
import Keyvisor.PinExchange
import Keyvisor.Runtime

/-!
# The agent process

The threads of `keyvisor-agent/src/main.rs` as one transition system: the two accept
loops with their limiters, the SSH clients with one request each at a time, the
calls of `request_pin` and the control connections. A request is the program of
`handle` and a control connection is the program of its worker; each keeps the
transcript of what it asked and was answered. Whatever is shared between threads
answers from the state of the system, and everything else (the store, the TPM, the
clock, the peers' bytes) answers as the environment of the step likes.

Every step of one thread is a step of the system, so a run is any interleaving of
any number of connections and requests. No mutex is poisoned.
-/

namespace Keyvisor.Agent

open Foundation Foundation.Text Control PinExchange Limiter

/-- An SSH request: its client, its packet, the rest of `handle`, what it did so far,
whether the monitor saw the client disconnect, and its call of `request_pin`. -/
structure Request where
  client : Nat
  packet : Bytes
  program : Runtime.Action (Except String Bytes)
  transcript : List (Program.Exchange Runtime.Operation Runtime.Answer)
  cancelled : Bool
  call : Option Nat

/-- A control connection: the rest of its worker, what it did so far and its
authorization command. -/
structure Controller where
  program : Control.Action Unit
  transcript : List (Program.Exchange Control.Operation Control.Answer)
  taker : Option Nat

/-- An SSH client's thread knows the request that it serves. -/
structure State where
  clients : Server (Option Nat)
  controllers : Server Controller
  exchange : PinExchange.State
  requests : List Request

/-- No client, no control connection and no request. -/
def initial : State := ⟨.new, .new, PinExchange.initial, []⟩

/-- The steps inside the wait for a PIN. -/
inductive Wait where
  | insert
  | poll
  | deadline (passed : Bool)
  | observe
  | remove
  deriving DecidableEq, Repr

/-- The step of the exchange that a step of the wait is. -/
def Wait.on (call : Nat) (cancelled : Bool) : Wait → PinExchange.Action
  | insert => .insert call
  | poll => .poll call
  | deadline passed => .deadline call passed
  | observe => .observe call cancelled
  | remove => .remove call

/-- What a thread's environment answers to the operations that are not shared. -/
abbrev Answers (Operation : Type) (Answer : Operation → Type) := (operation : Operation) → Answer operation

/-- Who takes the next step, and what its environment answers. -/
inductive Action where
  | client (action : Limiter.Action)
  | controller (action : Limiter.Action)
  | receive (client : Nat) (packet : Bytes)
  | respond (client : Nat)
  | disconnect (request : Nat)
  | perform (request : Nat) (environment : Answers Runtime.Operation Runtime.Answer)
  | begin (request : Nat)
  | wait (request : Nat) (step : Wait)
  | finish (request : Nat)
  | control (controller : Nat) (environment : Answers Control.Operation Control.Answer)

/-! ## Requests -/

/-- The key whose PIN a request is asking for, and what it does with the answer. -/
def Request.asking (request : Request) :
    Option (String × (Except String Bytes → Runtime.Action (Except String Bytes))) :=
  match request.program with
  | .ask (.requestPin keyName) next => some (keyName, next)
  | _ => none

/-- The cancellation flag is the request's own. -/
def Request.environment (request : Request) (environment : Answers Runtime.Operation Runtime.Answer) :
    Answers Runtime.Operation Runtime.Answer
  | .cancelled => request.cancelled
  | operation => environment operation

/-- An operation with an answer, other than the wait for a PIN. -/
def Request.perform (request : Request) (environment : Answers Runtime.Operation Runtime.Answer) :
    Option Request :=
  match request.program with
  | .done _ => none
  | .ask (.requestPin _) _ => none
  | .ask operation next =>
    let answer := request.environment environment operation
    some { request with program := next answer, transcript := request.transcript ++ [⟨operation, answer⟩] }

/-- The return of `request_pin` to the request that called it. -/
def Request.returned (request : Request) (keyName : String)
    (next : Except String Bytes → Runtime.Action (Except String Bytes)) (result : Except String Bytes) : Request :=
  { request with
    program := next result
    transcript := request.transcript ++ [⟨.requestPin keyName, result⟩] }

/-! ## Control connections -/

/-- The receiver of a call still exists. -/
def listening (exchange : PinExchange.State) (call : Nat) : Bool :=
  match exchange.calls[call]? with
  | some call => call.stage.listening
  | none => false

/-- What a control connection is answered: a listing shows the table in any order, a
removal finds what is there, and a value is accepted while there is a receiver. -/
def answerTo (exchange : PinExchange.State) (environment : Answers Control.Operation Control.Answer) :
    (operation : Control.Operation) → Option (Control.Answer operation)
  | .pending =>
    match (environment .pending : Except Unit (List (RequestId × String))) with
    | .ok order => if order.Perm (shown exchange.table) then some (.ok order) else none
    | .error _ => none
  | .remove id => some (.ok (exchange.table.lookup id))
  | .send sender _ => some (if listening exchange sender then .ok () else .error ())
  | operation => some (environment operation)

/-- What an exchange of a control connection does to the exchange of PINs. -/
def effect (taker : Option Nat) : Program.Exchange Control.Operation Control.Answer → Option PinExchange.Action
  | ⟨.readCommand, answer⟩ =>
    match (answer : Except String Command) with
    | .ok (.authorize id pin) => some (.command id pin)
    | _ => none
  | ⟨.remove _, _⟩ => taker.map .take
  | ⟨.send _ _, _⟩ => taker.map .send
  | _ => none

/-- A connection that reads an authorization command is about that command. -/
def takerAfter (exchange : PinExchange.State) (taker : Option Nat)
    (exchanged : Program.Exchange Control.Operation Control.Answer) : Option Nat :=
  match commandRead exchanged with
  | some _ => some exchange.takers.length
  | none => taker

/-- The next operation of a connection with its answer. -/
def Controller.next (controller : Controller) (exchange : PinExchange.State)
    (environment : Answers Control.Operation Control.Answer) :
    Option (Program.Exchange Control.Operation Control.Answer × Control.Action Unit) :=
  match controller.program with
  | .done _ => none
  | .ask operation next =>
    (answerTo exchange environment operation).map fun answer => (⟨operation, answer⟩, next answer)

/-! ## The system -/

section

variable (settings : Runtime.Settings) (process : UInt32)

/-- A new request of a client. -/
def opened (client : Nat) (packet : Bytes) : Request :=
  ⟨client, packet, (Runtime.handle settings packet).run, [], false, none⟩

/-- A new control connection. -/
def connected : Controller := ⟨worker, [], none⟩

/-- The step of the exchange of PINs that a step of the system consists of, if any. -/
def touches (state : State) : Action → Option PinExchange.Action
  | .begin index => do
    let request ← state.requests[index]?
    let (keyName, _) ← request.asking
    return .number keyName
  | .wait index wait => do
    let request ← state.requests[index]?
    let call ← request.call
    return wait.on call request.cancelled
  | .finish index => do
    let request ← state.requests[index]?
    let call ← request.call
    return .finish call
  | .control index environment => do
    let controller ← state.controllers.running index
    let (exchanged, _) ← controller.next state.exchange environment
    effect controller.taker exchanged
  | _ => none

/-- What a step does to the thread that takes it. -/
def own (state : State) : Action → Option State
  | .client action => do
    let clients ← state.clients.step none Option.isNone action
    return { state with clients := clients }
  | .controller action => do
    let controllers ← state.controllers.step connected (fun controller => controller.program.finished) action
    return { state with controllers := controllers }
  | .receive client packet =>
    match state.clients.running client with
    | some none => some { state with
        clients := state.clients.update client (some state.requests.length)
        requests := state.requests ++ [opened settings client packet] }
    | _ => none
  | .respond client =>
    match state.clients.running client with
    | some (some index) => do
      let request ← state.requests[index]?
      if request.program.finished then some { state with clients := state.clients.update client none } else none
    | _ => none
  | .disconnect index => do
    let request ← state.requests[index]?
    return { state with requests := state.requests.set index { request with cancelled := true } }
  | .perform index environment => do
    let request ← state.requests[index]?
    let next ← request.perform environment
    return { state with requests := state.requests.set index next }
  | .begin index => do
    let request ← state.requests[index]?
    let _ ← request.asking
    if request.call = none then
      some { state with
        requests := state.requests.set index { request with call := some state.exchange.calls.length } }
    else none
  | .wait index _ => do
    let request ← state.requests[index]?
    let _ ← request.asking
    let _ ← request.call
    return state
  | .finish index => do
    let request ← state.requests[index]?
    let (keyName, next) ← request.asking
    let call ← request.call
    match state.exchange.calls[call]? with
    | some ⟨_, .removed result, _⟩ =>
      some { state with requests := state.requests.set index (request.returned keyName next result) }
    | _ => none
  | .control index environment => do
    let controller ← state.controllers.running index
    let (exchanged, rest) ← controller.next state.exchange environment
    let after : Controller :=
      ⟨rest, controller.transcript ++ [exchanged], takerAfter state.exchange controller.taker exchanged⟩
    return { state with controllers := state.controllers.update index after }

/-- The exchange after a step of the system. -/
def exchanged (state : State) (action : Action) : Option PinExchange.State :=
  match touches state action with
  | some inner => PinExchange.step process state.exchange inner
  | none => some state.exchange

/-- One step of the system. -/
def step (state : State) (action : Action) : Option State := do
  let next ← own settings state action
  let exchange ← exchanged process state action
  return { next with exchange := exchange }

/-- What a step can do, one case for each kind of step. -/
inductive Takes (state : State) : Action → State → Prop where
  | client {action : Limiter.Action} {clients : Server (Option Nat)}
      (taken : state.clients.step none Option.isNone action = some clients) :
      Takes state (.client action) { state with clients := clients }
  | controller {action : Limiter.Action} {controllers : Server Controller}
      (taken : state.controllers.step connected (fun controller => controller.program.finished) action =
        some controllers) :
      Takes state (.controller action) { state with controllers := controllers }
  | receive {client : Nat} (packet : Bytes) (idle : state.clients.running client = some none) :
      Takes state (.receive client packet) { state with
        clients := state.clients.update client (some state.requests.length)
        requests := state.requests ++ [opened settings client packet] }
  | respond {client index : Nat} {request : Request} (serving : state.clients.running client = some (some index))
      (found : state.requests[index]? = some request) (finished : request.program.finished) :
      Takes state (.respond client) { state with clients := state.clients.update client none }
  | disconnect {index : Nat} {request : Request} (found : state.requests[index]? = some request) :
      Takes state (.disconnect index)
        { state with requests := state.requests.set index { request with cancelled := true } }
  | perform {index : Nat} {request : Request} {operation : Runtime.Operation}
      {next : Runtime.Answer operation → Runtime.Action (Except String Bytes)}
      (environment : Answers Runtime.Operation Runtime.Answer) (found : state.requests[index]? = some request)
      (asks : request.program = .ask operation next) (other : ∀ keyName, operation ≠ .requestPin keyName)
      (answer : Runtime.Answer operation) :
      Takes state (.perform index environment) { state with requests := state.requests.set index { request with
        program := next answer, transcript := request.transcript ++ [⟨operation, answer⟩] } }
  | begin {index : Nat} {request : Request} {keyName : String}
      {next : Except String Bytes → Runtime.Action (Except String Bytes)}
      (found : state.requests[index]? = some request) (asks : request.program = .ask (.requestPin keyName) next)
      (fresh : request.call = none) :
      Takes state (.begin index) { state with
        exchange := { state.exchange with calls := state.exchange.calls ++ [⟨keyName, .numbered, []⟩] }
        requests := state.requests.set index { request with call := some state.exchange.calls.length } }
  | wait {index call : Nat} {request : Request} {keyName : String}
      {next : Except String Bytes → Runtime.Action (Except String Bytes)} {wait : Wait}
      {exchange : PinExchange.State} (found : state.requests[index]? = some request)
      (asks : request.program = .ask (.requestPin keyName) next) (called : request.call = some call)
      (moved : PinExchange.step process state.exchange (wait.on call request.cancelled) = some exchange) :
      Takes state (.wait index wait) { state with exchange := exchange }
  | finish {index call : Nat} {request : Request} {keyName name : String} {result : Except String Bytes}
      {queue : List Pin} {next : Except String Bytes → Runtime.Action (Except String Bytes)}
      (found : state.requests[index]? = some request) (asks : request.program = .ask (.requestPin keyName) next)
      (called : request.call = some call)
      (ended : state.exchange.calls[call]? = some ⟨name, .removed result, queue⟩) :
      Takes state (.finish index) { state with
        exchange := state.exchange.setCall call ⟨name, .returned result, []⟩
        requests := state.requests.set index (request.returned keyName next result) }
  | control {index : Nat} {controller : Controller} {environment : Answers Control.Operation Control.Answer}
      {operation : Control.Operation} {next : Control.Answer operation → Control.Action Unit}
      {answer : Control.Answer operation} {exchange : PinExchange.State}
      (runs : state.controllers.running index = some controller) (asks : controller.program = .ask operation next)
      (answered : answerTo state.exchange environment operation = some answer)
      (moved : (match effect controller.taker ⟨operation, answer⟩ with
        | some inner => PinExchange.step process state.exchange inner
        | none => some state.exchange) = some exchange) :
      Takes state (.control index environment) { state with
        exchange := exchange
        controllers := state.controllers.update index ⟨next answer,
          controller.transcript ++ [⟨operation, answer⟩],
          takerAfter state.exchange controller.taker ⟨operation, answer⟩⟩ }

/-- A request that asks for a PIN is at its `request_pin`. -/
theorem asking_eq_some {request : Request} {keyName : String}
    {next : Except String Bytes → Runtime.Action (Except String Bytes)}
    (asking : request.asking = some (keyName, next)) : request.program = .ask (.requestPin keyName) next := by
  unfold Request.asking at asking
  split at asking
  · rename_i program
    cases asking
    exact program
  · cases asking

section

variable {settings process} {state middle : State} {exchange : PinExchange.State}

/-- A client's thread responds once the request it serves is finished. -/
theorem takes_of_respond {client : Nat} (owned : own settings state (.respond client) = some middle)
    (moved : exchanged process state (.respond client) = some exchange) :
    Takes settings process state (.respond client) { middle with exchange := exchange } := by
  cases moved
  simp only [own] at owned
  split at owned
  · rename_i index serving
    obtain ⟨request, found, owned⟩ := Option.bind_eq_some_iff.mp owned
    split at owned
    · rename_i finished
      cases owned
      exact .respond serving found finished
    · cases owned
  · cases owned

/-- A request performs an operation other than its wait for a PIN. -/
theorem takes_of_perform {index : Nat} {environment : Answers Runtime.Operation Runtime.Answer}
    (owned : own settings state (.perform index environment) = some middle)
    (moved : exchanged process state (.perform index environment) = some exchange) :
    Takes settings process state (.perform index environment) { middle with exchange := exchange } := by
  cases moved
  obtain ⟨request, found, owned⟩ := Option.bind_eq_some_iff.mp owned
  obtain ⟨after, performed, owned⟩ := Option.bind_eq_some_iff.mp owned
  cases owned
  unfold Request.perform at performed
  split at performed
  · cases performed
  · cases performed
  · rename_i operation rest other asks
    cases performed
    exact .perform environment found asks (fun keyName same => by subst same; exact other keyName rest rfl HEq.rfl) _

/-- A request that asks for a PIN begins a call, which the exchange numbers. -/
theorem takes_of_begin {index : Nat} (owned : own settings state (.begin index) = some middle)
    (moved : exchanged process state (.begin index) = some exchange) :
    Takes settings process state (.begin index) { middle with exchange := exchange } := by
  obtain ⟨request, found, owned⟩ := Option.bind_eq_some_iff.mp owned
  obtain ⟨⟨keyName, rest⟩, asking, owned⟩ := Option.bind_eq_some_iff.mp owned
  split at owned
  · rename_i fresh
    cases owned
    simp only [exchanged, touches, found, asking, Option.bind_eq_bind, Option.bind_some] at moved
    cases moved
    exact .begin found (asking_eq_some asking) fresh
  · cases owned

/-- The wait of a call takes its next step in the exchange alone. -/
theorem takes_of_wait {index : Nat} {wait : Wait} (owned : own settings state (.wait index wait) = some middle)
    (moved : exchanged process state (.wait index wait) = some exchange) :
    Takes settings process state (.wait index wait) { middle with exchange := exchange } := by
  obtain ⟨request, found, owned⟩ := Option.bind_eq_some_iff.mp owned
  obtain ⟨⟨keyName, rest⟩, asking, owned⟩ := Option.bind_eq_some_iff.mp owned
  obtain ⟨call, called, owned⟩ := Option.bind_eq_some_iff.mp owned
  cases owned
  simp only [exchanged, touches, found, called, Option.bind_eq_bind, Option.bind_some] at moved
  exact .wait found (asking_eq_some asking) called moved

/-- A call that is removed from the table returns its result to its request. -/
theorem takes_of_finish {index : Nat} (owned : own settings state (.finish index) = some middle)
    (moved : exchanged process state (.finish index) = some exchange) :
    Takes settings process state (.finish index) { middle with exchange := exchange } := by
  obtain ⟨request, found, owned⟩ := Option.bind_eq_some_iff.mp owned
  obtain ⟨⟨keyName, rest⟩, asking, owned⟩ := Option.bind_eq_some_iff.mp owned
  obtain ⟨call, called, owned⟩ := Option.bind_eq_some_iff.mp owned
  split at owned
  · rename_i name result queue ended
    cases owned
    simp only [exchanged, touches, found, called, Option.bind_eq_bind, Option.bind_some] at moved
    have finishes : PinExchange.step process state.exchange (.finish call) = some exchange := moved
    simp only [PinExchange.step, ended] at finishes
    cases finishes
    exact .finish found (asking_eq_some asking) called ended
  · cases owned

/-- A control connection exchanges its next operation, and the exchange of PINs moves as far
as that operation concerns it. -/
theorem takes_of_control {index : Nat} {environment : Answers Control.Operation Control.Answer}
    (owned : own settings state (.control index environment) = some middle)
    (moved : exchanged process state (.control index environment) = some exchange) :
    Takes settings process state (.control index environment) { middle with exchange := exchange } := by
  obtain ⟨controller, runs, owned⟩ := Option.bind_eq_some_iff.mp owned
  obtain ⟨⟨operated, rest⟩, next, owned⟩ := Option.bind_eq_some_iff.mp owned
  cases owned
  simp only [exchanged, touches, runs, next, Option.bind_eq_bind, Option.bind_some] at moved
  unfold Controller.next at next
  split at next
  · cases next
  · rename_i operation continuation asks
    obtain ⟨answer, answered, same⟩ := Option.map_eq_some_iff.mp next
    cases same
    exact .control runs asks answered moved

end

/-- Every enabled step is one of the kinds of steps. -/
theorem takes_of_step {state next : State} {action : Action} (taken : step settings process state action = some next) :
    Takes settings process state action next := by
  unfold step at taken
  obtain ⟨middle, owned, taken⟩ := Option.bind_eq_some_iff.mp taken
  obtain ⟨exchange, moved, taken⟩ := Option.bind_eq_some_iff.mp taken
  cases taken
  cases action with
  | client action =>
    obtain ⟨clients, stepped, owned⟩ := Option.bind_eq_some_iff.mp owned
    cases owned
    cases moved
    exact .client stepped
  | controller action =>
    obtain ⟨controllers, stepped, owned⟩ := Option.bind_eq_some_iff.mp owned
    cases owned
    cases moved
    exact .controller stepped
  | receive client packet =>
    simp only [own] at owned
    split at owned
    · rename_i idle
      cases owned
      cases moved
      exact .receive packet idle
    · cases owned
  | respond client => exact takes_of_respond owned moved
  | disconnect index =>
    obtain ⟨request, found, owned⟩ := Option.bind_eq_some_iff.mp owned
    cases owned
    cases moved
    exact .disconnect found
  | perform index environment => exact takes_of_perform owned moved
  | begin index => exact takes_of_begin owned moved
  | wait index wait => exact takes_of_wait owned moved
  | finish index => exact takes_of_finish owned moved
  | control index environment => exact takes_of_control owned moved

/-- A request has come where its transcript leads in the program of `handle`. -/
def Request.Follows (request : Request) : Prop :=
  Program.Follows (Runtime.handle settings request.packet).run request.transcript request.program

/-- Every step leads every request further in its own program, if anywhere. -/
theorem follows_step {state next : State} {action : Action}
    (good : ∀ request ∈ state.requests, request.Follows settings)
    (taken : step settings process state action = some next) :
    ∀ request ∈ next.requests, request.Follows settings := by
  have changed (index : Nat) (new : Request) (follows : new.Follows settings) :
      ∀ request ∈ state.requests.set index new, request.Follows settings := by
    intro request member
    rcases List.mem_or_eq_of_mem_set member with old | rfl
    · exact good request old
    · exact follows
  cases takes_of_step settings process taken with
  | client | controller | respond | wait | control => exact good
  | receive packet idle =>
    intro request member
    rcases List.mem_append.mp member with old | new
    · exact good request old
    · cases List.mem_singleton.mp new
      exact .stop _
  | @disconnect index request found => exact changed _ _ (good request (List.mem_of_getElem? found))
  | @begin index request keyName next found => exact changed _ _ (good request (List.mem_of_getElem? found))
  | @perform index request operation next environment found asks other answer =>
    have follows := good request (List.mem_of_getElem? found)
    unfold Request.Follows at follows
    rw [asks] at follows
    exact changed _ _ (follows.snoc answer)
  | @finish index call request keyName name result queue next found asks called ended =>
    have follows := good request (List.mem_of_getElem? found)
    unfold Request.Follows at follows
    rw [asks] at follows
    exact changed _ _ (follows.snoc result)

/-- In every run each request is where its transcript leads. -/
theorem follows_of_run {actions : List Action} {state : State}
    (reached : Transition.run (step settings process) initial actions = some state) :
    ∀ request ∈ state.requests, request.Follows settings :=
  Transition.invariant_run (fun _ _ _ good taken => follows_step settings process good taken)
    (fun _ member => absurd member List.not_mem_nil) reached

end

/-! ## A sample request

One client asks for a signature with a key that has a PIN; one control connection
answers. -/

namespace Sample

def settings : Runtime.Settings := ⟨fun _ _ => [9], false⟩

def key : RecordCodec.StoredKey :=
  ⟨⟨⟨"k"⟩, "work", .ecdsaNistP256, .tpmPin, [7]⟩, ⟨[5], [6], [4], .tpmPin⟩⟩

/-- A request for a signature with the sample key over no data. -/
def packet : Bytes := [13, 0, 0, 0, 1, 7, 0, 0, 0, 0, 0, 0, 0, 0]

def pin : Pin := ⟨[49, 50, 51, 52, 53, 54], by decide, by decide⟩

/-- The store has the sample key and the TPM answers with its bytes. -/
def services : Answers Runtime.Operation Runtime.Answer
  | .cancelled => false
  | .listKeys => (.ok [key] : Except RecordCodec.StoreError (List RecordCodec.StoredKey))
  | .requestPin _ => (.error "" : Except String Bytes)
  | .lockTpm => (.ok true : Except Unit Bool)
  | .connectTpm => (.ok () : Except TpmError Unit)
  | .sign _ _ _ => (.ok [1] : Except TpmError Bytes)
  | .clock => (none : Option UInt64)
  | .appendHistory _ => (.ok () : Except String Unit)

/-- The agent's owner authorizes the first request. -/
def owner : Answers Control.Operation Control.Answer
  | .peercred => (.ok true : Except IoError Bool)
  | .setReadTimeout => (.ok () : Except IoError Unit)
  | .setWriteTimeout => (.ok () : Except IoError Unit)
  | .readCommand => (.ok (.authorize (number 1 0) pin) : Except String Command)
  | .pending => (.error () : Except Unit (List (RequestId × String)))
  | .remove _ => (.error () : Except Unit (Option PendingAuthorization))
  | .send _ _ => (.error () : Except Unit Unit)
  | .write _ => (.ok () : Except IoError Unit)

/-- A connection is accepted and gets a worker. -/
def admitted : List Limiter.Action := [.accept, .acquire, .spawn true]

/-- The request comes in and looks for its PIN in vain. -/
def asked : List Action :=
  admitted.map .client ++ [.receive 0 packet, .perform 0 services, .perform 0 services, .begin 0,
    .wait 0 .insert, .wait 0 .poll]

/-- The owner's connection removes the entry, sends the value and confirms. -/
def authorized : List Action :=
  admitted.map .controller ++ List.replicate 7 (.control 0 owner)

/-- The request looks again, finds the value and signs. -/
def signed : List Action :=
  asked ++ authorized ++ [.wait 0 (.deadline false), .wait 0 .observe, .wait 0 .poll, .wait 0 .remove, .finish 0,
    .perform 0 services, .perform 0 services, .perform 0 services]

end Sample

end Keyvisor.Agent
