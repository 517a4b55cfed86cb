import Keyvisor.PinRequest

/-!
# Requests for PINs as threads

The system in which every request runs the program of `request_pin` operation by
operation, against the shared table and its own channel, while authorization commands take
entries and send values. Its runs are runs of the exchange of PINs, in which a request is a
stage only: what is proved there of every interleaving is true of the programs.
-/

namespace Keyvisor.PinSystem

open Foundation Control PinExchange PinRequest
open Exec (ExitStatus)

/-- A request with its channel, which is closed when the request has returned. -/
structure Request where
  keyName : String
  timeout : Nat
  program : PinRequest.Action (Option (Except String Bytes))
  queue : List Pin
  listening : Bool

/-- What the program of a request has returned. -/
def Request.outcome (request : Request) : Option (Except String Bytes) :=
  match request.program with
  | .done outcome => outcome
  | .ask _ _ => none

/-- The table, the requests and the authorization commands. -/
structure State where
  table : Table
  requests : List Request
  takers : List Taker

/-- No request and no command. -/
def State.initial : State := ⟨∅, [], []⟩

/-- Somebody could still send to the request: the table or a command has its sender. -/
def State.sendable (state : State) (request : Nat) : Bool :=
  state.table.entries.any (fun entry => entry.2.sender == request) ||
    state.takers.any (fun taker => taker.grant == .holding request)

/-- What the rest of the system answers. -/
structure Replies where
  value : Option Bytes
  executable : Option Path
  child : Option Nat
  time : Nat
  status : Except IoError (Option ExitStatus)
  stop : Bool
  killed : Except IoError Unit
  waited : Except IoError ExitStatus

/-- The answer to an operation, with the table and the channel after it. The counter was
asked before. -/
def respond (state : State) (index : Nat) (queue : List Pin) (replies : Replies) :
    (operation : PinRequest.Operation) → PinRequest.Answer operation × Table × List Pin
  | .nextRequestId => (state.requests.length, state.table, queue)
  | .register id keyName => (true, state.table.insert id ⟨keyName, index⟩, queue)
  | .environmentVariable _ => (replies.value, state.table, queue)
  | .currentExecutable => (replies.executable, state.table, queue)
  | .spawn _ _ => (replies.child, state.table, queue)
  | .now => (replies.time, state.table, queue)
  | .tryReceive =>
    match queue with
    | pin :: rest => (.received pin.bytes, state.table, rest)
    | [] => (if state.sendable index then .empty else .disconnected, state.table, [])
  | .tryWait _ => (replies.status, state.table, queue)
  | .cancelled => (replies.stop, state.table, queue)
  | .sleep _ => ((), state.table, queue)
  | .unregister id => (true, state.table.erase id, queue)
  | .kill _ => (replies.killed, state.table, queue)
  | .wait _ => (replies.waited, state.table, queue)

/-- A step of a request or of a command. -/
inductive Action where
  | request (keyName : String) (timeout rounds : Nat)
  | proceed (request : Nat) (replies : Replies)
  | drop (request : Nat)
  | command (id : RequestId) (pin : Pin)
  | take (taker : Nat)
  | send (taker : Nat)

section

variable (process : UInt32)

/-- One step. What concerns no other thread is answered by the replies. -/
def step (state : State) : Action → Option State
  | .request keyName timeout rounds =>
    some { state with requests := state.requests ++ [⟨keyName, timeout,
      identifiedRequest timeout rounds keyName (requestId process (state.requests.length + 1)), [], true⟩] }
  | .proceed index replies =>
    match state.requests[index]? with
    | some ⟨keyName, timeout, .ask operation next, queue, listening⟩ =>
      let reply := respond state index queue replies operation
      some { state with
        table := reply.2.1
        requests := state.requests.set index ⟨keyName, timeout, next reply.1, reply.2.2, listening⟩ }
    | _ => none
  | .drop index =>
    match state.requests[index]? with
    | some ⟨keyName, timeout, .done (some result), _, true⟩ =>
      some { state with requests := state.requests.set index ⟨keyName, timeout, .done (some result), [], false⟩ }
    | _ => none
  | .command id pin => some { state with takers := state.takers ++ [⟨id, pin, .seeking⟩] }
  | .take index =>
    match state.takers[index]? with
    | some ⟨id, pin, .seeking⟩ =>
      match state.table.lookup id with
      | some entry => some { state with
          table := state.table.erase id
          takers := state.takers.set index ⟨id, pin, .holding entry.sender⟩ }
      | none => some { state with takers := state.takers.set index ⟨id, pin, .missing⟩ }
    | _ => none
  | .send index =>
    match state.takers[index]? with
    | some ⟨id, pin, .holding target⟩ =>
      match state.requests[target]? with
      | some request =>
        if request.listening then
          if request.queue = [] then
            some { state with
              requests := state.requests.set target { request with queue := [pin] }
              takers := state.takers.set index ⟨id, pin, .delivered target⟩ }
          else none
        else some { state with takers := state.takers.set index ⟨id, pin, .refused target⟩ }
      | none => none
    | _ => none

end

/-! ## The stage of a program -/

/-- Where a request stands in the exchange of PINs. The table could not be used when it is
spoilt. -/
structure Turn where
  stage : Stage
  deadline : Option Nat
  spoilt : Bool
  deriving DecidableEq

namespace Turn

/-- A request with its identifier. -/
def initial : Turn := ⟨.numbered, none, false⟩

/-- The stage changes. -/
def move (turn : Turn) (stage : Stage) : Turn := { turn with stage := stage }

end Turn

/-- The account of the stage. An operation out of turn is refused. -/
def advance (timeout : Nat) (id : RequestId) (keyName : String) (turn : Turn) :
    (operation : PinRequest.Operation) → PinRequest.Answer operation → Option Turn
  | .nextRequestId, _ => none
  | .register given name, answer =>
    if turn.stage = .numbered ∧ given = id ∧ name = keyName then
      some (if (show Bool from answer) then turn.move .polling else { turn with spoilt := true })
    else none
  | .now, answer =>
    match turn.stage, turn.deadline with
    | .polling, none => some { turn with deadline := some ((show Nat from answer) + timeout) }
    | .checking, some deadline =>
      some (turn.move (if deadline ≤ (show Nat from answer) then .leaving (.error "TPM PIN entry timed out")
        else .observing))
    | _, _ => none
  | .tryReceive, answer =>
    if turn.stage = .polling then
      some (turn.move (match (show Receipt from answer) with
        | .received pin => .leaving (.ok pin)
        | .empty => .checking
        | .disconnected => .leaving (.error "authorization request was cancelled")))
    else none
  | .cancelled, answer =>
    if turn.stage = .observing then
      some (turn.move (if (show Bool from answer) then
        .leaving (.error "TPM PIN entry cancelled because the SSH client disconnected") else .polling))
    else none
  | .unregister given, _ =>
    match turn.stage with
    | .leaving result => if given = id then some (turn.move (.removed result)) else none
    | _ => none
  | _, _ => some turn

/-- The turn after one more exchange. -/
def stageMonitor (timeout : Nat) (id : RequestId) (keyName : String) (turn : Turn)
    (exchange : Program.Exchange PinRequest.Operation PinRequest.Answer) : Option Turn :=
  advance timeout id keyName turn exchange.1 exchange.2

section

variable {timeout : Nat} {id : RequestId} {keyName : String} {turn : Turn}

/-- What concerns the prompt does not concern the stage. -/
theorem ofPrompt_stage {α : Type} {program : PinRequest.Action α} (turn : Turn) (issues : program.Issues ofPrompt) :
    Program.Complies (stageMonitor timeout id keyName) turn program fun reached _ => reached = turn := by
  refine issues.complies fun operation answer apart => ?_
  cases operation <;> first | rfl | cases apart

/-- How a round leaves the stage. -/
def Staged (turn reached : Turn) : Round → Prop
  | .again _ => reached = turn
  | .leave _ result => reached = turn.move (.leaving result)

/-- A round leaves a polling request polling or leaving. -/
theorem requestRound_staged {deadline : Nat} (child : Option Nat) (polls : turn.stage = .polling)
    (waits : turn.deadline = some deadline) :
    Program.Complies (stageMonitor timeout id keyName) turn (requestRound deadline child) (Staged turn) := by
  obtain ⟨stage, due, spoilt⟩ := turn
  cases polls
  cases waits
  refine Program.Complies.bind (Program.complies_call fun receipt => ⟨_, rfl, ?_⟩)
  cases (receipt : Receipt) with
  | received pin => rfl
  | disconnected => rfl
  | empty =>
    refine Program.Complies.bind ((ofPrompt_stage _ (checkPrompt_issues child)).weaken ?_)
    rintro _ left rfl
    refine Program.Complies.bind (Program.complies_call fun time => ⟨_, rfl, ?_⟩)
    by_cases late : deadline ≤ time
    · simp only [late, ↓reduceIte]
      rfl
    · simp only [late, ↓reduceIte]
      refine Program.Complies.bind (Program.complies_call fun stop => ⟨_, rfl, ?_⟩)
      cases (stop : Bool) with
      | true => rfl
      | false => exact Program.Complies.bind (Program.complies_call fun _ => ⟨_, rfl, rfl⟩)

/-- Rounds that end leave a polling request leaving. -/
theorem requestRounds_staged {deadline : Nat} (rounds : Nat) (child : Option Nat) (polls : turn.stage = .polling)
    (waits : turn.deadline = some deadline) :
    Program.Complies (stageMonitor timeout id keyName) turn (requestRounds deadline rounds child) fun reached left =>
      ∀ child result, left = some (child, result) → reached = turn.move (.leaving result) := by
  induction rounds generalizing child with
  | zero => exact fun _ _ impossible => nomatch impossible
  | succ rounds inductionHypothesis =>
    refine Program.Complies.bind ((requestRound_staged child polls waits).weaken fun reached round staged => ?_)
    cases round with
    | again child =>
      cases (staged : reached = turn)
      exact inductionHypothesis child
    | leave child result =>
      rintro _ _ same
      cases same
      exact staged

/-- Whatever is answered, a request goes through the stages of the exchange, and what it
returns is what its stage says. -/
theorem identifiedRequest_staged (timeout rounds : Nat) (keyName : String) (id : RequestId) :
    Program.Complies (stageMonitor timeout id keyName) .initial (identifiedRequest timeout rounds keyName id)
      fun reached outcome => reached.spoilt ∨ ∀ result, outcome = some result → reached.stage = .removed result := by
  refine Program.Complies.bind (Program.complies_call fun registered => ⟨_, if_pos ⟨rfl, rfl, rfl⟩, ?_⟩)
  cases (registered : Bool) with
  | false => exact .inl rfl
  | true =>
    refine Program.Complies.bind ((ofPrompt_stage _ (startGraphicalAuthorizer_issues id)).weaken ?_)
    rintro _ child rfl
    refine Program.Complies.bind (Program.complies_call fun time => ⟨_, rfl, ?_⟩)
    refine Program.Complies.bind ((requestRounds_staged rounds child rfl rfl).weaken fun reached left leaves => ?_)
    cases left with
    | none => exact .inr fun _ impossible => nomatch impossible
    | some left =>
      cases leaves left.1 left.2 rfl
      refine Program.Complies.bind (Program.complies_call fun _ => ⟨_, if_pos rfl, ?_⟩)
      refine Program.Complies.bind ((ofPrompt_stage _ (stopGraphicalAuthorizer_issues left.1)).weaken ?_)
      rintro _ _ rfl
      refine .inr fun result same => ?_
      cases same
      rfl

end

/-! ## Simulation -/

section

variable (process : UInt32)

/-- What a finished request owes to its stage. -/
def Finished (turn : Turn) (outcome : Option (Except String Bytes)) : Prop :=
  turn.spoilt ∨ ∀ result, outcome = some result → turn.stage = .removed result

/-- The call of a request. A request that listens is where its program says; another one
has returned. -/
structure Matches (index : Nat) (request : Request) (call : Call) : Prop where
  keyName : call.keyName = request.keyName
  queue : call.queue = request.queue
  running : request.listening = true → ∃ turn, turn.stage = call.stage ∧ turn.spoilt = false ∧
    call.stage.listening = true ∧ Program.Complies (stageMonitor request.timeout (number process index) request.keyName)
      turn request.program Finished
  returned : request.listening = false → ∃ result, request.program = .done (some result) ∧ call.stage = .returned result

/-- The table and the commands are the same, and every request has its call. -/
structure Simulates (state : State) (exchange : PinExchange.State) : Prop where
  table : exchange.table = state.table
  takers : exchange.takers = state.takers
  length : exchange.calls.length = state.requests.length
  calls : ∀ (index : Nat) (request : Request), state.requests[index]? = some request →
    ∃ call, exchange.calls[index]? = some call ∧ Matches process index request call

end

section

variable {process : UInt32} {state next : State} {exchange : PinExchange.State} {index : Nat} {request new : Request}
  {call : Call}

/-- A value can be sent to a request exactly when it can be sent to its call. -/
theorem Simulates.sendable (simulates : Simulates process state exchange) (index : Nat) :
    exchange.sendable index = state.sendable index := by
  rw [PinExchange.State.sendable, State.sendable, simulates.table, simulates.takers]

/-- One request, its call and the table change. -/
theorem Simulates.setCall (simulates : Simulates process state exchange) (table : Table)
    (found : state.requests[index]? = some request) (matches' : Matches process index new call) :
    Simulates process { state with table := table, requests := state.requests.set index new }
      { exchange.setCall index call with table := table } := by
  obtain ⟨inside, _⟩ := List.getElem?_eq_some_iff.mp found
  refine ⟨rfl, simulates.takers, ?_, ?_⟩
  · rw [List.length_set, ← simulates.length]
    exact List.length_set
  · intro other another shown
    by_cases same : other = index
    · subst same
      rw [List.getElem?_set_self inside] at shown
      cases shown
      exact ⟨call, List.getElem?_set_self (simulates.length ▸ inside), matches'⟩
    · rw [List.getElem?_set_ne (Ne.symm same)] at shown
      obtain ⟨old, before, fits⟩ := simulates.calls other another shown
      exact ⟨old, (List.getElem?_set_ne (Ne.symm same)).trans before, fits⟩

/-- The call goes on with the program. -/
theorem Matches.proceed {operation : PinRequest.Operation}
    {rest : PinRequest.Answer operation → PinRequest.Action (Option (Except String Bytes))}
    {keyName : String} {timeout : Nat} {queue : List Pin} {listening : Bool}
    (matches' : Matches process index ⟨keyName, timeout, .ask operation rest, queue, listening⟩ call) :
    listening = true ∧ ∃ turn, turn.stage = call.stage ∧ turn.spoilt = false ∧ call.stage.listening = true ∧
      call = ⟨keyName, call.stage, queue⟩ ∧ ∀ answer, ∃ reached,
        advance timeout (number process index) keyName turn operation answer = some reached ∧
          ∀ (left : List Pin), reached.spoilt = false → reached.stage.listening = true →
            Matches process index ⟨keyName, timeout, rest answer, left, true⟩ ⟨keyName, reached.stage, left⟩ := by
  cases listening with
  | false =>
    obtain ⟨_, impossible, _⟩ := matches'.returned rfl
    cases impossible
  | true =>
    obtain ⟨turn, stage, sound, listens, complies⟩ := matches'.running rfl
    refine ⟨rfl, turn, stage, sound, listens, ?_, fun answer => ?_⟩
    · have keyNames := matches'.keyName
      have queues := matches'.queue
      cases call
      cases keyNames
      cases queues
      rfl
    · obtain ⟨reached, advanced, continues⟩ := complies answer
      exact ⟨reached, advanced, fun left sound listens =>
        ⟨rfl, rfl, fun _ => ⟨reached, rfl, sound, listens, continues⟩,
          fun deaf => Bool.noConfusion deaf⟩⟩

/-- The exchange takes the steps of the actions. -/
def Follows (process : UInt32) (exchange : PinExchange.State) (next : State) : Prop :=
  ∃ actions after, Transition.run (PinExchange.step process) exchange actions = some after ∧
    Simulates process next after

/-- The exchange follows with one step. -/
theorem follows_one {after : PinExchange.State} {action : PinExchange.Action}
    (taken : PinExchange.step process exchange action = some after) (simulates : Simulates process next after) :
    Follows process exchange next := ⟨[action], after, Transition.run_cons.mpr ⟨after, taken, rfl⟩, simulates⟩

/-- A request does something that its call does not know of. -/
theorem follows_none (simulates : Simulates process state exchange) (found : state.requests[index]? = some request)
    (there : exchange.calls[index]? = some call) (matches' : Matches process index new call) :
    Follows process exchange { state with requests := state.requests.set index new } := by
  have unchanged : { exchange.setCall index call with table := state.table } = exchange := by
    obtain ⟨inside, same⟩ := List.getElem?_eq_some_iff.mp there
    have calls : exchange.calls.set index call = exchange.calls := by
      rw [← same]
      exact List.set_getElem_self inside
    rw [PinExchange.State.setCall, calls, ← simulates.table]
  refine ⟨[], exchange, rfl, ?_⟩
  have after := simulates.setCall state.table found matches'
  rwa [unchanged] at after

/-- The exchange goes along with an operation. The request goes on from the reached turn, with
the table and the queue the operation leaves, and the exchange takes at most one step. -/
def Accompanies (process : UInt32) (exchange : PinExchange.State) (index : Nat) (keyName : String) (queue : List Pin)
    (turn reached : Turn) (left : Table × List Pin) : Prop :=
  reached.spoilt = false ∧ reached.stage.listening = true ∧
    ((reached.stage = turn.stage ∧ left = (exchange.table, queue)) ∨
      ∃ action, PinExchange.step process exchange action =
        some { exchange.setCall index ⟨keyName, reached.stage, left.2⟩ with table := left.1 })

section

variable {keyName : String} {timeout : Nat} {queue : List Pin} {turn reached : Turn} {replies : Replies}

/-- A request is registered under its own name, and its call is inserted. -/
theorem register_accompanied {given : RequestId} {name : String}
    (there : exchange.calls[index]? = some ⟨keyName, turn.stage, queue⟩) (sound : turn.spoilt = false)
    (advanced : advance timeout (number process index) keyName turn (.register given name) true = some reached) :
    Accompanies process exchange index keyName queue turn reached
      (exchange.table.insert given ⟨name, index⟩, queue) := by
  obtain ⟨⟨numbered, rfl, rfl⟩, moved⟩ := Option.ite_none_right_eq_some.mp advanced
  cases moved
  rw [numbered] at there
  refine ⟨sound, rfl, .inr ⟨.insert index, ?_⟩⟩
  simp only [PinExchange.step, there]
  rfl

/-- The clock is read for the deadline, which the exchange does not know of, or to judge it. -/
theorem now_accompanied {time : Nat} (there : exchange.calls[index]? = some ⟨keyName, turn.stage, queue⟩)
    (sound : turn.spoilt = false) (listens : turn.stage.listening = true)
    (advanced : advance timeout (number process index) keyName turn .now time = some reached) :
    Accompanies process exchange index keyName queue turn reached (exchange.table, queue) := by
  simp only [advance] at advanced
  split at advanced
  · cases advanced
    exact ⟨sound, listens, .inl ⟨rfl, rfl⟩⟩
  · rename_i deadline checks _
    cases advanced
    rw [checks] at there
    by_cases late : deadline ≤ time
    · simp only [late, ↓reduceIte]
      refine ⟨sound, rfl, .inr ⟨.deadline index true, ?_⟩⟩
      simp only [PinExchange.step, there]
      rfl
    · simp only [late, ↓reduceIte]
      refine ⟨sound, rfl, .inr ⟨.deadline index false, ?_⟩⟩
      simp only [PinExchange.step, there]
      rfl
  · cases advanced

/-- What a request finds in its channel is what its call finds there. -/
theorem tryReceive_accompanied (simulates : Simulates process state exchange)
    (there : exchange.calls[index]? = some ⟨keyName, turn.stage, queue⟩) (sound : turn.spoilt = false)
    (advanced : advance timeout (number process index) keyName turn .tryReceive
      (respond state index queue replies .tryReceive).1 = some reached) :
    Accompanies process exchange index keyName queue turn reached
      (respond state index queue replies .tryReceive).2 := by
  obtain ⟨polls, moved⟩ := Option.ite_none_right_eq_some.mp advanced
  rw [polls] at there
  cases queue with
  | cons pin left =>
    cases moved
    refine ⟨sound, rfl, .inr ⟨.poll index, ?_⟩⟩
    simp only [PinExchange.step, there, tryRecv, respond, ← simulates.table]
    rfl
  | nil =>
    by_cases sendable : state.sendable index
    · simp only [respond, sendable, ↓reduceIte] at moved ⊢
      cases moved
      refine ⟨sound, rfl, .inr ⟨.poll index, ?_⟩⟩
      simp only [PinExchange.step, there, tryRecv, simulates.sendable, sendable, ↓reduceIte, ← simulates.table]
      rfl
    · simp only [respond, sendable, Bool.false_eq_true, ↓reduceIte] at moved ⊢
      cases moved
      refine ⟨sound, rfl, .inr ⟨.poll index, ?_⟩⟩
      simp only [PinExchange.step, there, tryRecv, simulates.sendable, sendable, Bool.false_eq_true, ↓reduceIte,
        ← simulates.table]
      rfl

/-- The cancellation is observed with the same answer. -/
theorem cancelled_accompanied {stop : Bool} (there : exchange.calls[index]? = some ⟨keyName, turn.stage, queue⟩)
    (sound : turn.spoilt = false)
    (advanced : advance timeout (number process index) keyName turn .cancelled stop = some reached) :
    Accompanies process exchange index keyName queue turn reached (exchange.table, queue) := by
  obtain ⟨observes, moved⟩ := Option.ite_none_right_eq_some.mp advanced
  cases moved
  rw [observes] at there
  cases stop with
  | true =>
    refine ⟨sound, rfl, .inr ⟨.observe index true, ?_⟩⟩
    simp only [PinExchange.step, there]
    rfl
  | false =>
    refine ⟨sound, rfl, .inr ⟨.observe index false, ?_⟩⟩
    simp only [PinExchange.step, there]
    rfl

/-- A leaving request is unregistered under its own name, and its call is removed. -/
theorem unregister_accompanied {given : RequestId} {removed : Bool}
    (there : exchange.calls[index]? = some ⟨keyName, turn.stage, queue⟩) (sound : turn.spoilt = false)
    (advanced : advance timeout (number process index) keyName turn (.unregister given) removed = some reached) :
    Accompanies process exchange index keyName queue turn reached (exchange.table.erase given, queue) := by
  simp only [advance] at advanced
  split at advanced
  · rename_i result leaves
    obtain ⟨rfl, moved⟩ := Option.ite_none_right_eq_some.mp advanced
    cases moved
    rw [leaves] at there
    refine ⟨sound, rfl, .inr ⟨.remove index, ?_⟩⟩
    simp only [PinExchange.step, there]
    rfl
  · cases advanced

/-- Whatever operation the program of a request asks for, the exchange goes along with the
answer of the system. -/
theorem respond_accompanied {operation : PinRequest.Operation} (simulates : Simulates process state exchange)
    (there : exchange.calls[index]? = some ⟨keyName, turn.stage, queue⟩) (sound : turn.spoilt = false)
    (listens : turn.stage.listening = true)
    (advanced : advance timeout (number process index) keyName turn operation
      (respond state index queue replies operation).1 = some reached) :
    Accompanies process exchange index keyName queue turn reached (respond state index queue replies operation).2 := by
  have table := simulates.table
  cases operation with
  | nextRequestId => cases advanced
  | register given name =>
    simp only [respond, ← table]
    exact register_accompanied there sound advanced
  | now =>
    simp only [respond, ← table]
    exact now_accompanied there sound listens advanced
  | tryReceive => exact tryReceive_accompanied simulates there sound advanced
  | cancelled =>
    simp only [respond, ← table]
    exact cancelled_accompanied there sound advanced
  | unregister given =>
    simp only [respond, ← table]
    exact unregister_accompanied there sound advanced
  | _ =>
    cases advanced
    simp only [respond, ← table]
    exact ⟨sound, listens, .inl ⟨rfl, rfl⟩⟩

end

/-- A request goes on, and the exchange follows it. -/
theorem proceed_follows {replies : Replies} (simulates : Simulates process state exchange)
    (taken : step process state (.proceed index replies) = some next) : Follows process exchange next := by
  simp only [step] at taken
  split at taken
  · rename_i keyName timeout operation rest queue listening found
    cases taken
    obtain ⟨call, there, matches'⟩ := simulates.calls index _ found
    obtain ⟨rfl, turn, stage, sound, listens, shape, goes⟩ := matches'.proceed
    obtain ⟨reached, advanced, fits⟩ := goes (respond state index queue replies operation).1
    rw [shape, ← stage] at there
    obtain ⟨goesOn, attends, ⟨same, unchanged⟩ | ⟨action, taken⟩⟩ :=
      respond_accompanied simulates there sound (stage ▸ listens) advanced
    · have fits := fits queue goesOn attends
      rw [same] at fits
      rw [unchanged, simulates.table]
      exact follows_none simulates found there fits
    · exact follows_one taken (simulates.setCall _ found (fits _ goesOn attends))
  · cases taken

/-- The takers change, and perhaps the table. -/
theorem Simulates.setTakers (simulates : Simulates process state exchange) (table : Table) (takers : List Taker) :
    Simulates process { state with table := table, takers := takers }
      { exchange with table := table, takers := takers } :=
  ⟨rfl, rfl, simulates.length, simulates.calls⟩

/-- A new request is followed by a new call. -/
theorem request_follows {keyName : String} {timeout rounds : Nat} (simulates : Simulates process state exchange)
    (taken : step process state (.request keyName timeout rounds) = some next) : Follows process exchange next := by
  cases taken
  have begins : PinExchange.step process exchange (.number keyName) =
      some { exchange with calls := exchange.calls ++ [⟨keyName, .numbered, []⟩] } := rfl
  refine follows_one begins ⟨simulates.table, simulates.takers, ?_, fun index request found => ?_⟩
  · simp only [List.length_append, simulates.length, List.length_cons, List.length_nil]
  · rcases Nat.lt_trichotomy index state.requests.length with before | rfl | beyond
    · rw [List.getElem?_append_left before] at found
      obtain ⟨call, there, matches'⟩ := simulates.calls index request found
      exact ⟨call, (List.getElem?_append_left (simulates.length.symm ▸ before)).trans there, matches'⟩
    · rw [List.getElem?_concat_length] at found
      cases found
      refine ⟨⟨keyName, .numbered, []⟩, ?_, rfl, rfl, fun _ => ⟨.initial, rfl, rfl, rfl, ?_⟩,
        fun deaf => Bool.noConfusion deaf⟩
      · rw [← simulates.length]
        exact List.getElem?_concat_length
      · exact identifiedRequest_staged timeout rounds keyName _
    · rw [List.getElem?_eq_none (by rw [List.length_append]; exact beyond)] at found
      cases found

/-- A request that is dropped is followed by the return of its call. -/
theorem drop_follows (simulates : Simulates process state exchange)
    (taken : step process state (.drop index) = some next) : Follows process exchange next := by
  simp only [step] at taken
  split at taken
  · rename_i keyName timeout result queue found
    cases taken
    obtain ⟨call, there, matches'⟩ := simulates.calls index _ found
    obtain ⟨turn, stage, sound, _, finished⟩ := matches'.running rfl
    obtain spoilt | removed : turn.spoilt = true ∨ ∀ given, some result = some given → turn.stage = .removed given :=
      finished
    · rw [sound] at spoilt
      cases spoilt
    · have left := stage.symm.trans (removed result rfl)
      have finishes : PinExchange.step process exchange (.finish index) = some
          { exchange.setCall index ⟨call.keyName, .returned result, []⟩ with table := state.table } := by
        obtain ⟨_, _, _⟩ := call
        cases left
        simp only [PinExchange.step, there, ← simulates.table]
        rfl
      refine follows_one finishes (simulates.setCall state.table found ?_)
      exact ⟨matches'.keyName, rfl, fun listens => Bool.noConfusion listens, fun _ => ⟨result, rfl, rfl⟩⟩
  · cases taken

/-- A command takes the same entry in the exchange. -/
theorem take_follows {taker : Nat} (simulates : Simulates process state exchange)
    (taken : step process state (.take taker) = some next) : Follows process exchange next := by
  simp only [step] at taken
  split at taken
  · rename_i id pin found
    have there := found
    rw [← simulates.takers] at there
    split at taken
    · rename_i entry present
      cases taken
      rw [← simulates.table] at present
      have takes : PinExchange.step process exchange (.take taker) = some
          { exchange.setTaker taker ⟨id, pin, .holding entry.sender⟩ with table := exchange.table.erase id } := by
        simp only [PinExchange.step, there, present]
      rw [PinExchange.State.setTaker, simulates.table, simulates.takers] at takes
      exact follows_one takes (simulates.setTakers _ _)
    · rename_i absent
      cases taken
      rw [← simulates.table] at absent
      have misses : PinExchange.step process exchange (.take taker) = some
          (exchange.setTaker taker ⟨id, pin, .missing⟩) := by
        simp only [PinExchange.step, there, absent]
      rw [PinExchange.State.setTaker, simulates.takers] at misses
      exact follows_one misses ⟨simulates.table, rfl, simulates.length, simulates.calls⟩
  · cases taken

/-- A command sends to the same call in the exchange. -/
theorem send_follows {taker : Nat} (simulates : Simulates process state exchange)
    (taken : step process state (.send taker) = some next) : Follows process exchange next := by
  simp only [step] at taken
  split at taken
  · rename_i id pin target found
    have there := found
    rw [← simulates.takers] at there
    split at taken
    · rename_i request aimed
      obtain ⟨call, calls, matches'⟩ := simulates.calls target request aimed
      split at taken
      · rename_i listening
        obtain ⟨turn, stage, sound, listens, complies⟩ := matches'.running listening
        split at taken
        · rename_i room
          cases taken
          have sends : PinExchange.step process exchange (.send taker) = some
              ((exchange.setCall target { call with queue := [pin] }).setTaker taker ⟨id, pin, .delivered target⟩) := by
            simp only [PinExchange.step, there, calls, listens, matches'.queue, room, ↓reduceIte]
          have fits : Matches process target { request with queue := [pin] } { call with queue := [pin] } :=
            ⟨matches'.keyName, rfl, fun _ => ⟨turn, stage, sound, listens, complies⟩,
              fun deaf => Bool.noConfusion (listening.symm.trans deaf)⟩
          have after := simulates.setCall state.table aimed fits
          refine follows_one sends ⟨simulates.table, ?_, after.length, after.calls⟩
          rw [PinExchange.State.setTaker, PinExchange.State.setCall, simulates.takers]
        · cases taken
      · rename_i deaf
        cases taken
        obtain ⟨result, _, returned⟩ := matches'.returned (Bool.not_eq_true _ ▸ deaf)
        have refuses : PinExchange.step process exchange (.send taker) = some
            (exchange.setTaker taker ⟨id, pin, .refused target⟩) := by
          simp only [PinExchange.step, there, calls, returned, Stage.listening, Bool.false_eq_true, ↓reduceIte]
        rw [PinExchange.State.setTaker, simulates.takers] at refuses
        exact follows_one refuses ⟨simulates.table, rfl, simulates.length, simulates.calls⟩
    · cases taken
  · cases taken

/-- The exchange follows every step. -/
theorem step_follows {action : Action} (simulates : Simulates process state exchange)
    (taken : step process state action = some next) : Follows process exchange next := by
  cases action with
  | request keyName timeout rounds => exact request_follows simulates taken
  | proceed index replies => exact proceed_follows simulates taken
  | drop index => exact drop_follows simulates taken
  | command id pin =>
    cases taken
    have issues : PinExchange.step process exchange (.command id pin) =
        some { exchange with takers := exchange.takers ++ [⟨id, pin, .seeking⟩] } := rfl
    rw [simulates.takers] at issues
    exact follows_one issues ⟨simulates.table, rfl, simulates.length, simulates.calls⟩
  | take taker => exact take_follows simulates taken
  | send taker => exact send_follows simulates taken

/-- Before anything happened the system simulates the exchange. -/
theorem simulates_initial : Simulates process .initial PinExchange.initial :=
  ⟨rfl, rfl, rfl, fun _ _ impossible => by cases impossible⟩

/-- Every run of the programs is a run of the exchange. -/
theorem run_follows {actions : List Action} (reached : Transition.run (step process) .initial actions = some state) :
    Follows process PinExchange.initial state := by
  have kept (state : State) (action : Action) (next : State) (follows : Follows process PinExchange.initial state)
      (taken : step process state action = some next) : Follows process PinExchange.initial next := by
    obtain ⟨earlier, middle, ran, simulates⟩ := follows
    obtain ⟨later, after, ran', simulates'⟩ := step_follows simulates taken
    exact ⟨earlier ++ later, after, Transition.run_append ran ran', simulates'⟩
  exact Transition.invariant_run kept ⟨[], _, rfl, simulates_initial⟩ reached

/-- The call of a request whose program is done has the result that the program returned. -/
theorem Matches.result {outcome : Except String Bytes} (matches' : Matches process index request call)
    (returned : request.outcome = some outcome) : call.stage.result = some outcome := by
  have ended : request.program = .done (some outcome) := by
    unfold Request.outcome at returned
    split at returned
    · rename_i done
      rw [done, returned]
    · cases returned
  cases listening : request.listening with
  | true =>
    obtain ⟨turn, stage, sound, _, finished⟩ := matches'.running listening
    rw [ended] at finished
    obtain spoilt | removed : turn.spoilt = true ∨ ∀ given, some outcome = some given → turn.stage = .removed given :=
      finished
    · rw [sound] at spoilt
      cases spoilt
    · rw [← stage, removed outcome rfl]
      rfl
  | false =>
    obtain ⟨result, done, stage⟩ := matches'.returned listening
    cases ended.symm.trans done
    rw [stage]
    rfl

/-- As long as the counter has not wrapped, the exchange is sound. -/
theorem sound_of_run {actions : List PinExchange.Action}
    (ran : Transition.run (PinExchange.step process) PinExchange.initial actions = some exchange)
    (few : exchange.calls.length < 2 ^ 64) : Sound process exchange := by
  have kept (exchange : PinExchange.State) (action : PinExchange.Action) (next : PinExchange.State)
      (sound : exchange.calls.length < 2 ^ 64 → Sound process exchange)
      (taken : PinExchange.step process exchange action = some next) (few : next.calls.length < 2 ^ 64) :
      Sound process next := by
    have before := Nat.lt_of_le_of_lt (calls_grow process taken) few
    exact (sound before).step before taken
  exact Transition.invariant_run kept (fun _ => sound_initial process) ran few

end

/-- Every run of the programs of `request_pin`, interleaved operation by operation with
each other and with authorization commands, is a run of the exchange of PINs: with the same
table, the same commands and the same channels, and with the results that the programs
returned. -/
theorem programs_refine_the_exchange {process : UInt32} {state : State} {actions : List Action}
    (reached : Transition.run (step process) .initial actions = some state) :
    ∃ steps exchange, Transition.run (PinExchange.step process) PinExchange.initial steps = some exchange ∧
      exchange.table = state.table ∧ exchange.takers = state.takers ∧
      exchange.calls.length = state.requests.length ∧
      ∀ (index : Nat) (request : Request), state.requests[index]? = some request →
        ∃ call, exchange.calls[index]? = some call ∧ call.keyName = request.keyName ∧ call.queue = request.queue ∧
          ∀ outcome, request.outcome = some outcome → call.stage.result = some outcome := by
  obtain ⟨steps, exchange, ran, simulates⟩ := run_follows reached
  refine ⟨steps, exchange, ran, simulates.table, simulates.takers, simulates.length, fun index request found => ?_⟩
  obtain ⟨call, there, matches'⟩ := simulates.calls index request found
  exact ⟨call, there, matches'.keyName, matches'.queue, fun outcome ended => matches'.result ended⟩

/-- Quiet surroundings without a graphical session. -/
def quiet : Replies := ⟨none, none, none, 0, .ok none, false, .ok (), .ok (.exited 0)⟩

/-- A request that is answered while it waits. -/
def answered : List Action :=
  [.request "work" 1000 3, .proceed 0 quiet, .proceed 0 quiet, .proceed 0 quiet, .proceed 0 quiet,
    .command (requestId 7 1) ⟨[54, 53, 52, 51, 50, 49, 48], by decide, by decide⟩, .take 0, .send 0,
    .proceed 0 quiet, .proceed 0 quiet]

/-- A request that is answered by one command. -/
theorem programs_refine_the_exchange_answered : ∃ state steps exchange,
    Transition.run (step 7) .initial answered = some state ∧
      Transition.run (PinExchange.step 7) PinExchange.initial steps = some exchange ∧
      exchange.takers = state.takers ∧ exchange.takers.length = 1 := by
  have ends : ((Transition.run (step 7) .initial answered).any fun state => state.takers.length == 1) = true := by
    decide +kernel
  obtain ⟨state, reached, one⟩ := (Option.any_eq_true _ _).mp ends
  obtain ⟨steps, exchange, ran, _, takers, _⟩ := programs_refine_the_exchange reached
  exact ⟨state, steps, exchange, reached, ran, takers, takers ▸ beq_iff_eq.mp one⟩

/-- A PIN that a request returns was sent by a command for this very request, and a command
serves one request only. -/
theorem returned_pins_were_sent {process : UInt32} {state : State} {actions : List Action} {index : Nat}
    {request : Request} {pin : Bytes} (reached : Transition.run (step process) .initial actions = some state)
    (few : state.requests.length < 2 ^ 64) (found : state.requests[index]? = some request)
    (returned : request.outcome = some (.ok pin)) :
    ∃ (holder : Nat) (taker : Taker), state.takers[holder]? = some taker ∧ taker.id = requestId process (index + 1) ∧
      taker.pin.bytes = pin ∧ taker.grant = .delivered index := by
  obtain ⟨steps, exchange, ran, simulates⟩ := run_follows reached
  have sound := sound_of_run ran (simulates.length ▸ few)
  obtain ⟨call, there, matches'⟩ := simulates.calls index request found
  have result := matches'.result returned
  obtain ⟨holder, taker, holds, delivered⟩ := sound.sent index call there (.inr ⟨pin, result⟩)
  obtain ⟨call', there', named, _, settled⟩ := sound.owned holder taker index holds (by rw [delivered]; rfl)
  cases there.symm.trans there'
  rw [simulates.takers] at holds
  refine ⟨holder, taker, holds, named, ?_, delivered⟩
  rw [Settled, delivered] at settled
  rcases settled with ⟨_, _, unreceived⟩ | ⟨_, received⟩ | ⟨_, message, other⟩
  · exact absurd result (unreceived pin)
  · cases received.symm.trans result
    rfl
  · rw [other] at result
    cases result

/-- The PIN that this request returns was sent by that command. -/
theorem returned_pins_were_sent_answered : ∃ (state : State) (taker : Taker),
    Transition.run (step 7) .initial answered = some state ∧ taker ∈ state.takers ∧
      taker.id = requestId 7 1 ∧ taker.pin.bytes = [54, 53, 52, 51, 50, 49, 48] := by
  have ends : ((Transition.run (step 7) .initial answered).any fun state =>
      decide (state.requests.length < 2 ^ 64) && state.requests[0]?.any fun request =>
        request.outcome.any fun outcome => outcome.toOption == some [54, 53, 52, 51, 50, 49, 48]) = true :=
          by decide +kernel
  obtain ⟨state, reached, rest⟩ := (Option.any_eq_true _ _).mp ends
  obtain ⟨few, rest⟩ := Bool.and_eq_true_iff.mp rest
  obtain ⟨request, found, rest⟩ := (Option.any_eq_true _ _).mp rest
  obtain ⟨outcome, returned, same⟩ := (Option.any_eq_true _ _).mp rest
  have pin : outcome = .ok [54, 53, 52, 51, 50, 49, 48] := by
    cases outcome with
    | error message => cases same
    | ok pin => exact congrArg _ (Option.some.inj (beq_iff_eq.mp same))
  subst pin
  obtain ⟨holder, taker, holds, named, bytes, _⟩ :=
    returned_pins_were_sent reached (of_decide_eq_true few) found returned
  exact ⟨state, taker, reached, List.mem_of_getElem? holds, named, bytes⟩

end Keyvisor.PinSystem
