import Keyvisor.Agent

/-!
# Authorization over whole runs

What holds in every state that the agent process can reach, whatever its clients,
its control connections and its environment do and in whatever order: each request
keeps the order of `handle`, each control connection the order of its worker, and
each stands to the exchange of PINs as its transcript says. From this follow the
binding of PINs to requests, the bound on the pending table and the conditions
under which a confirmation is true.
-/

namespace Keyvisor.Authorization

open Foundation Foundation.Text Control PinExchange Limiter Agent

/-! ## Requests -/

/-- What a request depends on of the calls: their names and stages. -/
def view (calls : List Call) (index : Nat) : Option (String × Stage) :=
  calls[index]?.map fun call => (call.keyName, call.stage)

/-- A listed call is seen with its name and stage. -/
theorem view_eq_some {calls : List Call} {index : Nat} {call : Call} (found : calls[index]? = some call) :
    view calls index = some (call.keyName, call.stage) := by
  rw [view, found]
  rfl

/-- A changed call is seen as it has become, and the others as before. -/
theorem view_set {calls : List Call} {index : Nat} {old : Call} (found : calls[index]? = some old) (new : Call)
    (other : Nat) :
    view (calls.set index new) other = if index = other then some (new.keyName, new.stage) else view calls other := by
  rw [view, getElem?_set_found found]
  split <;> rfl

/-- A new call is not seen at the earlier ones. -/
theorem view_concat {calls : List Call} {index : Nat} (inside : index < calls.length) (last : Call) :
    view (calls ++ [last]) index = view calls index := by
  rw [view, view, List.getElem?_append_left inside]

/-- A request whose call has not returned waits for it and was answered nothing; a
call that has returned was answered with its result. -/
def InCall (request : Request) (keyName : String) : Stage → Prop
  | .returned result => Runtime.pinAnswers request.transcript = [result]
  | _ => Runtime.pinAnswers request.transcript = [] ∧ ∃ next, request.program = .ask (.requestPin keyName) next

/-- How a request stands to its call. -/
def Placed (calls : List Call) (request : Request) : Prop :=
  match request.call with
  | none => Runtime.pinAnswers request.transcript = []
  | some index => ∃ keyName stage, view calls index = some (keyName, stage) ∧ InCall request keyName stage

/-- A request keeps the order of `handle`. -/
def Proper (request : Request) : Prop :=
  ∃ phase, Program.accepts (Runtime.advance request.packet) .fresh request.transcript = some phase ∧
    Program.Complies (Runtime.advance request.packet) phase request.program fun _ result => Runtime.Answered result

/-- Requests are proper and placed, an unfinished one is the one that its client's
thread serves, and every call belongs to exactly one request. -/
structure Requests (clients : Server (Option Nat)) (calls : List Call) (requests : List Request) : Prop where
  proper : ∀ (index : Nat) (request : Request), requests[index]? = some request → Proper request
  placed : ∀ (index : Nat) (request : Request), requests[index]? = some request → Placed calls request
  serving : ∀ (index : Nat) (request : Request), requests[index]? = some request →
    request.program.finished = false → clients.running request.client = some (some index)
  owned : Owned requests Request.call calls.length

section

variable {clients : Server (Option Nat)} {calls : List Call} {requests : List Request}

/-- A step of one request, which may begin a call or change the view of its own. -/
theorem Requests.change (good : Requests clients calls requests) {after : List Call} {index : Nat}
    {old new : Request} (found : requests[index]? = some old) (proper : Proper new) (placed : Placed after new)
    (client : new.client = old.client) (running : new.program.finished = false → old.program.finished = false)
    (frame : ∀ call, call < calls.length → old.call ≠ some call → view after call = view calls call)
    (call : (new.call = old.call ∧ after.length = calls.length) ∨
      (old.call = none ∧ new.call = some calls.length ∧ after.length = calls.length + 1)) :
    Requests clients after (requests.set index new) := by
  have at_index (other : Nat) : (requests.set index new)[other]? =
      if index = other then some new else requests[other]? := getElem?_set_found found new other
  refine ⟨?_, ?_, ?_, ?_⟩
  · intro other request present
    rw [at_index] at present
    split at present
    · cases present
      exact proper
    · exact good.proper other request present
  · intro other request present
    rw [at_index] at present
    split at present
    · cases present
      exact placed
    · rename_i different
      have stands := good.placed other request present
      unfold Placed at stands ⊢
      cases called : request.call with
      | none => simpa only [called] using stands
      | some target =>
        simp only [called] at stands ⊢
        rw [frame target (good.owned.bounded other request target present called)
          (good.owned.elsewhere found different present called)]
        exact stands
  · intro other request present unfinished
    rw [at_index] at present
    split at present
    · rename_i here
      subst here
      cases present
      rw [client]
      exact good.serving index old found (running unfinished)
    · exact good.serving other request present unfinished
  · rcases call with ⟨same, length⟩ | ⟨without, fresh, longer⟩
    · rw [length]
      exact good.owned.set found same
    · rw [longer]
      exact good.owned.mint found without fresh

/-- Requests do not notice a change of the calls that keeps their names and stages. -/
theorem Requests.viewed (good : Requests clients calls requests) {after : List Call}
    (same : view after = view calls) (length : after.length = calls.length) : Requests clients after requests := by
  refine ⟨good.proper, ?_, good.serving, length ▸ good.owned⟩
  intro index request present
  have stands := good.placed index request present
  unfold Placed at stands ⊢
  rw [same]
  exact stands

/-- Requests do not notice what other clients do. -/
theorem Requests.unserved (good : Requests clients calls requests) {after : Server (Option Nat)}
    (kept : ∀ client index request, requests[index]? = some request → request.program.finished = false →
      clients.running client = some (some index) → after.running client = some (some index)) :
    Requests after calls requests := by
  refine ⟨good.proper, good.placed, ?_, good.owned⟩
  intro index request present unfinished
  exact kept _ index request present unfinished (good.serving index request present unfinished)

/-- An idle client's next request is served by that client's thread. -/
theorem Requests.receive (good : Requests clients calls requests) (settings : Runtime.Settings) {client : Nat}
    (packet : Bytes) (idle : clients.running client = some none) :
    Requests (clients.update client (some requests.length)) calls (requests ++ [opened settings client packet]) := by
  refine ⟨?_, ?_, ?_, ?_⟩
  · intro index request present
    rcases getElem?_concat present with old | ⟨_, rfl⟩
    · exact good.proper index request old
    · exact ⟨.fresh, rfl, Runtime.handle_complies settings packet⟩
  · intro index request present
    rcases getElem?_concat present with old | ⟨_, rfl⟩
    · exact good.placed index request old
    · rfl
  · intro index request present unfinished
    rw [Server.running_update idle]
    rcases getElem?_concat present with old | ⟨rfl, rfl⟩
    · have serves := good.serving index request old unfinished
      have different : client ≠ request.client := by
        rintro rfl
        rw [idle] at serves
        cases serves
      rw [if_neg different]
      exact serves
    · exact if_pos rfl
  · exact good.owned.concat rfl

/-- A client whose request is finished may go on. -/
theorem Requests.respond (good : Requests clients calls requests) {client index : Nat} {request : Request}
    (serving : clients.running client = some (some index)) (found : requests[index]? = some request)
    (finished : request.program.finished) : Requests (clients.update client none) calls requests := by
  apply good.unserved
  intro other served unfinished present running serves
  rw [Server.running_update serving]
  have different : client ≠ other := by
    rintro rfl
    rw [serving] at serves
    cases serves
    rw [found] at present
    cases present
    rw [finished] at running
    cases running
  rw [if_neg different]
  exact serves

end

/-- The wait of a call that has not returned. -/
theorem inCall_waiting {request : Request} {keyName : String} {stage : Stage}
    (waiting : ∀ result, stage ≠ .returned result) :
    InCall request keyName stage ↔
      Runtime.pinAnswers request.transcript = [] ∧ ∃ next, request.program = .ask (.requestPin keyName) next := by
  cases stage with
  | returned result => exact absurd rfl (waiting result)
  | _ => exact Iff.rfl

section

variable {process : UInt32} {state next : PinExchange.State}

/-- A step of the wait changes the stage of its own call, which has not returned. -/
theorem moves_wait {call : Nat} {cancelled : Bool} {wait : Wait}
    (taken : PinExchange.step process state (wait.on call cancelled) = some next) :
    ∃ old new : Call, state.calls[call]? = some old ∧ next.calls = state.calls.set call new ∧
      next.takers = state.takers ∧ new.keyName = old.keyName ∧ (∀ result, old.stage ≠ .returned result) ∧
      ∀ result, new.stage ≠ .returned result := by
  have moves := moves_of_step process taken
  generalize inner : wait.on call cancelled = action at moves
  have own : action = .insert call ∨ action = .poll call ∨ (∃ passed, action = .deadline call passed) ∨
      (∃ observed, action = .observe call observed) ∨ action = .remove call := by
    subst inner
    cases wait <;> simp [Wait.on]
  cases moves with
  | number | finish | command | take | miss | send | refuse => simp at own
  | insert found | received found | empty found | disconnected found | waits found | expires found
    | repeats found | cancels found | remove found =>
    obtain rfl : _ = call := by simpa using own
    exact ⟨_, _, found, rfl, rfl, rfl, nofun, nofun⟩

/-- A step for a control connection is not noticed by any request. -/
theorem view_effect {taker : Option Nat} {exchanged : Program.Exchange Control.Operation Control.Answer}
    {action : PinExchange.Action} (does : effect taker exchanged = some action)
    (taken : PinExchange.step process state action = some next) :
    view next.calls = view state.calls ∧ next.calls.length = state.calls.length := by
  have moves := moves_of_step process taken
  have kind : (∃ id pin, action = .command id pin) ∨ (∃ index, action = .take index) ∨
      ∃ index, action = .send index := by
    unfold effect at does
    split at does
    · split at does
      · cases does
        exact .inl ⟨_, _, rfl⟩
      · cases does
    · obtain ⟨index, _, rfl⟩ := Option.map_eq_some_iff.mp does
      exact .inr (.inl ⟨index, rfl⟩)
    · obtain ⟨index, _, rfl⟩ := Option.map_eq_some_iff.mp does
      exact .inr (.inr ⟨index, rfl⟩)
    · cases does
  cases moves with
  | command | take | miss | refuse => exact ⟨rfl, rfl⟩
  | @send index target id pin call found aimed listening room =>
    refine ⟨funext fun other => ?_, by simp [State.setTaker, State.setCall]⟩
    simp only [State.setTaker, State.setCall, view_set aimed]
    split
    · rename_i here
      subst here
      exact (view_eq_some aimed).symm
    · rfl
  | _ => simp at kind

end

/-- An answer to an operation other than the wait for a PIN is none of the answers about PINs. -/
theorem pinAnswers_silent {transcript : List (Program.Exchange Runtime.Operation Runtime.Answer)}
    {operation : Runtime.Operation} (answer : Runtime.Answer operation)
    (other : ∀ keyName, operation ≠ .requestPin keyName) :
    Runtime.pinAnswers (transcript ++ [⟨operation, answer⟩]) = Runtime.pinAnswers transcript := by
  have silent : Runtime.pinAnswer ⟨operation, answer⟩ = none := by
    cases operation with
    | requestPin keyName => exact absurd rfl (other keyName)
    | _ => rfl
  rw [Runtime.pinAnswers_concat, silent, Option.toList_none, List.append_nil]

section

variable {clients : Server (Option Nat)} {calls : List Call} {requests : List Request} {index : Nat} {request : Request}

/-- The answer to what a proper request asks leaves it proper. -/
theorem Proper.answered {operation : Runtime.Operation}
    {next : Runtime.Answer operation → Runtime.Action (Except String Bytes)} (proper : Proper request)
    (asks : request.program = .ask operation next) (answer : Runtime.Answer operation) :
    Proper { request with program := next answer, transcript := request.transcript ++ [⟨operation, answer⟩] } := by
  obtain ⟨phase, accepted, complies⟩ := proper
  rw [asks] at complies
  obtain ⟨reached, advanced, continues⟩ := complies answer
  exact ⟨reached, Program.accepts_concat accepted advanced, continues⟩

/-- A request that performs another operation than the wait for a PIN stays where its call is. -/
theorem Placed.performed {operation : Runtime.Operation}
    {next : Runtime.Answer operation → Runtime.Action (Except String Bytes)} (placed : Placed calls request)
    (asks : request.program = .ask operation next) (other : ∀ keyName, operation ≠ .requestPin keyName)
    (answer : Runtime.Answer operation) :
    Placed calls { request with
      program := next answer, transcript := request.transcript ++ [⟨operation, answer⟩] } := by
  have pins : Runtime.pinAnswers (request.transcript ++ [⟨operation, answer⟩]) =
      Runtime.pinAnswers request.transcript := pinAnswers_silent answer other
  unfold Placed at placed ⊢
  cases called : request.call with
  | none =>
    simp only [called] at placed ⊢
    exact pins.trans placed
  | some call =>
    simp only [called] at placed ⊢
    obtain ⟨keyName, stage, seen, within⟩ := placed
    refine ⟨keyName, stage, seen, ?_⟩
    cases stage with
    | returned result => exact pins.trans within
    | _ =>
      obtain ⟨_, rest, waits⟩ := within
      rw [asks] at waits
      cases waits
      exact absurd rfl (other keyName)

/-- A request performs an operation other than the wait for a PIN. -/
theorem Requests.perform (good : Requests clients calls requests) {operation : Runtime.Operation}
    {next : Runtime.Answer operation → Runtime.Action (Except String Bytes)} (found : requests[index]? = some request)
    (asks : request.program = .ask operation next) (other : ∀ keyName, operation ≠ .requestPin keyName)
    (answer : Runtime.Answer operation) :
    Requests clients calls (requests.set index { request with
      program := next answer, transcript := request.transcript ++ [⟨operation, answer⟩] }) := by
  have proper := (good.proper index request found).answered asks answer
  have placed := (good.placed index request found).performed asks other answer
  refine good.change found proper placed rfl (fun _ => ?_) (fun _ _ _ => rfl) (.inl ⟨rfl, rfl⟩)
  rw [asks]
  rfl

/-- A request begins its call, the last one listed. -/
theorem Requests.begin (good : Requests clients calls requests) {keyName : String}
    {next : Except String Bytes → Runtime.Action (Except String Bytes)} (found : requests[index]? = some request)
    (asks : request.program = .ask (.requestPin keyName) next) (fresh : request.call = none) :
    Requests clients (calls ++ [⟨keyName, .numbered, []⟩])
      (requests.set index { request with call := some calls.length }) := by
  refine good.change found (good.proper index request found) ?_ rfl id ?_ (.inr ⟨fresh, rfl, by simp⟩)
  · have stands := good.placed index request found
    simp only [Placed, fresh] at stands
    refine ⟨keyName, .numbered, ?_, stands, next, asks⟩
    simp [view]
  · exact fun call inside _ => view_concat inside _

/-- The call of a request goes on waiting. -/
theorem Requests.wait (good : Requests clients calls requests) {call : Nat} {old new : Call}
    (found : requests[index]? = some request) (called : request.call = some call) (present : calls[call]? = some old)
    (name : new.keyName = old.keyName) (waited : ∀ result, old.stage ≠ .returned result)
    (waits : ∀ result, new.stage ≠ .returned result) : Requests clients (calls.set call new) requests := by
  have stands := good.placed index request found
  simp only [Placed, called] at stands
  obtain ⟨_, _, seen, within⟩ := stands
  rw [view_eq_some present] at seen
  cases seen
  rw [← set_found found]
  refine good.change found (good.proper index request found) ?_ rfl id ?_ (.inl ⟨rfl, List.length_set⟩)
  · simp only [Placed, called]
    refine ⟨old.keyName, new.stage, ?_, ?_⟩
    · rw [view_set present, if_pos rfl, name]
    · exact (inCall_waiting waits).mpr ((inCall_waiting waited).mp within)
  · intro other _ different
    have elsewhere : call ≠ other := fun here => different (here ▸ called)
    rw [view_set present, if_neg elsewhere]

/-- The call of a request returns its result, which is the answer to the request. -/
theorem Requests.finish (good : Requests clients calls requests) {call : Nat} {keyName name : String}
    {result : Except String Bytes} {queue : List Pin}
    {next : Except String Bytes → Runtime.Action (Except String Bytes)} (found : requests[index]? = some request)
    (asks : request.program = .ask (.requestPin keyName) next) (called : request.call = some call)
    (ended : calls[call]? = some ⟨name, .removed result, queue⟩) :
    Requests clients (calls.set call ⟨name, .returned result, []⟩)
      (requests.set index (request.returned keyName next result)) := by
  have proper := (good.proper index request found).answered asks result
  refine good.change found proper ?_ rfl (fun _ => ?_) ?_ (.inl ⟨rfl, List.length_set⟩)
  · have stands := good.placed index request found
    simp only [Placed, called] at stands
    obtain ⟨keyName, stage, seen, within⟩ := stands
    rw [view_eq_some ended] at seen
    cases seen
    simp only [Placed, Request.returned, called]
    refine ⟨name, .returned result, ?_, ?_⟩
    · simp only [view_set ended, ↓reduceIte]
    · show Runtime.pinAnswers _ = _
      rw [Runtime.pinAnswers_concat, within.1]
      rfl
  · rw [asks]
    rfl
  · intro other _ different
    have elsewhere : call ≠ other := fun here => different (here ▸ called)
    simp only [view_set ended, if_neg elsewhere]

end

section

variable {settings : Runtime.Settings} {process : UInt32} {state next : Agent.State} {action : Agent.Action}

/-- Every step of the system keeps its requests in order. -/
theorem Requests.step (good : Requests state.clients state.exchange.calls state.requests)
    (taken : Agent.step settings process state action = some next) :
    Requests next.clients next.exchange.calls next.requests := by
  cases takes_of_step settings process taken with
  | client stepped =>
    apply good.unserved
    intro client index request _ _ serves
    exact Server.running_step none Option.isNone stepped serves rfl
  | controller => exact good
  | receive packet idle => exact good.receive settings packet idle
  | respond serving found finished => exact good.respond serving found finished
  | @disconnect index request found =>
    refine good.change found ?_ ?_ rfl id (fun _ _ _ => rfl) (.inl ⟨rfl, rfl⟩)
    · exact good.proper index request found
    · exact good.placed index request found
  | perform environment found asks other answer => exact good.perform found asks other answer
  | begin found asks fresh => exact good.begin found asks fresh
  | @wait index call request keyName next wait exchange found asks called moved =>
    obtain ⟨old, new, present, calls, _, name, waited, waits⟩ := moves_wait moved
    show Requests state.clients exchange.calls state.requests
    rw [calls]
    exact good.wait found called present name waited waits
  | finish found asks called ended => exact good.finish found asks called ended
  | @control index controller environment operation next answer exchange runs asks answered moved =>
    cases does : effect controller.taker ⟨operation, answer⟩ with
    | none =>
      rw [does] at moved
      cases moved
      exact good
    | some inner =>
      rw [does] at moved
      obtain ⟨same, length⟩ := view_effect does moved
      exact good.viewed same length

end

/-! ## Control connections -/

/-- How the phase of a connection stands to its command. -/
def Corresponds : Control.Phase → Taker → Prop
  | .commanded id pin, taker => taker = ⟨id, pin, .seeking⟩
  | .holding id pin sender, taker => taker = ⟨id, pin, .holding sender⟩
  | .delivered id pin sender, taker => taker = ⟨id, pin, .delivered sender⟩
  | .confirmed id pin sender, taker => taker = ⟨id, pin, .delivered sender⟩
  | .failed id pin, taker => taker = ⟨id, pin, .missing⟩ ∨ ∃ sender, taker = ⟨id, pin, .refused sender⟩
  | .reported id pin, taker => taker = ⟨id, pin, .missing⟩ ∨ ∃ sender, taker = ⟨id, pin, .refused sender⟩
  | _, _ => False

/-- A connection with a command is about it, and one without has read none. -/
def About (takers : List Taker) (phase : Control.Phase) : Option Nat → Prop
  | none => phase.command = none
  | some index => ∃ taker, takers[index]? = some taker ∧ Corresponds phase taker

/-- A connection keeps the order of its worker. -/
def Linked (takers : List Taker) (controller : Controller) : Prop :=
  ∃ phase, Program.accepts Control.advance .opening controller.transcript = some phase ∧
    Program.Complies Control.advance phase controller.program (fun phase _ => phase.closed) ∧
    About takers phase controller.taker

/-- Connections are in order, and every command belongs to exactly one. -/
structure Connections (controllers : List Controller) (takers : List Taker) : Prop where
  linked : ∀ (index : Nat) (controller : Controller), controllers[index]? = some controller →
    Linked takers controller
  owned : Owned controllers Controller.taker takers.length

section

variable {controllers : List Controller} {takers : List Taker}

/-- A connection does not notice what happens to the commands of others. -/
theorem Linked.framed {controller : Controller} (linked : Linked takers controller) {after : List Taker}
    (frame : ∀ index, controller.taker = some index → after[index]? = takers[index]?) :
    Linked after controller := by
  obtain ⟨phase, accepted, complies, about⟩ := linked
  refine ⟨phase, accepted, complies, ?_⟩
  cases taken : controller.taker with
  | none =>
    rw [taken] at about
    exact about
  | some index =>
    rw [taken] at about
    obtain ⟨taker, found, corresponds⟩ := about
    exact ⟨taker, (frame index taken).trans found, corresponds⟩

/-- A step of one connection, which may read a command or serve its own. -/
theorem Connections.change (good : Connections controllers takers) {after : List Taker} {index : Nat}
    {old new : Controller} (found : controllers[index]? = some old) (linked : Linked after new)
    (frame : ∀ taker, taker < takers.length → old.taker ≠ some taker → after[taker]? = takers[taker]?)
    (taker : (new.taker = old.taker ∧ after.length = takers.length) ∨
      (old.taker = none ∧ new.taker = some takers.length ∧ after.length = takers.length + 1)) :
    Connections (controllers.set index new) after := by
  refine ⟨?_, ?_⟩
  · intro other controller present
    rw [getElem?_set_found found] at present
    split at present
    · cases present
      exact linked
    · rename_i different
      refine (good.linked other controller present).framed fun target taken => ?_
      exact frame target (good.owned.bounded other controller target present taken)
        (good.owned.elsewhere found different present taken)
  · rcases taker with ⟨same, length⟩ | ⟨without, fresh, longer⟩
    · rw [length]
      exact good.owned.set found same
    · rw [longer]
      exact good.owned.mint found without fresh

/-- A new connection has read nothing. -/
theorem Connections.concat (good : Connections controllers takers) :
    Connections (controllers ++ [connected]) takers := by
  refine ⟨?_, good.owned.concat rfl⟩
  intro index controller present
  rcases getElem?_concat present with earlier | ⟨_, rfl⟩
  · exact good.linked index controller earlier
  · exact ⟨.opening, rfl, worker_complies, rfl⟩

/-- A connection that has read no command has none. -/
theorem About.opening {taker : Option Nat} (about : About takers .opening taker) : taker = none := by
  cases taker with
  | none => rfl
  | some index =>
    obtain ⟨_, _, impossible⟩ := about
    exact impossible.elim

/-- The command that a phase is about. -/
theorem About.command {phase : Control.Phase} {taker : Option Nat} {id : RequestId} {pin : Pin}
    (about : About takers phase taker) (command : phase.command = some (id, pin)) :
    ∃ index found, taker = some index ∧ takers[index]? = some found ∧ Corresponds phase found := by
  cases taker with
  | none => exact absurd (command.symm.trans about) nofun
  | some index =>
    obtain ⟨found, present, corresponds⟩ := about
    exact ⟨index, found, rfl, present, corresponds⟩

end

/-- What a step of a connection does to the commands: its own stands as the phase
says, the others are untouched, and at most one is added, which is its own. -/
structure Serves (before after : List Taker) (reached : Control.Phase) (old new : Option Nat) : Prop where
  about : About after reached new
  frame : ∀ taker, taker < before.length → old ≠ some taker → after[taker]? = before[taker]?
  taker : (new = old ∧ after.length = before.length) ∨
    (old = none ∧ new = some before.length ∧ after.length = before.length + 1)

section

variable {takers : List Taker} {reached : Control.Phase}

/-- A step that changes no command serves the connection that is about its own. -/
theorem serves_silent {taker : Option Nat} (about : About takers reached taker) :
    Serves takers takers reached taker taker := ⟨about, fun _ _ _ => rfl, .inl ⟨rfl, rfl⟩⟩

/-- An authorization that was read becomes the last command. -/
theorem serves_read (id : RequestId) (pin : Pin) :
    Serves takers (takers ++ [⟨id, pin, .seeking⟩]) (.commanded id pin) none (some takers.length) := by
  refine ⟨⟨⟨id, pin, .seeking⟩, by simp, rfl⟩, ?_, .inr ⟨rfl, rfl, by simp⟩⟩
  intro taker inside _
  exact List.getElem?_append_left inside

/-- A connection settles its own command. -/
theorem serves_own {index : Nat} {old new : Taker} (present : takers[index]? = some old)
    (corresponds : Corresponds reached new) :
    Serves takers (takers.set index new) reached (some index) (some index) := by
  refine ⟨⟨new, ?_, corresponds⟩, ?_, .inl ⟨rfl, List.length_set⟩⟩
  · rw [getElem?_set_found present, if_pos rfl]
  · intro taker _ other
    rw [getElem?_set_found present, if_neg fun here => other (congrArg some here)]

end

section

variable {process : UInt32} {exchange next : PinExchange.State} {taker : Option Nat}
  {environment : Answers Control.Operation Control.Answer} {phase reached : Control.Phase}

/-- A removal settles the connection's own command. -/
theorem serves_remove {id : RequestId} {removed : Control.Answer (.remove id)}
    (about : About exchange.takers phase taker)
    (advanced : Control.advance phase ⟨.remove id, removed⟩ = some reached)
    (answered : answerTo exchange environment (.remove id) = some removed)
    (moved : (match taker.map PinExchange.Action.take with
      | some inner => PinExchange.step process exchange inner
      | none => some exchange) = some next) :
    Serves exchange.takers next.takers reached taker taker := by
  cases answered
  cases phase with
  | commanded named pin =>
    obtain ⟨index, found, rfl, present, rfl⟩ := about.command rfl
    obtain ⟨rfl, rfl⟩ := Control.advance_remove advanced
    cases moves_of_step process moved with
    | take found lookup =>
      rw [present] at found
      cases found
      rw [lookup]
      exact serves_own present rfl
    | miss found absent =>
      rw [present] at found
      cases found
      rw [absent]
      exact serves_own present (.inl rfl)
  | _ => simp [Control.advance] at advanced

/-- A sent value settles the connection's own command, as its receiver allows. -/
theorem serves_send {sender : Nat} {value : Pin} {outcome : Control.Answer (.send sender value)}
    (about : About exchange.takers phase taker)
    (advanced : Control.advance phase ⟨.send sender value, outcome⟩ = some reached)
    (answered : answerTo exchange environment (.send sender value) = some outcome)
    (moved : (match taker.map PinExchange.Action.send with
      | some inner => PinExchange.step process exchange inner
      | none => some exchange) = some next) :
    Serves exchange.takers next.takers reached taker taker := by
  cases answered
  cases phase with
  | holding id pin held =>
    obtain ⟨index, found, rfl, present, rfl⟩ := about.command rfl
    obtain ⟨rfl, rfl, rfl⟩ := Control.advance_send advanced
    cases moves_of_step process moved with
    | send found aimed listens room =>
      rw [present] at found
      cases found
      simp only [listening, aimed, listens, ↓reduceIte]
      exact serves_own present rfl
    | refuse found aimed deaf =>
      rw [present] at found
      cases found
      simp only [listening, aimed, deaf]
      exact serves_own present (.inr ⟨_, rfl⟩)
  | _ => simp [Control.advance] at advanced

/-- A connection reads its command first, and an authorization becomes its own. -/
theorem serves_readCommand {read : Control.Answer .readCommand} (about : About exchange.takers phase taker)
    (advanced : Control.advance phase ⟨.readCommand, read⟩ = some reached)
    (moved : (match effect taker ⟨.readCommand, read⟩ with
      | some inner => PinExchange.step process exchange inner
      | none => some exchange) = some next) :
    Serves exchange.takers next.takers reached taker (takerAfter exchange taker ⟨.readCommand, read⟩) := by
  cases phase with
  | opening =>
    obtain rfl := about.opening
    rcases (read : Except String Command) with _ | _ | _ | ⟨id, pin⟩
    · cases moved
      cases advanced
      exact serves_silent rfl
    · cases moved
      cases advanced
      exact serves_silent rfl
    · cases moved
      cases advanced
      exact serves_silent rfl
    · cases moved
      cases advanced
      exact serves_read id pin
  | _ => simp [Control.advance] at advanced

/-- A reply leaves the commands as they are. -/
theorem serves_write {bytes : Bytes} {wrote : Control.Answer (.write bytes)} (about : About exchange.takers phase taker)
    (advanced : Control.advance phase ⟨.write bytes, wrote⟩ = some reached) :
    Serves exchange.takers exchange.takers reached taker taker := by
  apply serves_silent
  cases phase with
  | opening =>
    obtain rfl := about.opening
    cases advanced
    rfl
  | other =>
    cases advanced
    exact about
  | delivered id pin sender =>
    simp only [Control.advance] at advanced
    split at advanced
    · cases advanced
      obtain ⟨index, found, rfl, present, corresponds⟩ := about.command rfl
      exact ⟨found, present, corresponds⟩
    · cases advanced
  | confirmed id pin sender =>
    simp only [Control.advance] at advanced
    split at advanced
    · cases advanced
      exact about
    · cases advanced
  | failed id pin =>
    simp only [Control.advance] at advanced
    split at advanced
    · cases advanced
      obtain ⟨index, found, rfl, present, corresponds⟩ := about.command rfl
      exact ⟨found, present, corresponds⟩
    · cases advanced
  | _ => simp [Control.advance] at advanced

/-- Every step of a connection serves its own command. -/
theorem serves_control {operation : Control.Operation} {answer : Control.Answer operation}
    (about : About exchange.takers phase taker)
    (advanced : Control.advance phase ⟨operation, answer⟩ = some reached)
    (answered : answerTo exchange environment operation = some answer)
    (moved : (match effect taker ⟨operation, answer⟩ with
      | some inner => PinExchange.step process exchange inner
      | none => some exchange) = some next) :
    Serves exchange.takers next.takers reached taker (takerAfter exchange taker ⟨operation, answer⟩) := by
  cases operation with
  | readCommand => exact serves_readCommand about advanced moved
  | remove id => exact serves_remove about advanced answered moved
  | send sender value => exact serves_send about advanced answered moved
  | write bytes =>
    cases moved
    exact serves_write about advanced
  | pending =>
    cases moved
    simp only [Control.advance] at advanced
    split at advanced
    · rename_i other
      subst other
      cases advanced
      exact serves_silent about
    · cases advanced
  | peercred | setReadTimeout | setWriteTimeout =>
    cases moved
    simp only [Control.advance] at advanced
    split at advanced
    · rename_i opening
      subst opening
      cases advanced
      exact serves_silent about
    · cases advanced

end

section

variable {settings : Runtime.Settings} {process : UInt32} {state next : Agent.State} {action : Agent.Action}

/-- Every step of the system keeps its control connections in order. -/
theorem Connections.step (good : Connections state.controllers.states state.exchange.takers)
    (taken : Agent.step settings process state action = some next) :
    Connections next.controllers.states next.exchange.takers := by
  cases takes_of_step settings process taken with
  | client | receive | respond | disconnect | perform | begin | finish => exact good
  | controller stepped =>
    rcases Server.states_step _ _ stepped with same | longer
    · exact same ▸ good
    · exact longer ▸ good.concat
  | wait found asks called moved =>
    obtain ⟨_, _, _, _, takers, _⟩ := moves_wait moved
    exact takers.symm ▸ good
  | @control index controller environment operation next answer exchange runs asks answered moved =>
    have found := Server.states_of_running runs
    obtain ⟨phase, accepted, complies, about⟩ := good.linked index controller found
    rw [asks] at complies
    obtain ⟨reached, advanced, continues⟩ := complies answer
    have serves := serves_control about advanced answered moved
    show Connections (state.controllers.update index _).states exchange.takers
    rw [Server.states_update]
    refine good.change found ?_ serves.frame serves.taker
    exact ⟨reached, Program.accepts_concat accepted advanced, continues, serves.about⟩

end

/-! ## The system -/

/-- The limiters' counters are true. -/
structure Permitted (state : Agent.State) : Prop where
  clients : state.clients.Accounted
  controllers : state.controllers.Accounted

section

variable {settings : Runtime.Settings} {process : UInt32} {state next : Agent.State} {action : Agent.Action}

/-- No thread holds a permit at first. -/
theorem permitted_initial : Permitted Agent.initial := ⟨Server.accounted_new, Server.accounted_new⟩

/-- Every step keeps the permits of both limiters accounted for. -/
theorem Permitted.step (permitted : Permitted state)
    (taken : Agent.step settings process state action = some next) : Permitted next := by
  cases takes_of_step settings process taken with
  | disconnect | perform | begin | wait | finish => exact ⟨permitted.clients, permitted.controllers⟩
  | client stepped => exact ⟨permitted.clients.step _ _ stepped, permitted.controllers⟩
  | controller stepped => exact ⟨permitted.clients, permitted.controllers.step _ _ stepped⟩
  | receive packet idle => exact ⟨permitted.clients.update idle _, permitted.controllers⟩
  | respond serving => exact ⟨permitted.clients.update serving _, permitted.controllers⟩
  | control runs => exact ⟨permitted.clients, permitted.controllers.update runs _⟩

/-- A step of the system is at most one step of the exchange of PINs. -/
theorem exchange_step (taken : Agent.step settings process state action = some next) :
    (touches state action = none ∧ next.exchange = state.exchange) ∨
      ∃ inner, touches state action = some inner ∧
        PinExchange.step process state.exchange inner = some next.exchange := by
  obtain ⟨middle, _, taken⟩ := Option.bind_eq_some_iff.mp taken
  obtain ⟨exchange, moved, taken⟩ := Option.bind_eq_some_iff.mp taken
  cases taken
  unfold exchanged at moved
  split at moved
  · rename_i inner touched
    exact .inr ⟨inner, touched, moved⟩
  · rename_i untouched
    cases moved
    exact .inl ⟨untouched, rfl⟩

/-- Calls are never forgotten. -/
theorem calls_step (taken : Agent.step settings process state action = some next) :
    state.exchange.calls.length ≤ next.exchange.calls.length := by
  rcases exchange_step taken with ⟨_, same⟩ | ⟨inner, _, moved⟩
  · rw [same]
  · exact PinExchange.calls_grow process moved

/-- What holds in every state of a run while the request counter does not wrap. -/
structure Orderly (process : UInt32) (state : Agent.State) : Prop where
  permitted : Permitted state
  requests : Requests state.clients state.exchange.calls state.requests
  connections : Connections state.controllers.states state.exchange.takers
  sound : state.exchange.calls.length < 2 ^ 64 → Sound process state.exchange

/-- The system starts in order. -/
theorem orderly_initial : Orderly process Agent.initial := by
  refine ⟨permitted_initial, ⟨?_, ?_, ?_, ?_⟩, ⟨?_, ?_⟩, fun _ => sound_initial process⟩
  · simp [Agent.initial]
  · simp [Agent.initial]
  · simp [Agent.initial]
  · exact owned_nil
  · simp [Agent.initial, Server.new, Server.states]
  · exact owned_nil

/-- Every step keeps the system in order. -/
theorem Orderly.step (orderly : Orderly process state)
    (taken : Agent.step settings process state action = some next) : Orderly process next := by
  refine ⟨orderly.permitted.step taken, orderly.requests.step taken, orderly.connections.step taken, ?_⟩
  intro few
  have fewBefore := Nat.lt_of_le_of_lt (calls_step taken) few
  rcases exchange_step taken with ⟨_, same⟩ | ⟨inner, _, moved⟩
  · rw [same]
    exact orderly.sound fewBefore
  · exact (orderly.sound fewBefore).step fewBefore moved

/-- Every reachable state is orderly. -/
theorem orderly_of_run {actions : List Agent.Action}
    (reached : Transition.run (Agent.step settings process) Agent.initial actions = some state) :
    Orderly process state :=
  Transition.invariant_run (fun _ _ _ orderly taken => orderly.step taken) orderly_initial reached

end

end Keyvisor.Authorization
