import Keyvisor.Freshness
import Keyvisor.Selection

/-!
# The wrapper and the agent as one system

The command wrapper of `keyvisor-cli/src/main.rs` and the one agent process it talks
to. The agent may be launched at any time, and all its steps that have nothing to do
with the wrapper are there: other clients register, cancel and authorize requests
between any two steps of the wrapper.

A connection of the wrapper is joined by its bytes alone. The worker behind it reads
its command from a beginning of what the wrapper has sent, the wrapper reads its
lines from a beginning of what the worker has written and it has not read, and
either write may fail half way. The texts of the operating system's errors have no
control characters.
-/

namespace Keyvisor.Joint

open Foundation Foundation.Stream Foundation.Text Control Agent Dialogue

/-- A control connection of the wrapper: the agent's worker once it is accepted, the
bytes that the wrapper has sent, the lines that it has read, the bytes that it has not
read yet, and the exchange of PINs as the worker saw it when it looked at the table. -/
structure Link where
  worker : Option Nat
  sent : Bytes
  received : List Bytes
  unread : Bytes
  shown : Option PinExchange.State

/-- The exchange of PINs that the wrapper found idle before it started the command,
and the number of connections that it had made by then. -/
structure Preflight where
  exchange : PinExchange.State
  links : Nat

/-- The wrapper and the agent with their connections. -/
structure State where
  wrapper : Exec.State
  agent : Agent.State
  launched : Bool
  links : List Link
  preflight : Option Preflight

/-- The wrapper before its first question, and no agent. -/
def initial (arguments : List Bytes) : State := ⟨Exec.initial arguments, Agent.initial, false, [], none⟩

/-- The steps of the two processes, and how their environments answer. A part of a
write that fails is still sent. -/
inductive Action where
  | launch
  | agent (action : Agent.Action)
  | accept (link : Nat)
  | serve (link : Nat) (source : Source) (length : Nat) (environment : Answers Control.Operation Control.Answer)
  | wrapper (source : Source) (length : Nat) (environment : (operation : Exec.Operation) → Exec.Answer operation)
  | exit (status : Exec.ExitStatus)

/-! ## Connections -/

namespace Link

/-- A connection that waits to be accepted. -/
def waiting : Link := ⟨none, [], [], [], none⟩

/-- The connection has a worker. -/
def accepted (worker : Nat) (link : Link) : Link := { link with worker := some worker }

/-- The wrapper has sent some bytes. -/
def wrote (bytes : Bytes) (link : Link) : Link := { link with sent := link.sent ++ bytes }

/-- The wrapper has read a line. -/
def heard (line : Bytes) (link : Link) : Link :=
  { link with received := link.received ++ [line], unread := link.unread.drop (line.length + 1) }

/-- What the worker has seen of the exchange of PINs. -/
def looked (exchange : PinExchange.State) :
    Program.Exchange Control.Operation Control.Answer → Option PinExchange.State
  | ⟨.pending, _⟩ => some exchange
  | _ => none

/-- The worker has gone on. It looks at the table once. -/
def served (length : Nat) (exchange : PinExchange.State)
    (exchanged : Program.Exchange Control.Operation Control.Answer) (link : Link) : Link :=
  { link with
    unread := link.unread ++ written length exchanged
    shown := link.shown.or (looked exchange exchanged) }

end Link

/-- The wrapper uses one connection at a time, the last that it made. -/
def State.current (state : State) : Option Link := state.links[state.links.length - 1]?

/-- What an exchange of the wrapper does to its connections. -/
def crossed (length : Nat) (links : List Link) : Program.Exchange Exec.Operation Exec.Answer → List Link
  | ⟨.control .connectControl, answer⟩ =>
    match (answer : Except String Unit) with
    | .ok _ => links ++ [.waiting]
    | .error _ => links
  | ⟨.control (.write bytes), answer⟩ =>
    match (answer : Except IoError Unit) with
    | .ok _ => links.modify (links.length - 1) (.wrote bytes)
    | .error _ => links.modify (links.length - 1) (.wrote (bytes.take length))
  | ⟨.control .readControlLine, answer⟩ =>
    match (answer : Except String Bytes) with
    | .ok line => links.modify (links.length - 1) (.heard line)
    | .error _ => links
  | _ => links

/-! ## What the environments answer -/

/-- The worker reads its command from what it receives. -/
def hears (source : Source) (environment : Answers Control.Operation Control.Answer) :
    Answers Control.Operation Control.Answer
  | .readCommand => readCommand source
  | operation => environment operation

/-- The wrapper reads its lines from what it receives. -/
def reads (source : Source) (environment : (operation : Exec.Operation) → Exec.Answer operation) :
    (operation : Exec.Operation) → Exec.Answer operation
  | .control .readControlLine => ((ControlClient.readControlLine source).map Prod.fst : Except String Bytes)
  | operation => environment operation

/-- A worker receives a beginning of what the wrapper has sent. -/
def heeds (link : Link) (source : Source) : Program.Exchange Control.Operation Control.Answer → Bool
  | ⟨.readCommand, _⟩ => source.remaining.isPrefixOf link.sent
  | _ => true

/-- Connections are made to the agent, whose control socket is there while it runs.
The wrapper receives a beginning of what it has not read. A PIN was validated when
it was entered. -/
def permitted (state : State) (source : Source) : Program.Exchange Exec.Operation Exec.Answer → Bool
  | ⟨.control .connectControl, answer⟩ =>
    match (answer : Except String Unit) with
    | .ok _ => state.launched
    | .error _ => true
  | ⟨.symlinkMetadata, answer⟩ =>
    match (answer : Except IoError Unit) with
    | .ok _ => true
    | .error error => error.kind ≠ .notFound || !state.launched
  | ⟨.control .readControlLine, _⟩ => state.current.any fun link => source.remaining.isPrefixOf link.unread
  | ⟨.control (.readExistingPin _ _), answer⟩ =>
    match (answer : Except String Bytes) with
    | .ok pin => (ControlClient.validatePin pin "PIN").isOk
    | .error _ => true
  | _ => true

/-- A missing control socket counts as an empty listing. A listing that was read is
the preflight's when the command is started after it. -/
def inspected (state : State) : Program.Exchange Exec.Operation Exec.Answer → Option Preflight
  | ⟨.symlinkMetadata, answer⟩ =>
    match (answer : Except IoError Unit) with
    | .ok _ => none
    | .error error => if error.kind = .notFound then some ⟨state.agent.exchange, state.links.length⟩ else none
  | ⟨.spawn _, _⟩ => (state.current.bind Link.shown).map fun seen => ⟨seen, state.links.length⟩
  | _ => none

/-- The agent's steps other than those of the wrapper's workers. -/
def foreign (links : List Link) : Agent.Action → Bool
  | .control worker _ => links.all fun link => link.worker ≠ some worker
  | _ => true

/-! ## The system -/

section

variable (settings : Runtime.Settings) (process : UInt32)

/-- One step of the two processes. -/
def step (state : State) : Action → Option State
  | .launch => if state.launched then none else some { state with launched := true }
  | .agent action =>
    if state.launched && foreign state.links action then
      (Agent.step settings process state.agent action).map fun agent => { state with agent := agent }
    else none
  | .accept place => do
    let link ← state.links[place]?
    let agent ← Agent.step settings process state.agent (.controller (.spawn true))
    if link.worker = none then
      some { state with
        agent := agent
        links := state.links.modify place (.accepted state.agent.controllers.states.length) }
    else none
  | .serve place source length environment => do
    let link ← state.links[place]?
    let worker ← link.worker
    let controller ← state.agent.controllers.running worker
    let (exchanged, _) ← controller.next state.agent.exchange (hears source environment)
    let agent ← Agent.step settings process state.agent (.control worker (hears source environment))
    if legible exchanged && heeds link source exchanged then
      some { state with
        agent := agent
        links := state.links.modify place (.served length state.agent.exchange exchanged) }
    else none
  | .wrapper source length environment => do
    let (exchange, _) ← state.wrapper.progress.answered (Exec.answerTo state.wrapper.child (reads source environment))
    let wrapper ← Exec.step state.wrapper (.answer (reads source environment))
    if permitted state source exchange then
      some { state with
        wrapper := wrapper
        links := crossed length state.links exchange
        preflight := state.preflight.or (inspected state exchange) }
    else none
  | .exit status => (Exec.step state.wrapper (.exit status)).map fun wrapper => { state with wrapper := wrapper }

/-- What a step can do, one case for each kind of step. -/
inductive Takes (state : State) : State → Prop where
  | launch : Takes state { state with launched := true }
  | agent {action : Agent.Action} {agent : Agent.State} (launched : state.launched)
      (aside : foreign state.links action) (taken : Agent.step settings process state.agent action = some agent) :
      Takes state { state with agent := agent }
  | accept {place : Nat} {link : Link} {agent : Agent.State} (found : state.links[place]? = some link)
      (waits : link.worker = none)
      (taken : Agent.step settings process state.agent (.controller (.spawn true)) = some agent) :
      Takes state { state with
        agent := agent
        links := state.links.set place (link.accepted state.agent.controllers.states.length) }
  | serve {place worker length : Nat} {link : Link} {controller : Controller} {source : Source}
      {environment : Answers Control.Operation Control.Answer}
      {exchanged : Program.Exchange Control.Operation Control.Answer} {rest : Control.Action Unit}
      {agent : Agent.State} (found : state.links[place]? = some link) (attended : link.worker = some worker)
      (runs : state.agent.controllers.running worker = some controller)
      (next : controller.next state.agent.exchange (hears source environment) = some (exchanged, rest))
      (taken : Agent.step settings process state.agent (.control worker (hears source environment)) = some agent)
      (clean : legible exchanged = true) (heeded : heeds link source exchanged) :
      Takes state { state with
        agent := agent
        links := state.links.set place (link.served length state.agent.exchange exchanged) }
  | wrapper {source : Source} {length : Nat} {environment : (operation : Exec.Operation) → Exec.Answer operation}
      {exchange : Program.Exchange Exec.Operation Exec.Answer} {progress : Exec.Progress}
      (asked : state.wrapper.progress.answered (Exec.answerTo state.wrapper.child (reads source environment)) =
        some (exchange, progress))
      (allowed : permitted state source exchange) :
      Takes state { state with
        wrapper := state.wrapper.answered progress exchange
        links := crossed length state.links exchange
        preflight := state.preflight.or (inspected state exchange) }
  | exit {status : Exec.ExitStatus} {wrapper : Exec.State}
      (taken : Exec.step state.wrapper (.exit status) = some wrapper) : Takes state { state with wrapper := wrapper }

/-- A found item is modified in its place. -/
theorem modify_found {α : Type} {items : List α} {index : Nat} {item : α} (found : items[index]? = some item)
    (change : α → α) : items.modify index change = items.set index (change item) := by
  apply List.ext_getElem?
  intro other
  rw [List.getElem?_modify, getElem?_set_found found]
  by_cases here : index = other
  · subst here
    simp [found]
  · simp [here]

/-- Every enabled step is one of the kinds of steps. -/
theorem takes_of_step {state next : State} {action : Action} (taken : step settings process state action = some next) :
    Takes settings process state next := by
  cases action with
  | launch =>
    simp only [step] at taken
    split at taken
    · cases taken
    · cases taken
      exact .launch
  | agent action =>
    simp only [step] at taken
    split at taken
    · rename_i allowed
      obtain ⟨launched, aside⟩ := Bool.and_eq_true_iff.mp allowed
      obtain ⟨agent, inner, same⟩ := Option.map_eq_some_iff.mp taken
      cases same
      exact .agent launched aside inner
    · cases taken
  | accept place =>
    obtain ⟨link, found, taken⟩ := Option.bind_eq_some_iff.mp taken
    obtain ⟨agent, inner, taken⟩ := Option.bind_eq_some_iff.mp taken
    split at taken
    · rename_i waits
      cases taken
      rw [modify_found found]
      exact .accept found waits inner
    · cases taken
  | serve place source length environment =>
    obtain ⟨link, found, taken⟩ := Option.bind_eq_some_iff.mp taken
    obtain ⟨worker, attended, taken⟩ := Option.bind_eq_some_iff.mp taken
    obtain ⟨controller, runs, taken⟩ := Option.bind_eq_some_iff.mp taken
    obtain ⟨⟨exchanged, rest⟩, continues, taken⟩ := Option.bind_eq_some_iff.mp taken
    obtain ⟨agent, inner, taken⟩ := Option.bind_eq_some_iff.mp taken
    split at taken
    · rename_i allowed
      obtain ⟨clean, heeded⟩ := Bool.and_eq_true_iff.mp allowed
      cases taken
      rw [modify_found found]
      exact .serve found attended runs continues inner clean heeded
    · cases taken
  | wrapper source length environment =>
    obtain ⟨⟨exchange, progress⟩, asked, taken⟩ := Option.bind_eq_some_iff.mp taken
    obtain ⟨wrapper, inner, taken⟩ := Option.bind_eq_some_iff.mp taken
    obtain ⟨⟨again, reached⟩, same, ended⟩ := Option.bind_eq_some_iff.mp inner
    rw [asked] at same
    cases same
    cases ended
    split at taken
    · rename_i allowed
      cases taken
      exact .wrapper asked allowed
    · cases taken
  | exit status =>
    obtain ⟨wrapper, inner, same⟩ := Option.map_eq_some_iff.mp taken
    cases same
    exact .exit inner

end

/-! ## Each process alone -/

section

variable {settings : Runtime.Settings} {process : UInt32} {state next : State} {action : Action}

/-- A step of the joint system is at most one of the agent. -/
theorem agent_of_step (taken : step settings process state action = some next) :
    next.agent = state.agent ∨ ∃ inner, Agent.step settings process state.agent inner = some next.agent := by
  cases takes_of_step settings process taken with
  | launch | wrapper | exit => exact .inl rfl
  | agent launched aside inner => exact .inr ⟨_, inner⟩
  | accept found waits inner => exact .inr ⟨_, inner⟩
  | serve found attended runs continues inner => exact .inr ⟨_, inner⟩

/-- A step of the joint system is at most one of the wrapper. -/
theorem wrapper_of_step (taken : step settings process state action = some next) :
    next.wrapper = state.wrapper ∨ ∃ event, Exec.step state.wrapper event = some next.wrapper := by
  cases takes_of_step settings process taken with
  | launch | agent | accept | serve => exact .inl rfl
  | @wrapper source length environment exchange progress asked =>
    refine .inr ⟨.answer (reads source environment), ?_⟩
    simp only [Exec.step, asked, Option.bind_eq_bind, Option.bind_some]
    rfl
  | exit inner => exact .inr ⟨_, inner⟩

/-- Together the two processes do nothing that they do not do alone. -/
theorem parts_of_run {arguments : List Bytes} {actions : List Action}
    (reached : Transition.run (step settings process) (initial arguments) actions = some state) :
    Transition.Reaches (Agent.step settings process) Agent.initial state.agent ∧
      Transition.Reaches Exec.step (Exec.initial arguments) state.wrapper := by
  have kept (earlier : State) (action : Action) (later : State)
      (parts : Transition.Reaches (Agent.step settings process) Agent.initial earlier.agent ∧
        Transition.Reaches Exec.step (Exec.initial arguments) earlier.wrapper)
      (taken : step settings process earlier action = some later) :
      Transition.Reaches (Agent.step settings process) Agent.initial later.agent ∧
        Transition.Reaches Exec.step (Exec.initial arguments) later.wrapper := by
    obtain ⟨agent, wrapper⟩ := parts
    constructor
    · rcases agent_of_step taken with same | ⟨inner, stepped⟩
      · exact same ▸ agent
      · exact agent.next stepped
    · rcases wrapper_of_step taken with same | ⟨event, stepped⟩
      · exact same ▸ wrapper
      · exact wrapper.next stepped
  exact Transition.invariant_run kept ⟨⟨[], rfl⟩, ⟨[], rfl⟩⟩ reached

end

end Keyvisor.Joint
