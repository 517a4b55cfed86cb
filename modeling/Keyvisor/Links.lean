import Keyvisor.Joint

/-!
# What the two ends of the wrapper's connections know

A worker that has looked at the table knows the exchange of PINs as it was then, and
a wrapper that accepts a listing has read what that worker saw. A worker that reads a
command has read one that the wrapper sent. Both hold whatever the agent's other
threads do meanwhile.
-/

namespace Keyvisor.Links

open Foundation Foundation.Stream Foundation.Text Control PinExchange Agent Authorization Dialogue Freshness Joint

/-! ## What a worker has seen -/

/-- The exchange of PINs at an earlier time. -/
structure Snapshot (process : UInt32) (seen now : PinExchange.State) : Prop where
  sound : Sound process seen
  few : (shown seen.table).length ≤ ControlClient.maxPendingAuthorizations
  enrolled : ∀ call, Enrolled seen call → Enrolled now call
  past : shown seen.table = [] → Past seen now

/-- The exchange of PINs at most one step later. -/
def Advances (process : UInt32) (old new : PinExchange.State) : Prop :=
  new = old ∨ ∃ action, PinExchange.step process old action = some new

section

variable {process : UInt32} {seen now next : PinExchange.State}

/-- What was past stays past. -/
theorem Advances.past (advances : Advances process now next) (past : Past seen now) : Past seen next := by
  rcases advances with rfl | ⟨action, taken⟩
  · exact past
  · exact past.step taken

/-- A snapshot stays one of an earlier state. -/
theorem Advances.snapshot (advances : Advances process now next) (snapshot : Snapshot process seen now) :
    Snapshot process seen next := by
  refine ⟨snapshot.sound, snapshot.few, ?_, fun empty => advances.past (snapshot.past empty)⟩
  intro call enrolled
  rcases advances with rfl | ⟨action, taken⟩
  · exact snapshot.enrolled call enrolled
  · exact (snapshot.enrolled call enrolled).step taken

/-- Every step of the agent lets its exchange advance. -/
theorem advances_of_step {settings : Runtime.Settings} {state after : Agent.State} {action : Agent.Action}
    (taken : Agent.step settings process state action = some after) :
    Advances process state.exchange after.exchange := by
  rcases exchange_step taken with ⟨_, same⟩ | ⟨inner, _, moved⟩
  · exact .inl same
  · exact .inr ⟨inner, moved⟩

/-- A worker that looks at the table now. -/
theorem snapshot_now {state : Agent.State} (orderly : Orderly process state)
    (few : state.exchange.calls.length < 2 ^ 64) : Snapshot process state.exchange state.exchange := by
  have sound := orderly.sound few
  refine ⟨sound, ?_, fun _ => id, past_of_empty sound⟩
  rw [shown, List.length_map]
  exact Pending.table_le orderly few

/-- What a worker has seen can be told. -/
theorem Snapshot.readable (snapshot : Snapshot process seen now) {order : List (RequestId × String)}
    (shows : order.Perm (shown seen.table)) : Readable order := by
  constructor
  · intro request member
    obtain ⟨entry, listed, rfl⟩ := List.mem_map.mp (shows.mem_iff.mp member)
    obtain ⟨_, _, named, _⟩ := snapshot.sound.listed entry.1 entry.2 (AList.mem_lookup_iff.mpr listed)
    rw [named]
    exact plain_requestId process _
  · rw [shows.length_eq]
    exact snapshot.few

end

/-! ## One connection -/

/-- A worker stands to its connection as its voice says. -/
structure Talks (controller : Controller) (link : Link) (voice : Voice) : Prop where
  complies : Program.Complies speak voice controller.program fun _ _ => True
  heard : Heard voice (lined 10 link.received ++ link.unread)
  clean : ∀ line ∈ link.received, 10 ∉ line
  silent : voice = .silent → link.shown = none
  listing : ∀ order, voice.order = some order → ∃ seen, link.shown = some seen ∧ order.Perm (shown seen.table)
  elsewhere : voice = .elsewhere → ¬ link.sent <+: utf8 "LIST" ++ [10]
  commanded : ∀ id pin, (id, pin) ∈ commandsRead controller.transcript →
    Plain id ∧ authorization id pin.bytes <+: link.sent

/-- The wrapper has sent a beginning of a command. -/
def Spelled (link : Link) : Prop :=
  link.sent <+: utf8 "LIST" ++ [10] ∨ ∃ id pin, Plain id ∧ link.sent <+: authorization id (Pin.bytes pin)

section

variable {controller : Controller} {link : Link} {voice reached : Voice}

/-- A worker that was just started has heard and said nothing. -/
theorem talks_accepted (quiet : link.received = [] ∧ link.unread = [] ∧ link.shown = none) (worker : Nat) :
    Talks connected (link.accepted worker) .silent := by
  obtain ⟨none, nothing, unseen⟩ := quiet
  refine ⟨worker_speaks, ?_, ?_, fun _ => unseen, ?_, ?_, ?_⟩
  · show lined 10 link.received ++ link.unread = []
    rw [none, nothing]
    rfl
  · intro line member
    have inside : line ∈ link.received := member
    rw [none] at inside
    exact absurd inside List.not_mem_nil
  · exact fun order impossible => by cases impossible
  · exact fun impossible => by cases impossible
  · exact fun id pin impossible => absurd impossible List.not_mem_nil

/-- The wrapper sends more. -/
theorem Talks.wrote (talks : Talks controller link voice) (bytes : Bytes) :
    Talks controller (link.wrote bytes) voice := by
  have longer : link.sent <+: link.sent ++ bytes := List.prefix_append _ _
  refine ⟨talks.complies, talks.heard, talks.clean, talks.silent, talks.listing, ?_, ?_⟩
  · exact fun away list => talks.elsewhere away (longer.trans list)
  · intro id pin read
    obtain ⟨plain, sent⟩ := talks.commanded id pin read
    exact ⟨plain, sent.trans longer⟩

/-- The wrapper reads a line of what is there. -/
theorem Talks.heardLine (talks : Talks controller link voice) {line rest : Bytes}
    (next : link.unread = line ++ 10 :: rest) (single : 10 ∉ line) : Talks controller (link.heard line) voice := by
  refine ⟨talks.complies, ?_, ?_, talks.silent, talks.listing, talks.elsewhere, talks.commanded⟩
  · have left : link.unread.drop (line.length + 1) = rest := by
      rw [next, List.drop_append]
      simp
    have same : lined 10 (link.received ++ [line]) ++ link.unread.drop (line.length + 1) =
        lined 10 link.received ++ link.unread := by
      rw [left, next]
      simp
    show Heard voice (lined 10 (link.received ++ [line]) ++ link.unread.drop (line.length + 1))
    rw [same]
    exact talks.heard
  · intro other member
    rcases List.mem_append.mp member with earlier | last
    · exact talks.clean other earlier
    · exact List.mem_singleton.mp last ▸ single

/-- A worker that looks at the table has not answered before. -/
theorem speak_pending {order : List (RequestId × String)}
    (spoken : speak voice ⟨.pending, (.ok order : Except Unit (List (RequestId × String)))⟩ = some reached) :
    voice = .silent ∧ reached = .telling order [] (listingLines order) := by
  cases voice with
  | silent =>
    cases spoken
    exact ⟨rfl, rfl⟩
  | _ => cases spoken

/-- Writing goes on with what was begun. -/
theorem speak_write {bytes : Bytes} {answer : Control.Answer (.write bytes)}
    (spoken : speak voice ⟨.write bytes, answer⟩ = some reached) :
    reached ≠ .silent ∧ (reached = .elsewhere → voice = .elsewhere) ∧
      ∀ order, reached.order = some order → voice.order = some order := by
  cases voice with
  | silent =>
    simp only [speak] at spoken
    split at spoken
    · cases spoken
      exact ⟨by simp, by simp, by simp [Voice.order]⟩
    · cases spoken
  | telling order told remaining =>
    cases remaining with
    | nil => cases spoken
    | cons line rest =>
      cases (answer : Except IoError Unit) with
      | ok _ | error _ =>
        simp only [speak] at spoken
        split at spoken
        · cases spoken
          exact ⟨by simp, by simp, fun _ => id⟩
        · cases spoken
  | broken order told line error =>
    simp only [speak] at spoken
    split at spoken
    · cases spoken
      exact ⟨by simp, by simp, fun _ => id⟩
    · cases spoken
  | elsewhere =>
    cases spoken
    exact ⟨by simp, fun _ => rfl, fun _ => id⟩
  | reported order told line error => cases spoken
  | refusing bytes => cases spoken

/-- A command is read first. -/
theorem speak_readCommand {answer : Control.Answer .readCommand}
    (spoken : speak voice ⟨.readCommand, answer⟩ = some reached) :
    voice = .silent ∧ reached.order = none ∧
      (reached = .elsewhere → ∃ command, (answer : Except String Command) = .ok command ∧ command ≠ .list) := by
  cases voice with
  | silent =>
    rcases (answer : Except String Command) with message | _ | _ | ⟨id, pin⟩
    · cases spoken
      exact ⟨rfl, rfl, by simp⟩
    · cases spoken
      exact ⟨rfl, rfl, fun _ => ⟨.status, rfl, by simp⟩⟩
    · cases spoken
      exact ⟨rfl, rfl, by simp⟩
    · cases spoken
      exact ⟨rfl, rfl, fun _ => ⟨.authorize id pin, rfl, by simp⟩⟩
  | _ => cases spoken

variable {exchange : PinExchange.State} {source : Source} {environment : Answers Control.Operation Control.Answer}
  {operation : Control.Operation} {next : Control.Answer operation → Control.Action Unit}
  {answer : Control.Answer operation}

/-- A listing shows the table in some order. -/
theorem shows_of_pending {order : Control.Answer .pending}
    (answered : answerTo exchange environment .pending = some order) :
    ∃ listed : List (RequestId × String), order = (.ok listed : Except Unit (List (RequestId × String))) ∧
      listed.Perm (shown exchange.table) := by
  simp only [answerTo] at answered
  split at answered
  · split at answered
    · rename_i listed _ shows
      cases answered
      exact ⟨listed, rfl, shows⟩
    · cases answered
  · cases answered

/-- Only the first command of a connection is read, from what the wrapper has sent. -/
theorem command_of_spelled (spelled : Spelled link) {command : Command} (begins : source.remaining <+: link.sent)
    (accepted : readCommand source = .ok command) :
    (command ≠ .list → ¬ link.sent <+: utf8 "LIST" ++ [10]) ∧
      ∀ id pin, command = .authorize id pin → Plain id ∧ authorization id pin.bytes <+: link.sent := by
  constructor
  · intro other list
    exact other (readCommand_list_cut (begins.trans list) accepted)
  · rintro id pin rfl
    rcases spelled with list | ⟨meant, entered, plain, authorizes⟩
    · exact absurd (readCommand_list_cut (begins.trans list) accepted) (by simp)
    · obtain ⟨same, whole⟩ := readCommand_authorization_cut plain entered (begins.trans authorizes) accepted
      cases same
      exact ⟨plain, whole ▸ begins⟩

/-- The authorization that was read is the one of the exchange. -/
theorem read_of_commandRead {read : Control.Answer .readCommand} {id : RequestId} {pin : Pin}
    (commanded : commandRead ⟨.readCommand, read⟩ = some (id, pin)) :
    (read : Except String Command) = .ok (.authorize id pin) := by
  rcases (read : Except String Command) with message | _ | _ | ⟨named, entered⟩
  · cases commanded
  · cases commanded
  · cases commanded
  · cases commanded
    rfl

/-- Only the exchange that reads a command adds one. -/
theorem commandsRead_quiet (transcript : List (Program.Exchange Control.Operation Control.Answer))
    (answer : Control.Answer operation) (other : operation ≠ .readCommand) :
    commandsRead (transcript ++ [⟨operation, answer⟩]) = commandsRead transcript := by
  have none : commandRead ⟨operation, answer⟩ = none := by
    cases operation with
    | readCommand => exact absurd rfl other
    | _ => rfl
  rw [commandsRead_concat, none]
  exact List.append_nil _

/-- Only the exchange that looks at the table notes what was seen. -/
theorem served_unseen (link : Link) (length : Nat) (answer : Control.Answer operation)
    (other : operation ≠ .pending) : (link.served length exchange ⟨operation, answer⟩).shown = link.shown := by
  have none : Link.looked exchange ⟨operation, answer⟩ = none := by
    cases operation with
    | pending => exact absurd rfl other
    | _ => rfl
  show link.shown.or (Link.looked exchange ⟨operation, answer⟩) = link.shown
  rw [none]
  exact Option.or_none

/-- A worker goes on. -/
theorem Talks.served (talks : Talks controller link voice) (spelled : Spelled link)
    (asks : controller.program = .ask operation next)
    (answered : answerTo exchange (hears source environment) operation = some answer)
    (clean : legible ⟨operation, answer⟩ = true) (heeded : heeds link source ⟨operation, answer⟩) (length : Nat)
    (taker : Option Nat) :
    ∃ reached, Talks ⟨next answer, controller.transcript ++ [⟨operation, answer⟩], taker⟩
      (link.served length exchange ⟨operation, answer⟩) reached := by
  have complies := talks.complies
  rw [asks] at complies
  obtain ⟨reached, spoken, continues⟩ := complies answer
  have heard : Heard reached (lined 10 link.received ++ (link.unread ++ written length ⟨operation, answer⟩)) := by
    rw [← List.append_assoc]
    exact heard_speak length talks.heard clean spoken
  have quiet (other : operation ≠ .readCommand) := commandsRead_quiet controller.transcript answer other
  have unseen (other : operation ≠ .pending) :
      (link.served length exchange ⟨operation, answer⟩).shown = link.shown := served_unseen link length answer other
  refine ⟨reached, ?_⟩
  cases operation with
  | pending =>
    obtain ⟨listed, rfl, shows⟩ := shows_of_pending answered
    obtain ⟨rfl, rfl⟩ := speak_pending spoken
    refine ⟨continues, heard, talks.clean, by simp, ?_, by simp, ?_⟩
    · rintro _ ⟨⟩
      refine ⟨exchange, ?_, shows⟩
      show link.shown.or _ = _
      rw [talks.silent rfl]
      rfl
    · rw [quiet (by simp)]
      exact talks.commanded
  | readCommand =>
    cases answered
    obtain ⟨rfl, orderless, away⟩ := speak_readCommand spoken
    have begins : source.remaining <+: link.sent := List.isPrefixOf_iff_prefix.mp heeded
    refine ⟨continues, heard, talks.clean, fun _ => (unseen (by simp)).trans (talks.silent rfl), ?_, ?_, ?_⟩
    · intro order some
      rw [orderless] at some
      cases some
    · intro left
      obtain ⟨command, accepted, other⟩ := away left
      exact (command_of_spelled spelled begins accepted).1 other
    · intro id pin member
      rw [commandsRead_concat] at member
      rcases List.mem_append.mp member with earlier | last
      · exact talks.commanded id pin earlier
      · have accepted := read_of_commandRead (Option.mem_toList.mp last)
        exact (command_of_spelled spelled begins accepted).2 id pin rfl
  | write bytes =>
    obtain ⟨begun, away, order⟩ := speak_write spoken
    refine ⟨continues, heard, talks.clean, fun silent => absurd silent begun, ?_, ?_, ?_⟩
    · rw [unseen (by simp)]
      exact fun listed same => talks.listing listed (order listed same)
    · exact fun left => talks.elsewhere (away left)
    · rw [quiet (by simp)]
      exact talks.commanded
  | peercred | setReadTimeout | setWriteTimeout | remove | send =>
    cases spoken
    refine ⟨continues, heard, talks.clean, ?_, ?_, talks.elsewhere, ?_⟩
    · rw [unseen (by simp)]
      exact talks.silent
    · rw [unseen (by simp)]
      exact talks.listing
    · rw [quiet (by simp)]
      exact talks.commanded

/-- A wrapper that accepts a listing has read what the worker saw. -/
theorem Talks.told {process : UInt32} (talks : Talks controller link voice)
    (list : link.sent <+: utf8 "LIST" ++ [10])
    (looked : ∀ seen, link.shown = some seen → ∃ now, Snapshot process seen now)
    {requests : List (RequestId × String)} (accepted : decoded link.received = some requests) :
    ∃ seen, link.shown = some seen ∧ requests.Perm (shown seen.table) := by
  apply talks.listing
  apply order_of_decoded talks.heard (fun away => talks.elsewhere away list) ?_ talks.clean
    (List.prefix_append _ _) accepted
  intro order told
  obtain ⟨seen, saw, shows⟩ := talks.listing order told
  obtain ⟨now, snapshot⟩ := looked seen saw
  exact snapshot.readable shows

end

/-! ## All connections -/

/-- A connection that was not accepted yet is quiet, and one that was has its worker. -/
def Attended (controllers : List Controller) (link : Link) : Prop :=
  match link.worker with
  | none => link.received = [] ∧ link.unread = [] ∧ link.shown = none
  | some worker => ∃ controller voice, controllers[worker]? = some controller ∧ Talks controller link voice

/-- Every connection is attended, by a worker of its own. -/
structure Connected (controllers : List Controller) (links : List Link) : Prop where
  attended : ∀ (place : Nat) (link : Link), links[place]? = some link → Attended controllers link
  distinct : ∀ (first second : Nat) (link other : Link) (worker : Nat), links[first]? = some link →
    links[second]? = some other → link.worker = some worker → other.worker = some worker → first = second

section

variable {controllers after : List Controller} {links : List Link} {link old new : Link} {place worker : Nat}

/-- Without links nothing is connected. -/
theorem connected_nil (controllers : List Controller) : Connected controllers [] := by
  constructor <;> simp

/-- A link with a worker talks to it. -/
theorem Attended.talks (attended : Attended controllers link) (here : link.worker = some worker) :
    ∃ controller voice, controllers[worker]? = some controller ∧ Talks controller link voice := by
  unfold Attended at attended
  rw [here] at attended
  exact attended

/-- A link that talks to its worker is attended. -/
theorem attended_of_talks {controller : Controller} {voice : Voice} (here : link.worker = some worker)
    (found : controllers[worker]? = some controller) (talks : Talks controller link voice) :
    Attended controllers link := by
  unfold Attended
  rw [here]
  exact ⟨controller, voice, found, talks⟩

/-- On a link without a worker nothing has come. -/
theorem Attended.quiet (attended : Attended controllers link) (waits : link.worker = none) :
    link.received = [] ∧ link.unread = [] ∧ link.shown = none := by
  unfold Attended at attended
  rw [waits] at attended
  exact attended

/-- The worker of a link is one of the connections. -/
theorem Attended.inside (attended : Attended controllers link) (here : link.worker = some worker) :
    worker < controllers.length := by
  obtain ⟨_, _, found, _⟩ := attended.talks here
  exact (List.getElem?_eq_some_iff.mp found).1

/-- A connection notices its own worker only. -/
theorem Attended.framed (attended : Attended controllers link)
    (frame : ∀ worker, link.worker = some worker → after[worker]? = controllers[worker]?) : Attended after link := by
  cases here : link.worker with
  | none =>
    have quiet := attended.quiet here
    unfold Attended
    rw [here]
    exact quiet
  | some worker =>
    obtain ⟨controller, voice, found, talks⟩ := attended.talks here
    exact attended_of_talks here ((frame worker here).trans found) talks

/-- The wrapper sends more on a connection. -/
theorem Attended.wrote (attended : Attended controllers link) (bytes : Bytes) :
    Attended controllers (link.wrote bytes) := by
  cases here : link.worker with
  | none =>
    have quiet := attended.quiet here
    have waits : (link.wrote bytes).worker = none := here
    unfold Attended
    rw [waits]
    exact quiet
  | some worker =>
    obtain ⟨controller, voice, found, talks⟩ := attended.talks here
    have stays : (link.wrote bytes).worker = some worker := here
    exact attended_of_talks stays found (talks.wrote bytes)

/-- The wrapper reads a line, which a worker must have written. -/
theorem Attended.heard (attended : Attended controllers link) {line rest : Bytes}
    (next : link.unread = line ++ 10 :: rest) (single : 10 ∉ line) : Attended controllers (link.heard line) := by
  cases here : link.worker with
  | none =>
    obtain ⟨_, nothing, _⟩ := attended.quiet here
    rw [nothing] at next
    simp at next
  | some worker =>
    obtain ⟨controller, voice, found, talks⟩ := attended.talks here
    have stays : (link.heard line).worker = some worker := here
    exact attended_of_talks stays found (talks.heardLine next single)

/-- The workers behind the connections do nothing. -/
theorem Connected.framed (connected : Connected controllers links)
    (frame : ∀ (place : Nat) (link : Link) (worker : Nat), links[place]? = some link → link.worker = some worker →
      after[worker]? = controllers[worker]?) : Connected after links := by
  refine ⟨fun place link found => ?_, connected.distinct⟩
  exact (connected.attended place link found).framed fun worker here => frame place link worker found here

/-- One connection changes. -/
theorem Connected.change (connected : Connected controllers links) (found : links[place]? = some old)
    (attended : Attended after new)
    (frame : ∀ (other : Nat) (link : Link) (worker : Nat), other ≠ place → links[other]? = some link →
      link.worker = some worker → after[worker]? = controllers[worker]?)
    (own : ∀ (other : Nat) (link : Link) (worker : Nat), other ≠ place → links[other]? = some link →
      link.worker = some worker → new.worker ≠ some worker) : Connected after (links.set place new) := by
  have at_place (other : Nat) : (links.set place new)[other]? =
      if place = other then some new else links[other]? := getElem?_set_found found new other
  constructor
  · intro other link present
    rw [at_place] at present
    split at present
    · cases present
      exact attended
    · rename_i elsewhere
      refine (connected.attended other link present).framed fun worker here => ?_
      exact frame other link worker (Ne.symm elsewhere) present here
  · intro first second link other worker at_first at_second firstHere secondHere
    rw [at_place] at at_first at_second
    split at at_first
    · rename_i here
      subst here
      cases at_first
      split at at_second
      · assumption
      · rename_i elsewhere
        exact absurd firstHere (own second other worker (Ne.symm elsewhere) at_second secondHere)
    · rename_i elsewhere
      split at at_second
      · rename_i here
        subst here
        cases at_second
        exact absurd secondHere (own first link worker (Ne.symm elsewhere) at_first firstHere)
      · exact connected.distinct first second link other worker at_first at_second firstHere secondHere

/-- A connection changes and keeps its worker, which does nothing. -/
theorem Connected.set (connected : Connected controllers links) (found : links[place]? = some old)
    (attended : Attended controllers new) (same : new.worker = old.worker) :
    Connected controllers (links.set place new) := by
  refine connected.change found attended (fun _ _ _ _ _ _ => rfl) ?_
  intro other link worker different present here taken
  exact different (connected.distinct other place link old worker present found here (same ▸ taken))

/-- A new connection waits. -/
theorem Connected.concat (connected : Connected controllers links) : Connected controllers (links ++ [.waiting]) := by
  constructor
  · intro place link found
    rcases getElem?_concat found with earlier | ⟨_, rfl⟩
    · exact connected.attended place link earlier
    · exact ⟨rfl, rfl, rfl⟩
  · intro first second link other worker at_first at_second firstHere secondHere
    rcases getElem?_concat at_first with first_earlier | ⟨_, rfl⟩
    · rcases getElem?_concat at_second with second_earlier | ⟨_, rfl⟩
      · exact connected.distinct first second link other worker first_earlier second_earlier firstHere secondHere
      · cases secondHere
    · cases firstHere

end

section

variable {settings : Runtime.Settings} {process : UInt32} {state next : Agent.State} {action : Agent.Action}
  {links : List Link} {link : Link} {place worker : Nat}

/-- A worker's record is changed by its own steps only. -/
theorem states_other (taken : Agent.step settings process state action = some next)
    (inside : worker < state.controllers.states.length) (other : ∀ environment, action ≠ .control worker environment) :
    next.controllers.states[worker]? = state.controllers.states[worker]? := by
  cases takes_of_step settings process taken with
  | controller stepped =>
    rcases Limiter.Server.states_step _ _ stepped with same | longer
    · exact congrArg (·[worker]?) same
    · exact (congrArg (·[worker]?) longer).trans (List.getElem?_append_left inside)
  | @control index controller environment =>
    have different : index ≠ worker := fun here => other environment (here ▸ rfl)
    show (state.controllers.update index _).states[worker]? = _
    rw [Limiter.Server.states_update, List.getElem?_set_ne different]
  | _ => rfl

/-- An accepted connection gets a worker of its own. -/
theorem states_spawn (taken : Agent.step settings process state (.controller (.spawn true)) = some next) :
    next.controllers.states = state.controllers.states ++ [connected] := by
  cases takes_of_step settings process taken with
  | controller stepped =>
    simp only [Limiter.Server.step, ↓reduceIte] at stepped
    split at stepped
    · cases stepped
      simp [Limiter.Server.states]
    · cases stepped

/-- A worker's own step. -/
theorem states_control {controller : Controller} {environment : Answers Control.Operation Control.Answer}
    {exchanged : Program.Exchange Control.Operation Control.Answer} {rest : Control.Action Unit}
    (runs : state.controllers.running worker = some controller)
    (continues : controller.next state.exchange environment = some (exchanged, rest))
    (taken : Agent.step settings process state (.control worker environment) = some next) :
    next.controllers.states = state.controllers.states.set worker ⟨rest, controller.transcript ++ [exchanged],
      takerAfter state.exchange controller.taker exchanged⟩ := by
  obtain ⟨middle, owned, taken⟩ := Option.bind_eq_some_iff.mp taken
  obtain ⟨exchange, _, taken⟩ := Option.bind_eq_some_iff.mp taken
  cases taken
  simp only [own, runs, continues, Option.bind_eq_bind, Option.bind_some] at owned
  cases owned
  exact Limiter.Server.states_update _ _ _

/-- The agent's other steps leave the wrapper's connections alone. -/
theorem Connected.foreign (good : Connected state.controllers.states links) (aside : foreign links action)
    (taken : Agent.step settings process state action = some next) : Connected next.controllers.states links := by
  apply good.framed
  intro place link worker found here
  apply states_other taken ((good.attended place link found).inside here)
  rintro environment rfl
  have away := List.all_eq_true.mp aside link (List.mem_of_getElem? found)
  exact absurd here (of_decide_eq_true away)

/-- A connection of the wrapper is accepted. -/
theorem Connected.accept (good : Connected state.controllers.states links) (found : links[place]? = some link)
    (waits : link.worker = none)
    (taken : Agent.step settings process state (.controller (.spawn true)) = some next) :
    Connected next.controllers.states (links.set place (link.accepted state.controllers.states.length)) := by
  have longer := states_spawn taken
  rw [longer]
  refine good.change found ?_ ?_ ?_
  · have here : (link.accepted state.controllers.states.length).worker = some state.controllers.states.length := rfl
    refine attended_of_talks here ?_ (talks_accepted ((good.attended place link found).quiet waits) _)
    exact List.getElem?_concat_length
  · intro other link worker _ present here
    exact List.getElem?_append_left ((good.attended other link present).inside here)
  · intro other link worker _ present here same
    have inside := (good.attended other link present).inside here
    have fresh : state.controllers.states.length = worker := Option.some.inj same
    omega

/-- A worker of the wrapper goes on. -/
theorem Connected.serve {controller : Controller} {source : Source}
    {environment : Answers Control.Operation Control.Answer}
    {exchanged : Program.Exchange Control.Operation Control.Answer} {rest : Control.Action Unit}
    (good : Connected state.controllers.states links) (found : links[place]? = some link)
    (here : link.worker = some worker) (runs : state.controllers.running worker = some controller)
    (continues : controller.next state.exchange (hears source environment) = some (exchanged, rest))
    (taken : Agent.step settings process state (.control worker (hears source environment)) = some next)
    (clean : legible exchanged = true) (heeded : heeds link source exchanged) (spelled : Spelled link) (length : Nat) :
    Connected next.controllers.states (links.set place (link.served length state.exchange exchanged)) := by
  have present := Limiter.Server.states_of_running runs
  obtain ⟨same, voice, again, talks⟩ := (good.attended place link found).talks here
  rw [present] at again
  cases again
  rw [states_control runs continues taken]
  unfold Controller.next at continues
  split at continues
  · cases continues
  rename_i operation next asks
  obtain ⟨answer, answered, ended⟩ := Option.map_eq_some_iff.mp continues
  cases ended
  obtain ⟨reached, further⟩ := talks.served spelled asks answered clean heeded length
    (takerAfter state.exchange controller.taker ⟨operation, answer⟩)
  have stays : (link.served length state.exchange ⟨operation, answer⟩).worker = some worker := here
  refine good.change found (attended_of_talks stays ?_ further) ?_ ?_
  · rw [getElem?_set_found present, if_pos rfl]
  · intro other link another different at_other alsoHere
    rw [getElem?_set_found present, if_neg]
    rintro rfl
    exact different (good.distinct other place link _ worker at_other found alsoHere here)
  · intro other link another different at_other alsoHere same
    have equal : worker = another := Option.some.inj (stays.symm.trans same)
    subst equal
    exact different (good.distinct other place link _ worker at_other found alsoHere here)

end

end Keyvisor.Links
