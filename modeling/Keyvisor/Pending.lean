import Keyvisor.Authorization

/-!
# The pending table

The bound on the table of pending authorizations is enforced nowhere. It follows
from the lifetime of permits: an entry belongs to a call of `request_pin`, the call
to a request that is not finished, and that request to a client's thread which
holds a permit. The command-line tool's limit on a listing is the same number, so
it refuses no listing of the agent.
-/

namespace Keyvisor.Pending

open Foundation Foundation.Text Control PinExchange Limiter Agent Authorization

section

variable {process : UInt32} {state : Agent.State}

/-- The thread on whose behalf an entry stands in the table. -/
def Behind (state : Agent.State) (entry : (_ : RequestId) × PendingAuthorization) (client : Nat) : Prop :=
  ∃ (index : Nat) (request : Request), state.clients.running client = some (some index) ∧
    state.requests[index]? = some request ∧ request.call = some entry.2.sender

/-- A call that has not returned belongs to a request that its client still serves. -/
theorem serving_of_call (requests : Requests state.clients state.exchange.calls state.requests) {index : Nat}
    {call : Call} (found : state.exchange.calls[index]? = some call)
    (waiting : ∀ result, call.stage ≠ .returned result) :
    ∃ (place : Nat) (request : Request), state.clients.running request.client = some (some place) ∧
      state.requests[place]? = some request ∧ request.call = some index := by
  obtain ⟨place, request, present, called⟩ := requests.owned.held index (PinExchange.index_lt found)
  have stands := requests.placed place request present
  simp only [Placed, called] at stands
  obtain ⟨keyName, stage, seen, within⟩ := stands
  rw [view_eq_some found] at seen
  cases seen
  obtain ⟨_, next, asks⟩ := (inCall_waiting waiting).mp within
  have unfinished : request.program.finished = false := by
    rw [asks]
    rfl
  exact ⟨place, request, requests.serving place request present unfinished, present, called⟩

/-- A registered call has not returned. -/
theorem not_returned_of_registered {stage : Stage} (registered : stage.registered) (result : Except String Bytes) :
    stage ≠ .returned result := by
  rintro rfl
  cases registered

/-- Every entry has a running client behind it. -/
theorem behind_of_mem (orderly : Orderly process state) (sound : Sound process state.exchange)
    (entry : (_ : RequestId) × PendingAuthorization) (member : entry ∈ state.exchange.table.entries) :
    ∃ client, Behind state entry client := by
  obtain ⟨call, found, _, _, registered, _⟩ := sound.listed entry.1 entry.2 (AList.mem_lookup_iff.mpr member)
  obtain ⟨place, request, serves, present, called⟩ :=
    serving_of_call orderly.requests found (not_returned_of_registered registered)
  exact ⟨request.client, place, request, serves, present, called⟩

/-- A client is behind one entry at most. -/
theorem behind_injective (sound : Sound process state.exchange)
    {first second : (_ : RequestId) × PendingAuthorization} (at_first : first ∈ state.exchange.table.entries)
    (at_second : second ∈ state.exchange.table.entries) {client : Nat} (behindFirst : Behind state first client)
    (behindSecond : Behind state second client) : first = second := by
  obtain ⟨index, request, serves, present, called⟩ := behindFirst
  obtain ⟨other, another, alsoServes, alsoPresent, alsoCalled⟩ := behindSecond
  rw [serves] at alsoServes
  cases alsoServes
  rw [present] at alsoPresent
  cases alsoPresent
  have sender : first.2.sender = second.2.sender := Option.some.inj (called.symm.trans alsoCalled)
  have firstListed := AList.mem_lookup_iff.mpr at_first
  have secondListed := AList.mem_lookup_iff.mpr at_second
  obtain ⟨_, _, firstNamed, _⟩ := sound.listed first.1 first.2 firstListed
  obtain ⟨_, _, secondNamed, _⟩ := sound.listed second.1 second.2 secondListed
  have id : first.1 = second.1 := by rw [firstNamed, secondNamed, sender]
  rw [id, secondListed] at firstListed
  exact Sigma.ext id (heq_of_eq (Option.some.inj firstListed).symm)

/-- The table never holds more entries than there may be clients. -/
theorem table_le (orderly : Orderly process state) (few : state.exchange.calls.length < 2 ^ 64) :
    state.exchange.table.entries.length ≤ maxConnections := by
  have sound := orderly.sound few
  choose! client behind using behind_of_mem orderly sound
  let clients := state.exchange.table.entries.map client
  have distinct : clients.Nodup := by
    refine List.Nodup.map_on ?_ state.exchange.table.nodupKeys.nodup
    intro first at_first second at_second same
    exact behind_injective sound at_first at_second (behind first at_first) (same ▸ behind second at_second)
  have running : ∀ worker ∈ clients, (state.clients.running worker).isSome := by
    intro worker member
    obtain ⟨entry, listed, rfl⟩ := List.mem_map.mp member
    obtain ⟨index, _, serves, _⟩ := behind entry listed
    rw [serves]
    rfl
  have permitted := orderly.permitted.clients
  calc state.exchange.table.entries.length = clients.length := (List.length_map _).symm
    _ ≤ state.clients.permits := Server.length_le_permits distinct running
    _ = state.clients.active := permitted.counted.symm
    _ ≤ maxConnections := permitted.bounded

/-- The keys of the table are the identifiers of the calls that have inserted, have
not removed and were not taken. -/
theorem mem_table_iff (sound : Sound process state.exchange) (id : RequestId) :
    id ∈ state.exchange.table ↔ ∃ (index : Nat) (call : Call), state.exchange.calls[index]? = some call ∧
      id = number process index ∧ call.stage.registered ∧ ∀ taker, ¬ Took state.exchange taker index := by
  rw [← AList.lookup_isSome]
  constructor
  · intro present
    obtain ⟨entry, listed⟩ := Option.isSome_iff_exists.mp present
    obtain ⟨call, found, named, _, registered, untaken⟩ := sound.listed id entry listed
    exact ⟨entry.sender, call, found, named, registered, untaken⟩
  · rintro ⟨index, call, found, rfl, registered, untaken⟩
    rcases sound.kept index call found registered with listed | ⟨taker, took⟩
    · rw [listed]
      rfl
    · exact absurd took (untaken taker)

end

/-! ## Listings -/

/-- The listings that a connection was shown. -/
def Bounded (controller : Controller) : Prop :=
  ∀ order : List (RequestId × String),
    ⟨.pending, (.ok order : Except Unit (List (RequestId × String)))⟩ ∈ controller.transcript →
      order.length ≤ maxConnections

section

variable {settings : Runtime.Settings} {process : UInt32} {state next : Agent.State} {action : Agent.Action}

/-- A listing shows the table as it is. -/
theorem length_listing {exchange : PinExchange.State} {environment : Answers Control.Operation Control.Answer}
    {order : List (RequestId × String)}
    (answered : answerTo exchange environment .pending = some (.ok order : Except Unit (List (RequestId × String)))) :
    order.length = exchange.table.entries.length := by
  simp only [answerTo] at answered
  split at answered
  · split at answered
    · rename_i shows
      cases answered
      rw [shows.length_eq, shown, List.length_map]
    · cases answered
  · cases answered

/-- Every step keeps the bound on listings. -/
theorem bounded_step (orderly : Orderly process state) (few : state.exchange.calls.length < 2 ^ 64)
    (bounded : ∀ controller ∈ state.controllers.states, Bounded controller)
    (taken : Agent.step settings process state action = some next) :
    ∀ controller ∈ next.controllers.states, Bounded controller := by
  cases takes_of_step settings process taken with
  | client | receive | respond | disconnect | perform | begin | wait | finish => exact bounded
  | controller stepped =>
    rcases Server.states_step _ _ stepped with same | longer
    · exact same ▸ bounded
    · intro controller member
      have listed : controller ∈ state.controllers.states ++ [connected] := longer ▸ member
      rcases List.mem_append.mp listed with earlier | last
      · exact bounded controller earlier
      · cases List.mem_singleton.mp last
        exact nofun
  | @control index controller environment operation next answer exchange runs asks answered moved =>
    intro other member
    have listed : other ∈ state.controllers.states.set index _ := Server.states_update _ _ _ ▸ member
    rcases List.mem_or_eq_of_mem_set listed with earlier | rfl
    · exact bounded other earlier
    · intro order seen
      rcases List.mem_append.mp seen with before | now
      · exact bounded controller (List.mem_of_getElem? (Server.states_of_running runs)) order before
      · cases List.mem_singleton.mp now
        rw [length_listing answered]
        exact table_le orderly few

/-- Every listing of every run is within the bound. -/
theorem bounded_of_run {actions : List Agent.Action}
    (reached : Transition.run (Agent.step settings process) Agent.initial actions = some state)
    (few : state.exchange.calls.length < 2 ^ 64) :
    ∀ controller ∈ state.controllers.states, Bounded controller := by
  let invariant (state : Agent.State) : Prop := Orderly process state ∧
    (state.exchange.calls.length < 2 ^ 64 → ∀ controller ∈ state.controllers.states, Bounded controller)
  have holds : invariant state := by
    refine Transition.invariant_run ?_ ⟨orderly_initial, fun _ => nofun⟩ reached
    intro before action after ⟨orderly, bounded⟩ taken
    refine ⟨orderly.step taken, fun fewAfter => ?_⟩
    have fewBefore := Nat.lt_of_le_of_lt (calls_step taken) fewAfter
    exact bounded_step orderly fewBefore (bounded fewBefore) taken
  exact holds.2 few

/-- A connection that is about to send a value can do so at once. -/
theorem send_enabled (orderly : Orderly process state) (sound : Sound process state.exchange) {index : Nat}
    {controller : Controller} (runs : state.controllers.running index = some controller) {sender : Nat} {pin : Pin}
    {next : Control.Answer (.send sender pin) → Control.Action Unit}
    (asks : controller.program = .ask (.send sender pin) next)
    (environment : Answers Control.Operation Control.Answer) :
    (Agent.step settings process state (.control index environment)).isSome := by
  obtain ⟨phase, _, complies, about⟩ :=
    orderly.connections.linked index controller (Server.states_of_running runs)
  rw [asks] at complies
  obtain ⟨reached, advanced, _⟩ := complies (.ok () : Except Unit Unit)
  cases phase with
  | holding id held target =>
    obtain ⟨taker, found, taken, present, rfl⟩ := about.command rfl
    obtain ⟨after, sends⟩ := Option.isSome_iff_exists.mp (sound.send_enabled present)
    simp [Agent.step, own, exchanged, touches, runs, Controller.next, asks, answerTo, effect, taken, sends]
  | _ => simp [Control.advance] at advanced

end

/-! ## The invariant -/

/-- A server's counter is the number of its live permits, within the limit, and is
positive whenever one of them is dropped. -/
structure Counted {α : Type} (server : Server α) : Prop where
  counted : server.active = server.permits
  bounded : server.active ≤ 16
  unsaturated : (server.listener = .spawning ∨ ∃ worker, (server.running worker).isSome) → 0 < server.active

/-- A server that accounts for its permits counts its workers. -/
theorem counted_of_accounted {α : Type} {server : Server α} (accounted : server.Accounted) : Counted server :=
  ⟨accounted.counted, accounted.bounded, accounted.active_pos⟩

/-- What a reachable state guarantees of the table, the permits, the listings and the
channels. -/
structure Guarded (settings : Runtime.Settings) (process : UInt32) (state : Agent.State) : Prop where
  keys : ∀ id : RequestId, id ∈ state.exchange.table ↔
    ∃ (index : Nat) (call : Call), state.exchange.calls[index]? = some call ∧
      id = number process index ∧ call.stage.registered ∧ ∀ taker, ¬ Took state.exchange taker index
  clients : Counted state.clients
  controllers : Counted state.controllers
  table : state.exchange.table.entries.length ≤ 16
  listings : ∀ controller ∈ state.controllers.states, ∀ order : List (RequestId × String),
    ⟨.pending, (.ok order : Except Unit (List (RequestId × String)))⟩ ∈ controller.transcript →
      ∃ header lines : Bytes, listing order = header ++ 10 :: lines ∧ 10 ∉ header ∧
        ControlClient.parseHeader header = .ok order.length
  channels : ∀ call ∈ state.exchange.calls, call.queue.length ≤ 1
  sends : ∀ (index : Nat) (controller : Controller) (sender : Nat) (pin : Pin)
    (next : Control.Answer (.send sender pin) → Control.Action Unit),
    state.controllers.running index = some controller → controller.program = .ask (.send sender pin) next →
      ∀ environment, (Agent.step settings process state (.control index environment)).isSome
  receivers : ∀ (index : Nat) (call : Call), state.exchange.calls[index]? = some call → call.stage = .polling →
    tryRecv state.exchange index call ≠ .disconnected

/-- A listing within the bound has a header that the tool accepts. -/
theorem header_accepted {order : List (RequestId × String)} (few : order.length ≤ maxConnections) :
    ∃ header lines : Bytes, listing order = header ++ 10 :: lines ∧ 10 ∉ header ∧
      ControlClient.parseHeader header = .ok order.length := by
  refine ⟨utf8 "OK KEYVISOR-PENDING-1 " ++ decimal order.length,
    order.flatMap fun request => requestLine request ++ [10], ?_, ?_, ControlClient.parseHeader_listing few⟩
  · simp [listing]
  · have word : 10 ∉ utf8 "OK KEYVISOR-PENDING-1 " := by decide
    intro newline
    rcases List.mem_append.mp newline with first | digit
    · exact word first
    · exact absurd (decimal_digit digit).1 (by decide)

/-- In every state that any interleaving of connections, requests and commands can
reach, as long as there were fewer than 2^64 requests, the table holds exactly the
registered calls that no command has taken, at most sixteen of them; both limiters
count their permits; the tool accepts the header of every listing; a channel holds
at most one value, so no send waits; and no call ever finds its channel cut. -/
theorem pending_table_invariant (settings : Runtime.Settings) (process : UInt32) (actions : List Agent.Action)
    (state : Agent.State)
    (reached : Transition.run (Agent.step settings process) Agent.initial actions = some state)
    (few : state.exchange.calls.length < 2 ^ 64) : Guarded settings process state := by
  have orderly := orderly_of_run reached
  have sound := orderly.sound few
  refine ⟨mem_table_iff sound, ?_, ?_, table_le orderly few, ?_, ?_, ?_, ?_⟩
  · exact counted_of_accounted orderly.permitted.clients
  · exact counted_of_accounted orderly.permitted.controllers
  · intro controller member order seen
    exact header_accepted (bounded_of_run reached few controller member order seen)
  · intro call member
    obtain ⟨index, found⟩ := List.mem_iff_getElem?.mp member
    exact sound.queue_le found
  · intro index controller sender pin next runs asks environment
    exact send_enabled orderly sound runs asks environment
  · intro index call found polling
    exact sound.connected found polling

/-- A state in which one request waits for its PIN. -/
theorem pending_table_sample : ∃ state,
    Transition.run (Agent.step Sample.settings 1) Agent.initial Sample.asked = some state ∧
      state.exchange.calls.length = 1 ∧ Guarded Sample.settings 1 state := by
  have counted : (Transition.run (Agent.step Sample.settings 1) Agent.initial Sample.asked).map
      (fun state => state.exchange.calls.length) = some 1 := rfl
  obtain ⟨state, reached, one⟩ := Option.map_eq_some_iff.mp counted
  exact ⟨state, reached, one, pending_table_invariant _ _ _ state reached (by rw [one]; decide)⟩

end Keyvisor.Pending
