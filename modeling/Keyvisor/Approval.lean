import Keyvisor.Authorization

/-!
# Approvals and signatures

A PIN reaches the signing command of the request that the authorization named and
of no other: the sender of a call leaves the table with exactly one command, the
call returns what that command sent, and the request signs with what its call
returned. A confirmation, on the other hand, is sent when the value is in the
channel, and the call may still give up before it looks there.
-/

namespace Keyvisor.Approval

open Foundation Foundation.Text Control PinExchange Limiter Agent Authorization RecordCodec

/-! ## Signing commands -/

/-- The signing commands that a request has issued, one that is still being executed
included. -/
def issued (request : Request) : List (StoredKey × TpmAuthorization) :=
  Runtime.signCalls request.transcript ++
    match request.program with
    | .ask operation _ => (Runtime.signCall operation).toList
    | .done _ => []

/-- Signing commands by the PINs that were answered before them. -/
inductive Signs (phase : Runtime.Phase) (pins : List (Except String Bytes)) :
    List (StoredKey × TpmAuthorization) → Prop where
  | nothing : Signs phase pins []
  | free {key : StoredKey} (chosen : phase.key = some key) (policy : key.summary.usePolicy = .noPin)
      (unasked : pins = []) : Signs phase pins [(key, .none)]
  | pinned {key : StoredKey} {pin : Bytes} (chosen : phase.key = some key)
      (policy : key.summary.usePolicy = .tpmPin) (answered : pins = [.ok pin]) : Signs phase pins [(key, .pin pin)]

/-- The tally of a phase leaves at most one signing command, authorized by the PIN that was
returned. -/
theorem signs_of_tally {phase : Runtime.Phase} {pins : List (Except String Bytes)}
    {signs : List (StoredKey × TpmAuthorization)} (tally : Runtime.Tally phase pins signs) :
    Signs phase pins signs := by
  cases phase with
  | fresh | idle | chosen =>
    obtain ⟨_, rfl⟩ := tally
    exact .nothing
  | pinned | refused =>
    obtain ⟨_, _, rfl⟩ := tally
    exact .nothing
  | signed key =>
    rcases tally with ⟨policy, unasked, rfl⟩ | ⟨policy, pin, answered, rfl⟩
    · exact .free rfl policy unasked
    · exact .pinned rfl policy answered

/-- A PIN is answered only for a record with a PIN policy. -/
theorem policy_of_tally {phase : Runtime.Phase} {pins : List (Except String Bytes)}
    {signs : List (StoredKey × TpmAuthorization)} (tally : Runtime.Tally phase pins signs) (answered : pins ≠ []) :
    ∃ key, phase.key = some key ∧ key.summary.usePolicy = .tpmPin := by
  cases phase with
  | fresh | idle | chosen => exact absurd tally.1 answered
  | pinned key | refused key => exact ⟨key, rfl, tally.1⟩
  | signed key =>
    rcases tally with ⟨_, unasked, _⟩ | ⟨policy, _⟩
    · exact absurd unasked answered
    · exact ⟨key, rfl, policy⟩

section

variable {request : Request}

/-- The accounts of a request with the signing command that is being executed. -/
theorem accounts_of_proper (proper : Proper request) : ∃ phase transcript,
    Runtime.Accounts request.packet phase transcript ∧ Runtime.signCalls transcript = issued request ∧
      Runtime.pinAnswers transcript = Runtime.pinAnswers request.transcript ∧
      ∀ exchange ∈ request.transcript, exchange ∈ transcript := by
  obtain ⟨phase, accepted, complies⟩ := proper
  have same (silent : (match request.program with
      | .ask operation _ => (Runtime.signCall operation).toList
      | .done _ => []) = []) : ∃ phase transcript,
      Runtime.Accounts request.packet phase transcript ∧ Runtime.signCalls transcript = issued request ∧
        Runtime.pinAnswers transcript = Runtime.pinAnswers request.transcript ∧
        ∀ exchange ∈ request.transcript, exchange ∈ transcript := by
    refine ⟨phase, request.transcript, Runtime.accounts_of_accepts accepted, ?_, rfl, fun _ member => member⟩
    rw [issued, silent, List.append_nil]
  cases program : request.program with
  | done value => exact same (by rw [program])
  | ask operation next =>
    cases operation with
    | sign key digest authorization =>
      rw [program] at complies
      obtain ⟨reached, advanced, _⟩ := complies (.error .transport : Except TpmError Bytes)
      refine ⟨reached, _, Runtime.accounts_of_accepts (Program.accepts_concat accepted advanced), ?_, ?_, ?_⟩
      · rw [Runtime.signCalls_concat, issued, program]
      · rw [Runtime.pinAnswers_concat]
        exact List.append_nil _
      · exact fun _ member => List.mem_append_left _ member
    | _ => exact same (by rw [program]; rfl)

/-- What a request has issued, by what its call was answered. -/
theorem signs_of_proper (proper : Proper request) :
    ∃ phase, Signs phase (Runtime.pinAnswers request.transcript) (issued request) ∧
      ∀ keys : List StoredKey, ⟨.listKeys, (.ok keys : Except StoreError (List StoredKey))⟩ ∈ request.transcript →
        Runtime.selected request.packet keys = phase.key := by
  obtain ⟨phase, transcript, accounts, signs, pins, inside⟩ := accounts_of_proper proper
  refine ⟨phase, ?_, fun keys member => (accounts.listed keys (inside _ member)).2⟩
  rw [← signs, ← pins]
  exact signs_of_tally accounts.tally

/-- A request that waits for a PIN has chosen a record with a PIN policy. -/
theorem chosen_of_asking (proper : Proper request) {keyName : String}
    {next : Except String Bytes → Runtime.Action (Except String Bytes)}
    (asks : request.program = .ask (.requestPin keyName) next) :
    ∃ key, Program.accepts (Runtime.advance request.packet) .fresh request.transcript = some (.chosen key) ∧
      key.summary.usePolicy = .tpmPin := by
  obtain ⟨phase, accepted, complies⟩ := proper
  rw [asks] at complies
  obtain ⟨reached, advanced, _⟩ := complies (.error "" : Except String Bytes)
  cases phase with
  | chosen key =>
    simp only [Runtime.advance] at advanced
    split at advanced
    · rename_i policy
      exact ⟨key, accepted, policy.1⟩
    · cases advanced
  | _ => simp [Runtime.advance] at advanced

/-- A request that waits for a PIN has issued nothing. -/
theorem issued_of_asking (proper : Proper request) {keyName : String}
    {next : Except String Bytes → Runtime.Action (Except String Bytes)}
    (asks : request.program = .ask (.requestPin keyName) next) : issued request = [] := by
  obtain ⟨key, accepted, _⟩ := chosen_of_asking proper asks
  obtain ⟨_, noSigns⟩ := (Runtime.accounts_of_accepts accepted).tally
  rw [issued, noSigns, asks]
  rfl

/-- A request with a call is for a record with a PIN policy. -/
theorem policy_of_called {calls : List Call} (proper : Proper request) (placed : Placed calls request) {call : Nat}
    (called : request.call = some call) {keys : List StoredKey}
    (listed : ⟨.listKeys, (.ok keys : Except StoreError (List StoredKey))⟩ ∈ request.transcript) :
    ∃ key, Runtime.selected request.packet keys = some key ∧ key.summary.usePolicy = .tpmPin := by
  simp only [Placed, called] at placed
  obtain ⟨keyName, stage, _, within⟩ := placed
  by_cases waiting : ∀ result, stage ≠ .returned result
  · obtain ⟨_, next, asks⟩ := (inCall_waiting waiting).mp within
    obtain ⟨key, accepted, policy⟩ := chosen_of_asking proper asks
    exact ⟨key, ((Runtime.accounts_of_accepts accepted).listed keys listed).2, policy⟩
  · obtain ⟨result, rfl⟩ : ∃ result, stage = .returned result := by
      simpa using waiting
    obtain ⟨phase, accepted, _⟩ := proper
    have accounts := Runtime.accounts_of_accepts accepted
    have answered : Runtime.pinAnswers request.transcript ≠ [] := by
      rw [show Runtime.pinAnswers request.transcript = [result] from within]
      exact List.cons_ne_nil _ _
    obtain ⟨key, chosen, policy⟩ := policy_of_tally accounts.tally answered
    exact ⟨key, (accounts.listed keys listed).2.trans chosen, policy⟩

/-- A request that signs without a PIN has called nothing. -/
theorem uncalled_of_free {calls : List Call} (proper : Proper request) (placed : Placed calls request)
    (unasked : Runtime.pinAnswers request.transcript = []) (signs : issued request ≠ []) : request.call = none := by
  cases called : request.call with
  | none => rfl
  | some call =>
    simp only [Placed, called] at placed
    obtain ⟨keyName, stage, _, within⟩ := placed
    by_cases waiting : ∀ result, stage ≠ .returned result
    · obtain ⟨_, next, asks⟩ := (inCall_waiting waiting).mp within
      exact absurd (issued_of_asking proper asks) signs
    · obtain ⟨result, rfl⟩ : ∃ result, stage = .returned result := by
        simpa using waiting
      rw [show Runtime.pinAnswers request.transcript = [result] from within] at unasked
      cases unasked

/-- A request that was answered a PIN has a call that returned it. -/
theorem returned_of_answered {calls : List Call} (placed : Placed calls request) {result : Except String Bytes}
    (answered : Runtime.pinAnswers request.transcript = [result]) :
    ∃ index call, request.call = some index ∧ calls[index]? = some call ∧ call.stage = .returned result := by
  unfold Placed at placed
  cases called : request.call with
  | none =>
    simp only [called] at placed
    rw [placed] at answered
    cases answered
  | some index =>
    simp only [called] at placed
    obtain ⟨keyName, stage, seen, within⟩ := placed
    obtain ⟨call, found, pair⟩ := Option.map_eq_some_iff.mp seen
    cases pair
    refine ⟨index, call, rfl, found, ?_⟩
    cases stage : call.stage with
    | returned other =>
      rw [stage] at within
      have same : [other] = [result] := within.symm.trans answered
      cases same
      rfl
    | _ =>
      rw [stage] at within
      rw [within.1] at answered
      cases answered

end

/-! ## Commands that were served -/

section

variable {takers : List Taker} {controller : Controller}

/-- A connection whose command was delivered has read it and sent its value. -/
theorem sent_of_delivered (linked : Linked takers controller) {index : Nat} {taker : Taker} {call : Nat}
    (taken : controller.taker = some index) (found : takers[index]? = some taker)
    (delivered : taker.grant = .delivered call) :
    commandsRead controller.transcript = [(taker.id, taker.pin)] ∧
      valuesSent controller.transcript = [(call, taker.pin)] := by
  obtain ⟨phase, accepted, _, about⟩ := linked
  have accounts := Control.accounts_of_accepts accepted
  rw [taken] at about
  obtain ⟨other, present, corresponds⟩ := about
  rw [found] at present
  cases present
  rw [accounts.commanded, accounts.sent]
  cases phase with
  | delivered | confirmed =>
    subst corresponds
    cases delivered
    exact ⟨rfl, rfl⟩
  | commanded | holding =>
    subst corresponds
    cases delivered
  | failed | reported =>
    rcases corresponds with rfl | ⟨_, rfl⟩ <;> cases delivered
  | opening | other => exact corresponds.elim

/-- A connection that has sent a value did so for its command. -/
theorem delivered_of_sent (linked : Linked takers controller) {call : Nat} {pin : Pin}
    (sent : valuesSent controller.transcript = [(call, pin)]) :
    ∃ (index : Nat) (id : RequestId), controller.taker = some index ∧
      takers[index]? = some ⟨id, pin, .delivered call⟩ ∧ commandsRead controller.transcript = [(id, pin)] := by
  obtain ⟨phase, accepted, _, about⟩ := linked
  have accounts := Control.accounts_of_accepts accepted
  rw [accounts.sent] at sent
  rw [accounts.commanded]
  cases phase with
  | delivered id | confirmed id =>
    cases sent
    obtain ⟨index, found, taken, present, rfl⟩ := about.command rfl
    exact ⟨index, id, taken, present, rfl⟩
  | _ => cases sent

end

/-! ## Binding -/

/-- The connection's command names the request's call and its value was sent there. -/
def Approves (process : UInt32) (controller : Controller) (request : Request) (pin : Pin) : Prop :=
  ∃ call, request.call = some call ∧ commandsRead controller.transcript = [(number process call, pin)] ∧
    valuesSent controller.transcript = [(call, pin)]

/-- A request stands to its signing commands, its call and its approval. -/
structure Bound (process : UInt32) (state : Agent.State) (request : Request) : Prop where
  once : (issued request).length ≤ 1
  approved : ∀ (key : StoredKey) (authorization : TpmAuthorization), (key, authorization) ∈ issued request →
    key.summary.usePolicy = .tpmPin → ∃ (controller : Controller) (pin : Pin),
      controller ∈ state.controllers.states ∧ Approves process controller request pin ∧
        authorization = .pin pin.bytes ∧ 6 ≤ pin.bytes.length ∧ pin.bytes.length ≤ 64
  failed : ∀ (index : Nat) (call : Call) (message : String), request.call = some index →
    state.exchange.calls[index]? = some call → call.stage.result = some (.error message) → issued request = []
  free : ∀ (key : StoredKey) (authorization : TpmAuthorization), (key, authorization) ∈ issued request →
    key.summary.usePolicy = .noPin → authorization = .none ∧ request.call = none
  unregistered : ∀ (keys : List StoredKey) (key : StoredKey),
    ⟨.listKeys, (.ok keys : Except StoreError (List StoredKey))⟩ ∈ request.transcript →
      Runtime.selected request.packet keys = some key → key.summary.usePolicy = .noPin → request.call = none

section

variable {process : UInt32} {state : Agent.State}

/-- The value that a call returned was sent to it by a command that named it. -/
theorem approved_of_returned (orderly : Orderly process state) (sound : Sound process state.exchange)
    {request : Request} {index : Nat} {call : Call} {bytes : Bytes} (called : request.call = some index)
    (found : state.exchange.calls[index]? = some call) (returned : call.stage.result = some (.ok bytes)) :
    ∃ (controller : Controller) (pin : Pin), controller ∈ state.controllers.states ∧
      Approves process controller request pin ∧ bytes = pin.bytes := by
  obtain ⟨holder, taker, at_holder, delivered⟩ := sound.sent index call found (.inr ⟨bytes, returned⟩)
  obtain ⟨same, at_index, named, _, settled⟩ := sound.owned holder taker index at_holder (by rw [delivered]; rfl)
  rw [found] at at_index
  cases at_index
  have value : bytes = taker.pin.bytes := by
    simp only [Settled, delivered] at settled
    rcases settled with ⟨_, _, undecided⟩ | ⟨_, received⟩ | ⟨_, message, failed⟩
    · exact absurd returned (undecided bytes)
    · rw [returned] at received
      cases received
      rfl
    · rw [failed] at returned
      cases returned
  obtain ⟨place, controller, at_place, taken⟩ :=
    orderly.connections.owned.held holder (List.getElem?_eq_some_iff.mp at_holder).1
  obtain ⟨commanded, sent⟩ :=
    sent_of_delivered (orderly.connections.linked place controller at_place) taken at_holder delivered
  exact ⟨controller, taker.pin, List.mem_of_getElem? at_place, ⟨index, called, named ▸ commanded, sent⟩, value⟩

/-- Every request is bound. -/
theorem bound_of_orderly (orderly : Orderly process state) (sound : Sound process state.exchange) {place : Nat}
    {request : Request} (present : state.requests[place]? = some request) : Bound process state request := by
  have proper := orderly.requests.proper place request present
  have placed := orderly.requests.placed place request present
  obtain ⟨phase, signs, listed⟩ := signs_of_proper proper
  constructor
  · generalize issued request = commands at signs
    cases signs <;> simp
  · intro key authorization member policy
    generalize all : issued request = commands at signs member
    cases signs with
    | nothing => cases member
    | free _ noPin _ =>
      cases List.mem_singleton.mp member
      rw [policy] at noPin
      cases noPin
    | pinned _ _ answered =>
      cases List.mem_singleton.mp member
      obtain ⟨index, call, called, found, returned⟩ := returned_of_answered placed answered
      obtain ⟨controller, pin, running, approves, rfl⟩ :=
        approved_of_returned orderly sound called found (by rw [returned]; rfl)
      exact ⟨controller, pin, running, approves, rfl, pin.long, pin.short⟩
  · intro index call message called found failed
    generalize all : issued request = commands at signs
    have unanswered : ∀ bytes, Runtime.pinAnswers request.transcript ≠ [.ok bytes] := by
      intro bytes answered
      obtain ⟨other, same, alsoCalled, alsoFound, returned⟩ := returned_of_answered placed answered
      rw [called] at alsoCalled
      cases alsoCalled
      rw [found] at alsoFound
      cases alsoFound
      rw [returned] at failed
      cases failed
    cases signs with
    | nothing => rfl
    | free _ _ unasked =>
      have uncalled := uncalled_of_free proper placed unasked (by rw [all]; exact List.cons_ne_nil _ _)
      rw [uncalled] at called
      cases called
    | pinned _ _ answered => exact absurd answered (unanswered _)
  · intro key authorization member policy
    generalize all : issued request = commands at signs member
    cases signs with
    | nothing => cases member
    | free _ _ unasked =>
      cases List.mem_singleton.mp member
      exact ⟨rfl, uncalled_of_free proper placed unasked (by rw [all]; exact List.cons_ne_nil _ _)⟩
    | pinned _ tpmPin _ =>
      cases List.mem_singleton.mp member
      rw [policy] at tpmPin
      cases tpmPin
  · intro keys key member chosen policy
    cases called : request.call with
    | none => rfl
    | some call =>
      obtain ⟨other, alsoChosen, tpmPin⟩ := policy_of_called proper placed called member
      rw [chosen] at alsoChosen
      cases alsoChosen
      rw [policy] at tpmPin
      cases tpmPin

/-- One command approves one request. -/
theorem approved_unique (orderly : Orderly process state) {first second : Nat} {request other : Request}
    (at_first : state.requests[first]? = some request) (at_second : state.requests[second]? = some other)
    {controller : Controller} {pin value : Pin} (approves : Approves process controller request pin)
    (alsoApproves : Approves process controller other value) : first = second ∧ pin = value := by
  obtain ⟨call, called, _, sent⟩ := approves
  obtain ⟨target, alsoCalled, _, alsoSent⟩ := alsoApproves
  rw [sent] at alsoSent
  cases alsoSent
  exact ⟨orderly.requests.owned.distinct first second request other call at_first at_second called alsoCalled, rfl⟩

/-- One request is approved by one command. -/
theorem approver_unique (orderly : Orderly process state) (sound : Sound process state.exchange)
    {first second : Nat} {controller other : Controller}
    (at_first : state.controllers.states[first]? = some controller)
    (at_second : state.controllers.states[second]? = some other) {request : Request} {pin value : Pin}
    (approves : Approves process controller request pin) (alsoApproves : Approves process other request value) :
    first = second ∧ pin = value := by
  obtain ⟨call, called, _, sent⟩ := approves
  obtain ⟨target, alsoCalled, _, alsoSent⟩ := alsoApproves
  rw [called] at alsoCalled
  cases alsoCalled
  obtain ⟨index, id, taken, found, _⟩ :=
    delivered_of_sent (orderly.connections.linked first controller at_first) sent
  obtain ⟨place, alsoId, alsoTaken, alsoFound, _⟩ :=
    delivered_of_sent (orderly.connections.linked second other at_second) alsoSent
  obtain rfl := sound.once index place call ⟨_, found, rfl⟩ ⟨_, alsoFound, rfl⟩
  rw [found] at alsoFound
  cases alsoFound
  exact ⟨orderly.connections.owned.distinct first second controller other index at_first at_second taken alsoTaken,
    rfl⟩

end

/-- In every run, whatever the order of its steps and as long as there are fewer than
2^64 requests: a signing command for a record with a PIN carries the value of an
authorization that named the request's own identifier; an authorization serves one
request and a request uses one authorization, for one signing command; a request
whose wait for a PIN ended without one signs nothing; and a record without a PIN is
used without authorization and never becomes pending. -/
theorem pins_are_bound_to_their_requests (settings : Runtime.Settings) (process : UInt32)
    (actions : List Agent.Action) (state : Agent.State)
    (reached : Transition.run (Agent.step settings process) Agent.initial actions = some state)
    (few : state.exchange.calls.length < 2 ^ 64) :
    (∀ request ∈ state.requests, Bound process state request) ∧
    (∀ controller ∈ state.controllers.states, (commandsRead controller.transcript).length ≤ 1) ∧
    (∀ (first second : Nat) (request other : Request) (controller : Controller) (pin value : Pin),
      state.requests[first]? = some request → state.requests[second]? = some other →
      Approves process controller request pin → Approves process controller other value →
        first = second ∧ pin = value) ∧
    (∀ (first second : Nat) (controller other : Controller) (request : Request) (pin value : Pin),
      state.controllers.states[first]? = some controller → state.controllers.states[second]? = some other →
      Approves process controller request pin → Approves process other request value →
        first = second ∧ pin = value) ∧
    (∀ (id : RequestId) (entry : PendingAuthorization), state.exchange.table.lookup id = some entry →
      ∃ request ∈ state.requests, request.call = some entry.sender ∧ id = number process entry.sender) := by
  have orderly := orderly_of_run reached
  have sound := orderly.sound few
  refine ⟨?_, ?_, ?_, ?_, ?_⟩
  · intro request member
    obtain ⟨place, present⟩ := List.mem_iff_getElem?.mp member
    exact bound_of_orderly orderly sound present
  · intro controller member
    obtain ⟨place, present⟩ := List.mem_iff_getElem?.mp member
    obtain ⟨phase, accepted, _⟩ := orderly.connections.linked place controller present
    rw [(Control.accounts_of_accepts accepted).commanded]
    cases phase.command <;> simp
  · intro first second request other controller pin value at_first at_second approves alsoApproves
    exact approved_unique orderly at_first at_second approves alsoApproves
  · intro first second controller other request pin value at_first at_second approves alsoApproves
    exact approver_unique orderly sound at_first at_second approves alsoApproves
  · intro id entry listed
    obtain ⟨call, found, named, _⟩ := sound.listed id entry listed
    obtain ⟨place, request, present, called⟩ :=
      orderly.requests.owned.held entry.sender (PinExchange.index_lt found)
    exact ⟨request, List.mem_of_getElem? present, called, named⟩

/-- The sample request signs with the sample PIN. -/
theorem sample_pin_is_bound : ∃ state request,
    Transition.run (Agent.step Sample.settings 1) Agent.initial Sample.signed = some state ∧
      state.requests = [request] ∧ issued request = [(Sample.key, .pin Sample.pin.bytes)] ∧
      Bound 1 state request := by
  have counted : (Transition.run (Agent.step Sample.settings 1) Agent.initial Sample.signed).map
      (fun state => (state.exchange.calls.length, state.requests.map issued)) =
        some (1, [[(Sample.key, .pin Sample.pin.bytes)]]) := rfl
  obtain ⟨state, reached, facts⟩ := Option.map_eq_some_iff.mp counted
  obtain ⟨one, signs⟩ := Prod.mk.inj facts
  obtain ⟨request, requests, signs⟩ := List.map_eq_singleton_iff.mp signs
  refine ⟨state, request, reached, requests, signs, ?_⟩
  exact (pins_are_bound_to_their_requests _ _ _ state reached (by rw [one]; decide)).1 request (by simp [requests])

/-! ## Confirmations -/

/-- Confirmations tell the truth: the call that the confirmed command named has the
value or is about to find it, and a command whose call ended without a value is not
confirmed but refused. -/
structure Honest (process : UInt32) (state : Agent.State) : Prop where
  confirmed : ∀ controller ∈ state.controllers.states, ∀ (id : RequestId) (pin : Pin),
    commandsRead controller.transcript = [(id, pin)] → okAuthorized ∈ replies controller.transcript →
      ∃ (index : Nat) (call : Call), id = number process index ∧ state.exchange.calls[index]? = some call ∧
        Keeps call pin
  refused : ∀ (index : Nat) (call : Call) (message : String), state.exchange.calls[index]? = some call →
    call.stage.result = some (.error message) → ∀ controller ∈ state.controllers.states, ∀ pin : Pin,
      commandsRead controller.transcript = [(number process index, pin)] →
        okAuthorized ∉ replies controller.transcript ∧
          (controller.program.finished → ∃ bytes ∈ replies controller.transcript, refusal bytes)

/-- No call gives up while a value is in its channel, and no value is sent to a call
that has given up and still has its receiver. -/
def Patient (state : Agent.State) (action : Agent.Action) : Prop :=
  ∀ inner, touches state action = some inner → Careful state.exchange inner

instance (state : Agent.State) (action : Agent.Action) : Decidable (Patient state action) :=
  inferInstanceAs (Decidable (∀ inner ∈ touches state action, Careful state.exchange inner))

section

variable {settings : Runtime.Settings} {process : UInt32} {state : Agent.State}

/-- A confirmed command was delivered to the call that it named. -/
theorem delivered_of_confirmed {takers : List Taker} {controller : Controller} (linked : Linked takers controller)
    {id : RequestId} {pin : Pin} (commanded : commandsRead controller.transcript = [(id, pin)])
    (confirmed : okAuthorized ∈ replies controller.transcript) :
    ∃ (index sender : Nat), takers[index]? = some ⟨id, pin, .delivered sender⟩ := by
  obtain ⟨phase, accepted, _, about⟩ := linked
  have accounts := Control.accounts_of_accepts accepted
  rw [accounts.commanded] at commanded
  have known : phase ≠ .other := by
    rintro rfl
    cases commanded
  have confirms := accounts.replied known confirmed
  cases phase with
  | confirmed named value sender =>
    cases commanded
    obtain ⟨index, found, _, present, rfl⟩ := about.command rfl
    exact ⟨index, sender, present⟩
  | _ => cases confirms

/-- A finished connection with a command has confirmed or refused it. -/
theorem refused_of_unconfirmed {takers : List Taker} {controller : Controller} (linked : Linked takers controller)
    {id : RequestId} {pin : Pin} (commanded : commandsRead controller.transcript = [(id, pin)])
    (finished : controller.program.finished) :
    (∃ (index sender : Nat), takers[index]? = some ⟨id, pin, .delivered sender⟩) ∨
      ∃ bytes ∈ replies controller.transcript, refusal bytes := by
  obtain ⟨phase, accepted, complies, about⟩ := linked
  have accounts := Control.accounts_of_accepts accepted
  rw [accounts.commanded] at commanded
  have closed : phase.closed := by
    cases program : controller.program with
    | done value =>
      rw [program] at complies
      exact complies
    | ask operation next =>
      rw [program] at finished
      cases finished
  cases phase with
  | confirmed named value sender =>
    cases commanded
    obtain ⟨index, found, _, present, rfl⟩ := about.command rfl
    exact .inl ⟨index, sender, present⟩
  | reported named value => exact .inr (accounts.refused named value rfl)
  | other => cases commanded
  | _ => cases closed

/-- What was promised and kept is confirmed truthfully. -/
theorem honest_of_truthful (orderly : Orderly process state) (sound : Sound process state.exchange)
    (few : state.exchange.calls.length < 2 ^ 64) (truthful : Truthful state.exchange) : Honest process state := by
  have kept {index sender : Nat} {id : RequestId} {pin : Pin}
      (found : state.exchange.takers[index]? = some ⟨id, pin, .delivered sender⟩) :
      ∃ call, id = number process sender ∧ state.exchange.calls[sender]? = some call ∧ Keeps call pin := by
    obtain ⟨call, at_sender, named, _⟩ := sound.owned index _ sender found rfl
    exact ⟨call, named, at_sender, truthful index _ sender call found rfl at_sender⟩
  have contradicts {index place sender : Nat} {call : Call} {message : String} {pin : Pin}
      (found : state.exchange.calls[index]? = some call) (failed : call.stage.result = some (.error message))
      (delivered : state.exchange.takers[place]? = some ⟨number process index, pin, .delivered sender⟩) : False := by
    obtain ⟨other, named, at_sender, keeps⟩ := kept delivered
    have inside := PinExchange.index_lt found
    have senderInside := PinExchange.index_lt at_sender
    obtain rfl : index = sender := number_injective process (by omega) (by omega) named
    rw [found] at at_sender
    cases at_sender
    rcases keeps with ⟨_, undecided⟩ | received
    · rw [failed] at undecided
      cases undecided
    · rw [failed] at received
      cases received
  constructor
  · intro controller member id pin commanded confirmed
    obtain ⟨place, present⟩ := List.mem_iff_getElem?.mp member
    obtain ⟨index, sender, delivered⟩ :=
      delivered_of_confirmed (orderly.connections.linked place controller present) commanded confirmed
    obtain ⟨call, named, at_sender, keeps⟩ := kept delivered
    exact ⟨sender, call, named, at_sender, keeps⟩
  · intro index call message found failed controller member pin commanded
    obtain ⟨place, present⟩ := List.mem_iff_getElem?.mp member
    have linked := orderly.connections.linked place controller present
    constructor
    · intro confirmed
      obtain ⟨_, _, delivered⟩ := delivered_of_confirmed linked commanded confirmed
      exact contradicts found failed delivered
    · intro finished
      rcases refused_of_unconfirmed linked commanded finished with ⟨_, _, delivered⟩ | refused
      · exact (contradicts found failed delivered).elim
      · exact refused

/-- A patient step keeps what was promised. -/
theorem truthful_step {action : Agent.Action} {next : Agent.State} (sound : Sound process state.exchange)
    (truthful : Truthful state.exchange) (patient : Patient state action)
    (taken : Agent.step settings process state action = some next) : Truthful next.exchange := by
  rcases exchange_step taken with ⟨_, same⟩ | ⟨inner, touched, moved⟩
  · rw [same]
    exact truthful
  · exact truthful.step sound (patient inner touched) moved

end

/-- In every run in which no call gives up while a value is in its channel and no
value is sent to a call that has given up, every confirmation is true, and a call
that polls with a confirmed value in its channel returns it. -/
theorem patient_confirmations_are_true (settings : Runtime.Settings) (process : UInt32)
    (actions : List Agent.Action) (state : Agent.State)
    (reached : Transition.run (Agent.step settings process) Agent.initial actions = some state)
    (few : state.exchange.calls.length < 2 ^ 64)
    (patient : Transition.Along (Agent.step settings process) Patient Agent.initial actions) :
    Honest process state ∧
    (∀ (index : Nat) (call : Call) (pin : Pin), state.exchange.calls[index]? = some call → Keeps call pin →
      call.stage = .polling → PinExchange.step process state.exchange (.poll index) =
        some (state.exchange.setCall index ⟨call.keyName, .leaving (.ok pin.bytes), []⟩)) := by
  let invariant (state : Agent.State) : Prop := Orderly process state ∧
    (state.exchange.calls.length < 2 ^ 64 → Truthful state.exchange)
  have holds : invariant state := by
    refine Transition.invariant_along ?_ ⟨orderly_initial, fun _ => nofun⟩ patient reached
    intro before action after ⟨orderly, truthful⟩ allowed taken
    refine ⟨orderly.step taken, fun fewAfter => ?_⟩
    have fewBefore := Nat.lt_of_le_of_lt (calls_step taken) fewAfter
    exact truthful_step (orderly.sound fewBefore) (truthful fewBefore) allowed taken
  have sound := holds.1.sound few
  refine ⟨honest_of_truthful holds.1 sound few (holds.2 few), ?_⟩
  intro index call pin found keeps polling
  obtain ⟨keyName, stage, queue⟩ := call
  cases polling
  rcases keeps with ⟨message, _⟩ | received
  · cases message
    simp only [PinExchange.step, found, tryRecv]
  · cases received

/-- The sample run is patient, and its confirmation is true. -/
theorem sample_confirmation_is_true : ∃ state,
    Transition.run (Agent.step Sample.settings 1) Agent.initial Sample.signed = some state ∧ Honest 1 state := by
  have counted : (Transition.run (Agent.step Sample.settings 1) Agent.initial Sample.signed).map
      (fun state => state.exchange.calls.length) = some 1 := rfl
  have patient : Transition.Along (Agent.step Sample.settings 1) Patient Agent.initial Sample.signed :=
    of_decide_eq_true rfl
  obtain ⟨state, reached, one⟩ := Option.map_eq_some_iff.mp counted
  exact ⟨state, reached, (patient_confirmations_are_true _ _ _ state reached (by rw [one]; decide) patient).1⟩

/-- The sample request finds nothing, is authorized, and then gives up. -/
def overtaken : List Agent.Action :=
  Sample.asked ++ Sample.authorized ++ [.wait 0 (.deadline true), .wait 0 .remove, .finish 0]

/-- The owner is told that the request was authorized, and the request has timed out. -/
theorem confirmation_can_be_false : ∃ state,
    Transition.run (Agent.step Sample.settings 1) Agent.initial overtaken = some state ∧
      state.exchange.calls.length = 1 ∧
      state.controllers.states.map (fun controller => replies controller.transcript) = [[okAuthorized]] ∧
      state.exchange.calls.map Call.stage = [.returned (.error "TPM PIN entry timed out")] ∧
      ¬ Honest 1 state := by
  have observed : (Transition.run (Agent.step Sample.settings 1) Agent.initial overtaken).map
      (fun state => (state.controllers.states.map (fun controller =>
          (commandsRead controller.transcript, replies controller.transcript)),
        state.exchange.calls.map Call.stage)) =
      some ([([(number 1 0, Sample.pin)], [okAuthorized])],
        [.returned (.error "TPM PIN entry timed out")]) := rfl
  obtain ⟨state, reached, facts⟩ := Option.map_eq_some_iff.mp observed
  obtain ⟨controllers, stages⟩ := Prod.mk.inj facts
  obtain ⟨controller, states, transcript⟩ := List.map_eq_singleton_iff.mp controllers
  obtain ⟨commanded, replied⟩ := Prod.mk.inj transcript
  obtain ⟨call, calls, stage⟩ := List.map_eq_singleton_iff.mp stages
  refine ⟨state, reached, by rw [calls]; rfl, by rw [states, List.map_singleton, replied], stages, ?_⟩
  intro honest
  refine (honest.refused 0 call "TPM PIN entry timed out" (by rw [calls]; rfl) (by rw [stage]; rfl) controller
    (by rw [states]; exact List.mem_singleton_self _) Sample.pin commanded).1 ?_
  rw [replied]
  exact List.mem_singleton_self _

end Keyvisor.Approval
