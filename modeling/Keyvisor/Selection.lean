import Keyvisor.Approval
import Keyvisor.Dialogue
import Keyvisor.Exec
import Keyvisor.Pending

/-!
# Which request the wrapper authorizes

The command wrapper of `keyvisor-cli/src/main.rs` beside the agent process of
`keyvisor-agent/src/main.rs`. The wrapper works from listings that may be stale when
it asks for a PIN and again when it sends one, and any other clients may register,
cancel or authorize requests at any time.

The two processes are joined by the bytes of the wrapper's control connections. The
agent's worker behind such a connection reads a command from what the wrapper has
sent so far, and the wrapper reads lines from what the worker has written so far;
either write may fail half way. All other connections of the agent are foreign and
read what they like.
-/

namespace Keyvisor.Selection

open Foundation Foundation.Stream Foundation.Text Control Dialogue
open Exec (startChild superviseRound)
open Foundation.Program (demand)

/-! ## What the wrapper does with a listing -/

/-- The line that announces a PIN. -/
def announcement (id : RequestId) (pin : Bytes) : Bytes :=
  utf8 "AUTHORIZE " ++ (id ++ 32 :: decimal pin.length) ++ [10]

/-- The only request of a listing. -/
def chosen (lines : List Bytes) : Option RequestId :=
  match decoded lines with
  | some [(id, _)] => some id
  | _ => none

/-- Where the wrapper stands with the agent: without a connection; after it found no
control socket; on a connection for a listing, before and after its command; with the
PIN for the only request of a listing; and on the connection for that PIN. -/
inductive Phase where
  | idle
  | absent
  | connected
  | listing (lines : List Bytes)
  | pinned (id : RequestId) (pin : Bytes)
  | opened (id : RequestId) (pin : Bytes)
  | announced (id : RequestId) (pin : Bytes)
  | sent

/-- The phase after an answer that may be a failure. -/
def Phase.onSuccess {ε α : Type} (answer : Except ε α) (next : Phase) : Phase :=
  match answer with
  | .ok _ => next
  | .error _ => .idle

/-- A PIN is asked for after a listing with one request and sent for that request, on
a connection of its own. -/
def selectControl (phase : Phase) (exchange : Program.Exchange ControlClient.Operation ControlClient.Answer) :
    Option Phase :=
  match exchange with
  | ⟨.connectControl, answer⟩ =>
    match phase with
    | .idle => some (.onSuccess (answer : Except String Unit) .connected)
    | .pinned id pin => some (.onSuccess (answer : Except String Unit) (.opened id pin))
    | _ => none
  | ⟨.write bytes, answer⟩ =>
    match phase with
    | .connected =>
      if bytes = utf8 "LIST" ++ [10] then some (.onSuccess (answer : Except IoError Unit) (.listing [])) else none
    | .opened id pin =>
      if bytes = announcement id pin then some (.onSuccess (answer : Except IoError Unit) (.announced id pin))
      else none
    | .announced _ pin => if bytes = pin then some (.onSuccess (answer : Except IoError Unit) .sent) else none
    | _ => none
  | ⟨.flush, _⟩ =>
    match phase with
    | .sent => some .sent
    | _ => none
  | ⟨.readControlLine, answer⟩ =>
    match phase, (answer : Except String Bytes) with
    | .listing lines, .ok line => some (.listing (lines ++ [line]))
    | .listing _, .error _ => some .idle
    | .sent, _ => some .idle
    | _, _ => none
  | ⟨.readExistingPin _ _, answer⟩ =>
    match phase, (answer : Except String Bytes) with
    | .listing lines, .ok pin => (chosen lines).map fun id => .pinned id pin
    | .listing lines, .error _ => (chosen lines).map fun _ => .idle
    | _, _ => none
  | ⟨.println _, _⟩ => some phase

/-- A missing control socket counts as an empty listing. The command is started after
an empty listing. -/
def select (phase : Phase) : Program.Exchange Exec.Operation Exec.Answer → Option Phase
  | ⟨.control operation, answer⟩ => selectControl phase ⟨operation, answer⟩
  | ⟨.symlinkMetadata, answer⟩ =>
    match phase, (answer : Except IoError Unit) with
    | .idle, .ok _ => some .idle
    | .idle, .error error => some (if error.kind = .notFound then .absent else .idle)
    | _, _ => none
  | ⟨.spawn _, _⟩ =>
    match phase with
    | .absent => some .idle
    | .listing lines => if decoded lines = some [] then some .idle else none
    | _ => none
  | ⟨.sleep _, _⟩ => some .idle
  | _ => some phase

/-- How a listing was obtained. -/
def Obtained (phase : Phase) : Except String (List (RequestId × String)) → Prop
  | .ok requests => (phase = .absent ∧ requests = []) ∨ ∃ lines, phase = .listing lines ∧ decoded lines = some requests
  | .error _ => True

section

open ControlClient

/-- What is required of a sequence that goes on only after a success. -/
theorem selects_demand {α ε : Type} {phase : Phase} {report : ε → String} {program : ControlClient.Action (Except ε α)}
    {β : Type} {next : α → ControlClient.Routine String β} {post : Phase → β → Prop}
    (complies : Program.Complies selectControl phase program fun reached outcome => ∀ value, outcome = .ok value →
      Program.Complies selectControl reached (next value).run fun reached outcome =>
        ∀ result, outcome = .ok result → post reached result) :
    Program.Complies selectControl phase (demand report program >>= next).run fun reached outcome =>
      ∀ result, outcome = .ok result → post reached result := by
  apply Program.Complies.routine
  apply Program.complies_demand
  apply complies.weaken
  intro reached outcome rest
  cases outcome with
  | ok value => exact rest value rfl
  | error error =>
    intro result impossible
    cases impossible

/-- Requests are read one after the other. -/
theorem readRequests_selects (count : Nat) {header : Bytes} {got : List Bytes} {found : List (RequestId × String)}
    (announced : parseHeader header = .ok (got.length + count))
    (parsed : got.mapM (fun line => (parseRequest line).toOption) = some found) :
    Program.Complies selectControl (.listing (header :: got)) (readRequests count).run fun phase outcome =>
      ∀ requests, outcome = .ok requests →
        ∃ lines, phase = .listing lines ∧ decoded lines = some (found ++ requests) := by
  induction count generalizing got found with
  | zero =>
    rintro _ ⟨⟩
    refine ⟨header :: got, rfl, decoded_eq_some.mpr ⟨header, got, rfl, announced, ?_⟩⟩
    rw [parsed, List.append_nil]
  | succ count inductionHypothesis =>
    apply selects_demand
    refine Program.complies_call fun answer => ?_
    rcases (answer : Except String Bytes) with message | line
    · exact ⟨.idle, rfl, fun _ impossible => by cases impossible⟩
    refine ⟨.listing (header :: got ++ [line]), rfl, ?_⟩
    rintro _ ⟨⟩
    apply Program.Complies.routine
    apply Program.complies_check
    cases read : parseRequest line with
    | error message => exact fun _ impossible => by cases impossible
    | ok request =>
    apply Program.continues_ok
    have longer : (got ++ [line]).mapM (fun line => (parseRequest line).toOption) = some (found ++ [request]) := by
      rw [List.mapM_append, parsed]
      simp [read, Except.toOption]
    have counted : parseHeader header = .ok ((got ++ [line]).length + count) := by
      rw [announced, List.length_append, List.length_singleton, Nat.add_assoc, Nat.add_comm 1 count]
    apply Program.Complies.routine
    apply (inductionHypothesis counted longer).weaken
    intro phase outcome ends
    cases outcome with
    | error message => exact fun _ impossible => by cases impossible
    | ok rest =>
      rintro _ ⟨⟩
      obtain ⟨lines, same, accepted⟩ := ends rest rfl
      exact ⟨lines, same, by rw [accepted]; simp⟩

/-- A listing is read line by line and decoded. -/
theorem fetchAuthorizationRequests_selects :
    Program.Complies selectControl .idle fetchAuthorizationRequests.run fun phase outcome =>
      ∀ requests, outcome = .ok requests → ∃ lines, phase = .listing lines ∧ decoded lines = some requests := by
  apply selects_demand
  refine Program.complies_call fun answer => ⟨_, rfl, ?_⟩
  rintro _ same
  obtain rfl : answer = .ok () := same
  show Program.Complies selectControl .connected _ _
  apply selects_demand
  refine Program.complies_call fun answer =>
    ⟨.onSuccess (answer : Except IoError Unit) (.listing []), by simp only [selectControl, ↓reduceIte], ?_⟩
  rintro _ same
  obtain rfl : answer = .ok () := same
  show Program.Complies selectControl (.listing []) _ _
  apply selects_demand
  refine Program.complies_call fun answer => ?_
  rcases (answer : Except String Bytes) with message | header
  · exact ⟨.idle, rfl, fun _ impossible => by cases impossible⟩
  refine ⟨.listing [header], rfl, ?_⟩
  rintro _ ⟨⟩
  apply Program.Complies.routine
  apply Program.complies_check
  cases read : parseHeader header with
  | error message => exact fun _ impossible => by cases impossible
  | ok count =>
    apply Program.continues_ok
    have none : parseHeader header = .ok (([] : List Bytes).length + count) := by
      rw [read, List.length_nil, Nat.zero_add]
    exact readRequests_selects count none rfl

/-- The PIN for the only request of a listing is sent under that request's identifier. -/
theorem authorizeRequest_selects {lines : List Bytes} {id : RequestId} (single : chosen lines = some id)
    (keyName : String) (secretInput : SecretInput) :
    Program.Complies selectControl (.listing lines) (authorizeRequest id keyName secretInput false).run
      fun _ outcome => ∀ result, outcome = .ok result → True := by
  apply selects_demand
  refine Program.complies_call fun answer => ?_
  rcases (answer : Except String Bytes) with message | pin
  · exact ⟨.idle, by simp only [selectControl, single, Option.map_some], fun _ impossible => by cases impossible⟩
  refine ⟨.pinned id pin, by simp only [selectControl, single, Option.map_some], ?_⟩
  rintro _ ⟨⟩
  apply selects_demand
  refine Program.complies_call fun answer => ⟨_, rfl, ?_⟩
  rintro _ same
  obtain rfl : answer = .ok () := same
  show Program.Complies selectControl (.opened id pin) _ _
  apply selects_demand
  refine Program.complies_call fun answer =>
    ⟨.onSuccess (answer : Except IoError Unit) (.announced id pin), if_pos rfl, ?_⟩
  rintro _ same
  obtain rfl : answer = .ok () := same
  show Program.Complies selectControl (.announced id pin) _ _
  apply selects_demand
  refine Program.complies_call fun answer =>
    ⟨.onSuccess (answer : Except IoError Unit) .sent, if_pos rfl, ?_⟩
  rintro _ same
  obtain rfl : answer = .ok () := same
  show Program.Complies selectControl .sent _ _
  apply selects_demand
  refine Program.complies_call fun answer => ⟨.sent, rfl, fun _ _ => ?_⟩
  apply selects_demand
  refine Program.complies_call fun answer => ⟨.idle, rfl, fun line _ => ?_⟩
  apply Program.Complies.routine
  apply Program.complies_check
  cases checkReply line with
  | error message => exact fun _ _ => trivial
  | ok _ => exact fun _ _ => trivial

end

section

/-- A routine of the control client selects within the wrapper as it does alone. -/
theorem control_selects {α : Type} {phase : Phase} {routine : ControlClient.Routine String α}
    {post : Phase → Except String α → Prop} (complies : Program.Complies selectControl phase routine.run post) :
    Program.Complies select phase (Exec.control routine).run post := by
  have agrees (phase : Phase) (operation : ControlClient.Operation) (answer : ControlClient.Answer operation) :
      select phase ⟨.control operation, answer⟩ = selectControl phase ⟨operation, answer⟩ := rfl
  exact complies.translate agrees

/-- A listing is obtained, or skipped because there is no socket. -/
theorem fetchIfRunning_selects :
    Program.Complies select .idle Exec.fetchAuthorizationRequestsIfRunning.run Obtained := by
  apply Program.Complies.routine
  refine Program.complies_demand (Program.complies_call fun answer => ⟨.idle, rfl, ?_⟩)
  rcases (answer : Except String Unit) with message | _
  · trivial
  apply Program.continues_ok
  apply Program.Complies.routine
  refine Program.complies_observed (Program.complies_call fun metadata => ?_)
  rcases (metadata : Except IoError Unit) with error | _
  · refine ⟨if error.kind = .notFound then .absent else .idle, rfl, Program.continues_ok ?_⟩
    apply Program.Complies.routine
    apply Program.complies_check
    by_cases missing : error.kind = .notFound
    · simp only [Exec.socketPresent, if_pos missing]
      exact Program.continues_ok (.inl ⟨rfl, rfl⟩)
    · simp only [Exec.socketPresent, if_neg missing]
      trivial
  · refine ⟨.idle, rfl, Program.continues_ok ?_⟩
    apply (control_selects fetchAuthorizationRequests_selects).weaken
    intro phase outcome ends
    cases outcome with
    | error message => trivial
    | ok requests => exact .inr (ends requests rfl)

/-- Every operation of the wrapper that has nothing to do with the agent. -/
def aside : Exec.Operation → Prop
  | .control _ => False
  | .symlinkMetadata => False
  | .spawn _ => False
  | .sleep _ => False
  | _ => True

/-- What does not concern the control socket selects nothing. -/
theorem select_aside (phase : Phase) (operation : Exec.Operation) (answer : Exec.Answer operation)
    (other : aside operation) : select phase ⟨operation, answer⟩ = some phase := by
  cases operation with
  | control | symlinkMetadata | spawn | sleep => exact other.elim
  | _ => rfl

/-- A round ends without a connection. -/
def Rounded (phase : Phase) (outcome : Except String (Option Exec.ExitStatus)) : Prop :=
  outcome = .ok none → phase = .idle

/-- Only the single request of the listing is authorized. -/
theorem authorizeSingle_selects {phase : Phase} {requests : List (RequestId × String)}
    (obtained : Obtained phase (.ok requests)) :
    Program.Complies select phase (Exec.authorizeSingle requests).run fun _ _ => True := by
  rcases requests with _ | ⟨⟨id, keyName⟩, _ | ⟨second, rest⟩⟩
  · trivial
  · rcases obtained with ⟨_, impossible⟩ | ⟨lines, rfl, accepted⟩
    · cases impossible
    · have single : chosen lines = some id := by simp only [chosen, accepted]
      exact (control_selects (authorizeRequest_selects single keyName .terminal)).weaken fun _ _ _ => trivial
  · trivial

/-- A round selects at most one request and ends without a connection. -/
theorem superviseRound_selects (child : UInt32) :
    Program.Complies select .idle (superviseRound child).run Rounded := by
  apply Program.Complies.routine
  apply Program.complies_observed
  have forwards : (Exec.forward child).Issues aside := Exec.forward_issues (fun _ => trivial) (fun _ _ => trivial) child
  apply (forwards.complies (select_aside .idle)).weaken
  rintro _ _ rfl
  apply Program.continues_ok
  apply Program.Complies.routine
  refine Program.complies_demand (Program.complies_call fun answer => ⟨.idle, rfl, ?_⟩)
  rcases (answer : Except IoError (Option Exec.ExitStatus)) with error | _ | status
  · exact fun impossible => by cases impossible
  · apply Program.continues_ok
    apply Program.Complies.routine
    apply fetchIfRunning_selects.weaken
    intro phase outcome obtained
    cases outcome with
    | error message => exact fun impossible => by cases impossible
    | ok requests =>
      apply Program.continues_ok
      apply Program.Complies.routine
      apply (authorizeSingle_selects obtained).weaken
      intro reached outcome _
      cases outcome with
      | error message => exact fun impossible => by cases impossible
      | ok _ =>
        apply Program.continues_ok
        apply Program.Complies.routine
        refine Program.complies_observed (Program.complies_call fun _ => ⟨.idle, rfl, Program.continues_ok ?_⟩)
        exact fun _ => rfl
  · exact fun impossible => by cases impossible

/-- The command is started after an empty listing and without a connection. -/
theorem startChild_selects (arguments : List Bytes) :
    Program.Complies select .idle (startChild arguments).run fun phase outcome =>
      ∀ child, outcome = .ok child → phase = .idle := by
  have fails {phase : Phase} {message : String} (child : UInt32)
      (impossible : (.error message : Except String UInt32) = .ok child) : phase = .idle := by cases impossible
  apply Program.Complies.routine
  apply Program.complies_check
  cases Exec.parseCommand arguments with
  | error message => exact fails
  | ok command =>
  apply Program.continues_ok
  apply Program.Complies.routine
  apply fetchIfRunning_selects.weaken
  intro phase outcome obtained
  cases outcome with
  | error message => exact fails
  | ok requests =>
  apply Program.continues_ok
  apply Program.Complies.routine
  apply Program.complies_check
  cases checked : Exec.checkIdle requests with
  | error message => exact fails
  | ok _ =>
  obtain rfl : requests = [] := by
    unfold Exec.checkIdle at checked
    split at checked
    · exact List.isEmpty_iff.mp ‹_›
    · cases checked
  apply Program.continues_ok
  apply Program.Complies.routine
  have registers : (Exec.installSignals Exec.forwardedSignals).run.Issues aside :=
    Exec.installSignals_issues (fun _ => trivial) _
  apply (registers.complies (select_aside phase)).weaken
  rintro _ (message | _) rfl
  · exact fails
  apply Program.continues_ok
  refine Program.complies_demand (Program.complies_call fun answer => ⟨.idle, ?_, fun _ _ => rfl⟩)
  rcases obtained with ⟨rfl, _⟩ | ⟨lines, rfl, accepted⟩
  · rfl
  · exact if_pos accepted

end

end Keyvisor.Selection
