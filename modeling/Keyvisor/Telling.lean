import Keyvisor.Monitoring

/-!
# Requests that are told

A check between two operations of a request tells it that its client has gone. What is
left to do is then known: the failure is recorded if the request had selected a key for
signing, the watcher is stopped and joined, and the failure response is written. Nothing
is asked of the key store, the owner or the TPM any more.

A second monitor of a turn keeps the list of what is owed, from the check that told the
request to the last operation of the turn.
-/

namespace Keyvisor.Telling

open Foundation Foundation.Transition Monitoring Keyvisor.Runtime Protocol
open Foundation.Program (demand)

/-- What a request that was told still owes. -/
inductive Duty where
  | readClock
  | recordFailure
  | stopWatcher
  | joinWatcher
  | refuse
  deriving DecidableEq, Repr

/-- The operation is what is owed. -/
def Duty.does : Duty → Monitoring.Operation → Bool
  | .readClock, .within .clock => true
  | .recordFailure, .within (.appendHistory entry) => entry.outcome == .failed
  | .stopWatcher, .stop => true
  | .joinWatcher, .join => true
  | .refuse, .write bytes => bytes == failureResponse
  | _, _ => false

/-- The monitor is dropped before the failure response is written. -/
def closing : List Duty := [.stopWatcher, .joinWatcher, .refuse]

/-- Only a request for a signature is still checked after it has listed the keys. By then
it has selected one, so that its failure is recorded if history is enabled. -/
def duties (settings : Settings) (listed : Bool) : List Duty :=
  (if listed && settings.historyEnabled then [.readClock, .recordFailure] else []) ++ closing

/-- A turn before and after its request is told. -/
inductive Stage where
  | untold (listed : Bool)
  | told (owed : List Duty)
  deriving DecidableEq, Repr

/-- What is left after the first duty is done. -/
def discharge : List Duty → Monitoring.Operation → Option (List Duty)
  | duty :: rest, operation => if duty.does operation then some rest else none
  | [], _ => none

/-- A request is told once, by a check, and goes on only to do what it owes. -/
def follow (settings : Settings) (stage : Stage) :
    Program.Exchange Monitoring.Operation Monitoring.Answer → Option Stage
  | ⟨.within .cancelled, answer⟩ =>
    match stage with
    | .untold listed => some (if (show Bool from answer) then .told (duties settings listed) else stage)
    | .told _ => none
  | ⟨operation, _⟩ =>
    match stage with
    | .untold listed => some (.untold (listed || operation == .within .listKeys))
    | .told owed => (discharge owed operation).map .told

/-- The same for what the request does itself. -/
def heed (settings : Settings) (stage : Stage) (exchange : Program.Exchange Runtime.Operation Runtime.Answer) :
    Option Stage := follow settings stage ⟨.within exchange.1, exchange.2⟩

section

variable {settings : Settings} {listed : Bool}

/-! ## One request -/

/-- How signing ends: a request that was told fails, and its failure is not recorded yet. -/
def Unrecorded (settings : Settings) (stage : Stage) (result : Except String Bytes) : Prop :=
  stage = .untold true ∨ stage = .told (duties settings true) ∧ ∃ message, result = .error message

/-- How a request ends: when it was told it has only its monitor to drop, and fails. -/
def Heeded (stage : Stage) (result : Except String Bytes) : Prop :=
  match stage with
  | .untold _ => True
  | .told owed => owed = closing ∧ Connection.respond result = failureResponse

/-- A check tells the request, or it goes on. -/
theorem check_heeds {post : Stage → Except String Unit → Prop} (passes : post (.untold listed) (.ok ()))
    (fails : ∀ message, post (.told (duties settings listed)) (.error message)) :
    Program.Complies (heed settings) (.untold listed) check.run post := by
  refine Program.Complies.routine (Program.complies_observed (Program.complies_call fun cancelled => ?_))
  refine ⟨if (show Bool from cancelled) then .told (duties settings listed) else .untold listed, rfl, ?_⟩
  refine Program.continues_ok (Program.complies_check ?_)
  cases (show Bool from cancelled) with
  | true => exact fails _
  | false => exact passes

/-- The keys are listed. -/
theorem listKeys_heeds :
    Program.Complies (heed settings) (.untold listed) listKeys.run fun stage _ => stage = .untold true :=
  Program.complies_demand (Program.complies_call fun answer => ⟨.untold true, by simp [heed, follow], rfl⟩)

/-- The signing command is issued untold, and the check after it decides about its answer. -/
theorem signAndFrame_heeds (key : RecordCodec.StoredKey) (digest : Bytes) (authorization : TpmAuthorization) :
    Program.Complies (heed settings) (.untold true) (signAndFrame key digest authorization).run
      (Unrecorded settings) := by
  refine Program.Complies.routine (Program.complies_demand (Program.complies_call fun answer =>
    ⟨.untold true, rfl, ?_⟩))
  cases (answer : Except TpmError Bytes) with
  | error error => exact .inl rfl
  | ok signature =>
    refine Program.Complies.routine (check_heeds (Program.continues_ok ?_) fun message => .inr ⟨rfl, message, rfl⟩)
    exact Program.complies_check (.inl rfl)

/-- A PIN is asked for untold. -/
theorem pinFor_heeds (key : RecordCodec.StoredKey) :
    Program.Complies (heed settings) (.untold true) (pinFor key).run fun stage _ => stage = .untold true := by
  unfold pinFor
  split
  · exact rfl
  · exact Program.complies_demand (Program.complies_call fun answer => ⟨.untold true, rfl, rfl⟩)

/-- The TPM is opened untold. -/
theorem connected_heeds (isOpen : Bool) :
    Program.Complies (heed settings) (.untold true) (connected isOpen).run fun stage _ => stage = .untold true := by
  cases isOpen with
  | true => exact rfl
  | false => exact Program.complies_demand (Program.complies_call fun answer => ⟨.untold true, rfl, rfl⟩)

/-- Signing ends at the first check that is told. -/
theorem signWithKey_heeds (key : RecordCodec.StoredKey) (data : Bytes) :
    Program.Complies (heed settings) (.untold true) (signWithKey settings key data).run (Unrecorded settings) := by
  unfold signWithKey
  refine Program.Complies.routine ((pinFor_heeds key).weaken ?_)
  rintro _ outcome rfl
  cases outcome with
  | error message => exact .inl rfl
  | ok pin =>
    refine Program.continues_ok (Program.Complies.routine ?_)
    refine check_heeds (Program.continues_ok ?_) fun message => .inr ⟨rfl, message, rfl⟩
    refine Program.Complies.routine (Program.complies_demand (Program.complies_call fun locked =>
      ⟨.untold true, rfl, ?_⟩))
    cases (locked : Except Unit Bool) with
    | error poisoned => exact .inl rfl
    | ok isOpen =>
      refine Program.continues_ok (Program.Complies.routine ((connected_heeds isOpen).weaken ?_))
      rintro _ outcome rfl
      cases outcome with
      | error message => exact .inl rfl
      | ok _ => exact Program.continues_ok (signAndFrame_heeds key _ _)

/-- The failure of a request that was told is recorded if history is enabled. -/
theorem recordHistory_told (key : RecordCodec.StoredKey) :
    Program.Complies (heed settings) (.told (duties settings true)) (recordHistory settings key .failed)
      fun stage _ => stage = .told closing := by
  unfold recordHistory
  split
  · rename_i enabled
    have owed : duties settings true = .readClock :: .recordFailure :: closing := by simp [duties, enabled]
    rw [owed]
    exact fun now => ⟨.told (.recordFailure :: closing), rfl, fun answer => ⟨.told closing, rfl, rfl⟩⟩
  · rename_i disabled
    have owed : duties settings true = closing := by simp [duties, disabled]
    rw [owed]
    exact rfl

/-- What an untold request records tells it nothing. -/
theorem recordHistory_untold (key : RecordCodec.StoredKey) (outcome : History.HistoryOutcome) :
    Program.Complies (heed settings) (.untold true) (recordHistory settings key outcome)
      fun stage _ => stage = .untold true := by
  unfold recordHistory
  split
  · exact fun now => ⟨.untold true, rfl, fun answer => ⟨.untold true, rfl, rfl⟩⟩
  · exact rfl

/-- A request for a signature heeds the check that tells it. -/
theorem serveSign_heeds (publicKey data : Bytes) (flags : UInt32) :
    Program.Complies (heed settings) (.untold false) (serveSign settings publicKey data flags).run Heeded := by
  unfold serveSign
  split
  · exact trivial
  refine Program.Complies.routine (listKeys_heeds.weaken ?_)
  rintro _ outcome rfl
  cases outcome with
  | error message => exact trivial
  | ok keys =>
    refine Program.continues_ok (Program.Complies.routine (Program.complies_check ?_))
    cases findKey keys publicKey with
    | error message => exact trivial
    | ok key =>
      refine Program.continues_ok (Program.Complies.routine (Program.complies_observed ?_))
      refine (signWithKey_heeds key data).weaken fun stage result ends => Program.continues_ok ?_
      refine Program.Complies.routine (Program.complies_observed ?_)
      rcases ends with rfl | ⟨rfl, message, rfl⟩
      · refine (recordHistory_untold key _).weaken ?_
        rintro _ _ rfl
        exact Program.continues_ok (Program.complies_check trivial)
      · refine (recordHistory_told key).weaken ?_
        rintro _ _ rfl
        exact Program.continues_ok (Program.complies_check ⟨rfl, rfl⟩)

/-- Whatever is answered, a request heeds the check that tells it. -/
theorem handle_heeds (packet : Bytes) :
    Program.Complies (heed settings) (.untold false) (handle settings packet).run Heeded := by
  unfold handle
  refine Program.Complies.routine (check_heeds (Program.continues_ok ?_) fun message => ⟨rfl, rfl⟩)
  refine Program.Complies.routine (Program.complies_check ?_)
  cases (parseRequest packet).mapError ProtocolError.message with
  | error message => exact trivial
  | ok request =>
    refine Program.continues_ok ?_
    cases request with
    | requestIdentities =>
      refine Program.Complies.routine (listKeys_heeds.weaken ?_)
      rintro _ outcome rfl
      cases outcome with
      | error message => exact trivial
      | ok keys => exact Program.continues_ok (Program.complies_check trivial)
    | sign publicKey data flags => exact serveSign_heeds publicKey data flags

/-! ## One turn -/

/-- A turn ends owing nothing. -/
def Settled (stage : Stage) (_ : Except String Bool) : Prop := ∀ owed, stage = .told owed → owed = []

/-- A started monitor tells nothing. -/
theorem startMonitor_follows : Program.Complies (follow settings) (.untold false) startMonitor.run
    fun stage _ => stage = .untold false := by
  refine Program.Complies.routine (Program.complies_demand (Program.complies_call fun cloned =>
    ⟨.untold false, rfl, ?_⟩))
  cases (cloned : Except IoError Unit) with
  | error error => exact rfl
  | ok _ =>
    exact Program.continues_ok (Program.complies_demand (Program.complies_call fun spawned =>
      ⟨.untold false, rfl, rfl⟩))

/-- A request that was told drops its monitor and is answered with the failure response. -/
theorem servePacket_follows (packet : Bytes) :
    Program.Complies (follow settings) (.untold false) (servePacket settings packet).run Settled := by
  refine Program.Complies.routine (startMonitor_follows.weaken ?_)
  rintro _ (message | _) rfl
  · exact fun _ told => nomatch told
  refine Program.continues_ok (Program.Complies.routine (Program.complies_observed ?_))
  have within : Program.Complies (follow settings) (.untold false) (handleWithin settings packet) Heeded := by
    have agrees (stage : Stage) (operation : Runtime.Operation) (reply : Runtime.Answer operation) :
        follow settings stage ⟨.within operation, reply⟩ = heed settings stage ⟨operation, reply⟩ := rfl
    exact Program.Complies.translate agrees (handle_heeds packet)
  refine within.weaken fun stage outcome heeded => ?_
  refine Program.continues_ok (Program.Complies.routine (Program.complies_observed ?_))
  cases stage with
  | untold listed =>
    refine fun stopped => ⟨_, rfl, fun joined => ⟨_, rfl, ?_⟩⟩
    refine Program.continues_ok (Program.Complies.routine (Program.complies_demand (Program.complies_call fun written =>
      ⟨_, rfl, ?_⟩)))
    cases (written : Except IoError Unit) <;> exact fun _ told => nomatch told
  | told owed =>
    obtain ⟨rfl, failed⟩ := heeded
    refine fun stopped => ⟨.told [.joinWatcher, .refuse], rfl, fun joined => ⟨.told [.refuse], rfl, ?_⟩⟩
    unfold writeResponse
    rw [failed]
    refine Program.continues_ok (Program.Complies.routine (Program.complies_demand (Program.complies_call fun written =>
      ⟨.told [], rfl, ?_⟩)))
    cases (written : Except IoError Unit) <;> exact fun _ told => by cases told; rfl

/-- Whatever is answered, a turn does what its request owes. -/
theorem serveTurn_follows :
    Program.Complies (follow settings) (.untold false) (serveTurn settings).run Settled := by
  refine Program.Complies.routine (Program.complies_demand (Program.complies_call fun received =>
    ⟨.untold false, rfl, ?_⟩))
  match (show Except String (Option Bytes) from received) with
  | .error message => exact fun _ told => nomatch told
  | .ok none => exact fun _ told => nomatch told
  | .ok (some packet) => exact servePacket_follows packet

/-! ## What a transcript tells -/

/-- A check that is told. -/
def toldCheck : Program.Exchange Monitoring.Operation Monitoring.Answer := ⟨.within .cancelled, (true : Bool)⟩

/-- The keys have been asked for. -/
def listedKeys (transcript : List (Program.Exchange Monitoring.Operation Monitoring.Answer)) : Bool :=
  transcript.any fun exchange => exchange.1 == .within .listKeys

/-- An operation that is no check is followed by what is owed. -/
theorem follow_other {stage : Stage} {operation : Monitoring.Operation} {answer : Monitoring.Answer operation}
    (other : operation ≠ .within .cancelled) : follow settings stage ⟨operation, answer⟩ =
      match stage with
      | .untold listed => some (.untold (listed || operation == .within .listKeys))
      | .told owed => (discharge owed operation).map .told := by
  unfold follow
  split
  · rename_i same
    cases same
    exact absurd rfl other
  · rename_i same
    cases same
    rfl

/-- Who was told stays told, and who is untold has listed the keys if they were asked for. -/
theorem follow_untold {stage : Stage} {exchange : Program.Exchange Monitoring.Operation Monitoring.Answer}
    (followed : follow settings stage exchange = some (.untold listed)) :
    ∃ before, stage = .untold before ∧ listed = (before || exchange.1 == .within .listKeys) := by
  obtain ⟨operation, answer⟩ := exchange
  by_cases checks : operation = .within .cancelled
  · subst checks
    cases stage with
    | told owed => cases followed
    | untold before =>
      simp only [follow, Option.some.injEq] at followed
      split at followed
      · cases followed
      · cases followed
        exact ⟨listed, rfl, (Bool.or_false listed).symm⟩
  · cases stage with
    | told owed =>
      obtain ⟨_, _, impossible⟩ := Option.map_eq_some_iff.mp ((follow_other checks).symm.trans followed)
      cases impossible
    | untold before =>
      cases (follow_other checks).symm.trans followed
      exact ⟨before, rfl, rfl⟩

/-- An untold turn has listed the keys if they were asked for. -/
theorem listed_of_accepts {transcript : List (Program.Exchange Monitoring.Operation Monitoring.Answer)} {stage : Stage}
    (accepted : Program.accepts (follow settings) (.untold false) transcript = some stage) :
    ∀ listed, stage = .untold listed → listed = listedKeys transcript := by
  refine Program.accepts_invariant (fun stage transcript => ∀ listed, stage = .untold listed →
    listed = listedKeys transcript) ?_ ?_ accepted
  · rintro listed same
    cases same
    rfl
  · rintro stage next exchange earlier known followed listed rfl
    obtain ⟨before, rfl, rfl⟩ := follow_untold followed
    rw [known before rfl]
    simp [listedKeys]

/-- A told check is the last one of an untold turn. -/
theorem follow_toldCheck {stage next : Stage} (followed : follow settings stage toldCheck = some next) :
    ∃ listed, stage = .untold listed ∧ next = .told (duties settings listed) := by
  cases stage with
  | untold listed => exact ⟨listed, rfl, (Option.some.inj followed).symm⟩
  | told owed => cases followed

/-- A turn that was told does the first thing that it owes. -/
theorem follow_told {owed : List Duty} {stage : Stage}
    {exchange : Program.Exchange Monitoring.Operation Monitoring.Answer}
    (followed : follow settings (.told owed) exchange = some stage) :
    ∃ duty rest, owed = duty :: rest ∧ duty.does exchange.1 = true ∧ stage = .told rest := by
  obtain ⟨operation, answer⟩ := exchange
  have other : operation ≠ .within .cancelled := by
    rintro rfl
    cases followed
  obtain ⟨rest, discharges, rfl⟩ := Option.map_eq_some_iff.mp ((follow_other other).symm.trans followed)
  cases owed with
  | nil => cases discharges
  | cons duty others =>
    obtain ⟨does, same⟩ := Option.ite_none_right_eq_some.mp discharges
    cases same
    exact ⟨duty, rest, rfl, does, rfl⟩

/-- A turn that was told does what it owes in order. -/
theorem discharged {owed : List Duty} {stage : Stage}
    {transcript : List (Program.Exchange Monitoring.Operation Monitoring.Answer)}
    (accepted : Program.accepts (follow settings) (.told owed) transcript = some stage) :
    ∃ done rest, owed = done ++ rest ∧ List.Forall₂ (fun duty exchange => duty.does exchange.1 = true) done transcript ∧
      stage = .told rest := by
  induction transcript generalizing owed with
  | nil =>
    cases accepted
    exact ⟨[], owed, rfl, .nil, rfl⟩
  | cons exchange later inductionHypothesis =>
    simp only [Program.accepts] at accepted
    split at accepted
    · rename_i middle followed
      obtain ⟨duty, others, rfl, does, rfl⟩ := follow_told followed
      obtain ⟨done, rest, rfl, all, ends⟩ := inductionHypothesis accepted
      exact ⟨duty :: done, rest, rfl, .cons does all, ends⟩
    · cases accepted

end

/-! ## Every run of a connection -/

section

variable {settings : Settings} {actions : List Step} {state : State}

/-- The turn has done what its request owes so far, and will do the rest. -/
def Follows (settings : Settings) (state : State) : Prop :=
  ∃ stage, Program.accepts (follow settings) (.untold false) state.transcript = some stage ∧
    Program.Complies (follow settings) stage state.connection Settled

/-- A turn starts untold. -/
theorem follows_opened (peer : Peer) (requests : List Request) : Follows settings (.opened settings peer requests) :=
  ⟨.untold false, rfl, serveTurn_follows⟩

/-- Every step keeps it. -/
theorem Follows.step {next : State} {action : Step} (follows : Follows settings state)
    (taken : Monitoring.step settings state action = some next) : Follows settings next := by
  cases action with
  | halfClose =>
    obtain ⟨_, same⟩ := Option.ite_none_right_eq_some.mp taken
    cases same
    exact follows
  | close =>
    cases taken
    exact follows
  | proceed answers =>
    simp only [Monitoring.step] at taken
    split at taken
    · cases taken
    · rename_i operation rest asks
      obtain ⟨⟨answer, requests⟩, _, rfl⟩ := Option.map_eq_some_iff.mp taken
      obtain ⟨stage, accepted, complies⟩ := follows
      rw [asks] at complies
      obtain ⟨reached, followed, continues⟩ := complies answer
      unfold State.turned
      split
      · exact follows_opened _ _
      · exact ⟨reached, Program.accepts_concat accepted followed, continues⟩
  | watch index poll =>
    obtain ⟨_, _, rest⟩ := Option.bind_eq_some_iff.mp taken
    obtain ⟨_, _, rfl⟩ := Option.map_eq_some_iff.mp rest
    exact follows

/-- In every run of a connection, once a check has told a request that its client is gone, the
request does what it owes, in order, and nothing else: when it had listed the keys and history is
enabled it records its failure; its watcher is stopped and joined, and the failure response is
written. The turn does not end before all of this is done. -/
theorem told_requests_fail (reached : run (step settings) (.initial settings) actions = some state)
    {earlier later : List (Program.Exchange Monitoring.Operation Monitoring.Answer)}
    (told : state.transcript = earlier ++ toldCheck :: later) :
    ∃ done rest, duties settings (listedKeys earlier) = done ++ rest ∧
      List.Forall₂ (fun duty exchange => duty.does exchange.1 = true) done later ∧
      (∀ operation next, state.connection = .ask operation next → ∃ duty others, rest = duty :: others ∧
        duty.does operation = true ∧ ∀ answer result, next answer = .done result → others = []) ∧
      ∀ result, state.connection = .done result → rest = [] := by
  obtain ⟨stage, accepted, complies⟩ : Follows settings state :=
    invariant_run (fun _ _ _ follows taken => follows.step taken) (follows_opened _ _) reached
  rw [told, Program.accepts_append] at accepted
  obtain ⟨before, acceptedEarlier, continued⟩ := Option.bind_eq_some_iff.mp accepted
  simp only [Program.accepts] at continued
  split at continued
  rotate_left
  · cases continued
  rename_i after followed
  obtain ⟨listed, rfl, rfl⟩ := follow_toldCheck followed
  obtain ⟨done, rest, owed, all, rfl⟩ := discharged continued
  rw [listed_of_accepts acceptedEarlier listed rfl] at owed
  refine ⟨done, rest, owed, all, fun operation next asks => ?_, fun result ended => ?_⟩
  · rw [asks] at complies
    obtain ⟨answer⟩ := answer_exists operation
    obtain ⟨_, advanced, _⟩ := complies answer
    obtain ⟨duty, others, rfl, does, rfl⟩ := follow_told advanced
    refine ⟨duty, others, rfl, does, fun answer result ends => ?_⟩
    obtain ⟨_, advanced, settles⟩ := complies answer
    obtain ⟨_, _, same, _, rfl⟩ := follow_told advanced
    cases same
    rw [ends] at settles
    exact settles others rfl
  · rw [ended] at complies
    exact complies rest rfl

end

namespace Sample

/-- A request for a signature, which the store and the TPM serve. -/
def answers : (operation : Monitoring.Operation) → Monitoring.Answer operation
  | .receive => (.ok (some Agent.Sample.packet) : Except String (Option Bytes))
  | .within .listKeys => (.ok [Journal.free] : Except RecordCodec.StoreError (List RecordCodec.StoredKey))
  | operation => Monitoring.Sample.answers operation

/-- The client closes the connection when the request has its keys, and the watcher notices. -/
def leaving : List Step :=
  List.replicate 5 (.proceed answers) ++ .close :: Monitoring.Sample.noticing

end Sample

/-- The request fails before it signs, and its failure is recorded before it is answered. -/
theorem told_requests_fail_closed : ∃ state operation next,
    run (step Journal.recording) (.initial Journal.recording)
      (Sample.leaving ++ List.replicate 5 (.proceed Sample.answers)) =
      some state ∧ state.connection = .ask operation next ∧ Duty.refuse.does operation = true := by
  have reached : run (step Journal.recording) (.initial Journal.recording)
      (Sample.leaving ++ List.replicate 5 (.proceed Sample.answers)) = some _ := rfl
  obtain ⟨done, rest, owed, all, asks, _⟩ := told_requests_fail reached (show _ =
    ([⟨.receive, Sample.answers .receive⟩, ⟨.cloneStream, Sample.answers .cloneStream⟩,
      ⟨.spawnWatcher, Sample.answers .spawnWatcher⟩, ⟨.within .cancelled, (false : Bool)⟩,
      ⟨.within .listKeys, Sample.answers (.within .listKeys)⟩] : List _) ++ toldCheck ::
        [⟨.within .clock, (none : Option UInt64)⟩,
          ⟨.within (.appendHistory (History.historyEntry 0 Journal.free .failed)), (.ok () : Except String Unit)⟩,
          ⟨.stop, ()⟩, ⟨.join, ()⟩] from rfl)
  obtain ⟨duty, others, same, does, _⟩ := asks _ _ rfl
  have last := congrArg (List.drop done.length) owed
  rw [List.drop_left, all.length_eq, same] at last
  cases last
  exact ⟨_, _, _, reached, rfl, does⟩

end Keyvisor.Telling
