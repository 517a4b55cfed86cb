import Keyvisor.Links
import Keyvisor.PinInput

/-!
# Which calls the wrapper authorizes

What holds in every state that the wrapper and the agent reach together, in whatever
order their steps and those of all other clients come. The wrapper goes through its
phases; each of them says what it has sent and read on its last connection; and every
connection that carries an authorization comes right after one on which a listing
with that request alone was read. The worker behind that listing had seen the request
pending, and nothing that was pending at the preflight was pending then.
-/

namespace Keyvisor.Authority

open Foundation Foundation.Stream Foundation.Text Control PinExchange Agent Authorization Dialogue Freshness Joint Links
open Exec (startChild superviseRound terminateChild reapRound births spawned)
open Selection (select selectControl chosen announcement Rounded)

/-! ## How far the wrapper has come -/

/-- Operations other than the prompt for a PIN. -/
def unprompted : Exec.Operation → Prop
  | .control (.readExistingPin _ _) => False
  | _ => True

/-- The wrapper is in a phase, and it supervises a command only once the preflight is
over. -/
def At (phase : Selection.Phase) (prepared : Prop) : Exec.Progress → Prop
  | .starting program =>
    (Program.Complies select phase program fun reached outcome => ∀ child, outcome = .ok child → reached = .idle) ∧
      program.Issues unprompted ∧ ∃ born,
        (Program.Complies births born program fun born outcome => born = outcome.isOk) ∧ (born = true → prepared)
  | .supervising _ program => Program.Complies select phase program Rounded ∧ prepared
  | .terminating _ _ program => (Program.Complies select phase program fun _ _ => True) ∧ prepared
  | .ended _ => True

section

open ControlClient

/-- Reading the listed requests asks for no PIN. -/
theorem readRequests_unprompted (count : Nat) :
    (readRequests count).run.Issues fun operation => unprompted (.control operation) := by
  induction count with
  | zero => trivial
  | succ count inductionHypothesis =>
    apply Program.Issues.routine
    · exact Program.issues_adapt _ (Program.issues_call trivial)
    intro line
    apply Program.Issues.routine
    · exact Program.issues_check _ _
    intro request
    apply Program.Issues.routine inductionHypothesis
    exact fun _ => trivial

/-- A listing asks for no PIN. -/
theorem fetchAuthorizationRequests_unprompted :
    fetchAuthorizationRequests.run.Issues fun operation => unprompted (.control operation) := by
  apply Program.Issues.routine
  · exact Program.issues_adapt _ (Program.issues_call trivial)
  intro _
  apply Program.Issues.routine
  · exact Program.issues_adapt _ (Program.issues_call trivial)
  intro _
  apply Program.Issues.routine
  · exact Program.issues_adapt _ (Program.issues_call trivial)
  intro header
  apply Program.Issues.routine
  · exact Program.issues_check _ _
  exact readRequests_unprompted

end

/-- No PIN is asked for before the command is there. -/
theorem startChild_unprompted (arguments : List Bytes) : (startChild arguments).run.Issues unprompted := by
  apply Program.Issues.routine
  · exact Program.issues_check _ _
  intro command
  apply Program.Issues.routine
  · exact Exec.fetchIfRunning_issues trivial trivial fetchAuthorizationRequests_unprompted
  intro requests
  apply Program.Issues.routine
  · exact Program.issues_check _ _
  intro _
  apply Program.Issues.routine
  · exact Exec.installSignals_issues (fun _ => trivial) _
  intro _
  exact Program.issues_adapt _ (Program.issues_call trivial)

/-- The termination of the command has nothing to do with the agent. -/
theorem reapRound_selects (phase : Selection.Phase) :
    Program.Complies select phase reapRound fun _ _ => True := by
  apply Program.Complies.bind
  refine Program.complies_call fun waiting => ⟨phase, rfl, ?_⟩
  cases (waiting : Bool) with
  | true =>
    apply Program.Complies.bind
    refine Program.complies_call fun status => ⟨phase, rfl, ?_⟩
    rcases (status : Except IoError (Option Exec.ExitStatus)) with error | _ | status
    · exact fun _ => ⟨.idle, rfl, trivial⟩
    · exact fun _ => ⟨.idle, rfl, trivial⟩
    · trivial
  | false => exact fun _ => ⟨phase, rfl, fun _ => ⟨phase, rfl, trivial⟩⟩

/-- Ending the child selects nothing. -/
theorem terminateChild_selects (phase : Selection.Phase) (child : UInt32) :
    Program.Complies select phase (terminateChild child) fun _ _ => True := by
  unfold terminateChild
  cases Exec.pidFromRaw child with
  | none => exact reapRound_selects phase
  | some pid => exact fun _ => ⟨phase, rfl, reapRound_selects phase⟩

section

variable {phase : Selection.Phase} {prepared : Prop} {progress : Exec.Progress}

/-- The wrapper starts idle, whatever the preflight has found. -/
theorem at_initial (arguments : List Bytes) (prepared : Prop) :
    At .idle prepared (Exec.Progress.starting (startChild arguments).run) :=
  ⟨Selection.startChild_selects arguments, startChild_unprompted arguments, false,
    Exec.startChild_complies arguments, fun impossible => by cases impossible⟩

/-- A finished part is followed by one in the same phase. -/
theorem at_settle (stands : At phase prepared progress) : At phase prepared progress.settle := by
  cases progress with
  | starting program =>
    cases program with
    | ask operation next => exact stands
    | done outcome =>
      obtain ⟨ends, _, born, begun, ready⟩ := stands
      cases outcome with
      | error message => trivial
      | ok child =>
        obtain rfl : phase = .idle := ends child rfl
        exact ⟨Selection.superviseRound_selects child, ready begun⟩
  | supervising child program =>
    cases program with
    | ask operation next => exact stands
    | done outcome =>
      obtain ⟨ends, ready⟩ := stands
      rcases outcome with message | _ | status
      · exact ⟨terminateChild_selects phase child, ready⟩
      · obtain rfl : phase = .idle := ends rfl
        exact ⟨Selection.superviseRound_selects child, ready⟩
      · trivial
  | terminating child message program =>
    cases program with
    | ask operation next => exact stands
    | done outcome =>
      obtain ⟨_, ready⟩ := stands
      cases outcome with
      | true => trivial
      | false => exact ⟨reapRound_selects phase, ready⟩
  | ended result => trivial

/-- The wrapper's answered questions lead from phase to phase. -/
theorem At.next (stands : At phase prepared progress)
    {reply : (operation : Exec.Operation) → Option (Exec.Answer operation)}
    {exchange : Program.Exchange Exec.Operation Exec.Answer} {after : Exec.Progress}
    (answered : progress.answered reply = some (exchange, after)) :
    ∃ reached, select phase exchange = some reached ∧ (unprompted exchange.1 ∨ prepared) ∧
      ∀ later : Prop, (prepared → later) → (spawned exchange = true → later) → At reached later after := by
  cases Exec.leads_of_answered answered with
  | @start operation next answer =>
    obtain ⟨complies, issues, born, begins, _⟩ := stands
    obtain ⟨reached, advanced, continues⟩ := complies answer
    obtain ⟨delivered, births, further⟩ := begins answer
    refine ⟨reached, advanced, .inl issues.1, fun later _ spawns => at_settle ?_⟩
    refine ⟨continues, issues.2 answer, delivered, further, ?_⟩
    rintro rfl
    apply spawns
    unfold Exec.births at births
    split at births
    · cases births
    · exact Option.some.inj births
  | @supervise child operation next answer =>
    obtain ⟨complies, ready⟩ := stands
    obtain ⟨reached, advanced, continues⟩ := complies answer
    exact ⟨reached, advanced, .inr ready, fun later kept _ => at_settle ⟨continues, kept ready⟩⟩
  | @terminate child message operation next answer =>
    obtain ⟨complies, ready⟩ := stands
    obtain ⟨reached, advanced, continues⟩ := complies answer
    exact ⟨reached, advanced, .inr ready, fun later kept _ => at_settle ⟨continues, kept ready⟩⟩

/-- The exchange records the answer that was given. -/
theorem given_of_answered {after : Exec.Progress}
    {reply : (operation : Exec.Operation) → Option (Exec.Answer operation)}
    {exchange : Program.Exchange Exec.Operation Exec.Answer}
    (answered : progress.answered reply = some (exchange, after)) : reply exchange.1 = some exchange.2 := by
  cases Exec.leads_of_answered answered with
  | start given => exact given
  | supervise given => exact given
  | terminate given => exact given

end

/-! ## What was sent and read -/

/-- A listing with one request was read on a connection whose worker saw that request
alone. -/
structure Lists (link : Link) (seen : PinExchange.State) (request : RequestId × String) : Prop where
  accepted : decoded link.received = some [request]
  looked : link.shown = some seen
  only : shown seen.table = [request]

/-- The connection before a place listed the request alone, after the preflight. -/
def Chosen (preflight : Option Preflight) (links : List Link) (place : Nat) (id : RequestId) : Prop :=
  ∃ (taken : Preflight) (earlier : Nat) (selecting : Link) (seen : PinExchange.State) (keyName : String),
    preflight = some taken ∧ taken.links ≤ earlier ∧ place = earlier + 1 ∧ links[earlier]? = some selecting ∧
      Lists selecting seen (id, keyName)

/-- What the wrapper has sent on a connection. -/
def Worded (preflight : Option Preflight) (links : List Link) (place : Nat) (link : Link) : Prop :=
  link.sent <+: utf8 "LIST" ++ [10] ∨
    ∃ id pin, Chosen preflight links place id ∧ link.sent <+: authorization id (Pin.bytes pin)

/-- Every connection has sent a beginning of one of the two commands, every worker that
looked at the table did so in order, and the preflight found nothing that could still
come back. -/
structure Recorded (process : UInt32) (exchange : PinExchange.State) (preflight : Option Preflight)
    (links : List Link) : Prop where
  worded : ∀ (place : Nat) (link : Link), links[place]? = some link → Worded preflight links place link
  looked : ∀ (place : Nat) (link : Link) (seen : PinExchange.State), links[place]? = some link →
    link.shown = some seen → Snapshot process seen exchange ∧
      ∀ taken, preflight = some taken → taken.links ≤ place → Past taken.exchange seen
  prepared : ∀ taken, preflight = some taken → shown taken.exchange.table = [] ∧ taken.links ≤ links.length ∧
    Past taken.exchange exchange

/-- The wrapper's last connection. -/
structure Using (links : List Link) (place : Nat) (link : Link) : Prop where
  last : links.length = place + 1
  found : links[place]? = some link

/-- The agent's part of a connection may change. -/
structure Same (link new : Link) : Prop where
  sent : new.sent = link.sent
  received : new.received = link.received
  shown : ∀ seen, link.shown = some seen → new.shown = some seen

section

variable {process : UInt32} {exchange next : PinExchange.State} {preflight : Option Preflight} {links : List Link}
  {link old new : Link} {place changed : Nat} {id : RequestId}

/-- A connection is the same as itself. -/
theorem same_rfl (link : Link) : Same link link := ⟨rfl, rfl, fun _ => id⟩

/-- A listing stays one while what was received and shown stays. -/
theorem Lists.same {seen : PinExchange.State} {request : RequestId × String} (lists : Lists link seen request)
    (received : new.received = link.received) (shown : ∀ seen, link.shown = some seen → new.shown = some seen) :
    Lists new seen request := ⟨received ▸ lists.accepted, shown _ lists.looked, lists.only⟩

/-- A choice survives a change of any connection that keeps what was received and shown. -/
theorem Chosen.set (chosen : Chosen preflight links place id) (found : links[changed]? = some old)
    (received : changed + 1 = place → new.received = old.received)
    (shown : ∀ seen, old.shown = some seen → new.shown = some seen) :
    Chosen preflight (links.set changed new) place id := by
  obtain ⟨taken, earlier, selecting, seen, keyName, prepared, later, rfl, present, lists⟩ := chosen
  by_cases here : changed = earlier
  · subst here
    rw [found] at present
    cases present
    refine ⟨taken, changed, new, seen, keyName, prepared, later, rfl, ?_, lists.same (received rfl) shown⟩
    rw [getElem?_set_found found, if_pos rfl]
  · refine ⟨taken, earlier, selecting, seen, keyName, prepared, later, rfl, ?_, lists⟩
    rw [getElem?_set_found found, if_neg here, present]

/-- A choice survives a new connection. -/
theorem Chosen.concat (chosen : Chosen preflight links place id) (last : Link) :
    Chosen preflight (links ++ [last]) place id := by
  obtain ⟨taken, earlier, selecting, seen, keyName, prepared, later, same, present, lists⟩ := chosen
  exact ⟨taken, earlier, selecting, seen, keyName, prepared, later, same, getElem?_before present _, lists⟩

/-- The preflight is taken once. -/
theorem Chosen.inspect (chosen : Chosen preflight links place id) (found : Option Preflight) :
    Chosen (preflight.or found) links place id := by
  obtain ⟨taken, earlier, selecting, seen, keyName, rfl, rest⟩ := chosen
  exact ⟨taken, earlier, selecting, seen, keyName, rfl, rest⟩

/-- What is sent stays one of the two commands while the choice behind it stays. -/
theorem Worded.set (worded : Worded preflight links place link) (found : links[changed]? = some old)
    (received : changed + 1 = place → new.received = old.received)
    (shown : ∀ seen, old.shown = some seen → new.shown = some seen) :
    Worded preflight (links.set changed new) place link := by
  refine worded.imp_right ?_
  rintro ⟨id, pin, chosen, authorizes⟩
  exact ⟨id, pin, chosen.set found received shown, authorizes⟩

/-- The exchange of PINs goes on. -/
theorem Recorded.advance (recorded : Recorded process exchange preflight links)
    (advances : Advances process exchange next) : Recorded process next preflight links := by
  refine ⟨recorded.worded, ?_, ?_⟩
  · intro place link seen found looked
    obtain ⟨snapshot, past⟩ := recorded.looked place link seen found looked
    exact ⟨advances.snapshot snapshot, past⟩
  · intro taken prepared
    obtain ⟨empty, made, past⟩ := recorded.prepared taken prepared
    exact ⟨empty, made, advances.past past⟩

/-- One connection changes. Only the last one may be read further. -/
theorem Recorded.set (recorded : Recorded process exchange preflight links) (found : links[changed]? = some old)
    (worded : Worded preflight links changed new)
    (received : changed + 1 < links.length → new.received = old.received)
    (shown : ∀ seen, old.shown = some seen → new.shown = some seen)
    (looked : ∀ seen, new.shown = some seen → old.shown = some seen ∨ seen = exchange ∧
      Snapshot process seen exchange) :
    Recorded process exchange preflight (links.set changed new) := by
  have kept {place : Nat} {link : Link} (present : links[place]? = some link) :
      changed + 1 = place → new.received = old.received := by
    rintro rfl
    exact received (List.getElem?_eq_some_iff.mp present).1
  refine ⟨?_, ?_, ?_⟩
  · intro place link present
    rw [getElem?_set_found found] at present
    split at present
    · rename_i here
      subst here
      cases present
      exact worded.set found (kept found) shown
    · exact (recorded.worded place link present).set found (kept present) shown
  · intro place link seen present saw
    rw [getElem?_set_found found] at present
    split at present
    · rename_i here
      subst here
      cases present
      rcases looked seen saw with before | ⟨rfl, snapshot⟩
      · exact recorded.looked changed old seen found before
      · refine ⟨snapshot, fun taken prepared _ => ?_⟩
        exact (recorded.prepared taken prepared).2.2
    · exact recorded.looked place link seen present saw
  · intro taken prepared
    rw [List.length_set]
    exact recorded.prepared taken prepared

/-- The wrapper makes a connection. -/
theorem Recorded.concat (recorded : Recorded process exchange preflight links) :
    Recorded process exchange preflight (links ++ [.waiting]) := by
  refine ⟨?_, ?_, ?_⟩
  · intro place link found
    rcases getElem?_concat found with earlier | ⟨_, rfl⟩
    · refine (recorded.worded place link earlier).imp_right ?_
      rintro ⟨id, pin, chosen, authorizes⟩
      exact ⟨id, pin, chosen.concat _, authorizes⟩
    · exact .inl List.nil_prefix
  · intro place link seen found saw
    rcases getElem?_concat found with earlier | ⟨_, rfl⟩
    · exact recorded.looked place link seen earlier saw
    · cases saw
  · intro taken prepared
    obtain ⟨empty, made, past⟩ := recorded.prepared taken prepared
    rw [List.length_append]
    exact ⟨empty, Nat.le_add_right_of_le made, past⟩

/-- The preflight is taken, or was before. -/
theorem Recorded.inspect (recorded : Recorded process exchange preflight links) {found : Option Preflight}
    (inspects : preflight = none → ∀ taken, found = some taken → shown taken.exchange.table = [] ∧
      taken.links = links.length ∧ Past taken.exchange exchange) :
    Recorded process exchange (preflight.or found) links := by
  cases preflight with
  | some taken => exact recorded
  | none =>
    have inspected := inspects rfl
    refine ⟨?_, ?_, ?_⟩
    · intro place link present
      refine (recorded.worded place link present).imp_right ?_
      rintro ⟨id, pin, chosen, authorizes⟩
      exact ⟨id, pin, chosen.inspect found, authorizes⟩
    · intro place link seen present saw
      refine ⟨(recorded.looked place link seen present saw).1, fun taken prepared made => ?_⟩
      obtain ⟨_, all, _⟩ := inspected taken prepared
      have inside := (List.getElem?_eq_some_iff.mp present).1
      omega
    · intro taken prepared
      obtain ⟨empty, all, past⟩ := inspected taken prepared
      exact ⟨empty, Nat.le_of_eq all, past⟩

/-- A request that was chosen is the request of a call that entered the table after
the preflight. -/
theorem call_of_chosen (recorded : Recorded process exchange preflight links)
    (chosen : Chosen preflight links place id) :
    ∃ (taken : Preflight) (selecting : Link) (seen : PinExchange.State) (keyName : String) (call : Nat),
      preflight = some taken ∧ taken.links < place ∧ links[place - 1]? = some selecting ∧
        Lists selecting seen (id, keyName) ∧ id = number process call ∧ Enrolled exchange call ∧
        ¬ Enrolled taken.exchange call := by
  obtain ⟨taken, earlier, selecting, seen, keyName, prepared, later, rfl, present, lists⟩ := chosen
  obtain ⟨snapshot, past⟩ := recorded.looked earlier selecting seen present lists.looked
  obtain ⟨call, named, enrolled, stays⟩ := call_of_shown snapshot.sound lists.only
  refine ⟨taken, selecting, seen, keyName, call, prepared, Nat.lt_succ_of_le later, present, lists, named,
    snapshot.enrolled call enrolled, fun before => stays (past taken prepared later call before)⟩

/-- A chosen identifier is plain, as every identifier in the table is. -/
theorem plain_of_chosen (recorded : Recorded process exchange preflight links)
    (chosen : Chosen preflight links place id) : Plain id := by
  obtain ⟨_, _, _, _, call, _, _, _, _, rfl, _⟩ := call_of_chosen recorded chosen
  exact plain_requestId process _

/-- Every recorded connection spells one of the two commands. -/
theorem Recorded.spelled (recorded : Recorded process exchange preflight links)
    (found : links[place]? = some link) : Spelled link := by
  refine (recorded.worded place link found).imp_right ?_
  rintro ⟨id, pin, chosen, authorizes⟩
  exact ⟨id, pin, plain_of_chosen recorded chosen, authorizes⟩

end

/-! ## The wrapper's steps -/

/-- The preflight was taken before the connection at a place was made, if at all. -/
def Later (preflight : Option Preflight) (place : Nat) : Prop :=
  ∀ taken, preflight = some taken → taken.links ≤ place

/-- What a phase says of the last connection. -/
def Stands (preflight : Option Preflight) (links : List Link) : Selection.Phase → Prop
  | .absent => preflight.isSome
  | .connected => ∃ place link, Using links place link ∧ link.sent = [] ∧ link.received = [] ∧ Later preflight place
  | .listing lines => ∃ place link, Using links place link ∧ link.sent = utf8 "LIST" ++ [10] ∧
      link.received = lines ∧ Later preflight place
  | .pinned id pin => Chosen preflight links links.length id ∧ ∃ value : Pin, value.bytes = pin
  | .opened id pin => ∃ place link, Using links place link ∧ link.sent = [] ∧ Chosen preflight links place id ∧
      ∃ value : Pin, value.bytes = pin
  | .announced id pin => ∃ place link, Using links place link ∧ link.sent = announcement id pin ∧
      Chosen preflight links place id ∧ ∃ value : Pin, value.bytes = pin
  | _ => True

/-- The connections are in order and as the phase says. -/
structure Fits (process : UInt32) (controllers : List Controller) (exchange : PinExchange.State)
    (preflight : Option Preflight) (links : List Link) (phase : Selection.Phase) : Prop where
  connected : Connected controllers links
  recorded : Recorded process exchange preflight links
  stands : Stands preflight links phase

section

variable {process : UInt32} {controllers : List Controller} {exchange : PinExchange.State}
  {preflight : Option Preflight} {links : List Link} {link old new : Link} {place changed : Nat}
  {phase reached : Selection.Phase}

/-- Equal words begin each other. -/
theorem prefix_of_eq {first second : Bytes} (same : first = second) : first <+: second := by
  subst same
  exact List.prefix_rfl

/-- The current connection is the one in use. -/
theorem using_of_current (current : links[links.length - 1]? = some link) : Using links (links.length - 1) link := by
  have inside := (List.getElem?_eq_some_iff.mp current).1
  exact ⟨by omega, current⟩

/-- The connection in use is the current one. -/
theorem Using.current (last : Using links place link) : links[links.length - 1]? = some link := by
  have here : links.length - 1 = place := by
    rw [last.last]
    rfl
  rw [here]
  exact last.found

/-- Only one connection is in use. -/
theorem Using.unique (last : Using links place link) {other : Nat} {again : Link} (also : Using links other again) :
    place = other ∧ link = again := by
  have current := last.current
  rw [also.current] at current
  cases current
  exact ⟨Nat.succ.inj (last.last.symm.trans also.last), rfl⟩

/-- The connection in use is changed in place. -/
theorem Using.modify (last : Using links place link) (change : Link → Link) :
    links.modify (links.length - 1) change = links.set place (change link) := by
  rw [modify_found last.current, last.last]
  rfl

/-- A changed connection stays in use. -/
theorem Using.set (last : Using links place link) (new : Link) : Using (links.set place new) place new := by
  refine ⟨by rw [List.length_set, last.last], ?_⟩
  rw [getElem?_set_found last.found, if_pos rfl]

/-- A new connection is in use. -/
theorem using_concat (links : List Link) (last : Link) : Using (links ++ [last]) links.length last :=
  ⟨List.length_append, List.getElem?_concat_length⟩

/-- The agent changes its part of a connection. -/
theorem Using.same (last : Using links place link) (found : links[changed]? = some old) (same : Same old new) :
    ∃ after, Using (links.set changed new) place after ∧ Same link after := by
  by_cases here : changed = place
  · subst here
    rw [last.found] at found
    cases found
    exact ⟨new, last.set new, same⟩
  · refine ⟨link, ⟨by rw [List.length_set, last.last], ?_⟩, same_rfl link⟩
    rw [getElem?_set_found found, if_neg here, last.found]

/-- The phase stands while the agent changes its part of a connection. -/
theorem Stands.same (stands : Stands preflight links phase) (found : links[changed]? = some old)
    (same : Same old new) : Stands preflight (links.set changed new) phase := by
  cases phase with
  | idle | sent => trivial
  | absent => exact stands
  | connected =>
    obtain ⟨place, link, last, sent, received, later⟩ := stands
    obtain ⟨after, still, agrees⟩ := last.same found same
    exact ⟨place, after, still, agrees.sent.trans sent, agrees.received.trans received, later⟩
  | listing lines =>
    obtain ⟨place, link, last, sent, received, later⟩ := stands
    obtain ⟨after, still, agrees⟩ := last.same found same
    exact ⟨place, after, still, agrees.sent.trans sent, agrees.received.trans received, later⟩
  | pinned id pin =>
    obtain ⟨chosen, value⟩ := stands
    have still := chosen.set found (fun _ => same.received) same.shown
    rw [← List.length_set] at still
    exact ⟨still, value⟩
  | opened id pin =>
    obtain ⟨place, link, last, sent, chosen, value⟩ := stands
    obtain ⟨after, still, agrees⟩ := last.same found same
    exact ⟨place, after, still, agrees.sent.trans sent, chosen.set found (fun _ => same.received) same.shown, value⟩
  | announced id pin =>
    obtain ⟨place, link, last, sent, chosen, value⟩ := stands
    obtain ⟨after, still, agrees⟩ := last.same found same
    exact ⟨place, after, still, agrees.sent.trans sent, chosen.set found (fun _ => same.received) same.shown, value⟩

/-- The next connection is made with nothing sent. -/
theorem Fits.connect (fits : Fits process controllers exchange preflight links phase)
    {answer : ControlClient.Answer .connectControl}
    (advanced : selectControl phase ⟨.connectControl, answer⟩ = some reached) (length : Nat) :
    Fits process controllers exchange preflight (crossed length links ⟨.control .connectControl, answer⟩) reached := by
  obtain ⟨connected, recorded, stands⟩ := fits
  have more := using_concat links .waiting
  cases (answer : Except String Unit) with
  | ok _ =>
    cases phase with
    | idle =>
      cases advanced
      refine ⟨connected.concat, recorded.concat, links.length, _, more, rfl, rfl, ?_⟩
      exact fun taken prepared => (recorded.prepared taken prepared).2.1
    | pinned id pin =>
      cases advanced
      obtain ⟨chosen, value⟩ := stands
      exact ⟨connected.concat, recorded.concat, links.length, _, more, rfl, chosen.concat _, value⟩
    | _ => cases advanced
  | error message =>
    cases phase with
    | idle | pinned id pin =>
      cases advanced
      exact ⟨connected, recorded, trivial⟩
    | _ => cases advanced

/-- Something is sent on the last connection, all of it or a part. -/
theorem fits_write (connected : Connected controllers links) (recorded : Recorded process exchange preflight links)
    (last : Using links place link) {bytes : Bytes} (worded : Worded preflight links place (link.wrote bytes))
    {next : Selection.Phase} (stands : Stands preflight (links.set place (link.wrote bytes)) next)
    (answer : ControlClient.Answer (.write bytes)) (length : Nat) :
    Fits process controllers exchange preflight (crossed length links ⟨.control (.write bytes), answer⟩)
      (.onSuccess (answer : Except IoError Unit) next) := by
  have part (some : Bytes) (begins : some <+: bytes) : Connected controllers (links.set place (link.wrote some)) ∧
      Recorded process exchange preflight (links.set place (link.wrote some)) := by
    have begun : (link.wrote some).sent <+: (link.wrote bytes).sent := (List.prefix_append_right_inj _).mpr begins
    constructor
    · exact connected.set last.found ((connected.attended place link last.found).wrote some) rfl
    · refine recorded.set last.found ?_ (fun _ => rfl) (fun _ => id) (fun _ => .inl)
      refine worded.imp begun.trans ?_
      rintro ⟨id, pin, chosen, authorizes⟩
      exact ⟨id, pin, chosen, begun.trans authorizes⟩
  cases (answer : Except IoError Unit) with
  | ok _ =>
    obtain ⟨still, kept⟩ := part bytes List.prefix_rfl
    have crosses : crossed length links ⟨.control (.write bytes), (.ok () : Except IoError Unit)⟩ =
        links.set place (link.wrote bytes) := last.modify _
    rw [crosses]
    exact ⟨still, kept, stands⟩
  | error error =>
    obtain ⟨still, kept⟩ := part (bytes.take length) (List.take_prefix _ _)
    have crosses : crossed length links ⟨.control (.write bytes), (.error error : Except IoError Unit)⟩ =
        links.set place (link.wrote (bytes.take length)) := last.modify _
    rw [crosses]
    exact ⟨still, kept, trivial⟩

/-- What the wrapper writes leaves its choice. -/
theorem chosen_wrote {id : RequestId} (chosen : Chosen preflight links place id) (last : Using links place link)
    (bytes : Bytes) : Chosen preflight (links.set place (link.wrote bytes)) place id :=
  chosen.set last.found (fun impossible => absurd impossible (Nat.succ_ne_self place)) fun _ shown => shown

/-- The commands are sent in the order of the phases. -/
theorem Fits.write (fits : Fits process controllers exchange preflight links phase) {bytes : Bytes}
    {answer : ControlClient.Answer (.write bytes)}
    (advanced : selectControl phase ⟨.write bytes, answer⟩ = some reached) (length : Nat) :
    Fits process controllers exchange preflight (crossed length links ⟨.control (.write bytes), answer⟩) reached := by
  obtain ⟨connected, recorded, stands⟩ := fits
  cases phase with
  | connected =>
    simp only [selectControl] at advanced
    split at advanced
    · rename_i list
      subst list
      cases advanced
      obtain ⟨place, link, last, sent, received, later⟩ := stands
      have whole : (link.wrote (utf8 "LIST" ++ [10])).sent = utf8 "LIST" ++ [10] :=
        congrArg (· ++ (utf8 "LIST" ++ [10])) sent
      refine fits_write connected recorded last (.inl (prefix_of_eq whole)) ?_ answer length
      exact ⟨place, _, last.set _, whole, received, later⟩
    · cases advanced
  | opened id pin =>
    simp only [selectControl] at advanced
    split at advanced
    · rename_i announces
      subst announces
      cases advanced
      obtain ⟨place, link, last, sent, chosen, value, rfl⟩ := stands
      have whole : (link.wrote (announcement id value.bytes)).sent = announcement id value.bytes :=
        congrArg (· ++ announcement id value.bytes) sent
      have worded : (link.wrote (announcement id value.bytes)).sent <+: authorization id value.bytes := by
        rw [whole]
        exact List.prefix_append _ _
      refine fits_write connected recorded last (.inr ⟨id, value, chosen, worded⟩) ?_ answer length
      exact ⟨place, _, last.set _, whole, chosen_wrote chosen last _, value, rfl⟩
    · cases advanced
  | announced id pin =>
    simp only [selectControl] at advanced
    split at advanced
    · rename_i entered
      subst entered
      cases advanced
      obtain ⟨place, link, last, sent, chosen, value, rfl⟩ := stands
      have whole : (link.wrote value.bytes).sent = authorization id value.bytes := congrArg (· ++ value.bytes) sent
      have ends : Stands preflight (links.set place (link.wrote value.bytes)) .sent := trivial
      exact fits_write connected recorded last (.inr ⟨id, value, chosen, prefix_of_eq whole⟩) ends answer length
    · cases advanced
  | _ => cases advanced

/-- The next line is read on the last connection. -/
theorem Fits.readLine (fits : Fits process controllers exchange preflight links phase)
    {answer : ControlClient.Answer .readControlLine}
    (advanced : selectControl phase ⟨.readControlLine, answer⟩ = some reached) {source : Source}
    (given : answer = ((ControlClient.readControlLine source).map Prod.fst : Except String Bytes))
    (last : Using links place link) (begins : source.remaining <+: link.unread) (length : Nat) :
    Fits process controllers exchange preflight (crossed length links ⟨.control .readControlLine, answer⟩) reached := by
  obtain ⟨connected, recorded, stands⟩ := fits
  subst given
  cases outcome : ControlClient.readControlLine source with
  | error message =>
    rw [outcome] at advanced
    refine ⟨connected, recorded, ?_⟩
    cases phase with
    | listing lines | sent =>
      cases advanced
      trivial
    | _ => cases advanced
  | ok result =>
    obtain ⟨line, after⟩ := result
    rw [outcome] at advanced
    obtain ⟨split, single⟩ := readReply_split outcome
    obtain ⟨missing, whole⟩ := begins
    have next : link.unread = line ++ 10 :: (after.remaining ++ missing) := by
      rw [← whole, split, List.append_assoc, List.cons_append]
    have crosses : crossed length links ⟨.control .readControlLine, (.ok line : Except String Bytes)⟩ =
        links.set place (link.heard line) := last.modify _
    have still : Connected controllers (links.set place (link.heard line)) :=
      connected.set last.found ((connected.attended place link last.found).heard next single) rfl
    have unchosen : place + 1 < links.length → (link.heard line).received = link.received := by
      rw [last.last]
      exact fun impossible => absurd impossible (Nat.lt_irrefl _)
    have kept : Recorded process exchange preflight (links.set place (link.heard line)) :=
      recorded.set last.found (recorded.worded place link last.found) unchosen (fun _ => id) fun _ => .inl
    show Fits process controllers exchange preflight
      (crossed length links ⟨.control .readControlLine, (.ok line : Except String Bytes)⟩) reached
    rw [crosses]
    refine ⟨still, kept, ?_⟩
    cases phase with
    | listing lines =>
      cases advanced
      obtain ⟨other, again, also, sent, received, later⟩ := stands
      obtain ⟨rfl, rfl⟩ := last.unique also
      exact ⟨place, _, last.set _, sent, congrArg (· ++ [line]) received, later⟩
    | sent =>
      cases advanced
      trivial
    | _ => cases advanced

/-- An accepted listing is what the worker saw. -/
theorem Fits.told {lines : List Bytes} (fits : Fits process controllers exchange preflight links (.listing lines))
    {requests : List (RequestId × String)} (accepted : decoded lines = some requests) :
    ∃ place link seen, Using links place link ∧ link.received = lines ∧ link.shown = some seen ∧
      requests.Perm (shown seen.table) ∧ Later preflight place := by
  obtain ⟨connected, recorded, place, link, last, sent, rfl, later⟩ := fits
  have attended := connected.attended place link last.found
  cases here : link.worker with
  | none =>
    rw [(attended.quiet here).1] at accepted
    cases accepted
  | some worker =>
    obtain ⟨controller, voice, _, talks⟩ := attended.talks here
    obtain ⟨seen, saw, shows⟩ := talks.told (prefix_of_eq sent)
      (fun seen saw => ⟨exchange, (recorded.looked place link seen last.found saw).1⟩) accepted
    exact ⟨place, link, seen, last, rfl, saw, shows, later⟩

/-- A request is chosen only when the listing was decoded to it alone. -/
theorem decoded_of_chosen {lines : List Bytes} {id : RequestId} (single : chosen lines = some id) :
    ∃ keyName, decoded lines = some [(id, keyName)] := by
  unfold chosen at single
  split at single
  · rename_i named keyName accepted
    cases single
    exact ⟨keyName, accepted⟩
  · cases single

/-- A PIN is asked for when a listing had one request. -/
theorem Fits.prompt (fits : Fits process controllers exchange preflight links phase) {context : String}
    {input : ControlClient.SecretInput} {answer : ControlClient.Answer (.readExistingPin context input)}
    (advanced : selectControl phase ⟨.readExistingPin context input, answer⟩ = some reached)
    (prepared : preflight.isSome)
    (valid : ∀ pin, (answer : Except String Bytes) = .ok pin → (ControlClient.validatePin pin "PIN").isOk) :
    Fits process controllers exchange preflight links reached := by
  refine ⟨fits.connected, fits.recorded, ?_⟩
  cases phase with
  | listing lines =>
    rcases (answer : Except String Bytes) with message | pin
    · obtain ⟨id, _, rfl⟩ := Option.map_eq_some_iff.mp advanced
      trivial
    · obtain ⟨id, single, rfl⟩ := Option.map_eq_some_iff.mp advanced
      obtain ⟨keyName, accepted⟩ := decoded_of_chosen single
      obtain ⟨place, link, seen, last, rfl, saw, shows, later⟩ := fits.told accepted
      obtain ⟨taken, rfl⟩ := Option.isSome_iff_exists.mp prepared
      have lists : Lists link seen (id, keyName) := ⟨accepted, saw, List.perm_singleton.mp shows.symm⟩
      refine ⟨⟨taken, place, link, seen, keyName, rfl, later taken rfl, last.last, last.found, lists⟩, ?_⟩
      have accepts := valid pin rfl
      cases checked : ControlClient.validatePin pin "PIN" with
      | error message =>
        rw [checked] at accepts
        cases accepts
      | ok same =>
        have equal := ((PinInput.validatePin_eq_ok pin same "PIN").mp checked).1
        exact equal ▸ ControlClient.pin_of_validatePin checked
  | _ =>
    rcases (answer : Except String Bytes) with message | pin
    · cases advanced
    · cases advanced

/-- The preflight ends with the start of the command, after an empty listing. -/
theorem Fits.start (fits : Fits process controllers exchange preflight links phase) {command : List Bytes}
    {answer : Exec.Answer (.spawn command)} (advanced : select phase ⟨.spawn command, answer⟩ = some reached)
    {found : Option Preflight}
    (inspects : found = (links[links.length - 1]?.bind Link.shown).map fun seen => ⟨seen, links.length⟩) :
    Fits process controllers exchange (preflight.or found) links reached ∧ (preflight.or found).isSome := by
  obtain ⟨connected, recorded, stands⟩ := fits
  cases phase with
  | absent =>
    cases advanced
    obtain ⟨taken, rfl⟩ := Option.isSome_iff_exists.mp stands
    exact ⟨⟨connected, recorded, trivial⟩, rfl⟩
  | listing lines =>
    simp only [select] at advanced
    split at advanced
    · rename_i accepted
      cases advanced
      obtain ⟨place, link, seen, last, _, saw, shows, _⟩ := Fits.told ⟨connected, recorded, stands⟩ accepted
      have empty : shown seen.table = [] := List.nil_perm.mp shows
      have taken : found = some ⟨seen, links.length⟩ := by
        rw [inspects, last.current, Option.bind_some, saw]
        rfl
      have snapshot := (recorded.looked place link seen last.found saw).1
      refine ⟨⟨connected, recorded.inspect ?_, trivial⟩, ?_⟩
      · rintro _ preflight same
        cases taken.symm.trans same
        exact ⟨empty, rfl, snapshot.past empty⟩
      · rw [taken, Option.isSome_or]
        exact Bool.or_true _
    · cases advanced
  | _ => cases advanced

end

/-! ## Whole runs -/

/-- What holds in every state of a run while the request counter does not wrap. -/
structure Good (process : UInt32) (state : Joint.State) : Prop where
  orderly : Orderly process state.agent
  down : state.launched = false → state.agent.exchange = PinExchange.initial ∧ state.links = []
  wrapped : ∃ phase, At phase state.preflight.isSome state.wrapper.progress ∧
    Fits process state.agent.controllers.states state.agent.exchange state.preflight state.links phase

/-- Before anything happened the joint system is good. -/
theorem good_initial (process : UInt32) (arguments : List Bytes) : Good process (Joint.initial arguments) := by
  have unused : Recorded process PinExchange.initial none [] := by constructor <;> simp
  exact ⟨orderly_initial, fun _ => ⟨rfl, rfl⟩, .idle, at_settle (at_initial arguments _),
    connected_nil _, unused, trivial⟩

section

variable {process : UInt32} {state : Joint.State} {phase reached : Selection.Phase} {source : Source}

/-- An operation that neither uses the connections nor takes the preflight. -/
theorem Fits.aside {controllers : List Controller} {exchange : PinExchange.State} {preflight : Option Preflight}
    {links : List Link} (fits : Fits process controllers exchange preflight links phase)
    (stands : Stands preflight links reached) :
    Fits process controllers exchange (preflight.or none) links reached := by
  rw [Option.or_none]
  exact ⟨fits.connected, fits.recorded, stands⟩

/-- The connections after an exchange of the control client. -/
theorem Fits.control {operation : ControlClient.Operation} {answer : ControlClient.Answer operation}
    (fits : Fits process state.agent.controllers.states state.agent.exchange state.preflight state.links phase)
    (advanced : selectControl phase ⟨operation, answer⟩ = some reached)
    (allowed : permitted state source ⟨.control operation, answer⟩)
    (ready : unprompted (.control operation) ∨ state.preflight.isSome)
    {environment : (operation : Exec.Operation) → Exec.Answer operation}
    (given : Exec.answerTo state.wrapper.child (reads source environment) (.control operation) = some answer)
    (length : Nat) :
    Fits process state.agent.controllers.states state.agent.exchange (state.preflight.or none)
      (crossed length state.links ⟨.control operation, answer⟩) reached := by
  rw [Option.or_none]
  cases operation with
  | connectControl => exact fits.connect advanced length
  | write bytes => exact fits.write advanced length
  | flush =>
    refine ⟨fits.connected, fits.recorded, ?_⟩
    cases phase with
    | sent =>
      cases advanced
      trivial
    | _ => cases advanced
  | readControlLine =>
    obtain ⟨link, current, begins⟩ := (Option.any_eq_true _ _).mp allowed
    exact fits.readLine advanced (Option.some.inj given).symm (using_of_current current)
      (List.isPrefixOf_iff_prefix.mp begins) length
  | readExistingPin context input =>
    refine fits.prompt advanced (ready.resolve_left id) fun pin entered => ?_
    obtain rfl : answer = (.ok pin : Except String Bytes) := entered
    exact allowed
  | println text =>
    cases advanced
    exact fits

/-- The wrapper's steps keep its connections in order, and the command is started when
the preflight was taken. -/
theorem Fits.answered {exchange : Program.Exchange Exec.Operation Exec.Answer}
    (fits : Fits process state.agent.controllers.states state.agent.exchange state.preflight state.links phase)
    (down : state.launched = false → state.agent.exchange = PinExchange.initial ∧ state.links = [])
    (advanced : select phase exchange = some reached) (allowed : permitted state source exchange)
    (ready : unprompted exchange.1 ∨ state.preflight.isSome)
    {environment : (operation : Exec.Operation) → Exec.Answer operation}
    (given : Exec.answerTo state.wrapper.child (reads source environment) exchange.1 = some exchange.2)
    (length : Nat) :
    Fits process state.agent.controllers.states state.agent.exchange (state.preflight.or (inspected state exchange))
        (crossed length state.links exchange) reached ∧
      (spawned exchange = true → (state.preflight.or (inspected state exchange)).isSome) := by
  obtain ⟨operation, answer⟩ := exchange
  cases operation with
  | control operation =>
    exact ⟨fits.control advanced allowed ready given length, fun impossible => by cases impossible⟩
  | spawn command =>
    obtain ⟨started, taken⟩ := fits.start advanced (Eq.refl (inspected state ⟨.spawn command, answer⟩))
    exact ⟨started, fun _ => taken⟩
  | symlinkMetadata =>
    refine ⟨?_, fun impossible => by cases impossible⟩
    cases phase with
    | idle =>
      cases (answer : Except IoError Unit) with
      | ok _ =>
        cases advanced
        exact fits.aside trivial
      | error error =>
        cases advanced
        by_cases missing : error.kind = .notFound
        · have inspects : inspected state ⟨.symlinkMetadata, (.error error : Except IoError Unit)⟩ =
              some ⟨state.agent.exchange, state.links.length⟩ := if_pos missing
          rw [inspects, if_pos missing]
          have launched : state.launched = false := by simpa [permitted, missing] using allowed
          obtain ⟨unused, _⟩ := down launched
          have empty : shown state.agent.exchange.table = [] := by rw [unused]; rfl
          refine ⟨fits.connected, fits.recorded.inspect ?_, ?_⟩
          · rintro _ taken ⟨⟩
            refine ⟨empty, rfl, ?_⟩
            rw [unused]
            exact past_of_empty (sound_initial process) rfl
          · show (state.preflight.or _).isSome
            rw [Option.isSome_or]
            exact Bool.or_true _
        · have inspects : inspected state ⟨.symlinkMetadata, (.error error : Except IoError Unit)⟩ = none :=
            if_neg missing
          rw [inspects, if_neg missing]
          exact fits.aside trivial
    | _ => cases advanced
  | sleep milliseconds =>
    cases advanced
    exact ⟨fits.aside trivial, fun impossible => by cases impossible⟩
  | _ =>
    cases advanced
    exact ⟨fits.aside fits.stands, fun impossible => by cases impossible⟩

end

section

variable {settings : Runtime.Settings} {process : UInt32} {state next : Joint.State} {action : Joint.Action}

/-- Calls are never forgotten. -/
theorem calls_grow (taken : Joint.step settings process state action = some next) :
    state.agent.exchange.calls.length ≤ next.agent.exchange.calls.length := by
  cases Joint.takes_of_step settings process taken with
  | agent launched aside inner => exact calls_step inner
  | accept found waits inner => exact calls_step inner
  | serve found attended runs continues inner => exact calls_step inner
  | _ => exact Nat.le_refl _

/-- What a worker has just seen is the table as it stands. -/
theorem looked_now {exchange seen : PinExchange.State} {exchanged : Program.Exchange Control.Operation Control.Answer}
    (looked : Link.looked exchange exchanged = some seen) (now : Snapshot process exchange exchange) :
    seen = exchange ∧ Snapshot process seen exchange := by
  unfold Link.looked at looked
  split at looked
  · cases looked
    exact ⟨rfl, now⟩
  · cases looked

/-- Without an agent there are no connections. -/
theorem crossed_nil {source : Source} {exchange : Program.Exchange Exec.Operation Exec.Answer}
    (allowed : permitted state source exchange) (launched : state.launched = false) (length : Nat) :
    crossed length [] exchange = [] := by
  unfold crossed
  split
  · rename_i answer
    cases (answer : Except String Unit) with
    | ok _ => exact Bool.noConfusion (launched.symm.trans allowed)
    | error message => rfl
  · rename_i bytes answer
    cases (answer : Except IoError Unit) <;> rfl
  · rename_i answer
    cases (answer : Except String Bytes) <;> rfl
  · rfl

/-- Every step of the two processes keeps everything in order. -/
theorem Good.step (good : Good process state) (few : state.agent.exchange.calls.length < 2 ^ 64)
    (taken : Joint.step settings process state action = some next) : Good process next := by
  obtain ⟨orderly, down, phase, stands, fits⟩ := good
  have up {place : Nat} {link : Link} (found : state.links[place]? = some link) : state.launched ≠ false := by
    intro launched
    rw [(down launched).2] at found
    cases found
  cases Joint.takes_of_step settings process taken with
  | launch => exact ⟨orderly, (fun impossible => by cases impossible), phase, stands, fits⟩
  | agent launched aside inner =>
    refine ⟨orderly.step inner, fun idle => ?_, phase, stands, ?_⟩
    · cases launched.symm.trans idle
    · exact ⟨fits.connected.foreign aside inner, fits.recorded.advance (advances_of_step inner), fits.stands⟩
  | @accept place link agent found waits inner =>
    refine ⟨orderly.step inner, fun launched => absurd launched (up found), phase, stands, ?_⟩
    have same : Same link (link.accepted state.agent.controllers.states.length) := ⟨rfl, rfl, fun _ => id⟩
    have worded : Worded state.preflight state.links place (link.accepted state.agent.controllers.states.length) :=
      fits.recorded.worded place link found
    have kept := fits.recorded.set found worded (fun _ => rfl) same.shown fun _ => .inl
    exact ⟨fits.connected.accept found waits inner, kept.advance (advances_of_step inner), fits.stands.same found same⟩
  | @serve place worker length link controller source environment exchanged rest agent found attended runs continues
      inner clean heeded =>
    refine ⟨orderly.step inner, fun launched => absurd launched (up found), phase, stands, ?_⟩
    have same : Same link (link.served length state.agent.exchange exchanged) := by
      refine ⟨rfl, rfl, fun seen saw => ?_⟩
      show link.shown.or _ = some seen
      rw [saw]
      rfl
    have looked (seen : PinExchange.State)
        (saw : (link.served length state.agent.exchange exchanged).shown = some seen) :
        link.shown = some seen ∨ seen = state.agent.exchange ∧ Snapshot process seen state.agent.exchange := by
      rcases Option.or_eq_some_iff.mp saw with before | ⟨_, now⟩
      · exact .inl before
      · exact .inr (looked_now now (snapshot_now orderly few))
    have worded : Worded state.preflight state.links place (link.served length state.agent.exchange exchanged) :=
      fits.recorded.worded place link found
    have kept := fits.recorded.set found worded (fun _ => rfl) same.shown looked
    refine ⟨?_, kept.advance (advances_of_step inner), fits.stands.same found same⟩
    exact fits.connected.serve found attended runs continues inner clean heeded (fits.recorded.spelled found) length
  | @wrapper source length environment exchange progress asked allowed =>
    obtain ⟨reached, advanced, ready, further⟩ := stands.next asked
    obtain ⟨still, spawns⟩ := fits.answered down advanced allowed ready (given_of_answered asked) length
    refine ⟨orderly, ?_, reached, further _ ?_ spawns, still⟩
    · intro launched
      obtain ⟨unused, none⟩ := down launched
      refine ⟨unused, ?_⟩
      show crossed length state.links exchange = []
      rw [none]
      exact crossed_nil allowed launched length
    · intro prepared
      rw [Option.isSome_or, prepared]
      rfl
  | exit inner =>
    cases Exec.takes_of_step inner with
    | exit status runs => exact ⟨orderly, down, phase, stands, fits⟩

/-- Every run with fewer than `2 ^ 64` calls leaves the joint system good. -/
theorem good_of_run {arguments : List Bytes} {actions : List Joint.Action}
    (reached : Transition.run (Joint.step settings process) (Joint.initial arguments) actions = some state)
    (few : state.agent.exchange.calls.length < 2 ^ 64) : Good process state := by
  have kept (earlier : Joint.State) (action : Joint.Action) (later : Joint.State)
      (good : earlier.agent.exchange.calls.length < 2 ^ 64 → Good process earlier)
      (taken : Joint.step settings process earlier action = some later)
      (fewer : later.agent.exchange.calls.length < 2 ^ 64) : Good process later := by
    have before := Nat.lt_of_le_of_lt (calls_grow taken) fewer
    exact (good before).step before taken
  exact Transition.invariant_run kept (fun _ => good_initial process arguments) reached few

end

/-! ## Fresh authorizations -/

/-- The authorization on a connection is for a request that was listed alone on the
connection before, after the preflight. It belongs to a call that entered the table
after the preflight, which found the table empty, and whatever the worker behind the
connection sends goes to that call. -/
def Fresh (process : UInt32) (state : Joint.State) (place : Nat) (link : Link) (id : RequestId) : Prop :=
  ∃ (taken : Preflight) (selecting : Link) (seen : PinExchange.State) (keyName : String) (call : Nat),
    state.preflight = some taken ∧ shown taken.exchange.table = [] ∧ taken.links < place ∧
    state.links[place - 1]? = some selecting ∧ Lists selecting seen (id, keyName) ∧ id = number process call ∧
    Enrolled state.agent.exchange call ∧ ¬ Enrolled taken.exchange call ∧
    ∀ (worker : Nat) (controller : Controller), link.worker = some worker →
      state.agent.controllers.states[worker]? = some controller →
        ∀ (target : Nat) (pin : Pin), (target, pin) ∈ valuesSent controller.transcript → target = call

section

variable {process : UInt32} {state : Joint.State}

/-- Two announcements of which one is a beginning of the other name one request. -/
theorem announced_unique {first second rest other : Bytes} (absent : 32 ∉ first) (missing : 32 ∉ second)
    (begins : utf8 "AUTHORIZE " ++ (first ++ 32 :: rest) <+: utf8 "AUTHORIZE " ++ (second ++ 32 :: other)) :
    first = second := by
  obtain ⟨later, whole⟩ := (List.prefix_append_right_inj _).mp begins
  rw [List.append_assoc, List.cons_append] at whole
  exact (line_unique absent missing whole).1

/-- An authorization begins with the identifier it is for. -/
theorem authorization_announces (id : RequestId) (pin : Bytes) :
    ∃ rest, authorization id pin = utf8 "AUTHORIZE " ++ (id ++ 32 :: rest) :=
  ⟨decimal pin.length ++ ([10] ++ pin), by simp [authorization]⟩

/-- What a worker sends goes to the call whose request it was told. -/
theorem target_of_sent (good : Good process state) (sound : Sound process state.agent.exchange) {place worker : Nat}
    {link : Link} {controller : Controller} (found : state.links[place]? = some link)
    (here : link.worker = some worker) (present : state.agent.controllers.states[worker]? = some controller)
    {target : Nat} {pin : Pin} (sent : (target, pin) ∈ valuesSent controller.transcript) :
    target < state.agent.exchange.calls.length ∧ authorization (number process target) pin.bytes <+: link.sent := by
  obtain ⟨orderly, _, phase, _, fits⟩ := good
  have linked := orderly.connections.linked worker controller present
  have alone : valuesSent controller.transcript = [(target, pin)] := by
    obtain ⟨phase, accepted, _⟩ := linked
    have accounts := Control.accounts_of_accepts accepted
    rw [accounts.sent] at sent ⊢
    rw [Option.mem_toList.mp sent]
    rfl
  obtain ⟨index, id, _, taker, read⟩ := Approval.delivered_of_sent linked alone
  obtain ⟨call, at_target, named, _⟩ := sound.owned index _ target taker rfl
  obtain ⟨again, voice, also, talks⟩ := (fits.connected.attended place link found).talks here
  rw [present] at also
  cases also
  obtain rfl : id = number process target := named
  refine ⟨PinExchange.index_lt at_target, (talks.commanded _ pin ?_).2⟩
  rw [read]
  exact List.mem_singleton_self _

end

/-- The wrapper authorizes fresh requests only. -/
theorem authorizations_are_fresh (settings : Runtime.Settings) (process : UInt32) (arguments : List Bytes)
    (actions : List Joint.Action) (state : Joint.State)
    (reached : Transition.run (Joint.step settings process) (Joint.initial arguments) actions = some state)
    (few : state.agent.exchange.calls.length < 2 ^ 64) :
    ∀ (place : Nat) (link : Link) (id : RequestId) (rest : Bytes), state.links[place]? = some link → 32 ∉ id →
      link.sent = utf8 "AUTHORIZE " ++ (id ++ 32 :: rest) → Fresh process state place link id := by
  intro place link id rest found absent sent
  have good := good_of_run reached few
  have sound := good.orderly.sound few
  obtain ⟨_, _, _, _, fits⟩ := good
  rcases fits.recorded.worded place link found with list | ⟨meant, entered, chosen, authorizes⟩
  · rw [sent] at list
    have mismatch : ¬ utf8 "AUTHORIZE " <+: utf8 "LIST" ++ [10] := by decide +kernel
    exact absurd ((List.prefix_append _ _).trans list) mismatch
  obtain ⟨remainder, spelled⟩ := authorization_announces meant entered.bytes
  rw [sent, spelled] at authorizes
  obtain rfl : id = meant :=
    announced_unique absent ((plain_of_chosen fits.recorded chosen).not_mem rfl) authorizes
  obtain ⟨taken, selecting, seen, keyName, call, prepared, later, present, lists, named, enrolled, unseen⟩ :=
    call_of_chosen fits.recorded chosen
  refine ⟨taken, selecting, seen, keyName, call, prepared, (fits.recorded.prepared taken prepared).1, later, present,
    lists, named, enrolled, unseen, ?_⟩
  intro worker controller here at_worker target pin delivers
  obtain ⟨inside, told⟩ := target_of_sent (good_of_run reached few) sound found here at_worker delivers
  obtain ⟨further, again⟩ := authorization_announces (number process target) pin.bytes
  rw [sent, again] at told
  have same : number process target = id := announced_unique ((plain_requestId process _).not_mem rfl) absent told
  obtain ⟨_, at_call, _⟩ := enrolled
  have fits_call := PinExchange.index_lt at_call
  exact number_injective process (by omega) (by omega) (same.trans named)

/-! ## A sample run

The command is started before there is an agent. A client then asks for a signature,
and the wrapper finds its request alone and authorizes it. -/

namespace Sample

/-- Bytes that arrive at once. -/
def arriving (bytes : Bytes) : Source :=
  ⟨[bytes].filter (· ≠ []), none, fun _ member => of_decide_eq_true (List.mem_filter.mp member).2⟩

/-- The control socket is there, and the PIN is entered. -/
def attentive : (operation : Exec.Operation) → Exec.Answer operation
  | .symlinkMetadata => (.ok () : Except IoError Unit)
  | .control (.readExistingPin _ _) => (.ok Agent.Sample.pin.bytes : Except String Bytes)
  | operation => Exec.Sample.calm operation

/-- A worker's owner, and the table with the client's request. -/
def owner : Answers Control.Operation Control.Answer
  | .pending => (.ok [(number 1 0, "work")] : Except Unit (List (RequestId × String)))
  | operation => Agent.Sample.owner operation

/-- The preflight finds no control socket. -/
def started : List Joint.Action := List.replicate 7 (.wrapper (arriving []) 0 Exec.Sample.calm)

def goes (count : Nat) (bytes : Bytes) : List Joint.Action :=
  List.replicate count (.wrapper (arriving bytes) 0 attentive)

def serves (place count : Nat) (bytes : Bytes) : List Joint.Action :=
  [.agent (.controller .accept), .agent (.controller .acquire), .accept place] ++
    List.replicate count (.serve place (arriving bytes) 0 owner)

def authorized : List Joint.Action :=
  started ++ .launch :: Agent.Sample.asked.map .agent ++ goes 9 [] ++ serves 0 7 (utf8 "LIST" ++ [10]) ++
    goes 1 (utf8 "OK KEYVISOR-PENDING-1 1" ++ [10]) ++ goes 1 (requestLine (number 1 0, "work") ++ [10]) ++
    goes 4 [] ++ serves 1 6 (authorization (number 1 0) Agent.Sample.pin.bytes)

end Sample

/-- A run in which the wrapper lists one request and authorizes it. -/
theorem sample_authorization_is_fresh : ∃ state link,
    Transition.run (Joint.step Agent.Sample.settings 1) (Joint.initial Exec.Sample.arguments) Sample.authorized =
        some state ∧ state.links[1]? = some link ∧
      link.sent = authorization (number 1 0) Agent.Sample.pin.bytes ∧ Fresh 1 state 1 link (number 1 0) := by
  have ran : (Transition.run (Joint.step Agent.Sample.settings 1) (Joint.initial Exec.Sample.arguments)
      Sample.authorized).map (fun state => (state.agent.exchange.calls.length, (state.links[1]?).map Link.sent)) =
        some (1, some (authorization (number 1 0) Agent.Sample.pin.bytes)) := by decide +kernel
  obtain ⟨state, reached, facts⟩ := Option.map_eq_some_iff.mp ran
  obtain ⟨one, sends⟩ := Prod.mk.inj facts
  obtain ⟨link, found, sent⟩ := Option.map_eq_some_iff.mp sends
  obtain ⟨rest, announces⟩ := authorization_announces (number 1 0) Agent.Sample.pin.bytes
  refine ⟨state, link, reached, found, sent, ?_⟩
  exact authorizations_are_fresh _ _ _ _ state reached (by rw [one]; decide) 1 link (number 1 0) rest found
    (by decide +kernel) (sent.trans announces)

end Keyvisor.Authority
