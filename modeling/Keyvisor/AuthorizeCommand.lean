import Keyvisor.ControlClient
import Keyvisor.Creation
import Keyvisor.Foundation.Monitor

/-!
# Authorizing on the command line

Executable translation of `run_authorize` and `list_authorization_requests` in
`keyvisor-cli/src/main.rs`, over the operations of the control client.

A PIN that the owner enters is given away in one script: it is asked for under the name of a
key that the agent has just listed for the very identifier of the command line, and written on
a new connection right after the line that announces it for this identifier.
-/

namespace Keyvisor.AuthorizeCommand

open Foundation Foundation.Text ControlClient
open Control (RequestId)
open Creation (osText)

abbrev Exchange := Program.Exchange Operation Answer

/-- The argument loop: at most one identifier and one way of input. -/
def parseArguments : List Bytes → Option RequestId → SecretInput → Except String (Option RequestId × SecretInput)
  | [], id, secretInput => .ok (id, secretInput)
  | argument :: rest, id, secretInput =>
    if argument = utf8 "--pin-stdin" then do
      let secretInput ← setSecretInput secretInput .stdin
      parseArguments rest id secretInput
    else if argument = utf8 "--pinentry" then do
      let secretInput ← setSecretInput secretInput .pinentry
      parseArguments rest id secretInput
    else if argument = utf8 "--terminal" then do
      let secretInput ← setSecretInput secretInput .terminal
      parseArguments rest id secretInput
    else
      match id with
      | none => do
        let text ← osText argument "request identifier"
        parseArguments rest (some (utf8 text)) secretInput
      | some _ => .error "usage: keyvisor authorize [REQUEST_ID] [--terminal|--pinentry|--pin-stdin]"

/-- A line on the standard output. -/
def println (line : Bytes) : Routine String Unit :=
  (liftM (Program.call (Operation.println line) : Action Unit) : Routine String Unit)

/-- The lines in order. -/
def printAll : List Bytes → Routine String Unit
  | [] => pure ()
  | line :: rest => do
    println line
    printAll rest

/-- The lines of a listing. -/
def requestLines (requests : List (RequestId × String)) : List Bytes :=
  if requests.isEmpty then [utf8 "No pending authorization requests."]
  else requests.map fun request => request.1 ++ [32, 32] ++ utf8 request.2

/-- `list_authorization_requests`. -/
def listAuthorizationRequests : Routine String Unit := do
  let requests ← fetchAuthorizationRequests
  printAll (requestLines requests)

/-- The name of the first listed key under the identifier. -/
def pendingName (id : RequestId) (requests : List (RequestId × String)) : Except String String :=
  match requests.find? fun request => request.1 = id with
  | some request => .ok request.2
  | none => .error "authorization request is not pending"

/-- `run_authorize` with an identifier. -/
def authorizeNamed (id : RequestId) (secretInput : SecretInput) : Routine String Unit := do
  let requests ← fetchAuthorizationRequests
  let keyName ← pendingName id requests
  authorizeRequest id keyName secretInput true

/-- `run_authorize`. -/
def runAuthorize (arguments : List Bytes) : Routine String Unit := do
  let (id, secretInput) ← parseArguments arguments none .auto
  match id with
  | none => listAuthorizationRequests
  | some id => authorizeNamed id secretInput

/-! ## The script of an authorization -/

/-- The line that announces a PIN. -/
def announcement (id pin : Bytes) : Bytes := utf8 "AUTHORIZE " ++ (id ++ 32 :: decimal pin.length) ++ [10]

/-- What the PIN is asked for. -/
def context (keyName : String) : String := "SSH signature with key “" ++ keyName ++ "”"

/-- How a PIN is entered and given away. -/
def handover (id : RequestId) (secretInput : SecretInput) (keyName : String) (pin : Bytes) : List Exchange :=
  [⟨.readExistingPin (context keyName) secretInput, (.ok pin : Except String Bytes)⟩,
    ⟨.connectControl, (.ok () : Except String Unit)⟩,
    ⟨.write (announcement id pin), (.ok () : Except IoError Unit)⟩,
    ⟨.write pin, (.ok () : Except IoError Unit)⟩,
    ⟨.flush, (.ok () : Except IoError Unit)⟩,
    ⟨.readControlLine, (.ok (utf8 "OK authorized") : Except String Bytes)⟩,
    ⟨.println (utf8 "authorized " ++ id), ()⟩]

/-- A request for a listing, and reading its lines. -/
def Lists : Operation → Prop
  | .connectControl => True
  | .write bytes => bytes = utf8 "LIST" ++ [10]
  | .readControlLine => True
  | _ => False

/-- Only listings were asked for. -/
def Listing (earlier : List Exchange) : Prop := ∀ exchange ∈ earlier, Lists exchange.1

/-- A line was read that lists the identifier with this key. -/
def Listed (id : RequestId) (keyName : String) (earlier : List Exchange) : Prop :=
  ∃ line, ⟨.readControlLine, (.ok line : Except String Bytes)⟩ ∈ earlier ∧ parseRequest line = .ok (id, keyName)

instance decidableAnswer : (operation : Operation) → DecidableEq (Answer operation)
  | .connectControl => inferInstanceAs (DecidableEq (Except String Unit))
  | .write _ => inferInstanceAs (DecidableEq (Except IoError Unit))
  | .flush => inferInstanceAs (DecidableEq (Except IoError Unit))
  | .readControlLine => inferInstanceAs (DecidableEq (Except String Bytes))
  | .readExistingPin _ _ => inferInstanceAs (DecidableEq (Except String Bytes))
  | .println _ => inferInstanceAs (DecidableEq Unit)

/-- Where an authorization is: at its listing, with the lines read so far, or some way along its script. -/
inductive Stage where
  | listing (lines : List Bytes)
  | handing (keyName : String) (pin : Bytes) (done : Nat)
  | stopped
  deriving DecidableEq, Repr

/-- The lines read after one more reply. -/
def noticed (lines : List Bytes) : Except String Bytes → List Bytes
  | .ok line => lines ++ [line]
  | .error _ => lines

/-- The key under whose name the PIN may be asked for. -/
def keyNamed (id : RequestId) (asked : String) (line : Bytes) : Option String :=
  match parseRequest line with
  | .ok (other, keyName) => if other = id ∧ asked = context keyName then some keyName else none
  | .error _ => none

/-- A PIN begins the script, and a failure to ask for it ends the command. -/
def begun (keyName : String) : Except String Bytes → Stage
  | .ok pin => .handing keyName pin 1
  | .error _ => .stopped

/-- Before the PIN is asked for, the requests are listed, and then one of them is authorized. -/
def listingMonitor (id : RequestId) (secretInput : SecretInput) (lines : List Bytes) :
    (operation : Operation) → Answer operation → Option Stage
  | .connectControl, _ => some (.listing lines)
  | .write bytes, _ => if bytes = utf8 "LIST" ++ [10] then some (.listing lines) else none
  | .readControlLine, answer => some (.listing (noticed lines answer))
  | .readExistingPin asked input, answer =>
    if input = secretInput then (lines.findSome? (keyNamed id asked)).map fun keyName => begun keyName answer else none
  | .flush, _ => none
  | .println _, _ => none

/-- The listing comes first, and then every exchange is the next one of the script until one fails. -/
def advance (id : RequestId) (secretInput : SecretInput) (stage : Stage) (exchange : Exchange) : Option Stage :=
  match stage with
  | .listing lines => listingMonitor id secretInput lines exchange.1 exchange.2
  | .handing keyName pin done =>
    match (handover id secretInput keyName pin)[done]? with
    | some expected =>
      if exchange = expected then some (.handing keyName pin (done + 1))
      else if exchange.1 = expected.1 then some .stopped
      else none
    | none => none
  | .stopped => none

/-- Fetching the requests only lists them. -/
theorem issues_fetch {allowed : Operation → Prop} (permitted : ∀ operation, Lists operation → allowed operation) :
    fetchAuthorizationRequests.run.Issues allowed := by
  have reads (count : Nat) : (readRequests count).run.Issues allowed := by
    induction count with
    | zero => trivial
    | succ count inductionHypothesis =>
      refine (Program.issues_adapt _ (Program.issues_call (permitted .readControlLine trivial))).routine fun line => ?_
      exact (Program.issues_check _ _).routine fun request => inductionHypothesis.routine fun rest => trivial
  refine (Program.issues_adapt _ (Program.issues_call (permitted .connectControl trivial))).routine fun _ => ?_
  refine (Program.issues_adapt _ (Program.issues_call (permitted (.write _) rfl))).routine fun _ => ?_
  refine (Program.issues_adapt _ (Program.issues_call (permitted .readControlLine trivial))).routine fun header => ?_
  exact (Program.issues_check _ _).routine reads

/-- Without an identifier the command lists what is pending and asks for no PIN. -/
theorem runAuthorize_lists {arguments : List Bytes} {secretInput : SecretInput}
    (parsed : parseArguments arguments none .auto = .ok (none, secretInput)) :
    (runAuthorize arguments).run.Issues fun operation => Lists operation ∨ ∃ line, operation = .println line := by
  have prints (lines : List Bytes) : (printAll lines).run.Issues fun operation => Lists operation ∨
      ∃ line, operation = .println line := by
    induction lines with
    | nil => trivial
    | cons line rest inductionHypothesis =>
      exact (Program.issues_observed (Program.issues_call (.inr ⟨line, rfl⟩))).routine fun _ => inductionHypothesis
  have runs : runAuthorize arguments = listAuthorizationRequests := by
    rw [runAuthorize, parsed]
    rfl
  rw [runs]
  exact (issues_fetch fun operation lists => .inl lists).routine fun requests => prints _

section

variable {id : RequestId} {secretInput : SecretInput}

/-- A listing goes on, and its requests were read in the lines after the first ones. -/
def Collected (lines : List Bytes) (stage : Stage) (outcome : Except String (List (RequestId × String))) : Prop :=
  ∃ later, stage = .listing (lines ++ later) ∧
    ∀ requests, outcome = .ok requests → ∀ request ∈ requests, ∃ line ∈ later, parseRequest line = .ok request

/-- A failed reading collects nothing. -/
theorem collected_error (lines later : List Bytes) (message : String) :
    Collected lines (.listing (lines ++ later)) (.error message) := by
  refine ⟨later, rfl, fun requests impossible => ?_⟩
  cases impossible

/-- The read requests are collected with the lines that named them. -/
theorem collected_ok (lines : List Bytes) {later : List Bytes} {requests : List (RequestId × String)}
    (read : ∀ request ∈ requests, ∃ line ∈ later, parseRequest line = .ok request) :
    Collected lines (.listing (lines ++ later)) (.ok requests) := by
  refine ⟨later, rfl, fun others same => ?_⟩
  cases same
  exact read

/-- Every request of a listing was read in a line. -/
theorem readRequests_lists (count : Nat) (lines : List Bytes) :
    Program.Complies (advance id secretInput) (.listing lines) (readRequests count).run (Collected lines) := by
  induction count generalizing lines with
  | zero =>
    have unread : Collected lines (.listing (lines ++ [])) (.ok []) :=
      collected_ok lines fun request absent => absurd absent List.not_mem_nil
    rwa [List.append_nil] at unread
  | succ count inductionHypothesis =>
    refine Program.Complies.routine (Program.complies_demand (Program.complies_call fun reply => ⟨_, rfl, ?_⟩))
    cases (reply : Except String Bytes) with
    | error message =>
      have unread := collected_error lines [] message
      rwa [List.append_nil] at unread
    | ok line =>
      refine Program.continues_ok (Program.Complies.routine (Program.complies_check ?_))
      cases parsed : parseRequest line with
      | error message => exact collected_error lines [line] message
      | ok request =>
        refine Program.continues_ok (Program.Complies.routine ((inductionHypothesis (lines ++ [line])).weaken ?_))
        rintro _ (message | rest) ⟨later, rfl, read⟩
        · rw [List.append_assoc]
          exact collected_error lines _ message
        · rw [List.append_assoc]
          refine collected_ok lines fun other member => ?_
          rcases List.mem_cons.mp member with rfl | old
          · exact ⟨line, List.mem_cons_self, parsed⟩
          · obtain ⟨read, member, parses⟩ := read rest rfl other old
            exact ⟨read, List.mem_cons_of_mem _ member, parses⟩

/-- Every request that is fetched was read in a line. -/
theorem fetch_lists :
    Program.Complies (advance id secretInput) (.listing []) fetchAuthorizationRequests.run (Collected []) := by
  refine Program.Complies.routine (Program.complies_demand (Program.complies_call fun connected =>
    ⟨.listing [], rfl, ?_⟩))
  cases (connected : Except String Unit) with
  | error message => exact collected_error [] [] message
  | ok _ =>
    refine Program.continues_ok (Program.Complies.routine (Program.complies_demand
      (Program.complies_call fun written => ?_)))
    have permitted : listingMonitor id secretInput [] (.write (utf8 "LIST" ++ [10])) written = some (.listing []) := by
      rw [listingMonitor, if_pos rfl]
    refine ⟨.listing [], permitted, ?_⟩
    cases (written : Except IoError Unit) with
    | error error => exact collected_error [] [] _
    | ok _ =>
      refine Program.continues_ok (Program.Complies.routine (Program.complies_demand
        (Program.complies_call fun header => ?_)))
      refine ⟨_, rfl, ?_⟩
      cases (header : Except String Bytes) with
      | error message => exact collected_error [] [] message
      | ok header =>
        refine Program.continues_ok (Program.Complies.routine (Program.complies_check ?_))
        cases parseHeader header with
        | error message => exact collected_error [] [header] message
        | ok count =>
          refine Program.continues_ok ((readRequests_lists count [header]).weaken ?_)
          rintro _ outcome ⟨later, rfl, read⟩
          refine ⟨_, rfl, fun requests same request member => ?_⟩
          obtain ⟨line, listed, parses⟩ := read requests same request member
          exact ⟨line, List.mem_cons_of_mem _ listed, parses⟩

/-- An exchange of the script that succeeds goes on with it, and any other answer stops it. -/
theorem advance_handing {keyName : String} {pin : Bytes} {done : Nat} {expected : Exchange} {operation : Operation}
    (next : (handover id secretInput keyName pin)[done]? = some expected) (answer : Answer operation)
    (asked : operation = expected.1) : advance id secretInput (.handing keyName pin done) ⟨operation, answer⟩ =
      if (⟨operation, answer⟩ : Exchange) = expected then some (.handing keyName pin (done + 1))
      else some .stopped := by
  subst asked
  simp only [advance, next, ↓reduceIte]

/-- An answer other than the expected one stops the script. -/
theorem stops_at {operation : Operation} {answer expected : Answer operation} {stage : Stage}
    (other : answer ≠ expected) :
    (if (⟨operation, answer⟩ : Exchange) = ⟨operation, expected⟩ then some stage else some .stopped) = some .stopped :=
  if_neg fun same => other (eq_of_heq (Sigma.mk.inj same).2)

/-- The PIN of a listed key is given away as the script has it. -/
theorem authorizeRequest_hands {keyName : String} {lines : List Bytes}
    (listed : ∃ line ∈ lines, parseRequest line = .ok (id, keyName)) :
    Program.Complies (advance id secretInput) (.listing lines) (authorizeRequest id keyName secretInput true).run
      fun stage outcome => outcome = .ok () → ∃ keyName pin, stage = .handing keyName pin 7 := by
  have failing {stage : Stage} (message : String) : (.error message : Except String Unit) = .ok () →
      ∃ keyName pin, stage = .handing keyName pin 7 := by
    intro impossible
    cases impossible
  obtain ⟨about, found⟩ : ∃ about, lines.findSome? (keyNamed id (context keyName)) = some about := by
    rw [← Option.isSome_iff_exists, List.findSome?_isSome_iff]
    obtain ⟨line, member, parses⟩ := listed
    exact ⟨line, member, by simp [keyNamed, parses]⟩
  refine Program.Complies.routine (Program.complies_demand (Program.complies_call fun entered => ?_))
  refine ⟨begun about entered, ?_, ?_⟩
  · show listingMonitor id secretInput lines (.readExistingPin (context keyName) secretInput) entered = _
    simp only [listingMonitor, ↓reduceIte, found, Option.map_some]
  cases (entered : Except String Bytes) with
  | error message => exact failing _
  | ok pin =>
    refine Program.continues_ok (Program.Complies.routine (Program.complies_demand
      (Program.complies_call fun connected => ?_)))
    rw [begun, advance_handing rfl connected rfl]
    cases (connected : Except String Unit) with
    | error message => exact ⟨.stopped, stops_at (by intro same; cases same), failing _⟩
    | ok _ =>
      refine ⟨_, if_pos rfl, Program.continues_ok (Program.Complies.routine (Program.complies_demand ?_))⟩
      refine Program.complies_call fun announced => ?_
      rw [advance_handing rfl announced rfl]
      cases (announced : Except IoError Unit) with
      | error error => exact ⟨.stopped, stops_at (by intro same; cases same), failing _⟩
      | ok _ =>
        refine ⟨_, if_pos rfl, Program.continues_ok (Program.Complies.routine (Program.complies_demand ?_))⟩
        refine Program.complies_call fun written => ?_
        rw [advance_handing rfl written rfl]
        cases (written : Except IoError Unit) with
        | error error => exact ⟨.stopped, stops_at (by intro same; cases same), failing _⟩
        | ok _ =>
          refine ⟨_, if_pos rfl, Program.continues_ok (Program.Complies.routine (Program.complies_demand ?_))⟩
          refine Program.complies_call fun flushed => ?_
          rw [advance_handing rfl flushed rfl]
          cases (flushed : Except IoError Unit) with
          | error error => exact ⟨.stopped, stops_at (by intro same; cases same), failing _⟩
          | ok _ =>
            refine ⟨_, if_pos rfl, Program.continues_ok (Program.Complies.routine (Program.complies_demand ?_))⟩
            refine Program.complies_call fun reply => ?_
            rw [advance_handing rfl reply rfl]
            cases (reply : Except String Bytes) with
            | error message => exact ⟨.stopped, stops_at (by intro same; cases same), failing _⟩
            | ok line =>
              by_cases confirmed : line = utf8 "OK authorized"
              · subst confirmed
                refine ⟨_, if_pos rfl, Program.continues_ok (Program.Complies.routine (Program.complies_check ?_))⟩
                rw [checkReply, if_pos rfl]
                refine Program.continues_ok (Program.complies_observed (Program.complies_call fun printed => ?_))
                rw [advance_handing rfl printed rfl]
                exact ⟨_, if_pos rfl, fun _ => ⟨about, pin, rfl⟩⟩
              · refine ⟨.stopped, stops_at fun same => confirmed (Except.ok.inj same), ?_⟩
                refine Program.continues_ok (Program.Complies.routine (Program.complies_check ?_))
                rw [checkReply, if_neg confirmed]
                exact failing _

/-- What has happened when an authorization is at this stage. -/
def Witnessed (id : RequestId) (secretInput : SecretInput) : Stage → List Exchange → Prop
  | .listing lines, earlier => Listing earlier ∧
      ∀ line ∈ lines, ⟨.readControlLine, (.ok line : Except String Bytes)⟩ ∈ earlier
  | .handing keyName pin done, earlier => ∃ before, Listing before ∧ Listed id keyName before ∧
      earlier = before ++ (handover id secretInput keyName pin).take done
  | .stopped, _ => True

variable {stage next : Stage} {earlier : List Exchange}

/-- The key under whose name a PIN is asked for was listed. -/
theorem listed_of_keyNamed {lines : List Bytes} {asked keyName : String}
    (read : ∀ line ∈ lines, ⟨.readControlLine, (.ok line : Except String Bytes)⟩ ∈ earlier)
    (found : lines.findSome? (keyNamed id asked) = some keyName) :
    Listed id keyName earlier ∧ asked = context keyName := by
  obtain ⟨line, member, names⟩ := List.exists_of_findSome?_eq_some found
  unfold keyNamed at names
  split at names
  · rename_i other name parses
    simp only [Option.ite_none_right_eq_some, Option.some.injEq] at names
    obtain ⟨⟨rfl, rfl⟩, rfl⟩ := names
    exact ⟨⟨line, read line member, parses⟩, rfl⟩
  · cases names

/-- One more operation of a listing makes a listing. -/
theorem Listing.concat {exchange : Exchange} (listing : Listing earlier) (lists : Lists exchange.1) :
    Listing (earlier ++ [exchange]) := by
  intro other member
  rcases List.mem_append.mp member with old | new
  · exact listing other old
  · rw [List.mem_singleton.mp new]
    exact lists

/-- An exchange of the listing keeps what has happened, and begins the script only for a listed
key. -/
theorem witnessed_listing {lines : List Bytes} {operation : Operation} {answer : Answer operation}
    (held : Witnessed id secretInput (.listing lines) earlier)
    (taken : listingMonitor id secretInput lines operation answer = some next) :
    Witnessed id secretInput next (earlier ++ [⟨operation, answer⟩]) := by
  obtain ⟨listing, read⟩ := held
  have still (line : Bytes) (member : line ∈ lines) :
      ⟨.readControlLine, (.ok line : Except String Bytes)⟩ ∈ earlier ++ [(⟨operation, answer⟩ : Exchange)] :=
    List.mem_append_left _ (read line member)
  cases operation with
  | connectControl =>
    cases taken
    exact ⟨listing.concat trivial, still⟩
  | write bytes =>
    simp only [listingMonitor, Option.ite_none_right_eq_some] at taken
    obtain ⟨rfl, ⟨⟩⟩ := taken
    exact ⟨listing.concat rfl, still⟩
  | readControlLine =>
    cases taken
    refine ⟨listing.concat trivial, ?_⟩
    cases (answer : Except String Bytes) with
    | error message => exact still
    | ok line =>
      intro other member
      rcases List.mem_append.mp member with old | new
      · exact still other old
      · rw [List.mem_singleton.mp new]
        exact List.mem_append_right _ List.mem_cons_self
  | readExistingPin asked input =>
    simp only [listingMonitor, Option.ite_none_right_eq_some, Option.map_eq_some_iff] at taken
    obtain ⟨rfl, keyName, found, rfl⟩ := taken
    obtain ⟨listed, rfl⟩ := listed_of_keyNamed read found
    cases (answer : Except String Bytes) with
    | error message => trivial
    | ok pin => exact ⟨earlier, listing, listed, rfl⟩
  | flush => cases taken
  | println line => cases taken

/-- Every accepted exchange keeps what has happened. -/
theorem witnessed_advance {exchange : Exchange} (held : Witnessed id secretInput stage earlier)
    (taken : advance id secretInput stage exchange = some next) :
    Witnessed id secretInput next (earlier ++ [exchange]) := by
  cases stage with
  | listing lines => exact witnessed_listing held taken
  | handing keyName pin done =>
    obtain ⟨before, listing, listed, rfl⟩ := held
    simp only [advance] at taken
    split at taken
    · rename_i expected scripted
      split at taken
      · rename_i same
        cases taken
        subst same
        refine ⟨before, listing, listed, ?_⟩
        rw [List.append_assoc, List.take_add_one, scripted]
        rfl
      · split at taken
        · cases taken
          trivial
        · cases taken
    · cases taken
  | stopped => cases taken

/-- An accepted transcript has happened as its stage says. -/
theorem witnessed_of_accepts (accepted : Program.accepts (advance id secretInput) (.listing []) earlier = some stage) :
    Witnessed id secretInput stage earlier := by
  have start : Witnessed id secretInput (.listing []) [] := by
    refine ⟨fun exchange absent => ?_, fun line absent => ?_⟩ <;> cases absent
  exact Program.accepts_invariant (Witnessed id secretInput) start (fun _ _ _ _ => witnessed_advance) accepted

/-- The next operation of a listing, or of the script of an authorization. -/
inductive Continues (id : RequestId) (secretInput : SecretInput) (earlier : List Exchange) (operation : Operation) :
    Prop where
  | listing (listing : Listing earlier) (lists : Lists operation) : Continues id secretInput earlier operation
  | handing (before : List Exchange) (keyName : String) (pin : Bytes) (done : Nat) (listing : Listing before)
      (listed : Listed id keyName before) (gone : earlier = before ++ (handover id secretInput keyName pin).take done)
      (scripted : (handover id secretInput keyName pin)[done]?.map (fun expected => expected.1) = some operation) :
      Continues id secretInput earlier operation

/-- An accepted exchange goes on with the listing or with the script. -/
theorem continues_of_advance {operation : Operation} {answer : Answer operation}
    (held : Witnessed id secretInput stage earlier)
    (taken : advance id secretInput stage ⟨operation, answer⟩ = some next) :
    Continues id secretInput earlier operation := by
  cases stage with
  | listing lines =>
    obtain ⟨listing, read⟩ := held
    cases operation with
    | connectControl => exact .listing listing trivial
    | write bytes =>
      simp only [advance, listingMonitor, Option.ite_none_right_eq_some] at taken
      exact .listing listing taken.1
    | readControlLine => exact .listing listing trivial
    | readExistingPin asked input =>
      simp only [advance, listingMonitor, Option.ite_none_right_eq_some, Option.map_eq_some_iff] at taken
      obtain ⟨rfl, keyName, found, rfl⟩ := taken
      obtain ⟨listed, rfl⟩ := listed_of_keyNamed read found
      exact .handing earlier keyName [] 0 listing listed (List.append_nil _).symm rfl
    | flush => cases taken
    | println line => cases taken
  | handing keyName pin done =>
    obtain ⟨before, listing, listed, gone⟩ := held
    refine .handing before keyName pin done listing listed gone ?_
    simp only [advance] at taken
    split at taken
    · rename_i expected scripted
      rw [scripted, Option.map_some]
      split at taken
      · rename_i same
        rw [← same]
      · split at taken
        · rename_i same
          rw [← same]
        · cases taken
    · cases taken
  | stopped => cases taken

/-- Authorizing a named request succeeds only at the end of its script. -/
theorem authorizeNamed_advances : Program.Complies (advance id secretInput) (.listing [])
    (authorizeNamed id secretInput).run
    fun stage outcome => outcome = .ok () → ∃ keyName pin, stage = .handing keyName pin 7 := by
  have failing {stage : Stage} (message : String) : (.error message : Except String Unit) = .ok () →
      ∃ keyName pin, stage = .handing keyName pin 7 := by
    intro impossible
    cases impossible
  refine Program.Complies.routine (fetch_lists.weaken ?_)
  rintro _ (message | requests) ⟨lines, rfl, read⟩
  · exact failing _
  refine Program.continues_ok (Program.Complies.routine (Program.complies_check ?_))
  unfold pendingName
  cases found : requests.find? fun request => request.1 = id with
  | none => exact failing _
  | some request =>
    obtain ⟨line, member, parses⟩ := read requests rfl request (List.mem_of_find?_eq_some found)
    have same : request.1 = id := by simpa using List.find?_some found
    have named : request = (id, request.2) := by rw [← same]
    rw [named] at parses
    exact Program.continues_ok (authorizeRequest_hands ⟨line, member, parses⟩)

/-- Bytes of the identifier are bytes of the line that lists it. -/
theorem mem_of_parseRequest {line : Bytes} {keyName : String} (parses : parseRequest line = .ok (id, keyName))
    {byte : UInt8}
    (member : byte ∈ id) : byte ∈ line := by
  unfold parseRequest at parses
  cases split : Text.splitOnce 9 line with
  | none =>
    rw [split] at parses
    cases parses
  | some parts =>
    obtain ⟨first, second⟩ := parts
    rw [split] at parses
    cases decoded : decodeHexText second with
    | error message =>
      simp only [decoded] at parses
      cases parses
    | ok name =>
      simp only [decoded] at parses
      cases parses
      rw [(splitOnce_eq_some.mp split).1]
      exact List.mem_append_left _ member

end

/-- Whatever the agent answers, a PIN is asked for only after its listing has named a key for the
very identifier of the command line, under the name of this key, and every operation from then on is
the next one of the script: a new connection, the line that announces the PIN for this identifier, the PIN, and one
reply. A success means that the whole script was gone through; and where replies are lines, the announcement
is one line too. -/
theorem pins_are_given_to_the_named_request {arguments : List Bytes} {id : RequestId} {secretInput : SecretInput}
    {transcript : List Exchange} {remaining : Action (Except String Unit)}
    (parsed : parseArguments arguments none .auto = .ok (some id, secretInput))
    (followed : Program.Follows (runAuthorize arguments).run transcript remaining) :
    (∀ earlier operation answer later, transcript = earlier ++ ⟨operation, answer⟩ :: later →
      Continues id secretInput earlier operation) ∧
    (remaining = .done (.ok ()) → ∃ before keyName pin, Listing before ∧ Listed id keyName before ∧
      transcript = before ++ handover id secretInput keyName pin) ∧
    ((∀ line, ⟨.readControlLine, (.ok line : Except String Bytes)⟩ ∈ transcript → 10 ∉ line) →
      ¬ Listing transcript → 10 ∉ id) := by
  have runs : runAuthorize arguments = authorizeNamed id secretInput := by
    rw [runAuthorize, parsed]
    rfl
  rw [runs] at followed
  obtain ⟨final, traced, complies⟩ := authorizeNamed_advances.of_follows followed
  have follows (earlier : List Exchange) (operation : Operation) (answer : Answer operation) (later : List Exchange)
      (parts : transcript = earlier ++ ⟨operation, answer⟩ :: later) : Continues id secretInput earlier operation := by
    rw [parts] at traced
    obtain ⟨stage, next, reached, taken⟩ := Program.accepts_at traced
    exact continues_of_advance (witnessed_of_accepts reached) taken
  refine ⟨follows, ?_, ?_⟩
  · rintro rfl
    obtain ⟨keyName, pin, rfl⟩ := complies rfl
    obtain ⟨before, listing, listed, gone⟩ := witnessed_of_accepts traced
    exact ⟨before, keyName, pin, listing, listed, gone⟩
  · intro lines asked newline
    obtain ⟨⟨operation, answer⟩, member, unlisted⟩ : ∃ exchange ∈ transcript, ¬ Lists exchange.1 := by
      simpa [Listing] using asked
    obtain ⟨earlier, later, parts⟩ := List.append_of_mem member
    cases follows earlier operation answer later parts with
    | listing _ lists => exact unlisted lists
    | handing before keyName pin done _ listed gone _ =>
      obtain ⟨line, read, parses⟩ := listed
      refine lines line ?_ (mem_of_parseRequest parses newline)
      rw [parts, gone]
      exact List.mem_append_left _ (List.mem_append_left _ read)

namespace Sample

/-- One request is pending, and the owner enters a PIN for it. -/
def transcript : List Exchange :=
  [⟨.connectControl, (.ok () : Except String Unit)⟩,
    ⟨.write (utf8 "LIST" ++ [10]), (.ok () : Except IoError Unit)⟩,
    ⟨.readControlLine, (.ok (utf8 "OK KEYVISOR-PENDING-1 1") : Except String Bytes)⟩,
    ⟨.readControlLine, (.ok (utf8 "1f-2\t776f726b") : Except String Bytes)⟩] ++
    handover (utf8 "1f-2") .terminal "work" (utf8 "918273")

end Sample

/-- A transcript in which a PIN is entered for a request that was listed. -/
theorem pins_are_given_to_the_named_request_entered : ∃ before keyName pin, Listing before ∧
    Listed (utf8 "1f-2") keyName before ∧
      Sample.transcript = before ++ handover (utf8 "1f-2") .terminal keyName pin := by
  have parsed : parseArguments [utf8 "1f-2", utf8 "--terminal"] none .auto = .ok (some (utf8 "1f-2"), .terminal) := rfl
  have followed : Program.Follows (runAuthorize [utf8 "1f-2", utf8 "--terminal"]).run Sample.transcript
      (.done (.ok ())) :=
    (Program.follow_eq_some _ _ _).mp rfl
  exact (pins_are_given_to_the_named_request parsed followed).2.1 rfl

end Keyvisor.AuthorizeCommand
