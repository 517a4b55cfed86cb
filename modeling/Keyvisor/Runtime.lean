import Keyvisor.Foundation.Monitor
import Keyvisor.History
import Keyvisor.Protocol

/-!
# Serving one agent request

Executable translation of `AgentRuntime::handle`, `sign_with_key` and
`record_history` in `keyvisor-agent/src/main.rs`. A request is a program over the
resources it shares with the rest of the process: the cancellation flag, the key
store, the authorization table, the TPM and the history. Waiting for a PIN is one
operation here; its own steps belong to the authorization protocol.

The signing command carries the record that it is issued for, from which the
source takes the object and the algorithm. The two SHA-2 digests come from a
crate outside the repository and are a parameter.
-/

namespace Keyvisor.Runtime

open Foundation Foundation.Text RecordCodec Protocol History
open Foundation.Program (demand)

/-- What a request asks of its environment. -/
inductive Operation where
  | cancelled
  | listKeys
  | requestPin (keyName : String)
  | lockTpm
  | connectTpm
  | sign (key : StoredKey) (digest : Bytes) (authorization : TpmAuthorization)
  | clock
  | appendHistory (entry : HistoryEntry)
  deriving DecidableEq, Repr

/-- The TPM mutex answers whether a connection is already open, unless it is
poisoned; the clock has no answer before the epoch. -/
def Answer : Operation → Type
  | .cancelled => Bool
  | .listKeys => Except StoreError (List StoredKey)
  | .requestPin _ => Except String Bytes
  | .lockTpm => Except Unit Bool
  | .connectTpm => Except TpmError Unit
  | .sign _ _ _ => Except TpmError Bytes
  | .clock => Option UInt64
  | .appendHistory _ => Except String Unit

abbrev Action := Program Operation Answer

abbrev Routine (ε : Type) := ExceptT ε Action

/-- The parts of the runtime that do not change: the digests and the setting. -/
structure Settings where
  digest : KeyAlgorithm → Bytes → Bytes
  historyEnabled : Bool

/-- A cancelled request goes no further. -/
def checkFlag (cancelled : Bool) : Except String Unit :=
  if cancelled then .error "SSH client disconnected" else .ok ()

/-- `RequestCancellation::check`. -/
def check : Routine String Unit := do
  let cancelled ← (liftM (Program.call Operation.cancelled : Action Bool) : Routine String Bool)
  checkFlag cancelled

/-- The records of the store. -/
def listKeys : Routine String (List StoredKey) :=
  demand StoreError.message (Program.call Operation.listKeys)

/-- A key without a PIN asks for none. -/
def pinFor (key : StoredKey) : Routine String Bytes :=
  match key.summary.usePolicy with
  | .noPin => pure []
  | .tpmPin => demand (fun message => message) (Program.call (Operation.requestPin key.summary.name))

/-- The authorization for a record. -/
def authorizationFor (key : StoredKey) (pin : Bytes) : TpmAuthorization :=
  match key.summary.usePolicy with
  | .noPin => .none
  | .tpmPin => .pin pin

/-- Open the TPM unless an earlier request did. -/
def connected : Bool → Routine String Unit
  | true => pure ()
  | false => demand (fun error : TpmError => "cannot open the TPM: " ++ error.message)
      (Program.call Operation.connectTpm)

/-- The signing command and what follows it. -/
def signAndFrame (key : StoredKey) (digest : Bytes) (authorization : TpmAuthorization) :
    Routine String Bytes := do
  let signature ← demand (fun error : TpmError => "TPM signing failed: " ++ error.message)
    (Program.call (Operation.sign key digest authorization))
  check
  (ecdsaSignatureResponse key.summary.algorithm signature).mapError ProtocolError.message

/-- The final test that the signer initialized cannot fail and has no branch. -/
def signWithKey (settings : Settings) (key : StoredKey) (data : Bytes) : Routine String Bytes := do
  let digest := settings.digest key.summary.algorithm data
  let pin ← pinFor key
  check
  let authorization := authorizationFor key pin
  let isOpen ← demand (fun _ : Unit => "TPM signer state is unavailable") (Program.call Operation.lockTpm)
  connected isOpen
  signAndFrame key digest authorization

/-- The outcome is recorded when history is enabled; a failure is only printed. -/
def recordHistory (settings : Settings) (key : StoredKey) (outcome : HistoryOutcome) : Action Unit :=
  if settings.historyEnabled then do
    let now ← (Program.call Operation.clock : Action (Option UInt64))
    let _ ← (Program.call (Operation.appendHistory (historyEntry (now.getD 0) key outcome)) :
      Action (Except String Unit))
    return ()
  else return ()

/-- The outcome that is recorded of a result. -/
def outcomeOf {α : Type} : Except String α → HistoryOutcome
  | .ok _ => .succeeded
  | .error _ => .failed

/-- The first listed record with the requested public key. -/
def findKey (keys : List StoredKey) (publicKey : Bytes) : Except String StoredKey :=
  match keys.find? (fun key => key.summary.publicKey == publicKey) with
  | some key => .ok key
  | none => .error "requested identity is unknown"

/-- `handle` of a request for the identities. -/
def serveIdentities : Routine String Bytes := do
  let keys ← listKeys
  (identitiesResponse (keys.map StoredKey.summary)).mapError ProtocolError.message

/-- `handle` of a request for a signature. -/
def serveSign (settings : Settings) (publicKey data : Bytes) (flags : UInt32) : Routine String Bytes :=
  if flags ≠ 0 then throw "unsupported SSH signature flags"
  else do
    let keys ← listKeys
    let key ← findKey keys publicKey
    let result ← (liftM (signWithKey settings key data).run : Routine String (Except String Bytes))
    (liftM (recordHistory settings key (outcomeOf result)) : Routine String Unit)
    result

/-- `handle` of a parsed request. -/
def serveRequest (settings : Settings) : AgentRequest → Routine String Bytes
  | .requestIdentities => serveIdentities
  | .sign publicKey data flags => serveSign settings publicKey data flags

/-- `AgentRuntime::handle`. -/
def handle (settings : Settings) (packet : Bytes) : Routine String Bytes := do
  check
  let request ← (parseRequest packet).mapError ProtocolError.message
  serveRequest settings request

/-! ## Responses -/

/-- One self-delimiting frame: its length field is its payload's length, which is
between one byte and the packet limit, and its type is the given one. -/
def Framed (messageType : UInt8) (bytes : Bytes) : Prop :=
  ∃ body : Bytes, body.length + 1 ≤ maxPacketLength ∧
    bytes = BigEndian.encode 4 (body.length + 1) ++ messageType :: body

instance (messageType : UInt8) (bytes : Bytes) : Decidable (Framed messageType bytes) :=
  decidable_of_iff ((bytes.drop 5).length + 1 ≤ maxPacketLength ∧
      bytes = BigEndian.encode 4 ((bytes.drop 5).length + 1) ++ messageType :: bytes.drop 5) (by
    constructor
    · exact fun ⟨short, spelled⟩ => ⟨bytes.drop 5, short, spelled⟩
    · rintro ⟨body, short, rfl⟩
      have rest : (BigEndian.encode 4 (body.length + 1) ++ messageType :: body).drop 5 = body := by
        rw [List.drop_append, List.drop_eq_nil_of_le (by simp), List.nil_append, BigEndian.length_encode]
        rfl
      rw [rest]
      exact ⟨short, rfl⟩)

/-- A payload that passes the final check is framed. -/
theorem framed_of_checkedFrame {messageType : UInt8} {payload body bytes : Bytes}
    (typed : payload = messageType :: body) (framed : checkedFrame payload = .ok bytes) :
    Framed messageType bytes := by
  subst typed
  unfold checkedFrame at framed
  split at framed
  · cases framed
  · rename_i short
    cases framed
    exact ⟨body, by simpa using short, rfl⟩

/-- Appending a string keeps what was written before it. -/
theorem pushString_extends {output value written : Bytes} (pushed : pushString output value = .ok written) :
    ∃ suffix, written = output ++ suffix := by
  unfold pushString at pushed
  split at pushed
  · cases pushed
  · simp only at pushed
    split at pushed
    · cases pushed
    · cases pushed
      exact ⟨_, List.append_assoc _ _ _⟩

/-- Pushed identities are added at the end. -/
theorem pushIdentities_extends (keys : List KeySummary) {output written : Bytes}
    (pushed : keys.foldlM pushIdentity output = .ok written) : ∃ suffix, written = output ++ suffix := by
  induction keys generalizing output with
  | nil =>
    cases pushed
    exact ⟨[], (List.append_nil _).symm⟩
  | cons key rest inductionHypothesis =>
    obtain ⟨middle, first, later⟩ := (bind_eq_ok _ _ _).mp pushed
    obtain ⟨blob, blobPushed, namePushed⟩ := (bind_eq_ok _ _ _).mp first
    obtain ⟨blobSuffix, rfl⟩ := pushString_extends blobPushed
    obtain ⟨nameSuffix, rfl⟩ := pushString_extends namePushed
    obtain ⟨suffix, rfl⟩ := inductionHypothesis later
    exact ⟨blobSuffix ++ (nameSuffix ++ suffix), by simp only [List.append_assoc]⟩

/-- A response with identities is framed with its type. -/
theorem framed_identitiesResponse {keys : List KeySummary} {bytes : Bytes}
    (encoded : identitiesResponse keys = .ok bytes) : Framed ssh2AgentIdentitiesAnswer bytes := by
  unfold identitiesResponse at encoded
  split at encoded
  · cases encoded
  · obtain ⟨payload, pushed, framed⟩ := (bind_eq_ok _ _ _).mp encoded
    obtain ⟨suffix, rfl⟩ := pushIdentities_extends keys pushed
    exact framed_of_checkedFrame rfl framed

/-- A response with a signature is framed with its type. -/
theorem framed_ecdsaSignatureResponse {algorithm : KeyAlgorithm} {signature bytes : Bytes}
    (encoded : ecdsaSignatureResponse algorithm signature = .ok bytes) : Framed ssh2AgentSignResponse bytes := by
  unfold ecdsaSignatureResponse at encoded
  simp only [List.splitAt_eq] at encoded
  split at encoded
  · cases encoded
  split at encoded
  · cases encoded
  obtain ⟨_, _, encoded⟩ := (bind_eq_ok _ _ _).mp encoded
  obtain ⟨_, _, encoded⟩ := (bind_eq_ok _ _ _).mp encoded
  obtain ⟨_, _, encoded⟩ := (bind_eq_ok _ _ _).mp encoded
  obtain ⟨_, _, encoded⟩ := (bind_eq_ok _ _ _).mp encoded
  obtain ⟨payload, pushed, framed⟩ := (bind_eq_ok _ _ _).mp encoded
  obtain ⟨suffix, rfl⟩ := pushString_extends pushed
  exact framed_of_checkedFrame rfl framed

/-- The failure response is framed with its type. -/
theorem framed_failureResponse : Framed sshAgentFailure failureResponse := ⟨[], by decide, rfl⟩

/-- A successful answer is an identities or a signature frame. -/
def Answered (result : Except String Bytes) : Prop :=
  ∀ bytes, result = .ok bytes →
    Framed ssh2AgentIdentitiesAnswer bytes ∨ Framed ssh2AgentSignResponse bytes

/-! ## The order of operations -/

/-- The record that a sign request for the listed keys is about. -/
def selected (packet : Bytes) (keys : List StoredKey) : Option StoredKey :=
  match parseRequest packet with
  | .ok (.sign publicKey _ flags) =>
    if flags = 0 then keys.find? (fun key => key.summary.publicKey == publicKey) else none
  | _ => none

/-- How far a request has come on its way to a signature. -/
inductive Phase where
  | fresh
  | idle
  | chosen (key : StoredKey)
  | pinned (key : StoredKey) (pin : Bytes)
  | refused (key : StoredKey)
  | signed (key : StoredKey)
  deriving DecidableEq, Repr

/-- The listing decides which record is meant. Only a record with a PIN policy asks
for a PIN, once, under its own name; the signing command is issued for that record
at most once, with the PIN that was answered or, without a PIN policy, with none. -/
def advance (packet : Bytes) (phase : Phase) : Program.Exchange Operation Answer → Option Phase
  | ⟨.listKeys, answer⟩ =>
    match phase, (answer : Except StoreError (List StoredKey)) with
    | .fresh, .ok keys => some ((selected packet keys).elim .idle .chosen)
    | .fresh, .error _ => some .idle
    | _, _ => none
  | ⟨.requestPin keyName, answer⟩ =>
    match phase, (answer : Except String Bytes) with
    | .chosen key, .ok pin =>
      if key.summary.usePolicy = .tpmPin ∧ keyName = key.summary.name then some (.pinned key pin) else none
    | .chosen key, .error _ =>
      if key.summary.usePolicy = .tpmPin ∧ keyName = key.summary.name then some (.refused key) else none
    | _, _ => none
  | ⟨.sign used _ authorization, _⟩ =>
    match phase with
    | .chosen key =>
      if used = key ∧ key.summary.usePolicy = .noPin ∧ authorization = .none then some (.signed key) else none
    | .pinned key pin =>
      if used = key ∧ key.summary.usePolicy = .tpmPin ∧ authorization = .pin pin then some (.signed key)
      else none
    | _ => none
  | _ => some phase

section

variable {packet : Bytes} {phase : Phase}

/-- A cancellation check leaves the phase alone and may fail. -/
theorem check_complies {post : Phase → Except String Unit → Prop} (passes : post phase (.ok ()))
    (fails : ∀ message, post phase (.error message)) :
    Program.Complies (advance packet) phase check.run post := by
  refine Program.Complies.routine (Program.complies_observed (Program.complies_call fun cancelled => ?_))
  refine ⟨phase, rfl, Program.continues_ok (Program.complies_check ?_)⟩
  cases cancelled with
  | true => exact fails _
  | false => exact passes

/-- Recording asks only the clock and the history. -/
theorem recordHistory_complies (settings : Settings) (key : StoredKey) (outcome : HistoryOutcome)
    {post : Phase → Unit → Prop} (holds : post phase ()) :
    Program.Complies (advance packet) phase (recordHistory settings key outcome) post := by
  unfold recordHistory
  split
  · exact fun now => ⟨phase, rfl, fun answer => ⟨phase, rfl, holds⟩⟩
  · exact holds

end

/-- A sequence whose first part fails ends in that failure, which answers nothing. -/
theorem answered_error (message : String) : Answered (.error message) := nofun

section

variable {packet : Bytes} {phase : Phase} {key : StoredKey} {digest : Bytes}
  {authorization : TpmAuthorization}
  (permitted : ∀ answer, advance packet phase ⟨.sign key digest authorization, answer⟩ = some (.signed key))

include permitted

/-- A permitted signing command answers with a signature frame. -/
theorem signAndFrame_complies :
    Program.Complies (advance packet) phase (signAndFrame key digest authorization).run
      fun _ result => Answered result := by
  refine Program.Complies.routine (Program.complies_demand (Program.complies_call fun answer => ?_))
  refine ⟨.signed key, permitted answer, ?_⟩
  cases (answer : Except TpmError Bytes) with
  | error error => exact answered_error _
  | ok signature =>
    refine Program.Complies.routine (check_complies (Program.continues_ok ?_) answered_error)
    refine Program.complies_check fun bytes encoded => .inr ?_
    exact framed_ecdsaSignatureResponse ((mapError_eq_ok _ _ _).mp encoded)

/-- Checking, locking and connecting leave the phase alone. -/
theorem signAuthorized_complies :
    Program.Complies (advance packet) phase (do
      check
      let isOpen ← demand (fun _ : Unit => "TPM signer state is unavailable") (Program.call Operation.lockTpm)
      connected isOpen
      signAndFrame key digest authorization : Routine String Bytes).run fun _ result => Answered result := by
  refine Program.Complies.routine (check_complies (Program.continues_ok ?_) answered_error)
  refine Program.Complies.routine (Program.complies_demand (Program.complies_call fun answer => ⟨phase, rfl, ?_⟩))
  cases (answer : Except Unit Bool) with
  | error _ => exact answered_error _
  | ok isOpen =>
    refine Program.Complies.routine ?_
    cases isOpen with
    | true => exact signAndFrame_complies permitted
    | false =>
      refine Program.complies_demand (Program.complies_call fun answer => ⟨phase, rfl, ?_⟩)
      cases (answer : Except TpmError Unit) with
      | error error => exact answered_error _
      | ok _ => exact signAndFrame_complies permitted

end

/-- Signing with a chosen record asks for its PIN exactly when its policy says so,
and signs with what was answered. -/
theorem signWithKey_complies (settings : Settings) (packet : Bytes) (key : StoredKey) (data : Bytes) :
    Program.Complies (advance packet) (.chosen key) (signWithKey settings key data).run
      fun _ result => Answered result := by
  refine Program.Complies.routine ?_
  unfold pinFor
  cases policy : key.summary.usePolicy with
  | noPin =>
    refine signAuthorized_complies fun answer => ?_
    simp [advance, authorizationFor, policy]
  | tpmPin =>
    refine Program.complies_demand (Program.complies_call fun answer => ?_)
    cases (answer : Except String Bytes) with
    | error message => exact ⟨.refused key, by simp [advance, policy], answered_error _⟩
    | ok pin =>
      refine ⟨.pinned key pin, by simp [advance, policy], signAuthorized_complies fun answer => ?_⟩
      simp [advance, authorizationFor, policy]

/-- Serving the identities keeps the order of `handle`. -/
theorem serveIdentities_complies (packet : Bytes) :
    Program.Complies (advance packet) .fresh serveIdentities.run fun _ result => Answered result := by
  refine Program.Complies.routine (Program.complies_demand (Program.complies_call fun answer => ?_))
  cases (answer : Except StoreError (List StoredKey)) with
  | error error => exact ⟨.idle, rfl, answered_error _⟩
  | ok keys =>
    refine ⟨_, rfl, Program.continues_ok (Program.complies_check fun bytes encoded => .inl ?_)⟩
    exact framed_identitiesResponse ((mapError_eq_ok _ _ _).mp encoded)

/-- The record found in the listing is the selected one. -/
theorem findKey_selected {packet publicKey data : Bytes} {keys : List StoredKey}
    (parsed : parseRequest packet = .ok (.sign publicKey data 0)) :
    findKey keys publicKey = (selected packet keys).elim (.error "requested identity is unknown") .ok := by
  unfold findKey selected
  rw [parsed]
  simp only [↓reduceIte]
  cases keys.find? (fun key => key.summary.publicKey == publicKey) <;> rfl

/-- Serving a signature keeps the order of `handle`. -/
theorem serveSign_complies (settings : Settings) {packet publicKey data : Bytes} {flags : UInt32}
    (parsed : parseRequest packet = .ok (.sign publicKey data flags)) :
    Program.Complies (advance packet) .fresh (serveSign settings publicKey data flags).run
      fun _ result => Answered result := by
  unfold serveSign
  split
  · exact answered_error _
  · rename_i plain
    obtain rfl := not_not.mp plain
    refine Program.Complies.routine (Program.complies_demand (Program.complies_call fun answer => ?_))
    cases (answer : Except StoreError (List StoredKey)) with
    | error error => exact ⟨.idle, rfl, answered_error _⟩
    | ok keys =>
      refine ⟨_, rfl, Program.continues_ok (Program.Complies.routine (Program.complies_check ?_))⟩
      rw [findKey_selected parsed]
      cases selected packet keys with
      | none => exact answered_error _
      | some key =>
        refine Program.continues_ok (Program.Complies.routine (Program.complies_observed ?_))
        refine (signWithKey_complies settings packet key data).weaken fun reached result answered => ?_
        refine Program.continues_ok (Program.Complies.routine (Program.complies_observed ?_))
        refine recordHistory_complies settings key _ (Program.continues_ok ?_)
        exact Program.complies_check answered

/-- Every request keeps this order, whatever its environment answers, and every
successful answer is a proper frame. -/
theorem handle_complies (settings : Settings) (packet : Bytes) :
    Program.Complies (advance packet) .fresh (handle settings packet).run fun _ result => Answered result := by
  refine Program.Complies.routine (check_complies (Program.continues_ok ?_) answered_error)
  refine Program.Complies.routine (Program.complies_check ?_)
  cases parsed : parseRequest packet with
  | error error => exact answered_error _
  | ok request =>
    refine Program.continues_ok ?_
    cases request with
    | requestIdentities => exact serveIdentities_complies packet
    | sign publicKey data flags => exact serveSign_complies settings parsed

/-! ## What a request has done -/

/-- The answer to a request for a PIN. -/
def pinAnswer : Program.Exchange Operation Answer → Option (Except String Bytes)
  | ⟨.requestPin _, answer⟩ => some answer
  | _ => none

/-- The record and the authorization of a signing command. -/
def signCall : Operation → Option (StoredKey × TpmAuthorization)
  | .sign key _ authorization => some (key, authorization)
  | _ => none

/-- The answers of `request_pin`. -/
def pinAnswers (transcript : List (Program.Exchange Operation Answer)) : List (Except String Bytes) :=
  transcript.filterMap pinAnswer

/-- The signing commands, with what authorized them. -/
def signCalls (transcript : List (Program.Exchange Operation Answer)) : List (StoredKey × TpmAuthorization) :=
  transcript.filterMap fun exchange => signCall exchange.1

/-- The answer of one more exchange comes last. -/
theorem pinAnswers_concat (transcript : List (Program.Exchange Operation Answer))
    (exchange : Program.Exchange Operation Answer) :
    pinAnswers (transcript ++ [exchange]) = pinAnswers transcript ++ (pinAnswer exchange).toList := by
  cases found : pinAnswer exchange <;> simp [pinAnswers, found]

/-- The signing command of one more exchange comes last. -/
theorem signCalls_concat (transcript : List (Program.Exchange Operation Answer))
    (exchange : Program.Exchange Operation Answer) :
    signCalls (transcript ++ [exchange]) = signCalls transcript ++ (signCall exchange.1).toList := by
  cases found : signCall exchange.1 <;> simp [signCalls, found]

/-- The record that a phase is about. -/
def Phase.key : Phase → Option StoredKey
  | .fresh => none
  | .idle => none
  | .chosen key => some key
  | .pinned key _ => some key
  | .refused key => some key
  | .signed key => some key

/-- The PINs that were answered and the signatures that were asked for, by phase. -/
def Tally : Phase → List (Except String Bytes) → List (StoredKey × TpmAuthorization) → Prop
  | .pinned key pin, pins, signs => key.summary.usePolicy = .tpmPin ∧ pins = [.ok pin] ∧ signs = []
  | .refused key, pins, signs =>
    key.summary.usePolicy = .tpmPin ∧ (∃ message, pins = [.error message]) ∧ signs = []
  | .signed key, pins, signs =>
    (key.summary.usePolicy = .noPin ∧ pins = [] ∧ signs = [(key, .none)]) ∨
      (key.summary.usePolicy = .tpmPin ∧ ∃ pin, pins = [.ok pin] ∧ signs = [(key, .pin pin)])
  | _, pins, signs => pins = [] ∧ signs = []

/-- The tally of a transcript, and the record that its listing selected. -/
structure Accounts (packet : Bytes) (phase : Phase) (transcript : List (Program.Exchange Operation Answer)) :
    Prop where
  tally : Tally phase (pinAnswers transcript) (signCalls transcript)
  listed : ∀ keys : List StoredKey, ⟨.listKeys, (.ok keys : Except StoreError (List StoredKey))⟩ ∈ transcript →
    phase ≠ .fresh ∧ selected packet keys = phase.key

/-- An exchange that neither lists, asks for a PIN nor signs changes no account. -/
theorem Accounts.neutral {packet : Bytes} {phase : Phase} {exchange : Program.Exchange Operation Answer}
    {transcript : List (Program.Exchange Operation Answer)} (accounts : Accounts packet phase transcript)
    (noPin : pinAnswer exchange = none) (noSign : signCall exchange.1 = none)
    (noListing : exchange.1 ≠ .listKeys) : Accounts packet phase (transcript ++ [exchange]) := by
  refine ⟨?_, fun keys member => accounts.listed keys ?_⟩
  · rw [pinAnswers_concat, signCalls_concat, noPin, noSign, Option.toList_none, Option.toList_none,
      List.append_nil, List.append_nil]
    exact accounts.tally
  · rcases List.mem_append.mp member with earlier | last
    · exact earlier
    · cases List.mem_singleton.mp last
      exact absurd rfl noListing

/-- A PIN or a signature concerns the record that the listing selected. -/
theorem Accounts.listed_after {packet : Bytes} {phase next : Phase} {exchange : Program.Exchange Operation Answer}
    {transcript : List (Program.Exchange Operation Answer)} (accounts : Accounts packet phase transcript)
    (noListing : exchange.1 ≠ .listKeys) (begun : next ≠ .fresh) (same : next.key = phase.key) :
    ∀ keys : List StoredKey,
      ⟨.listKeys, (.ok keys : Except StoreError (List StoredKey))⟩ ∈ transcript ++ [exchange] →
        next ≠ .fresh ∧ selected packet keys = next.key := by
  intro keys member
  rcases List.mem_append.mp member with earlier | last
  · exact ⟨begun, same ▸ (accounts.listed keys earlier).2⟩
  · cases List.mem_singleton.mp last
    exact absurd rfl noListing

/-- A listing comes first and selects the record. -/
theorem Accounts.listing {answer : Answer .listKeys} {packet : Bytes} {phase next : Phase}
    {transcript : List (Program.Exchange Operation Answer)} (accounts : Accounts packet phase transcript)
    (advanced : advance packet phase ⟨.listKeys, answer⟩ = some next) :
    Accounts packet next (transcript ++ [⟨.listKeys, answer⟩]) := by
  have fresh : phase = .fresh := by
    cases phase with
    | fresh => rfl
    | _ => simp [advance] at advanced
  subst fresh
  have tally : pinAnswers (transcript ++ [⟨.listKeys, answer⟩]) = [] ∧
      signCalls (transcript ++ [⟨.listKeys, answer⟩]) = [] := by
    obtain ⟨noPins, noSigns⟩ := accounts.tally
    rw [pinAnswers_concat, signCalls_concat, noPins, noSigns]
    exact ⟨rfl, rfl⟩
  cases (answer : Except StoreError (List StoredKey)) with
  | error error =>
    cases advanced
    refine ⟨tally, fun keys member => ?_⟩
    rcases List.mem_append.mp member with earlier | last
    · exact absurd rfl (accounts.listed keys earlier).1
    · cases List.mem_singleton.mp last
  | ok keys =>
    simp only [advance, Option.some.injEq] at advanced
    subst advanced
    have key : ((selected packet keys).elim Phase.idle Phase.chosen).key = selected packet keys := by
      cases selected packet keys <;> rfl
    have begun : (selected packet keys).elim Phase.idle Phase.chosen ≠ .fresh := by
      cases selected packet keys <;> nofun
    refine ⟨?_, fun others member => ⟨begun, ?_⟩⟩
    · cases selected packet keys <;> exact tally
    · rcases List.mem_append.mp member with earlier | last
      · exact absurd rfl (accounts.listed others earlier).1
      · cases List.mem_singleton.mp last
        exact key.symm

/-- A PIN is asked for once, for a record that was selected and needs one. -/
theorem Accounts.pin {keyName : String} {answer : Answer (.requestPin keyName)} {packet : Bytes} {phase next : Phase}
    {transcript : List (Program.Exchange Operation Answer)} (accounts : Accounts packet phase transcript)
    (advanced : advance packet phase ⟨.requestPin keyName, answer⟩ = some next) :
    Accounts packet next (transcript ++ [⟨.requestPin keyName, answer⟩]) := by
  cases phase with
  | chosen key =>
    obtain ⟨noPins, noSigns⟩ := accounts.tally
    cases (answer : Except String Bytes) with
    | ok pin =>
      simp only [advance] at advanced
      split at advanced
      · rename_i policy
        cases advanced
        refine ⟨⟨policy.1, ?_, ?_⟩, accounts.listed_after nofun nofun rfl⟩
        · rw [pinAnswers_concat, noPins]
          rfl
        · rw [signCalls_concat, noSigns]
          rfl
      · cases advanced
    | error message =>
      simp only [advance] at advanced
      split at advanced
      · rename_i policy
        cases advanced
        refine ⟨⟨policy.1, ⟨message, ?_⟩, ?_⟩, accounts.listed_after nofun nofun rfl⟩
        · rw [pinAnswers_concat, noPins]
          rfl
        · rw [signCalls_concat, noSigns]
          rfl
      · cases advanced
  | _ => simp [advance] at advanced

/-- A signature is asked for once, with the PIN of the selected record if it needs one. -/
theorem Accounts.signing {used : StoredKey} {digest : Bytes} {authorization : TpmAuthorization}
    {answer : Answer (.sign used digest authorization)} {packet : Bytes} {phase next : Phase}
    {transcript : List (Program.Exchange Operation Answer)} (accounts : Accounts packet phase transcript)
    (advanced : advance packet phase ⟨.sign used digest authorization, answer⟩ = some next) :
    Accounts packet next (transcript ++ [⟨.sign used digest authorization, answer⟩]) := by
  cases phase with
  | chosen key =>
    obtain ⟨noPins, noSigns⟩ := accounts.tally
    simp only [advance] at advanced
    split at advanced
    · rename_i permitted
      obtain ⟨rfl, policy, rfl⟩ := permitted
      cases advanced
      refine ⟨.inl ⟨policy, ?_, ?_⟩, accounts.listed_after nofun nofun rfl⟩
      · rw [pinAnswers_concat, noPins]
        rfl
      · rw [signCalls_concat, noSigns]
        rfl
    · cases advanced
  | pinned key pin =>
    obtain ⟨_, onePin, noSigns⟩ := accounts.tally
    simp only [advance] at advanced
    split at advanced
    · rename_i permitted
      obtain ⟨rfl, policy, rfl⟩ := permitted
      cases advanced
      refine ⟨.inr ⟨policy, pin, ?_, ?_⟩, accounts.listed_after nofun nofun rfl⟩
      · rw [pinAnswers_concat, onePin]
        rfl
      · rw [signCalls_concat, noSigns]
        rfl
    · cases advanced
  | _ => simp [advance] at advanced

/-- Every accepted exchange keeps the accounts. -/
theorem accounts_advance {packet : Bytes} {phase next : Phase} {exchange : Program.Exchange Operation Answer}
    {transcript : List (Program.Exchange Operation Answer)} (accounts : Accounts packet phase transcript)
    (advanced : advance packet phase exchange = some next) : Accounts packet next (transcript ++ [exchange]) := by
  obtain ⟨operation, answer⟩ := exchange
  cases operation with
  | listKeys => exact accounts.listing advanced
  | requestPin keyName => exact accounts.pin advanced
  | sign used digest authorization => exact accounts.signing advanced
  | cancelled | lockTpm | connectTpm | clock | appendHistory entry =>
    cases advanced
    exact accounts.neutral rfl rfl nofun

/-- The accounts of every accepted transcript. -/
theorem accounts_of_accepts {packet : Bytes} {phase : Phase} {transcript : List (Program.Exchange Operation Answer)}
    (accepted : Program.accepts (advance packet) .fresh transcript = some phase) :
    Accounts packet phase transcript := by
  have begins : Accounts packet .fresh [] := ⟨⟨rfl, rfl⟩, nofun⟩
  exact Program.accepts_invariant (Accounts packet) begins
    (fun _ _ _ _ accounts advanced => accounts_advance accounts advanced) accepted

end Keyvisor.Runtime
